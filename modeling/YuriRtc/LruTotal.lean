import YuriRtc.LruTable
import YuriRtc.Steps
/-!
# LruTotal — the running total of the LRU against its table

Between a transaction and its `applyDelta`, and between a pass's snapshot and its evictions, the running total and the
table are apart.  `Covers` says by how much, for every state: what is still to be added counts with the total, what the
pass still has to subtract for rows that are gone counts with the table.  A row that is deleted at a smaller size than the
pass read it is what breaks it.
-/
namespace YuriRtc
namespace LruCache

variable {rest : List LruEntry} {s t : LruCache} {call txn : Nat} {w : Write} {phase : WritePhase}

/-! ### Rows a pass has read and that are gone -/

def missing (table : Table) (rest : List LruEntry) : Nat :=
  sumSizes (rest.filter (fun e => (table.lookup e.1).isNone))

def Unshrunk (table : Table) (e : LruEntry) : Prop := (table.lookup e.1).isNone ∨ e.2.size ≤ sizeAt table e.1

instance (table : Table) (e : LruEntry) : Decidable (Unshrunk table e) :=
  inferInstanceAs (Decidable (_ ∨ _))

theorem missing_cons (table : Table) (e : LruEntry) (rest : List LruEntry) :
    missing table (e :: rest) = (if (table.lookup e.1).isNone then e.2.size else 0) + missing table rest := by
  unfold missing
  rw [List.filter_cons]
  split
  · exact sumSizes_cons e _
  · rw [Nat.zero_add]

theorem missing_perm (table : Table) {rest' : List LruEntry} (h : rest.Perm rest') :
    missing table rest = missing table rest' :=
  sumSizes_perm (h.filter _)

theorem missing_entries (table : Table) : missing table table.entries = 0 := by
  have hnil : table.entries.filter (fun e => (table.lookup e.1).isNone) = [] := by
    rw [List.filter_eq_nil_iff]
    intro e he
    rw [(Assoc.mem_entries_iff_lookup table e.1 e.2).1 he]
    simp
  unfold missing
  rw [hnil]
  rfl

theorem missing_congr {table table' : Table}
    (h : ∀ e ∈ rest, table'.lookup e.1 = table.lookup e.1) : missing table' rest = missing table rest := by
  simp_all [List.filter_congr, missing]

section

variable (table : Table)
include table

theorem missing_insert_le (url : Url) (row : Row) (rest : List LruEntry) :
    missing (table.insert url row) rest ≤ missing table rest := by
  induction rest with
  | nil => exact le_rfl
  | cons e rest ih =>
    rw [missing_cons, missing_cons]
    by_cases he : e.1 = url
    · grind [AList.lookup_insert]
    · simp_all

theorem missing_writeUse_le (use : Sigma (fun _ : Url => PendingUse)) (rest : List LruEntry) :
    missing (writeUse table use) rest ≤ missing table rest := by
  obtain ⟨-, ht, -⟩ | ⟨previous, -, ht, -⟩ := writeUse_eq table use
  · rw [ht]
  · rw [ht]
    exact missing_insert_le table _ _ rest

theorem missing_writeUses_le (batch : List (Sigma (fun _ : Url => PendingUse)))
    (rest : List LruEntry) : missing (writeUses table batch).1 rest ≤ missing table rest :=
  writeUses_inv (fun t => missing t rest ≤ missing table rest) batch table le_rfl
    (fun t ht use _ => (missing_writeUse_le t use rest).trans ht)

theorem missing_erase_of_notMem {url : Url} (h : url ∉ rest.keys) :
    missing (table.erase url) rest = missing table rest := by
  apply missing_congr
  intro e he
  apply AList.lookup_erase_ne
  grind

theorem missing_erase_le (url : Url) (hnd : rest.NodupKeys)
    (h : ∀ e ∈ rest, e.1 = url → Unshrunk table e) :
    missing (table.erase url) rest ≤ missing table rest + sizeAt table url := by
  induction rest with
  | nil => exact Nat.zero_le _
  | cons e rest ih =>
    rw [missing_cons, missing_cons]
    rw [List.nodupKeys_cons] at hnd
    by_cases he : e.1 = url
    · subst he
      rw [missing_erase_of_notMem table hnd.1]
      simp only [AList.lookup_erase, Option.isNone_none, if_true]
      rcases h e List.mem_cons_self rfl with hgone | hsize
      · rw [if_pos hgone]
        omega
      · omega
    · grind [AList.lookup_erase_ne]

theorem missing_empty_le (hnd : rest.NodupKeys)
    (h : ∀ e ∈ rest, Unshrunk table e) : missing ∅ rest ≤ missing table rest + sumSizes table.entries := by
  induction rest generalizing table with
  | nil => exact Nat.zero_le _
  | cons e rest ih =>
    rw [missing_cons, missing_cons]
    rw [List.nodupKeys_cons] at hnd
    simp only [AList.lookup_empty, Option.isNone_none, if_true]
    rcases h e List.mem_cons_self with hgone | hsize
    · grind
    · -- the row's own size pays for it, and the rest is paid from the table without it
      have hrest : ∀ e' ∈ rest, Unshrunk (table.erase e.1) e' := by
        intro e' he'
        have hne : e'.1 ≠ e.1 := fun heq => hnd.1 (heq ▸ List.mem_keys_of_mem he')
        grind [AList.lookup_erase_ne, sizeAt_erase_ne, Unshrunk]
      have hih := ih (table.erase e.1) hnd.2 hrest
      rw [missing_erase_of_notMem table hnd.1] at hih
      have hsum := sumSizes_erase table e.1
      omega

end

/-! ### What is between the table and the total -/

def snapshot : Option Pass → List LruEntry
  | some ⟨_, .read _ _ _ all⟩ => all
  | some ⟨_, .evicting rest _ _⟩ => rest
  | some ⟨_, .forgetting entry rest _ _⟩ => entry :: rest
  | some ⟨_, .forgot _ rest _ _⟩ => rest
  | _ => []

def owed : Option Pass → Nat
  | some ⟨_, .forgot entry _ _ _⟩ => entry.2.size
  | _ => 0

def phaseDelta (since : Nat) : WritePhase → Int
  | .touched txn delta => if since ≤ txn then delta else 0
  | _ => 0

def batchDelta (since : Nat) : Option (Nat × Int) → Int
  | some (txn, delta) => if since ≤ txn then delta else 0
  | none => 0

/-- The deltas still to be applied of the transactions from number `since` on. -/
def unapplied (since : Nat) (s : LruCache) : Int :=
  overWrites (fun w => phaseDelta since w.phase) s + batchDelta since s.writing

def weight (s : LruCache) : Int := (sumSizes s.table.entries + missing s.table (snapshot s.pass) : Nat)

/-- The call has committed its row and has `applyDelta` still to run. -/
def isTouched : WritePhase → Bool
  | .touched _ _ => true
  | _ => false

/-- No mutation is between its commit and its `applyDelta`. -/
def Settled (s : LruCache) : Prop :=
  (∀ call ∈ s.writes.entries, isTouched call.2.phase = false) ∧ s.writing.isNone ∧ owed s.pass = 0

instance (s : LruCache) : Decidable (Settled s) := inferInstanceAs (Decidable (_ ∧ _))

/-! ### Runs in which the total is kept -/

def removes (s : LruCache) : LruEvent → List Url
  | .forgetVictim =>
    match s.pass with
    | some ⟨_, .forgetting entry _ _ _⟩ => [entry.1]
    | _ => []
  | .deleteCommit index => s.deletions[index]?.toList
  | .clearCommit => s.table.keys
  | _ => []

/-- No row of the pass's snapshot is deleted that has become smaller than the pass read it. -/
def Undisturbed (s : LruCache) (e : LruEvent) : Prop :=
  ∀ row ∈ snapshot s.pass, row.1 ∈ removes s e → Unshrunk s.table row

instance (s : LruCache) (e : LruEvent) : Decidable (Undisturbed s e) := List.decidableBAll _ _

/-- The bytes of the rows that are not among `rest`. -/
def beyond (table : Table) (rest : List LruEntry) : Nat := sumSizes (table.entries.filter (fun e => e.1 ∉ rest.keys))

/-! ### The invariant -/

def Numbered (s : LruCache) : Prop :=
  (∀ e ∈ s.writes.entries, ∀ txn delta, e.2.phase = .touched txn delta → txn < s.transactions) ∧
    ∀ txn delta, s.writing = some (txn, delta) → txn < s.transactions

/-- Where `syncTotal` has read the committed bytes, and what its rows are worth. -/
def Reads (s : LruCache) : Prop :=
  match s.pass with
  | some ⟨_, .syncing _ mark⟩ => mark ≤ s.committedBytes
  | some ⟨_, .read txn _ mark all⟩ =>
    mark ≤ s.committedBytes ∧ txn ≤ s.transactions ∧
      weight s ≤ sumSizes all + (s.committedBytes - mark : Int) + unapplied txn s
  | _ => True

structure Covers (s : LruCache) : Prop where
  numbered : Numbered s
  nodup : (snapshot s.pass).NodupKeys
  reads : Reads s
  covers : s.totalStale = false → ∀ total, s.lruBytes = some total →
    weight s + owed s.pass ≤ total + unapplied 0 s

theorem Covers.start (table : Table) (cached : List Url) : Covers (start table cached) where
  numbered := ⟨fun e he => absurd he List.not_mem_nil, fun txn delta h => by cases h⟩
  nodup := List.nodupKeys_nil
  reads := trivial
  covers := nofun

/-- **What keeps the invariant while the pass stays where it is**: the weight grows by no more than what is added to the
deltas, or to the bytes committed, or to the total. -/
theorem Covers.move (h : Covers s) (hnum : Numbered t) (hpass : t.pass = s.pass)
    (htxn : s.transactions ≤ t.transactions)
    (hread : ∀ since ≤ s.transactions,
      weight t + unapplied since s + s.committedBytes ≤ weight s + unapplied since t + t.committedBytes)
    (hmark : s.committedBytes ≤ t.committedBytes)
    (htotal : t.totalStale = false → ∀ total', t.lruBytes = some total' → s.totalStale = false ∧
      ∃ total : Nat, s.lruBytes = some total ∧
        weight t + unapplied 0 s + total ≤ weight s + unapplied 0 t + total') : Covers t where
  numbered := hnum
  nodup := hpass ▸ h.nodup
  reads := by
    have hreads := h.reads
    grind [Reads]
  covers := by
    intro hstale total' htotal'
    obtain ⟨hs, total, ht, hle⟩ := htotal hstale total' htotal'
    have := h.covers hs total ht
    rw [hpass]
    omega

/-! ### The calls' deltas -/

variable (since : Nat)

theorem unapplied_eq (hw : t.writes = s.writes) (hb : t.writing = s.writing) :
    unapplied since t = unapplied since s := by
  unfold unapplied overWrites
  rw [hw, hb]

theorem Numbered.of_keeps (h : Numbered s) (hw : t.writes = s.writes) (hb : t.writing = s.writing)
    (htxn : s.transactions ≤ t.transactions) : Numbered t := by
  refine ⟨fun e he txn delta hp => ?_, fun txn delta hwr => ?_⟩
  · exact (h.1 e (hw ▸ he) txn delta hp).trans_le htxn
  · exact (h.2 txn delta (hb ▸ hwr)).trans_le htxn

theorem weight_eq (ht : t.table = s.table) (hp : t.pass = s.pass) : weight t = weight s := by
  unfold weight
  rw [ht, hp]

theorem Covers.of_keeps (h : Covers s) (hk : Keeps s t) (hp : t.pass = s.pass) : Covers t := by
  refine h.move (h.numbered.of_keeps hk.writes hk.writing hk.transactions.ge) hp hk.transactions.ge ?_ hk.committed.ge ?_
  · intro since _
    rw [weight_eq hk.table hp, unapplied_eq since hk.writes hk.writing, hk.committed]
  intro hstale total htotal
  rw [weight_eq hk.table hp, unapplied_eq 0 hk.writes hk.writing]
  exact ⟨hk.stale hstale, total, hk.lruBytes ▸ htotal, le_rfl⟩

theorem unapplied_setPhase (hw : s.writes.lookup call = some w) (phase : WritePhase) :
    phaseDelta since w.phase + unapplied since (s.setPhase call w phase) =
      phaseDelta since phase + unapplied since s := by
  have hset := overWrites_setPhase (fun w => phaseDelta since w.phase) hw phase
  dsimp only at hset
  unfold unapplied
  have hb : (s.setPhase call w phase).writing = s.writing := rfl
  rw [hb]
  omega

theorem Numbered.setPhase (h : Numbered s) (call : Nat) (w : Write) (phase : WritePhase)
    (hphase : ∀ txn delta, phase = .touched txn delta → txn < s.transactions) : Numbered (s.setPhase call w phase) := by
  refine ⟨fun e he txn delta hp => ?_, h.2⟩
  change e ∈ (s.writes.insert call { w with phase := phase }).entries at he
  rw [AList.entries_insert, List.mem_cons] at he
  rcases he with rfl | he
  · exact hphase txn delta hp
  · exact h.1 e (List.kerase_sublist call _ |>.subset he) txn delta hp

def Quiet (phase : WritePhase) : Prop := ∀ txn delta, phase ≠ .touched txn delta

theorem phaseDelta_of_older {since : Nat}
    (h : ∀ txn delta, phase = .touched txn delta → txn < since) : phaseDelta since phase = 0 := by
  cases phase with
  | touched txn delta => exact if_neg (not_le.2 (h txn delta rfl))
  | _ => rfl

theorem Quiet.delta (h : Quiet phase) (since : Nat) : phaseDelta since phase = 0 :=
  phaseDelta_of_older (fun txn delta hp => absurd hp (h txn delta))

theorem unapplied_new (hfree : s.writes.lookup call = none) (hw : phaseDelta since w.phase = 0) :
    unapplied since { s with writes := s.writes.insert call w } = unapplied since s := by
  have hnew := overWrites_new (fun w => phaseDelta since w.phase) hfree w
  unfold unapplied
  rw [hnew, hw, Int.zero_add]

theorem unapplied_finish (hw : s.writes.lookup call = some w)
    (hphase : phaseDelta since w.phase = 0) : unapplied since (s.finish call w) = unapplied since s := by
  have hfin := overWrites_finish (fun w => phaseDelta since w.phase) hw
  have hb : (s.finish call w).writing = s.writing := rfl
  unfold unapplied
  rw [hfin, hphase, hb, Int.zero_add]

theorem Covers.setPhase_quiet (h : Covers s) (phase : WritePhase)
    (hw : s.writes.lookup call = some w) (hq : Quiet w.phase) (hq' : Quiet phase) :
    Covers (s.setPhase call w phase) := by
  have hun : ∀ since, unapplied since (s.setPhase call w phase) = unapplied since s := by
    intro since
    have := unapplied_setPhase since hw phase
    rw [hq.delta, hq'.delta] at this
    omega
  refine h.move (h.numbered.setPhase _ w _ fun txn delta hp => absurd hp (hq' txn delta)) rfl le_rfl ?_
    le_rfl ?_
  · intro since _
    rw [hun since, weight_eq rfl rfl]
    exact le_rfl
  intro hstale total htotal
  rw [hun 0, weight_eq rfl rfl]
  exact ⟨hstale, total, htotal, le_rfl⟩

theorem Covers.newWrite (h : Covers s) (hfree : s.writes.lookup call = none) (hq : Quiet w.phase) (reserved : Nat) :
    Covers { s with writes := s.writes.insert call w, reservedBytes := reserved } := by
  have hun : ∀ since, unapplied since { s with writes := s.writes.insert call w, reservedBytes := reserved } =
      unapplied since s := fun since => unapplied_new since hfree (hq.delta since)
  have hnum := h.numbered.setPhase call w w.phase fun txn delta hp => absurd hp (hq txn delta)
  refine h.move ⟨hnum.1, hnum.2⟩ rfl le_rfl ?_ le_rfl ?_
  · grind [weight_eq]
  · grind [weight_eq]

theorem Covers.finish (h : Covers s) (hw : s.writes.lookup call = some w)
    (hq : Quiet w.phase) : Covers (s.finish call w) := by
  have hun := fun since => unapplied_finish since hw (hq.delta since)
  have hsub : (s.finish call w).writes.entries.Sublist s.writes.entries := List.kerase_sublist call _
  refine h.move ⟨fun e he => h.numbered.1 e (hsub.subset he), h.numbered.2⟩ rfl le_rfl ?_ le_rfl ?_
  · intro since _
    rw [hun since, weight_eq rfl rfl]
    exact le_rfl
  intro hstale total htotal
  rw [hun 0, weight_eq rfl rfl]
  exact ⟨hstale, total, htotal, le_rfl⟩

theorem Covers.repass (h : Covers s) (hk : Keeps s t) (hnd : (snapshot t.pass).NodupKeys)
    (hr : Reads t) (hw : weight t + owed t.pass ≤ weight s + owed s.pass) : Covers t where
  numbered := h.numbered.of_keeps hk.writes hk.writing hk.transactions.ge
  nodup := hnd
  reads := hr
  covers := by
    intro hstale total htotal
    have := h.covers (hk.stale hstale) total (hk.lruBytes ▸ htotal)
    rw [unapplied_eq 0 hk.writes hk.writing]
    omega

theorem weight_none (ht : t.table = s.table) (hp : snapshot t.pass = []) : weight t ≤ weight s := by
  have hm : missing s.table [] = 0 := rfl
  unfold weight
  rw [ht, hp, hm]
  omega

theorem Covers.unread (h : Covers s) (hk : Keeps s t) (hsnap : snapshot t.pass = [])
    (howed : owed t.pass = 0) (hr : Reads t) : Covers t := by
  refine h.repass hk (hsnap ▸ List.nodupKeys_nil) hr ?_
  have hw := weight_none hk.table hsnap
  rw [howed]
  omega

theorem Covers.endPass (h : Covers s) (call : Nat) : Covers (s.endPass call) := by
  have hnone : ∀ {u : LruCache}, Covers u → u.table = s.table → Covers { u with pass := none } := by
    intro u hu htable
    exact hu.unread {} rfl rfl trivial
  unfold LruCache.endPass
  split
  · rename_i w hw
    split
    · rename_i hphase
      exact hnone (h.setPhase_quiet _ hw (by simp [Quiet, hphase]) (by simp [Quiet])) rfl
    · exact hnone h rfl
  · exact hnone h rfl

theorem applyDelta_total (s : LruCache) (delta : Int) {total' : Nat} (h : (s.applyDelta delta).lruBytes = some total') :
    ∃ total : Nat, s.lruBytes = some total ∧ (total : Int) + delta ≤ total' := by
  obtain ⟨total, htotal, rfl⟩ := Option.map_eq_some_iff.1 h
  exact ⟨total, htotal, Int.self_le_toNat _⟩

theorem phaseDelta_zero (txn : Nat) (delta : Int) : phaseDelta 0 (.touched txn delta) = delta := by
  simp [phaseDelta]

theorem phaseDelta_le (since txn : Nat) (delta : Int) : phaseDelta since (.touched txn delta) ≤ delta.toNat := by
  simp only [phaseDelta]
  split <;> omega

theorem batchDelta_le (since txn : Nat) (delta : Int) : batchDelta since (some (txn, delta)) ≤ delta.toNat := by
  simp only [batchDelta]
  split <;> omega

/-! ### The steps that move the table or the total -/

theorem Covers.usesCommit (h : Covers s) (batch : Uses) (hnone : s.writing = none) : Covers (s.commitUses batch) := by
  have hsum := sumSizes_writeUses batch.entries s.table
  have hmiss := missing_writeUses_le s.table batch.entries (snapshot s.pass)
  have hun : ∀ since ≤ s.transactions,
      unapplied since (s.commitUses batch) = unapplied since s + (writeUses s.table batch.entries).2 := by
    simp_all [unapplied, batchDelta, overWrites]
  refine h.move ⟨fun e he txn delta hp => (h.numbered.1 e he txn delta hp).trans (Nat.lt_succ_self _), ?_⟩ rfl
    (Nat.le_succ _) ?_ le_rfl ?_
  · simp [Option.some.injEq, Prod.mk.injEq]
  · grind [weight]
  · grind [weight]

theorem Covers.usesApply (h : Covers s) {delta : Int}
    (hwriting : s.writing = some (txn, delta)) : Covers { s.applyDelta delta with writing := none } := by
  have hun : ∀ since, unapplied since s = batchDelta since (some (txn, delta)) +
      unapplied since { s.applyDelta delta with writing := none } := by
    intro since
    simp only [unapplied, hwriting, overWrites, LruCache.applyDelta]
    rw [Int.add_comm, show batchDelta since none = 0 from rfl, Int.add_zero]
  refine h.move ⟨h.numbered.1, fun n d heq => by simp at heq⟩ rfl le_rfl ?_ (Nat.le_add_right _ _) ?_
  · intro since _
    have hle := batchDelta_le since txn delta
    rw [hun since, weight_eq (t := { s.applyDelta delta with writing := none }) (s := s) rfl rfl]
    simp only [LruCache.applyDelta]
    omega
  · intro hstale total' htotal'
    obtain ⟨total, htotal, hle⟩ := applyDelta_total s delta htotal'
    refine ⟨hstale, total, htotal, ?_⟩
    have hzero : batchDelta 0 (some (txn, delta)) = delta := by simp [batchDelta]
    rw [hun 0, hzero, weight_eq (t := { s.applyDelta delta with writing := none }) (s := s) rfl rfl]
    omega

theorem Covers.touchCommit (h : Covers s) (now : Nat)
    (hw : s.writes.lookup call = some w) (hphase : w.phase = .stored) :
    Covers (s.commitTouch call w now) := by
  have hsum := sumSizes_insert s.table w.url ⟨w.size, now⟩
  have hmiss := missing_insert_le s.table w.url ⟨w.size, now⟩ (snapshot s.pass)
  dsimp only at hsum
  have hun : ∀ since ≤ s.transactions,
      unapplied since (s.setPhase call w (.touched s.transactions ((w.size : Int) - sizeAt s.table w.url))) =
        unapplied since s + ((w.size : Int) - sizeAt s.table w.url) := by
    intro since hsince
    have hset := unapplied_setPhase since hw (.touched s.transactions ((w.size : Int) - sizeAt s.table w.url))
    rw [hphase] at hset
    simp only [phaseDelta, if_pos hsince] at hset
    omega
  have hnum := (h.numbered.of_keeps (t := { s with transactions := s.transactions + 1 }) rfl rfl
    (Nat.le_succ _)).setPhase call w
    (.touched s.transactions ((w.size : Int) - sizeAt s.table w.url)) (fun txn delta hp => by
      simp only [WritePhase.touched.injEq] at hp
      rw [← hp.1]
      exact Nat.lt_succ_self _)
  refine h.move ⟨hnum.1, hnum.2⟩ rfl (Nat.le_succ _) ?_ le_rfl ?_
  · intro since hsince
    have hadd := hun since hsince
    simp only [weight, unapplied, overWrites, setPhase] at hadd ⊢
    omega
  intro hstale total htotal
  refine ⟨hstale, total, htotal, ?_⟩
  have hadd := hun 0 (Nat.zero_le _)
  simp only [weight, unapplied, overWrites, setPhase] at hadd ⊢
  omega

theorem Covers.touchApply (h : Covers s) {delta : Int}
    (hw : s.writes.lookup call = some w) (hphase : w.phase = .touched txn delta) :
    Covers ((s.applyDelta delta).setPhase call w .applied) := by
  have hun : ∀ since, unapplied since s = phaseDelta since (.touched txn delta) +
      unapplied since ((s.applyDelta delta).setPhase call w .applied) := by
    intro since
    have hset := unapplied_setPhase (s := s.applyDelta delta) since hw .applied
    have hsame : unapplied since (s.applyDelta delta) = unapplied since s := rfl
    have hzero : phaseDelta since .applied = 0 := rfl
    simp_all
  refine h.move (Numbered.setPhase (s := s.applyDelta delta) ⟨h.numbered.1, h.numbered.2⟩ _ w _ (by simp)) rfl
    le_rfl ?_ (Nat.le_add_right _ _) ?_
  · intro since _
    have hle := phaseDelta_le since txn delta
    rw [hun since, weight_eq (t := (s.applyDelta delta).setPhase call w .applied) (s := s) rfl rfl]
    simp only [LruCache.applyDelta, setPhase]
    omega
  · intro hstale total' htotal'
    obtain ⟨total, htotal, hle⟩ := applyDelta_total s delta htotal'
    refine ⟨hstale, total, htotal, ?_⟩
    rw [hun 0, phaseDelta_zero, weight_eq (t := (s.applyDelta delta).setPhase call w .applied) (s := s) rfl rfl]
    omega

theorem Covers.deletes (h : Covers s) (table : Table) (hw : sumSizes table.entries + missing table (snapshot s.pass) ≤
      sumSizes s.table.entries + missing s.table (snapshot s.pass)) (ht : t.table = table)
    (hk : Keeps { s with table := table, transactions := s.transactions + 1 } t) (hp : t.pass = s.pass) : Covers t := by
  have hweight : weight t ≤ weight s := by grind [weight]
  have htxn : s.transactions ≤ t.transactions := hk.transactions ▸ Nat.le_succ _
  refine h.move (h.numbered.of_keeps hk.writes hk.writing htxn) hp htxn ?_ hk.committed.ge ?_
  · intro since _
    rw [unapplied_eq (s := s) since hk.writes hk.writing, hk.committed]
    dsimp only
    omega
  intro hstale total htotal
  rw [unapplied_eq (s := s) 0 hk.writes hk.writing]
  exact ⟨hk.stale hstale, total, hk.lruBytes ▸ htotal, by omega⟩

/-! ### The steps of a pass -/

theorem batchDelta_of_older {since : Nat} {writing : Option (Nat × Int)}
    (h : ∀ txn delta, writing = some (txn, delta) → txn < since) : batchDelta since writing = 0 := by
  cases writing with
  | none => rfl
  | some m => exact if_neg (not_le.2 (h m.1 m.2 rfl))

theorem unapplied_fresh (h : Numbered s) : unapplied s.transactions s = 0 := by
  have hcalls : overWrites (fun w => phaseDelta s.transactions w.phase) s = 0 := by
    apply List.sum_eq_zero
    intro x hx
    obtain ⟨e, he, rfl⟩ := List.mem_map.1 hx
    exact phaseDelta_of_older (h.1 e he)
  have hbatch := batchDelta_of_older h.2
  grind [unapplied]

theorem Covers.readTable (h : Covers s) {generation mark : Nat}
    (hpass : s.pass = some ⟨call, .syncing generation mark⟩) :
    Covers (s.setPass call (.read s.transactions generation mark s.table.entries)) := by
  have hmark : mark ≤ s.committedBytes := by
    have hreads := h.reads
    grind [Reads]
  have hweight : weight (s.setPass call (.read s.transactions generation mark s.table.entries)) =
      sumSizes s.table.entries := by
    have hm := missing_entries s.table
    simp only [weight, setPass, snapshot, hm, Nat.add_zero]
  refine h.repass {} s.table.nodupKeys ?_ ?_
  · refine ⟨hmark, le_rfl, ?_⟩
    have hfresh := unapplied_fresh h.numbered
    rw [hweight, show unapplied s.transactions (s.setPass call _) = unapplied s.transactions s from rfl, hfresh]
    simp only [setPass]
    omega
  · rw [hweight, hpass]
    simp only [weight, owed, setPass]
    omega

theorem unapplied_mono (h : s.appliedBefore txn = true) : unapplied txn s ≤ unapplied 0 s := by
  simp only [appliedBefore, Bool.and_eq_true, List.all_eq_true] at h
  apply Int.add_le_add
  · refine overWrites_le fun e he => ?_
    have hphase := h.1 e he
    cases hp : e.2.phase <;> grind [phaseDelta, touchedFrom]
  · cases hb : s.writing <;> grind [batchDelta]

theorem sortByUse_perm (all : List LruEntry) : (sortByUse all).Perm all := List.perm_insertionSort _ all

theorem Covers.adoptTotal (h : Covers s) (budget now : Nat) {generation mark : Nat}
    {all : List LruEntry} (hpass : s.pass = some ⟨call, .read txn generation mark all⟩)
    (happlied : s.appliedBefore txn = true) : Covers (s.adoptTotal budget call generation mark all now) := by
  have hreads := h.reads
  unfold Reads at hreads
  rw [hpass] at hreads
  obtain ⟨hmark, -, hw⟩ := hreads
  have hmono := unapplied_mono happlied
  unfold LruCache.adoptTotal
  split
  · have hadopted : Covers { s with
        lruBytes := some (sumSizes all + (s.committedBytes - mark)), totalStale := false, writesSinceSync := 0
        lastSyncAt := now } := by
      refine ⟨h.numbered, h.nodup, h.reads, fun _ total htotal => ?_⟩
      simp only [Option.some.injEq] at htotal
      subst htotal
      simp only [weight, unapplied, overWrites, hpass, owed] at hw hmono ⊢
      omega
    dsimp only
    split
    · exact hadopted.endPass call
    have hsnap : snapshot s.pass = all := by rw [hpass]; rfl
    refine hadopted.repass {} ?_ trivial ?_
    · exact (List.perm_nodupKeys (sortByUse_perm all)).2 (hsnap ▸ h.nodup)
    · have hm := missing_perm s.table (sortByUse_perm all)
      simp [weight, setPass, snapshot, owed, hpass, hm]
  · exact h.endPass call

theorem Covers.forgetVictim (h : Covers s) {freed : Nat} {entry : LruEntry}
    {projected : Int} (hpass : s.pass = some ⟨call, .forgetting entry rest projected freed⟩)
    (hrow : Unshrunk s.table entry) :
    Covers (s.forgetEntry call entry rest projected freed) := by
  have hnd : (entry :: rest).NodupKeys := by
    have := h.nodup
    rwa [hpass] at this
  rw [List.nodupKeys_cons] at hnd
  refine ⟨h.numbered.of_keeps rfl rfl (Nat.le_succ _), hnd.2, trivial, fun hstale total htotal => ?_⟩
  have hcovers := h.covers hstale total htotal
  have hsum := sumSizes_erase s.table entry.1
  have hmiss := missing_erase_of_notMem s.table hnd.1
  have hcons := missing_cons s.table entry rest
  have hsize : entry.2.size ≤
      sizeAt s.table entry.1 + (if (s.table.lookup entry.1).isNone then entry.2.size else 0) := by
    rcases hrow with hgone | hsize
    · simp [hgone]
    · exact hsize.trans (Nat.le_add_right _ _)
  simp only [weight, unapplied, overWrites, owed, setPass, snapshot, hpass] at hcovers ⊢
  omega

theorem Covers.subtractVictim (h : Covers s) {freed : Nat} {entry : LruEntry}
    {projected : Int} (hpass : s.pass = some ⟨call, .forgot entry rest projected freed⟩) :
    Covers ((s.applyDelta (-(entry.2.size : Int))).setPass call
      (.evicting rest (projected - entry.2.size) (freed + entry.2.size))) := by
  have hnd := h.nodup
  rw [hpass] at hnd
  refine ⟨h.numbered, hnd, trivial, fun hstale total' htotal' => ?_⟩
  obtain ⟨total, htotal, hle⟩ := applyDelta_total s _ htotal'
  have hcovers := h.covers hstale total htotal
  simp only [weight, unapplied, overWrites, owed, setPass, snapshot, hpass, LruCache.applyDelta] at hcovers ⊢
  omega

theorem Covers.step {budget : Nat} {e : LruEvent} (h : Covers s) (hok : Undisturbed s e)
    (hstep : LruCache.step budget s e = some t) : Covers t := by
  cases step_becomes hstep with
  | keeps hk hp => exact h.of_keeps hk hp
  | usesCommit hbatch hnone => exact h.usesCommit _ hnone
  | usesApply hwriting hk hp =>
    have happlied := h.usesApply hwriting
    rcases hp with hp | ⟨call, n, -, hp⟩
    · exact happlied.of_keeps hk hp
    · exact happlied.unread hk (by rw [hp]; rfl) (by rw [hp]; rfl) (by unfold Reads; rw [hp]; trivial)
  | putBodyBounded hfree => exact h.newWrite hfree (by simp [Quiet]) _
  | touch hfree => exact h.newWrite hfree (by simp [Quiet]) _
  | admits he hw hphase hfits evictions =>
    have hadmitted := h.setPhase_quiet .admitted hw
      (by rcases hphase with hp | hp <;> simp [Quiet, hp]) (by simp [Quiet])
    exact hadmitted.of_keeps {} rfl
  | queues hw hphase =>
    have hqueued := h.setPhase_quiet .queued hw (by simp [Quiet, hphase]) (by simp [Quiet])
    exact hqueued.of_keeps {} rfl
  | locks hw hphase hnone hk hp =>
    have hlocked := h.setPhase_quiet .evicting hw (by simp [Quiet, hphase]) (by simp [Quiet])
    exact hlocked.unread hk (by rw [hp]; rfl) (by rw [hp]; rfl) (by unfold Reads; rw [hp]; trivial)
  | syncTotal hp =>
    exact h.unread {} rfl rfl (le_refl s.committedBytes)
  | readTable hp => exact h.readTable hp
  | adoptTotal hp happlied => exact h.adoptTotal budget _ hp happlied
  | passEnds hp hdone => exact h.endPass _
  | picks hp hk hp' =>
    have hnd := h.nodup
    refine h.repass hk ?_ (by unfold Reads; rw [hp']; trivial) ?_
    · rw [hp] at hnd
      rw [hp']
      exact hnd
    unfold weight
    rw [hk.table, hp, hp']
    exact le_rfl
  | forgetVictim hp =>
    refine h.forgetVictim hp (hok _ ?_ ?_)
    · rw [hp]
      exact List.mem_cons_self
    · simp [removes, hp]
  | subtractVictim hp => exact h.subtractVictim hp
  | put hw hphase =>
    have hstored := h.setPhase_quiet .stored hw (by simp [Quiet, hphase]) (by simp [Quiet])
    exact hstored.of_keeps {} rfl
  | finishes hw hphase => exact h.finish hw (by rcases hphase with hp | hp <;> simp [Quiet, hp])
  | touchCommit hw hphase => exact h.touchCommit _ hw hphase
  | touchApply hw hphase => exact h.touchApply hw hphase
  | invalidate hk hstale =>
    obtain ⟨htable, hcommitted, -, hwriting, hwrites, hpass, htxn⟩ := hk
    refine h.move (h.numbered.of_keeps hwrites hwriting htxn.ge) hpass htxn.ge ?_ hcommitted.ge ?_
    · intro since _
      rw [weight_eq htable hpass, unapplied_eq since hwrites hwriting, hcommitted]
    · simp [hstale]
  | @deleteCommit index url _ hurl =>
    refine h.deletes (s.table.erase url) ?_ rfl {} rfl
    have hsum := sumSizes_erase s.table url
    have hmiss := missing_erase_le s.table url h.nodup
      (fun e he heq => hok e he (by simp [removes, hurl, heq]))
    omega
  | clearCommit hgen cached =>
    refine h.deletes ∅ ?_ rfl {} rfl
    have hmiss := missing_empty_le s.table h.nodup (fun e he => by
      by_cases hkey : e.1 ∈ s.table.keys
      · exact hok e he hkey
      · exact .inl (by rw [AList.lookup_eq_none.2 hkey]; rfl))
    have hzero : sumSizes (∅ : Table).entries = 0 := rfl
    omega

/-- **A trusted total is at least the sum of the table**, in every state a worker reaches in which no mutation is between
its commit and its `applyDelta`: if no row of a pass's snapshot is deleted smaller than it was read. -/
theorem trusted_total_covers (budget : Nat) (table : Table) (cached : List Url) (es : List LruEvent) (s : LruCache)
    (hok : Steps.Meets (step budget) Undisturbed (start table cached) es)
    (h : Steps.run (step budget) (start table cached) es = some s) (hsettled : Settled s)
    (htrusted : s.totalStale = false) (total : Nat) (htotal : s.lruBytes = some total) :
    sumSizes s.table.entries ≤ total := by
  have hcovers := Steps.run_inv_when (step budget) Undisturbed Covers
    (fun s e t hs hm hstep => hs.step hm hstep) es _ s (Covers.start table cached) hok h
  have hle := hcovers.covers htrusted total htotal
  have hzero : unapplied 0 s = 0 := by
    have hcalls : overWrites (fun w => phaseDelta 0 w.phase) s = 0 := by
      apply List.sum_eq_zero
      intro x hx
      obtain ⟨e, he, rfl⟩ := List.mem_map.1 hx
      have hquiet : Quiet e.2.phase := fun txn delta hp => by
        have := hsettled.1 e he
        rw [hp] at this
        cases this
      exact hquiet.delta 0
    unfold unapplied
    rw [hcalls, Option.isNone_iff_eq_none.1 hsettled.2.1]
    rfl
  rw [hzero] at hle
  unfold weight at hle
  omega

/-! ### Runs -/

def onePage : Table := AList.singleton "/a".toList ⟨6, 1⟩

/-- The page `/a` was used longest ago. -/
def twoPages : Table := (AList.singleton "/c".toList ⟨20, 2⟩).insert "/a".toList ⟨10, 1⟩

def readsTable (call : Nat) : List LruEvent := [.ensureRoom call 0, .lockRoom 0, .syncTotal, .readTable]

def evictingWrite : List LruEvent :=
  .putBodyBounded 0 "/b".toList 7 :: readsTable 0 ++
    [.adoptTotal 0, .nextVictim, .forgetVictim, .subtractVictim, .nextVictim, .put 0, .touchCommit 0 5, .touchApply 0,
      .settle 0]

theorem trusted_total_covers_evictingWrite : ∃ s, Steps.run (step 10) (start onePage []) evictingWrite = some s ∧
    s.totalStale = false ∧ s.lruBytes = some 7 ∧ sumSizes s.table.entries ≤ 7 := by
  obtain ⟨s, hrun, hsettled, hstale, htotal⟩ : ∃ s, Steps.run (step 10) (start onePage []) evictingWrite = some s ∧ Settled s ∧
      s.totalStale = false ∧ s.lruBytes = some 7 :=
    Steps.exists_run (by decide +kernel)
  exact ⟨s, hrun, hstale, htotal,
    trusted_total_covers 10 onePage [] evictingWrite s (by decide +kernel) hrun hsettled hstale 7 htotal⟩

def shrunkVictim : List LruEvent :=
  .putBodyBounded 0 "/a".toList 3 :: readsTable 0 ++ .adoptTotal 0 :: .put 0 :: .putBodyBounded 1 "/b".toList 5 ::
    readsTable 1 ++ [.adoptTotal 0, .nextVictim, .touchCommit 0 5, .touchApply 0, .settle 0, .forgetVictim,
      .subtractVictim, .nextVictim]

/-- The victim shrinks once the pass has read it: the total is trusted, nothing is left to apply, and it is below the sum of
the table. -/
theorem trusted_total_too_low :
    (Steps.run (step 33) (start twoPages []) shrunkVictim).map (fun s =>
      (decide (Settled s), s.totalStale, s.lruBytes, sumSizes s.table.entries)) = some (true, false, some 13, 20) := by
  decide +kernel

end LruCache
end YuriRtc
