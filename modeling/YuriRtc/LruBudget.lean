import YuriRtc.LruTotal
/-!
# LruBudget — the table of the LRU against its budget

A bounded write holds its bytes in `reservedBytes` until its row is counted.  The table and the writes that have been
given room and have no row yet stay together within the budget (`Bounded.total`): a pass that stops early has freed
what its projection says, and a pass that runs out of rows has left only rows of writes that were reserved when it read
the table.  The second case needs the reservations to fit the budget by themselves.
-/
namespace YuriRtc
namespace LruCache

variable {rest : List LruEntry} {table : Table} {w : Write} {budget call : Nat} {s t : LruCache}

/-! ### A table against the rows a pass has read -/

def shortfall (table : Table) (rest : List LruEntry) : Nat := (rest.map (fun e => e.2.size - sizeAt table e.1)).sum

theorem shortfall_cons (table : Table) (e : LruEntry) (rest : List LruEntry) :
    shortfall table (e :: rest) = (e.2.size - sizeAt table e.1) + shortfall table rest := by
  simp [shortfall]

theorem shortfall_perm (table : Table) {rest' : List LruEntry} (h : rest.Perm rest') :
    shortfall table rest = shortfall table rest' :=
  (h.map _).sum_eq

theorem shortfall_congr {table' : Table}
    (h : ∀ e ∈ rest, sizeAt table' e.1 = sizeAt table e.1) : shortfall table' rest = shortfall table rest := by
  simp_all [List.map_congr_left, shortfall]

theorem shortfall_entries (table : Table) : shortfall table table.entries = 0 := by
  apply List.sum_eq_zero
  intro n hn
  obtain ⟨e, he, rfl⟩ := List.mem_map.1 hn
  rw [sizeAt_of_lookup ((Assoc.mem_entries_iff_lookup table e.1 e.2).1 he), Nat.sub_self]

theorem shortfall_le (table table' : Table) (url : Url) (h : ∀ url', url' ≠ url → sizeAt table' url' = sizeAt table url')
    (hnd : rest.NodupKeys) :
    shortfall table' rest ≤ shortfall table rest + (sizeAt table url - sizeAt table' url) := by
  induction rest with
  | nil => exact Nat.zero_le _
  | cons e rest ih =>
    rw [shortfall_cons, shortfall_cons]
    rw [List.nodupKeys_cons] at hnd
    by_cases he : e.1 = url
    · have hrest : shortfall table' rest = shortfall table rest := by
        apply shortfall_congr
        grind
      rw [he, hrest]
      omega
    · grind

variable (table)

theorem beyond_perm {rest' : List LruEntry} (h : rest.Perm rest') :
    beyond table rest = beyond table rest' := by grind [beyond]

theorem beyond_nil : beyond table [] = sumSizes table.entries := by
  unfold beyond
  rw [List.filter_eq_self.2 (by simp)]

theorem beyond_entries : beyond table table.entries = 0 := by
  have hnil : table.entries.filter (fun e => e.1 ∉ table.entries.keys) = [] := by grind [List.filter_eq_nil_iff]
  unfold beyond
  rw [hnil]
  rfl

theorem beyond_le (rest : List LruEntry) : beyond table rest ≤ sumSizes table.entries :=
  (List.filter_sublist.map _).sum_le_sum (fun _ _ => Nat.zero_le _)

theorem beyond_erase (url : Url) (rest : List LruEntry) :
    beyond table rest = (if url ∈ rest.keys then 0 else sizeAt table url) + beyond (table.erase url) rest := by
  cases h : table.lookup url with
  | none => rw [sizeAt_of_absent h, Assoc.erase_of_absent h, ite_self, Nat.zero_add]
  | some row =>
    unfold beyond
    rw [sumSizes_perm ((Assoc.perm_cons_erase h).filter _), sizeAt_of_lookup h, List.filter_cons]
    grind [sumSizes_cons]

theorem beyond_insert (url : Url) (row : Row) (rest : List LruEntry) :
    beyond (table.insert url row) rest =
      (if url ∈ rest.keys then 0 else row.size) + beyond (table.erase url) rest := by
  unfold beyond
  rw [AList.entries_insert, List.filter_cons]
  by_cases hmem : url ∈ rest.keys
  · simp [hmem]
    rfl
  · simp [hmem, sumSizes_cons]
    rfl

variable {table}

/-- **A change of the table adds at most `n` bytes**: to its sum, to what a pass still has to see, and to the rows
beyond a pass's snapshot. -/
structure Adds (n : Nat) (table table' : Table) : Prop where
  sum : sumSizes table'.entries ≤ sumSizes table.entries + n
  seen : ∀ rest : List LruEntry, rest.NodupKeys →
    sumSizes table'.entries + shortfall table' rest ≤ sumSizes table.entries + shortfall table rest + n
  beyond : ∀ rest : List LruEntry, beyond table' rest ≤ beyond table rest + n

theorem Adds.refl (table : Table) : Adds 0 table table :=
  ⟨le_rfl, fun _ _ => le_rfl, fun _ => le_rfl⟩

theorem Adds.trans {m n : Nat} {a b c : Table} (h : Adds m a b) (h' : Adds n b c) : Adds (m + n) a c where
  sum := by
    have := h.sum
    have := h'.sum
    omega
  seen := fun rest hnd => by
    have := h.seen rest hnd
    have := h'.seen rest hnd
    omega
  beyond := fun rest => by
    have := h.beyond rest
    have := h'.beyond rest
    omega

theorem Adds.insert (table : Table) (url : Url) (row : Row) :
    Adds (row.size - sizeAt table url) table (table.insert url row) := by
  have hsum := sumSizes_insert table url row
  refine ⟨by omega, fun rest hnd => ?_, fun rest => ?_⟩
  · have hle := shortfall_le table (table.insert url row) url
      (fun url' hne => sizeAt_insert_ne table row hne) hnd
    rw [sizeAt_insert] at hle
    omega
  · rw [beyond_insert, beyond_erase table url]
    split <;> omega

theorem Adds.erase (table : Table) (url : Url) : Adds 0 table (table.erase url) := by
  have hsum := sumSizes_erase table url
  refine ⟨by omega, fun rest hnd => ?_, fun rest => ?_⟩
  · have hle := shortfall_le table (table.erase url) url
      (fun url' hne => sizeAt_erase_ne table hne) hnd
    rw [sizeAt_erase] at hle
    omega
  · rw [beyond_erase table url]
    omega

def Shrinks (table : Table) (batch : List (Sigma (fun _ : Url => PendingUse))) : Prop :=
  ∀ use ∈ batch, ∀ size ∈ use.2.size, (table.lookup use.1).isSome → size ≤ sizeAt table use.1

instance (table : Table) (batch : List (Sigma (fun _ : Url => PendingUse))) : Decidable (Shrinks table batch) :=
  inferInstanceAs (Decidable (∀ use ∈ batch, ∀ size ∈ use.2.size, _ → _))

theorem Adds.writeUse {use : Sigma (fun _ : Url => PendingUse)}
    (h : ∀ size ∈ use.2.size, (table.lookup use.1).isSome → size ≤ sizeAt table use.1) :
    Adds 0 table (LruCache.writeUse table use) ∧ useDelta table use ≤ 0 := by
  obtain ⟨-, ht, hd⟩ | ⟨previous, hprev, ht, hd⟩ := writeUse_eq table use
  · rw [ht, hd]
    exact ⟨Adds.refl table, le_rfl⟩
  have hsize : use.2.size.getD previous.size ≤ previous.size := by
    cases hs : use.2.size <;> simp_all [sizeAt_of_lookup]
  have hadds := Adds.insert table use.1 ⟨use.2.size.getD previous.size, use.2.usedAt⟩
  simp_all [sizeAt_of_lookup, Nat.sub_eq_zero_of_le]

theorem writeUse_lookup_ne (table : Table) (use : Sigma (fun _ : Url => PendingUse)) {url : Url} (h : url ≠ use.1) :
    (LruCache.writeUse table use).lookup url = table.lookup url := by
  obtain ⟨-, ht, -⟩ | ⟨previous, -, ht, -⟩ := writeUse_eq table use
  · rw [ht]
  · rw [ht, AList.lookup_insert_ne h]

theorem Adds.writeUses {batch : List (Sigma (fun _ : Url => PendingUse))} (hnd : batch.NodupKeys)
    (h : Shrinks table batch) : Adds 0 table (writeUses table batch).1 ∧ (LruCache.writeUses table batch).2 ≤ 0 := by
  induction batch generalizing table with
  | nil => exact ⟨Adds.refl table, le_rfl⟩
  | cons use rest ih =>
    rw [List.nodupKeys_cons] at hnd
    obtain ⟨huse, hdelta⟩ := Adds.writeUse (h use List.mem_cons_self)
    have hrest : Shrinks (LruCache.writeUse table use) rest := by
      intro use' hu size hsize
      have hne : use'.1 ≠ use.1 := fun heq => hnd.1 (heq ▸ List.mem_keys_of_mem hu)
      unfold sizeAt
      rw [writeUse_lookup_ne table use hne]
      exact h use' (List.mem_cons_of_mem _ hu) size hsize
    obtain ⟨hadds, hle⟩ := ih hnd.2 hrest
    simp only [LruCache.writeUses]
    exact ⟨huse.trans hadds, by omega⟩

/-! ### What the calls hold -/

def placed (w : Write) : Nat :=
  match w.phase with
  | .admitted | .stored => w.claim
  | _ => 0

def promised (w : Write) : Nat :=
  match w.phase with
  | .admitted | .stored | .evicting => w.claim
  | _ => 0

def adding (w : Write) : Nat :=
  match w.phase with
  | .touched _ delta => delta.toNat
  | _ => 0

theorem placed_le_promised (w : Write) : placed w ≤ promised w := by
  cases hp : w.phase <;> simp [placed, promised, hp]

def ClaimKept (w : Write) : Prop :=
  (w.claim = w.size ∨ w.claim = 0) ∧ ∀ txn delta, w.phase = .touched txn delta → delta.toNat ≤ w.claim

theorem promised_add_adding_le (h : ClaimKept w) : promised w + adding w ≤ w.claim := by
  cases hp : w.phase with
  | touched txn delta => simpa [promised, adding, hp] using h.2 txn delta hp
  | _ => simp [promised, adding, hp]

/-! ### Runs that stay within the budget -/

/-- The reservations fit the budget when a bounded write begins; arithmetic admits a write only while the running total
falls short of the table by no more than the reserve (it does not, where it covers the table: `Covers.short`); and a touch
with a size does not enlarge its row, unless it is that of a bounded write.  No invalidation runs. -/
def Affordable (budget : Nat) (s : LruCache) : LruEvent → Prop
  | .putBodyBounded _ _ size => s.reservedBytes + size ≤ budget
  | .ensureRoom _ now | .lockRoom now =>
    s.fitsWithoutReading budget now = true →
      sumSizes s.table.entries ≤ s.lruBytes.getD 0 + overWrites adding s + reserveFor budget
  | .touchCommit call _ => ∀ w ∈ s.writes.lookup call, w.claim = 0 → w.size ≤ sizeAt s.table w.url
  | .usesCommit => ∀ batch ∈ s.metaWrites.head?, Shrinks s.table batch.entries
  | .invalidate => False
  | _ => True

instance (budget : Nat) (s : LruCache) (e : LruEvent) : Decidable (Affordable budget s e) := by
  cases e <;> unfold Affordable <;> infer_instance

theorem Covers.short (h : Covers s) (hbatch : batchDelta 0 s.writing ≤ 0) {now : Nat}
    (hfits : s.fitsWithoutReading budget now = true) :
    sumSizes s.table.entries ≤ s.lruBytes.getD 0 + overWrites adding s + reserveFor budget := by
  obtain ⟨total, htotal, htrusted⟩ : ∃ total, s.lruBytes = some total ∧ s.totalStale = false := by grind [fitsWithoutReading]
  have hcalls : overWrites (fun w => phaseDelta 0 w.phase) s ≤ (overWrites adding s : Nat) := by
    refine (overWrites_le (g := fun w => (adding w : Int)) fun e _ => ?_).trans_eq ?_
    · cases hp : e.2.phase <;> simp [adding, phaseDelta, hp]
    · simp [overWrites, Nat.cast_list_sum, List.map_map, Function.comp_def]
  have hcovers := h.covers htrusted total htotal
  rw [htotal, Option.getD_some]
  unfold weight unapplied at hcovers
  omega

/-! ### The invariant -/

/-- Whether the pass makes room: what it has projected covers the table with the promised bytes, or they fit already;
and without the rows it can still delete, they fit. -/
structure Room (budget : Nat) (s : LruCache) (rest : List LruEntry) (projected : Int) : Prop where
  nodup : rest.NodupKeys
  without : beyond s.table rest + overWrites promised s ≤ budget
  covered : (sumSizes s.table.entries + shortfall s.table rest + overWrites promised s : Int) ≤ projected ∨
    sumSizes s.table.entries + overWrites promised s ≤ budget

def PassFits (budget : Nat) (s : LruCache) : Prop :=
  match s.pass with
  | some ⟨_, .syncing generation mark⟩ => generation = 0 ∧ mark ≤ s.committedBytes
  | some ⟨_, .read _ generation mark all⟩ =>
    generation = 0 ∧ mark ≤ s.committedBytes ∧ all.NodupKeys ∧
      beyond s.table all + overWrites promised s ≤ budget ∧
      sumSizes s.table.entries + shortfall s.table all ≤
        sumSizes all + (s.committedBytes - mark) + overWrites adding s
  | some ⟨_, .evicting rest projected _⟩ => Room budget s rest projected
  | some ⟨_, .forgetting entry rest projected _⟩ => Room budget s (entry :: rest) projected
  | some ⟨_, .forgot entry rest projected _⟩ => Room budget s rest (projected - entry.2.size)
  | _ => True

structure Bounded (budget : Nat) (s : LruCache) : Prop where
  generation : s.metaGeneration = 0
  reserved : s.reservedBytes = overWrites Write.claim s
  fits : s.reservedBytes ≤ budget
  claims : ∀ call ∈ s.writes.entries, ClaimKept call.2
  batch : ∀ txn delta, s.writing = some (txn, delta) → delta ≤ 0
  total : sumSizes s.table.entries + overWrites placed s ≤ budget
  pass : PassFits budget s

theorem Bounded.start (h : sumSizes table.entries ≤ budget) (cached : List Url) :
    Bounded budget (start table cached) where
  generation := rfl
  reserved := rfl
  fits := Nat.zero_le _
  claims := fun _ hc => absurd hc List.not_mem_nil
  batch := nofun
  total := h
  pass := trivial

theorem held_le_claims (h : ∀ call ∈ s.writes.entries, ClaimKept call.2) :
    overWrites promised s + overWrites adding s ≤ overWrites Write.claim s := by
  unfold overWrites
  rw [← List.sum_map_add]
  exact List.sum_le_sum (fun e he => promised_add_adding_le (h e he))

theorem overWrites_placed_le (s : LruCache) : overWrites placed s ≤ overWrites promised s :=
  overWrites_le (fun e _ => placed_le_promised e.2)

theorem Room.move {n : Nat} {projected : Int} (h : Room budget s rest projected) (hadds : Adds n s.table t.table)
    (hpromised : overWrites promised t + n ≤ overWrites promised s) : Room budget t rest projected where
  nodup := h.nodup
  without := by
    have := hadds.beyond rest
    have := h.without
    omega
  covered := by
    rcases h.covered with hle | hle
    · have := hadds.seen rest h.nodup
      left
      omega
    have := hadds.sum
    right
    omega

/-- **What keeps the invariant while the pass stays where it is**: what the table gains was promised, and is counted in
the committed bytes or still to be added. -/
theorem Bounded.move (h : Bounded budget s) (n : Nat)
    (hgen : t.metaGeneration = s.metaGeneration) (hpass : t.pass = s.pass)
    (hreserved : t.reservedBytes = overWrites Write.claim t) (hfits : t.reservedBytes ≤ budget)
    (hclaims : ∀ call ∈ t.writes.entries, ClaimKept call.2)
    (hbatch : ∀ txn delta, t.writing = some (txn, delta) → delta ≤ 0) (hadds : Adds n s.table t.table)
    (hplaced : overWrites placed t + n ≤ overWrites placed s)
    (hpromised : overWrites promised t + n ≤ overWrites promised s)
    (hgrow : s.committedBytes + overWrites adding s + n ≤ t.committedBytes + overWrites adding t)
    (hmark : s.committedBytes ≤ t.committedBytes) : Bounded budget t where
  generation := hgen.trans h.generation
  reserved := hreserved
  fits := hfits
  claims := hclaims
  batch := hbatch
  total := by
    have := hadds.sum
    have := h.total
    omega
  pass := by
    have hfitsPass := h.pass
    unfold PassFits at hfitsPass ⊢
    rw [hpass]
    split
    · grind
    · rename_i call txn generation mark all hp
      rw [hp] at hfitsPass
      obtain ⟨hg, hm, hnd, hbeyond, hseen⟩ := hfitsPass
      have := hadds.beyond all
      have := hadds.seen all hnd
      exact ⟨hg, hm.trans hmark, hnd, by omega, by omega⟩
    · rename_i hp
      rw [hp] at hfitsPass
      exact hfitsPass.move hadds hpromised
    · rename_i hp
      rw [hp] at hfitsPass
      exact hfitsPass.move hadds hpromised
    · rename_i hp
      rw [hp] at hfitsPass
      exact hfitsPass.move hadds hpromised
    · trivial

theorem overWrites_eq (f : Write → Nat) (h : t.writes = s.writes) : overWrites f t = overWrites f s := by
  unfold overWrites
  rw [h]

theorem Bounded.of_keeps (h : Bounded budget s) (hk : Keeps s t) (hp : t.pass = s.pass) : Bounded budget t := by
  refine h.move 0 hk.generation hp ?_ (hk.reserved ▸ h.fits) (hk.writes ▸ h.claims) (hk.writing ▸ h.batch)
    (hk.table ▸ Adds.refl s.table) ?_ ?_ ?_ hk.committed.ge
  · rw [hk.reserved, h.reserved, overWrites_eq _ hk.writes]
  · rw [overWrites_eq _ hk.writes]
    exact le_rfl
  · rw [overWrites_eq _ hk.writes]
    exact le_rfl
  · rw [overWrites_eq _ hk.writes, hk.committed]
    exact le_rfl

theorem Bounded.repass (h : Bounded budget s) (hk : Keeps s t) (hp : PassFits budget t) : Bounded budget t where
  generation := hk.generation.trans h.generation
  reserved := by rw [hk.reserved, h.reserved, overWrites_eq _ hk.writes]
  fits := hk.reserved ▸ h.fits
  claims := hk.writes ▸ h.claims
  batch := hk.writing ▸ h.batch
  total := by
    rw [hk.table, overWrites_eq _ hk.writes]
    exact h.total
  pass := hp

theorem ClaimKept.of_setPhase (h : ∀ call ∈ s.writes.entries, ClaimKept call.2) (call : Nat)
    {phase : WritePhase} (hw : ClaimKept { w with phase := phase }) :
    ∀ c ∈ (s.setPhase call w phase).writes.entries, ClaimKept c.2 := by
  intro c hc
  change c ∈ (s.writes.insert call { w with phase := phase }).entries at hc
  rw [AList.entries_insert, List.mem_cons] at hc
  rcases hc with rfl | hc
  · exact hw
  · exact h c (List.kerase_sublist call _ |>.subset hc)

theorem Bounded.claim (h : Bounded budget s) (hw : s.writes.lookup call = some w) : ClaimKept w :=
  h.claims ⟨call, w⟩ ((Assoc.mem_entries_iff_lookup s.writes call w).2 hw)

theorem claim_setPhase (hw : s.writes.lookup call = some w)
    (phase : WritePhase) : overWrites Write.claim (s.setPhase call w phase) = overWrites Write.claim s := by
  have hset := overWrites_setPhase Write.claim hw phase
  dsimp only at hset
  omega

/-! ### The steps of a call -/

theorem Bounded.rephase (h : Bounded budget s) (hw : s.writes.lookup call = some w) (phase : WritePhase)
    (hkept : ClaimKept { w with phase := phase }) (hplaced : placed { w with phase := phase } = placed w)
    (hpromised : promised { w with phase := phase } = promised w)
    (hadding : adding { w with phase := phase } = adding w) : Bounded budget (s.setPhase call w phase) := by
  have hpl := overWrites_setPhase placed hw phase
  have hpr := overWrites_setPhase promised hw phase
  have had := overWrites_setPhase adding hw phase
  refine h.move 0 rfl rfl (h.reserved.trans (claim_setPhase hw phase).symm) h.fits
    (ClaimKept.of_setPhase h.claims _ hkept) h.batch (Adds.refl s.table) (by omega) (by omega) ?_ le_rfl
  simp only [setPhase] at had ⊢
  omega

theorem Bounded.newWrite (h : Bounded budget s)
    (hfree : s.writes.lookup call = none) (hkept : ClaimKept w) (hfits : s.reservedBytes + w.claim ≤ budget)
    (hplaced : placed w = 0) (hpromised : promised w = 0) (hadding : adding w = 0) :
    Bounded budget { s with writes := s.writes.insert call w, reservedBytes := s.reservedBytes + w.claim } := by
  have hnew : ∀ f : Write → Nat, overWrites f
      { s with writes := s.writes.insert call w, reservedBytes := s.reservedBytes + w.claim } = f w + overWrites f s :=
    fun f => overWrites_new f hfree w
  refine h.move 0 rfl rfl ?_ hfits (ClaimKept.of_setPhase h.claims call hkept)
    h.batch (Adds.refl s.table) ?_ ?_ ?_ le_rfl
  · rw [hnew, ← h.reserved, Nat.add_comm]
  · rw [hnew, hplaced]
    omega
  · rw [hnew, hpromised]
    omega
  · simp_all

theorem Bounded.finish (h : Bounded budget s)
    (hw : s.writes.lookup call = some w) (hadding : adding w = 0) : Bounded budget (s.finish call w) := by
  have hcl := overWrites_finish Write.claim hw
  have hpl := overWrites_finish placed hw
  have hpr := overWrites_finish promised hw
  have had := overWrites_finish adding hw
  have hres := h.reserved
  have hsub : (s.finish call w).writes.entries.Sublist s.writes.entries := List.kerase_sublist call _
  refine h.move 0 rfl rfl ?_ ((Nat.sub_le _ _).trans h.fits) (fun c hc => h.claims c (hsub.subset hc)) h.batch
    (Adds.refl s.table) (by omega) (by omega) ?_ le_rfl
  · have hsub : (s.finish call w).reservedBytes = s.reservedBytes - w.claim := rfl
    omega
  · have hsame : (s.finish call w).committedBytes = s.committedBytes := rfl
    omega

theorem Bounded.touchCommit (h : Bounded budget s) (now : Nat)
    (hw : s.writes.lookup call = some w) (hphase : w.phase = .stored)
    (hsize : w.claim = 0 → w.size ≤ sizeAt s.table w.url) :
    Bounded budget (s.commitTouch call w now) := by
  have hgain : w.size - sizeAt s.table w.url ≤ w.claim := by
    rcases (h.claim hw).1 with hcl | hcl
    · omega
    · have := hsize hcl
      omega
  have hdelta : ((w.size : Int) - sizeAt s.table w.url).toNat = w.size - sizeAt s.table w.url := by omega
  have hheld : placed w = w.claim ∧ promised w = w.claim ∧ adding w = 0 := by simp [placed, promised, adding, hphase]
  have hset : ∀ f : Write → Nat, f w + overWrites f (s.commitTouch call w now) =
      f { w with phase := .touched s.transactions ((w.size : Int) - sizeAt s.table w.url) } + overWrites f s :=
    fun f => overWrites_setPhase f hw _
  have hpl := hset placed
  have hpr := hset promised
  have had := hset adding
  rw [hheld.1, show placed { w with phase := .touched _ _ } = 0 from rfl] at hpl
  rw [hheld.2.1, show promised { w with phase := .touched _ _ } = 0 from rfl] at hpr
  rw [hheld.2.2, show adding { w with phase := .touched _ _ } = _ from hdelta] at had
  refine h.move (w.size - sizeAt s.table w.url) rfl rfl (h.reserved.trans (claim_setPhase hw _).symm) h.fits
    (ClaimKept.of_setPhase h.claims _ ⟨(h.claim hw).1, fun txn delta hp => ?_⟩) h.batch
    (Adds.insert s.table w.url ⟨w.size, now⟩) (by omega) (by omega) ?_ le_rfl
  · grind
  · simp only [setPhase] at had ⊢
    omega

theorem Bounded.touchApply (h : Bounded budget s) {txn : Nat} {delta : Int}
    (hw : s.writes.lookup call = some w) (hphase : w.phase = .touched txn delta) :
    Bounded budget ((s.applyDelta delta).setPhase call w .applied) := by
  have hheld : placed w = 0 ∧ promised w = 0 ∧ adding w = delta.toNat := by simp [placed, promised, adding, hphase]
  have hset : ∀ f : Write → Nat, f w + overWrites f ((s.applyDelta delta).setPhase call w .applied) =
      f { w with phase := .applied } + overWrites f s := fun f => overWrites_setPhase f hw .applied
  have hpl := hset placed
  have hpr := hset promised
  have had := hset adding
  rw [hheld.1, show placed { w with phase := .applied } = 0 from rfl] at hpl
  rw [hheld.2.1, show promised { w with phase := .applied } = 0 from rfl] at hpr
  rw [hheld.2.2, show adding { w with phase := .applied } = 0 from rfl] at had
  have hcommitted : ((s.applyDelta delta).setPhase call w .applied).committedBytes =
      s.committedBytes + delta.toNat := rfl
  exact h.move 0 rfl rfl (h.reserved.trans (claim_setPhase (s := s.applyDelta delta) hw _).symm) h.fits
    (ClaimKept.of_setPhase (s := s.applyDelta delta) h.claims _ ⟨(h.claim hw).1, by simp⟩) h.batch (Adds.refl s.table)
    (by omega) (by omega) (by omega) (by omega)

theorem Bounded.admits {now : Nat} (h : Bounded budget s)
    (hw : s.writes.lookup call = some w) (hphase : w.phase = .checking ∨ w.phase = .queued)
    (hfits : s.fitsWithoutReading budget now = true)
    (hshort : sumSizes s.table.entries ≤ s.lruBytes.getD 0 + overWrites adding s + reserveFor budget) :
    Bounded budget (s.setPhase call w .admitted) := by
  have hroom : s.lruBytes.getD 0 + s.reservedBytes ≤ budget - reserveFor budget := by grind [fitsWithoutReading]
  have hreserve : reserveFor budget ≤ budget := Nat.min_le_left _ _
  have hheld : placed w = 0 ∧ promised w = 0 ∧ adding w = 0 := by
    rcases hphase with hp | hp <;> simp [placed, promised, adding, hp]
  have hpl := overWrites_setPhase placed hw .admitted
  have hpr := overWrites_setPhase promised hw .admitted
  have had := overWrites_setPhase adding hw .admitted
  rw [hheld.1] at hpl
  rw [hheld.2.1] at hpr
  rw [hheld.2.2, show adding { w with phase := .admitted } = 0 from rfl] at had
  have hkept : ClaimKept { w with phase := .admitted } := ⟨(h.claim hw).1, by simp⟩
  have hclaims := ClaimKept.of_setPhase h.claims call hkept
  have hadmitted : sumSizes s.table.entries + overWrites promised (s.setPhase call w .admitted) ≤ budget := by
    have hheld := held_le_claims hclaims
    rw [claim_setPhase hw, ← h.reserved] at hheld
    omega
  have hpass := h.pass
  refine ⟨h.generation, h.reserved.trans (claim_setPhase hw _).symm, h.fits, hclaims, h.batch, ?_, ?_⟩
  · have := overWrites_placed_le (s.setPhase call w .admitted)
    exact (Nat.add_le_add_left this _).trans hadmitted
  have hroom : ∀ {rest : List LruEntry} (projected : Int), rest.NodupKeys →
      Room budget (s.setPhase call w .admitted) rest projected := fun {rest} _ hnd =>
    ⟨hnd, (Nat.add_le_add_right (beyond_le s.table rest) _).trans hadmitted, .inr hadmitted⟩
  unfold PassFits at hpass ⊢
  have hp : (s.setPhase call w .admitted).pass = s.pass := rfl
  rw [hp]
  split
  · rename_i hp
    rw [hp] at hpass
    exact hpass
  · rename_i call txn generation mark all hp
    rw [hp] at hpass
    obtain ⟨hg, hm, hnd, -, hseen⟩ := hpass
    refine ⟨hg, hm, hnd, (hroom 0 hnd).without, ?_⟩
    simp only [setPhase] at had ⊢
    omega
  · rename_i hp
    rw [hp] at hpass
    exact hroom _ hpass.nodup
  · rename_i hp
    rw [hp] at hpass
    exact hroom _ hpass.nodup
  · rename_i hp
    rw [hp] at hpass
    exact hroom _ hpass.nodup
  · trivial

/-! ### The steps of a pass -/

section

variable (h : Bounded budget s)
include h

theorem Bounded.locks (hw : s.writes.lookup call = some w) (hphase : w.phase = .queued) (hnone : s.pass = none) :
    Bounded budget (s.setPhase call w .evicting) := by
  have hpl := overWrites_setPhase placed hw .evicting
  rw [show placed w = 0 by simp [placed, hphase], show placed { w with phase := .evicting } = 0 from rfl] at hpl
  refine ⟨h.generation, h.reserved.trans (claim_setPhase hw _).symm, h.fits,
    ClaimKept.of_setPhase h.claims _ ⟨(h.claim hw).1, by simp⟩, h.batch, ?_, ?_⟩
  · have := h.total
    simp only [setPhase] at hpl ⊢
    omega
  unfold PassFits
  have hp : (s.setPhase call w .evicting).pass = none := hnone
  rw [hp]
  trivial

theorem Bounded.endPass (call : Nat)
    (hroom : sumSizes s.table.entries + overWrites promised s ≤ budget) : Bounded budget (s.endPass call) := by
  unfold LruCache.endPass
  split
  · rename_i w hw
    split
    · rename_i hphase
      have hpr := overWrites_setPhase promised hw .admitted
      rw [show promised w = w.claim by simp [promised, hphase],
        show promised { w with phase := .admitted } = w.claim from rfl] at hpr
      have hle := overWrites_placed_le (s.setPhase call w .admitted)
      refine ⟨h.generation, h.reserved.trans (claim_setPhase hw _).symm, h.fits,
        ClaimKept.of_setPhase h.claims _ ⟨(h.claim hw).1, by simp⟩, h.batch, ?_, trivial⟩
      change sumSizes s.table.entries + overWrites placed (s.setPhase call w .admitted) ≤ budget
      omega
    · exact h.repass {} trivial
  · exact h.repass {} trivial

theorem Bounded.readTable {generation mark : Nat}
    (hpass : s.pass = some ⟨call, .syncing generation mark⟩) :
    Bounded budget (s.setPass call (.read s.transactions generation mark s.table.entries)) := by
  have hsync := h.pass
  unfold PassFits at hsync
  rw [hpass] at hsync
  have hheld := held_le_claims h.claims
  have hfits := h.fits
  rw [← h.reserved] at hheld
  refine h.repass {} ⟨hsync.1, hsync.2, s.table.nodupKeys, ?_, ?_⟩
  · change beyond s.table s.table.entries + overWrites promised s ≤ budget
    rw [beyond_entries]
    omega
  change sumSizes s.table.entries + shortfall s.table s.table.entries ≤ _
  rw [shortfall_entries]
  omega

theorem Bounded.adoptTotal (now : Nat) {txn generation mark : Nat} {all : List LruEntry}
    (hpass : s.pass = some ⟨call, .read txn generation mark all⟩) :
    Bounded budget (s.adoptTotal budget call generation mark all now) := by
  have hread := h.pass
  unfold PassFits at hread
  rw [hpass] at hread
  obtain ⟨hgen, hmark, hnd, hbeyond, hseen⟩ := hread
  have hheld := held_le_claims h.claims
  rw [← h.reserved] at hheld
  have hadopted : Bounded budget { s with
      lruBytes := some (sumSizes all + (s.committedBytes - mark)), totalStale := false, writesSinceSync := 0
      lastSyncAt := now } :=
    h.move 0 rfl rfl h.reserved h.fits h.claims h.batch (Adds.refl s.table) le_rfl le_rfl
      le_rfl le_rfl
  unfold LruCache.adoptTotal
  rw [if_pos (hgen.trans h.generation.symm)]
  dsimp only
  split
  · apply hadopted.endPass call
    change sumSizes s.table.entries + overWrites promised s ≤ budget
    omega
  refine hadopted.repass {} ?_
  have hperm : (sortByUse all).Perm all := List.perm_insertionSort _ all
  refine ⟨(List.perm_nodupKeys hperm).2 hnd, ?_, .inl ?_⟩
  · change beyond s.table (sortByUse all) + overWrites promised s ≤ budget
    grind [beyond_perm]
  change (sumSizes s.table.entries + shortfall s.table (sortByUse all) + overWrites promised s : Int) ≤ _
  rw [shortfall_perm s.table hperm]
  omega

theorem Bounded.forgetVictim {freed : Nat} {entry : LruEntry} {projected : Int}
    (hpass : s.pass = some ⟨call, .forgetting entry rest projected freed⟩) :
    Bounded budget (s.forgetEntry call entry rest projected freed) := by
  have hroom : Room budget s (entry :: rest) projected := by
    have := h.pass
    grind [PassFits]
  have hnd := List.nodupKeys_cons.1 hroom.nodup
  have hsum := sumSizes_erase s.table entry.1
  refine ⟨h.generation, h.reserved, h.fits, h.claims, h.batch, ?_, hnd.2, ?_, ?_⟩
  · have := h.total
    change sumSizes (s.table.erase entry.1).entries + overWrites placed s ≤ budget
    omega
  · -- the row leaves the snapshot and the table at once
    have hsame : beyond (s.table.erase entry.1) rest = beyond (s.table.erase entry.1) (entry :: rest) := by
      unfold beyond
      rw [List.filter_congr]
      intro e he
      have hne : e.1 ≠ entry.1 := by
        rintro heq
        have hrow := (Assoc.mem_entries_iff_lookup _ e.1 e.2).1 he
        rw [heq, AList.lookup_erase] at hrow
        cases hrow
      simp [List.keys_cons, hne]
    have herase := beyond_erase s.table entry.1 (entry :: rest)
    rw [if_pos (by simp [List.keys_cons])] at herase
    have := hroom.without
    change beyond (s.table.erase entry.1) rest + overWrites promised s ≤ budget
    omega
  · have hsame : shortfall (s.table.erase entry.1) rest = shortfall s.table rest := by
      apply shortfall_congr
      intro e he
      apply sizeAt_erase_ne
      grind
    have hcons := shortfall_cons s.table entry rest
    have hcovered := hroom.covered
    change (sumSizes (s.table.erase entry.1).entries + shortfall (s.table.erase entry.1) rest +
      overWrites promised s : Int) ≤ projected - entry.2.size ∨
      sumSizes (s.table.erase entry.1).entries + overWrites promised s ≤ budget
    rw [hsame]
    omega

theorem Bounded.applyDelta (delta : Int)
    {writing : Option (Nat × Int)} (hbatch : ∀ txn delta, writing = some (txn, delta) → delta ≤ 0) :
    Bounded budget { s.applyDelta delta with writing := writing } := by
  refine h.move 0 rfl rfl h.reserved h.fits h.claims hbatch (Adds.refl s.table) le_rfl le_rfl ?_
    (Nat.le_add_right _ _)
  change s.committedBytes + overWrites adding s + 0 ≤ s.committedBytes + delta.toNat + overWrites adding s
  omega

end

theorem Bounded.step {e : LruEvent} (h : Bounded budget s)
    (hok : Affordable budget s e) (hstep : LruCache.step budget s e = some t) : Bounded budget t := by
  have hpass := h.pass
  unfold PassFits at hpass
  cases step_becomes hstep with
  | keeps hk hp => exact h.of_keeps hk hp
  | @usesCommit batch rest hbatch hnone =>
    obtain ⟨hadds, hdelta⟩ := Adds.writeUses batch.nodupKeys (hok batch (by rw [hbatch]; rfl))
    refine h.move 0 rfl rfl h.reserved h.fits h.claims ?_ hadds le_rfl le_rfl le_rfl
      le_rfl
    simp_all
  | @usesApply t txn delta hwriting hk hp =>
    have happlied : Bounded budget { s.applyDelta delta with writing := none } := h.applyDelta delta (by simp)
    rcases hp with hp | ⟨call, n, -, hp⟩
    · exact happlied.of_keeps hk hp
    · exact happlied.repass hk (by unfold PassFits; rw [hp]; trivial)
  | @putBodyBounded call url size hfree =>
    exact h.newWrite (w := ⟨url, size, size, .checking⟩) hfree ⟨.inl rfl, by simp⟩ hok rfl rfl rfl
  | @touch call url size hfree =>
    exact h.newWrite (w := ⟨url, size, 0, .stored⟩) hfree ⟨.inr rfl, by simp⟩ h.fits rfl rfl rfl
  | admits he hw hphase hfits evictions =>
    have hshort : sumSizes s.table.entries ≤ s.lruBytes.getD 0 + overWrites adding s + reserveFor budget := by
      rcases he with rfl | rfl <;> exact hok hfits
    exact (h.admits hw hphase hfits hshort).of_keeps {} rfl
  | queues hw hphase =>
    have hqueued := h.rephase hw .queued ⟨(h.claim hw).1, by simp⟩ (by simp [placed, hphase])
      (by simp [promised, hphase]) (by simp [adding, hphase])
    exact hqueued.of_keeps {} rfl
  | locks hw hphase hnone hk hp =>
    exact (h.locks hw hphase hnone).repass hk (by unfold PassFits; rw [hp]; trivial)
  | syncTotal hp =>
    exact h.repass {} ⟨h.generation, le_rfl⟩
  | readTable hp => exact h.readTable hp
  | adoptTotal hp => exact h.adoptTotal _ hp
  | passEnds hp hdone =>
    rw [hp] at hpass
    have hcovered := hpass.covered
    apply h.endPass
    rcases hdone with rfl | hdone
    · have := hpass.without
      rwa [beyond_nil] at this
    · omega
  | picks hp hk hp' =>
    refine h.repass hk ?_
    rw [hp] at hpass
    unfold PassFits
    rw [hp']
    have hsame : Adds 0 s.table t.table := by
      rw [hk.table]
      exact Adds.refl s.table
    exact hpass.move hsame (overWrites_eq promised hk.writes).le
  | forgetVictim hp => exact h.forgetVictim hp
  | @subtractVictim call freed entry rest projected hp =>
    rw [hp] at hpass
    have happlied : Bounded budget (s.applyDelta (-(entry.2.size : Int))) := h.applyDelta _ h.batch
    exact happlied.repass {} (hpass.move (Adds.refl s.table) le_rfl)
  | put hw hphase =>
    have hstored := h.rephase hw .stored ⟨(h.claim hw).1, by simp⟩ (by simp [placed, hphase])
      (by simp [promised, hphase]) (by simp [adding, hphase])
    exact hstored.of_keeps {} rfl
  | finishes hw hphase => exact h.finish hw (by rcases hphase with hp | hp <;> simp [adding, hp])
  | touchCommit hw hphase => exact h.touchCommit _ hw hphase (hok _ hw)
  | touchApply hw hphase => exact h.touchApply hw hphase
  | invalidate hk hstale => exact absurd hok id
  | deleteCommit hurl =>
    exact h.move 0 rfl rfl h.reserved h.fits h.claims h.batch (Adds.erase s.table _) le_rfl le_rfl
      le_rfl le_rfl
  | clearCommit hgen cached => exact absurd h.generation (Nat.pos_iff_ne_zero.1 hgen)

/-- **The sizes in the table stay within the budget**, in every state a worker reaches, also while writes are in progress:
if the reservations fit the budget by themselves, a running total that is asked is short by no more than the reserve,
and only bounded writes enlarge a row. -/
theorem table_within_budget (budget : Nat) (table : Table) (cached : List Url) (es : List LruEvent) (s : LruCache)
    (hstart : sumSizes table.entries ≤ budget)
    (hok : Steps.Meets (step budget) (Affordable budget) (start table cached) es)
    (h : Steps.run (step budget) (start table cached) es = some s) : sumSizes s.table.entries ≤ budget := by
  have hbounded := Steps.run_inv_when (step budget) (Affordable budget) (Bounded budget)
    (fun s e t hs hm hstep => hs.step hm hstep) es _ s (Bounded.start hstart cached) hok h
  exact (Nat.le_add_right _ _).trans hbounded.total

/-! ### Runs -/

def asksRoom (call : Nat) : List LruEvent := readsTable call ++ [.adoptTotal 0]

def lands (call : Nat) : List LruEvent := [.put call, .touchCommit call 0, .touchApply call, .settle call]

def replacingWrite : List LruEvent :=
  .putBodyBounded 0 "/b".toList 7 :: asksRoom 0 ++ [.nextVictim, .forgetVictim, .subtractVictim, .nextVictim] ++ lands 0

theorem table_within_budget_replacingWrite :
    ∃ s, Steps.run (step 10) (start onePage []) replacingWrite = some s ∧ s.writes.entries = [] ∧
      sumSizes s.table.entries ≤ 10 := by
  obtain ⟨s, hrun, hs⟩ : ∃ s, Steps.run (step 10) (start onePage []) replacingWrite = some s ∧ s.writes.entries.isEmpty = true :=
    Steps.exists_run (by decide +kernel)
  exact ⟨s, hrun, List.isEmpty_iff.1 hs,
    table_within_budget 10 onePage [] replacingWrite s (by decide) (by decide +kernel) hrun⟩

def oversizeWrite : List LruEvent :=
  .putBodyBounded 0 "/b".toList 12 :: asksRoom 0 ++ .nextVictim :: lands 0

def concurrentWrites : List LruEvent :=
  .putBodyBounded 0 "/b".toList 6 :: .putBodyBounded 1 "/c".toList 6 :: asksRoom 0 ++ .nextVictim ::
    asksRoom 1 ++ .nextVictim :: lands 0 ++ lands 1

/-- A budget of ten bytes ends with twelve in the table and no write in progress, by either run. -/
theorem table_exceeds_budget :
    (Steps.run (step 10) (start ∅ []) oversizeWrite).map (fun s =>
        (s.writes.entries.isEmpty, sumSizes s.table.entries)) = some (true, 12) ∧
      (Steps.run (step 10) (start ∅ []) concurrentWrites).map (fun s =>
        (s.writes.entries.isEmpty, sumSizes s.table.entries)) = some (true, 12) := by
  constructor <;> decide +kernel

end LruCache
end YuriRtc
