import YuriRtc.LruTable
import YuriRtc.Steps
/-!
# LruEvict — one eviction pass that nothing interleaves with

`evictFromTable` as the source has it, for a pass during which no other call changes the table: the buffered refreshes land,
the table is read and its sum adopted, and rows go in the order of their last use until what is left fits the budget.  It
is what the machine of `LruCache` does when only the pass's own events happen (`evictFromTable_runs`).
-/
namespace YuriRtc

open Steps (run run_trans)

namespace LruCache

def landBatch (s : LruCache) (batch : Uses) : LruCache :=
  { s with table := (writeUses s.table batch.entries).1 }.applyDelta (writeUses s.table batch.entries).2

def finishBatch (s : LruCache) : LruCache :=
  match s.writing with
  | some (_, delta) => { s.applyDelta delta with metaWrites := s.metaWrites.tail, writing := none }
  | none => s

/-- `await flushUses()`: all that is queued lands. -/
def landUses (s : LruCache) : LruCache :=
  let flushed := s.finishBatch.flushUses
  { flushed.metaWrites.foldl landBatch flushed with metaWrites := [] }

/-- One turn of the loop: `cache.delete`, `forgetEntry` and `applyDelta`. -/
def evictRow (s : LruCache) (entry : LruEntry) : LruCache :=
  { s with
    cached := s.cached.filter (· ≠ entry.1)
    pendingUses := s.pendingUses.erase entry.1
    table := s.table.erase entry.1 }.applyDelta (-(entry.2.size : Int))

def evictRows (budget : Nat) : List LruEntry → Int → Nat → LruCache → LruCache × Nat
  | [], _, freed, s => (s, freed)
  | entry :: rest, projected, freed, s =>
    if projected ≤ budget then (s, freed)
    else evictRows budget rest (projected - entry.2.size) (freed + entry.2.size) (s.evictRow entry)

/-- What follows on `flushUses`: `syncTotal`, and the loop where the rows do not fit. -/
def evictRead (budget now : Nat) (s : LruCache) : LruCache × Nat :=
  let all := s.table.entries
  let adopted := { s with lruBytes := some (sumSizes all), totalStale := false, writesSinceSync := 0, lastSyncAt := now }
  if sumSizes all + s.reservedBytes ≤ budget then (adopted, 0)
  else evictRows budget (sortByUse all) (sumSizes all + s.reservedBytes : Nat) 0 adopted

def evictFromTable (budget now : Nat) (s : LruCache) : LruCache × Nat := evictRead budget now s.landUses

def bufferedUses (s : LruCache) : List Uses :=
  (if s.writing.isSome then s.metaWrites.tail else s.metaWrites) ++
    if s.pendingUses.entries = [] then [] else [s.pendingUses]

/-! ### Landing -/

structure SameBodies (s t : LruCache) : Prop where
  cached : t.cached = s.cached
  reserved : t.reservedBytes = s.reservedBytes

theorem foldl_landBatch (batches : List Uses) (s : LruCache) :
    (batches.foldl landBatch s).table = batches.foldl (fun table batch => (writeUses table batch.entries).1) s.table ∧
      SameBodies s (batches.foldl landBatch s) := by
  induction batches generalizing s with
  | nil => exact ⟨rfl, rfl, rfl⟩
  | cons batch batches ih =>
    obtain ⟨htable, hcached, hreserved⟩ := ih (s.landBatch batch)
    exact ⟨htable, hcached, hreserved⟩

def UsesDue (s : LruCache) : Prop := s.flushDue = false → s.pendingUses.entries = []

theorem UsesDue.flushUses {s : LruCache} (h : UsesDue s) : UsesDue s.flushUses := by
  unfold LruCache.flushUses runFlush
  split
  · split
    · rename_i hnone
      exact fun _ => hnone
    · exact fun _ => rfl
  · exact h

theorem UsesDue.erase {s : LruCache} (h : UsesDue s) (url : Url) :
    s.flushDue = false → (s.pendingUses.erase url).entries = [] := fun hdue => by
  change List.kerase url s.pendingUses.entries = []
  rw [h hdue]
  rfl

theorem UsesDue.step {budget : Nat} {s t : LruCache} {e : LruEvent} (h : UsesDue s) (hs : step budget s e = some t) :
    UsesDue t := by
  have hend : ∀ (s : LruCache) call, UsesDue s → UsesDue (s.endPass call) := fun s call h => by
    unfold endPass
    split
    · split <;> exact h
    · exact h
  cases e <;> simp only [LruCache.step] at hs
  case noteUse url size now =>
    cases hs
    unfold LruCache.noteUse
    dsimp only
    split
    · exact UsesDue.flushUses fun hdue => by cases hdue
    · exact fun hdue => by cases hdue
  case flush =>
    obtain ⟨hdue, hs⟩ := Option.ite_none_right_eq_some.1 hs
    cases hs
    have := h.flushUses
    rwa [LruCache.flushUses, if_pos hdue] at this
  case forget url =>
    cases hs
    exact h.erase url
  case invalidate =>
    cases hs
    exact fun _ => rfl
  case adoptTotal now =>
    split at hs
    case h_2 => cases hs
    split at hs <;> cases hs
    unfold LruCache.adoptTotal
    dsimp only
    split
    · split
      · exact hend _ _ h
      · exact h
    · exact hend _ _ h
  all_goals
    repeat' split at hs
  all_goals
    cases hs
  all_goals first | exact h | exact hend _ _ h | exact h.erase _ | exact UsesDue.flushUses (by exact h)

theorem flushUses_batches (s : LruCache) (hdue : UsesDue s) :
    s.flushUses.table = s.table ∧ SameBodies s s.flushUses ∧
      s.flushUses.metaWrites = s.metaWrites ++ if s.pendingUses.entries = [] then [] else [s.pendingUses] := by
  unfold flushUses runFlush
  by_cases hpending : s.pendingUses.entries = []
  · cases s.flushDue <;> simp [hpending] <;> exact ⟨rfl, rfl⟩
  have htrue : s.flushDue = true := by
    by_contra hfalse
    exact hpending (hdue (Bool.eq_false_iff.2 hfalse))
  simp only [htrue, hpending, if_true, if_false, true_and]
  exact ⟨⟨rfl, rfl⟩, trivial⟩

theorem landUses_table (s : LruCache) (hdue : UsesDue s) :
    s.landUses.table = s.bufferedUses.foldl (fun table batch => (writeUses table batch.entries).1) s.table ∧
      SameBodies s s.landUses := by
  have hfinish : s.finishBatch.table = s.table ∧ SameBodies s s.finishBatch ∧ s.finishBatch.flushDue = s.flushDue ∧
      s.finishBatch.pendingUses = s.pendingUses ∧
      s.finishBatch.metaWrites = if s.writing.isSome then s.metaWrites.tail else s.metaWrites := by
    unfold finishBatch
    cases s.writing <;> exact ⟨rfl, ⟨rfl, rfl⟩, rfl, rfl, rfl⟩
  obtain ⟨htable, ⟨hcached, hreserved⟩, hflush, hpending, hbatches⟩ := hfinish
  obtain ⟨htable', ⟨hcached', hreserved'⟩, hbatches'⟩ := flushUses_batches s.finishBatch (by rwa [UsesDue, hflush, hpending])
  obtain ⟨hland, hland₁, hland₂⟩ := foldl_landBatch s.finishBatch.flushUses.metaWrites s.finishBatch.flushUses
  refine ⟨hland.trans ?_, hland₁.trans (hcached'.trans hcached), hland₂.trans (hreserved'.trans hreserved)⟩
  rw [hbatches', htable', htable, hbatches, hpending]
  rfl

/-! ### The loop -/

theorem evictRows_spec (budget reserved : Nat) (rows : List LruEntry) (freed : Nat) (s : LruCache)
    (hrows : s.table.entries.Perm rows) (hbytes : s.lruBytes = some (sumSizes rows)) :
    ∃ k ≤ rows.length, (∀ j < k, budget < sumSizes (rows.drop j) + reserved) ∧
      (k < rows.length → sumSizes (rows.drop k) + reserved ≤ budget) ∧
      let result := evictRows budget rows (sumSizes rows + reserved : Nat) freed s
      result.1.table.entries.Perm (rows.drop k) ∧ result.1.lruBytes = some (sumSizes (rows.drop k)) ∧
        (∀ url, url ∈ result.1.cached ↔ url ∈ s.cached ∧ url ∉ (rows.take k).map Sigma.fst) ∧
        result.2 = freed + sumSizes (rows.take k) := by
  induction rows generalizing freed s with
  | nil => exact ⟨0, le_rfl, nofun, nofun, hrows, hbytes, by simp [evictRows], by simp [evictRows, sumSizes]⟩
  | cons entry rest ih =>
    by_cases hfits : sumSizes (entry :: rest) + reserved ≤ budget
    · refine ⟨0, Nat.zero_le _, nofun, fun _ => hfits, ?_⟩
      have hstop : evictRows budget (entry :: rest) (sumSizes (entry :: rest) + reserved : Nat) freed s = (s, freed) :=
        if_pos (Int.ofNat_le.2 hfits)
      rw [hstop]
      exact ⟨hrows, hbytes, by simp, by simp [sumSizes]⟩
    · have hentry : s.table.lookup entry.1 = some entry.2 :=
        (Assoc.mem_entries_iff_lookup _ _ _).1 (hrows.mem_iff.2 List.mem_cons_self)
      have hleft : (s.evictRow entry).table.entries.Perm rest :=
        ((Assoc.perm_cons_erase hentry).symm.trans hrows).cons_inv
      have htotal : (s.evictRow entry).lruBytes = some (sumSizes rest) := by
        simp [evictRow, applyDelta, hbytes, sumSizes_cons]
      obtain ⟨k, hk, hshort, hfit, hpass⟩ := ih (freed + entry.2.size) (s.evictRow entry) hleft htotal
      have hturn : evictRows budget (entry :: rest) (sumSizes (entry :: rest) + reserved : Nat) freed s =
          evictRows budget rest (sumSizes rest + reserved : Nat) (freed + entry.2.size) (s.evictRow entry) := by
        rw [evictRows, if_neg (fun h => hfits (Int.ofNat_le.1 h)), sumSizes_cons]
        congr 1
        omega
      rw [hturn]
      refine ⟨k + 1, Nat.succ_le_succ hk, fun j hj => ?_, fun h => hfit (Nat.lt_of_succ_lt_succ h), hpass.1, hpass.2.1,
        fun url => ?_, ?_⟩
      · cases j with
        | zero => exact not_le.1 hfits
        | succ j => exact hshort j (Nat.lt_of_succ_lt_succ hj)
      · rw [hpass.2.2.1 url, List.take_succ_cons, List.map_cons, List.mem_cons, not_or, ← and_assoc]
        simp [evictRow, applyDelta]
      · rw [hpass.2.2.2, List.take_succ_cons, sumSizes_cons, Nat.add_assoc]

theorem evictRead_spec (budget now : Nat) (s : LruCache) :
    let rows := sortByUse s.table.entries
    let result := evictRead budget now s
    ∃ k ≤ rows.length, (∀ j < k, budget < sumSizes (rows.drop j) + s.reservedBytes) ∧
      (k < rows.length → sumSizes (rows.drop k) + s.reservedBytes ≤ budget) ∧
      result.1.table.entries.Perm (rows.drop k) ∧ result.1.lruBytes = some (sumSizes result.1.table.entries) ∧
      (∀ url, url ∈ result.1.cached ↔ url ∈ s.cached ∧ url ∉ (rows.take k).map Sigma.fst) ∧
      result.2 = sumSizes (rows.take k) := by
  intro rows result
  have hperm : rows.Perm s.table.entries := List.perm_insertionSort _ _
  have hsum : sumSizes rows = sumSizes s.table.entries := sumSizes_perm hperm
  have hresult : result = evictRead budget now s := rfl
  unfold evictRead at hresult
  by_cases hfits : sumSizes s.table.entries + s.reservedBytes ≤ budget
  · rw [if_pos hfits] at hresult
    refine ⟨0, Nat.zero_le _, nofun, fun _ => hsum ▸ hfits, ?_⟩
    rw [hresult]
    exact ⟨hperm.symm, rfl, by simp, by simp [sumSizes]⟩
  rw [if_neg hfits, ← hsum] at hresult
  obtain ⟨k, hk, hshort, hfit, hleft, htotal, hurls, hfreed⟩ := evictRows_spec budget s.reservedBytes rows 0
    { s with lruBytes := some (sumSizes rows), totalStale := false, writesSinceSync := 0, lastSyncAt := now } hperm.symm rfl
  refine ⟨k, hk, hshort, hfit, ?_⟩
  rw [hresult]
  exact ⟨hleft, htotal.trans (congrArg some (sumSizes_perm hleft).symm), hurls, hfreed.trans (Nat.zero_add _)⟩

/-! ### The pass of the machine -/

section

variable {s t u : LruCache} {budget call : Nat}

def isPassEvent : LruEvent → Bool
  | .lockRoom _ | .usesCommit | .usesApply | .syncTotal | .readTable | .adoptTotal _ | .nextVictim | .forgetVictim
  | .subtractVictim => true
  | _ => false

/-- What a pass is about. -/
abbrev Holdings := Table × List Url × Uses × Option Nat × Nat

def held (s : LruCache) : Holdings := (s.table, s.cached, s.pendingUses, s.lruBytes, s.reservedBytes)

/-- The pass alone, with no event of another call between its own, frees the lock and leaves `left`. -/
def PassLeaves (budget : Nat) (s : LruCache) (left : Holdings) : Prop :=
  ∃ events t, events.all isPassEvent = true ∧ run (step budget) s events = some t ∧ t.pass = none ∧ t.held = left

theorem PassLeaves.after {events : List LruEvent} {left : Holdings} (hu : PassLeaves budget u left)
    (h : run (step budget) s events = some u) (hevents : events.all isPassEvent = true) : PassLeaves budget s left := by
  obtain ⟨rest, t, hrest, hrun, hover⟩ := hu
  exact ⟨events ++ rest, t, by rw [List.all_append, hevents, hrest]; rfl, run_trans h hrun, hover⟩

theorem held_landBatches (batches : List Uses) (h : s.held = t.held) :
    (batches.foldl landBatch s).held = (batches.foldl landBatch t).held := by
  induction batches generalizing s t with
  | nil => exact h
  | cons batch batches ih => exact ih (by simp_all [held, landBatch, applyDelta])

theorem held_evictRows (h : s.held = t.held) (rows : List LruEntry) (projected : Int) (freed : Nat) :
    (evictRows budget rows projected freed s).1.held = (evictRows budget rows projected freed t).1.held := by
  induction rows generalizing projected freed s t with
  | nil => exact h
  | cons entry rest ih =>
    simp only [evictRows]
    split
    · exact h
    · exact ih (by simp_all [held, evictRow, applyDelta]) _ _

theorem held_evictRead (h : s.held = t.held) (now : Nat) :
    (evictRead budget now s).1.held = (evictRead budget now t).1.held := by
  obtain ⟨htable, hcached, hpending, -, hreserved⟩ : _ ∧ _ ∧ _ ∧ _ ∧ _ := by simpa [held] using h
  simp only [evictRead, htable, hreserved]
  split
  · simp_all [held]
  · exact held_evictRows (by simp_all [held]) _ _ _

theorem endPass_held (s : LruCache) (call : Nat) : (s.endPass call).pass = none ∧ (s.endPass call).held = s.held := by
  unfold endPass
  split
  · split <;> exact ⟨rfl, rfl⟩
  · exact ⟨rfl, rfl⟩

theorem landBatches_runs (batches : List Uses) (hpass : s.pass = some ⟨call, .flushing batches.length⟩)
    (hwrites : s.metaWrites = batches) (hidle : s.writing = none) :
    ∃ t, run (step budget) s (batches.flatMap fun _ => [.usesCommit, .usesApply]) = some t ∧
      t.pass = some ⟨call, .flushing 0⟩ ∧ t.writing = none ∧ t.writes = s.writes ∧ t.held = (batches.foldl landBatch s).held := by
  induction batches generalizing s with
  | nil => exact ⟨s, rfl, hpass, hidle, rfl, rfl⟩
  | cons batch batches ih =>
    obtain ⟨u, hlands, hnext, hqueue, hnone, hsame, hu⟩ : ∃ u, run (step budget) s [.usesCommit, .usesApply] = some u ∧
        u.pass = some ⟨call, .flushing batches.length⟩ ∧ u.metaWrites = batches ∧ u.writing = none ∧ u.writes = s.writes ∧
        u.held = (s.landBatch batch).held := by
      -- the state is read off the run, and the rest holds of it by computation
      constructor
      constructor
      · simp only [run, step, hpass, hwrites, hidle, List.length_cons]
        rfl
      · exact ⟨rfl, rfl, rfl, rfl, rfl⟩
    obtain ⟨t, hrun, hflushed, hdone, hsame', hheld⟩ := ih hnext hqueue hnone
    exact ⟨t, run_trans hlands hrun, hflushed, hdone, hsame'.trans hsame, hheld.trans (held_landBatches _ hu)⟩

theorem evictRows_runs (rows : List LruEntry) {projected : Int} {freed : Nat}
    (hpass : s.pass = some ⟨call, .evicting rows projected freed⟩) :
    PassLeaves budget s (evictRows budget rows projected freed s).1.held := by
  induction rows generalizing projected freed s with
  | nil => exact ⟨[.nextVictim], s.endPass call, rfl, by simp [run, step, hpass], endPass_held s call⟩
  | cons entry rest ih =>
    simp only [evictRows]
    split
    · rename_i hfits
      exact ⟨[.nextVictim], s.endPass call, rfl, by simp [run, step, hpass, hfits], endPass_held s call⟩
    rename_i hfull
    obtain ⟨u, hturn, hnext, hu⟩ : ∃ u, run (step budget) s [.nextVictim, .forgetVictim, .subtractVictim] = some u ∧
        u.pass = some ⟨call, .evicting rest (projected - entry.2.size) (freed + entry.2.size)⟩ ∧
        u.held = (s.evictRow entry).held := by
      constructor
      constructor
      · simp only [run, step, hpass, if_neg hfull, setPass]
        rfl
      · exact ⟨rfl, rfl⟩
    rw [← held_evictRows hu]
    exact (ih hnext).after hturn rfl

theorem evictRead_runs (now : Nat) (hpass : s.pass = some ⟨call, .flushing 0⟩) (hidle : s.appliedBefore s.transactions = true) :
    PassLeaves budget s (evictRead budget now s).1.held := by
  have hread : run (step budget) s [.syncTotal, .readTable, .adoptTotal now] = some
      ((s.setPass call (.read s.transactions s.metaGeneration s.committedBytes s.table.entries)).adoptTotal
        budget call s.metaGeneration s.committedBytes s.table.entries now) := by
    simp only [appliedBefore] at hidle
    simp only [run, step, hpass, setPass, appliedBefore, hidle, if_true]
  simp only [LruCache.adoptTotal, setPass, if_true, Nat.sub_self, Nat.add_zero] at hread
  simp only [evictRead]
  by_cases hfits : sumSizes s.table.entries + s.reservedBytes ≤ budget
  · rw [if_pos hfits] at hread ⊢
    exact ⟨_, _, rfl, hread, endPass_held _ _⟩
  rw [if_neg hfits] at hread ⊢
  refine PassLeaves.after ?_ hread rfl
  rw [held_evictRows (t := LruCache.mk ..)]
  · exact evictRows_runs _ rfl
  · rfl

/-- **The machine's pass is `evictFromTable`**: a call that takes the lock while no transaction waits for its `applyDelta`, and
that nothing interleaves with, leaves the rows, bodies, refreshes and totals that `evictFromTable` leaves. -/
theorem evictFromTable_runs (now : Nat) {waiting : List Nat} {w : Write} (hlock : s.evictions = call :: waiting)
    (hfree : s.pass = none) (hw : s.writes.lookup call = some w) (hqueued : w.phase = .queued)
    (hfull : s.fitsWithoutReading budget now = false) (hidle : ∀ txn, s.appliedBefore txn = true) :
    PassLeaves budget s (evictFromTable budget now s).1.held := by
  have hnone : s.writing = none := by
    rw [Option.eq_none_iff_forall_ne_some]
    intro batch hbatch
    have h := hidle (batch.1 + 1)
    simp [appliedBefore, hbatch] at h
  obtain ⟨u, hu, hpass, hbatches, hwriting, hwrites, hheld⟩ : ∃ u, run (step budget) s [.lockRoom now] = some u ∧
      u.pass = some ⟨call, .flushing s.flushUses.metaWrites.length⟩ ∧ u.metaWrites = s.flushUses.metaWrites ∧
      u.writing = none ∧ u.writes = s.writes.insert call { w with phase := .evicting } ∧ u.held = s.flushUses.held := by
    constructor
    constructor
    · simp only [run, step, hlock, hfree, hw, hqueued, hfull, if_true]
      rfl
    by_cases hdue : s.flushDue <;> by_cases hpending : s.pendingUses.entries = [] <;>
      simp [flushUses, runFlush, hdue, hpending, setPass, setPhase, hnone, held]
  obtain ⟨v, hlands, hflushed, hdone, hsame, hv⟩ := @landBatches_runs u budget call _ hpass hbatches hwriting
  have happlied : v.appliedBefore v.transactions = true := by
    have h := hidle v.transactions
    simp only [appliedBefore, hdone, hsame, hwrites, AList.entries_insert, List.all_cons, Bool.and_eq_true, List.all_eq_true,
      Option.all_none] at h ⊢
    exact ⟨⟨rfl, fun c hc => h.1 c ((List.kerase_sublist ..).subset hc)⟩, trivial⟩
  have hlanded : v.held = s.landUses.held := by
    rw [hv, landUses, finishBatch, hnone]
    exact held_landBatches _ hheld
  rw [evictFromTable, ← held_evictRead hlanded]
  exact ((evictRead_runs now hflushed happlied).after hlands (by simp [isPassEvent])).after hu rfl

end

/-- **An eviction pass removes the shortest oldest prefix.**  In every state a worker can get to from any table, for every
reservation and budget: with the buffered refreshes written, the rows in the order of their last use lose the shortest prefix
after which the rest fits beside what is reserved, or all of them; the cache loses the same urls, the running total is the
rest's, and the freed bytes are the prefix's. -/
theorem evicts_shortest_prefix (budget now : Nat) (table : Table) (cached : List Url) (events : List LruEvent) (s : LruCache)
    (hrun : run (step budget) (start table cached) events = some s) :
    let refreshed := s.bufferedUses.foldl (fun table batch => (writeUses table batch.entries).1) s.table
    let rows := sortByUse refreshed.entries
    let result := evictFromTable budget now s
    rows.Perm refreshed.entries ∧ rows.Pairwise (fun a b => a.2.usedAt ≤ b.2.usedAt) ∧
      ∃ k ≤ rows.length, (∀ j < k, budget < sumSizes (rows.drop j) + s.reservedBytes) ∧
        (k < rows.length → sumSizes (rows.drop k) + s.reservedBytes ≤ budget) ∧
        result.1.table.entries.Perm (rows.drop k) ∧ result.1.lruBytes = some (sumSizes result.1.table.entries) ∧
        (∀ url, url ∈ result.1.cached ↔ url ∈ s.cached ∧ url ∉ (rows.take k).map Sigma.fst) ∧
        result.2 = sumSizes (rows.take k) := by
  have hdue : UsesDue s := Steps.run_inv (step budget) UsesDue (fun _ _ _ h hs => h.step hs) events _ s (fun _ => rfl) hrun
  obtain ⟨htable, hcached, hreserved⟩ := landUses_table s hdue
  have hpass := evictRead_spec budget now s.landUses
  rw [htable, hcached, hreserved] at hpass
  exact ⟨List.perm_insertionSort _ _, List.pairwise_insertionSort _ _, hpass⟩

theorem evicts_shortest_prefix_refreshed : ∃ s, run (step 6)
      (start ((∅ : Table).insert ['a'] ⟨3, 1⟩ |>.insert ['b'] ⟨4, 2⟩) [['a'], ['b']])
      [.noteUse ['a'] none 5, .putBodyBounded 0 ['c'] 2] = some s ∧
    (evictFromTable 6 9 s).1.lruBytes = some 3 ∧ ∃ k ≤ 2,
      (evictFromTable 6 9 s).2 = sumSizes (([⟨['b'], ⟨4, 2⟩⟩, ⟨['a'], ⟨3, 5⟩⟩] : List LruEntry).take k) := by
  refine ⟨_, rfl, by decide +kernel, ?_⟩
  obtain ⟨-, -, k, hk, -, -, -, -, -, hfreed⟩ := evicts_shortest_prefix 6 9
    ((∅ : Table).insert ['a'] ⟨3, 1⟩ |>.insert ['b'] ⟨4, 2⟩) [['a'], ['b']]
    [.noteUse ['a'] none 5, .putBodyBounded 0 ['c'] 2] _ rfl
  exact ⟨k, hk, hfreed⟩

end LruCache
end YuriRtc
