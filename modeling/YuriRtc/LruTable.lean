import YuriRtc.Assoc
import YuriRtc.LruCache
/-!
# LruTable — how the table's sum and the calls' sums move

A row that is set or deleted moves the sum of the sizes by the difference (`sumSizes_insert`, `sumSizes_erase`), and so
does a batch of refreshes (`sumSizes_writeUses`).  Sums over the calls in progress move with one call's phase.  The last
section says what each event of the model requires and leaves.
-/
namespace YuriRtc
namespace LruCache

theorem sumSizes_cons (e : LruEntry) (all : List LruEntry) : sumSizes (e :: all) = e.2.size + sumSizes all := by
  simp [sumSizes]

theorem sumSizes_perm {all all' : List LruEntry} (h : all.Perm all') : sumSizes all = sumSizes all' :=
  (h.map _).sum_eq

theorem sizeAt_of_lookup {table : Table} {url : Url} {row : Row} (h : table.lookup url = some row) :
    sizeAt table url = row.size := by
  simp [sizeAt, h]

theorem sizeAt_of_absent {table : Table} {url : Url} (h : table.lookup url = none) : sizeAt table url = 0 := by
  simp [sizeAt, h]

section

variable (table : Table)
include table

theorem sizeAt_insert (url : Url) (row : Row) : sizeAt (table.insert url row) url = row.size := by
  simp [sizeAt]

theorem sizeAt_insert_ne {url url' : Url} (row : Row) (h : url' ≠ url) :
    sizeAt (table.insert url row) url' = sizeAt table url' := by
  simp [sizeAt, AList.lookup_insert_ne h]

theorem sizeAt_erase (url : Url) : sizeAt (table.erase url) url = 0 := by
  simp [sizeAt]

theorem sizeAt_erase_ne {url url' : Url} (h : url' ≠ url) :
    sizeAt (table.erase url) url' = sizeAt table url' := by
  simp [sizeAt, AList.lookup_erase_ne h]

theorem sumSizes_erase (url : Url) :
    sumSizes table.entries = sizeAt table url + sumSizes (table.erase url).entries := by
  cases h : table.lookup url with
  | none => rw [sizeAt_of_absent h, Assoc.erase_of_absent h, Nat.zero_add]
  | some row => rw [sizeAt_of_lookup h]; exact Assoc.sum_erase _ h

theorem sumSizes_insert (url : Url) (row : Row) :
    sizeAt table url + sumSizes (table.insert url row).entries = row.size + sumSizes table.entries := by
  have hset : sumSizes (table.insert url row).entries = row.size + sumSizes (table.erase url).entries :=
    Assoc.sum_insert _ table url row
  have herase := sumSizes_erase table url
  omega

theorem writeUse_eq (use : Sigma (fun _ : Url => PendingUse)) :
    (table.lookup use.1 = none ∧ writeUse table use = table ∧ useDelta table use = 0) ∨
    ∃ previous, table.lookup use.1 = some previous ∧
      writeUse table use = table.insert use.1 ⟨use.2.size.getD previous.size, use.2.usedAt⟩ ∧
      useDelta table use = (use.2.size.getD previous.size : Int) - previous.size := by grind [writeUse, useDelta]

theorem sumSizes_writeUse (use : Sigma (fun _ : Url => PendingUse)) :
    (sumSizes (writeUse table use).entries : Int) = sumSizes table.entries + useDelta table use := by
  obtain ⟨-, ht, hd⟩ | ⟨previous, hprev, ht, hd⟩ := writeUse_eq table use
  · rw [ht, hd, Int.add_zero]
  rw [ht, hd]
  have hset := sumSizes_insert table use.1 ⟨use.2.size.getD previous.size, use.2.usedAt⟩
  grind [sizeAt_of_lookup]

end

theorem sumSizes_writeUses (batch : List (Sigma (fun _ : Url => PendingUse))) (table : Table) :
    (sumSizes (writeUses table batch).1.entries : Int) = sumSizes table.entries + (writeUses table batch).2 := by
  induction batch generalizing table with
  | nil => simp [writeUses]
  | cons use rest ih =>
    have huse := sumSizes_writeUse table use
    grind [writeUses]

theorem writeUses_inv (P : Table → Prop) (batch : List (Sigma (fun _ : Url => PendingUse))) (table : Table)
    (h : P table) (hstep : ∀ table, P table → ∀ use ∈ batch, P (writeUse table use)) :
    P (writeUses table batch).1 := by
  induction batch generalizing table with
  | nil => exact h
  | cons use rest ih =>
    exact ih _ (hstep table h use List.mem_cons_self)
      (fun table ht use' hu => hstep table ht use' (List.mem_cons_of_mem _ hu))

/-! ### Sums over the calls in progress -/

section Calls

variable {M : Type*} [AddCommMonoid M]

def overWrites (f : Write → M) (s : LruCache) : M := (s.writes.entries.map (fun e => f e.2)).sum

section

variable (f : Write → M) {s : LruCache} {call : Nat}
include f s call

theorem overWrites_setPhase {w : Write} (h : s.writes.lookup call = some w)
    (phase : WritePhase) :
    f w + overWrites f (s.setPhase call w phase) = f { w with phase := phase } + overWrites f s :=
  Assoc.sum_set (fun e => f e.2) h _

theorem overWrites_new (h : s.writes.lookup call = none) (w : Write) :
    overWrites f { s with writes := s.writes.insert call w } = f w + overWrites f s :=
  Assoc.sum_insert_new (fun e => f e.2) h w

theorem overWrites_finish {w : Write} (h : s.writes.lookup call = some w) :
    overWrites f s = f w + overWrites f (s.finish call w) :=
  Assoc.sum_erase (fun e => f e.2) h

end

end Calls

theorem overWrites_le {M : Type*} [AddCommMonoid M] [PartialOrder M] [IsOrderedAddMonoid M] {f g : Write → M}
    {s : LruCache} (h : ∀ e ∈ s.writes.entries, f e.2 ≤ g e.2) : overWrites f s ≤ overWrites g s :=
  List.sum_le_sum h

/-! ### What a step requires and leaves -/

structure Keeps (s t : LruCache) : Prop where
  table : t.table = s.table := by rfl
  lruBytes : t.lruBytes = s.lruBytes := by rfl
  stale : t.totalStale = false → s.totalStale = false := by exact id
  committed : t.committedBytes = s.committedBytes := by rfl
  reserved : t.reservedBytes = s.reservedBytes := by rfl
  generation : t.metaGeneration = s.metaGeneration := by rfl
  writing : t.writing = s.writing := by rfl
  writes : t.writes = s.writes := by rfl
  transactions : t.transactions = s.transactions := by rfl

variable (s : LruCache)

theorem Keeps.refl : Keeps s s := {}

theorem Keeps.runFlush : Keeps s s.runFlush ∧ s.runFlush.pass = s.pass := by
  unfold LruCache.runFlush
  split <;> exact ⟨{}, rfl⟩

theorem Keeps.flushUses : Keeps s s.flushUses ∧ s.flushUses.pass = s.pass := by
  unfold LruCache.flushUses
  split
  · exact Keeps.runFlush s
  · exact ⟨Keeps.refl s, rfl⟩

theorem Keeps.after {s t u : LruCache} (h' : Keeps t u) (h : Keeps s t) : Keeps s u where
  table := h'.table.trans h.table
  lruBytes := h'.lruBytes.trans h.lruBytes
  stale := fun hu => h.stale (h'.stale hu)
  committed := h'.committed.trans h.committed
  reserved := h'.reserved.trans h.reserved
  generation := h'.generation.trans h.generation
  writing := h'.writing.trans h.writing
  writes := h'.writes.trans h.writes
  transactions := h'.transactions.trans h.transactions

theorem Keeps.noteUse (url : Url) (size : Option Nat) (now : Nat) :
    Keeps s (s.noteUse url size now) ∧ (s.noteUse url size now).pass = s.pass := by
  unfold LruCache.noteUse
  dsimp only
  split
  · obtain ⟨hk, hp⟩ := Keeps.flushUses { s with
      pendingUses := s.pendingUses.insert url ⟨size.or ((s.pendingUses.lookup url).bind PendingUse.size), now⟩
      flushDue := true }
    exact ⟨hk.after {}, hp⟩
  · exact ⟨{}, rfl⟩

/-- **What a step requires and leaves**, for the events that do not only move a call or the pass along. -/
inductive Becomes (budget : Nat) (s : LruCache) : LruEvent → LruCache → Prop
  | keeps {e : LruEvent} {t : LruCache} (hkeeps : Keeps s t) (hpass : t.pass = s.pass) : Becomes budget s e t
  | usesCommit {batch : Uses} {rest : List Uses} (hbatch : s.metaWrites = batch :: rest) (hnone : s.writing = none) :
    Becomes budget s .usesCommit (s.commitUses batch)
  | usesApply {t : LruCache} {txn : Nat} {delta : Int} (hwriting : s.writing = some (txn, delta))
    (hkeeps : Keeps { s.applyDelta delta with writing := none } t)
    (hpass : t.pass = s.pass ∨
      ∃ call n, s.pass = some ⟨call, .flushing (n + 1)⟩ ∧ t.pass = some ⟨call, .flushing n⟩) :
    Becomes budget s .usesApply t
  | putBodyBounded {call : Nat} {url : Url} {size : Nat} (hfree : s.writes.lookup call = none) :
    Becomes budget s (.putBodyBounded call url size)
      { s with
        writes := s.writes.insert call ⟨url, size, size, .checking⟩
        reservedBytes := s.reservedBytes + size }
  | touch {call : Nat} {url : Url} {size : Nat} (hfree : s.writes.lookup call = none) :
    Becomes budget s (.touch call url size) { s with writes := s.writes.insert call ⟨url, size, 0, .stored⟩ }
  | admits {e : LruEvent} {call now : Nat} {w : Write} (he : e = .ensureRoom call now ∨ e = .lockRoom now)
    (hw : s.writes.lookup call = some w) (hphase : w.phase = .checking ∨ w.phase = .queued)
    (hfits : s.fitsWithoutReading budget now = true) (evictions : List Nat) :
    Becomes budget s e { s.setPhase call w .admitted with evictions := evictions }
  | queues {call now : Nat} {w : Write} (hw : s.writes.lookup call = some w) (hphase : w.phase = .checking) :
    Becomes budget s (.ensureRoom call now)
      { s.setPhase call w .queued with evictions := s.evictions ++ [call] }
  | locks {call now n : Nat} {w : Write} {t : LruCache} (hw : s.writes.lookup call = some w)
    (hphase : w.phase = .queued) (hnone : s.pass = none) (hkeeps : Keeps (s.setPhase call w .evicting) t)
    (hpass : t.pass = some ⟨call, .flushing n⟩) : Becomes budget s (.lockRoom now) t
  | syncTotal {call : Nat} (hpass : s.pass = some ⟨call, .flushing 0⟩) :
    Becomes budget s .syncTotal (s.setPass call (.syncing s.metaGeneration s.committedBytes))
  | readTable {call generation mark : Nat} (hpass : s.pass = some ⟨call, .syncing generation mark⟩) :
    Becomes budget s .readTable (s.setPass call (.read s.transactions generation mark s.table.entries))
  | adoptTotal {now call txn generation mark : Nat} {all : List LruEntry}
    (hpass : s.pass = some ⟨call, .read txn generation mark all⟩) (happlied : s.appliedBefore txn = true) :
    Becomes budget s (.adoptTotal now) (s.adoptTotal budget call generation mark all now)
  | passEnds {call freed : Nat} {rest : List LruEntry} {projected : Int}
    (hpass : s.pass = some ⟨call, .evicting rest projected freed⟩) (hdone : rest = [] ∨ projected ≤ budget) :
    Becomes budget s .nextVictim (s.endPass call)
  | picks {call freed : Nat} {entry : LruEntry} {rest : List LruEntry} {projected : Int} {t : LruCache}
    (hpass : s.pass = some ⟨call, .evicting (entry :: rest) projected freed⟩) (hkeeps : Keeps s t)
    (hpass' : t.pass = some ⟨call, .forgetting entry rest projected freed⟩) : Becomes budget s .nextVictim t
  | forgetVictim {call freed : Nat} {entry : LruEntry} {rest : List LruEntry} {projected : Int}
    (hpass : s.pass = some ⟨call, .forgetting entry rest projected freed⟩) :
    Becomes budget s .forgetVictim (s.forgetEntry call entry rest projected freed)
  | subtractVictim {call freed : Nat} {entry : LruEntry} {rest : List LruEntry} {projected : Int}
    (hpass : s.pass = some ⟨call, .forgot entry rest projected freed⟩) :
    Becomes budget s .subtractVictim ((s.applyDelta (-(entry.2.size : Int))).setPass call
      (.evicting rest (projected - entry.2.size) (freed + entry.2.size)))
  | put {call : Nat} {w : Write} {cached : List Url} (hw : s.writes.lookup call = some w)
    (hphase : w.phase = .admitted) :
    Becomes budget s (.put call) { s.setPhase call w .stored with cached := cached }
  | finishes {e : LruEvent} {call : Nat} {w : Write} (hw : s.writes.lookup call = some w)
    (hphase : w.phase = .admitted ∨ w.phase = .applied) : Becomes budget s e (s.finish call w)
  | touchCommit {call now : Nat} {w : Write} (hw : s.writes.lookup call = some w) (hphase : w.phase = .stored) :
    Becomes budget s (.touchCommit call now) (s.commitTouch call w now)
  | touchApply {call txn : Nat} {delta : Int} {w : Write} (hw : s.writes.lookup call = some w)
    (hphase : w.phase = .touched txn delta) :
    Becomes budget s (.touchApply call) ((s.applyDelta delta).setPhase call w .applied)
  | invalidate {t : LruCache} (hkeeps : t.table = s.table ∧ t.committedBytes = s.committedBytes ∧
      t.reservedBytes = s.reservedBytes ∧ t.writing = s.writing ∧ t.writes = s.writes ∧ t.pass = s.pass ∧
      t.transactions = s.transactions) (hstale : t.totalStale = true) : Becomes budget s .invalidate t
  | deleteCommit {index : Nat} {url : Url} {deletions : List Url} (hurl : s.deletions[index]? = some url) :
    Becomes budget s (.deleteCommit index)
      { s with table := s.table.erase url, deletions := deletions, transactions := s.transactions + 1 }
  | clearCommit (hgen : 0 < s.metaGeneration) (cached : List Url) :
    Becomes budget s .clearCommit
      { s with table := ∅, cached := cached, transactions := s.transactions + 1 }

theorem step_becomes {budget : Nat} {s t : LruCache} {e : LruEvent} (h : step budget s e = some t) :
    Becomes budget s e t := by
  cases e <;> simp only [step] at h
  case noteUse url size now =>
    cases h
    exact .keeps (Keeps.noteUse s url size now).1 (Keeps.noteUse s url size now).2
  case flush =>
    split at h <;> cases h
    exact .keeps (Keeps.runFlush s).1 (Keeps.runFlush s).2
  case usesCommit =>
    split at h <;> cases h
    rename_i batch rest hbatch hnone
    exact .usesCommit hbatch hnone
  case usesApply =>
    split at h
    · rename_i txn delta hwriting
      split at h <;> cases h
      · rename_i call n hpass
        exact .usesApply hwriting {} (.inr ⟨call, n, hpass, rfl⟩)
      · exact .usesApply hwriting {} (.inl rfl)
    · cases h
  case putBodyBounded call url size =>
    split at h <;> cases h
    rename_i hfree
    exact .putBodyBounded hfree
  case touch call url size =>
    split at h <;> cases h
    rename_i hfree
    exact .touch hfree
  case ensureRoom call now =>
    split at h
    · rename_i w hw
      split at h
      · rename_i hphase
        split at h <;> cases h
        · rename_i hfits
          exact .admits (.inl rfl) hw (.inl hphase) hfits s.evictions
        · exact .queues hw hphase
      · cases h
    · cases h
  case lockRoom now =>
    split at h
    · rename_i call waiting hqueue hnone
      split at h
      · rename_i w hw
        split at h
        · rename_i hphase
          split at h <;> cases h
          · rename_i hfits
            exact .admits (.inr rfl) hw (.inr hphase) hfits waiting
          have hflush := Keeps.flushUses { s.setPhase call w .evicting with evictions := waiting }
          have hlocked := hflush.1.after (s := s.setPhase call w .evicting) {}
          exact .locks hw hphase hnone { hlocked with } rfl
        · cases h
      · cases h
    · cases h
  case syncTotal =>
    split at h <;> cases h
    rename_i call hpass
    exact .syncTotal hpass
  case readTable =>
    split at h <;> cases h
    rename_i call generation mark hpass
    exact .readTable hpass
  case adoptTotal now =>
    split at h
    · rename_i call txn generation mark all hpass
      split at h <;> cases h
      rename_i happlied
      exact .adoptTotal hpass happlied
    · cases h
  case nextVictim =>
    split at h
    · rename_i call projected freed hpass
      cases h
      exact .passEnds hpass (.inl rfl)
    · rename_i call entry rest projected freed hpass
      split at h <;> cases h
      · rename_i hfits
        exact .passEnds hpass (.inr hfits)
      · exact .picks hpass {} rfl
    · cases h
  case forgetVictim =>
    split at h <;> cases h
    rename_i call entry rest projected freed hpass
    exact .forgetVictim hpass
  case subtractVictim =>
    split at h <;> cases h
    rename_i call entry rest projected freed hpass
    exact .subtractVictim hpass
  case put call =>
    split at h
    · rename_i w hw
      split at h <;> cases h
      rename_i hphase
      exact .put hw hphase
    · cases h
  case abandon call =>
    split at h
    · rename_i w hw
      split at h <;> cases h
      rename_i hphase
      exact .finishes hw (.inl hphase)
    · cases h
  case touchCommit call now =>
    split at h
    · rename_i w hw
      split at h <;> cases h
      rename_i hphase
      exact .touchCommit hw hphase
    · cases h
  case touchApply call =>
    split at h
    · rename_i w hw
      split at h <;> cases h
      rename_i txn delta hphase
      exact .touchApply hw hphase
    · cases h
  case settle call =>
    split at h
    · rename_i w hw
      split at h <;> cases h
      rename_i hphase
      exact .finishes hw (.inr hphase)
    · cases h
  case forget url =>
    cases h
    exact .keeps { stale := by simp } rfl
  case invalidate =>
    cases h
    exact .invalidate ⟨rfl, rfl, rfl, rfl, rfl, rfl, rfl⟩ rfl
  case invalidateEntry url =>
    split at h <;> cases h
    exact .keeps {} rfl
  case deleteCommit index =>
    split at h <;> cases h
    rename_i url hurl
    exact .deleteCommit hurl
  case clearCommit =>
    split at h <;> cases h
    rename_i hgen
    exact .clearCommit hgen []

end LruCache
end YuriRtc
