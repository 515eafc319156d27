import YuriRtc.Assoc
import YuriRtc.Protocol
/-!
# WireGzip — the cache of compressed files

`content-node/static_wire.go`: the LRU list, the two maps over it and the byte counter of `wireGzipCache`, and what
`storeResultLocked` does to them.  A dereference of a nil element is `none`, and so is an eviction loop that does not end.
-/
namespace YuriRtc

def maxWireGzipCacheEntryBytes : Nat := 8 * 1024 * 1024
def maxWireGzipCacheBytes : Nat := 64 * 1024 * 1024
def maxWireGzipCacheBuilds : Nat := 4
def maxWireGzipCacheEntries : Nat := 4096

structure WireGzipCacheKey where
  path : List Char
  size : Int
  modTimeNs : Int
deriving DecidableEq, Repr

structure WireGzipCacheEntry where
  key : WireGzipCacheKey
  data : Bytes
  use : Bool
deriving DecidableEq, Repr

/-- `list.Element`: the value is not changed once it is made, and the number tells elements apart. -/
structure GzipElement where
  number : Nat
  entry : WireGzipCacheEntry
deriving DecidableEq, Repr

def GzipElement.key (e : GzipElement) : WireGzipCacheKey := e.entry.key

def GzipElement.bytes (e : GzipElement) : Nat := e.entry.data.length

/-- The front of the list comes first; `made` counts the elements. -/
structure WireGzipCache where
  used : Int
  lru : List GzipElement
  entries : AList (fun _ : WireGzipCacheKey => GzipElement)
  paths : AList (fun _ : List Char => WireGzipCacheKey)
  made : Nat

namespace WireGzipCache

def new : WireGzipCache := ⟨0, [], ∅, ∅, 0⟩

/-- `MoveToFront`, for an element of the list. -/
def moveToFront (c : WireGzipCache) (e : GzipElement) : WireGzipCache :=
  { c with lru := e :: c.lru.filter (·.number ≠ e.number) }

def removeLocked (c : WireGzipCache) (e : GzipElement) : WireGzipCache :=
  { c with
    used := c.used - e.bytes
    lru := c.lru.filter (·.number ≠ e.number)
    entries := c.entries.erase e.key
    paths := c.paths.erase e.key.path }

def pushFront (c : WireGzipCache) (entry : WireGzipCacheEntry) : WireGzipCache :=
  let e : GzipElement := ⟨c.made, entry⟩
  { used := c.used + entry.data.length
    lru := e :: c.lru
    entries := c.entries.insert entry.key e
    paths := c.paths.insert entry.key.path entry.key
    made := c.made + 1 }

def overfull (c : WireGzipCache) : Bool := maxWireGzipCacheBytes < c.used || maxWireGzipCacheEntries < c.entries.entries.length

def evict : Nat → WireGzipCache → Option WireGzipCache
  | 0, c => if c.overfull then none else some c
  | fuel + 1, c => if c.overfull then c.lru.getLast?.bind fun e => evict fuel (c.removeLocked e) else some c

def admits (data : Bytes) (use : Bool) : Bool := !(use && (data.length == 0 || maxWireGzipCacheEntryBytes < data.length))

def entryOf (key : WireGzipCacheKey) (data : Bytes) (use : Bool) : WireGzipCacheEntry := ⟨key, if use then data else [], use⟩

def forget (c : WireGzipCache) (path : List Char) : Option WireGzipCache :=
  match c.paths.lookup path with
  | some oldKey => (c.entries.lookup oldKey).map c.removeLocked
  | none => some c

def storeResultLocked (c : WireGzipCache) (key : WireGzipCacheKey) (data : Bytes) (use : Bool) : Option WireGzipCache :=
  if admits data use then
    (c.forget key.path).bind fun forgotten =>
      let pushed := forgotten.pushFront (entryOf key data use)
      evict pushed.lru.length pushed
  else some c

/-! ### What holds of the representation -/

structure Kept (c : WireGzipCache) : Prop where
  numbers : (c.lru.map GzipElement.number).Nodup
  made : ∀ e ∈ c.lru, e.number < c.made
  onePerPath : (c.lru.map (·.key.path)).Nodup
  entries : ∀ key e, c.entries.lookup key = some e ↔ e ∈ c.lru ∧ e.key = key
  paths : ∀ path key, c.paths.lookup path = some key ↔ ∃ e ∈ c.lru, e.key = key ∧ key.path = path
  used : c.used = ((c.lru.map GzipElement.bytes).sum : Nat)
  sizes : ∀ e ∈ c.lru, e.bytes ≤ maxWireGzipCacheEntryBytes

structure Bounded (c : WireGzipCache) : Prop where
  bytes : c.used ≤ maxWireGzipCacheBytes
  count : c.entries.entries.length ≤ maxWireGzipCacheEntries

theorem bounded_iff {c : WireGzipCache} : c.Bounded ↔ c.overfull = false := by
  simp only [overfull, Bool.or_eq_false_iff, decide_eq_false_iff_not, Int.not_lt, Nat.not_lt]
  exact ⟨fun h => ⟨h.bytes, h.count⟩, fun h => ⟨h.1, h.2⟩⟩

theorem kept_new : Kept new where
  numbers := List.nodup_nil
  made _ h := absurd h List.not_mem_nil
  onePerPath := List.nodup_nil
  entries key e := ⟨fun h => (by cases h), fun h => absurd h.1 List.not_mem_nil⟩
  paths path key := ⟨fun h => (by cases h), fun ⟨_, h, _⟩ => absurd h List.not_mem_nil⟩
  used := rfl
  sizes _ h := absurd h List.not_mem_nil

namespace Kept

variable {c : WireGzipCache}

section

variable (h : c.Kept)
include h

theorem eq_of_number {e d : GzipElement} (he : e ∈ c.lru) (hd : d ∈ c.lru) (heq : e.number = d.number) : e = d :=
  List.inj_on_of_nodup_map h.numbers he hd heq

theorem eq_of_path {e d : GzipElement} (he : e ∈ c.lru) (hd : d ∈ c.lru) (heq : e.key.path = d.key.path) :
    e = d :=
  List.inj_on_of_nodup_map h.onePerPath he hd heq

theorem length_entries : c.entries.entries.length = c.lru.length := by
  have hkeys : (c.lru.map GzipElement.key).Nodup := by
    apply List.Nodup.of_map WireGzipCacheKey.path
    rw [List.map_map]
    exact h.onePerPath
  have hperm : c.entries.keys.Perm (c.lru.map GzipElement.key) := by
    rw [List.perm_ext_iff_of_nodup c.entries.keys_nodup hkeys]
    intro key
    rw [← AList.mem_keys, ← AList.lookup_isSome, List.mem_map, Option.isSome_iff_exists]
    constructor
    · rintro ⟨e, he⟩
      exact ⟨e, (h.entries key e).1 he⟩
    · rintro ⟨e, he⟩
      exact ⟨e, (h.entries key e).2 he⟩
  have hlength := hperm.length_eq
  rw [List.length_map] at hlength
  rw [← hlength]
  exact (List.length_map _).symm

section

variable {e : GzipElement} (he : e ∈ c.lru)
include e he

theorem filter_number :
    ∀ d, d ∈ c.lru.filter (·.number ≠ e.number) ↔ d ∈ c.lru ∧ d ≠ e := by
  intro d
  rw [List.mem_filter, decide_eq_true_eq]
  refine and_congr_right fun hd => not_congr ⟨fun heq => h.eq_of_number hd he heq, fun heq => by rw [heq]⟩

theorem perm_filter : c.lru.Perm (e :: c.lru.filter (·.number ≠ e.number)) := by
  have hnodup : c.lru.Nodup := h.numbers.of_map _
  rw [List.perm_ext_iff_of_nodup hnodup]
  · intro d
    rw [List.mem_cons, h.filter_number he]
    grind
  · grind

theorem moveToFront : (c.moveToFront e).Kept := by
  have hperm := (h.perm_filter he).symm
  have hmem : ∀ d, d ∈ (c.moveToFront e).lru ↔ d ∈ c.lru := fun d => hperm.mem_iff
  refine ⟨(hperm.map _).nodup_iff.2 h.numbers, fun d hd => h.made d ((hmem d).1 hd), (hperm.map _).nodup_iff.2 h.onePerPath,
    fun key d => ?_, fun path key => ?_, ?_, fun d hd => h.sizes d ((hmem d).1 hd)⟩
  · rw [hmem]
    exact h.entries key d
  · simp only [hmem]
    exact h.paths path key
  · rw [show (c.moveToFront e).used = c.used from rfl, h.used]
    exact congrArg Nat.cast (hperm.map _).sum_eq.symm

theorem removeLocked : (c.removeLocked e).Kept := by
  have hmem : ∀ d, d ∈ (c.removeLocked e).lru ↔ d ∈ c.lru ∧ d ≠ e := h.filter_number he
  refine ⟨h.numbers.sublist (List.filter_sublist.map _), fun d hd => h.made d ((hmem d).1 hd).1,
    h.onePerPath.sublist (List.filter_sublist.map _), fun key d => ?_, fun path key => ?_, ?_,
    fun d hd => h.sizes d ((hmem d).1 hd).1⟩
  · rw [hmem]
    show (c.entries.erase e.key).lookup key = some d ↔ _
    by_cases hkey : key = e.key
    · subst hkey
      rw [AList.lookup_erase]
      constructor
      · intro hnone
        cases hnone
      · rintro ⟨⟨hd, hne⟩, hpath⟩
        exact absurd (h.eq_of_path hd he (congrArg WireGzipCacheKey.path hpath)) hne
    · grind [AList.lookup_erase_ne, h.entries]
  · simp only [hmem]
    show (c.paths.erase e.key.path).lookup path = some key ↔ _
    by_cases hpath : path = e.key.path
    · subst hpath
      rw [AList.lookup_erase]
      constructor
      · intro hnone
        cases hnone
      · rintro ⟨d, ⟨hd, hne⟩, rfl, hsame⟩
        exact absurd (h.eq_of_path hd he hsame) hne
    · grind [AList.lookup_erase_ne, h.paths]
  · have hsum := ((h.perm_filter he).map GzipElement.bytes).sum_eq
    rw [List.map_cons, List.sum_cons] at hsum
    have hused := h.used
    show c.used - (e.bytes : Int) = (((c.lru.filter (·.number ≠ e.number)).map GzipElement.bytes).sum : Nat)
    omega

end

theorem pushFront {entry : WireGzipCacheEntry} (hpath : c.paths.lookup entry.key.path = none)
    (hsize : entry.data.length ≤ maxWireGzipCacheEntryBytes) : (c.pushFront entry).Kept := by
  have hnew : ∀ d ∈ c.lru, d.key.path ≠ entry.key.path := by
    intro d hd hsame
    have := (h.paths entry.key.path d.key).2 ⟨d, hd, rfl, hsame⟩
    rw [hpath] at this
    cases this
  refine ⟨?_, ?_, ?_, fun key d => ?_, fun path key => ?_, ?_, ?_⟩
  · show (c.made :: c.lru.map GzipElement.number).Nodup
    rw [List.nodup_cons]
    refine ⟨fun hmem => ?_, h.numbers⟩
    obtain ⟨d, hd, hnumber⟩ := List.mem_map.1 hmem
    have := h.made d hd
    omega
  · intro d hd
    show d.number < c.made + 1
    rcases List.mem_cons.1 hd with rfl | hold
    · exact Nat.lt_succ_self _
    · exact Nat.lt_succ_of_lt (h.made d hold)
  · show (entry.key.path :: c.lru.map (·.key.path)).Nodup
    rw [List.nodup_cons]
    refine ⟨fun hmem => ?_, h.onePerPath⟩
    grind
  · show (c.entries.insert entry.key ⟨c.made, entry⟩).lookup key = some d ↔ d ∈ ⟨c.made, entry⟩ :: c.lru ∧ d.key = key
    by_cases hkey : key = entry.key
    · subst hkey
      rw [AList.lookup_insert, Option.some.injEq, List.mem_cons]
      constructor
      · rintro rfl
        exact ⟨.inl rfl, rfl⟩
      · grind
    · rw [AList.lookup_insert_ne hkey, h.entries, List.mem_cons]
      refine ⟨fun hd => ⟨.inr hd.1, hd.2⟩, ?_⟩
      rintro ⟨rfl | hold, hsame⟩
      · exact absurd hsame.symm hkey
      · exact ⟨hold, hsame⟩
  · show (c.paths.insert entry.key.path entry.key).lookup path = some key ↔
      ∃ e ∈ (⟨c.made, entry⟩ : GzipElement) :: c.lru, e.key = key ∧ key.path = path
    by_cases hsame : path = entry.key.path
    · subst hsame
      rw [AList.lookup_insert, Option.some.injEq]
      constructor
      · rintro rfl
        exact ⟨_, List.mem_cons_self, rfl, rfl⟩
      rintro ⟨d, hd, rfl, hpath'⟩
      rcases List.mem_cons.1 hd with rfl | hold
      · rfl
      · exact absurd hpath' (hnew d hold)
    · rw [AList.lookup_insert_ne hsame, h.paths]
      constructor
      · simp_all
      rintro ⟨d, hd, rfl, rfl⟩
      rcases List.mem_cons.1 hd with rfl | hold
      · exact absurd rfl hsame
      · exact ⟨d, hold, rfl, rfl⟩
  · have hused := h.used
    show c.used + (entry.data.length : Int) = ((entry.data.length + (c.lru.map GzipElement.bytes).sum : Nat) : Int)
    omega
  intro d hd
  rcases List.mem_cons.1 hd with rfl | hold
  · exact hsize
  · exact h.sizes d hold

theorem forget (path : List Char) :
    ∃ c', c.forget path = some c' ∧ c'.Kept ∧ c'.paths.lookup path = none := by
  unfold WireGzipCache.forget
  cases hold : c.paths.lookup path with
  | none => exact ⟨c, rfl, h, hold⟩
  | some oldKey =>
    obtain ⟨e, he, rfl, rfl⟩ := (h.paths path oldKey).1 hold
    refine ⟨c.removeLocked e, ?_, h.removeLocked he, AList.lookup_erase _ _⟩
    simp only [(h.entries e.key e).2 ⟨he, rfl⟩, Option.map_some]

theorem not_overfull_of_one {e : GzipElement} (hone : c.lru = [e]) : c.overfull = false := by
  have hsize := h.sizes e (by rw [hone]; exact List.mem_singleton.2 rfl)
  have hused := h.used
  have hlength := h.length_entries
  rw [hone] at hused hlength
  rw [← bounded_iff]
  refine ⟨?_, ?_⟩
  · rw [hused]
    simp only [List.map_cons, List.map_nil, List.sum_singleton]
    exact Int.ofNat_le.2 (hsize.trans (by decide))
  · rw [hlength, List.length_singleton]
    decide

end

theorem evict {fuel : Nat} {front : GzipElement} {rest : List GzipElement} (h : c.Kept) (hlru : c.lru = front :: rest)
    (hfuel : rest.length ≤ fuel) : ∃ c', evict fuel c = some c' ∧ c'.Kept ∧ c'.Bounded ∧ front ∈ c'.lru := by
  induction fuel generalizing c rest with
  | zero =>
    have hone : c.lru = [front] := by rw [hlru, List.length_eq_zero_iff.1 (Nat.le_zero.1 hfuel)]
    have hin := h.not_overfull_of_one hone
    refine ⟨c, ?_, h, bounded_iff.2 hin, by rw [hlru]; exact List.mem_cons_self⟩
    simp only [WireGzipCache.evict, hin, Bool.false_eq_true, if_false]
  | succ fuel ih =>
    simp only [WireGzipCache.evict]
    cases hover : c.overfull with
    | false => exact ⟨c, by simp, h, bounded_iff.2 hover, by rw [hlru]; exact List.mem_cons_self⟩
    | true =>
      have hne : rest ≠ [] := by grind [h.not_overfull_of_one]
      obtain ⟨last, hlast⟩ : ∃ last, c.lru.getLast? = some last :=
        Option.isSome_iff_exists.1 (by rw [hlru]; simp)
      have hmem : last ∈ rest := by grind
      have hin : last ∈ c.lru := by simp_all
      have hapart : front.number ≠ last.number := by
        intro heq
        have hnumbers := h.numbers
        grind
      have hleft : (c.removeLocked last).lru = front :: rest.filter (·.number ≠ last.number) := by
        show c.lru.filter (·.number ≠ last.number) = _
        simp_all
      have hshorter : (rest.filter (·.number ≠ last.number)).length < rest.length :=
        List.length_filter_lt_length_iff_exists.2 ⟨last, hmem, by simp⟩
      obtain ⟨c', hevict, hrest⟩ := ih (h.removeLocked hin) hleft (by omega)
      exact ⟨c', by simpa [hlast] using hevict, hrest⟩

theorem storeResultLocked (h : c.Kept) (hbounded : c.Bounded) (key : WireGzipCacheKey) (data : Bytes) (use : Bool) :
    ∃ c', c.storeResultLocked key data use = some c' ∧ c'.Kept ∧ c'.Bounded ∧
      (admits data use = true → ∃ e, c'.entries.lookup key = some e ∧ e.entry = entryOf key data use) := by
  unfold WireGzipCache.storeResultLocked
  cases hadmits : admits data use with
  | false => exact ⟨c, rfl, h, hbounded, nofun⟩
  | true =>
    have hsize : (entryOf key data use).data.length ≤ maxWireGzipCacheEntryBytes := by
      grind [admits, Bool.not_eq_true', Bool.or_eq_false_iff, decide_eq_false_iff_not, not_lt, entryOf]
    obtain ⟨forgotten, hforget, hkept, hfree⟩ := h.forget key.path
    have hpushed : (forgotten.pushFront (entryOf key data use)).Kept := hkept.pushFront hfree hsize
    obtain ⟨c', hevict, hkept', hbounded', hfront⟩ := hpushed.evict rfl (Nat.le_succ _)
    refine ⟨c', ?_, hkept', hbounded', fun _ => ⟨_, (hkept'.entries key _).2 ⟨hfront, rfl⟩, rfl⟩⟩
    simp only [if_true, hforget, Option.bind_some]
    exact hevict

end Kept

end WireGzipCache
end YuriRtc
