import Mathlib
/-!
# CacheStorage — named caches of requests and their responses

The entries of every cache in one list, each with the cache's name.  Which stored entry answers a request is a parameter:
the fetch standard compares the URLs and the headers the stored response varies on.  A `put` replaces what answers its own
request, a `delete` removes it.

A `Disk` is what the browser keeps: the caches by name, and the entries of every cache that was ever opened.  A cache that is
deleted loses its name.
-/
namespace CacheStorage

universe u v w

structure Entry (ν : Type u) (ρ : Type v) (π : Type w) where
  cache : ν
  request : ρ
  response : π

section Operations

variable {ν : Type u} {ρ : Type v} {π : Type w} [DecidableEq ν] (answers : ρ → Entry ν ρ π → Bool)

def hits (cache : ν) (request : ρ) (entry : Entry ν ρ π) : Bool := decide (entry.cache = cache) && answers request entry

/-- `cache.match`. -/
def lookup (cache : ν) (request : ρ) (stored : List (Entry ν ρ π)) : Option (Entry ν ρ π) :=
  stored.find? (hits answers cache request)

/-- `cache.delete`. -/
def delete (cache : ν) (request : ρ) (stored : List (Entry ν ρ π)) : List (Entry ν ρ π) :=
  stored.filter fun entry => !hits answers cache request entry

/-- `cache.put`. -/
def put (cache : ν) (request : ρ) (response : π) (stored : List (Entry ν ρ π)) : List (Entry ν ρ π) :=
  delete answers cache request stored ++ [⟨cache, request, response⟩]

variable {answers} {cache : ν} {request : ρ} {response : π} {stored : List (Entry ν ρ π)} {entry : Entry ν ρ π}

theorem lookup_some (h : lookup answers cache request stored = some entry) :
    entry ∈ stored ∧ entry.cache = cache ∧ answers request entry = true := by
  have hhits := List.find?_some h
  simp only [hits, Bool.and_eq_true, decide_eq_true_eq] at hhits
  exact ⟨List.mem_of_find?_eq_some h, hhits⟩

theorem mem_of_mem_delete (h : entry ∈ delete answers cache request stored) : entry ∈ stored :=
  List.mem_of_mem_filter h

theorem mem_put (h : entry ∈ put answers cache request response stored) :
    entry ∈ stored ∨ entry = ⟨cache, request, response⟩ := by
  rcases List.mem_append.1 h with hold | hnew
  · exact .inl (mem_of_mem_delete hold)
  · exact .inr (List.mem_singleton.1 hnew)

end Operations

/-- The caches of an origin.  A cache is known by its place in `created`, the names the caches were created under; no
earlier entry of a cache answers the request of a later one. -/
structure Disk (ν : Type u) {ρ : Type v} {π : Type w} [DecidableEq ν] (answers : ρ → Entry Nat ρ π → Bool) where
  created : List ν
  registry : AList (fun _ : ν => Nat)
  stored : List (Entry Nat ρ π)
  registered : ∀ name cache, registry.lookup name = some cache → cache < created.length
  bounded : ∀ entry ∈ stored, entry.cache < created.length
  answered : ∀ entry ∈ stored, answers entry.request entry = true
  apart : stored.Pairwise fun a b => a.cache = b.cache → answers b.request a = false

namespace Disk

variable {ν : Type u} {ρ : Type v} {π : Type w} [DecidableEq ν] {answers : ρ → Entry Nat ρ π → Bool}
variable (disk : Disk ν answers)

def empty : Disk ν answers where
  created := []
  registry := ∅
  stored := []
  registered _ _ h := by simp at h
  bounded _ h := by simp at h
  answered _ h := by simp at h
  apart := .nil

def create (name : ν) : Disk ν answers where
  created := disk.created ++ [name]
  registry := disk.registry.insert name disk.created.length
  stored := disk.stored
  registered other cache h := by
    rw [List.length_append]
    by_cases hname : other = name
    · rw [hname, AList.lookup_insert] at h
      cases h
      exact Nat.lt_succ_self _
    · rw [AList.lookup_insert_ne hname] at h
      exact Nat.lt_succ_of_lt (disk.registered other cache h)
  bounded entry h := by
    rw [List.length_append]
    exact Nat.lt_succ_of_lt (disk.bounded entry h)
  answered := disk.answered
  apart := disk.apart

/-- `caches.open`. -/
def openCache (name : ν) : Disk ν answers × Nat :=
  match disk.registry.lookup name with
  | some cache => (disk, cache)
  | none => (disk.create name, disk.created.length)

/-- `caches.delete`. -/
def drop (name : ν) : Disk ν answers :=
  { disk with
    registry := disk.registry.erase name
    registered := fun other cache h => by
      by_cases hname : other = name
      · rw [hname, AList.lookup_erase] at h
        cases h
      · rw [AList.lookup_erase_ne hname] at h
        exact disk.registered other cache h }

/-- `cache.delete`. -/
def delete (cache : Nat) (request : ρ) : Disk ν answers :=
  { disk with
    stored := CacheStorage.delete answers cache request disk.stored
    bounded := fun entry h => disk.bounded entry (mem_of_mem_delete h)
    answered := fun entry h => disk.answered entry (mem_of_mem_delete h)
    apart := disk.apart.filter _ }

/-- `cache.put`; a response no request would be answered with is refused. -/
def put (cache : Nat) (request : ρ) (response : π) : Disk ν answers :=
  if h : cache < disk.created.length ∧ answers request ⟨cache, request, response⟩ = true then
    { disk with
      stored := CacheStorage.put answers cache request response disk.stored
      bounded := fun entry hentry => (mem_put hentry).elim (disk.bounded entry) fun heq => heq ▸ h.1
      answered := fun entry hentry => (mem_put hentry).elim (disk.answered entry) fun heq => heq ▸ h.2
      apart := List.pairwise_append.2 ⟨disk.apart.filter _, List.pairwise_singleton _ _, fun entry hentry new hnew => by
        rw [List.mem_singleton.1 hnew]
        intro hcache
        have hkept := (List.mem_filter.1 hentry).2
        simpa [hits, hcache] using hkept⟩ }
  else disk

/-- `cache.keys`. -/
def keys (cache : Nat) : List ρ := (disk.stored.filter fun entry => entry.cache == cache).map Entry.request

def Holds (name : ν) (entry : Entry Nat ρ π) : Prop :=
  entry ∈ disk.stored ∧ disk.registry.lookup name = some entry.cache

variable {disk} {name : ν} {entry : Entry Nat ρ π}

theorem holds_create {other : ν} (h : (disk.create other).Holds name entry) : disk.Holds name entry := by
  obtain ⟨hmem, hname⟩ := h
  refine ⟨hmem, ?_⟩
  change (disk.registry.insert other disk.created.length).lookup name = some entry.cache at hname
  by_cases heq : name = other
  · -- the new cache is empty
    rw [heq, AList.lookup_insert] at hname
    exact absurd (disk.bounded entry hmem) (by rw [← Option.some.inj hname]; exact lt_irrefl _)
  · rwa [AList.lookup_insert_ne heq] at hname

theorem holds_openCache {other : ν} (h : (disk.openCache other).1.Holds name entry) : disk.Holds name entry := by
  unfold openCache at h
  split at h
  · exact h
  · exact holds_create h

theorem Holds.openCache (h : disk.Holds name entry) : (disk.openCache name).2 = entry.cache := by
  unfold Disk.openCache
  rw [h.2]

theorem holds_drop {other : ν} (h : (disk.drop other).Holds name entry) : disk.Holds name entry ∧ name ≠ other := by
  obtain ⟨hmem, hname⟩ := h
  change (disk.registry.erase other).lookup name = some entry.cache at hname
  by_cases heq : name = other
  · rw [heq, AList.lookup_erase] at hname
    cases hname
  · rw [AList.lookup_erase_ne heq] at hname
    exact ⟨⟨hmem, hname⟩, heq⟩

theorem holds_delete {cache : Nat} {request : ρ} (h : (disk.delete cache request).Holds name entry) :
    disk.Holds name entry ∧ hits answers cache request entry = false := by
  obtain ⟨hmem, hname⟩ := h
  obtain ⟨hold, hkept⟩ := List.mem_filter.1 hmem
  exact ⟨⟨hold, hname⟩, by simpa using hkept⟩

theorem holds_put {cache : Nat} {request : ρ} {response : π} (h : (disk.put cache request response).Holds name entry) :
    disk.Holds name entry ∨ entry = ⟨cache, request, response⟩ := by
  unfold put at h
  split at h
  · obtain ⟨hmem, hname⟩ := h
    exact (mem_put hmem).imp_left fun hold => ⟨hold, hname⟩
  · exact .inl h

theorem hits_self (h : entry ∈ disk.stored) : hits answers entry.cache entry.request entry = true := by
  simp [hits, disk.answered entry h]

theorem lookup_self (h : entry ∈ disk.stored) :
    lookup answers entry.cache entry.request disk.stored = some entry := by
  obtain ⟨before, after, hsplit⟩ := List.append_of_mem h
  have hapart := disk.apart
  rw [hsplit] at hapart
  have hnone : before.find? (hits answers entry.cache entry.request) = none := by
    refine List.find?_eq_none.2 fun other hother => ?_
    have hno := (List.pairwise_append.1 hapart).2.2 other hother entry List.mem_cons_self
    simp only [hits, Bool.and_eq_true, decide_eq_true_eq, not_and, Bool.not_eq_true]
    exact hno
  rw [lookup, hsplit, List.find?_append, hnone, Option.none_or, List.find?_cons_of_pos (hits_self h)]

theorem mem_keys (h : entry ∈ disk.stored) : entry.request ∈ disk.keys entry.cache :=
  List.mem_map.2 ⟨entry, List.mem_filter.2 ⟨h, beq_self_eq_true _⟩, rfl⟩

end Disk

end CacheStorage
