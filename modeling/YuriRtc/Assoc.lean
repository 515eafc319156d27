import Mathlib
/-!
# Assoc — association lists: entries filtered by value, sums over the entries, and counts

`keep p m` is the map `m` without the entries whose value fails `p`; looking a key up in it is looking it up in `m` and
asking `p` (`lookup_keep`).  A map that holds `v` under `k` is the entry `⟨k, v⟩` and what erasing `k` leaves, in some
order (`perm_cons_erase`), which says how a sum over the entries changes when one of them is set or erased, and how many of
them satisfy a predicate (`tally`).
-/
namespace Assoc

universe u v

variable {κ : Type u} {ν : Type v}

def keep (p : ν → Bool) (m : AList (fun _ : κ => ν)) : AList (fun _ : κ => ν) where
  entries := m.entries.filter (fun e => p e.2)
  nodupKeys := m.nodupKeys.sublist List.filter_sublist

theorem mem_entries_iff_lookup [DecidableEq κ] (m : AList (fun _ : κ => ν)) (k : κ) (v : ν) :
    (⟨k, v⟩ : Sigma fun _ : κ => ν) ∈ m.entries ↔ m.lookup k = some v := by
  rw [← Option.mem_def, AList.mem_lookup_iff]

theorem lookup_keep [DecidableEq κ] (p : ν → Bool) (m : AList (fun _ : κ => ν)) (k : κ) :
    (keep p m).lookup k = (m.lookup k).filter p := by
  apply Option.ext
  intro v
  rw [← mem_entries_iff_lookup, Option.filter_eq_some_iff, ← mem_entries_iff_lookup]
  show ⟨k, v⟩ ∈ m.entries.filter (fun e => p e.2) ↔ _
  rw [List.mem_filter]

theorem lookup_insert_eq [DecidableEq κ] (m : AList (fun _ : κ => ν)) (k : κ) (v : ν) (k' : κ) :
    (m.insert k v).lookup k' = if k' = k then some v else m.lookup k' := by
  split
  · rename_i h
    rw [h, AList.lookup_insert]
  · rename_i h
    exact AList.lookup_insert_ne h

theorem lookup_erase_eq [DecidableEq κ] (m : AList (fun _ : κ => ν)) (k k' : κ) :
    (m.erase k).lookup k' = if k' = k then none else m.lookup k' := by
  split
  · rename_i h
    rw [h, AList.lookup_erase]
  · rename_i h
    exact AList.lookup_erase_ne h

theorem erase_insert [DecidableEq κ] {m : AList (fun _ : κ => ν)} {k : κ} {v : ν} (h : m.lookup k = none) :
    (m.insert k v).erase k = m := by
  apply AList.ext
  show (m.insert k v).entries.kerase k = m.entries
  rw [AList.entries_insert_of_notMem (AList.lookup_eq_none.1 h)]
  exact List.kerase_cons_eq rfl

section Sums

variable [DecidableEq κ] {m : AList (fun _ : κ => ν)} {k : κ} {v : ν}

theorem perm_cons_erase (h : m.lookup k = some v) :
    m.entries.Perm ((⟨k, v⟩ : Sigma fun _ : κ => ν) :: (m.erase k).entries) := by
  obtain ⟨v', l₁, l₂, hnot, hm, herase⟩ := List.exists_of_kerase
    (List.mem_keys_of_mem ((mem_entries_iff_lookup m k v).2 h))
  have hv : v' = v := by
    have hmem : (⟨k, v'⟩ : Sigma fun _ : κ => ν) ∈ m.entries := by simp [hm]
    rw [mem_entries_iff_lookup, h] at hmem
    exact (Option.some.inj hmem).symm
  subst hv
  show m.entries.Perm (⟨k, v'⟩ :: m.entries.kerase k)
  rw [herase, hm]
  exact List.perm_middle

theorem erase_of_absent (h : m.lookup k = none) : m.erase k = m :=
  AList.ext (List.kerase_of_notMem_keys (AList.lookup_eq_none.1 h))

variable {M : Type*} [AddCommMonoid M] (f : Sigma (fun _ : κ => ν) → M)

theorem sum_erase (h : m.lookup k = some v) :
    (m.entries.map f).sum = f ⟨k, v⟩ + ((m.erase k).entries.map f).sum := by
  rw [((perm_cons_erase h).map f).sum_eq, List.map_cons, List.sum_cons]

theorem sum_insert (m : AList (fun _ : κ => ν)) (k : κ) (v : ν) :
    ((m.insert k v).entries.map f).sum = f ⟨k, v⟩ + ((m.erase k).entries.map f).sum := by
  rw [AList.entries_insert, List.map_cons, List.sum_cons]
  rfl

theorem sum_set (h : m.lookup k = some v) (v' : ν) :
    f ⟨k, v⟩ + ((m.insert k v').entries.map f).sum = f ⟨k, v'⟩ + (m.entries.map f).sum := by
  rw [sum_insert, sum_erase f h, add_left_comm]

theorem sum_insert_new (h : m.lookup k = none) (v : ν) :
    ((m.insert k v).entries.map f).sum = f ⟨k, v⟩ + (m.entries.map f).sum := by
  rw [sum_insert, erase_of_absent h]

end Sums

/-! ### Counting entries -/

section Tally

variable [DecidableEq κ] {m : AList (fun _ : κ => ν)} {k : κ} {v : ν} {p q : κ → ν → Bool}

def tally (p : κ → ν → Bool) (m : AList (fun _ : κ => ν)) : Nat := (m.entries.map fun e => (p e.1 e.2).toNat).sum

theorem tally_erase (h : m.lookup k = some v) : tally p m = (p k v).toNat + tally p (m.erase k) := sum_erase _ h

theorem tally_set (h : m.lookup k = some v) (v' : ν) : (p k v).toNat + tally p (m.insert k v') = (p k v').toNat + tally p m :=
  sum_set (fun e : Sigma fun _ : κ => ν => (p e.1 e.2).toNat) h v'

theorem tally_insert_new (h : m.lookup k = none) (v : ν) : tally p (m.insert k v) = (p k v).toNat + tally p m :=
  sum_insert_new (fun e : Sigma fun _ : κ => ν => (p e.1 e.2).toNat) h v

theorem tally_le (h : ∀ k v, m.lookup k = some v → p k v = true → q k v = true) : tally p m ≤ tally q m := by
  refine List.sum_le_sum fun e he => ?_
  have hq := h e.1 e.2 ((mem_entries_iff_lookup ..).1 he)
  cases hp : p e.1 e.2 with
  | false => exact Nat.zero_le _
  | true => rw [hq hp]

theorem tally_congr (h : ∀ k v, m.lookup k = some v → p k v = q k v) : tally p m = tally q m :=
  Nat.le_antisymm (tally_le fun k v hv hp => h k v hv ▸ hp) (tally_le fun k v hv hq => (h k v hv).symm ▸ hq)

theorem tally_eq_zero (h : ∀ k v, m.lookup k = some v → p k v = false) : tally p m = 0 := by
  have hzero : tally (fun _ _ => false) m = 0 := List.sum_eq_zero fun x hx => by
    obtain ⟨e, -, rfl⟩ := List.mem_map.1 hx
    rfl
  rw [tally_congr h]
  exact hzero

end Tally

end Assoc
