import Mathlib
/-!
# Ring — a bounded queue in a fixed array

The usual ring: `cap` slots, the index of the first occupied one and a count, with every index taken modulo `cap`.
`Ring.toList` is the queue it stands for, and each operation is one equation on that list (`toList_push`,
`toList_popFront`, `toList_clear`), so a client never sees an index.  A popped slot is cleared; nothing here relies
on it.
-/
namespace Rings

universe u

def slot (cap : Nat) [NeZero cap] (k : Nat) : Fin cap := ⟨k % cap, Nat.mod_lt _ (Nat.pos_of_ne_zero (NeZero.ne cap))⟩

/-- **A ring of `cap` slots**, its occupied slots all filled. -/
structure Ring (α : Type u) (cap : Nat) [NeZero cap] where
  slots : Fin cap → Option α
  first : Nat
  len : Nat
  len_le : len ≤ cap
  filled : ∀ i, i < len → (slots (slot cap (first + i))).isSome = true

variable {α : Type u} {cap : Nat} [NeZero cap]

theorem slot_ne {a i j : Nat} (hij : i < j) (hj : j < i + cap) : slot cap (a + i) ≠ slot cap (a + j) := by
  intro h
  have hm : (a + j) % cap = (a + i) % cap := (congrArg Fin.val h).symm
  have hd : cap ∣ (a + j) - (a + i) := Nat.dvd_of_mod_eq_zero (Nat.sub_mod_eq_zero_of_mod_eq hm)
  have h0 : (a + j) - (a + i) = 0 := Nat.eq_zero_of_dvd_of_lt hd (by omega)
  omega

theorem slot_succ (a i : Nat) : slot cap ((a + 1) % cap + i) = slot cap (a + (i + 1)) := by
  apply Fin.ext
  show ((a + 1) % cap + i) % cap = (a + (i + 1)) % cap
  rw [Nat.mod_add_mod]
  congr 1
  omega

namespace Ring

def empty : Ring α cap where
  slots := fun _ => none
  first := 0
  len := 0
  len_le := Nat.zero_le _
  filled := fun i h => absurd h (Nat.not_lt_zero i)

def toList (r : Ring α cap) : List α := (List.range r.len).filterMap (fun i => r.slots (slot cap (r.first + i)))

/-- **Store a value behind the occupied slots**, unless every slot is occupied. -/
def push (r : Ring α cap) (x : α) : Option (Ring α cap) :=
  if h : r.len < cap then
    some {
      slots := Function.update r.slots (slot cap (r.first + r.len)) (some x)
      first := r.first
      len := r.len + 1
      len_le := h
      filled := fun i hi => by
        by_cases he : i = r.len
        · subst he
          rw [Function.update_self]
          rfl
        have hlt : i < r.len := by omega
        rw [Function.update_of_ne (slot_ne hlt (by omega))]
        exact r.filled i hlt }
  else none

def front? (r : Ring α cap) : Option α := if r.len = 0 then none else r.slots (slot cap r.first)

theorem slot_first_ne (r : Ring α cap) {i : Nat} (hi : i + 1 < r.len) :
    slot cap (r.first + (i + 1)) ≠ slot cap r.first := by
  have hle := r.len_le
  exact ((@slot_ne cap _ r.first 0 (i + 1) (by omega) (by omega)).symm)

/-- **Clear the first slot and step past it**; an empty ring stays as it is. -/
def popFront (r : Ring α cap) : Ring α cap :=
  if h : r.len = 0 then r
  else {
    slots := Function.update r.slots (slot cap r.first) none
    first := (r.first + 1) % cap
    len := r.len - 1
    len_le := by have := r.len_le; omega
    filled := fun i hi => by
      rw [slot_succ, Function.update_of_ne (r.slot_first_ne (by omega))]
      exact r.filled (i + 1) (by omega) }

def clear (r : Ring α cap) : Ring α cap := popFront^[r.len] r

theorem slot_some (r : Ring α cap) {i : Nat} (hi : i < r.len) : ∃ x, r.slots (slot cap (r.first + i)) = some x :=
  Option.isSome_iff_exists.1 (r.filled i hi)

@[simp] theorem length_toList (r : Ring α cap) : r.toList.length = r.len := by
  have h : ∀ n, n ≤ r.len → ((List.range n).filterMap (fun i => r.slots (slot cap (r.first + i)))).length = n := by
    intro n
    induction n with
    | zero => intro _; rfl
    | succ n ih =>
      intro hn
      obtain ⟨x, hx⟩ := r.slot_some (i := n) (by omega)
      rw [List.range_succ, List.filterMap_append, List.length_append, ih (by omega)]
      simp [hx]
  exact h r.len le_rfl

theorem push_eq_none_iff (r : Ring α cap) (x : α) : r.push x = none ↔ r.toList.length = cap := by
  have hle := r.len_le
  rw [length_toList]
  unfold push
  split
  · rename_i hlt
    constructor
    · intro h; cases h
    · intro h; omega
  · rename_i hlt
    exact ⟨fun _ => by omega, fun _ => rfl⟩

theorem toList_push {r r' : Ring α cap} {x : α} (h : r.push x = some r') : r'.toList = r.toList ++ [x] := by
  unfold push at h
  split at h
  · rename_i hlt
    cases h
    unfold toList
    rw [List.range_succ, List.filterMap_append]
    congr 1
    · apply List.filterMap_congr
      intro i hi
      have hi := List.mem_range.1 hi
      exact Function.update_of_ne (slot_ne hi (by omega)) _ _
    · simp
  · cases h

theorem front?_eq_head? (r : Ring α cap) : r.front? = r.toList.head? := by
  unfold front? toList
  split
  · rename_i h
    rw [h]
    rfl
  rename_i h
  obtain ⟨x, hx⟩ := r.slot_some (i := 0) (by omega)
  obtain ⟨n, hn⟩ := Nat.exists_eq_succ_of_ne_zero h
  rw [hn, List.range_succ_eq_map, List.filterMap_cons, hx]
  exact hx

theorem toList_popFront (r : Ring α cap) : r.popFront.toList = r.toList.tail := by
  unfold popFront
  split
  · rename_i h
    have : r.toList = [] := List.eq_nil_of_length_eq_zero (by rw [length_toList, h])
    rw [this]
    rfl
  rename_i h
  obtain ⟨x, hx⟩ := r.slot_some (i := 0) (by omega)
  obtain ⟨n, hn⟩ := Nat.exists_eq_succ_of_ne_zero h
  unfold toList
  simp only [hn, Nat.succ_eq_add_one, Nat.add_sub_cancel]
  rw [List.range_succ_eq_map, List.filterMap_cons, hx, List.tail_cons, List.filterMap_map]
  apply List.filterMap_congr
  intro i hi
  have hi := List.mem_range.1 hi
  rw [slot_succ, Function.update_of_ne (r.slot_first_ne (by omega))]
  rfl

@[simp] theorem toList_clear (r : Ring α cap) : r.clear.toList = [] := by
  have h : ∀ (n : Nat) (q : Ring α cap), (popFront^[n] q).toList = q.toList.drop n := by
    intro n
    induction n with
    | zero => intro q; rfl
    | succ n ih =>
      intro q
      rw [Function.iterate_succ_apply, ih, toList_popFront, List.drop_tail]
  unfold clear
  rw [h, ← length_toList, List.drop_length]

end Ring
end Rings
