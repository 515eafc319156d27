import Mathlib
/-!
# Text — strings as lists of characters

What the string operations of both languages come to on a list: `trim` drops a class of characters from both ends, `cut`
splits at the first separator, `decimal` reads digits.  Lowering the case is `Char.toLower`, which changes ASCII letters only.
-/
namespace Text

universe u

variable {α : Type u}

def trim (p : α → Bool) (l : List α) : List α := ((l.dropWhile p).reverse.dropWhile p).reverse

/-- What stands before and after the first `a`. -/
def cut [DecidableEq α] (a : α) : List α → Option (List α × List α)
  | [] => none
  | x :: l => if x = a then some ([], l) else (cut a l).map fun parts => (x :: parts.1, parts.2)

variable {p : α → Bool} {l : List α}

theorem trim_of_none (h : ∀ a ∈ l, p a = false) : trim p l = l := by
  have hfront : ∀ k : List α, (∀ a ∈ k, p a = false) → k.dropWhile p = k := by
    intro k hk
    cases k with
    | nil => rfl
    | cons a k => rw [List.dropWhile_cons_of_neg (by simp [hk a (by simp)])]
  rw [trim, hfront l h, hfront l.reverse (fun a ha => h a (List.mem_reverse.1 ha)), List.reverse_reverse]

theorem dropWhile_dropWhile (p : α → Bool) (l : List α) : (l.dropWhile p).dropWhile p = l.dropWhile p := by
  induction l with
  | nil => rfl
  | cons a l ih =>
    cases ha : p a with
    | true => rw [List.dropWhile_cons_of_pos ha, ih]
    | false => rw [List.dropWhile_cons_of_neg (by simp [ha]), List.dropWhile_cons_of_neg (by simp [ha])]

theorem dropWhile_rdropWhile (h : l.dropWhile p = l) :
    ((l.reverse.dropWhile p).reverse).dropWhile p = (l.reverse.dropWhile p).reverse := by
  cases hl : (l.reverse.dropWhile p).reverse with
  | nil => rfl
  | cons a rest =>
    have hfront : a :: rest <+: l := by
      rw [← hl, ← List.reverse_suffix, List.reverse_reverse]
      exact List.dropWhile_suffix p
    obtain ⟨more, rfl⟩ := hfront
    refine List.dropWhile_cons_of_neg fun ha => ?_
    rw [List.cons_append, List.dropWhile_cons_of_pos ha] at h
    have hlength := congrArg List.length h
    have hle := (List.dropWhile_suffix p (l := rest ++ more)).length_le
    rw [List.length_cons] at hlength
    omega

theorem trim_trim (p : α → Bool) (l : List α) : trim p (trim p l) = trim p l := by
  unfold trim
  rw [dropWhile_rdropWhile (dropWhile_dropWhile p l), List.reverse_reverse, dropWhile_dropWhile]

theorem mem_trim {a : α} (ha : a ∈ l) (hp : p a = false) : a ∈ trim p l := by
  have hkept : ∀ k : List α, a ∈ k → a ∈ k.dropWhile p := by
    intro k
    induction k with
    | nil => exact id
    | cons b k ih =>
      intro hmem
      cases hb : p b with
      | true =>
        rw [List.dropWhile_cons_of_pos hb]
        rcases List.mem_cons.1 hmem with rfl | hmem
        · cases hp.symm.trans hb
        · exact ih hmem
      | false =>
        rw [List.dropWhile_cons_of_neg (by simp [hb])]
        exact hmem
  rw [trim, List.mem_reverse]
  exact hkept _ (List.mem_reverse.2 (hkept l ha))

theorem cut_append [DecidableEq α] {a : α} (h : a ∉ l) (r : List α) : cut a (l ++ a :: r) = some (l, r) := by
  induction l with
  | nil => simp [cut]
  | cons x l ih =>
    have hx : x ≠ a := fun hxa => h (by simp [hxa])
    rw [List.cons_append, cut, if_neg hx, ih (fun ha => h (by simp [ha]))]
    rfl

theorem toLower_toLower (c : Char) : c.toLower.toLower = c.toLower := by
  by_cases h : c.val ≥ 'A'.val ∧ c.val ≤ 'Z'.val
  · have hval : c.toLower.val = c.val + ('a'.val - 'A'.val) := by
      unfold Char.toLower
      rw [dif_pos h]
    have hout : ¬ (c.toLower.val ≥ 'A'.val ∧ c.toLower.val ≤ 'Z'.val) := by
      rw [hval]
      rintro ⟨-, hle⟩
      have hlow : 65 ≤ c.val.toNat := h.1
      have hhigh : c.val.toNat ≤ 90 := h.2
      have hsum : (c.val + ('a'.val - 'A'.val)).toNat ≤ 90 := hle
      rw [UInt32.toNat_add, show ('a'.val - 'A'.val).toNat = 32 from rfl] at hsum
      omega
    rw [Char.toLower.eq_1 c.toLower, dif_neg hout]
  · have hsame : c.toLower = c := by
      unfold Char.toLower
      rw [dif_neg h]
    rw [hsame, hsame]

theorem eq_or_upper_of_toLower {c d : Char} (h : c.toLower = d) :
    c = d ∨ (65 ≤ c.toNat ∧ c.toNat ≤ 90 ∧ c.toNat + 32 = d.toNat) := by
  by_cases hupper : c.val ≥ 'A'.val ∧ c.val ≤ 'Z'.val
  · right
    have hlow : 65 ≤ c.val.toNat := hupper.1
    have hhigh : c.val.toNat ≤ 90 := hupper.2
    refine ⟨hlow, hhigh, ?_⟩
    subst h
    unfold Char.toLower
    rw [dif_pos hupper]
    change c.val.toNat + 32 = (c.val + ('a'.val - 'A'.val)).toNat
    rw [UInt32.toNat_add, show ('a'.val - 'A'.val).toNat = 32 from rfl]
    omega
  · left
    subst h
    unfold Char.toLower
    rw [dif_neg hupper]

/-- The number that decimal digits write. -/
def decimal (digits : List Char) : Nat := Nat.ofDigitChars 10 digits 0

theorem decimal_cons (c : Char) (rest : List Char) :
    decimal (c :: rest) = (c.toNat - 48) * 10 ^ rest.length + decimal rest := by
  rw [decimal, Nat.ofDigitChars_cons, Nat.ofDigitChars_eq_ofDigitChars_zero, Nat.mul_comm, Nat.mul_zero, Nat.zero_add]
  rfl

theorem decimal_lt (digits : List Char) (h : digits.all Char.isDigit = true) : decimal digits < 10 ^ digits.length := by
  induction digits with
  | nil => decide
  | cons c rest ih =>
    rw [List.all_cons, Bool.and_eq_true] at h
    have hc : 48 ≤ c.toNat ∧ c.toNat ≤ 57 := Char.isDigit_iff_toNat.1 h.1
    have hrest := ih h.2
    have hlead : (c.toNat - 48) * 10 ^ rest.length ≤ 9 * 10 ^ rest.length := Nat.mul_le_mul_right _ (by omega)
    rw [decimal_cons, List.length_cons, Nat.pow_succ]
    omega

end Text
