import YuriRtc.Text
/-!
# StaticFile — what a request asks of a static file

`content-node/handler.go`: the single range of a `Range` header, on texts as lists of characters (a request head is JSON, so
its texts are sequences of characters).
-/
namespace YuriRtc

/-- `strings.TrimSpace`. -/
def isGoSpace (c : Char) : Bool :=
  c.val ∈ [0x9, 0xa, 0xb, 0xc, 0xd, 0x20, 0x85, 0xa0, 0x1680, 0x2028, 0x2029, 0x202f, 0x205f, 0x3000] ||
    (0x2000 ≤ c.val && c.val ≤ 0x200a)

def trimSpace (text : List Char) : List Char := Text.trim isGoSpace text

/-- `strconv.ParseInt(text, 10, 64)`: an optional sign and digits, within 64 bits. -/
def parseInt64 (text : List Char) : Option Int :=
  let negative := text.head? == some '-'
  let digits := if negative || text.head? == some '+' then text.tail else text
  if digits = [] ∨ digits.all Char.isDigit = false then none
  else
    let value : Int := if negative then -(Text.decimal digits : Int) else Text.decimal digits
    if -(2 ^ 63) ≤ value ∧ value < 2 ^ 63 then some value else none

/-- `parseRange`: the first and the last byte of the one range of a `Range` header. -/
def parseRange (raw : List Char) (size : Nat) : Option (Nat × Nat) :=
  if "bytes=".toList.isPrefixOf raw = false ∨ size = 0 then none
  else
    let spec := raw.drop 6
    if ',' ∈ spec then none
    else
      match Text.cut '-' spec with
      | none => none
      | some (before, after) =>
        let startText := trimSpace before
        let endText := trimSpace after
        if startText = [] then
          match parseInt64 endText with
          | none => none
          | some n => if n ≤ 0 then none else some (size - min n.toNat size, size - 1)
        else
          match parseInt64 startText with
          | none => none
          | some start =>
            if start < 0 ∨ (size : Int) ≤ start then none
            else if endText = [] then some (start.toNat, size - 1)
            else
              match parseInt64 endText with
              | none => none
              | some last => if last < start then none else some (start.toNat, min last.toNat (size - 1))

/-! ### Digits -/

def Digits (text : List Char) : Prop := text.all Char.isDigit = true

instance (text : List Char) : Decidable (Digits text) := inferInstanceAs (Decidable (_ = true))

section

variable {text : List Char} (h : Digits text)
include text h

theorem Digits.bounds {c : Char} (hc : c ∈ text) : 48 ≤ c.toNat ∧ c.toNat ≤ 57 :=
  Char.isDigit_iff_toNat.1 (List.all_eq_true.1 h c hc)

theorem Digits.notMem {c : Char} (hc : c.toNat < 48) : c ∉ text := by
  intro hmem
  have := (h.bounds hmem).1
  omega

theorem Digits.trimSpace_eq : trimSpace text = text := by
  apply Text.trim_of_none
  intro c hc
  obtain ⟨hlow, hhigh⟩ := h.bounds hc
  have hval : c.val.toNat = c.toNat := rfl
  simp only [isGoSpace, List.mem_cons, List.not_mem_nil, or_false, Bool.or_eq_false_iff, decide_eq_false_iff_not,
    Bool.and_eq_false_iff, ← UInt32.toNat_inj, UInt32.le_iff_toNat_le, UInt32.toNat_ofNat]
  omega

theorem Digits.parseInt64_eq (hne : text ≠ []) :
    parseInt64 text = if Text.decimal text < 2 ^ 63 then some (Text.decimal text : Int) else none := by
  have hhead : ∀ c : Char, c.toNat < 48 → (text.head? == some c) = false := by
    intro c hc
    have : text.head? ≠ some c := fun hsome => h.notMem hc (List.mem_of_head? hsome)
    simpa using this
  have hminus := hhead '-' (by decide)
  have hplus := hhead '+' (by decide)
  have hall : text.all Char.isDigit = true := h
  simp only [parseInt64, hminus, hplus, hall, hne, Bool.or_self, Bool.false_eq_true, if_false, or_self, Bool.true_eq_false]
  by_cases hfits : Text.decimal text < 2 ^ 63
  · rw [if_pos hfits, if_pos (by omega)]
  · rw [if_neg hfits, if_neg (by omega)]

end

/-! ### The law of a single range -/

/-- The header `bytes=A-B`. -/
def rangeText (first last : List Char) : List Char := "bytes=".toList ++ (first ++ '-' :: last)

/-- RFC 9110 on the header `bytes=A-B`, with the numbers as long as they are: the bytes from `A` to `B` or to the end, or
the last `B` bytes. -/
def rangeOf (first last : List Char) (size : Nat) : Option (Nat × Nat) :=
  if first = [] then
    if Text.decimal last = 0 then none else some (size - min (Text.decimal last) size, size - 1)
  else if size ≤ Text.decimal first ∨ (last ≠ [] ∧ Text.decimal last < Text.decimal first) then none
  else some (Text.decimal first, if last = [] then size - 1 else min (Text.decimal last) (size - 1))

def LastFits (first last : List Char) (size : Nat) : Prop :=
  last = [] ∨ Text.decimal last < 2 ^ 63 ∨ (first ≠ [] ∧ size ≤ Text.decimal first)

instance (first last : List Char) (size : Nat) : Decidable (LastFits first last size) :=
  inferInstanceAs (Decidable (_ ∨ _ ∨ _))

variable {first last : List Char}

theorem rangeOf_bounds {size start stop : Nat} (hsize : 0 < size)
    (h : rangeOf first last size = some (start, stop)) : start ≤ stop ∧ stop < size := by
  unfold rangeOf at h
  split at h
  · split at h
    · cases h
    · simp only [Option.some.injEq, Prod.mk.injEq] at h
      omega
  split at h
  · cases h
  rename_i hin
  simp only [Option.some.injEq, Prod.mk.injEq] at h
  obtain ⟨rfl, hstop⟩ := h
  split at hstop
  · omega
  rename_i hlast
  have : ¬ Text.decimal last < Text.decimal first := fun hlt => hin (.inr ⟨hlast, hlt⟩)
  omega

theorem rangeOf_of_not_lastFits {size : Nat} (hsize : size < 2 ^ 63)
    (h : ¬ LastFits first last size) : rangeOf first last size ≠ none := by
  simp only [LastFits, not_or, not_and, not_lt, not_le] at h
  obtain ⟨-, hbig, hin⟩ := h
  unfold rangeOf
  split
  · rw [if_neg (by omega)]
    exact Option.some_ne_none _
  rename_i hfirst
  have hstart := hin hfirst
  rw [if_neg (by omega)]
  exact Option.some_ne_none _

theorem parseRange_digits {size : Nat} (hfirst : Digits first) (hlast : Digits last)
    (hsome : first ≠ [] ∨ last ≠ []) (hpos : 0 < size) (hsize : size < 2 ^ 63) :
    parseRange (rangeText first last) size = if LastFits first last size then rangeOf first last size else none := by
  have hbytes : "bytes=".toList.isPrefixOf (rangeText first last) = true := by
    rw [List.isPrefixOf_iff_prefix]
    exact List.prefix_append _ _
  have hspec : (rangeText first last).drop 6 = first ++ '-' :: last := rfl
  have hcomma : ',' ∉ first ++ '-' :: last := by
    simp [hfirst.notMem (c := ',') (by decide), hlast.notMem (c := ',') (by decide)]
  simp only [parseRange, hbytes, hspec, if_neg hcomma, Text.cut_append (hfirst.notMem (c := '-') (by decide)),
    hfirst.trimSpace_eq, hlast.trimSpace_eq, Bool.true_eq_false, false_or, if_neg (Nat.ne_of_gt hpos), rangeOf]
  by_cases hempty : first = []
  · -- the last bytes
    have hne : last ≠ [] := hsome.resolve_left (fun h => h hempty)
    rw [if_pos hempty, if_pos hempty, hlast.parseInt64_eq hne]
    by_cases hfits : Text.decimal last < 2 ^ 63
    · rw [if_pos hfits, if_pos (.inr (.inl hfits))]
      by_cases hzero : Text.decimal last = 0
      · simp [hzero]
      · simp [hzero]
    · rw [if_neg hfits, if_neg (by simp [LastFits, hne, hempty]; omega)]
  · rw [if_neg hempty, if_neg hempty, hfirst.parseInt64_eq hempty]
    by_cases hin : size ≤ Text.decimal first
    · -- a start behind the file fails, whether its number fits or not
      have hlaw : LastFits first last size := .inr (.inr ⟨hempty, hin⟩)
      by_cases hstart : Text.decimal first < 2 ^ 63
      · simp only [hstart, if_true, hlaw, Nat.cast_le, hin, or_true, true_or]
      · simp only [hstart, if_false, hlaw, if_true, hin, true_or]
    · have hstart : Text.decimal first < 2 ^ 63 := by omega
      simp only [hstart, if_true]
      rw [if_neg (by omega)]
      by_cases hopen : last = []
      · simp [hopen, LastFits, hin]
      rw [if_neg hopen, hlast.parseInt64_eq hopen]
      by_cases hfits : Text.decimal last < 2 ^ 63
      · simp only [hfits, if_true, LastFits, true_or, or_true]
        by_cases horder : Text.decimal last < Text.decimal first
        · simp [horder, hopen]
        · simp [horder, hopen, hin]
      · rw [if_neg hfits, if_neg (by simp [LastFits, hopen, hempty]; omega)]

/-- **A header of two numbers is answered by the law exactly where the last number fits 64 bits or no range is left, and
what is answered lies within the file.** -/
theorem parseRange_lawful_iff (first last : List Char) (size : Nat) (hfirst : Digits first) (hlast : Digits last)
    (hsome : first ≠ [] ∨ last ≠ []) (hpos : 0 < size) (hsize : size < 2 ^ 63) :
    (parseRange (rangeText first last) size = rangeOf first last size ↔ LastFits first last size) ∧
      ∀ start stop, parseRange (rangeText first last) size = some (start, stop) → start ≤ stop ∧ stop < size := by
  rw [parseRange_digits hfirst hlast hsome hpos hsize]
  by_cases hfits : LastFits first last size
  · rw [if_pos hfits]
    exact ⟨⟨fun _ => hfits, fun _ => rfl⟩, fun start stop h => rangeOf_bounds hpos h⟩
  rw [if_neg hfits]
  refine ⟨⟨fun h => absurd h.symm (rangeOf_of_not_lastFits hsize hfits), fun h => absurd h hfits⟩, ?_⟩
  intro start stop h
  cases h

theorem parseRange_lawful_first_ten :
    parseRange "bytes=0-9".toList 100 = rangeOf "0".toList "9".toList 100 ∧ parseRange "bytes=0-9".toList 100 = some (0, 9) :=
  ⟨((parseRange_lawful_iff "0".toList "9".toList 100 (by decide) (by decide) (by decide) (by decide) (by decide)).1).2
    (by decide), by decide⟩

/-- The number after `2 ^ 63 - 1` is refused, though the law clamps it to the file. -/
theorem parseRange_unlawful_2_63 :
    Digits "0".toList ∧ Digits "9223372036854775808".toList ∧
      rangeText "0".toList "9223372036854775808".toList = "bytes=0-9223372036854775808".toList ∧
      rangeOf "0".toList "9223372036854775808".toList 100 = some (0, 99) ∧
      parseRange "bytes=0-9223372036854775808".toList 100 = none := by
  decide

end YuriRtc
