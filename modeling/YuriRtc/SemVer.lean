import YuriRtc.Text
/-!
# SemVer — comparing versions

`parseSemVer`, `compareNumericStrings` and `compareSemVer` of `deploy/npm/src/integrity-loader.mjs`, and SemVer's precedence
as an order: the three numbers, then the release above its pre-releases, then identifiers from the left, numbers below texts
and a list below its continuations.  `SemVer.compareTo_compares`: the code compares by that order.
-/
namespace YuriRtc

/-! ### The code -/

def isIdentifierChar (c : Char) : Bool := c.isDigit || ('A' ≤ c && c ≤ 'Z') || ('a' ≤ c && c ≤ 'z') || c == '-'

/-- `0|[1-9][0-9]*`. -/
def isPlainNumber : List Char → Bool
  | [] => false
  | c :: rest => (c == '0' && rest.isEmpty) || (c.isDigit && c != '0' && rest.all Char.isDigit)

/-- `[0-9A-Za-z-]+(?:\.[0-9A-Za-z-]+)*`. -/
def areIdentifiers (text : List Char) : Bool :=
  (text.splitOn '.').all fun identifier => !identifier.isEmpty && identifier.all isIdentifierChar

def isNumeric (identifier : List Char) : Bool := !identifier.isEmpty && identifier.all Char.isDigit

def hasLeadingZero (identifier : List Char) : Bool :=
  isNumeric identifier && decide (1 < identifier.length) && identifier.head? == some '0'

structure SemVer where
  core : List (List Char)
  prerelease : List (List Char)
deriving DecidableEq, Repr

def cutOptional (c : Char) (text : List Char) : List Char × Option (List Char) :=
  match Text.cut c text with
  | some (before, after) => (before, some after)
  | none => (text, none)

/-- `parseSemVer`: neither the numbers nor a pre-release have a `+`, and the numbers have no hyphen. -/
def parseSemVer (value : List Char) : Option SemVer :=
  let (body, build) := cutOptional '+' value
  let (core, prerelease) := cutOptional '-' body
  let numbers := core.splitOn '.'
  if numbers.length = 3 ∧ numbers.all isPlainNumber ∧ prerelease.all areIdentifiers ∧ build.all areIdentifiers then
    let identifiers := (prerelease.map (·.splitOn '.')).getD []
    if identifiers.any hasLeadingZero then none else some ⟨numbers, identifiers⟩
  else none

def compareNumericStrings (left right : List Char) : Ordering :=
  if left.length ≠ right.length then if left.length < right.length then .lt else .gt
  else if left = right then .eq
  else if left < right then .lt
  else .gt

def compareCore : List (List Char) → List (List Char) → Ordering
  | left :: lefts, right :: rights =>
    match compareNumericStrings left right with
    | .eq => compareCore lefts rights
    | compared => compared
  | _, _ => .eq

def compareIdentifiers : List (List Char) → List (List Char) → Ordering
  | [], [] => .eq
  | [], _ :: _ => .lt
  | _ :: _, [] => .gt
  | left :: lefts, right :: rights =>
    if left = right then compareIdentifiers lefts rights
    else if isNumeric left && isNumeric right then compareNumericStrings left right
    else if isNumeric left ≠ isNumeric right then if isNumeric left then .lt else .gt
    else if left < right then .lt
    else .gt

def SemVer.compareTo (left right : SemVer) : Ordering :=
  match compareCore left.core right.core with
  | .eq =>
    if left.prerelease.length = 0 ∨ right.prerelease.length = 0 then
      if left.prerelease.length = right.prerelease.length then .eq
      else if left.prerelease.length = 0 then .gt
      else .lt
    else compareIdentifiers left.prerelease right.prerelease
  | compared => compared

/-- `compareSemVer`; `none` where it throws. -/
def compareSemVer (left right : List Char) : Option Ordering :=
  match parseSemVer left, parseSemVer right with
  | some parsedLeft, some parsedRight => some (parsedLeft.compareTo parsedRight)
  | _, _ => none

/-! ### Precedence -/

def identifierKey (identifier : List Char) : ℕ ⊕ₗ List Char :=
  if isNumeric identifier then toLex (.inl (Text.decimal identifier)) else toLex (.inr identifier)

def prereleaseKey (prerelease : List (List Char)) : WithTop (List (ℕ ⊕ₗ List Char)) :=
  if prerelease = [] then ⊤ else ↑(prerelease.map identifierKey)

/-- **SemVer precedence**, as an order key; build metadata has no part in it. -/
def SemVer.precedence (version : SemVer) : List ℕ ×ₗ WithTop (List (ℕ ⊕ₗ List Char)) :=
  toLex (version.core.map Text.decimal, prereleaseKey version.prerelease)

/-! ### Orders -/

section Orders
variable {α β : Type} [LinearOrder α] [LinearOrder β]

theorem compares_cons {o rest : Ordering} {a b : α} {x y : List α} (h : o.Compares a b) (hrest : rest.Compares x y) :
    (o.then rest).Compares (a :: x) (b :: y) := by
  cases o with
  | lt => exact List.cons_lt_cons_iff.2 (.inl h)
  | gt => exact List.cons_lt_cons_iff.2 (.inl h)
  | eq =>
    obtain rfl : a = b := h
    cases rest <;> simp_all

theorem compares_toLex {o rest : Ordering} {a b : α} {x y : β} (h : o.Compares a b) (hrest : rest.Compares x y) :
    (o.then rest).Compares (toLex (a, x)) (toLex (b, y)) := by
  cases o with
  | lt => exact Prod.Lex.toLex_lt_toLex.2 (.inl h)
  | gt => exact Prod.Lex.toLex_lt_toLex.2 (.inl h)
  | eq =>
    obtain rfl : a = b := h
    cases rest with
    | lt => exact Prod.Lex.toLex_lt_toLex.2 (.inr ⟨rfl, hrest⟩)
    | eq => exact congrArg (fun z => toLex (a, z)) hrest
    | gt => exact Prod.Lex.toLex_lt_toLex.2 (.inr ⟨rfl, hrest⟩)

end Orders

/-! ### Numbers -/

def PlainDigits (digits : List Char) : Prop :=
  digits ≠ [] ∧ digits.all Char.isDigit = true ∧ (1 < digits.length → digits.head? ≠ some '0')

theorem le_decimal {digits : List Char} (h : PlainDigits digits) (hlong : 1 < digits.length) :
    10 ^ (digits.length - 1) ≤ Text.decimal digits := by
  obtain ⟨hne, hall, hzero⟩ := h
  cases digits with
  | nil => exact absurd rfl hne
  | cons c rest =>
    rw [List.all_cons, Bool.and_eq_true] at hall
    have hc : 48 ≤ c.toNat ∧ c.toNat ≤ 57 := Char.isDigit_iff_toNat.1 hall.1
    have hcne : c.toNat ≠ 48 := by
      intro heq
      exact hzero hlong (congrArg some (Char.toNat_inj.1 heq))
    rw [Text.decimal_cons, List.length_cons, Nat.add_sub_cancel]
    have : 1 * 10 ^ rest.length ≤ (c.toNat - 48) * 10 ^ rest.length := Nat.mul_le_mul_right _ (by omega)
    omega

variable {lefts rights : List (List Char)} {left right : List Char}

theorem decimal_lt_of_lt (hlength : left.length = right.length)
    (hleft : left.all Char.isDigit = true) (hright : right.all Char.isDigit = true) (h : left < right) :
    Text.decimal left < Text.decimal right := by
  induction left generalizing right with
  | nil => grind
  | cons c rest ih =>
    cases right with
    | nil => cases hlength
    | cons d others =>
      rw [List.all_cons, Bool.and_eq_true] at hleft hright
      have hlength' : rest.length = others.length := Nat.succ.inj hlength
      have hc : 48 ≤ c.toNat ∧ c.toNat ≤ 57 := Char.isDigit_iff_toNat.1 hleft.1
      have hd : 48 ≤ d.toNat ∧ d.toNat ≤ 57 := Char.isDigit_iff_toNat.1 hright.1
      rw [Text.decimal_cons, Text.decimal_cons, hlength']
      rcases List.cons_lt_cons_iff.1 h with hcd | ⟨rfl, hrest⟩
      · have hlow := Text.decimal_lt rest hleft.2
        have hcd' : c.toNat < d.toNat := hcd
        rw [hlength'] at hlow
        have : (c.toNat - 48 + 1) * 10 ^ others.length ≤ (d.toNat - 48) * 10 ^ others.length :=
          Nat.mul_le_mul_right _ (by omega)
        rw [Nat.add_mul, Nat.one_mul] at this
        omega
      · have := ih hlength' hleft.2 hright.2 hrest
        omega

theorem compareNumericStrings_compares (hleft : PlainDigits left) (hright : PlainDigits right) :
    (compareNumericStrings left right).Compares (Text.decimal left) (Text.decimal right) := by
  -- a longer number without a superfluous zero is larger
  have hlonger {x y : List Char} (hx : PlainDigits x) (hy : PlainDigits y) (h : x.length < y.length) :
      Text.decimal x < Text.decimal y := by
    have hpos := List.length_pos_iff.2 hx.1
    have hlow := Text.decimal_lt x hx.2.1
    have hhigh := le_decimal hy (by omega)
    have : 10 ^ x.length ≤ 10 ^ (y.length - 1) := Nat.pow_le_pow_right (by decide) (by omega)
    omega
  unfold compareNumericStrings
  by_cases hlength : left.length = right.length
  · rw [if_neg (not_not.2 hlength)]
    by_cases heq : left = right
    · simp [heq]
    rw [if_neg heq]
    by_cases hlt : left < right
    · rw [if_pos hlt]
      exact decimal_lt_of_lt hlength hleft.2.1 hright.2.1 hlt
    · rw [if_neg hlt]
      exact decimal_lt_of_lt hlength.symm hright.2.1 hleft.2.1 (lt_of_le_of_ne (not_lt.1 hlt) (Ne.symm heq))
  · rw [if_pos hlength]
    by_cases hlt : left.length < right.length
    · simp_all
    · rw [if_neg hlt]
      exact hlonger hright hleft (by omega)

/-! ### Versions -/

theorem compareCore_compares (hlength : lefts.length = rights.length)
    (hlefts : ∀ number ∈ lefts, PlainDigits number) (hrights : ∀ number ∈ rights, PlainDigits number) :
    (compareCore lefts rights).Compares (lefts.map Text.decimal) (rights.map Text.decimal) := by
  induction lefts generalizing rights with
  | nil =>
    obtain rfl := List.length_eq_zero_iff.1 hlength.symm
    rfl
  | cons left lefts ih =>
    cases rights with
    | nil => cases hlength
    | cons right rights =>
      have hfirst := compareNumericStrings_compares (hlefts left List.mem_cons_self) (hrights right List.mem_cons_self)
      have hrest := ih (Nat.succ.inj hlength) (fun n hn => hlefts n (List.mem_cons_of_mem _ hn))
        (fun n hn => hrights n (List.mem_cons_of_mem _ hn))
      have hthen := compares_cons hfirst hrest
      rw [compareCore, List.map_cons, List.map_cons]
      cases hcase : compareNumericStrings left right with
      | lt => rwa [hcase] at hthen
      | eq => rwa [hcase] at hthen
      | gt => rwa [hcase] at hthen

def PlainIdentifier (identifier : List Char) : Prop := isNumeric identifier = true → PlainDigits identifier

theorem identifierKey_of_numeric {identifier : List Char} (h : isNumeric identifier = true) :
    identifierKey identifier = toLex (.inl (Text.decimal identifier)) := by
  rw [identifierKey, if_pos h]

theorem identifierKey_of_text {identifier : List Char} (h : isNumeric identifier = false) :
    identifierKey identifier = toLex (.inr identifier) := by
  rw [identifierKey, if_neg (by simp [h])]

theorem compareNumericStrings_ne_eq (h : left ≠ right) : compareNumericStrings left right ≠ .eq := by
  simp_all [compareNumericStrings]

theorem compareIdentifiers_cons_of_ne (lefts rights : List (List Char)) (hne : left ≠ right)
    (hleft : PlainIdentifier left) (hright : PlainIdentifier right) :
    (compareIdentifiers (left :: lefts) (right :: rights)).Compares (identifierKey left) (identifierKey right) ∧
      compareIdentifiers (left :: lefts) (right :: rights) ≠ .eq := by
  rw [compareIdentifiers, if_neg hne]
  cases hl : isNumeric left with
  | true =>
    rw [identifierKey_of_numeric hl]
    cases hr : isNumeric right with
    | true =>
      rw [identifierKey_of_numeric hr, Bool.and_self, if_pos rfl]
      refine ⟨?_, compareNumericStrings_ne_eq hne⟩
      have hnumbers := compareNumericStrings_compares (hleft hl) (hright hr)
      cases hcase : compareNumericStrings left right <;> simp_all
    | false => simp_all [identifierKey_of_text]
  | false =>
    rw [identifierKey_of_text hl]
    cases hr : isNumeric right with
    | true => simp_all [identifierKey_of_numeric]
    | false =>
      rw [identifierKey_of_text hr, Bool.and_self, if_neg (by decide), if_neg (by decide)]
      by_cases hlt : left < right
      · simp [hlt]
      · rw [if_neg hlt]
        exact ⟨Sum.Lex.inr_lt_inr_iff.2 (lt_of_le_of_ne (not_lt.1 hlt) (Ne.symm hne)), by decide⟩

theorem compareIdentifiers_compares (hlefts : ∀ i ∈ lefts, PlainIdentifier i)
    (hrights : ∀ i ∈ rights, PlainIdentifier i) :
    (compareIdentifiers lefts rights).Compares (lefts.map identifierKey) (rights.map identifierKey) := by
  induction lefts generalizing rights with
  | nil =>
    cases rights with
    | nil => rfl
    | cons right rights => exact List.nil_lt_cons _ _
  | cons left lefts ih =>
    cases rights with
    | nil => exact List.nil_lt_cons _ _
    | cons right rights =>
      have hrest := ih (fun i hi => hlefts i (List.mem_cons_of_mem _ hi)) (fun i hi => hrights i (List.mem_cons_of_mem _ hi))
      rw [List.map_cons, List.map_cons]
      by_cases heq : left = right
      · subst heq
        rw [compareIdentifiers, if_pos rfl]
        exact compares_cons (o := .eq) rfl hrest
      · -- two identifiers that differ decide
        obtain ⟨hcompares, hne⟩ := compareIdentifiers_cons_of_ne lefts rights heq (hlefts left List.mem_cons_self)
          (hrights right List.mem_cons_self)
        cases hcase : compareIdentifiers (left :: lefts) (right :: rights) with
        | lt =>
          rw [hcase] at hcompares
          exact compares_cons (o := .lt) hcompares hrest
        | eq => exact absurd hcase hne
        | gt =>
          rw [hcase] at hcompares
          exact compares_cons (o := .gt) hcompares hrest

/-- What `parseSemVer` lets through. -/
structure SemVer.WellFormed (version : SemVer) : Prop where
  core_length : version.core.length = 3
  core_plain : ∀ number ∈ version.core, PlainDigits number
  prerelease_plain : ∀ identifier ∈ version.prerelease, PlainIdentifier identifier

theorem plainDigits_of_isPlainNumber {number : List Char} (h : isPlainNumber number = true) : PlainDigits number := by
  cases number with
  | nil => cases h
  | cons c rest =>
    simp only [isPlainNumber, Bool.or_eq_true, Bool.and_eq_true, beq_iff_eq, bne_iff_ne, ne_eq, List.isEmpty_iff] at h
    rcases h with ⟨rfl, rfl⟩ | ⟨⟨hc, hne⟩, hrest⟩
    · exact ⟨by decide, by decide, by decide⟩
    refine ⟨List.cons_ne_nil _ _, ?_, fun _ => ?_⟩
    · simp_all
    · simpa using hne

theorem parseSemVer_wellFormed {value : List Char} {version : SemVer} (h : parseSemVer value = some version) :
    version.WellFormed := by
  simp only [parseSemVer] at h
  split at h
  · next hparts =>
    split at h
    · cases h
    rename_i hzero
    cases h
    refine ⟨hparts.1, fun number hmem => plainDigits_of_isPlainNumber (List.all_eq_true.1 hparts.2.1 number hmem),
      fun identifier hmem hnumeric => ?_⟩
    have hall := hnumeric
    simp only [isNumeric, Bool.and_eq_true, Bool.not_eq_true', List.isEmpty_eq_false_iff] at hall
    refine ⟨hall.1, hall.2, fun hlong hhead => hzero ?_⟩
    simp_all [List.any_eq_true, hasLeadingZero]
  · cases h

theorem SemVer.compareTo_compares {left right : SemVer} (hleft : left.WellFormed) (hright : right.WellFormed) :
    (left.compareTo right).Compares left.precedence right.precedence := by
  have hcore := compareCore_compares (hleft.core_length.trans hright.core_length.symm) hleft.core_plain hright.core_plain
  have hpre : (if left.prerelease.length = 0 ∨ right.prerelease.length = 0 then
        if left.prerelease.length = right.prerelease.length then Ordering.eq
        else if left.prerelease.length = 0 then .gt
        else .lt
      else compareIdentifiers left.prerelease right.prerelease).Compares (prereleaseKey left.prerelease)
        (prereleaseKey right.prerelease) := by
    simp only [List.length_eq_zero_iff]
    by_cases hl : left.prerelease = []
    · by_cases hr : right.prerelease = []
      · simp_all
      have hne : ([] : List (List Char)).length ≠ right.prerelease.length :=
        (List.length_pos_iff.2 hr).ne
      simp_all [prereleaseKey]
    · by_cases hr : right.prerelease = []
      · simp [hl, hr, or_true, prereleaseKey]
      simp only [hl, hr, or_self, if_false, prereleaseKey]
      have hids := compareIdentifiers_compares hleft.prerelease_plain hright.prerelease_plain
      cases hcase : compareIdentifiers left.prerelease right.prerelease <;> simp_all
  have hthen := compares_toLex hcore hpre
  unfold compareTo
  cases hcase : compareCore left.core right.core with
  | lt => rwa [hcase] at hthen
  | eq => rwa [hcase] at hthen
  | gt => rwa [hcase] at hthen

/-! ### Strings -/

theorem eq_of_compareCore (hlength : lefts.length = rights.length)
    (h : compareCore lefts rights = .eq) : lefts = rights := by
  induction lefts generalizing rights with
  | nil => exact (List.length_eq_zero_iff.1 hlength.symm).symm
  | cons left lefts ih =>
    cases rights with
    | nil => cases hlength
    | cons right rights =>
      by_cases heq : left = right
      · subst heq
        have hsame : compareNumericStrings left left = .eq := by simp [compareNumericStrings]
        rw [compareCore, hsame] at h
        rw [ih (Nat.succ.inj hlength) h]
      have hne := compareNumericStrings_ne_eq heq
      rw [compareCore] at h
      cases hcase : compareNumericStrings left right <;> simp_all

theorem eq_of_compareIdentifiers (hlefts : ∀ i ∈ lefts, PlainIdentifier i)
    (hrights : ∀ i ∈ rights, PlainIdentifier i) (h : compareIdentifiers lefts rights = .eq) : lefts = rights := by
  induction lefts generalizing rights with
  | nil => cases rights <;> simp_all [compareIdentifiers]
  | cons left lefts ih =>
    cases rights with
    | nil => simp [compareIdentifiers] at h
    | cons right rights =>
      by_cases heq : left = right
      · subst heq
        rw [compareIdentifiers, if_pos rfl] at h
        rw [ih (fun i hi => hlefts i (List.mem_cons_of_mem _ hi)) (fun i hi => hrights i (List.mem_cons_of_mem _ hi)) h]
      · exact absurd h (compareIdentifiers_cons_of_ne lefts rights heq (hlefts left List.mem_cons_self)
          (hrights right List.mem_cons_self)).2

theorem SemVer.eq_of_compareTo {left right : SemVer} (hleft : left.WellFormed) (hright : right.WellFormed)
    (h : left.compareTo right = .eq) : left = right := by
  unfold compareTo at h
  cases hcore : compareCore left.core right.core with
  | lt => simp [hcore] at h
  | gt => simp [hcore] at h
  | eq =>
    have hcores := eq_of_compareCore (hleft.core_length.trans hright.core_length.symm) hcore
    simp only [hcore] at h
    have hpre : left.prerelease = right.prerelease := by
      split at h
      · grind
      · exact eq_of_compareIdentifiers hleft.prerelease_plain hright.prerelease_plain h
    cases left
    cases right
    simp_all

/-- **Versions are compared by SemVer's precedence.**  For all strings that parse: the result says how the precedences lie,
it is turned around with its arguments, it is `.eq` for one version and itself and for no two whose numbers or pre-releases
differ, and "not above" is transitive. -/
theorem compareSemVer_precedence (a b c : List Char) (va vb vc : SemVer) (ha : parseSemVer a = some va)
    (hb : parseSemVer b = some vb) (hc : parseSemVer c = some vc) :
    compareSemVer a a = some .eq ∧
      (∃ o : Ordering, compareSemVer a b = some o ∧ compareSemVer b a = some o.swap ∧
        o.Compares va.precedence vb.precedence ∧ (o = .eq ↔ va.core = vb.core ∧ va.prerelease = vb.prerelease)) ∧
      (compareSemVer a b ≠ some .gt → compareSemVer b c ≠ some .gt → compareSemVer a c ≠ some .gt) := by
  have hva := parseSemVer_wellFormed ha
  have hvb := parseSemVer_wellFormed hb
  have hvc := parseSemVer_wellFormed hc
  have hab := SemVer.compareTo_compares hva hvb
  simp only [compareSemVer, ha, hb, hc, Option.some.injEq, ne_eq]
  refine ⟨(SemVer.compareTo_compares hva hva).eq_eq.2 rfl, ⟨_, rfl, ?_, hab, fun heq => ?_, fun ⟨hcore, hpre⟩ => ?_⟩,
    fun hle hle' => ?_⟩
  · exact (SemVer.compareTo_compares hvb hva).inj (Ordering.compares_swap.2 hab)
  · rw [SemVer.eq_of_compareTo hva hvb heq]
    exact ⟨rfl, rfl⟩
  · refine hab.eq_eq.2 ?_
    rw [SemVer.precedence, SemVer.precedence, hcore, hpre]
  rw [← ne_eq, hab.ne_gt] at hle
  rw [← ne_eq, (SemVer.compareTo_compares hvb hvc).ne_gt] at hle'
  rw [← ne_eq, (SemVer.compareTo_compares hva hvc).ne_gt]
  exact hle.trans hle'

theorem compareSemVer_precedence_longNumber :
    let long := "1.0.123456789012345678901".toList
    compareSemVer "1.0.9-rc.2".toList "1.0.9-rc.10".toList = some .lt ∧ compareSemVer long (long ++ "+x".toList) = some .eq ∧
      compareSemVer "1.0.9-rc.2".toList long ≠ some .gt := by
  intro long
  have hchain := compareSemVer_precedence "1.0.9-rc.2".toList "1.0.9".toList long ⟨["1".toList, "0".toList, "9".toList],
    ["rc".toList, "2".toList]⟩ ⟨["1".toList, "0".toList, "9".toList], []⟩
    ⟨["1".toList, "0".toList, "123456789012345678901".toList], []⟩ (by decide +kernel) (by decide +kernel) (by decide +kernel)
  exact ⟨by decide +kernel, by decide +kernel, hchain.2.2 (by decide +kernel) (by decide +kernel)⟩

end YuriRtc
