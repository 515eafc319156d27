import YuriRtc.Text
/-!
# HttpHeader — header maps with canonical names

What Go's `http.Header` and `textproto.CanonicalMIMEHeaderKey` document: a name of token characters is kept with the first
letter and each letter behind a hyphen in upper case and the others in lower case, any other name as it is.  A header map is
the list of its names and values; values of one name stay in order.
-/
namespace HttpHeader

abbrev Header := List (List Char × List Char)

/-- The characters of an RFC 9110 token: letters, digits, and ``!#$%&'*+-.^_`|~``. -/
def isTokenChar (c : Char) : Bool :=
  ('a' ≤ c && c ≤ 'z') || ('A' ≤ c && c ≤ 'Z') || ('0' ≤ c && c ≤ '9') ||
    [33, 35, 36, 37, 38, 39, 42, 43, 45, 46, 94, 95, 96, 124, 126].contains c.toNat

def isToken (name : List Char) : Bool := name.all isTokenChar

def capitalize : Bool → List Char → List Char
  | _, [] => []
  | first, c :: rest => (if first then c.toUpper else c.toLower) :: capitalize (c == '-') rest

def canonicalKey (name : List Char) : List Char := if isToken name then capitalize true name else name

def add (header : Header) (name value : List Char) : Header := header ++ [(canonicalKey name, value)]

def del (header : Header) (name : List Char) : Header := header.filter fun pair => pair.1 ≠ canonicalKey name

def set (header : Header) (name value : List Char) : Header := add (del header name) name value

def values (header : Header) (name : List Char) : List (List Char) :=
  (header.filter fun pair => pair.1 = canonicalKey name).map Prod.snd

/-! ### Case -/

theorem toUpper_of_not_lower {c : Char} (h : ¬ (c.val ≥ 'a'.val ∧ c.val ≤ 'z'.val)) : c.toUpper = c := by
  unfold Char.toUpper
  rw [dif_neg h]

structure AsciiCase (c : Char) : Prop where
  lower_upper : c.toUpper.toLower = c.toLower
  upper_lower : c.toLower.toUpper = c.toUpper
  token_lower : isTokenChar c.toLower = isTokenChar c
  token_upper : isTokenChar c.toUpper = isTokenChar c
  hyphen : (c.toLower == '-') = (c == '-')

theorem ascii_case {c : Char} (h : c.toNat < 128) : AsciiCase c := by
  have hall : ∀ n < 128, (Char.ofNat n).toUpper.toLower = (Char.ofNat n).toLower ∧
      (Char.ofNat n).toLower.toUpper = (Char.ofNat n).toUpper ∧
      isTokenChar (Char.ofNat n).toLower = isTokenChar (Char.ofNat n) ∧
      isTokenChar (Char.ofNat n).toUpper = isTokenChar (Char.ofNat n) ∧
      ((Char.ofNat n).toLower == '-') = (Char.ofNat n == '-') := by
    decide +kernel
  have hc := hall c.toNat h
  rw [Char.ofNat_toNat] at hc
  exact ⟨hc.1, hc.2.1, hc.2.2.1, hc.2.2.2.1, hc.2.2.2.2⟩

theorem toLower_toUpper (c : Char) : c.toUpper.toLower = c.toLower := by
  by_cases hascii : c.toNat < 128
  · exact (ascii_case hascii).lower_upper
  rw [toUpper_of_not_lower]
  rintro ⟨-, hle⟩
  have : c.toNat ≤ 122 := hle
  omega

theorem isTokenChar_ascii {c : Char} (h : isTokenChar c = true) : c.toNat < 128 := by
  simp only [isTokenChar, Bool.or_eq_true, Bool.and_eq_true, decide_eq_true_eq] at h
  rcases h with ((⟨-, hle⟩ | ⟨-, hle⟩) | ⟨-, hle⟩) | hmem
  · have : c.toNat ≤ 122 := hle
    omega
  · have : c.toNat ≤ 90 := hle
    omega
  · have : c.toNat ≤ 57 := hle
    omega
  rw [List.contains_iff_mem] at hmem
  simp only [List.mem_cons, List.not_mem_nil, or_false] at hmem
  omega

theorem map_toLower_capitalize (first : Bool) (name : List Char) :
    (capitalize first name).map Char.toLower = name.map Char.toLower := by
  induction name generalizing first with
  | nil => rfl
  | cons c rest ih =>
    rw [capitalize, List.map_cons, List.map_cons, ih]
    cases first with
    | true => rw [if_pos rfl, toLower_toUpper]
    | false => rw [if_neg (by decide), Text.toLower_toLower]

theorem map_toLower_canonicalKey (name : List Char) : (canonicalKey name).map Char.toLower = name.map Char.toLower := by
  unfold canonicalKey
  split
  · exact map_toLower_capitalize true name
  · rfl

theorem capitalize_map_toLower (first : Bool) (name : List Char) (h : isToken name = true) :
    capitalize first (name.map Char.toLower) = capitalize first name := by
  induction name generalizing first with
  | nil => rfl
  | cons c rest ih =>
    rw [isToken, List.all_cons, Bool.and_eq_true] at h
    have hc := ascii_case (isTokenChar_ascii h.1)
    rw [List.map_cons, capitalize, capitalize, ih _ h.2, hc.upper_lower, hc.hyphen, Text.toLower_toLower]

variable {name : List Char}

theorem isToken_map_toLower (h : isToken name = true) : isToken (name.map Char.toLower) = true := by
  rw [isToken, List.all_map, List.all_eq_true]
  intro c hc
  have htoken := List.all_eq_true.1 h c hc
  exact (ascii_case (isTokenChar_ascii htoken)).token_lower.trans htoken

theorem isToken_capitalize (first : Bool) (h : isToken name = true) :
    isToken (capitalize first name) = true := by
  induction name generalizing first with
  | nil => rfl
  | cons c rest ih =>
    rw [isToken, List.all_cons, Bool.and_eq_true] at h
    have hc := ascii_case (isTokenChar_ascii h.1)
    rw [capitalize, isToken, List.all_cons, Bool.and_eq_true]
    refine ⟨?_, ih _ h.2⟩
    cases first with
    | true => exact hc.token_upper.trans h.1
    | false => exact hc.token_lower.trans h.1

theorem canonicalKey_map_toLower (h : isToken name = true) :
    canonicalKey (name.map Char.toLower) = canonicalKey name := by
  rw [canonicalKey, canonicalKey, isToken_map_toLower h, h, if_pos rfl, if_pos rfl, capitalize_map_toLower true name h]

/-! ### Values -/

theorem values_set_self (header : Header) (name value : List Char) : values (set header name value) name = [value] := by
  simp [values, set, add, del, List.filter_append, List.filter_filter]

theorem values_set_ne (header : Header) {name other : List Char} (value : List Char)
    (h : canonicalKey other ≠ canonicalKey name) : values (set header other value) name = values header name := by
  have hfilter : (header.filter fun pair => pair.1 ≠ canonicalKey other).filter (fun pair => pair.1 = canonicalKey name) =
      header.filter fun pair => pair.1 = canonicalKey name := by
    rw [List.filter_filter]
    refine List.filter_congr fun pair _ => ?_
    by_cases hname : pair.1 = canonicalKey name
    · simp [hname, Ne.symm h]
    · simp [hname]
  rw [values, set, add, List.filter_append, del, hfilter]
  simp [values, h]

/-! ### Unicode -/

structure RuneCase where
  toLower : Char → Char
  ascii : ∀ c : Char, c.toNat < 128 → toLower c = c.toLower
  idem : ∀ c, toLower (toLower c) = toLower c

namespace RuneCase
variable (runes : RuneCase)

def lower (text : List Char) : List Char := text.map runes.toLower

theorem lower_lower (text : List Char) : runes.lower (runes.lower text) = runes.lower text := by
  rw [lower, lower, List.map_map]
  exact List.map_congr_left fun c _ => runes.idem c

theorem lower_of_isToken (h : isToken name = true) : runes.lower name = name.map Char.toLower :=
  List.map_congr_left fun c hc => runes.ascii c (isTokenChar_ascii (List.all_eq_true.1 h c hc))

theorem lower_canonicalKey_lower (text : List Char) : runes.lower (canonicalKey (runes.lower text)) = runes.lower text := by
  by_cases htoken : isToken (runes.lower text) = true
  · have hcapital : isToken (capitalize true (runes.lower text)) = true := isToken_capitalize true htoken
    rw [canonicalKey, if_pos htoken, runes.lower_of_isToken hcapital, map_toLower_capitalize, ← runes.lower_of_isToken htoken,
      runes.lower_lower]
  · rw [canonicalKey, if_neg htoken, runes.lower_lower]

end RuneCase

end HttpHeader
