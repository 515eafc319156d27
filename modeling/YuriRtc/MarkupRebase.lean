import YuriRtc.Protocol
/-!
# MarkupRebase — moving root-relative URLs of a document into a scope

`rebaseMarkupBytes` of `packages/loader/src/inject.ts`.  From each `=` the code looks forward over blanks and a quote for a
slash, and from the slash back over the same bytes and the attribute's name.  `rebaseMarkupBytes_eq` says what it comes to
byte by byte: a slash that is `rewritten` becomes the scope, every other byte stays.
-/
namespace YuriRtc

variable {bytes scope : Bytes} {equals k length slash : Nat}

def equalsByte : UInt8 := 0x3d
def slashByte : UInt8 := 0x2f

def isMarkupSpace (byte : UInt8) : Bool :=
  byte == 0x09 || byte == 0x0a || byte == 0x0c || byte == 0x0d || byte == 0x20

def isQuote (byte : UInt8) : Bool := byte == 0x22 || byte == 0x27

def isAttributeNameByte (byte : UInt8) : Bool :=
  (0x30 ≤ byte && byte ≤ 0x39) || (0x41 ≤ byte && byte ≤ 0x5a) || (0x61 ≤ byte && byte ≤ 0x7a) ||
    byte == 0x2d || byte == 0x3a || byte == 0x5f

def asciiLower (bytes : Bytes) : Bytes := bytes.map fun byte => if 0x41 ≤ byte && byte ≤ 0x5a then byte + 0x20 else byte

def rootUrlAttributes : List Bytes :=
  ["action", "background", "cite", "codebase", "data", "data-href", "data-manifest", "data-original", "data-path",
    "data-src", "data-url", "formaction", "href", "longdesc", "manifest", "poster", "profile", "src", "usemap",
    "value"].map fun name => name.toList.map fun c => UInt8.ofNat c.toNat

def byteAt (p : UInt8 → Bool) (bytes : Bytes) (at_ : Nat) : Bool := (bytes[at_]?).any p

def backWhile (p : UInt8 → Bool) (bytes : Bytes) : Nat → Nat
  | 0 => 0
  | k + 1 => if byteAt p bytes k then backWhile p bytes k else k + 1

/-- Looking forward, below `length`. -/
def skipSpaces (bytes : Bytes) (length : Nat) : Nat → Nat → Nat
  | 0, at_ => at_
  | fuel + 1, at_ => if at_ < length && byteAt isMarkupSpace bytes at_ then skipSpaces bytes length fuel (at_ + 1) else at_

/-- The name that ends before an `=`, and the blanks before it. -/
def attributeName (bytes : Bytes) (equals : Nat) : Bytes :=
  let last := backWhile isMarkupSpace bytes equals
  (bytes.take last).drop (backWhile isAttributeNameByte bytes last)

def slashStartsRootAttribute (bytes : Bytes) (slash : Nat) : Bool :=
  if byteAt (· == slashByte) bytes slash = false ∨ byteAt (· == slashByte) bytes (slash + 1) = true then false
  else
    let value := if 0 < slash ∧ byteAt isQuote bytes (slash - 1) = true then slash - 1 else slash
    let after := backWhile isMarkupSpace bytes value
    if after = 0 ∨ byteAt (· == equalsByte) bytes (after - 1) = false then false
    else
      let name := attributeName bytes (after - 1)
      name != [] && rootUrlAttributes.contains (asciiLower name)

def bytesStartWith (bytes : Bytes) (at_ : Nat) (wanted : Bytes) : Bool :=
  at_ + wanted.length ≤ bytes.length && (bytes.drop at_).take wanted.length == wanted

def attributeValueSlash (bytes : Bytes) (equals length : Nat) : Option Nat :=
  let at_ := skipSpaces bytes length length (equals + 1)
  let at_ := if byteAt isQuote bytes at_ then at_ + 1 else at_
  if at_ < length && byteAt (· == slashByte) bytes at_ then some at_ else none

/-- The slash that an `=` leads to and that is rewritten. -/
def rewrittenFrom (bytes scope : Bytes) (length equals : Nat) : Option Nat :=
  (attributeValueSlash bytes equals length).filter fun at_ =>
    slashStartsRootAttribute bytes at_ && !bytesStartWith bytes (at_ + 1) scope.tail

def rebaseStep (bytes scope : Bytes) (length : Nat) (state : Bytes × Nat) (equals : Nat) : Bytes × Nat :=
  match rewrittenFrom bytes scope length equals with
  | some at_ => (state.1 ++ (bytes.take at_).drop state.2 ++ scope, at_ + 1)
  | none => state

/-- The positions of `=` below `length`, in order. -/
def equalsBelow (bytes : Bytes) (length : Nat) : List Nat :=
  (List.range length).filter (byteAt (· == equalsByte) bytes)

def rebaseMarkupBytes (bytes scope : Bytes) (length : Nat) : Bytes :=
  if scope = [slashByte] ∨ length = 0 then bytes.take length
  else
    let (out, rest) := (equalsBelow bytes length).foldl (rebaseStep bytes scope length) ([], 0)
    out ++ (bytes.take length).drop rest

/-! ### Looking forward -/

variable {p : UInt8 → Bool}

theorem byteAt_iff :
    byteAt p bytes k = true ↔ ∃ byte, bytes[k]? = some byte ∧ p byte = true := by
  unfold byteAt
  cases bytes[k]? <;> simp

theorem skipSpaces_spec (bytes : Bytes) (length fuel at_ : Nat) :
    at_ ≤ skipSpaces bytes length fuel at_ ∧
      (∀ k, at_ ≤ k → k < skipSpaces bytes length fuel at_ → k < length ∧ byteAt isMarkupSpace bytes k = true) ∧
      (length ≤ at_ + fuel → skipSpaces bytes length fuel at_ < length →
        byteAt isMarkupSpace bytes (skipSpaces bytes length fuel at_) = false) := by
  induction fuel generalizing at_ with
  | zero => simp_all [skipSpaces]
  | succ fuel ih =>
    simp only [skipSpaces]
    split
    · next hspace =>
      simp only [Bool.and_eq_true, decide_eq_true_eq] at hspace
      obtain ⟨hle, hrun, hstop⟩ := ih (at_ + 1)
      refine ⟨by omega, fun k h1 h2 => ?_, fun h1 => hstop (by omega)⟩
      grind
    · simp_all

/-- An `=` leads to a slash: over blanks, and a quote. -/
def LeadsTo (bytes : Bytes) (equals slash : Nat) : Prop :=
  byteAt (· == slashByte) bytes slash = true ∧
    ∃ value, equals < value ∧ (∀ k, equals < k → k < value → byteAt isMarkupSpace bytes k = true) ∧
      (slash = value ∨ (slash = value + 1 ∧ byteAt isQuote bytes value = true))

inductive ByteKind where
  | space
  | quote
  | equals
  | slash
deriving DecidableEq

def ByteKind.holds : ByteKind → UInt8 → Bool
  | .space => isMarkupSpace
  | .quote => isQuote
  | .equals => (· == equalsByte)
  | .slash => (· == slashByte)

theorem ByteKind.holds_unique (c d : ByteKind) (hcd : c ≠ d) :
    ∀ n < 256, c.holds (UInt8.ofNat n) = true → d.holds (UInt8.ofNat n) = false := by
  cases c <;> cases d <;> first | exact absurd rfl hcd | decide +kernel

theorem byteAt_exclusive (c d : ByteKind) (hcd : c ≠ d) (h : byteAt c.holds bytes k = true) :
    byteAt d.holds bytes k = false := by
  obtain ⟨byte, hbyte, hc⟩ := byteAt_iff.1 h
  have hunique := ByteKind.holds_unique c d hcd byte.toNat byte.toNat_lt
  rw [UInt8.ofNat_toNat] at hunique
  simp [byteAt, hbyte, hunique hc]

theorem attributeValueSlash_iff :
    attributeValueSlash bytes equals length = some slash ↔ LeadsTo bytes equals slash ∧ slash < length := by
  obtain ⟨hle, hrun, hstop⟩ := skipSpaces_spec bytes length length (equals + 1)
  unfold attributeValueSlash
  generalize skipSpaces bytes length length (equals + 1) = at_ at hle hrun hstop
  constructor
  · intro h
    simp only [Option.ite_none_right_eq_some, Bool.and_eq_true, decide_eq_true_eq, Option.some.injEq] at h
    obtain ⟨⟨hlt, hslash⟩, rfl⟩ := h
    refine ⟨⟨hslash, at_, by omega, fun k h1 h2 => (hrun k h1 h2).2, ?_⟩, hlt⟩
    simp
  · rintro ⟨⟨hslash, value, hvalue, hspaces, hend⟩, hlt⟩
    have hnospace : byteAt isMarkupSpace bytes value = false := by
      rcases hend with rfl | ⟨-, hquote⟩
      · exact byteAt_exclusive .slash .space (by decide) hslash
      · exact byteAt_exclusive .quote .space (by decide) hquote
    have hsame : at_ = value := by grind
    subst hsame
    rcases hend with rfl | ⟨rfl, hquote⟩
    · have hquote : byteAt isQuote bytes slash = false := byteAt_exclusive .slash .quote (by decide) hslash
      simp [hquote, hlt, hslash]
    · simp [hquote, hlt, hslash]

theorem LeadsTo.between (h : LeadsTo bytes equals slash) (hlt : equals < k)
    (hk : k < slash) : byteAt isMarkupSpace bytes k = true ∨ byteAt isQuote bytes k = true := by
  obtain ⟨-, value, -, hspaces, rfl | ⟨rfl, hquote⟩⟩ := h
  · exact .inl (hspaces k hlt hk)
  · grind

theorem LeadsTo.le_of_kind {other : Nat} (h : LeadsTo bytes equals slash) (c : ByteKind)
    (hspace : c ≠ .space) (hquote : c ≠ .quote) (hother : byteAt c.holds bytes other = true) (hlt : equals < other) :
    slash ≤ other := by
  by_contra hk
  rcases h.between hlt (by omega) with hb | hb
  · have := byteAt_exclusive .space c hspace.symm hb
    rw [hother] at this
    cases this
  have := byteAt_exclusive .quote c hquote.symm hb
  rw [hother] at this
  cases this

theorem LeadsTo.lt_of_equals {other : Nat} (h : LeadsTo bytes equals slash)
    (hother : byteAt (· == equalsByte) bytes other = true) (hlt : equals < other) : slash < other := by
  have hle := h.le_of_kind .equals (by decide) (by decide) hother hlt
  refine Nat.lt_of_le_of_ne hle fun hsame => ?_
  have := byteAt_exclusive .slash .equals (by decide) h.1
  rw [hsame] at this
  exact absurd (hother.symm.trans this) (by decide)

theorem LeadsTo.lt (h : LeadsTo bytes equals slash) : equals < slash := by
  obtain ⟨-, value, hvalue, -, rfl | ⟨rfl, -⟩⟩ := h <;> omega

/-! ### Looking back -/

theorem backWhile_eq {m : Nat} (hle : m ≤ k)
    (hrun : ∀ j, m ≤ j → j < k → byteAt p bytes j = true) (hstop : m = 0 ∨ byteAt p bytes (m - 1) = false) :
    backWhile p bytes k = m := by
  induction k with
  | zero =>
    rw [Nat.le_zero.1 hle]
    rfl
  | succ k ih => grind [backWhile]

theorem backWhile_congr {other : Bytes}
    (h : ∀ j < k, byteAt p bytes j = byteAt p other j) : backWhile p bytes k = backWhile p other k := by
  induction k with
  | zero => rfl
  | succ k ih =>
    simp only [backWhile, h k (Nat.lt_succ_self k), ih fun j hj => h j (by omega)]

theorem backWhile_le (p : UInt8 → Bool) (bytes : Bytes) (k : Nat) : backWhile p bytes k ≤ k := by
  induction k with
  | zero => exact le_rfl
  | succ k ih => grind [backWhile]

def listedName (name : Bytes) : Bool := name != [] && rootUrlAttributes.contains (asciiLower name)

theorem slashStartsRootAttribute_eq (h : LeadsTo bytes equals slash)
    (hequals : byteAt (· == equalsByte) bytes equals = true) :
    slashStartsRootAttribute bytes slash =
      (!byteAt (· == slashByte) bytes (slash + 1) && listedName (attributeName bytes equals)) := by
  have hlt := h.lt
  obtain ⟨hslash, value, hvalue, hspaces, hend⟩ := h
  have hback : (if 0 < slash ∧ byteAt isQuote bytes (slash - 1) = true then slash - 1 else slash) = value := by
    rcases hend with rfl | ⟨rfl, hquote⟩
    · have hnoquote : byteAt isQuote bytes (slash - 1) = false := by
        by_cases hfirst : slash - 1 = equals
        · rw [hfirst]
          exact byteAt_exclusive .equals .quote (by decide) hequals
        · exact byteAt_exclusive .space .quote (by decide) (hspaces (slash - 1) (by omega) (by omega))
      simp [hnoquote]
    · simp [hquote]
  have hafter : backWhile isMarkupSpace bytes value = equals + 1 :=
    backWhile_eq hvalue (fun j h1 h2 => hspaces j h1 h2)
      (.inr (by rw [Nat.add_sub_cancel]; exact byteAt_exclusive .equals .space (by decide) hequals))
  simp [hback, hafter, hslash, hequals, Nat.add_eq_zero_iff, one_ne_zero, and_false, Bool.true_eq_false,
    false_or, listedName, slashStartsRootAttribute]

/-! ### Byte by byte -/

theorem rewrittenFrom_iff (hequals : byteAt (· == equalsByte) bytes equals = true) :
    rewrittenFrom bytes scope length equals = some slash ↔
      LeadsTo bytes equals slash ∧ slash < length ∧ byteAt (· == slashByte) bytes (slash + 1) = false ∧
        listedName (attributeName bytes equals) = true ∧ bytesStartWith bytes (slash + 1) scope.tail = false := by
  rw [rewrittenFrom, Option.filter_eq_some_iff, attributeValueSlash_iff]
  grind [slashStartsRootAttribute_eq]

theorem mem_equalsBelow :
    equals ∈ equalsBelow bytes length ↔ equals < length ∧ byteAt (· == equalsByte) bytes equals = true := by
  simp [equalsBelow]

def rewritten (bytes scope : Bytes) (length slash : Nat) : Bool :=
  (equalsBelow bytes length).any fun equals => rewrittenFrom bytes scope length equals == some slash

theorem rewritten_iff :
    rewritten bytes scope length slash = true ↔
      ∃ equals, byteAt (· == equalsByte) bytes equals = true ∧ LeadsTo bytes equals slash ∧ slash < length ∧
        byteAt (· == slashByte) bytes (slash + 1) = false ∧ listedName (attributeName bytes equals) = true ∧
        bytesStartWith bytes (slash + 1) scope.tail = false := by
  simp only [rewritten, List.any_eq_true, beq_iff_eq]
  constructor
  · rintro ⟨equals, hmem, hfrom⟩
    have hequals := (mem_equalsBelow.1 hmem).2
    exact ⟨equals, hequals, (rewrittenFrom_iff hequals).1 hfrom⟩
  rintro ⟨equals, hequals, hall⟩
  have hlt : equals < length := Nat.lt_trans hall.1.lt hall.2.1
  exact ⟨equals, mem_equalsBelow.2 ⟨hlt, hequals⟩, (rewrittenFrom_iff hequals).2 hall⟩

theorem take_drop_eq_flatMap (bytes : Bytes) (first n : Nat) :
    (bytes.drop first).take n = (List.range' first n).flatMap (fun i => bytes[i]?.toList) := by
  induction n generalizing first with
  | zero => simp
  | succ n ih =>
    rw [List.range'_succ, List.flatMap_cons, ← ih]
    grind [List.drop_of_length_le, List.drop_eq_getElem_cons]

def rebased (bytes scope : Bytes) (turns : Nat → Bool) (first n : Nat) : Bytes :=
  (List.range' first n).flatMap fun i => if turns i then scope else bytes[i]?.toList

theorem rebased_congr {turns other : Nat → Bool} {first n : Nat}
    (h : ∀ i, first ≤ i → i < first + n → turns i = other i) :
    rebased bytes scope turns first n = rebased bytes scope other first n := by
  refine List.flatMap_congr fun i hi => ?_
  simp_all

theorem rebased_none {turns : Nat → Bool} {first n : Nat} (h : ∀ i, first ≤ i → i < first + n → turns i = false) :
    rebased bytes scope turns first n = (bytes.drop first).take n := by
  rw [take_drop_eq_flatMap, rebased_congr h]
  rfl

theorem rebased_append (bytes scope : Bytes) (turns : Nat → Bool) (first m n : Nat) :
    rebased bytes scope turns first (m + n) =
      rebased bytes scope turns first m ++ rebased bytes scope turns (first + m) n := by grind [rebased]

theorem rebased_one (bytes scope : Bytes) (turns : Nat → Bool) (first : Nat) :
    rebased bytes scope turns first 1 = if turns first then scope else bytes[first]?.toList := by
  simp [rebased]

theorem foldl_rebaseStep (bytes scope : Bytes) (length : Nat) (es : List Nat) (hsorted : es.Pairwise (· < ·))
    (hes : ∀ e ∈ es, byteAt (· == equalsByte) bytes e = true) (out : Bytes) (first : Nat) (hfirst : ∀ e ∈ es, first ≤ e)
    (hle : first ≤ length) :
    (es.foldl (rebaseStep bytes scope length) (out, first)).1 ++
        (bytes.take length).drop (es.foldl (rebaseStep bytes scope length) (out, first)).2 =
      out ++ rebased bytes scope (fun i => es.any fun e => rewrittenFrom bytes scope length e == some i) first
        (length - first) := by
  induction es generalizing out first with
  | nil =>
    rw [rebased_none (by simp), List.foldl_nil, List.drop_take]
  | cons e es ih =>
    obtain ⟨hbelow, hrest⟩ := List.pairwise_cons.1 hsorted
    have he := hes e List.mem_cons_self
    have hes' : ∀ e' ∈ es, byteAt (· == equalsByte) bytes e' = true := fun e' h => hes e' (List.mem_cons_of_mem _ h)
    rw [List.foldl_cons]
    cases hfrom : rewrittenFrom bytes scope length e with
    | none => simp_all [rebaseStep]
    | some slash =>
      obtain ⟨hleads, hlt, -⟩ := (rewrittenFrom_iff he).1 hfrom
      have hslash : first ≤ slash := le_trans (hfirst e List.mem_cons_self) (le_of_lt hleads.lt)
      -- the slashes that the later `=` lead to come after this one
      have hlater : ∀ e' ∈ es, slash < e' := fun e' h => hleads.lt_of_equals (hes' e' h) (hbelow e' h)
      have hbehind : ∀ i ≤ slash, (es.any fun e' => rewrittenFrom bytes scope length e' == some i) = false := by
        intro i hi
        rw [List.any_eq_false]
        intro e' he' hsome
        have := ((rewrittenFrom_iff (hes' e' he')).1 (beq_iff_eq.1 hsome)).1.lt
        have := hlater e' he'
        omega
      have hother : ∀ i, slash ≠ i → ((e :: es).any fun e' => rewrittenFrom bytes scope length e' == some i) =
          es.any fun e' => rewrittenFrom bytes scope length e' == some i := by grind
      have hhead : rebased bytes scope (fun i => (e :: es).any fun e' => rewrittenFrom bytes scope length e' == some i)
          first (slash - first) = (bytes.drop first).take (slash - first) :=
        rebased_none fun i h1 h2 => (hother i (by omega)).trans (hbehind i (by omega))
      have htail : rebased bytes scope (fun i => (e :: es).any fun e' => rewrittenFrom bytes scope length e' == some i)
          (slash + 1) (length - (slash + 1)) =
          rebased bytes scope (fun i => es.any fun e' => rewrittenFrom bytes scope length e' == some i)
            (slash + 1) (length - (slash + 1)) :=
        rebased_congr fun i h1 h2 => hother i (by omega)
      simp only [rebaseStep, hfrom]
      rw [ih hrest hes' _ (slash + 1) (fun e' h => hlater e' h) hlt,
        show length - first = (slash - first) + (1 + (length - (slash + 1))) by omega, rebased_append, rebased_append,
        show first + (slash - first) = slash by omega, rebased_one, hhead, htail]
      simp [hfrom, List.drop_take]

theorem rebaseMarkupBytes_eq (bytes scope : Bytes) (length : Nat) (hscope : scope ≠ [slashByte]) :
    rebaseMarkupBytes bytes scope length = rebased bytes scope (rewritten bytes scope length) 0 length := by
  unfold rebaseMarkupBytes
  by_cases hzero : length = 0
  · simp [hzero, rebased]
  rw [if_neg (by simp [hscope, hzero])]
  have hloop := foldl_rebaseStep bytes scope length (equalsBelow bytes length)
    (List.pairwise_lt_range.filter _) (fun e he => (mem_equalsBelow.1 he).2) [] 0 (fun e _ => Nat.zero_le e)
    (Nat.zero_le _)
  exact hloop

end YuriRtc
