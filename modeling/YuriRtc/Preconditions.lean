import YuriRtc.Protocol
import YuriRtc.StaticFile
/-!
# Preconditions — when the node answers that a copy is current

`content-node/static_wire.go` and the header lookups of `content-node/protocol.go`: `If-None-Match` goes before
`If-Modified-Since`, tags are compared weakly, dates by the second.  Parsing an HTTP date is a parameter.
-/
namespace YuriRtc

/-! ### Headers -/

abbrev HeaderPairs := List (List Char × List Char)

def equalFold (a b : List Char) : Bool := a.map Char.toLower == b.map Char.toLower

def headerValue (headers : HeaderPairs) (name : List Char) : List Char :=
  match headers.find? (fun pair => equalFold pair.1 name) with
  | some pair => pair.2
  | none => []

/-- All values of a header, joined by commas; `none` where there is none. -/
def joinedHeaderValue (headers : HeaderPairs) (name : List Char) : Option (List Char) :=
  match headers.filter (fun pair => equalFold pair.1 name) with
  | [] => none
  | values => some ([','].intercalate (values.map Prod.snd))

/-! ### Validators -/

/-- A file as `Stat` and the reads after it find it. -/
structure FileVersion where
  size : Nat
  modTimeNS : Int
  body : Bytes
deriving DecidableEq, Repr

/-- The verb `%x`. -/
def hexNat (n : Nat) : List Char := Nat.toDigits 16 n

def hexInt (n : Int) : List Char := if n < 0 then '-' :: hexNat n.natAbs else hexNat n.natAbs

def staticETag (file : FileVersion) : List Char :=
  ['W', '/', '"'] ++ hexNat file.size ++ ['-'] ++ hexInt file.modTimeNS ++ ['"']

def FileVersion.modSecond (file : FileVersion) : Int := file.modTimeNS / 1000000000

def weakETag (value : List Char) : List Char :=
  match trimSpace value with
  | c :: '/' :: rest => if c = 'W' ∨ c = 'w' then trimSpace rest else c :: '/' :: rest
  | other => other

def ifNoneMatch (value current : List Char) : Bool :=
  (value.splitOn ',').any fun candidate =>
    trimSpace candidate == ['*'] || weakETag (trimSpace candidate) == weakETag current

def requestNotModified (parseTime : List Char → Option Int) (getOrHead : Bool) (headers : HeaderPairs)
    (file : FileVersion) : Bool :=
  if getOrHead = false then false
  else
    match joinedHeaderValue headers "if-none-match".toList with
    | some value => ifNoneMatch value (staticETag file)
    | none =>
      let value := headerValue headers "if-modified-since".toList
      if value = [] then false
      else
        match parseTime value with
        | some since => decide (file.modSecond ≤ since)
        | none => false

/-! ### Tags of static files -/

theorem forall_mem_toDigitsCore {p : Char → Prop} (hp : ∀ n < 16, p (Nat.digitChar n)) (fuel n : Nat) (acc : List Char)
    (h : ∀ c ∈ acc, p c) : ∀ c ∈ Nat.toDigitsCore 16 fuel n acc, p c := by
  induction fuel generalizing n acc with
  | zero => exact h
  | succ fuel ih =>
    have hacc : ∀ c ∈ Nat.digitChar (n % 16) :: acc, p c := by
      intro c hc
      rcases List.mem_cons.1 hc with rfl | hc
      · exact hp _ (Nat.mod_lt _ (by decide))
      · exact h c hc
    simp only [Nat.toDigitsCore]
    split
    · exact hacc
    · exact ih _ _ hacc

theorem forall_mem_hexNat {p : Char → Prop} (hp : ∀ n < 16, p (Nat.digitChar n)) (n : Nat) : ∀ c ∈ hexNat n, p c :=
  forall_mem_toDigitsCore hp _ _ _ nofun

theorem comma_notMem_hexNat (n : Nat) : ',' ∉ hexNat n := fun h =>
  forall_mem_hexNat (p := fun c => c ≠ ',') (by decide) n ',' h rfl

theorem comma_notMem_hexInt (n : Int) : ',' ∉ hexInt n := by
  unfold hexInt
  split
  · simp [comma_notMem_hexNat]
  · exact comma_notMem_hexNat _

theorem trimSpace_between {a b : Char} (ha : isGoSpace a = false) (hb : isGoSpace b = false) (mid : List Char) :
    trimSpace (a :: mid ++ [b]) = a :: mid ++ [b] := by
  unfold trimSpace Text.trim
  simp [ha, hb]

def opaqueTag (file : FileVersion) : List Char := hexNat file.size ++ ['-'] ++ hexInt file.modTimeNS

variable (file : FileVersion)

theorem staticETag_eq : staticETag file = 'W' :: ('/' :: '"' :: opaqueTag file) ++ ['"'] := by
  simp [staticETag, opaqueTag]

theorem trimSpace_staticETag : trimSpace (staticETag file) = staticETag file := by
  rw [staticETag_eq]
  exact trimSpace_between (by decide) (by decide) _

theorem weakETag_staticETag : weakETag (staticETag file) = '"' :: opaqueTag file ++ ['"'] := by
  unfold weakETag
  rw [trimSpace_staticETag, staticETag_eq]
  exact trimSpace_between (by decide) (by decide) _

theorem ifNoneMatch_staticETag {cached current : FileVersion}
    (h : ifNoneMatch (staticETag cached) (staticETag current) = true) : staticETag cached = staticETag current := by
  have hcomma : ',' ∉ staticETag cached := by
    simp [staticETag, comma_notMem_hexNat, comma_notMem_hexInt]
  rw [ifNoneMatch, List.splitOn_eq_singleton hcomma] at h
  simp only [List.any_cons, List.any_nil, Bool.or_false, trimSpace_staticETag, weakETag_staticETag, Bool.or_eq_true,
    beq_iff_eq] at h
  rcases h with hstar | hweak
  · rw [staticETag_eq] at hstar
    simp at hstar
  · rw [staticETag_eq, staticETag_eq]
    simpa using hweak

end YuriRtc
