import YuriRtc.Preconditions
import YuriRtc.StaticComplete
/-!
# StaticPreconditions — which of its answers the static handler gives

RFC 9110 section 13.2.2 for a GET: `If-None-Match`, or else `If-Modified-Since`, then `If-Range` and `Range`.  The law is
stated on the header list with entity tags as section 8.8.3 writes them.  The handler of `content-node/handler.go` never
looks at `If-Range`, and its list of tags is read more loosely than the grammar (`LooseMember`).
-/
namespace YuriRtc

/-! ### Entity tags -/

structure EntityTag where
  weak : Bool
  tag : List Char
deriving DecidableEq, Repr

/-- `etagc` -/
def isEtagChar (c : Char) : Bool := c.toNat == 0x21 || (0x23 ≤ c.toNat && c.toNat ≤ 0x7e) || 0x80 ≤ c.toNat

def quoted (tag : List Char) : List Char := '"' :: tag ++ ['"']

def parseQuoted (text : List Char) : Option (List Char) :=
  match text with
  | '"' :: rest => if rest.getLast? = some '"' ∧ rest.dropLast.all isEtagChar then some rest.dropLast else none
  | _ => none

def parseEntityTag (text : List Char) : Option EntityTag :=
  match text with
  | 'W' :: '/' :: rest => (parseQuoted rest).map (⟨true, ·⟩)
  | text => (parseQuoted text).map (⟨false, ·⟩)

def EntityTag.WeaklyEqual (a b : EntityTag) : Prop := a.tag = b.tag

instance (a b : EntityTag) : Decidable (a.WeaklyEqual b) := inferInstanceAs (Decidable (_ = _))

def EntityTag.StronglyEqual (a b : EntityTag) : Prop := a.weak = false ∧ b.weak = false ∧ a.tag = b.tag

instance (a b : EntityTag) : Decidable (a.StronglyEqual b) := inferInstanceAs (Decidable (_ ∧ _ ∧ _))

def tagOf (file : FileVersion) : EntityTag := ⟨true, opaqueTag file⟩

theorem parseQuoted_eq_some {text tag : List Char} :
    parseQuoted text = some tag ↔ text = quoted tag ∧ tag.all isEtagChar = true := by
  unfold parseQuoted
  split
  · rename_i rest
    constructor
    · intro h
      split at h
      · rename_i hends
        cases h
        obtain ⟨front, rfl⟩ := List.getLast?_eq_some_iff.1 hends.1
        rw [List.dropLast_concat] at hends ⊢
        exact ⟨rfl, hends.2⟩
      · cases h
    · simp_all [quoted, List.cons.injEq, true_and]
  · rename_i hnot
    constructor
    · intro h
      cases h
    · rintro ⟨rfl, -⟩
      exact absurd rfl (hnot (tag ++ ['"']))

variable (file : FileVersion)

theorem isEtagChar_opaqueTag : (opaqueTag file).all isEtagChar = true := by
  have hdigits : ∀ n, ∀ c ∈ hexNat n, isEtagChar c = true := fun n => forall_mem_hexNat (by decide) n
  rw [List.all_eq_true]
  intro c hc
  simp only [opaqueTag, hexInt, List.mem_append, List.mem_singleton] at hc
  rcases hc with (hc | rfl) | hc
  · exact hdigits _ c hc
  · decide
  split at hc
  · rcases List.mem_cons.1 hc with rfl | hc
    · decide
    · exact hdigits _ c hc
  · exact hdigits _ c hc

theorem parseQuoted_quoted : parseQuoted (quoted (opaqueTag file)) = some (opaqueTag file) :=
  parseQuoted_eq_some.2 ⟨rfl, isEtagChar_opaqueTag file⟩

/-! ### The law -/

def members (value : List Char) : List (List Char) := (value.splitOn ',').map trimSpace

/-- The value is `*`, or names a tag weakly equal to the file's. -/
def NamesTag (value : List Char) (file : FileVersion) : Prop :=
  trimSpace value = ['*'] ∨ ∃ m ∈ members value, ∃ tag, parseEntityTag m = some tag ∧ tag.WeaklyEqual (tagOf file)

def CopyCurrent (parseTime : List Char → Option Int) (headers : HeaderPairs) (file : FileVersion) : Prop :=
  match joinedHeaderValue headers "if-none-match".toList with
  | some value => NamesTag value file
  | none =>
    let date := headerValue headers "if-modified-since".toList
    date ≠ [] ∧ ∃ since, parseTime date = some since ∧ file.modSecond ≤ since

/-- A validator of `If-Range`: a tag that is strongly equal to the file's, or its very date. -/
def ValidatorMatches (parseTime : List Char → Option Int) (value : List Char) (file : FileVersion) : Prop :=
  match parseEntityTag value with
  | some tag => tag.StronglyEqual (tagOf file)
  | none => parseTime value = some file.modSecond

/-- No `If-Range` stands against a range. -/
def RangeAllowed (parseTime : List Char → Option Int) (headers : HeaderPairs) (file : FileVersion) : Prop :=
  match headers.find? (fun pair => equalFold pair.1 "if-range".toList) with
  | some pair => ValidatorMatches parseTime pair.2 file
  | none => True

/-- **Section 13.2.2 for a GET**, on the status and the length of the answer. -/
structure FollowsRFC9110 (parseTime : List Char → Option Int) (headers : HeaderPairs) (file : FileVersion) (status : Nat)
    (length : Option Nat) : Prop where
  notModified : status = 304 ↔ CopyCurrent parseTime headers file
  range : status = 206 ∨ status = 416 →
    headerValue headers "range".toList ≠ [] ∧ RangeAllowed parseTime headers file
  full : status ≠ 304 → status ≠ 206 → status ≠ 416 → status = 200 ∧ length = some file.size

/-! ### What the handler reads into a list of tags -/

/-- A member that is no entity tag and is taken for the file's: a star beside other members, or the tag behind a `w/`, or
with blanks behind its `W/`. -/
def LooseMember (file : FileVersion) (m : List Char) : Prop :=
  m = ['*'] ∨ ∃ c rest, m = c :: '/' :: rest ∧ (c = 'W' ∨ c = 'w') ∧ trimSpace rest = quoted (opaqueTag file) ∧
    (c = 'w' ∨ rest ≠ quoted (opaqueTag file))

/-- Every member of `If-None-Match` is what the grammar has. -/
def StrictTags (headers : HeaderPairs) (file : FileVersion) : Prop :=
  ∀ value, joinedHeaderValue headers "if-none-match".toList = some value → ∀ m ∈ members value, ¬ LooseMember file m

theorem trimSpace_quoted : trimSpace (quoted (opaqueTag file)) = quoted (opaqueTag file) :=
  trimSpace_between (by decide) (by decide) _

theorem weakETag_eq_iff {m : List Char} (hm : trimSpace m = m) (file : FileVersion) :
    weakETag m = quoted (opaqueTag file) ↔
      m = quoted (opaqueTag file) ∨
        ∃ c rest, m = c :: '/' :: rest ∧ (c = 'W' ∨ c = 'w') ∧ trimSpace rest = quoted (opaqueTag file) := by
  unfold weakETag
  rw [hm]
  split
  · rename_i c rest
    split
    · grind [quoted]
    · simp_all
  · simp_all

theorem parseEntityTag_weaklyEqual {m : List Char} {file : FileVersion} :
    (∃ tag, parseEntityTag m = some tag ∧ tag.WeaklyEqual (tagOf file)) ↔
      m = quoted (opaqueTag file) ∨ m = 'W' :: '/' :: quoted (opaqueTag file) := by
  have hall := isEtagChar_opaqueTag file
  unfold parseEntityTag
  split
  · rename_i rest
    constructor
    · rintro ⟨tag, hparse, hequal⟩
      obtain ⟨text, htext, rfl⟩ := Option.map_eq_some_iff.1 hparse
      obtain ⟨hrest, -⟩ := parseQuoted_eq_some.1 htext
      exact .inr (by rw [hrest, show text = opaqueTag file from hequal])
    rintro (h | h)
    · simp [quoted] at h
    · simp only [List.cons.injEq, true_and] at h
      exact ⟨tagOf file, by rw [h, parseQuoted_quoted]; rfl, rfl⟩
  · rename_i hplain
    constructor
    · rintro ⟨tag, hparse, hequal⟩
      obtain ⟨text, htext, rfl⟩ := Option.map_eq_some_iff.1 hparse
      obtain ⟨hm, -⟩ := parseQuoted_eq_some.1 htext
      exact .inl (by rw [hm, show text = opaqueTag file from hequal])
    rintro (rfl | h)
    · exact ⟨⟨false, opaqueTag file⟩, by rw [parseQuoted_quoted]; rfl, rfl⟩
    · exact absurd h (hplain _)

theorem member_matches_iff {m : List Char} (hm : trimSpace m = m) (file : FileVersion) :
    (m == ['*'] || weakETag m == weakETag (staticETag file)) = true ↔
      (∃ tag, parseEntityTag m = some tag ∧ tag.WeaklyEqual (tagOf file)) ∨ LooseMember file m := by
  have htag : weakETag (staticETag file) = quoted (opaqueTag file) := weakETag_staticETag file
  rw [Bool.or_eq_true, beq_iff_eq, beq_iff_eq, htag, weakETag_eq_iff hm, parseEntityTag_weaklyEqual]
  constructor
  · rintro (hstar | hplain | ⟨c, rest, hm, hmark, htag⟩)
    · exact .inr (.inl hstar)
    · exact .inl (.inl hplain)
    by_cases hstrict : c = 'W' ∧ rest = quoted (opaqueTag file)
    · exact .inl (.inr (by rw [hm, hstrict.1, hstrict.2]))
    · refine .inr (.inr ⟨c, rest, hm, hmark, htag, ?_⟩)
      grind
  · rintro ((hplain | hweak) | hstar | ⟨c, rest, hm, hmark, htag, -⟩)
    · exact .inr (.inl hplain)
    · exact .inr (.inr ⟨'W', _, hweak, .inl rfl, trimSpace_quoted file⟩)
    · exact .inl hstar
    · exact .inr (.inr ⟨c, rest, hm, hmark, htag⟩)

theorem ifNoneMatch_iff (value : List Char) (file : FileVersion) :
    ifNoneMatch value (staticETag file) = true ↔ NamesTag value file ∨ ∃ m ∈ members value, LooseMember file m := by
  have hmember := fun candidate => member_matches_iff (m := trimSpace candidate) (Text.trim_trim isGoSpace candidate) file
  have hstar : trimSpace value = ['*'] → ∃ m ∈ members value, LooseMember file m := by
    intro hvalue
    -- a value with a comma keeps it
    have hcomma : ',' ∉ value := by
      intro hmem
      have hkept : ',' ∈ trimSpace value := Text.mem_trim hmem (by decide)
      simp_all
    refine ⟨['*'], ?_, .inl rfl⟩
    simp_all [members, List.splitOn_eq_singleton]
  rw [ifNoneMatch, List.any_eq_true]
  constructor
  · rintro ⟨candidate, hcandidate, hmatch⟩
    have hmem : trimSpace candidate ∈ members value := List.mem_map_of_mem hcandidate
    rcases (hmember candidate).1 hmatch with htag | hloose
    · exact .inl (.inr ⟨_, hmem, htag⟩)
    · exact .inr ⟨_, hmem, hloose⟩
  · intro h
    have hany : ∃ m ∈ members value,
        (∃ tag, parseEntityTag m = some tag ∧ tag.WeaklyEqual (tagOf file)) ∨ LooseMember file m := by
      rcases h with (hvalue | ⟨m, hm, htag⟩) | ⟨m, hm, hloose⟩
      · grind
      · exact ⟨m, hm, .inl htag⟩
      · exact ⟨m, hm, .inr hloose⟩
    obtain ⟨m, hm, hmatch⟩ := hany
    obtain ⟨candidate, hcandidate, rfl⟩ := List.mem_map.1 hm
    exact ⟨candidate, hcandidate, (hmember candidate).2 hmatch⟩

theorem requestNotModified_iff (parseTime : List Char → Option Int) (headers : HeaderPairs) (file : FileVersion) :
    requestNotModified parseTime true headers file = true ↔
      CopyCurrent parseTime headers file ∨ ¬ StrictTags headers file := by
  unfold requestNotModified CopyCurrent StrictTags
  rw [if_neg (by decide)]
  cases joinedHeaderValue headers "if-none-match".toList with
  | some value => simp [ifNoneMatch_iff]
  | none =>
    have hstrict : ∀ value, none = some value → ∀ m ∈ members value, ¬ LooseMember file m := fun value h => by cases h
    rw [or_iff_left (not_not.2 hstrict)]
    dsimp only
    generalize headerValue headers "if-modified-since".toList = date
    by_cases hdate : date = []
    · simp [hdate]
    simp only [hdate, if_false, ne_eq, not_false_eq_true, true_and]
    cases parseTime date with
    | none => simp
    | some since => simp

/-! ### The answer of the handler -/

/-- What `static` makes of the headers of a GET. -/
def staticRequest (parseTime : List Char → Option Int) (headers : HeaderPairs) (file : FileVersion) (takesGzip : Bool) :
    StaticRequest :=
  ⟨false, headerValue headers "range".toList, takesGzip, requestNotModified parseTime true headers file⟩

namespace StaticEnv

variable {codec : GzipCodec} (env : StaticEnv codec)

variable {wireGzip : Bool}

theorem head_of_ending {frames : List StaticFrame} {status : Nat} {length : Option Nat}
    (h : .head status length wireGzip ∈ (env.ending frames).1) : .head status length wireGzip ∈ frames := by
  grind [ending]

theorem head_of_headOnly {status status' : Nat} {length length' : Option Nat}
    (h : .head status length wireGzip ∈ (env.headOnly status' length').1) : status = status' := by
  unfold headOnly at h
  split at h
  · cases h
  · cases List.mem_singleton.1 (env.head_of_ending h)
    rfl

theorem static_head {request : StaticRequest} (hget : request.isHead = false) {status : Nat} {length : Option Nat}
    (h : .head status length wireGzip ∈ (env.static request).1) :
    (request.notModified = true ∧ status = 304) ∨ (request.notModified = false ∧
      ((env.extent request = none ∧ status = 416) ∨
        ∃ start size, env.extent request = some (status, start, size) ∧ length = some size)) := by
  unfold static at h
  cases hcurrent : request.notModified with
  | true =>
    rw [hcurrent, if_pos rfl] at h
    exact .inl ⟨rfl, env.head_of_headOnly h⟩
  | false =>
    rw [hcurrent, if_neg Bool.false_ne_true] at h
    refine .inr ⟨rfl, ?_⟩
    rcases hextent : env.extent request with - | ⟨found, start, size⟩
    · rw [hextent] at h
      exact .inl ⟨rfl, env.head_of_headOnly h⟩
    rw [hextent] at h
    dsimp only at h
    rw [hget, if_neg Bool.false_ne_true] at h
    -- every early return sends no frame at all
    split at h
    · cases h
    · cases h
    split at h
    · cases h
    split at h
    · cases h
    rename_i path _ _ _
    have hbodies : ∀ bodies : List Bytes, .head status length wireGzip ∈
        StaticFrame.head found (some size) path.wireGzip :: bodies.map .body → status = found ∧ length = some size := by
      simp_all
    have hboth : status = found ∧ length = some size := by
      split at h
      · exact hbodies _ (env.head_of_ending h)
      · exact hbodies _ h
    simp [hboth.1, hboth.2]

/-- **Where the handler follows section 13.2.2**: the copy is current, or no tag is written loosely and no `If-Range` stands
against a `Range` that is there. -/
theorem static_preconditions_iff (parseTime : List Char → Option Int) (headers : HeaderPairs) (file : FileVersion)
    (takesGzip : Bool) (hsize : env.size = file.size) (status : Nat) (length : Option Nat) (wireGzip : Bool)
    (hhead : .head status length wireGzip ∈ (env.static (staticRequest parseTime headers file takesGzip)).1) :
    FollowsRFC9110 parseTime headers file status length ↔
      CopyCurrent parseTime headers file ∨ (StrictTags headers file ∧
        (headerValue headers "range".toList = [] ∨ RangeAllowed parseTime headers file)) := by
  have hnotModified := requestNotModified_iff parseTime headers file
  rcases env.static_head rfl hhead with ⟨hcurrent, rfl⟩ | ⟨hcurrent, hextent⟩
  · change requestNotModified parseTime true headers file = true at hcurrent
    constructor
    · exact fun hlaw => .inl (hlaw.notModified.1 rfl)
    intro hcond
    have hcopy : CopyCurrent parseTime headers file := by
      rcases hnotModified.1 hcurrent with hcopy | hloose
      · exact hcopy
      rcases hcond with hcopy | ⟨hstrict, -⟩
      · exact hcopy
      · exact absurd hstrict hloose
    exact ⟨⟨fun _ => hcopy, fun _ => rfl⟩, fun h => by omega, fun h => absurd rfl h⟩
  · change requestNotModified parseTime true headers file = false at hcurrent
    have hneither : ¬ CopyCurrent parseTime headers file ∧ StrictTags headers file := by
      have hnot : ¬ (CopyCurrent parseTime headers file ∨ ¬ StrictTags headers file) := fun h => by
        rw [hnotModified.2 h] at hcurrent
        cases hcurrent
      rw [not_or, not_not] at hnot
      exact hnot
    have hcond : (CopyCurrent parseTime headers file ∨ (StrictTags headers file ∧
        (headerValue headers "range".toList = [] ∨ RangeAllowed parseTime headers file))) ↔
        (headerValue headers "range".toList = [] ∨ RangeAllowed parseTime headers file) := by
      rw [or_iff_right hneither.1, and_iff_right hneither.2]
    rw [hcond]
    unfold extent staticRequest at hextent
    dsimp only at hextent
    by_cases hrange : headerValue headers "range".toList = []
    · rw [if_pos hrange] at hextent
      rcases hextent with ⟨hnone, -⟩ | ⟨start, size, heq, rfl⟩
      · cases hnone
      cases heq
      refine ⟨fun _ => .inl hrange, fun _ => ⟨⟨fun h => by omega, fun h => absurd h hneither.1⟩, fun h => by omega,
        fun _ _ _ => ⟨rfl, by rw [hsize]⟩⟩⟩
    · rw [if_neg hrange] at hextent
      have hhonoured : status = 206 ∨ status = 416 := by
        rcases hextent with ⟨-, rfl⟩ | ⟨start, size, heq, -⟩
        · exact .inr rfl
        obtain ⟨r, -, hr⟩ := Option.map_eq_some_iff.1 heq
        cases hr
        exact .inl rfl
      constructor
      · exact fun hlaw => .inr (hlaw.range hhonoured).2
      intro h
      refine ⟨⟨fun h304 => by omega, fun h => absurd h hneither.1⟩, fun _ => ⟨hrange, h.resolve_left hrange⟩,
        fun _ h206 h416 => ?_⟩
      rcases hhonoured with h | h
      · exact absurd h h206
      · exact absurd h h416

def twoBytes : FileVersion := ⟨2, 0, [7, 7]⟩

/-- The first byte, for a page that has another version. -/
def otherRange : HeaderPairs := [("If-None-Match".toList, "\"stale\"".toList), ("Range".toList, "bytes=0-0".toList)]

/-- The first byte, for a page that has this version. -/
def currentRange : HeaderPairs := [("If-None-Match".toList, staticETag twoBytes), ("Range".toList, "bytes=0-0".toList)]

theorem static_preconditions_ranges :
    FollowsRFC9110 (fun _ => none) otherRange twoBytes 206 (some 1) ∧
      FollowsRFC9110 (fun _ => none) currentRange twoBytes 304 none := by
  constructor
  · refine (static_preconditions_iff shrunkFile (fun _ => none) otherRange twoBytes false rfl 206 (some 1) false
      (by decide +kernel)).2 (.inr ⟨fun value hvalue m hm => ?_, .inr ?_⟩)
    · have hjoined : joinedHeaderValue otherRange "if-none-match".toList = some "\"stale\"".toList := by decide
      cases hjoined.symm.trans hvalue
      rw [show members "\"stale\"".toList = ["\"stale\"".toList] by decide, List.mem_singleton] at hm
      rintro (hstar | ⟨c, rest, hmark, -⟩)
      · exact absurd (hm.symm.trans hstar) (by decide)
      · cases hm.symm.trans hmark
    · have hnone : otherRange.find? (fun pair => equalFold pair.1 "if-range".toList) = none := by decide
      rw [RangeAllowed, hnone]
      trivial
  · refine (static_preconditions_iff shrunkFile (fun _ => none) currentRange twoBytes false rfl 304 none false
      (by decide +kernel)).2 (.inl ?_)
    have hjoined : joinedHeaderValue currentRange "if-none-match".toList = some (staticETag twoBytes) := by decide +kernel
    rw [CopyCurrent, hjoined]
    exact .inr ⟨staticETag twoBytes, by decide +kernel, tagOf twoBytes, by decide +kernel, rfl⟩

/-- The first byte, if the tag is still `"stale"`. -/
def staleRange : HeaderPairs := [("Range".toList, "bytes=0-0".toList), ("If-Range".toList, "\"stale\"".toList)]

def lateStar : HeaderPairs := [("If-None-Match".toList, "\"stale\"".toList), ("if-none-match".toList, "*".toList)]

/-- **A range of a file that has changed is sent as if it had not**, and a star that is not alone stands for every file. -/
theorem stale_range_served :
    (.head 206 (some 1) false ∈ (shrunkFile.static (staticRequest (fun _ => none) staleRange twoBytes false)).1 ∧
      ¬ FollowsRFC9110 (fun _ => none) staleRange twoBytes 206 (some 1)) ∧
    (.head 304 none false ∈ (shrunkFile.static (staticRequest (fun _ => none) lateStar twoBytes false)).1 ∧
      ¬ FollowsRFC9110 (fun _ => none) lateStar twoBytes 304 none) := by
  refine ⟨⟨by decide +kernel, fun hlaw => ?_⟩, by decide +kernel, fun hlaw => ?_⟩
  · have hallowed := (hlaw.range (.inl rfl)).2
    have htag : parseEntityTag "\"stale\"".toList = some ⟨false, "stale".toList⟩ := by decide
    have hfind : staleRange.find? (fun pair => equalFold pair.1 "if-range".toList) =
        some ("If-Range".toList, "\"stale\"".toList) := by decide
    simp only [RangeAllowed, hfind, ValidatorMatches, htag] at hallowed
    cases hallowed.2.1
  · have hcopy := hlaw.notModified.1 rfl
    have hjoined : joinedHeaderValue lateStar "if-none-match".toList = some "\"stale\",*".toList := by decide
    simp only [CopyCurrent, hjoined] at hcopy
    have hmembers : members "\"stale\",*".toList = ["\"stale\"".toList, "*".toList] := by decide
    rcases hcopy with hstar | ⟨m, hm, tag, hparse, hequal⟩
    · exact absurd hstar (by decide)
    rw [hmembers, List.mem_cons, List.mem_singleton] at hm
    rcases hm with rfl | rfl
    · have htag : parseEntityTag "\"stale\"".toList = some ⟨false, "stale".toList⟩ := by decide
      cases htag.symm.trans hparse
      exact absurd hequal (by decide)
    · cases hparse

end StaticEnv

end YuriRtc
