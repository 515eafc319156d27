import YuriRtc.InjectionStream
/-!
# InjectionBytes — the stream's output against the whole document's

The first chunk is the encoding of a beginning of the document and perhaps the beginning of one more character
(`utf8_split`).  Both outputs are the document's bytes with the script put in at some place; `inject_stream_iff` says when it
is the same one.
-/
namespace YuriRtc

/-! ### UTF-8 -/

def firstChar (bytes : Bytes) : Option Char := bytes.toByteArray.utf8DecodeChar? 0

theorem firstChar_encode (c : Char) (rest : Bytes) : firstChar (String.utf8EncodeChar c ++ rest) = some c := by
  have h := List.utf8DecodeChar?_utf8Encode_singleton_append (b := rest.toByteArray) (c := c)
  rw [List.utf8Encode_singleton, ← List.toByteArray_append] at h
  exact h

variable {bytes : Bytes}

theorem firstChar_some {c : Char} (h : firstChar bytes = some c) :
    ∃ rest, bytes = String.utf8EncodeChar c ++ rest := by
  obtain ⟨rest, hrest⟩ := ByteArray.exists_of_utf8DecodeChar?_eq_some h
  refine ⟨rest.data.toList, ?_⟩
  have hdata := congrArg (fun b => b.data.toList) hrest
  simpa using hdata

theorem utf8EncodeChar_ne_nil (c : Char) : String.utf8EncodeChar c ≠ [] := by simp

theorem encode_prefix {c d : Char} {x y : Bytes} (h : String.utf8EncodeChar c ++ x = String.utf8EncodeChar d ++ y) :
    c = d ∧ x = y := by
  have hc := firstChar_encode c x
  simp_all [firstChar_encode]

theorem firstChar_cut (h : CutCharacter bytes) : firstChar bytes = none := by
  obtain ⟨-, c, ⟨more, hmore⟩, hne⟩ := h
  cases hfirst : firstChar bytes with
  | none => rfl
  | some d =>
    obtain ⟨rest, rfl⟩ := firstChar_some hfirst
    rw [List.append_assoc] at hmore
    obtain ⟨rfl, hnil⟩ := encode_prefix (hmore.trans (List.append_nil _).symm)
    simp_all

@[simp] theorem utf8_nil : utf8 [] = [] := rfl

@[simp] theorem utf8_cons (c : Char) (text : List Char) : utf8 (c :: text) = String.utf8EncodeChar c ++ utf8 text := rfl

@[simp] theorem utf8_append (x y : List Char) : utf8 (x ++ y) = utf8 x ++ utf8 y := List.flatMap_append

variable {text : List Char}

theorem utf8_split {x y : Bytes} (h : utf8 text = x ++ y) :
    ∃ seen rest q, text = seen ++ rest ∧ x = utf8 seen ++ q ∧
      (q = [] ∨ CutCharacter q ∧ ∃ c more, rest = c :: more ∧ q.length < (String.utf8EncodeChar c).length) := by
  induction text generalizing x with
  | nil => simp_all
  | cons c text ih =>
    rw [utf8_cons] at h
    rcases List.append_eq_append_iff.1 h with ⟨x', rfl, htext⟩ | ⟨z, hz, -⟩
    · obtain ⟨seen, rest, q, rfl, rfl, hq⟩ := ih htext
      exact ⟨c :: seen, rest, q, rfl, by simp, hq⟩
    · -- `x` ends in the first character
      by_cases hx : x = []
      · exact ⟨[], c :: text, [], rfl, by simpa using hx, .inl rfl⟩
      by_cases hznil : z = []
      · exact ⟨[c], text, [], rfl, by simp [hz, hznil], .inl rfl⟩
      have hlength : x.length < (String.utf8EncodeChar c).length := by
        rw [hz, List.length_append]
        grind
      refine ⟨[], c :: text, x, rfl, rfl, .inr ⟨⟨hx, c, ⟨z, hz.symm⟩, ?_⟩, c, text, rfl, hlength⟩⟩
      simp_all

theorem utf8_eq_append {c : Char} {y : Bytes} (h : utf8 text = String.utf8EncodeChar c ++ y) :
    ∃ rest, text = c :: rest ∧ utf8 rest = y := by
  cases text with
  | nil => exact absurd (List.append_eq_nil_iff.1 h.symm).1 (utf8EncodeChar_ne_nil c)
  | cons d rest =>
    obtain ⟨rfl, hrest⟩ := encode_prefix h
    exact ⟨rest, rfl, hrest⟩

/-! ### A decoder -/

def decodeChars : Nat → Bytes → List Char
  | 0, _ => []
  | fuel + 1, bytes =>
    match firstChar bytes with
    | some c => c :: decodeChars fuel (bytes.drop (String.utf8EncodeChar c).length)
    | none => if bytes = [] then [] else [replacementCharacter]

def dropMark (text : List Char) : List Char := if text.head? = some byteOrderMark then text.tail else text

variable {q : Bytes}

theorem decodeChars_append (hq : firstChar q = none) (text : List Char) (fuel : Nat) (hfuel : text.length < fuel) :
    decodeChars fuel (utf8 text ++ q) = text ++ (if q = [] then [] else [replacementCharacter]) := by
  induction text generalizing fuel with
  | nil =>
    obtain ⟨fuel, rfl⟩ : ∃ k, fuel = k + 1 := ⟨fuel - 1, by simp at hfuel; omega⟩
    by_cases hnil : q = [] <;> simp_all [decodeChars]
  | cons c text ih =>
    obtain ⟨fuel, rfl⟩ : ∃ k, fuel = k + 1 := ⟨fuel - 1, by simp at hfuel; omega⟩
    simp_all [utf8_cons, decodeChars, firstChar_encode]

theorem length_le_utf8 (text : List Char) : text.length ≤ (utf8 text).length := by
  induction text with
  | nil => exact le_refl 0
  | cons c text ih =>
    have := List.length_pos_iff.2 (utf8EncodeChar_ne_nil c)
    grind [utf8_cons]

def textDecoder : TextDecoder where
  decode bytes := dropMark (decodeChars (bytes.length + 1) bytes)
  whole text := by
    have h := decodeChars_append (q := []) rfl text ((utf8 text).length + 1) (Nat.lt_succ_of_le (length_le_utf8 text))
    simp only [List.append_nil, if_true] at h
    rw [h]
    rfl
  cut text bytes hcut := by
    have hlength : text.length < (utf8 text ++ bytes).length + 1 := by
      have := length_le_utf8 text
      rw [List.length_append]
      omega
    rw [decodeChars_append (firstChar_cut hcut) text _ hlength, if_neg hcut.1]
    cases text with
    | nil => decide
    | cons c text => by_cases hmark : c = byteOrderMark <;> simp_all [dropMark]

/-! ### The place in the bytes -/

def chunkPoint (decoder : TextDecoder) (chunk : Bytes) : Nat :=
  let hasBom := markBytes.isPrefixOf chunk
  let scanned := (if hasBom then [byteOrderMark] else []) ++ decoder.decode (chunk.drop (if hasBom then 3 else 0))
  (if hasBom then 3 else 0) + (utf8 ((scanned.take (injectionPoint scanned)).drop (if hasBom then 1 else 0))).length

def decodedChunk (decoder : TextDecoder) (chunk : Bytes) : List Char :=
  decoder.decode (chunk.drop (if markBytes.isPrefixOf chunk then 3 else 0))

variable (decoder : TextDecoder)

theorem injectIntoChunk_flatten (code : List Char) (chunk : Bytes)
    (hmarker : ¬ guardMarker <:+: decodedChunk decoder chunk) :
    (injectIntoChunk decoder code chunk).flatten =
      chunk.take (chunkPoint decoder chunk) ++ utf8 (injectionScript code) ++ chunk.drop (chunkPoint decoder chunk) := by
  have hcases : injectIntoChunk decoder code chunk =
      (if 0 < chunkPoint decoder chunk then [chunk.take (chunkPoint decoder chunk)] else []) ++
        [utf8 (injectionScript code)] ++
        (if chunkPoint decoder chunk < chunk.length then [chunk.drop (chunkPoint decoder chunk)] else []) := if_neg hmarker
  rw [hcases]
  generalize chunkPoint decoder chunk = at_
  have hfront : (if 0 < at_ then [chunk.take at_] else []).flatten = chunk.take at_ := by
    by_cases h : 0 < at_ <;> simp_all
  grind [List.drop_eq_nil_of_le]

theorem marker_in_seen {seen tail : List Char} (htail : tail = [] ∨ tail = [replacementCharacter])
    (h : guardMarker <:+: seen ++ tail) : guardMarker <:+: seen := by
  rcases htail with rfl | rfl
  · rwa [List.append_nil] at h
  rcases List.infix_concat_iff.1 h with hsuffix | hinfix
  · obtain ⟨before, hbefore⟩ := hsuffix
    have hlast := congrArg List.getLast? hbefore
    rw [List.getLast?_append, List.getLast?_concat, show guardMarker.getLast? = some '_' by decide, Option.some_or] at hlast
    exact absurd (Option.some.inj hlast) (by decide)
  · exact hinfix

theorem decode_split (seen : List Char) (hq : q = [] ∨ CutCharacter q) :
    ∃ tail, decoder.decode (utf8 seen ++ q) = dropMark seen ++ tail ∧ (tail = [] ∨ tail = [replacementCharacter]) := by
  rcases hq with rfl | hcut
  · exact ⟨[], by rw [List.append_nil, List.append_nil, decoder.whole]; rfl, .inl rfl⟩
  · exact ⟨_, decoder.cut seen q hcut, .inr rfl⟩

theorem utf8_injectInto {code html : List Char} (h : ¬ guardMarker <:+: html) :
    utf8 (injectInto code html) = utf8 (html.take (injectionPoint html)) ++
      (utf8 (injectionScript code) ++ utf8 (html.drop (injectionPoint html))) := by simp [injectInto, h, utf8_append]

theorem utf8_script (code : List Char) : ∃ rest, utf8 (injectionScript code) = 60 :: 115 :: rest :=
  ⟨_, rfl⟩

variable {html : List Char}

theorem insert_eq_iff (code : List Char) {mine whole : Nat} (h : mine = whole ∨ Ahead html mine whole) :
    utf8 (html.take mine) ++ (utf8 (injectionScript code) ++ utf8 (html.drop mine)) =
      utf8 (html.take whole) ++ (utf8 (injectionScript code) ++ utf8 (html.drop whole)) ↔ mine = whole := by
  constructor
  · intro heq
    rcases h with rfl | ⟨hlt, c, rest, hdrop, hstart⟩
    · rfl
    exfalso
    obtain ⟨k, hk⟩ := Nat.exists_eq_add_of_lt hlt
    have hbetween : html.take whole = html.take mine ++ c :: rest.take k := by
      rw [hk, Nat.add_assoc, List.take_add, hdrop, List.take_succ_cons]
    obtain ⟨more, hscript⟩ := utf8_script code
    rw [hbetween, utf8_append, List.append_assoc, List.append_cancel_left_eq, utf8_cons, hscript] at heq
    rcases hstart with hblank | ⟨rfl, htwo, d, rest', rfl, hd⟩
    · simp only [isAsciiWhitespace, Bool.or_eq_true, beq_iff_eq] at hblank
      rcases hblank with (((rfl | rfl) | rfl) | rfl) | rfl <;> exact absurd (List.cons.inj heq).1 (by decide)
    obtain ⟨k, rfl⟩ : ∃ j, k = j + 1 := ⟨k - 1, by omega⟩
    simp only [List.mem_cons, List.not_mem_nil, or_false] at hd
    rw [List.take_succ_cons, utf8_cons] at heq
    rcases hd with rfl | rfl | rfl | rfl | rfl <;>
      exact absurd (List.cons.inj (List.cons.inj heq).2).1 (by decide)
  · rintro rfl
    rfl

theorem injectionPoint_mark (html : List Char) : injectionPoint (byteOrderMark :: html) = 1 + prologuePoint html := by
  rw [injectionPoint, if_pos rfl]

theorem injectionPoint_of_head (h : html.head? ≠ some byteOrderMark) :
    injectionPoint html = prologuePoint html := by cases html <;> simp_all [injectionPoint]

theorem prologuePoint_le (html : List Char) : prologuePoint html ≤ html.length :=
  (prologuePoint_agree ⟨[], [], (List.append_nil _).symm, (List.append_nil _).symm, .inl rfl⟩).1

theorem injectionPoint_le (html : List Char) : injectionPoint html ≤ html.length := by
  by_cases h : html.head? = some byteOrderMark
  · obtain ⟨rest, rfl⟩ := List.head?_eq_some_iff.1 h
    have := prologuePoint_le rest
    rw [injectionPoint_mark, List.length_cons]
    omega
  · rw [injectionPoint_of_head h]
    exact prologuePoint_le html

structure Divides (chunk : Bytes) (seen rest : List Char) (q : Bytes) : Prop where
  bytes : chunk = utf8 seen ++ q
  cut : q = [] ∨ CutCharacter q ∧ ∃ c more, rest = c :: more ∧ q.length < (String.utf8EncodeChar c).length

variable {chunk : Bytes} {seen rest : List Char}

theorem Divides.clean (h : Divides chunk seen rest q) :
    q = [] ∨ CutCharacter q := h.cut.imp_right And.left

theorem Divides.reaches_iff (h : Divides chunk seen rest q) {k : Nat}
    (hk : k ≤ (seen ++ rest).length) : (utf8 ((seen ++ rest).take k)).length ≤ chunk.length ↔ k ≤ seen.length := by
  rw [h.bytes]
  constructor
  · intro hle
    by_contra hlong
    -- the next character is needed, and not all of it is there
    obtain ⟨c, more, rfl⟩ : ∃ c more, rest = c :: more := by
      cases rest with
      | nil => grind
      | cons c more => exact ⟨c, more, rfl⟩
    obtain ⟨j, hj⟩ := Nat.exists_eq_add_of_lt (Nat.lt_of_not_le hlong)
    have htake : (seen ++ c :: more).take k = seen ++ c :: more.take j := by
      rw [hj, Nat.add_assoc, List.take_length_add_append, List.take_succ_cons]
    rw [htake, utf8_append, utf8_cons, List.length_append, List.length_append, List.length_append] at hle
    have hpos := List.length_pos_iff.2 (utf8EncodeChar_ne_nil c)
    rcases h.cut with rfl | ⟨-, c', more', heq, hq⟩
    · simp_all
    · cases heq
      omega
  · intro hle
    have hparts : utf8 seen = utf8 (seen.take k) ++ utf8 (seen.drop k) := by rw [← utf8_append, List.take_append_drop]
    rw [List.take_append_of_le_length hle, hparts]
    simp only [List.length_append]
    omega

theorem utf8_take (html : List Char) (k : Nat) :
    (utf8 html).take (utf8 (html.take k)).length = utf8 (html.take k) ∧
      (utf8 html).drop (utf8 (html.take k)).length = utf8 (html.drop k) := by grind [utf8_append, List.take_append_drop]

theorem stream_flatten (code : List Char) {later : List Bytes}
    (hne : ∀ c ∈ chunk :: later, c ≠ []) (hbytes : (chunk :: later).flatten = utf8 html)
    (hmarker : ¬ guardMarker <:+: decodedChunk decoder chunk) (hle : chunkPoint decoder chunk ≤ chunk.length) :
    (injectIntoStream decoder code (chunk :: later)).flatten = (utf8 html).take (chunkPoint decoder chunk) ++
      (utf8 (injectionScript code) ++ (utf8 html).drop (chunkPoint decoder chunk)) := by
  have hlater : later.filter (· ≠ []) = later :=
    List.filter_eq_self.2 fun c hc => by simpa using hne c (List.mem_cons_of_mem _ hc)
  rw [injectIntoStream, if_neg (hne chunk List.mem_cons_self), hlater, List.flatten_append,
    injectIntoChunk_flatten decoder code chunk hmarker, ← hbytes, List.flatten_cons, List.take_append_of_le_length hle,
    List.drop_append_of_le_length hle]
  simp only [List.append_assoc]

/-- **The stream's place is one in the text.**  Then the outputs agree just when the chunk reaches the document's place. -/
theorem inject_of_agree (code : List Char) {chunk q : Bytes} {later : List Bytes}
    {mine : Nat} (hne : ∀ c ∈ chunk :: later, c ≠ [])
    (hbytes : (chunk :: later).flatten = utf8 (seen ++ rest)) (hwhole : ¬ guardMarker <:+: seen ++ rest)
    (hmarker : ¬ guardMarker <:+: decodedChunk decoder chunk) (hdiv : Divides chunk seen rest q)
    (hagree : Agree seen (seen ++ rest) mine (injectionPoint (seen ++ rest)))
    (hpoint : chunkPoint decoder chunk = (utf8 ((seen ++ rest).take mine)).length) :
    (injectIntoStream decoder code (chunk :: later)).flatten = utf8 (injectInto code (seen ++ rest)) ↔
      (utf8 ((seen ++ rest).take (injectionPoint (seen ++ rest)))).length ≤ chunk.length := by
  obtain ⟨hmine, hcase⟩ := hagree
  have hin : mine ≤ (seen ++ rest).length := by
    rw [List.length_append]
    omega
  have hle : chunkPoint decoder chunk ≤ chunk.length := hpoint ▸ (hdiv.reaches_iff hin).2 hmine
  rw [stream_flatten decoder code hne hbytes hmarker hle, hpoint, (utf8_take _ _).1, (utf8_take _ _).2,
    utf8_injectInto hwhole, insert_eq_iff code (hcase.imp_right And.right), hdiv.reaches_iff (injectionPoint_le _)]
  omega

/-! ### The first chunk -/

theorem utf8_mark : String.utf8EncodeChar byteOrderMark = markBytes := by decide

theorem isPrefixOf_mark (bytes : Bytes) : markBytes.isPrefixOf (markBytes ++ bytes) = true :=
  List.isPrefixOf_iff_prefix.2 (List.prefix_append _ _)

theorem decodedChunk_mark (bytes : Bytes) :
    decodedChunk decoder (markBytes ++ bytes) = decoder.decode bytes := by
  rw [decodedChunk, isPrefixOf_mark, if_pos rfl]
  rfl

theorem decodedChunk_of_not {decoder : TextDecoder} (h : markBytes.isPrefixOf chunk = false) :
    decodedChunk decoder chunk = decoder.decode chunk := by
  rw [decodedChunk, h]
  rfl

theorem chunkPoint_mark (bytes : Bytes) :
    chunkPoint decoder (markBytes ++ bytes) =
      3 + (utf8 ((decoder.decode bytes).take (prologuePoint (decoder.decode bytes)))).length := by
  have hdrop : (markBytes ++ bytes).drop 3 = bytes := rfl
  simp only [chunkPoint, isPrefixOf_mark, if_true, hdrop, List.singleton_append, injectionPoint_mark]
  grind

theorem chunkPoint_of_not {decoder : TextDecoder} (h : markBytes.isPrefixOf chunk = false) :
    chunkPoint decoder chunk =
      (utf8 ((decoder.decode chunk).take (injectionPoint (decoder.decode chunk)))).length := by
  simp [chunkPoint, h]

theorem not_marked {chunk y : Bytes} (hbytes : utf8 html = chunk ++ y)
    (hhead : html.head? ≠ some byteOrderMark) : markBytes.isPrefixOf chunk = false := by
  by_contra h
  obtain ⟨x, rfl⟩ := List.isPrefixOf_iff_prefix.1 (Bool.of_not_eq_false h)
  rw [List.append_assoc, ← utf8_mark] at hbytes
  obtain ⟨rest, rfl, -⟩ := utf8_eq_append hbytes
  exact hhead rfl

theorem dropMark_of_head (h : text.head? ≠ some byteOrderMark) : dropMark text = text := if_neg h

theorem head?_append_ne {x y : List Char} (h : (x ++ y).head? ≠ some byteOrderMark) : x.head? ≠ some byteOrderMark := by
  simp_all

theorem take_view {seen tail rest : List Char} {k : Nat} (h : k ≤ seen.length) :
    (seen ++ tail).take k = (seen ++ rest).take k := by grind

section Cases
variable (decoder : TextDecoder) (code : List Char) {chunk : Bytes} {later : List Bytes} {html : List Char}

theorem inject_unmarked (hne : ∀ c ∈ chunk :: later, c ≠ []) (hbytes : (chunk :: later).flatten = utf8 html)
    (hwhole : ¬ guardMarker <:+: html) (hhead : html.head? ≠ some byteOrderMark) :
    (injectIntoStream decoder code (chunk :: later)).flatten = utf8 (injectInto code html) ↔
      (utf8 (html.take (injectionPoint html))).length ≤ chunk.length := by
  have hmark := not_marked hbytes.symm hhead
  obtain ⟨seen, rest, q, rfl, hchunk, hq⟩ := utf8_split hbytes.symm
  have hdiv : Divides chunk seen rest q := ⟨hchunk, hq⟩
  obtain ⟨tail, hdecode, htail⟩ := decode_split decoder seen hdiv.clean
  rw [← hchunk, dropMark_of_head (head?_append_ne hhead)] at hdecode
  have hshown : (seen ++ tail).head? ≠ some byteOrderMark := by
    cases seen with
    | nil => rcases htail with rfl | rfl <;> decide
    | cons c seen => exact hhead
  have hview : View seen (seen ++ tail) (seen ++ rest) := ⟨tail, rest, rfl, rfl, htail⟩
  have hagree := prologuePoint_agree hview
  have hpoint : chunkPoint decoder chunk = (utf8 ((seen ++ rest).take (prologuePoint (seen ++ tail)))).length := by
    rw [chunkPoint_of_not hmark, hdecode, injectionPoint_of_head hshown, take_view hagree.1]
  refine inject_of_agree decoder code hne hbytes hwhole ?_ hdiv (injectionPoint_of_head hhead ▸ hagree) hpoint
  rw [decodedChunk_of_not hmark, hdecode]
  exact fun h => hwhole ((marker_in_seen htail h).trans (List.infix_append' [] seen rest))

theorem inject_cut_mark (hne : ∀ c ∈ chunk :: later, c ≠ [])
    (hbytes : (chunk :: later).flatten = utf8 (byteOrderMark :: html)) (hwhole : ¬ guardMarker <:+: byteOrderMark :: html)
    (hmark : markBytes.isPrefixOf chunk = false) :
    (injectIntoStream decoder code (chunk :: later)).flatten ≠ utf8 (injectInto code (byteOrderMark :: html)) ∧
      chunk.length < 3 := by
  obtain ⟨seen, rest, q, hsplit, hchunk, hq⟩ := utf8_split hbytes.symm
  have hseen : seen = [] := by
    cases seen with
    | nil => rfl
    | cons c seen =>
      -- all of the mark would be there
      cases hsplit
      simp_all [utf8_cons, utf8_mark, isPrefixOf_mark]
  subst hseen
  rw [List.nil_append] at hsplit
  subst hsplit
  rw [utf8_nil, List.nil_append] at hchunk
  subst hchunk
  rcases hq with rfl | ⟨hcut, c, more, heq, hlength⟩
  · exact absurd rfl (hne [] List.mem_cons_self)
  cases heq
  rw [utf8_mark] at hlength
  refine ⟨?_, hlength⟩
  have hdecode : decoder.decode chunk = [replacementCharacter] := decoder.cut [] chunk hcut
  have hzero : chunkPoint decoder chunk = 0 := by
    rw [chunkPoint_of_not hmark, hdecode]
    decide
  have hmarker : ¬ guardMarker <:+: decodedChunk decoder chunk := by
    rw [decodedChunk_of_not hmark, hdecode]
    decide
  rw [stream_flatten decoder code hne hbytes hmarker (hzero ▸ Nat.zero_le _), hzero, utf8_injectInto hwhole,
    injectionPoint_mark, Nat.add_comm 1, List.take_succ_cons, utf8_cons, utf8_mark]
  obtain ⟨script, hscript⟩ := utf8_script code
  rw [hscript]
  intro heq
  exact absurd (List.cons.inj heq).1 (by decide)

theorem inject_marked (hne : ∀ c ∈ (markBytes ++ bytes) :: later, c ≠ [])
    (hbytes : ((markBytes ++ bytes) :: later).flatten = utf8 (byteOrderMark :: html))
    (hwhole : ¬ guardMarker <:+: byteOrderMark :: html) (hsecond : markBytes.isPrefixOf bytes = false) :
    (injectIntoStream decoder code ((markBytes ++ bytes) :: later)).flatten = utf8 (injectInto code (byteOrderMark :: html)) ↔
      (utf8 ((byteOrderMark :: html).take (injectionPoint (byteOrderMark :: html)))).length ≤ (markBytes ++ bytes).length := by
  have hrest : utf8 html = bytes ++ later.flatten := by
    simp_all [List.flatten_cons, utf8_cons, utf8_mark, List.append_cancel_left_eq]
  obtain ⟨seen, rest, q, rfl, rfl, hq⟩ := utf8_split hrest
  have hhead : seen.head? ≠ some byteOrderMark := by
    intro hmark
    obtain ⟨more, rfl⟩ := List.head?_eq_some_iff.1 hmark
    simp_all [utf8_cons, utf8_mark, isPrefixOf_mark]
  have hdiv : Divides (markBytes ++ (utf8 seen ++ q)) (byteOrderMark :: seen) rest q :=
    ⟨by rw [utf8_cons, utf8_mark, List.append_assoc], hq⟩
  obtain ⟨tail, hdecode, htail⟩ := decode_split decoder seen hdiv.clean
  rw [dropMark_of_head hhead] at hdecode
  have hview : View seen (seen ++ tail) (seen ++ rest) := ⟨tail, rest, rfl, rfl, htail⟩
  have hinner := prologuePoint_agree hview
  have hagree : Agree (byteOrderMark :: seen) (byteOrderMark :: (seen ++ rest)) (1 + prologuePoint (seen ++ tail))
      (injectionPoint (byteOrderMark :: (seen ++ rest))) := by
    rw [injectionPoint_mark]
    exact hinner.shift (by simp)
  have hpoint : chunkPoint decoder (markBytes ++ (utf8 seen ++ q)) =
      (utf8 ((byteOrderMark :: (seen ++ rest)).take (1 + prologuePoint (seen ++ tail)))).length := by
    rw [chunkPoint_mark, hdecode, take_view hinner.1, Nat.add_comm 1, List.take_succ_cons, utf8_cons, utf8_mark,
      List.length_append]
    rfl
  refine inject_of_agree decoder code hne hbytes hwhole ?_ hdiv hagree hpoint
  rw [decodedChunk_mark, hdecode]
  exact fun h => hwhole ((marker_in_seen htail h).trans (List.infix_append' [byteOrderMark] seen rest))

theorem prologuePoint_byteOrderMark (rest : List Char) : prologuePoint (byteOrderMark :: rest) = 0 := by
  have hblanks : blanks (byteOrderMark :: rest) = 0 := by
    rw [blanks, List.takeWhile_cons_of_neg (by decide), List.length_nil]
  have hskips : Skips (byteOrderMark :: rest) (blanks (byteOrderMark :: rest)) := .stop _ (by rw [hblanks]; rfl)
  have htrivia : trivia (byteOrderMark :: rest) = 0 := by rw [← hblanks]; exact (skips_trivia _).unique hskips
  have hdoctype : doctypeEndAt (byteOrderMark :: rest) = none := by
    cases h : doctypeEndAt (byteOrderMark :: rest) with
    | none => rfl
    | some n =>
      obtain ⟨more, heq, -⟩ := doctypeEndAt_shape h
      exact absurd (List.cons.inj heq).1 (by decide)
  have htag : startTagAt (byteOrderMark :: rest) = none := by
    cases h : startTagAt (byteOrderMark :: rest) with
    | none => rfl
    | some tag =>
      obtain ⟨name, n⟩ := tag
      obtain ⟨c, more, heq, -⟩ := startTagAt_shape h
      exact absurd (List.cons.inj heq).1 (by decide)
  simp_all [prologuePoint_of_none, rootPoint, List.drop_zero, elementPoint_of_none]

theorem inject_two_marks (hne : ∀ c ∈ (markBytes ++ (markBytes ++ bytes)) :: later, c ≠ [])
    (hbytes : ((markBytes ++ (markBytes ++ bytes)) :: later).flatten = utf8 (byteOrderMark :: html))
    (hwhole : ¬ guardMarker <:+: byteOrderMark :: html) :
    (injectIntoStream decoder code ((markBytes ++ (markBytes ++ bytes)) :: later)).flatten =
        utf8 (injectInto code (byteOrderMark :: html)) ↔
      prologuePoint (decoder.decode (markBytes ++ bytes)) = 0 := by
  have hrest : utf8 html = markBytes ++ (bytes ++ later.flatten) := by
    simpa [List.flatten_cons, utf8_cons, utf8_mark, List.append_cancel_left_eq] using hbytes.symm
  rw [← utf8_mark] at hrest
  obtain ⟨html, rfl, hinner⟩ := utf8_eq_append hrest
  obtain ⟨seen, rest, q, rfl, rfl, hq⟩ := utf8_split hinner
  obtain ⟨tail, hdecode, htail⟩ := decode_split decoder (byteOrderMark :: seen) (hq.imp_right And.left)
  have hshown : decoder.decode (markBytes ++ (utf8 seen ++ q)) = seen ++ tail := by
    rw [utf8_cons, utf8_mark, List.append_assoc] at hdecode
    exact hdecode
  have hview : View seen (seen ++ tail) (seen ++ rest) := ⟨tail, rest, rfl, rfl, htail⟩
  have hagree := prologuePoint_agree hview
  have hpoint := chunkPoint_mark decoder (markBytes ++ (utf8 seen ++ q))
  rw [hshown, List.take_append_of_le_length hagree.1] at hpoint
  have hle : chunkPoint decoder (markBytes ++ (markBytes ++ (utf8 seen ++ q))) ≤
      (markBytes ++ (markBytes ++ (utf8 seen ++ q))).length := by
    have hparts : utf8 seen = utf8 (seen.take (prologuePoint (seen ++ tail))) ++ utf8 (seen.drop (prologuePoint (seen ++ tail))) := by
      rw [← utf8_append, List.take_append_drop]
    have hlength := congrArg List.length hparts
    rw [List.length_append] at hlength
    rw [hpoint]
    simp only [List.length_append]
    have : markBytes.length = 3 := rfl
    omega
  have hmarker : ¬ guardMarker <:+: decodedChunk decoder (markBytes ++ (markBytes ++ (utf8 seen ++ q))) := by
    rw [decodedChunk_mark, hshown]
    exact fun h => hwhole ((marker_in_seen htail h).trans (List.infix_append' [byteOrderMark, byteOrderMark] seen rest))
  rw [stream_flatten decoder code hne hbytes hmarker hle, hpoint, utf8_injectInto hwhole, injectionPoint_mark,
    prologuePoint_byteOrderMark, hshown]
  obtain ⟨script, hscript⟩ := utf8_script code
  constructor
  · intro heq
    by_contra hpos
    -- the fourth byte is the second mark's in the stream, and the script's in the whole
    obtain ⟨k, hk⟩ : ∃ k, (utf8 (seen.take (prologuePoint (seen ++ tail)))).length = k + 1 := by
      have hlength := length_le_utf8 (seen.take (prologuePoint (seen ++ tail)))
      rw [List.length_take, Nat.min_eq_left hagree.1] at hlength
      exact ⟨_, (Nat.succ_pred_eq_of_pos (by omega)).symm⟩
    rw [hk, hscript, utf8_cons, utf8_cons, utf8_mark] at heq
    have hfourth := congrArg (fun l : Bytes => l[3]?) heq
    rw [show 3 + (k + 1) = k + 1 + 1 + 1 + 1 by omega] at hfourth
    exact absurd (Option.some.inj hfourth) (by decide)
  · intro hzero
    rw [hzero]
    rfl

end Cases

/-- **Injection into a stream.**  For every document without the guard and every division into chunks, the stream's output
is the encoding of `injectInto`'s just when the first chunk reaches the place of the injection in the document, and where the
chunk begins with two byte order marks, no prologue follows them in it. -/
theorem inject_stream_iff (decoder : TextDecoder) (code html : List Char) (chunks : List Bytes)
    (hne : ∀ chunk ∈ chunks, chunk ≠ []) (hbytes : chunks.flatten = utf8 html) (hmarker : ¬ guardMarker <:+: html) :
    (injectIntoStream decoder code chunks).flatten = utf8 (injectInto code html) ↔
      (utf8 (html.take (injectionPoint html))).length ≤ (chunks.headD []).length ∧
        ∀ bytes, chunks.headD [] = markBytes ++ (markBytes ++ bytes) →
          prologuePoint (decoder.decode (markBytes ++ bytes)) = 0 := by
  cases chunks with
  | nil =>
    have hhtml : html = [] := by
      cases html with
      | nil => rfl
      | cons c rest => exact absurd (List.append_eq_nil_iff.1 hbytes.symm).1 (utf8EncodeChar_ne_nil c)
    subst hhtml
    rw [utf8_injectInto hmarker]
    simp [injectIntoStream, markBytes]
  | cons chunk later =>
    rw [List.headD_cons]
    by_cases hhead : html.head? = some byteOrderMark
    · obtain ⟨html, rfl⟩ := List.head?_eq_some_iff.1 hhead
      cases hmark : markBytes.isPrefixOf chunk with
      | false =>
        obtain ⟨hdiffer, hshort⟩ := inject_cut_mark decoder code hne hbytes hmarker hmark
        refine iff_of_false hdiffer fun hboth => ?_
        -- the mark alone is longer than the chunk
        have hlength := hboth.1
        rw [injectionPoint_mark, Nat.add_comm 1, List.take_succ_cons, utf8_cons, utf8_mark, List.length_append] at hlength
        have : markBytes.length = 3 := rfl
        omega
      | true =>
        obtain ⟨bytes, rfl⟩ := List.isPrefixOf_iff_prefix.1 hmark
        cases hsecond : markBytes.isPrefixOf bytes with
        | false =>
          rw [inject_marked decoder code hne hbytes hmarker hsecond]
          refine (and_iff_left fun more heq => ?_).symm
          rw [List.append_cancel_left_eq] at heq
          rw [heq, isPrefixOf_mark] at hsecond
          cases hsecond
        | true =>
          obtain ⟨more, rfl⟩ := List.isPrefixOf_iff_prefix.1 hsecond
          rw [inject_two_marks decoder code hne hbytes hmarker]
          have hrest : utf8 html = markBytes ++ (more ++ later.flatten) := by
            rw [List.flatten_cons, utf8_cons, utf8_mark, List.append_assoc, List.append_cancel_left_eq,
              List.append_assoc] at hbytes
            exact hbytes.symm
          rw [← utf8_mark] at hrest
          obtain ⟨html, rfl, -⟩ := utf8_eq_append hrest
          rw [injectionPoint_mark, prologuePoint_byteOrderMark]
          constructor
          · intro hzero
            refine ⟨?_, fun other heq => ?_⟩
            · have : (utf8 ((byteOrderMark :: byteOrderMark :: html).take (1 + 0))).length = markBytes.length := by
                simp [utf8_mark]
              rw [this, List.length_append]
              omega
            · rw [List.append_cancel_left_eq, List.append_cancel_left_eq] at heq
              exact heq ▸ hzero
          · intro hboth
            exact hboth.2 more rfl
    · rw [inject_unmarked decoder code hne hbytes hmarker hhead]
      refine (and_iff_left fun bytes heq => ?_).symm
      have hmark := not_marked hbytes.symm hhead
      rw [heq, isPrefixOf_mark] at hmark
      cases hmark

/-- A doctype in the first chunk, and the rest of the document in the second. -/
theorem inject_stream_iff_doctype :
    (injectIntoStream textDecoder [] [utf8 "<!doctype html><h".toList, utf8 "1>".toList]).flatten =
      utf8 (injectInto [] "<!doctype html><h1>".toList) :=
  (inject_stream_iff textDecoder [] "<!doctype html><h1>".toList [utf8 "<!doctype html><h".toList, utf8 "1>".toList]
    (by decide +kernel) (by decide +kernel) (by decide +kernel)).2
    ⟨by decide +kernel, fun bytes heq => by
      have hfirst : some (60 : UInt8) = some 0xef := congrArg List.head? heq
      exact absurd hfirst (by decide)⟩

/-- A doctype that is cut: the script goes before it. -/
theorem cutDoctype_preceded :
    let chunks := [utf8 "<!doc".toList, utf8 "type html>".toList]
    (∀ chunk ∈ chunks, chunk ≠ []) ∧ chunks.flatten = utf8 "<!doctype html>".toList ∧
      ¬ guardMarker <:+: "<!doctype html>".toList ∧
      (injectIntoStream textDecoder [] chunks).flatten =
        utf8 (injectionScript []) ++ utf8 "<!doctype html>".toList ∧
      (injectIntoStream textDecoder [] chunks).flatten ≠ utf8 (injectInto [] "<!doctype html>".toList) := by
  decide +kernel

end YuriRtc
