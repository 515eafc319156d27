import YuriRtc.Protocol
import YuriRtc.Text
/-!
# Injection — where the loader's script goes in a document

`injectionPoint`, `injectInto` and `injectIntoStream` (at the scope `/`) of `packages/loader/src/inject.ts`.  A document is
a list of characters; every token the code looks for begins and ends with an ASCII character, so that an index into the
characters and one into UTF-16 units name the same place.  `TextDecoder` is a parameter with its documented behaviour.
-/
namespace YuriRtc

def byteOrderMark : Char := Char.ofNat 0xfeff
def replacementCharacter : Char := Char.ofNat 0xfffd

def isAsciiWhitespace (c : Char) : Bool := c == ' ' || c == '\t' || c == '\n' || c == '\x0c' || c == '\r'

/-- `markupEnd`: how many characters there are up to and with the `>` outside quotes. -/
def markupEnd : Option Char → List Char → Option Nat
  | _, [] => none
  | some q, c :: rest => (markupEnd (if c = q then none else some q) rest).map (· + 1)
  | none, c :: rest =>
    if c = '"' ∨ c = '\'' then (markupEnd (some c) rest).map (· + 1)
    else if c = '>' then some 1
    else (markupEnd none rest).map (· + 1)

/-- `indexOf("-->")`. -/
def commentClose : List Char → Option Nat
  | [] => none
  | c :: rest => if "-->".toList.isPrefixOf (c :: rest) then some 0 else (commentClose rest).map (· + 1)

def commentAt (html : List Char) : Option Nat :=
  if "<!--".toList.isPrefixOf html then (commentClose (html.drop 4)).map (· + 7) else none

/-- `skipPrologueTrivia`; each turn takes a comment. -/
def skipPrologueTrivia : Nat → List Char → Nat
  | 0, _ => 0
  | fuel + 1, html =>
    let blanks := (html.takeWhile isAsciiWhitespace).length
    match commentAt (html.drop blanks) with
    | some n => blanks + n + skipPrologueTrivia fuel (html.drop (blanks + n))
    | none => blanks

def isTagNameStart (c : Char) : Bool := ('A' ≤ c && c ≤ 'Z') || ('a' ≤ c && c ≤ 'z')

def isTagNameChar (c : Char) : Bool := isTagNameStart c || ('0' ≤ c && c ≤ '9') || c == ':' || c == '-'

/-- `startTagAt`: the name in lower case, and the length of the tag. -/
def startTagAt : List Char → Option (List Char × Nat)
  | '<' :: c :: rest =>
    if isTagNameStart c then
      let name := c :: rest.takeWhile isTagNameChar
      match rest.dropWhile isTagNameChar with
      | [] => none
      | boundary :: after =>
        if boundary = '>' ∨ boundary = '/' ∨ isAsciiWhitespace boundary = true then
          (markupEnd none (boundary :: after)).map fun n => (name.map Char.toLower, 1 + name.length + n)
        else none
    else none
  | _ => none

def doctypeEndAt (html : List Char) : Option Nat :=
  if (html.take 9).map Char.toLower = "<!doctype".toList then
    match html.drop 9 with
    | [] => none
    | boundary :: after =>
      if boundary = '>' ∨ isAsciiWhitespace boundary = true then (markupEnd none (boundary :: after)).map (· + 9) else none
  else none

def trivia (html : List Char) : Nat := skipPrologueTrivia (html.length + 1) html

/-- The end of a `<head>` or `<body>` tag. -/
def headOrBodyAt (html : List Char) : Option Nat :=
  match startTagAt html with
  | some (name, n) => if name = "head".toList ∨ name = "body".toList then some n else none
  | none => none

/-- The part of `injectionPoint` behind mark, trivia and doctype. -/
def elementPoint (html : List Char) : Nat :=
  match startTagAt html with
  | some (name, n) =>
    if name = "html".toList then
      let skipped := trivia (html.drop n)
      match headOrBodyAt (html.drop (n + skipped)) with
      | some m => n + skipped + m
      | none => n
    else (headOrBodyAt html).getD 0
  | none => 0

/-- The part of `injectionPoint` behind the mark. -/
def prologuePoint (html : List Char) : Nat :=
  let at_ := trivia html
  match doctypeEndAt (html.drop at_) with
  | some n =>
    let at_ := at_ + n + trivia (html.drop (at_ + n))
    at_ + elementPoint (html.drop at_)
  | none => at_ + elementPoint (html.drop at_)

def injectionPoint : List Char → Nat
  | [] => prologuePoint []
  | c :: rest => if c = byteOrderMark then 1 + prologuePoint rest else prologuePoint (c :: rest)

def utf8 (text : List Char) : Bytes := text.flatMap String.utf8EncodeChar

def guardMarker : List Char := "__edurocks_guard__".toList

/-- `injectionScript`: the guard's tag, and what follows in it and behind it. -/
def injectionScript (code : List Char) : List Char := "<script id=\"".toList ++ guardMarker ++ "\">".toList ++ code

def injectInto (code html : List Char) : List Char :=
  if guardMarker <:+: html then html
  else html.take (injectionPoint html) ++ injectionScript code ++ html.drop (injectionPoint html)

def CutCharacter (bytes : Bytes) : Prop := bytes ≠ [] ∧ ∃ c, bytes <+: String.utf8EncodeChar c ∧ bytes ≠ String.utf8EncodeChar c

/-- `TextDecoder("utf-8")`: a mark at the beginning is dropped, and a character that was cut off is replaced. -/
structure TextDecoder where
  decode : Bytes → List Char
  whole : ∀ text, decode (utf8 text) = if text.head? = some byteOrderMark then text.tail else text
  cut : ∀ text bytes, CutCharacter bytes →
    decode (utf8 text ++ bytes) = (if text.head? = some byteOrderMark then text.tail else text) ++ [replacementCharacter]

def markBytes : Bytes := [0xef, 0xbb, 0xbf]

/-- `transform` for the first chunk that is not empty. -/
def injectIntoChunk (decoder : TextDecoder) (code : List Char) (chunk : Bytes) : List Bytes :=
  let hasBom := markBytes.isPrefixOf chunk
  let bomBytes := if hasBom then 3 else 0
  let decoded := decoder.decode (chunk.drop bomBytes)
  if guardMarker <:+: decoded then [chunk]
  else
    let scanned := (if hasBom then [byteOrderMark] else []) ++ decoded
    let pre := (scanned.take (injectionPoint scanned)).drop (if hasBom then 1 else 0)
    let at_ := bomBytes + (utf8 pre).length
    (if 0 < at_ then [chunk.take at_] else []) ++ [utf8 (injectionScript code)] ++
      (if at_ < chunk.length then [chunk.drop at_] else [])

/-- `injectIntoStream`, at the scope `/`. -/
def injectIntoStream (decoder : TextDecoder) (code : List Char) : List Bytes → List Bytes
  | [] => [utf8 (injectionScript code)]
  | chunk :: rest =>
    if chunk = [] then injectIntoStream decoder code rest
    else injectIntoChunk decoder code chunk ++ rest.filter (· ≠ [])

end YuriRtc
