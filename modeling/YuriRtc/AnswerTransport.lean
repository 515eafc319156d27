import YuriRtc.CookieJar
/-!
# AnswerTransport — an answer without the candidates of other transports

`iceCandidateProtocol` and `forceAnswerTransport` of `packages/loader/src/adaptive-transport.ts`.  The regular expressions
are deterministic: each of their classes ends where the next one has to begin, so that a match is found without going back.
-/
namespace YuriRtc
namespace AnswerTransport

def prefixed : List Char → List Char → Bool
  | [], _ => true
  | _ :: _, [] => false
  | w :: word, c :: text => c.toLower == w && prefixed word text

/-- What follows a match of `p+`. -/
def past (p : Char → Bool) (text : List Char) : Option (List Char) :=
  if text.head?.any p then some (text.dropWhile p) else none

/-- Where `^` matches under `m`: after one of these. -/
def isLineEnd (c : Char) : Bool := c == '\n' || c == '\r' || c.val == 0x2028 || c.val == 0x2029

/-- `(?:\r\n|\n|$)`; where the two others fail, `$` matches before a carriage return or at the end. -/
def lineBreak : List Char → List Char
  | '\r' :: '\n' :: _ => ['\r', '\n']
  | '\n' :: _ => ['\n']
  | _ => []

def inLine (c : Char) : Bool := c ≠ '\r' && c ≠ '\n'

def candidateMark : List Char := "a=candidate:".toList

/-- The match of `/^a=candidate:[^\r\n]*(?:\r\n|\n|$)/im` at a text that begins with the mark. -/
def candidateLine (text : List Char) : List Char := text.takeWhile inLine ++ lineBreak (text.dropWhile inLine)

/-- The matches of the `g` flag with the characters between them, from a place that is or is not the start of a line. -/
def scan (atStart : Bool) : List Char → List (List Char × Bool)
  | [] => []
  | c :: rest =>
    if atStart && prefixed candidateMark (c :: rest) then
      let line := candidateLine (c :: rest)
      (line, true) :: scan (line.getLast?.any isLineEnd) (rest.drop (line.length - 1))
    else ([c], false) :: scan (isLineEnd c) rest
termination_by text => text.length
decreasing_by all_goals simp [List.length_drop]; try omega

structure SdpLine where
  text : List Char
  plain : ∀ c ∈ text, isLineEnd c = false

namespace SdpLine

def empty : SdpLine := ⟨[], fun _ hc => absurd hc List.not_mem_nil⟩

end SdpLine

variable {c : Char} {rest : List Char}

variable (l : SdpLine)

end AnswerTransport
end YuriRtc
