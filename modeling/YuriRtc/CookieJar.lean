import YuriRtc.Steps
import YuriRtc.Text
/-!
# CookieJar — the service worker's session cookies

`packages/loader/src/session.ts`.  The jar is an IndexedDB object store with one row per path and name; `applySetCookie`
and `clearSession` are one transaction each, while `cookieHeader` reads every row in one transaction and sweeps the
expired ones out in a second, from the rows it has read.  The transactions of all calls come in any order, so an event is
one transaction; `calls` holds what the `cookieHeader` calls between their two transactions have read, with a record of what
was set since.  `Date.parse` is the browser's own and stands as a parameter.
-/
namespace YuriRtc

structure StoredCookie where
  name : List Char
  value : List Char
  path : List Char
  expiresAt : Option Int
deriving DecidableEq, Repr

abbrev CookieKey := List Char × List Char

namespace StoredCookie

def key (cookie : StoredCookie) : CookieKey := (cookie.path, cookie.name)

def isExpired (cookie : StoredCookie) (now : Int) : Bool :=
  match cookie.expiresAt with
  | none => false
  | some at_ => decide (at_ ≤ now)

end StoredCookie

def cookiePathMatches (path cookiePath : List Char) : Bool :=
  path == cookiePath ||
    cookiePath.isPrefixOf path && (cookiePath.getLast? == some '/' || path[cookiePath.length]? == some '/')

/-! ### `Set-Cookie` -/

/-- The white space and line ends `trim` takes off. -/
def isTrimmed (c : Char) : Bool :=
  c.val ∈ [0x9, 0xa, 0xb, 0xc, 0xd, 0x20, 0xa0, 0x1680, 0x2028, 0x2029, 0x202f, 0x205f, 0x3000, 0xfeff] ||
    (0x2000 ≤ c.val && c.val ≤ 0x200a)

/-- `requestPath.slice(0, requestPath.lastIndexOf("/")) || "/"`. -/
def defaultCookiePath (requestPath : List Char) : List Char :=
  let upTo := if '/' ∈ requestPath then (requestPath.reverse.dropWhile (· ≠ '/')).tail.reverse else requestPath.dropLast
  if upTo = [] then ['/'] else upTo

/-- The seconds of a `max-age` that is an optional minus sign and digits; what `Number` rounds to infinity is none. -/
def maxAgeSeconds (value : List Char) : Option Int :=
  let negative := value.head? == some '-'
  let digits := if negative then value.tail else value
  if digits ≠ [] ∧ digits.all Char.isDigit ∧ Text.decimal digits < 2 ^ 1024 - 2 ^ 970 then
    some (if negative then -(Text.decimal digits : Int) else Text.decimal digits)
  else none

def applyAttribute (dateParse : List Char → Option Int) (now : Int) (cookie : StoredCookie) (attr : List Char) :
    StoredCookie :=
  let parts := (Text.cut '=' attr).getD (attr, [])
  let key := (Text.trim isTrimmed parts.1).map Char.toLower
  let value := Text.trim isTrimmed parts.2
  if key = "path".toList ∧ value.head? = some '/' then { cookie with path := value }
  else if key = "max-age".toList then
    match maxAgeSeconds value with
    | some seconds => { cookie with expiresAt := some (now + seconds * 1000) }
    | none => cookie
  else if key = "expires".toList ∧ cookie.expiresAt = none then { cookie with expiresAt := dateParse value }
  else cookie

def parseSetCookie (dateParse : List Char → Option Int) (now : Int) (header requestPath : List Char) :
    Option StoredCookie :=
  let parts := header.splitOn ';'
  match Text.cut '=' (Text.trim isTrimmed (parts.headD [])) with
  | none | some ([], _) => none
  | some (name, value) =>
    some (parts.tail.foldl (applyAttribute dateParse now)
      ⟨Text.trim isTrimmed name, Text.trim isTrimmed value, defaultCookiePath requestPath, none⟩)

/-! ### The jar -/

/-- A `cookieHeader` between its transactions: the rows it has read, and the keys that `applySetCookie` has committed since. -/
structure PendingHeader where
  all : List StoredCookie
  setSince : List CookieKey

/-- The persistent jar, its clock, and the `cookieHeader` calls that have read it and not swept it yet. -/
structure CookieJar where
  store : AList (fun _ : CookieKey => StoredCookie)
  now : Int
  calls : Nat → Option PendingHeader

inductive JarEvent where
  /-- the transaction of an `applySetCookie` that was called at `calledAt`. -/
  | applySetCookie (header requestPath : List Char) (calledAt : Int)
  /-- the two transactions of a `cookieHeader`; the second uses the clock as it was read between them. -/
  | readAll (call : Nat)
  | sweep (call : Nat) (readAt : Int)
  | clearSession
  | tick (now : Int)
deriving DecidableEq, Repr

namespace CookieJar

def empty : CookieJar := ⟨∅, 0, fun _ => none⟩

def expiredIn (all : List StoredCookie) (now : Int) : List StoredCookie := all.filter (fun cookie => cookie.isExpired now)

/-- The `Cookie:` header a call answers from the rows it has read. -/
def cookieHeader (all : List StoredCookie) (now : Int) (requestPath : List Char) : Option (List Char) :=
  let live := all.filter (fun cookie => !cookie.isExpired now && cookiePathMatches requestPath cookie.path)
  let sorted := live.mergeSort (fun a b => decide (b.path.length ≤ a.path.length))
  if live = [] then none
  else some (List.intercalate "; ".toList (sorted.map fun cookie => cookie.name ++ '=' :: cookie.value))

def getAll (jar : CookieJar) : List StoredCookie := jar.store.entries.map Sigma.snd

def apply (jar : CookieJar) (cookie : StoredCookie) (calledAt : Int) : CookieJar :=
  { jar with
    store := if cookie.isExpired calledAt then jar.store.erase cookie.key else jar.store.insert cookie.key cookie
    calls := fun call => (jar.calls call).map fun pending => { pending with setSince := cookie.key :: pending.setSince } }

def eraseAll (store : AList (fun _ : CookieKey => StoredCookie)) (cookies : List StoredCookie) :
    AList (fun _ : CookieKey => StoredCookie) :=
  cookies.foldl (fun store cookie => store.erase cookie.key) store

/-- One transaction.  A `cookieHeader` without an expired row has no second one, which is a sweep of no rows. -/
def step (dateParse : List Char → Option Int) (jar : CookieJar) : JarEvent → Option CookieJar
  | .applySetCookie header requestPath calledAt =>
    if calledAt ≤ jar.now then
      match parseSetCookie dateParse calledAt header requestPath with
      | none => some jar
      | some cookie => some (jar.apply cookie calledAt)
    else none
  | .readAll call =>
    match jar.calls call with
    | none => some { jar with calls := Function.update jar.calls call (some ⟨jar.getAll, []⟩) }
    | some _ => none
  | .sweep call readAt =>
    match jar.calls call with
    | none => none
    | some pending =>
      if readAt ≤ jar.now then
        some { jar with
          store := eraseAll jar.store (expiredIn pending.all readAt)
          calls := Function.update jar.calls call none }
      else none
  | .clearSession => some { jar with store := ∅ }
  | .tick now => if jar.now ≤ now then some { jar with now := now } else none

end CookieJar
end YuriRtc
