import YuriRtc.Preconditions
/-!
# ServiceWorker — how the worker answers a fetch from its cache and the transport

`handle`, `conditionalRequest`, `mergeNotModified` and `revalidate` of `packages/loader/src/sw.ts`, with the head
`buildHead` makes of a request.  A `Headers` object has each name once, in lower case.  What the cache rules say of a stored
response (`cache.ts`, `cache-policy.ts`) is a parameter.  Bodies are as the transport or the cache gives them, before the
loader is injected.
-/
namespace YuriRtc

structure Headers where
  pairs : HeaderPairs
  lower : ∀ pair ∈ pairs, pair.1.map Char.toLower = pair.1
  nodup : (pairs.map Prod.fst).Nodup

namespace Headers

def empty : Headers := ⟨[], by simp, by simp⟩

def get (h : Headers) (name : List Char) : Option (List Char) :=
  (h.pairs.find? (fun pair => pair.1 == name.map Char.toLower)).map Prod.snd

def has (h : Headers) (name : List Char) : Bool := (h.get name).isSome

theorem map_toLower_toLower (name : List Char) : (name.map Char.toLower).map Char.toLower = name.map Char.toLower := by
  rw [List.map_map]
  exact List.map_congr_left fun c _ => Text.toLower_toLower c

def set (h : Headers) (name value : List Char) : Headers where
  pairs := h.pairs.filter (fun pair => pair.1 != name.map Char.toLower) ++ [(name.map Char.toLower, value)]
  lower := by
    intro pair hpair
    rcases List.mem_append.1 hpair with hold | hnew
    · exact h.lower pair (List.mem_of_mem_filter hold)
    · rw [List.mem_singleton.1 hnew]
      exact map_toLower_toLower name
  nodup := by
    rw [List.map_append]
    refine List.Nodup.append ((List.filter_sublist.map _).nodup h.nodup) (by simp) ?_
    intro key hold hnew
    obtain ⟨pair, hpair, rfl⟩ := List.mem_map.1 hold
    have hne := (List.mem_filter.1 hpair).2
    simp only [List.map_cons, List.map_nil, List.mem_singleton] at hnew
    simp [hnew] at hne

def setMissing (h : Headers) (name : List Char) (value : Option (List Char)) : Headers :=
  match value with
  | some v => if v ≠ [] ∧ h.has name = false then h.set name v else h
  | none => h

def without (pairs : HeaderPairs) (name : List Char) : HeaderPairs :=
  pairs.filter (fun pair => pair.1.map Char.toLower != name.map Char.toLower)

end Headers

structure Response where
  status : Nat
  headers : Headers
  body : Bytes

def Response.ok (r : Response) : Bool := 200 ≤ r.status && r.status ≤ 299

/-- The mode of `Request.cache`. -/
inductive CacheMode where
  | default
  | noStore
  | reload
  | noCache
  | forceCache
  | onlyIfCached
deriving DecidableEq, Repr

inductive CachePolicy where
  | cacheFirstImmutable
  | staleWhileRevalidate
  | cacheFirstLru
  | revalidateLru
  | never
deriving DecidableEq, Repr

structure CacheRules where
  mayBeStored : Response → Bool
  forbidsStale : Response → Bool
  forbidsFallback : Response → Bool
  explicitFreshness : Response → Bool
  isFresh : Response → Bool
  policyOf : Response → CachePolicy

/-- A request as `handle` sees it, with what it finds out before it looks into the cache.  `noCarrier` says whether a
failure of the transport is a `NoCarrierError`, `sameEpoch` whether the cache has not been invalidated meanwhile. -/
structure Fetch where
  isGet : Bool
  headers : Headers
  cache : CacheMode
  policy : CachePolicy
  transportCacheable : Bool
  connected : Bool
  expected : Bool
  alwaysFresh : Bool
  topLevelNavigation : Bool
  staticShell : Bool
  wireGzip : Bool
  noCarrier : Bool
  sameEpoch : Bool

namespace Fetch

def ranged (fetch : Fetch) : Bool := fetch.headers.has "range".toList

def preferFresh (fetch : Fetch) : Bool := fetch.alwaysFresh && (fetch.connected || !fetch.expected)

def cacheReadAllowed (fetch : Fetch) : Bool := fetch.cache != .noStore && fetch.cache != .reload

def forceCached (fetch : Fetch) : Bool := fetch.cache == .forceCache || fetch.cache == .onlyIfCached

/-- `conditionalRequest`: the headers of the request with the validators of the stored response, where the page has not
set its own. -/
def conditionalRequest (fetch : Fetch) (cached : Response) : Headers :=
  (fetch.headers.setMissing "if-none-match".toList (cached.headers.get "etag".toList)).setMissing
    "if-modified-since".toList (cached.headers.get "last-modified".toList)

/-- The headers of `buildHead`, for a path that is none of the backend's. -/
def buildHead (fetch : Fetch) (headers : Headers) : HeaderPairs :=
  let pairs := Headers.without headers.pairs "cookie".toList
  let pairs := Headers.without pairs "x-yurirtc-accept-wire-encoding".toList
  if fetch.wireGzip then pairs ++ [("x-yurirtc-accept-wire-encoding".toList, "gzip".toList)] else pairs

end Fetch

def mergeNotModified (cached notModified : Response) : Response :=
  { cached with
    headers := notModified.headers.pairs.foldl
      (fun headers pair => if pair.1.map Char.toLower = "content-length".toList then headers else headers.set pair.1 pair.2)
      cached.headers }

/-- How a fetch is answered.  `shell` is the loader's page or the redirect to it, `network` an answer of the site's own
server, `offline` the error thrown without one. -/
inductive Answer where
  | response (r : Response)
  | shell
  | network
  | offline
  | gatewayTimeout
  | transportError

structure Outcome where
  answer : Answer
  stored : Option Response
  removed : Bool

/-- The cache rules, what `cache.match` finds at first and in the fallback, and whether the network fails. -/
structure Surroundings where
  rules : CacheRules
  hit : Option Response
  later : Option Response
  networkFails : Bool
  transport : HeaderPairs → Option Response

/-- `putBounded`, where the write succeeds. -/
def CacheRules.put (rules : CacheRules) (fetch : Fetch) (policy : CachePolicy) (r : Response) : Option Response :=
  if policy ≠ .never ∧ rules.mayBeStored r = true ∧ r.status ≠ 206 ∧ r.ok = true ∧ fetch.sameEpoch = true then some r
  else none

namespace Fetch

variable (fetch : Fetch) (around : Surroundings)

/-- The stored response `handle` may use. -/
def usable : Option Response :=
  if fetch.transportCacheable = true ∧ fetch.cacheReadAllowed = true ∧ fetch.ranged = false ∧ fetch.preferFresh = false ∧
      fetch.isGet = true then
    around.hit.filter around.rules.mayBeStored
  else none

def servesAsIs (rules : CacheRules) (hit : Response) : Bool :=
  fetch.forceCached ||
    (fetch.policy != .revalidateLru && fetch.cache != .noCache && !rules.explicitFreshness hit) ||
    (fetch.cache != .noCache && rules.isFresh hit) ||
    (!fetch.connected && !rules.forbidsStale hit)

def validatorCacheHit : Option Response :=
  (fetch.usable around).filter fun hit => !fetch.servesAsIs around.rules hit

def revalidates : Option Response :=
  (fetch.usable around).filter fun hit =>
    fetch.policy == .staleWhileRevalidate && fetch.connected && fetch.cache != .noCache && !around.rules.forbidsStale hit

/-- `fromTransport` of a request with these headers. -/
def fromTransport (headers : Headers) : Option Response := around.transport (fetch.buildHead headers)

def fallback (stale : Option Response) (otherwise : Answer) : Answer :=
  match stale with
  | some r =>
    if fetch.cacheReadAllowed = true ∧ fetch.ranged = false ∧ around.rules.mayBeStored r = true ∧
      around.rules.forbidsStale r = false then .response r else otherwise
  | none => otherwise

/-- The `catch` of `handle`. -/
def recover (noCarrier : Bool) : Outcome :=
  if fetch.topLevelNavigation && noCarrier then ⟨.shell, none, false⟩
  else
    let stale := (fetch.validatorCacheHit around).or (if fetch.transportCacheable then around.later else none)
    ⟨fetch.fallback around stale .transportError, none, false⟩

def handle : Outcome :=
  if fetch.topLevelNavigation && (fetch.expected || fetch.staticShell) then ⟨.shell, none, false⟩
  else
    match (fetch.usable around).filter (fetch.servesAsIs around.rules) with
    | some hit => ⟨.response hit, none, false⟩
    | none =>
      if fetch.cache = .onlyIfCached then ⟨.gatewayTimeout, none, false⟩
      else if fetch.connected = false ∧ fetch.expected = false then
        if around.networkFails then ⟨fetch.fallback around around.later .offline, none, false⟩
        else ⟨.network, none, false⟩
      else if fetch.connected = false ∧ fetch.topLevelNavigation = true then ⟨.shell, none, false⟩
      else
        let validator := fetch.validatorCacheHit around
        let headers := match validator with
          | some hit => fetch.conditionalRequest hit
          | none => fetch.headers
        match fetch.fromTransport around headers with
        | none => fetch.recover around fetch.noCarrier
        | some response =>
          if response.status = 304 then
            match validator with
            | none => fetch.recover around false
            | some hit =>
              let merged := mergeNotModified hit response
              ⟨.response merged, around.rules.put fetch (around.rules.policyOf merged) merged,
                around.rules.forbidsFallback merged && fetch.sameEpoch⟩
          else
            let policy := around.rules.policyOf response
            ⟨.response response,
              if fetch.transportCacheable = true ∧ policy ≠ .never ∧ fetch.ranged = false ∧ fetch.isGet = true ∧
                response.ok = true then around.rules.put fetch policy response else none,
              around.rules.forbidsFallback response && fetch.sameEpoch⟩

/-- `revalidate`: what it stores, and whether it removes the entry. -/
def revalidate (cached : Response) : Option Response × Bool :=
  match fetch.fromTransport around (fetch.conditionalRequest cached) with
  | none => (none, false)
  | some fresh =>
    let replacement := if fresh.status = 304 then mergeNotModified cached fresh else fresh
    if fresh.status ≠ 304 ∧ around.rules.forbidsFallback fresh = true then (none, true)
    else if replacement.ok then (around.rules.put fetch .staleWhileRevalidate replacement, false)
    else (none, false)

end Fetch

end YuriRtc
