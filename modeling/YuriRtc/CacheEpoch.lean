import YuriRtc.ApiCache
/-!
# CacheEpoch — writes, epochs and invalidations of the worker's caches

`packages/loader/src/cache.ts` (`trackWrite`, `putBodyBounded`, `invalidateCaches`) and `cacheTags` of `cache-policy.ts`, one
turn at a time: between two turns of a write or of an invalidation everybody else may take theirs, and an operation on the
browser's caches takes effect at any time between the call and the turn that has awaited it.  A request captures the epoch
before it is sent (`asks`); what `putBounded`, `cacheWhileConsumed` and `revalidate` do until they call `putBodyBounded` for
it, if they do, is left open (`begins`), and so is what makes room or fails.  `openCache` gives any cache that was created
under the name, remembered or not.  The table of sizes is left out; names are those of the loader's namespace.
-/
namespace YuriRtc

open CacheStorage (Entry Disk)

def isBlank (c : Char) : Bool := c ∈ ['\t', '\x0b', '\x0c', ' ', '\xa0']

def Headers.elements (headers : Headers) (name : List Char) : List (List Char) :=
  (((headers.get name).getD []).splitOn ',').map (Text.trim isBlank)

def isTagChar (c : Char) : Bool := c.isAlphanum || c ∈ ['_', '.', ':', '-']

/-- `/^[a-zA-Z0-9_.:-]{1,64}$/`. -/
def isTag (tag : List Char) : Bool := 1 ≤ tag.length && tag.length ≤ 64 && tag.all isTagChar

def cacheTags (headers : Headers) : List (List Char) :=
  ((headers.elements "cache-tag".toList).filter isTag).eraseDups.take 32

def ParsedUrl.href (url : ParsedUrl) : List Char := url.origin ++ url.pathname ++ url.search ++ url.hash

/-- A response in a cache, and which of the worker's requests it was asked for with; none, if an earlier worker stored it. -/
structure Kept where
  response : Response
  ask : Option Nat

/-- A stored entry answers a request for its URL that agrees with the entry's own in the headers its response varies on. -/
def answersFor (request : FetchRequest) (entry : Entry Nat FetchRequest Kept) : Bool :=
  entry.request.url.key == request.url.key &&
    (entry.response.response.headers.elements "vary".toList).all fun name =>
      name == [] || name != ['*'] && entry.request.headers.get name == request.headers.get name

abbrev CacheDisk := Disk CacheName answersFor

/-- Where `putBodyBounded` is. -/
inductive WriteStage where
  | opening (name : CacheName)
  | putting (cache : Nat)
  | settling
deriving DecidableEq, Repr

structure CacheWrite where
  ask : Nat
  request : FetchRequest
  response : Response
  stage : WriteStage

/-- Where `invalidateCaches` is. -/
inductive SweepStage where
  | queued
  | waiting
  | listing
  | clearing (names : List CacheName)
  | sweeping (names : List CacheName)
  | reading (cache : Nat) (names : List CacheName)
  | visiting (cache : Nat) (requests : List FetchRequest) (names : List CacheName)
  | deleting (cache : Nat) (request : FetchRequest) (requests : List FetchRequest) (names : List CacheName)
  | done
  | failed

/-- A call of `invalidateCaches`: its arguments, the epoch it began, the writes it awaits, and how many requests had captured
their epoch when it was made. -/
structure Invalidation where
  tags : Option (List (List Char))
  urls : Option (List (List Char))
  epoch : Nat
  awaited : List Nat
  asks : Nat
  stage : SweepStage

namespace Invalidation

def wants (call : Invalidation) (request : FetchRequest) (response : Option Response) : Bool :=
  (call.urls.getD []).contains request.url.href ||
    match response with
    | some found => (cacheTags found.headers).any fun tag => (call.tags.getD []).contains tag
    | none => false

def isClear (call : Invalidation) : Bool := call.tags.isNone && call.urls.isNone

def isDone (call : Invalidation) : Bool :=
  match call.stage with
  | .done => true
  | _ => false

def settled (call : Invalidation) : Bool :=
  match call.stage with
  | .done | .failed => true
  | _ => false

end Invalidation

structure CacheWorker where
  version : List Char
  epoch : Nat
  asks : List Nat
  writes : AList (fun _ : Nat => CacheWrite)
  nextWrite : Nat
  calls : List Invalidation
  disk : CacheDisk

inductive CacheEvent where
  | asks
  | begins (ask : Nat) (request : FetchRequest) (response : Response) (policy : CachePolicy)
  | proceeds (id cache : Nat)
  /-- `cache.put` has ended, well or not. -/
  | lands (id : Nat) (stores : Bool)
  | finishes (id : Nat)
  | creates (name : CacheName)
  /-- an eviction or `removeCached`. -/
  | removes (cache : Nat) (request : FetchRequest)
  | purges (name : CacheName)
  | usesVersion (version : List Char)
  | invalidates (tags urls : Option (List (List Char)))
  | advances (index : Nat)
  | clears (index : Nat) (name : CacheName)
  | fails (index : Nat)

namespace CacheWorker

def newCacheWorker (version : List Char) (disk : CacheDisk) : CacheWorker := ⟨version, 0, [], ∅, 0, [], disk⟩

variable (w : CacheWorker)

def setWrite (id : Nat) (write : CacheWrite) : CacheWorker := { w with writes := w.writes.insert id write }

def setCall (index : Nat) (call : Invalidation) (stage : SweepStage) : CacheWorker :=
  { w with calls := w.calls.set index { call with stage := stage } }

def stepWrite (id : Nat) (write : CacheWrite) : CacheEvent → Option CacheWorker
  | .proceeds _ cache =>
    match write.stage with
    | .opening name =>
      if w.disk.created[cache]? = some name then
        if w.asks[write.ask]? = some w.epoch then some (w.setWrite id { write with stage := .putting cache })
        else some (w.setWrite id { write with stage := .settling })
      else none
    | .putting _ | .settling => none
  | .lands _ stores =>
    match write.stage with
    | .putting cache =>
      let landed := w.setWrite id { write with stage := .settling }
      if stores then
        some { landed with disk := w.disk.put cache write.request ⟨write.response, some write.ask⟩ }
      else some landed
    | .opening _ | .settling => none
  | .finishes _ =>
    match write.stage with
    -- a write that failed to open its cache ends as well
    | .opening _ | .settling => some { w with writes := w.writes.erase id }
    | .putting _ => none
  | _ => none

def stepCall (index : Nat) (call : Invalidation) : CacheEvent → Option CacheWorker
  | .advances _ =>
    match call.stage with
    | .queued => if (w.calls.take index).all Invalidation.settled then some (w.setCall index call .waiting) else none
    | .waiting =>
      if call.awaited.all fun id => (w.writes.lookup id).isNone then some (w.setCall index call .listing) else none
    | .listing =>
      if call.isClear then some (w.setCall index call (.clearing w.disk.registry.keys))
      else some (w.setCall index call (.sweeping w.disk.registry.keys))
    | .clearing [] => some (w.setCall index call .done)
    | .clearing (_ :: _) => none
    | .sweeping [] => some (w.setCall index call .done)
    | .sweeping (name :: names) =>
      let opened := w.disk.openCache name
      some { w.setCall index call (.reading opened.2 names) with disk := opened.1 }
    | .reading cache names => some (w.setCall index call (.visiting cache (w.disk.keys cache) names))
    | .visiting _ [] names => some (w.setCall index call (.sweeping names))
    | .visiting cache (request :: requests) names =>
      let found := CacheStorage.lookup answersFor cache request w.disk.stored
      if call.wants request (found.map fun entry => entry.response.response) then
        some (w.setCall index call (.deleting cache request requests names))
      else some (w.setCall index call (.visiting cache requests names))
    | .deleting cache request requests names =>
      some { w.setCall index call (.visiting cache requests names) with disk := w.disk.delete cache request }
    | .done | .failed => none
  | .clears _ name =>
    match call.stage with
    | .clearing names =>
      if name ∈ names then
        some { w.setCall index call (.clearing (names.filter (· ≠ name))) with disk := w.disk.drop name }
      else none
    | _ => none
  | .fails _ =>
    match call.stage with
    | .queued | .waiting | .done | .failed => none
    | _ => some (w.setCall index call .failed)
  | _ => none

def step (w : CacheWorker) : CacheEvent → Option CacheWorker
  | .asks => some { w with asks := w.asks ++ [w.epoch] }
  | .begins ask request response policy =>
    match w.asks[ask]?, cacheNameFor w.version policy with
    | some epoch, some name =>
      if epoch = w.epoch then
        some { w.setWrite w.nextWrite ⟨ask, request, response, .opening name⟩ with nextWrite := w.nextWrite + 1 }
      else some w
    | some _, none => some w
    | none, _ => none
  | .proceeds id cache => (w.writes.lookup id).bind fun write => w.stepWrite id write (.proceeds id cache)
  | .lands id stores => (w.writes.lookup id).bind fun write => w.stepWrite id write (.lands id stores)
  | .finishes id => (w.writes.lookup id).bind fun write => w.stepWrite id write (.finishes id)
  | .creates name => some { w with disk := (w.disk.openCache name).1 }
  | .removes cache request => some { w with disk := w.disk.delete cache request }
  | .purges name => some { w with disk := w.disk.drop name }
  | .usesVersion version => some { w with version := version, epoch := w.epoch + 1 }
  | .invalidates tags urls =>
    some { w with
      epoch := w.epoch + 1
      calls := w.calls ++ [⟨tags, urls, w.epoch + 1, w.writes.keys, w.asks.length, .queued⟩] }
  | .advances index => w.calls[index]?.bind fun call => w.stepCall index call (.advances index)
  | .clears index name => w.calls[index]?.bind fun call => w.stepCall index call (.clears index name)
  | .fails index => w.calls[index]?.bind fun call => w.stepCall index call (.fails index)

end CacheWorker

end YuriRtc
