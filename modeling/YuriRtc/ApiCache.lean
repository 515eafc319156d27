import YuriRtc.CacheStorage
import YuriRtc.Routing
import YuriRtc.Steps
/-!
# ApiCache — answers of the backend are never stored

The worker as a machine: fetches that have looked into the cache and wait for the transport, revalidations behind an answer,
and the operations on the caches that are on their way.  Each takes its next turn at any time.  A navigation to a path of
the backend is classified as a route, so it is looked up, and a hit would be revalidated and stored again
(`Fetch.revalidate` asks no policy).  It never is: the only way to a first entry is `handle`, which asks `responseCachePolicy`.
-/
namespace YuriRtc

open CacheStorage (Entry)

/-- The names of the caches (`cacheNames`). -/
inductive CacheName where
  | shell (version : List Char)
  | route (version : List Char)
  | lru
deriving DecidableEq, Repr

def cacheNameFor (version : List Char) : CachePolicy → Option CacheName
  | .cacheFirstImmutable => some (.shell version)
  | .staleWhileRevalidate => some (.route version)
  | .cacheFirstLru => some .lru
  | .revalidateLru => some .lru
  | .never => none

/-- A fetch that waits for its answer, with what `matchCached` found. -/
structure Handling where
  request : FetchRequest
  found : Found
  hit : Option Response

structure Revalidating where
  request : FetchRequest
  found : Found
  cached : Response

inductive CacheOperation where
  | put (request : FetchRequest) (policy : CachePolicy) (response : Response)
  | remove (request : FetchRequest) (policy : CachePolicy)

structure FetchWorker where
  version : List Char
  stored : List (Entry CacheName FetchRequest Response)
  handling : List Handling
  revalidating : List Revalidating
  pending : List CacheOperation

/-- `dropped` stands for everything that only takes entries away: evictions, invalidations, purges of old builds. -/
inductive WorkerEvent where
  | fetched (request : FetchRequest) (found : Found)
  | answered (index : Nat) (answer later : Option Response) (networkFails : Bool)
  | revalidated (index : Nat) (answer : Option Response) (sameEpoch : Bool)
  | performed (index : Nat) (succeeds : Bool)
  | dropped (keep : Entry CacheName FetchRequest Response → Bool)
  | versionUsed (version : List Char)

structure WorkerContext where
  site : Site
  rules : FetchRequest → CacheRules
  varies : FetchRequest → Entry CacheName FetchRequest Response → Bool

namespace WorkerContext

variable (context : WorkerContext)

def answers (request : FetchRequest) (entry : Entry CacheName FetchRequest Response) : Bool :=
  entry.request.url.key == request.url.key && context.varies request entry

def fetch (request : FetchRequest) (found : Found) : Fetch := request.fetch (context.site.logicalPath request.url) found

def rulesOf (request : FetchRequest) : CacheRules :=
  request.rules (context.site.logicalPath request.url) (context.rules request)

/-- What `handle` goes by, when the transport's answer is known. -/
def around (request : FetchRequest) (hit later : Option Response) (networkFails : Bool) (answer : Option Response) :
    Surroundings :=
  ⟨context.rulesOf request, hit, later, networkFails, fun _ => answer⟩

end WorkerContext

namespace FetchWorker

variable (context : WorkerContext) (w : FetchWorker)

def matchCached (request : FetchRequest) (policy : CachePolicy) : Option Response :=
  (cacheNameFor w.version policy).bind fun name =>
    (CacheStorage.lookup context.answers name request w.stored).map Entry.response

def hit (request : FetchRequest) (found : Found) : Option Response :=
  let fetch := context.fetch request found
  if fetch.topLevelNavigation && (fetch.expected || fetch.staticShell) then none
  else w.matchCached context request fetch.policy

/-- The first part of `handle`, up to its lookup. -/
def look (request : FetchRequest) (found : Found) : FetchWorker :=
  let fetch := context.fetch request found
  let hit := w.hit context request found
  let active := w.revalidating.any fun other => other.request.url == request.url
  { w with
    handling := w.handling ++ [⟨request, found, hit⟩]
    revalidating :=
      match fetch.revalidates (context.around request hit none false none) with
      | some cached => if active then w.revalidating else w.revalidating ++ [⟨request, found, cached⟩]
      | none => w.revalidating }

def operations (request : FetchRequest) (stored : Option (CachePolicy × Response)) (removed : Option CachePolicy) :
    List CacheOperation :=
  (stored.map fun put => .put request put.1 put.2).toList ++ (removed.map fun policy => .remove request policy).toList

/-- The rest of `handle`. -/
def answer (waiting : Handling) (answer later : Option Response) (networkFails : Bool) : List CacheOperation :=
  let fetch := context.fetch waiting.request waiting.found
  let around := context.around waiting.request waiting.hit later networkFails answer
  let outcome := fetch.handle around
  operations waiting.request (outcome.stored.map fun response => (around.rules.policyOf response, response))
    (if outcome.removed then some fetch.policy else none)

/-- The rest of `revalidate`. -/
def revalidate (waiting : Revalidating) (answer : Option Response) (sameEpoch : Bool) : List CacheOperation :=
  let fetch := context.fetch waiting.request { waiting.found with sameEpoch := sameEpoch }
  let outcome := fetch.revalidate (context.around waiting.request none none false answer) waiting.cached
  operations waiting.request (outcome.1.map fun response => (.staleWhileRevalidate, response))
    (if outcome.2 then some .staleWhileRevalidate else none)

def perform (operation : CacheOperation) : List (Entry CacheName FetchRequest Response) :=
  match operation with
  | .put request policy response =>
    match cacheNameFor w.version policy with
    | some name => CacheStorage.put context.answers name request response w.stored
    | none => w.stored
  | .remove request policy =>
    match cacheNameFor w.version policy with
    | some name => CacheStorage.delete context.answers name request w.stored
    | none => w.stored

def step (w : FetchWorker) : WorkerEvent → Option FetchWorker
  | .fetched request found => some (if context.site.handles request.url then w.look context request found else w)
  | .answered index answer later networkFails =>
    match w.handling[index]? with
    | some waiting =>
      some { w with
        handling := w.handling.eraseIdx index
        pending := w.pending ++ FetchWorker.answer context waiting answer later networkFails }
    | none => none
  | .revalidated index answer sameEpoch =>
    match w.revalidating[index]? with
    | some waiting =>
      some { w with
        revalidating := w.revalidating.eraseIdx index
        pending := w.pending ++ FetchWorker.revalidate context waiting answer sameEpoch }
    | none => none
  | .performed index succeeds =>
    match w.pending[index]? with
    | some operation =>
      some { w with
        stored := if succeeds then w.perform context operation else w.stored
        pending := w.pending.eraseIdx index }
    | none => none
  | .dropped keep => some { w with stored := w.stored.filter keep }
  | .versionUsed version => some { w with version := version }

def start (version : List Char) (stored : List (Entry CacheName FetchRequest Response)) : FetchWorker :=
  ⟨version, stored, [], [], []⟩

end FetchWorker

/-! ## One fetch -/

namespace Fetch

variable {fetch : Fetch} {around : Surroundings}

theorem usable_of_miss (hmiss : around.hit = none) : fetch.usable around = none := by simp [hmiss, usable]

theorem recover_stored (noCarrier : Bool) : (fetch.recover around noCarrier).stored = none := by
  unfold recover
  split <;> rfl

theorem handle_stored_never (hmiss : around.hit = none) (hnever : ∀ response, around.rules.policyOf response = .never) :
    (fetch.handle around).stored = none := by
  have husable : fetch.usable around = none := usable_of_miss hmiss
  have hvalidator : fetch.validatorCacheHit around = none := by
    rw [validatorCacheHit, husable]
    rfl
  unfold handle
  rw [husable, hvalidator]
  simp only [Option.filter_none]
  split
  · rfl
  split
  · rfl
  split
  · split <;> rfl
  split
  · rfl
  split
  · exact recover_stored fetch.noCarrier
  split
  · exact recover_stored false
  · exact if_neg fun h => h.2.1 (hnever _)

end Fetch

/-! ## The worker -/

def Site.isApi (site : Site) (request : FetchRequest) : Bool := isApiPath (site.logicalPath request.url)

theorem responseCachePolicy_api {path : List Char} (h : isApiPath path = true) (fallback : CachePolicy) (headers : Headers) :
    responseCachePolicy path fallback headers = .never := by
  unfold responseCachePolicy
  exact if_pos h

def CacheOperation.storesFor : CacheOperation → Option FetchRequest
  | .put request _ _ => some request
  | .remove _ _ => none

/-- **Nothing of the backend is stored or about to be**: a fetch for it found nothing, and none of it is revalidated. -/
structure FetchWorker.ApiFree (site : Site) (w : FetchWorker) : Prop where
  stored : ∀ entry ∈ w.stored, site.isApi entry.request = false
  handling : ∀ waiting ∈ w.handling, site.isApi waiting.request = true → waiting.hit = none
  revalidating : ∀ waiting ∈ w.revalidating, site.isApi waiting.request = false
  pending : ∀ operation ∈ w.pending, ∀ request, operation.storesFor = some request → site.isApi request = false

namespace FetchWorker

variable {context : WorkerContext} {w : FetchWorker}

variable {request : FetchRequest}

theorem isApi_eq_of_answers {entry : Entry CacheName FetchRequest Response}
    (h : context.answers request entry = true) : context.site.isApi entry.request = context.site.isApi request := by
  have hkey : entry.request.url.key = request.url.key := by grind [WorkerContext.answers]
  have hpath : entry.request.url.pathname = request.url.pathname := congrArg (fun key => key.2.1) hkey
  rw [Site.isApi, Site.isApi, Site.logicalPath, Site.logicalPath, hpath]

theorem matchCached_api (hw : w.ApiFree context.site) (hapi : context.site.isApi request = true)
    (policy : CachePolicy) : w.matchCached context request policy = none := by
  refine Option.eq_none_iff_forall_ne_some.2 fun response h => ?_
  obtain ⟨name, -, hfound⟩ := Option.bind_eq_some_iff.1 h
  obtain ⟨entry, hlookup, -⟩ := Option.map_eq_some_iff.1 hfound
  obtain ⟨hmem, -, hanswers⟩ := CacheStorage.lookup_some hlookup
  have hfree := hw.stored entry hmem
  rw [isApi_eq_of_answers hanswers, hapi] at hfree
  cases hfree

theorem look_apiFree (hw : w.ApiFree context.site) (request : FetchRequest) (found : Found) :
    (w.look context request found).ApiFree context.site := by
  have hmiss : context.site.isApi request = true → w.hit context request found = none := by
    intro hapi
    simp only [hit]
    split
    · rfl
    · exact matchCached_api hw hapi _
  refine ⟨hw.stored, ?_, ?_, hw.pending⟩
  · intro waiting hmem hapi
    rcases List.mem_append.1 hmem with hold | hnew
    · exact hw.handling waiting hold hapi
    · simp_all
  intro waiting hmem
  simp only [look] at hmem
  split at hmem
  · rename_i cached hcached
    split at hmem
    · exact hw.revalidating waiting hmem
    rcases List.mem_append.1 hmem with hold | hnew
    · exact hw.revalidating waiting hold
    cases List.mem_singleton.1 hnew
    -- a request of the backend found nothing, so nothing of it is revalidated
    refine Bool.eq_false_iff.2 fun hapi => ?_
    rw [Fetch.revalidates, Fetch.usable_of_miss (hmiss hapi)] at hcached
    cases hcached
  · exact hw.revalidating waiting hmem

variable {operation : CacheOperation}

theorem storesFor_operations {request target : FetchRequest} {stored : Option (CachePolicy × Response)}
    {removed : Option CachePolicy} (hmem : operation ∈ operations request stored removed)
    (hstores : operation.storesFor = some target) : target = request ∧ stored.isSome = true := by
  rcases List.mem_append.1 hmem with hput | hremove
  · cases stored with
    | none => cases hput
    | some put =>
      cases List.mem_singleton.1 hput
      exact ⟨(Option.some.inj hstores).symm, rfl⟩
  · cases removed with
    | none => cases hremove
    | some policy =>
      cases List.mem_singleton.1 hremove
      cases hstores

theorem answer_apiFree {waiting : Handling} (hmiss : context.site.isApi waiting.request = true → waiting.hit = none)
    {answer later : Option Response} {networkFails : Bool}
    (hmem : operation ∈ FetchWorker.answer context waiting answer later networkFails)
    (hstores : operation.storesFor = some request) : context.site.isApi request = false := by
  obtain ⟨rfl, hsome⟩ := storesFor_operations hmem hstores
  refine Bool.eq_false_iff.2 fun hapi => ?_
  have hnone : ((context.fetch waiting.request waiting.found).handle
      (context.around waiting.request waiting.hit later networkFails answer)).stored = none :=
    Fetch.handle_stored_never (hmiss hapi) fun response => responseCachePolicy_api hapi _ _
  rw [hnone] at hsome
  cases hsome

theorem perform_apiFree (hw : w.ApiFree context.site)
    (hfree : ∀ request, operation.storesFor = some request → context.site.isApi request = false) :
    ∀ entry ∈ w.perform context operation, context.site.isApi entry.request = false := by
  intro entry hmem
  cases operation with
  | put request policy response =>
    simp only [perform] at hmem
    split at hmem
    · rcases CacheStorage.mem_put hmem with hold | rfl
      · exact hw.stored entry hold
      · exact hfree request rfl
    · exact hw.stored entry hmem
  | remove request policy =>
    simp only [perform] at hmem
    split at hmem
    · exact hw.stored entry (CacheStorage.mem_of_mem_delete hmem)
    · exact hw.stored entry hmem

theorem step_apiFree {w' : FetchWorker} (event : WorkerEvent) (hw : w.ApiFree context.site)
    (h : w.step context event = some w') : w'.ApiFree context.site := by
  cases event with
  | fetched request found =>
    cases h
    split
    · exact look_apiFree hw request found
    · exact hw
  | answered index answer later networkFails =>
    simp only [step] at h
    split at h
    · rename_i waiting hwaiting
      cases h
      refine ⟨hw.stored, fun other hmem => hw.handling other (List.mem_of_mem_eraseIdx hmem), hw.revalidating, ?_⟩
      intro operation hmem request hstores
      rcases List.mem_append.1 hmem with hold | hnew
      · exact hw.pending operation hold request hstores
      · exact answer_apiFree (hw.handling waiting (List.mem_of_getElem? hwaiting)) hnew hstores
    · cases h
  | revalidated index answer sameEpoch =>
    simp only [step] at h
    split at h
    · rename_i waiting hwaiting
      cases h
      refine ⟨hw.stored, hw.handling, fun other hmem => hw.revalidating other (List.mem_of_mem_eraseIdx hmem), ?_⟩
      intro operation hmem request hstores
      rcases List.mem_append.1 hmem with hold | hnew
      · exact hw.pending operation hold request hstores
      · rw [(storesFor_operations hnew hstores).1]
        exact hw.revalidating waiting (List.mem_of_getElem? hwaiting)
    · cases h
  | performed index succeeds =>
    simp only [step] at h
    split at h
    · rename_i operation hoperation
      cases h
      refine ⟨?_, hw.handling, hw.revalidating, fun other hmem => hw.pending other (List.mem_of_mem_eraseIdx hmem)⟩
      cases succeeds with
      | true => exact perform_apiFree hw (hw.pending operation (List.mem_of_getElem? hoperation))
      | false => exact hw.stored
    · cases h
  | dropped keep =>
    cases h
    exact { hw with stored := fun entry hmem => hw.stored entry (List.mem_of_mem_filter hmem) }
  | versionUsed version =>
    cases h
    exact { hw with }

end FetchWorker

/-- **Answers of the backend are never stored**, whatever the pages fetch, whatever the node answers and in whatever order
lookups, answers and operations on the caches follow each other. -/
theorem api_never_stored (context : WorkerContext) (version : List Char)
    (stored : List (Entry CacheName FetchRequest Response)) (hstored : ∀ entry ∈ stored, context.site.isApi entry.request = false)
    (events : List WorkerEvent) (w : FetchWorker)
    (hrun : Steps.run (FetchWorker.step context) (FetchWorker.start version stored) events = some w) :
    (∀ entry ∈ w.stored, context.site.isApi entry.request = false) ∧
      ∀ request policy response, CacheOperation.put request policy response ∈ w.pending → context.site.isApi request = false := by
  have hstart : (FetchWorker.start version stored).ApiFree context.site :=
    ⟨hstored, fun _ h => absurd h List.not_mem_nil, fun _ h => absurd h List.not_mem_nil, fun _ h => absurd h List.not_mem_nil⟩
  have hfree := Steps.run_inv (FetchWorker.step context) (FetchWorker.ApiFree context.site)
    (fun _ event _ => FetchWorker.step_apiFree event) events _ w hstart hrun
  exact ⟨hfree.stored, fun request _ _ hmem => hfree.pending _ hmem request rfl⟩

/-- Two frames of one site, one of which navigates to the backend: only the other's answer is stored. -/
theorem api_never_stored_frames :
    let frame : List Char → FetchRequest := fun path =>
      ⟨true, ⟨"https://a".toList, path, [], []⟩, .navigate, .iframe, .default, Headers.empty⟩
    let rules : CacheRules := ⟨fun _ => true, fun _ => false, fun _ => false, fun _ => false, fun _ => false, fun _ => .never⟩
    let context : WorkerContext := ⟨⟨"https://a".toList, "/b/".toList, "/b/".toList⟩, fun _ => rules, fun _ _ => true⟩
    let found : Found := ⟨true, true, false, false, false, true⟩
    let page : Option Response := some ⟨200, Headers.empty.set "x-yurirtc-cache".toList "cache".toList, []⟩
    let events : List WorkerEvent := [.fetched (frame "/b/apiv2/me".toList) found, .answered 0 page none false,
      .fetched (frame "/b/page".toList) found, .answered 0 page none false, .performed 0 true]
    ((Steps.run (FetchWorker.step context) (FetchWorker.start [] []) events).map fun w =>
        (w.pending.length, w.stored.map fun entry => entry.request.url.pathname)) = some (0, ["/b/page".toList]) ∧
      ∀ w, Steps.run (FetchWorker.step context) (FetchWorker.start [] []) events = some w →
        ∀ entry ∈ w.stored, context.site.isApi entry.request = false := by
  intro frame rules context found page events
  refine ⟨by decide +kernel, fun w hrun => ?_⟩
  exact (api_never_stored context [] [] (fun _ h => absurd h List.not_mem_nil) events w hrun).1

end YuriRtc
