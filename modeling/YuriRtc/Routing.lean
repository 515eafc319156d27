import YuriRtc.ServiceWorker
/-!
# Routing — what kind of request a fetch is, and how its answer may be cached

`packages/loader/src/routing.ts` (`classify`, `classifyRequest`), `logicalPathForScope` of `scope.ts`,
`responseCachePolicy` of `cache-policy.ts`, and what `handle` of `sw.ts` derives from them before it looks into the cache.
-/
namespace YuriRtc

structure ParsedUrl where
  origin : List Char
  pathname : List Char
  search : List Char
  hash : List Char
deriving DecidableEq, Repr

def ParsedUrl.key (url : ParsedUrl) : List Char × List Char × List Char := (url.origin, url.pathname, url.search)

inductive RequestMode where
  | sameOrigin
  | noCors
  | cors
  | navigate
  | websocket
deriving DecidableEq, Repr

inductive Destination where
  | empty
  | audio
  | audioworklet
  | document
  | embed
  | font
  | frame
  | iframe
  | image
  | json
  | manifest
  | object
  | paintworklet
  | report
  | script
  | serviceworker
  | sharedworker
  | style
  | track
  | video
  | worker
  | xslt
deriving DecidableEq, Repr

inductive RequestClass where
  | shell
  | route
  | cover
  | payload
  | api
  | other
deriving DecidableEq, Repr

structure Classification where
  kind : RequestClass
  policy : CachePolicy
  cacheable : Bool
deriving DecidableEq, Repr

/-- `POLICY`. -/
def RequestClass.policy : RequestClass → CachePolicy
  | .shell => .cacheFirstImmutable
  | .route => .staleWhileRevalidate
  | .cover => .cacheFirstLru
  | .payload => .never
  | .api => .never
  | .other => .revalidateLru

def isApiPath (path : List Char) : Bool := path == "/apiv2".toList || "/apiv2/".toList.isPrefixOf path

def classifyKind (pathname : List Char) : RequestClass :=
  if isApiPath pathname then .api
  else if "/a/".toList.isPrefixOf pathname then .shell
  else if "/filestorage/".toList.isPrefixOf pathname then
    let rest := pathname.drop "/filestorage/".toList.length
    match (rest.splitOn '/').filter (fun segment => segment != []) with
    | [first, leaf] =>
      if first = "gn".toList ∧ (".png".toList.isSuffixOf leaf = true ∨ ".html".toList.isSuffixOf leaf = true) then .cover
      else .payload
    | _ => .payload
  else if pathname = "/".toList ∨ ".html".toList.isSuffixOf pathname = true then .route
  else if pathname = "/favicon.ico".toList ∨ "/icons/".toList.isPrefixOf pathname = true then .other
  else if ".webmanifest".toList.isSuffixOf pathname = true ∨ pathname = "/manifest.json".toList then .route
  else .other

def classify (pathname : List Char) : Classification :=
  let kind := classifyKind pathname
  ⟨kind, kind.policy, kind.policy != .never⟩

/-- `classifyRequest`, of a request whose logical path is `pathname`. -/
def classifyRequest (pathname : List Char) (mode : RequestMode) (destination : Destination) : Classification :=
  if mode = .navigate ∨ destination = .document then ⟨.route, RequestClass.route.policy, true⟩
  else
    let pathClassification := classify pathname
    if pathClassification.kind = .api ∨ pathClassification.kind = .shell then pathClassification
    else if destination = .image then ⟨.cover, RequestClass.cover.policy, true⟩
    else if destination = .script ∨ destination = .style ∨ destination = .font ∨ destination = .worker ∨
        destination = .sharedworker ∨ destination = .serviceworker then
      ⟨.other, RequestClass.other.policy, true⟩
    else pathClassification

def logicalPathForScope (pathname scopePath : List Char) : Option (List Char) :=
  if scopePath = "/".toList then some (if "/".toList.isPrefixOf pathname then pathname else '/' :: pathname)
  else if scopePath.isPrefixOf pathname then some ('/' :: pathname.drop scopePath.length)
  else none

/-- `responseCachePolicy`.  The directive is trimmed of the blanks a header value can hold. -/
def responseCachePolicy (path : List Char) (fallback : CachePolicy) (headers : Headers) : CachePolicy :=
  let blank := fun c => c ∈ ['\t', '\x0b', '\x0c', ' ', '\xa0']
  let directive := (headers.get "x-yurirtc-cache".toList).map fun value => (Text.trim blank value).map Char.toLower
  if isApiPath path then .never
  else if directive = some "no-store".toList ∨ directive = some "never".toList then .never
  else if directive = some "cache".toList ∧ fallback = .never then .revalidateLru
  else fallback

/-- A `Request` as the worker's fetch listener gets it. -/
structure FetchRequest where
  isGet : Bool
  url : ParsedUrl
  mode : RequestMode
  destination : Destination
  cache : CacheMode
  headers : Headers

/-- Where the worker is registered: its origin, the directory of its script and `APP_BASE`. -/
structure Site where
  origin : List Char
  loaderDir : List Char
  appBase : List Char

namespace Site

variable (site : Site)

def handles (url : ParsedUrl) : Bool :=
  url.origin == site.origin &&
    !(["sw.js".toList, "client.js".toList, "test.html".toList].any fun file => url.pathname == site.loaderDir ++ file)

def logicalPath (url : ParsedUrl) : List Char := (logicalPathForScope url.pathname site.appBase).getD url.pathname

end Site

/-- What `handle` finds out about a request besides its own fields. -/
structure Found where
  connected : Bool
  expected : Bool
  staticShell : Bool
  wireGzip : Bool
  noCarrier : Bool
  sameEpoch : Bool

namespace FetchRequest

variable (request : FetchRequest) (logicalPath : List Char)

def classification : Classification := classifyRequest logicalPath request.mode request.destination

def topLevelNavigation : Bool :=
  request.mode == .navigate && request.destination != .iframe && request.destination != .frame

def alwaysFresh : Bool :=
  request.mode == .navigate ||
    ["/index.php".toList, "/index.html".toList, "/gxxes.json".toList, "/style.css".toList].any (logicalPath == ·)

/-- The request as `handle` treats it. -/
def fetch (found : Found) : Fetch :=
  let classification := request.classification logicalPath
  let staticPayload := classification.kind == .payload && found.expected
  let cachePolicy := if staticPayload then .revalidateLru else classification.policy
  { isGet := request.isGet
    headers := request.headers
    cache := request.cache
    policy := cachePolicy
    transportCacheable := (classification.cacheable || staticPayload) && (cachePolicy != .revalidateLru || found.expected)
    connected := found.connected
    expected := found.expected
    alwaysFresh := request.alwaysFresh logicalPath
    topLevelNavigation := request.topLevelNavigation
    staticShell := found.staticShell
    wireGzip := found.wireGzip
    noCarrier := found.noCarrier
    sameEpoch := found.sameEpoch }

/-- The cache rules for a request: the policy of its answer is `responseCachePolicy`. -/
def rules (rules : CacheRules) : CacheRules :=
  { rules with policyOf := fun response => responseCachePolicy logicalPath (request.classification logicalPath).policy response.headers }

end FetchRequest

end YuriRtc
