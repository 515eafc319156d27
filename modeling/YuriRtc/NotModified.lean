import YuriRtc.ServiceWorker
/-!
# NotModified — which body a 304 is combined with

The worker asks with the validators of the entry it holds, unless the page has set its own: then the node's answer is about
what the page named, and the worker still combines it with the entry.  `combined_paired_iff` says when an entry, or an
answer, then carries the current tag over other bytes.
-/
namespace YuriRtc

namespace Headers

variable {name other : List Char}

variable (h : Headers)

theorem get_congr (hname : name.map Char.toLower = other.map Char.toLower) :
    h.get name = h.get other := by
  simp only [get, hname]

theorem get_set_self (name value : List Char) : (h.set name value).get name = some value := by
  grind [get, set]

theorem get_set_of_ne (value : List Char)
    (hne : other.map Char.toLower ≠ name.map Char.toLower) : (h.set name value).get other = h.get other := by
  have hlast : ((name.map Char.toLower, value).1 == other.map Char.toLower) = false := by
    simpa using hne.symm
  simp only [get, set, List.find?_append, List.find?_cons, hlast, List.find?_nil, Option.or_none, List.find?_filter]
  grind

theorem get_setMissing_self (name : List Char) (value : Option (List Char)) :
    (h.setMissing name value).get name = (h.get name).or (value.filter (· ≠ [])) := by
  cases value with
  | none => simp [setMissing]
  | some v =>
    by_cases hv : v = []
    · simp [setMissing, hv, Option.filter]
    · cases hget : h.get name <;> simp_all [setMissing, has, get_set_self, Option.filter]

theorem get_setMissing_of_ne (value : Option (List Char))
    (hne : other.map Char.toLower ≠ name.map Char.toLower) : (h.setMissing name value).get other = h.get other := by
  unfold setMissing
  split
  · split
    · exact h.get_set_of_ne _ hne
    · rfl
  · rfl

theorem filter_eq_find? (pairs : HeaderPairs) (hnodup : (pairs.map Prod.fst).Nodup) (name : List Char) :
    pairs.filter (fun pair => pair.1 == name) = (pairs.find? (fun pair => pair.1 == name)).toList := by
  induction pairs with
  | nil => rfl
  | cons pair rest ih => grind [List.filter_eq_nil_iff]

end Headers

namespace Fetch

variable (fetch : Fetch)

section

variable (headers : Headers) {name : List Char} (hcookie : equalFold name "cookie".toList = false)
  (hwire : equalFold name "x-yurirtc-accept-wire-encoding".toList = false)
include headers name hcookie hwire

theorem filter_buildHead :
    (fetch.buildHead headers).filter (fun pair => equalFold pair.1 name) =
      headers.pairs.filter (fun pair => pair.1 == name.map Char.toLower) := by
  have hkept : (Headers.without (Headers.without headers.pairs "cookie".toList)
      "x-yurirtc-accept-wire-encoding".toList).filter (fun pair => equalFold pair.1 name) =
      headers.pairs.filter (fun pair => pair.1 == name.map Char.toLower) := by
    simp only [Headers.without, List.filter_filter]
    refine List.filter_congr fun pair hpair => ?_
    simp_all [equalFold, headers.lower, beq_eq_false_iff_ne, Bool.and_eq_true, bne_iff_ne]
  have hadded : equalFold "x-yurirtc-accept-wire-encoding".toList name = false := by grind [equalFold]
  unfold buildHead
  cases fetch.wireGzip <;> simp_all

theorem joinedHeaderValue_buildHead :
    joinedHeaderValue (fetch.buildHead headers) name = headers.get name := by
  rw [joinedHeaderValue, fetch.filter_buildHead headers hcookie hwire, Headers.filter_eq_find? _ headers.nodup,
    Headers.get]
  cases headers.pairs.find? (fun pair => pair.1 == name.map Char.toLower) <;> simp [List.intercalate]

theorem headerValue_buildHead :
    headerValue (fetch.buildHead headers) name = (headers.get name).getD [] := by
  rw [headerValue, ← List.head?_filter, fetch.filter_buildHead headers hcookie hwire,
    Headers.filter_eq_find? _ headers.nodup, Headers.get]
  grind

end

def entryTag (cached : Response) : Option (List Char) := (cached.headers.get "etag".toList).filter (· ≠ [])

def sentDate (cached : Response) : Option (List Char) :=
  (fetch.headers.get "if-modified-since".toList).or
    ((cached.headers.get "last-modified".toList).filter (· ≠ []))

theorem get_ifNoneMatch (cached : Response) :
    (fetch.conditionalRequest cached).get "if-none-match".toList =
      (fetch.headers.get "if-none-match".toList).or (entryTag cached) := by
  rw [conditionalRequest, Headers.get_setMissing_of_ne _ _ (by decide), Headers.get_setMissing_self, entryTag]

theorem get_ifModifiedSince (cached : Response) :
    (fetch.conditionalRequest cached).get "if-modified-since".toList = fetch.sentDate cached := by
  rw [conditionalRequest, Headers.get_setMissing_self, Headers.get_setMissing_of_ne _ _ (by decide), sentDate]

def dateHolds (parseTime : List Char → Option Int) (cached : Response) (file : FileVersion) : Bool :=
  match fetch.sentDate cached with
  | none => false
  | some value =>
    value != [] &&
      match parseTime value with
      | some since => decide (file.modSecond ≤ since)
      | none => false

/-- **What the node makes of a conditional request**: the page's tags decide, or else the entry's, or else a date. -/
theorem requestNotModified_conditional (parseTime : List Char → Option Int) (cached : Response) (file : FileVersion) :
    requestNotModified parseTime true (fetch.buildHead (fetch.conditionalRequest cached)) file =
      match (fetch.headers.get "if-none-match".toList).or (entryTag cached) with
      | some value => ifNoneMatch value (staticETag file)
      | none => fetch.dateHolds parseTime cached file := by
  rw [requestNotModified, fetch.joinedHeaderValue_buildHead _ (by decide) (by decide), get_ifNoneMatch,
    fetch.headerValue_buildHead _ (by decide) (by decide), get_ifModifiedSince]
  grind [dateHolds]

end Fetch

/-! ### The node's file and the worker's entry -/

structure NodeFile where
  file : FileVersion
  headers : Headers
  tagged : headers.get "etag".toList = some (staticETag file)

/-- `Handler.static` for a file that exists. -/
def NodeFile.answer (node : NodeFile) (parseTime : List Char → Option Int) (getOrHead : Bool) (pairs : HeaderPairs) :
    Response :=
  if requestNotModified parseTime getOrHead pairs node.file then ⟨304, node.headers, []⟩
  else if headerValue pairs "range".toList = [] then ⟨200, node.headers, node.file.body⟩
  else
    match parseRange (headerValue pairs "range".toList) node.file.size with
    | none => ⟨416, node.headers, []⟩
    | some (first, last) => ⟨206, node.headers, (node.file.body.drop first).take (last - first + 1)⟩

/-- An entry of the cache: a whole response of the node about some version of the file, with the tag of that version where
it has one. -/
structure CachedEntry where
  version : FileVersion
  response : Response
  whole : response.status = 200
  body : response.body = version.body
  tagged : ∀ etag, response.headers.get "etag".toList = some etag → etag ≠ [] → etag = staticETag version

def NodeFile.Paired (node : NodeFile) (r : Response) : Prop :=
  r.headers.get "etag".toList = some (staticETag node.file) → r.body = node.file.body

/-- One header of a 304 in `mergeNotModified`. -/
def mergeHeader (headers : Headers) (pair : List Char × List Char) : Headers :=
  if pair.1.map Char.toLower = "content-length".toList then headers else headers.set pair.1 pair.2

theorem get_mergeHeader_of_ne (headers : Headers) {pair : List Char × List Char} {name : List Char}
    (hne : name.map Char.toLower ≠ pair.1.map Char.toLower) : (mergeHeader headers pair).get name = headers.get name := by
  unfold mergeHeader
  split
  · rfl
  · exact headers.get_set_of_ne _ hne

theorem get_foldl_mergeHeader_of_absent (pairs : HeaderPairs) (headers : Headers) {name : List Char}
    (habsent : ∀ pair ∈ pairs, name.map Char.toLower ≠ pair.1.map Char.toLower) :
    (pairs.foldl mergeHeader headers).get name = headers.get name := by
  induction pairs generalizing headers with
  | nil => rfl
  | cons pair rest ih =>
    rw [List.foldl_cons, ih _ fun other hother => habsent other (List.mem_cons_of_mem _ hother)]
    exact get_mergeHeader_of_ne headers (habsent pair List.mem_cons_self)

theorem get_foldl_mergeHeader (pairs : HeaderPairs) (hlower : ∀ pair ∈ pairs, pair.1.map Char.toLower = pair.1)
    (hnodup : (pairs.map Prod.fst).Nodup) (headers : Headers) {name value : List Char}
    (hlength : name.map Char.toLower ≠ "content-length".toList)
    (h : (pairs.find? (fun pair => pair.1 == name.map Char.toLower)).map Prod.snd = some value) :
    (pairs.foldl mergeHeader headers).get name = some value := by
  induction pairs generalizing headers with
  | nil => cases h
  | cons pair rest ih =>
    simp only [List.map_cons, List.nodup_cons] at hnodup
    have hlow := hlower pair List.mem_cons_self
    have hlows : ∀ other ∈ rest, other.1.map Char.toLower = other.1 :=
      fun other hother => hlower other (List.mem_cons_of_mem _ hother)
    rw [List.foldl_cons]
    by_cases hpair : pair.1 = name.map Char.toLower
    · rw [List.find?_cons_of_pos (by simpa using hpair)] at h
      cases h
      have habsent : ∀ other ∈ rest, name.map Char.toLower ≠ other.1.map Char.toLower := by grind
      rw [get_foldl_mergeHeader_of_absent rest _ habsent, mergeHeader, if_neg (by rwa [hlow, hpair])]
      rw [Headers.get_congr _ (hpair.symm.trans hlow.symm)]
      exact headers.get_set_self pair.1 pair.2
    · rw [List.find?_cons_of_neg (by simpa using hpair)] at h
      exact ih hlows hnodup.2 _ h

theorem mergeNotModified_etag (cached notModified : Response) {etag : List Char}
    (h : notModified.headers.get "etag".toList = some etag) :
    (mergeNotModified cached notModified).headers.get "etag".toList = some etag :=
  get_foldl_mergeHeader _ notModified.headers.lower notModified.headers.nodup cached.headers (by decide) h

/-- The node says 304 about bytes the entry does not have: to tags the page brought itself, or to a date, where neither
page nor entry has a tag. -/
def Fetch.Misled (fetch : Fetch) (parseTime : List Char → Option Int) (entry : CachedEntry) (node : NodeFile) : Prop :=
  entry.response.body ≠ node.file.body ∧
    ((∃ value, fetch.headers.get "if-none-match".toList = some value ∧ ifNoneMatch value (staticETag node.file) = true) ∨
      (fetch.headers.get "if-none-match".toList = none ∧ Fetch.entryTag entry.response = none ∧
        fetch.dateHolds parseTime entry.response node.file = true))

theorem Fetch.misled_iff (fetch : Fetch) (parseTime : List Char → Option Int) (entry : CachedEntry) (node : NodeFile)
    (hidentifies : staticETag entry.version = staticETag node.file → entry.version.body = node.file.body) :
    (requestNotModified parseTime true (fetch.buildHead (fetch.conditionalRequest entry.response)) node.file = true ∧
      entry.response.body ≠ node.file.body) ↔ fetch.Misled parseTime entry node := by
  rw [fetch.requestNotModified_conditional, Misled, and_comm]
  refine and_congr_right fun hbody => ?_
  cases hown : fetch.headers.get "if-none-match".toList with
  | some value => simp
  | none =>
    cases htag : Fetch.entryTag entry.response with
    | none => simp
    | some etag =>
      -- the entry's own tag matches only the version it was made of
      obtain ⟨hget, hne⟩ := Option.filter_eq_some_iff.1 htag
      have hetag : etag = staticETag entry.version := entry.tagged etag hget (by simpa using hne)
      simp only [Option.none_or, reduceCtorEq, false_and, and_false, or_false, exists_false, iff_false]
      intro hmatch
      rw [hetag] at hmatch
      exact hbody (entry.body.trans (hidentifies (ifNoneMatch_staticETag hmatch)))

/-! ### What the worker returns and stores -/

/-- `handle` asks the node about the entry it holds. -/
structure Fetch.Asks (fetch : Fetch) (around : Surroundings) (hit : Response) : Prop where
  notShell : (fetch.topLevelNavigation && (fetch.expected || fetch.staticShell)) = false
  validator : fetch.validatorCacheHit around = some hit
  mayAsk : fetch.cache ≠ .onlyIfCached
  carried : ¬ (fetch.connected = false ∧ fetch.expected = false)
  notCold : ¬ (fetch.connected = false ∧ fetch.topLevelNavigation = true)

/-- A response `handle` returns or stores, or `revalidate` stores, when it combines a 304 with the entry. -/
inductive Fetch.Combined (fetch : Fetch) (around : Surroundings) (hit : Response) : Response → Prop where
  | returned (answer r : Response) (hasks : fetch.Asks around hit)
      (hanswer : fetch.fromTransport around (fetch.conditionalRequest hit) = some answer) (h304 : answer.status = 304)
      (h : (fetch.handle around).answer = .response r) : Combined fetch around hit r
  | stored (answer r : Response) (hasks : fetch.Asks around hit)
      (hanswer : fetch.fromTransport around (fetch.conditionalRequest hit) = some answer) (h304 : answer.status = 304)
      (h : (fetch.handle around).stored = some r) : Combined fetch around hit r
  | revalidated (answer r : Response) (hfires : fetch.revalidates around = some hit)
      (hanswer : fetch.fromTransport around (fetch.conditionalRequest hit) = some answer) (h304 : answer.status = 304)
      (h : (fetch.revalidate around hit).1 = some r) : Combined fetch around hit r

variable {fetch : Fetch}

theorem CacheRules.put_some {rules : CacheRules} {policy : CachePolicy} {r r' : Response}
    (h : rules.put fetch policy r = some r') : r' = r := by simp_all [put]

variable {around : Surroundings}

theorem Fetch.handle_of_asks {hit answer : Response} (hasks : fetch.Asks around hit)
    (hanswer : fetch.fromTransport around (fetch.conditionalRequest hit) = some answer) (h304 : answer.status = 304) :
    fetch.handle around = ⟨.response (mergeNotModified hit answer),
      around.rules.put fetch (around.rules.policyOf (mergeNotModified hit answer)) (mergeNotModified hit answer),
      around.rules.forbidsFallback (mergeNotModified hit answer) && fetch.sameEpoch⟩ := by
  have hnot : (fetch.usable around).filter (fetch.servesAsIs around.rules) = none := by
    obtain ⟨husable, hserves⟩ := Option.filter_eq_some_iff.1 hasks.validator
    simp_all
  simp only [handle, hasks.notShell, hnot, hasks.mayAsk, hasks.carried, hasks.notCold, hasks.validator, hanswer, h304,
    Bool.false_eq_true, if_false, if_true]

theorem Fetch.revalidate_of_304 {hit answer : Response}
    (hanswer : fetch.fromTransport around (fetch.conditionalRequest hit) = some answer) (h304 : answer.status = 304) :
    (fetch.revalidate around hit).1 = if (mergeNotModified hit answer).ok = true then
      around.rules.put fetch .staleWhileRevalidate (mergeNotModified hit answer) else none := by grind [revalidate]

theorem Fetch.Combined.eq_merged {hit r : Response}
    (h : fetch.Combined around hit r) : ∃ answer, fetch.fromTransport around (fetch.conditionalRequest hit) = some answer ∧
      answer.status = 304 ∧ r = mergeNotModified hit answer := by
  cases h with
  | returned answer _ hasks hanswer h304 h =>
    rw [handle_of_asks hasks hanswer h304] at h
    exact ⟨answer, hanswer, h304, (Answer.response.inj h).symm⟩
  | stored answer _ hasks hanswer h304 h =>
    rw [handle_of_asks hasks hanswer h304] at h
    exact ⟨answer, hanswer, h304, CacheRules.put_some h⟩
  | revalidated answer _ hfires hanswer h304 h =>
    refine ⟨answer, hanswer, h304, ?_⟩
    rw [revalidate_of_304 hanswer h304] at h
    split at h
    · exact CacheRules.put_some h
    · cases h

theorem Fetch.isGet_of_usable {hit : Response}
    (h : fetch.usable around = some hit) : fetch.isGet = true := by simp_all [usable]

theorem NodeFile.answer_eq {node : NodeFile} {parseTime : List Char → Option Int} {getOrHead : Bool} {pairs : HeaderPairs}
    (h304 : (node.answer parseTime getOrHead pairs).status = 304) :
    requestNotModified parseTime getOrHead pairs node.file = true ∧
      node.answer parseTime getOrHead pairs = ⟨304, node.headers, []⟩ := by
  unfold answer at h304 ⊢
  by_cases hcurrent : requestNotModified parseTime getOrHead pairs node.file = true
  · exact ⟨hcurrent, if_pos hcurrent⟩
  rw [if_neg hcurrent] at h304
  split at h304
  · cases h304
  · split at h304 <;> cases h304

def Surroundings.serving (rules : CacheRules) (parseTime : List Char → Option Int) (fetch : Fetch) (entry : CachedEntry)
    (node : NodeFile) (later : Option Response) (networkFails : Bool) : Surroundings where
  rules := rules
  hit := some entry.response
  later := later
  networkFails := networkFails
  transport := fun pairs => some (node.answer parseTime fetch.isGet pairs)

def CachedEntry.merged (entry : CachedEntry) (node : NodeFile) : Response :=
  mergeNotModified entry.response ⟨304, node.headers, []⟩

/-- A 304 about the entry leads to a response: `handle` asks, or `revalidate` runs and may store what it makes of it. -/
def Fetch.Uses (fetch : Fetch) (around : Surroundings) (entry : CachedEntry) (node : NodeFile) : Prop :=
  fetch.Asks around entry.response ∨ (fetch.revalidates around = some entry.response ∧
    around.rules.put fetch .staleWhileRevalidate (entry.merged node) ≠ none)

theorem Fetch.combined_of_uses {entry : CachedEntry} {node : NodeFile}
    (huses : fetch.Uses around entry node)
    (hanswer : fetch.fromTransport around (fetch.conditionalRequest entry.response) = some ⟨304, node.headers, []⟩) :
    fetch.Combined around entry.response (entry.merged node) := by
  rcases huses with hasks | ⟨hfires, hput⟩
  · refine .returned _ _ hasks hanswer rfl ?_
    rw [handle_of_asks hasks hanswer rfl]
    rfl
  obtain ⟨r, hr⟩ := Option.ne_none_iff_exists'.1 hput
  refine .revalidated _ _ hfires hanswer rfl ?_
  have hstatus : (entry.merged node).status = 200 := entry.whole
  have hok : (entry.merged node).ok = true := by
    rw [Response.ok, hstatus]
    rfl
  rw [revalidate_of_304 hanswer rfl]
  exact (if_pos hok).trans (hr.trans (congrArg some (CacheRules.put_some hr)))

/-- **What is made of a 304 never carries the node's tag over other bytes, exactly where the node is not misled about an
entry that is used.**  Two versions of a file with one tag have the same bytes. -/
theorem combined_paired_iff (rules : CacheRules) (parseTime : List Char → Option Int) (fetch : Fetch) (entry : CachedEntry)
    (node : NodeFile) (later : Option Response) (networkFails : Bool)
    (hidentifies : staticETag entry.version = staticETag node.file → entry.version.body = node.file.body) :
    (∀ r, fetch.Combined (.serving rules parseTime fetch entry node later networkFails) entry.response r → node.Paired r) ↔
      ¬ (fetch.Misled parseTime entry node ∧
        fetch.Uses (.serving rules parseTime fetch entry node later networkFails) entry node) := by
  have hmisled := fetch.misled_iff parseTime entry node hidentifies
  generalize haround : Surroundings.serving rules parseTime fetch entry node later networkFails = around
  have htransport : fetch.fromTransport around (fetch.conditionalRequest entry.response) =
      some (node.answer parseTime fetch.isGet (fetch.buildHead (fetch.conditionalRequest entry.response))) := by
    rw [← haround]
    rfl
  constructor
  · rintro hpaired ⟨hmis, huses⟩
    obtain ⟨hcurrent, hbody⟩ := hmisled.2 hmis
    have hget : fetch.isGet = true := by
      rcases huses with hasks | ⟨hfires, -⟩
      · exact Fetch.isGet_of_usable (Option.filter_eq_some_iff.1 hasks.validator).1
      · exact Fetch.isGet_of_usable (Option.filter_eq_some_iff.1 hfires).1
    rw [hget, NodeFile.answer, if_pos hcurrent] at htransport
    have hmerged := hpaired _ (Fetch.combined_of_uses huses htransport)
    exact hbody (hmerged (mergeNotModified_etag _ _ node.tagged))
  · intro hnot r hcombined htag
    by_contra hbody
    obtain ⟨answer, hanswer, h304, rfl⟩ := hcombined.eq_merged
    rw [htransport, Option.some.injEq] at hanswer
    subst hanswer
    obtain ⟨hcurrent, heq⟩ := NodeFile.answer_eq h304
    have huses : fetch.Uses around entry node := by
      cases hcombined with
      | returned _ _ hasks => exact .inl hasks
      | stored _ _ hasks => exact .inl hasks
      | revalidated _ _ hfires _ _ h =>
        refine .inr ⟨hfires, fun hnone => ?_⟩
        rw [Fetch.revalidate_of_304 htransport h304, heq] at h
        split at h
        · cases hnone.symm.trans h
        · cases h
    have hget : fetch.isGet = true := by
      rcases huses with hasks | ⟨hfires, -⟩
      · exact Fetch.isGet_of_usable (Option.filter_eq_some_iff.1 hasks.validator).1
      · exact Fetch.isGet_of_usable (Option.filter_eq_some_iff.1 hfires).1
    rw [hget] at hcurrent
    exact hnot ⟨hmisled.1 ⟨hcurrent, hbody⟩, huses⟩

/-! ### Two versions of a page -/

def tagHeaders (file : FileVersion) : Headers where
  pairs := [("etag".toList, staticETag file)]
  lower := by simp_all
  nodup := by simp

def oldPage : FileVersion := ⟨1, 1000000000, [1]⟩
def newPage : FileVersion := ⟨2, 2000000000, [2, 2]⟩

def entryOf (file : FileVersion) : CachedEntry where
  version := file
  response := ⟨200, tagHeaders file, file.body⟩
  whole := rfl
  body := rfl
  tagged := by
    intro etag hget _
    exact (Option.some.inj hget).symm

def nodeOf (file : FileVersion) : NodeFile := ⟨file, tagHeaders file, rfl⟩

def plainRules : CacheRules :=
  ⟨fun _ => true, fun _ => false, fun _ => false, fun _ => true, fun _ => false, fun _ => .revalidateLru⟩

def plainFetch (headers : Headers) : Fetch :=
  ⟨true, headers, .default, .revalidateLru, true, true, true, false, false, false, true, false, true⟩

/-- `If-None-Match: *`. -/
def starHeaders : Headers where
  pairs := [("if-none-match".toList, ['*'])]
  lower := by simp_all
  nodup := by simp

def Answer.response? : Answer → Option Response
  | .response r => some r
  | .shell | .network | .offline | .gatewayTimeout | .transportError => none

/-- **The page asks with `If-None-Match: *` while the worker holds an old entry**: the old bytes are returned and stored
under the new tag. -/
theorem starred_fetch_mispairs :
    let fetch := plainFetch starHeaders
    let outcome := fetch.handle (.serving plainRules (fun _ => none) fetch (entryOf oldPage) (nodeOf newPage) none false)
    (outcome.answer.response?.map fun r => (r.headers.get "etag".toList, r.body)) = some (some (staticETag newPage), [1]) ∧
      (outcome.stored.map fun r => (r.headers.get "etag".toList, r.body)) = some (some (staticETag newPage), [1]) ∧
      newPage.body = [2, 2] ∧ staticETag oldPage ≠ staticETag newPage := by
  decide +kernel

/-- A page that sets no validators gets its unchanged entry back, under the tag it had. -/
theorem combined_paired_iff_unchanged :
    let fetch := plainFetch Headers.empty
    let around := Surroundings.serving plainRules (fun _ => none) fetch (entryOf newPage) (nodeOf newPage) none false
    (fetch.handle around).stored.isSome = true ∧
      ∀ r, fetch.Combined around (entryOf newPage).response r → (nodeOf newPage).Paired r := by
  refine ⟨by decide +kernel, ?_⟩
  refine (combined_paired_iff plainRules (fun _ => none) _ (entryOf newPage) (nodeOf newPage) none false fun _ => rfl).2 ?_
  rintro ⟨⟨hbody, -⟩, -⟩
  exact hbody rfl

end YuriRtc
