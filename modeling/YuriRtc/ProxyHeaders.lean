import YuriRtc.HttpHeader
import YuriRtc.Preconditions
/-!
# ProxyHeaders — the headers that cross to and from the backend

The header part of `Handler.proxy` in `content-node/handler.go`.  What a peer sends under the names that only the node may
state is dropped before anything is set (`proxyHeader_eq`), so the backend's view of who is asking does not depend on it.
-/
namespace YuriRtc

open HttpHeader

def wireAcceptEncodingHeader : List Char := "x-yurirtc-accept-wire-encoding".toList
def wireEncodingHeader : List Char := "x-yurirtc-wire-encoding".toList
def routeProbeHeader : List Char := "x-yurirtc-route-probe".toList
def peerAddressHeader : List Char := "X-YuriRTC-Peer".toList
def forwardedProtoHeader : List Char := "X-Forwarded-Proto".toList

def isForwardingHeader (name : List Char) : Bool :=
  (["forwarded", "x-forwarded-for", "x-forwarded-proto", "x-forwarded-host", "x-forwarded-port", "x-forwarded-server",
    "x-real-ip", "x-client-ip", "cf-connecting-ip", "true-client-ip", "fastly-client-ip", "x-azure-clientip",
    "cloudfront-viewer-address", "x-yurirtc-peer"].map String.toList).contains name

def isHopByHop (name : List Char) : Bool :=
  (["connection", "keep-alive", "proxy-authenticate", "proxy-authorization", "te", "trailer", "transfer-encoding", "upgrade",
    "content-length"].map String.toList).contains name

def isWireInternalHeader (name : List Char) : Bool :=
  equalFold name wireAcceptEncodingHeader || equalFold name wireEncodingHeader || equalFold name routeProbeHeader

def isDropped (name : List Char) : Bool :=
  isHopByHop name || isWireInternalHeader name || name == "host".toList || isForwardingHeader name

section Proxy
variable (runes : RuneCase)

/-- The header of the backend request; `peerAddress` is empty where it is not known. -/
def proxyHeader (peerAddress : List Char) (headers : HeaderPairs) : Header :=
  let header := headers.foldl (fun header pair =>
    let name := runes.lower pair.1
    if isDropped name then header else add header name pair.2) []
  let header := set header forwardedProtoHeader "https".toList
  if peerAddress ≠ [] then set header peerAddressHeader peerAddress else header

def headerPairsFrom (header : Header) : HeaderPairs := header.map fun pair => (runes.lower pair.1, pair.2)

def proxyResponseHeaders (header : Header) : HeaderPairs :=
  headerPairsFrom runes (del (del (del header wireAcceptEncodingHeader) wireEncodingHeader) routeProbeHeader)

end Proxy

/-! ### What is sent -/

def keeps (runes : RuneCase) (pair : List Char × List Char) : Bool := !isDropped (runes.lower pair.1)

def forwarded (runes : RuneCase) (pair : List Char × List Char) : List Char × List Char :=
  (canonicalKey (runes.lower pair.1), pair.2)

theorem foldl_add_eq (runes : RuneCase) (headers : HeaderPairs) (header : Header) :
    headers.foldl (fun header pair =>
      let name := runes.lower pair.1
      if isDropped name then header else add header name pair.2) header =
      header ++ (headers.filter (keeps runes)).map (forwarded runes) := by
  induction headers generalizing header with
  | nil => simp
  | cons pair headers ih =>
    rw [List.foldl_cons, ih]
    by_cases hdrop : isDropped (runes.lower pair.1) = true
    · simp [keeps, hdrop]
    · simp [keeps, hdrop, add, forwarded]

theorem proxyHeader_eq (runes : RuneCase) (peerAddress : List Char) (headers : HeaderPairs) :
    proxyHeader runes peerAddress headers =
      let header := set ((headers.filter (keeps runes)).map (forwarded runes)) forwardedProtoHeader "https".toList
      if peerAddress ≠ [] then set header peerAddressHeader peerAddress else header := by
  simp only [proxyHeader, foldl_add_eq, List.nil_append]

theorem lower_forwarded (runes : RuneCase) (pair : List Char × List Char) :
    runes.lower (forwarded runes pair).1 = runes.lower pair.1 :=
  runes.lower_canonicalKey_lower pair.1

variable {runes : RuneCase}

theorem mem_proxyHeader {peerAddress : List Char} {headers : HeaderPairs}
    {pair : List Char × List Char} (h : pair ∈ proxyHeader runes peerAddress headers) :
    (∃ sent ∈ headers, keeps runes sent = true ∧ pair = forwarded runes sent) ∨
      pair = (canonicalKey forwardedProtoHeader, "https".toList) ∨
      (peerAddress ≠ [] ∧ pair = (canonicalKey peerAddressHeader, peerAddress)) := by
  have hbase : pair ∈ set ((headers.filter (keeps runes)).map (forwarded runes)) forwardedProtoHeader "https".toList →
      (∃ sent ∈ headers, keeps runes sent = true ∧ pair = forwarded runes sent) ∨
        pair = (canonicalKey forwardedProtoHeader, "https".toList) := by
    intro hmem
    rcases List.mem_append.1 hmem with hmem | hmem
    · obtain ⟨sent, hsent, rfl⟩ := List.mem_map.1 (List.mem_filter.1 hmem).1
      exact .inl ⟨sent, (List.mem_filter.1 hsent).1, (List.mem_filter.1 hsent).2, rfl⟩
    · exact .inr (List.mem_singleton.1 hmem)
  rw [proxyHeader_eq] at h
  simp only at h
  split at h
  · next hpeer =>
    rcases List.mem_append.1 h with hmem | hmem
    · exact (hbase (List.mem_filter.1 hmem).1).imp_right .inl
    · exact .inr (.inr ⟨hpeer, List.mem_singleton.1 hmem⟩)
  · exact (hbase h).imp_right .inl

/-! ### Names that only the node may state -/

theorem not_dropped {pair : List Char × List Char} (h : keeps runes pair = true) :
    isWireInternalHeader (runes.lower pair.1) = false ∧ isForwardingHeader (runes.lower pair.1) = false := by
  simp_all [keeps, isDropped]

theorem isToken_stated : isToken forwardedProtoHeader = true ∧ isToken peerAddressHeader = true := by decide +kernel

theorem stated_names : isForwardingHeader (forwardedProtoHeader.map Char.toLower) = true ∧
    isForwardingHeader (peerAddressHeader.map Char.toLower) = true ∧
    canonicalKey forwardedProtoHeader ≠ canonicalKey peerAddressHeader := by
  decide +kernel

theorem forwarded_ne {sent : List Char × List Char} (hkeeps : keeps runes sent = true) {name : List Char}
    (htoken : isToken name = true) (hname : isForwardingHeader (name.map Char.toLower) = true) :
    (forwarded runes sent).1 ≠ canonicalKey name := by
  intro heq
  have hlower := lower_forwarded runes sent
  have hcapital : isToken (canonicalKey name) = true := by
    rw [canonicalKey, if_pos htoken]
    exact isToken_capitalize true htoken
  rw [heq, runes.lower_of_isToken hcapital, map_toLower_canonicalKey] at hlower
  rw [hlower, (not_dropped hkeeps).2] at hname
  cases hname

theorem filter_forwarded (headers : HeaderPairs) {name : List Char}
    (htoken : isToken name = true) (hname : isForwardingHeader (name.map Char.toLower) = true) :
    ((headers.filter (keeps runes)).map (forwarded runes)).filter (fun pair => pair.1 = canonicalKey name) = [] := by
  rw [List.filter_eq_nil_iff]
  intro pair hmem
  obtain ⟨sent, hsent, rfl⟩ := List.mem_map.1 hmem
  simpa using forwarded_ne (List.mem_filter.1 hsent).2 htoken hname

/-! ### The statement -/

theorem proxyHeader_perm {peerAddress : List Char} {first second : HeaderPairs}
    (h : (first.filter (keeps runes)).Perm (second.filter (keeps runes))) :
    (proxyHeader runes peerAddress first).Perm (proxyHeader runes peerAddress second) := by
  have hbase : (HttpHeader.set ((first.filter (keeps runes)).map (forwarded runes)) forwardedProtoHeader "https".toList).Perm
      (HttpHeader.set ((second.filter (keeps runes)).map (forwarded runes)) forwardedProtoHeader "https".toList) :=
    ((h.map _).filter _).append_right _
  rw [proxyHeader_eq, proxyHeader_eq]
  simp only
  split
  · exact (hbase.filter _).append_right _
  · exact hbase

theorem values_forwardedProto (runes : RuneCase) (peerAddress : List Char) (headers : HeaderPairs) :
    values (proxyHeader runes peerAddress headers) forwardedProtoHeader = ["https".toList] := by
  rw [proxyHeader_eq]
  simp only
  split
  · rw [values_set_ne _ _ stated_names.2.2.symm, values_set_self]
  · rw [values_set_self]

theorem values_peerAddress (runes : RuneCase) (peerAddress : List Char) (headers : HeaderPairs) :
    values (proxyHeader runes peerAddress headers) peerAddressHeader = if peerAddress = [] then [] else [peerAddress] := by
  rw [proxyHeader_eq]
  simp only
  by_cases hpeer : peerAddress = []
  · rw [if_neg (not_not.2 hpeer), if_pos hpeer, values_set_ne _ _ stated_names.2.2, values,
      filter_forwarded headers isToken_stated.2 stated_names.2.1]
    rfl
  · rw [if_pos hpeer, if_neg hpeer, values_set_self]

theorem isWireInternalHeader_congr {name other : List Char} (h : name.map Char.toLower = other.map Char.toLower) :
    isWireInternalHeader name = isWireInternalHeader other := by
  simp only [isWireInternalHeader, equalFold, h]

theorem forwarded_not_internal {sent : List Char × List Char} (h : keeps runes sent = true) :
    isWireInternalHeader (forwarded runes sent).1 = false :=
  (isWireInternalHeader_congr (map_toLower_canonicalKey _)).trans (not_dropped h).1

theorem canonical_internal {key : List Char} (htoken : isToken key = true) (hcanonical : canonicalKey key = key)
    (h : isWireInternalHeader key = true) : key = canonicalKey wireAcceptEncodingHeader ∨
      key = canonicalKey wireEncodingHeader ∨ key = canonicalKey routeProbeHeader := by
  have hkey {name : List Char} (hlower : name.map Char.toLower = name) (heq : equalFold key name = true) :
      key = canonicalKey name := by
    rw [equalFold, beq_iff_eq, hlower] at heq
    rw [← heq, canonicalKey_map_toLower htoken, hcanonical]
  simp only [isWireInternalHeader, Bool.or_eq_true] at h
  rcases h with (h | h) | h
  · exact .inl (hkey (by decide) h)
  · exact .inr (.inl (hkey (by decide) h))
  · exact .inr (.inr (hkey (by decide) h))

/-- **Who is asking does not depend on what the peer says.**  Requests whose headers agree up to those that are dropped
reach the backend with the same headers; the two that the node states have its values, there is no other forwarding header,
and none of the transport's own crosses in either direction. -/
theorem proxied_headers (runes : RuneCase) (peerAddress : List Char) :
    (∀ first second : HeaderPairs,
      (first.filter fun pair => !isDropped (runes.lower pair.1)).Perm
        (second.filter fun pair => !isDropped (runes.lower pair.1)) →
      (proxyHeader runes peerAddress first).Perm (proxyHeader runes peerAddress second)) ∧
    (∀ headers : HeaderPairs,
      values (proxyHeader runes peerAddress headers) forwardedProtoHeader = ["https".toList] ∧
      values (proxyHeader runes peerAddress headers) peerAddressHeader =
        (if peerAddress = [] then [] else [peerAddress]) ∧
      (∀ pair ∈ proxyHeader runes peerAddress headers, isForwardingHeader (runes.lower pair.1) = true →
        pair.1 = canonicalKey forwardedProtoHeader ∨ pair.1 = canonicalKey peerAddressHeader) ∧
      ∀ pair ∈ proxyHeader runes peerAddress headers, isWireInternalHeader pair.1 = false) ∧
    ∀ response : Header, (∀ pair ∈ response, isWireInternalHeader (runes.lower pair.1) = true →
      isToken pair.1 = true ∧ canonicalKey pair.1 = pair.1) → ∀ pair ∈ proxyResponseHeaders runes response, isWireInternalHeader pair.1 = false := by
  refine ⟨fun first second h => proxyHeader_perm h, fun headers => ⟨values_forwardedProto runes peerAddress headers,
    values_peerAddress runes peerAddress headers, fun pair hmem hforwarding => ?_, fun pair hmem => ?_⟩,
    fun response hkeys pair hmem => ?_⟩
  · rcases mem_proxyHeader hmem with ⟨sent, -, hkeeps, rfl⟩ | rfl | ⟨-, rfl⟩
    · rw [lower_forwarded, (not_dropped hkeeps).2] at hforwarding
      cases hforwarding
    · exact .inl rfl
    · exact .inr rfl
  · rcases mem_proxyHeader hmem with ⟨sent, -, hkeeps, rfl⟩ | rfl | ⟨-, rfl⟩
    · exact forwarded_not_internal hkeeps
    · decide +kernel
    · exact (by decide +kernel : isWireInternalHeader (canonicalKey peerAddressHeader) = false)
  obtain ⟨kept, hkept, rfl⟩ := List.mem_map.1 hmem
  simp only [del, List.mem_filter, decide_eq_true_eq] at hkept
  obtain ⟨⟨⟨hin, haccept⟩, hencoding⟩, hprobe⟩ := hkept
  by_contra hinternal
  rw [Bool.not_eq_false] at hinternal
  obtain ⟨htoken, hcanonical⟩ := hkeys kept hin hinternal
  -- a token is lowered as ASCII, so the test does not see the difference
  have hlower : (runes.lower kept.1).map Char.toLower = kept.1.map Char.toLower := by
    rw [runes.lower_of_isToken htoken, List.map_map]
    exact List.map_congr_left fun c _ => Text.toLower_toLower c
  rw [isWireInternalHeader_congr hlower] at hinternal
  rcases canonical_internal htoken hcanonical hinternal with h | h | h
  · exact haccept h
  · exact hencoding h
  · exact hprobe h

def asciiCase : RuneCase := ⟨Char.toLower, fun _ _ => rfl, Text.toLower_toLower⟩

/-- A peer that claims to be someone else, and one that does not. -/
theorem proxied_headers_claimed :
    let claimed : HeaderPairs := [("X-FORWARDED-For".toList, "10.0.0.1".toList), ("Accept".toList, "*/*".toList),
      ("x-yurirtc-PEER".toList, "10.0.0.1".toList)]
    let plain : HeaderPairs := [("Accept".toList, "*/*".toList)]
    (proxyHeader asciiCase "192.0.2.7".toList claimed).Perm (proxyHeader asciiCase "192.0.2.7".toList plain) ∧
      ∀ pair ∈ proxyResponseHeaders asciiCase [("X-Yurirtc-Wire-Encoding".toList, "gzip".toList), ("Etag".toList, [])],
        isWireInternalHeader pair.1 = false :=
  ⟨(proxied_headers asciiCase "192.0.2.7".toList).1 _ _ (by decide +kernel),
    (proxied_headers asciiCase "192.0.2.7".toList).2.2 _ (by decide +kernel)⟩

end YuriRtc
