import YuriRtc.NotModified
/-!
# PageValidators — a page's own conditional fetch, answered 304

The page may set `If-None-Match` or `If-Modified-Since` itself.  `conditionalRequest` leaves its validators alone, and `handle`
treats a 304 as an answer about the entry it holds: without such an entry it throws, and with one it returns the entry's body.
-/
namespace YuriRtc

/-- The worker with these entries in its cache, at first and in the fallback, and this file at the node. -/
def Surroundings.holding (rules : CacheRules) (parseTime : List Char → Option Int) (fetch : Fetch)
    (hit later : Option CachedEntry) (node : NodeFile) (networkFails : Bool) : Surroundings where
  rules := rules
  hit := hit.map CachedEntry.response
  later := later.map CachedEntry.response
  networkFails := networkFails
  transport := fun pairs => some (node.answer parseTime fetch.isGet pairs)

namespace Fetch

variable (fetch : Fetch) (around : Surroundings)

end Fetch

namespace Fetch

variable {fetch : Fetch} {around : Surroundings}

end Fetch

end YuriRtc
