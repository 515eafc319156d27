import YuriRtc.Assoc
import YuriRtc.CookieSweep
/-!
# CookieCalls — the jar as its callers see it, one call after the other

`applySetCookie` and `cookieHeader` of `packages/loader/src/session.ts` where no two calls overlap, in memory and in IndexedDB.
The clock may move between the two times `applySetCookie` reads it.  A `Map` hands its rows out in another order than a
store with a key path does; a call of `cookieHeader` may have them in any.
-/
namespace YuriRtc

abbrev CookieStore := AList (fun _ : CookieKey => StoredCookie)

inductive JarCall where
  | applySetCookie (header requestPath : List Char) (parsedAt checkedAt : Int)
  | cookieHeader (requestPath : List Char) (now : Int) (all : List StoredCookie)
deriving DecidableEq, Repr

structure CallerJar where
  store : CookieStore
  now : Int

namespace CallerJar

def empty : CallerJar := ⟨∅, 0⟩

def rows (jar : CallerJar) : List StoredCookie := jar.store.entries.map Sigma.snd

def step (dateParse : List Char → Option Int) (memoryOnly : Bool) (jar : CallerJar) : JarCall → Option CallerJar
  | .applySetCookie header requestPath parsedAt checkedAt =>
    if jar.now ≤ parsedAt ∧ parsedAt ≤ checkedAt then
      match parseSetCookie dateParse parsedAt header requestPath with
      | none => some { jar with now := checkedAt }
      | some cookie =>
        if cookie.isExpired checkedAt then some ⟨jar.store.erase cookie.key, checkedAt⟩
        else some ⟨jar.store.insert cookie.key cookie, checkedAt⟩
    else none
  | .cookieHeader _ now all =>
    if jar.now ≤ now ∧ all.Perm jar.rows then
      some ⟨if memoryOnly then jar.store else CookieJar.eraseAll jar.store (CookieJar.expiredIn all now), now⟩
    else none

/-- What a call makes the most recent `Set-Cookie` of a key. -/
def latest (dateParse : List Char → Option Int) (key : CookieKey) (before : Option StoredCookie) : JarCall → Option StoredCookie
  | .applySetCookie header requestPath parsedAt _ =>
    match parseSetCookie dateParse parsedAt header requestPath with
    | some cookie => if cookie.key = key then some cookie else before
    | none => before
  | .cookieHeader _ _ _ => before

/-- The most recent `Set-Cookie` of a key in a sequence of calls, whatever its expiry. -/
def latestOf (dateParse : List Char → Option Int) (calls : List JarCall) (key : CookieKey) : Option StoredCookie :=
  calls.foldl (latest dateParse key) none

structure Holds (last : CookieKey → Option StoredCookie) (jar : CallerJar) : Prop where
  keyed : ∀ key cookie, last key = some cookie → cookie.key = key
  recent : ∀ key cookie, jar.store.lookup key = some cookie → last key = some cookie
  kept : ∀ key cookie, last key = some cookie → cookie.isExpired jar.now = false → jar.store.lookup key = some cookie

variable {dateParse : List Char → Option Int} {memoryOnly : Bool} {last : CookieKey → Option StoredCookie}
  {jar jar' : CallerJar}

variable {cookie : StoredCookie}

theorem isExpired_earlier {now later : Int} (hle : now ≤ later)
    (h : cookie.isExpired later = false) : cookie.isExpired now = false := by
  by_contra hexpired
  rw [CookieJar.isExpired_mono hle (by simpa using hexpired)] at h
  cases h

theorem lookup_of_eraseAll {key : CookieKey} : ∀ (cookies : List StoredCookie) (store : CookieStore),
    (CookieJar.eraseAll store cookies).lookup key = some cookie → store.lookup key = some cookie
  | [], _, h => h
  | old :: cookies, store, h => by
    have herased := lookup_of_eraseAll cookies (store.erase old.key) h
    rw [Assoc.lookup_erase_eq] at herased
    grind

theorem Holds.mem_rows_iff (h : Holds last jar) :
    cookie ∈ jar.rows ↔ jar.store.lookup cookie.key = some cookie := by
  constructor
  · intro hmem
    obtain ⟨⟨key, _⟩, hentry, rfl⟩ := List.mem_map.1 hmem
    have hlookup := (Assoc.mem_entries_iff_lookup _ _ _).1 hentry
    rwa [h.keyed key _ (h.recent key _ hlookup)]
  · intro hlookup
    exact List.mem_map.2 ⟨⟨cookie.key, cookie⟩, (Assoc.mem_entries_iff_lookup _ _ _).2 hlookup, rfl⟩

theorem Holds.step {call : JarCall} (h : Holds last jar) (hs : jar.step dateParse memoryOnly call = some jar') :
    Holds (fun key => latest dateParse key (last key) call) jar' := by
  cases call with
  | applySetCookie header requestPath parsedAt checkedAt =>
    simp only [CallerJar.step] at hs
    obtain ⟨⟨hparsed, hchecked⟩, hs⟩ := Option.ite_none_right_eq_some.1 hs
    have hle : jar.now ≤ checkedAt := hparsed.trans hchecked
    cases hcookie : parseSetCookie dateParse parsedAt header requestPath with
    | none =>
      simp only [hcookie, Option.some.injEq] at hs
      subst hs
      simp only [latest, hcookie]
      exact ⟨h.keyed, h.recent, fun key cookie hlast hfresh => h.kept key cookie hlast (isExpired_earlier hle hfresh)⟩
    | some set =>
      simp only [hcookie] at hs
      simp only [latest, hcookie]
      -- the other keys are as they were
      have hkept : ∀ key cookie, last key = some cookie → cookie.isExpired checkedAt = false →
          jar.store.lookup key = some cookie :=
        fun key cookie hlast hfresh => h.kept key cookie hlast (isExpired_earlier hle hfresh)
      by_cases hexpired : set.isExpired checkedAt = true
      · rw [if_pos hexpired, Option.some.injEq] at hs
        subst hs
        refine ⟨fun key cookie hlast => ?_, fun key cookie hlookup => ?_, fun key cookie hlast hfresh => ?_⟩
        · grind [h.keyed key cookie]
        · rw [Assoc.lookup_erase_eq] at hlookup
          grind [h.recent key cookie]
        · rw [Assoc.lookup_erase_eq]
          grind [hkept key cookie]
      · rw [if_neg hexpired, Option.some.injEq] at hs
        subst hs
        refine ⟨fun key cookie hlast => ?_, fun key cookie hlookup => ?_, fun key cookie hlast hfresh => ?_⟩
        · grind [h.keyed key cookie]
        · rw [Assoc.lookup_insert_eq] at hlookup
          grind [h.recent key cookie]
        · rw [Assoc.lookup_insert_eq]
          grind [hkept key cookie]
  | cookieHeader requestPath now all =>
    simp only [CallerJar.step] at hs
    obtain ⟨⟨hle, hall⟩, hs⟩ := Option.ite_none_right_eq_some.1 hs
    cases hs
    refine ⟨h.keyed, fun key cookie hlookup => ?_, fun key cookie hlast hfresh => ?_⟩
    · refine h.recent key cookie ?_
      cases memoryOnly with
      | true => exact hlookup
      | false => exact lookup_of_eraseAll _ _ hlookup
    have hthere := h.kept key cookie hlast (isExpired_earlier hle hfresh)
    cases memoryOnly with
    | true => exact hthere
    | false =>
      -- only keys of rows that have expired are swept
      refine (CookieJar.lookup_eraseAll key _ _ fun old hold hkey => ?_).trans hthere
      obtain ⟨hmem, hexpired⟩ := List.mem_filter.1 hold
      have hrow := h.mem_rows_iff.1 (hall.mem_iff.1 hmem)
      rw [hkey, hthere, Option.some.injEq] at hrow
      rw [← hrow, hfresh] at hexpired
      cases hexpired

theorem Holds.run : ∀ {calls b : List JarCall} {jar jar' : CallerJar},
    Holds (latestOf dateParse b) jar → Steps.run (CallerJar.step dateParse memoryOnly) jar calls = some jar' →
      Holds (latestOf dateParse (b ++ calls)) jar'
  | [], _, _, _, h, hrun => by
    cases hrun
    rwa [List.append_nil]
  | call :: calls, b, jar, jar', h, hrun => by
    obtain ⟨next, hstep⟩ : ∃ next, jar.step dateParse memoryOnly call = some next := by
      cases hstep : jar.step dateParse memoryOnly call with
      | none => simp [Steps.run, hstep] at hrun
      | some next => exact ⟨next, rfl⟩
    rw [Steps.run_cons _ hstep] at hrun
    have hnext : Holds (latestOf dateParse (b ++ [call])) next := by
      have hlatest : latestOf dateParse (b ++ [call]) = fun key => latest dateParse key (latestOf dateParse b key) call :=
        funext fun key => by simp [latestOf]
      rw [hlatest]
      exact h.step hstep
    have hdone := Holds.run hnext hrun
    rwa [List.append_assoc] at hdone

theorem Holds.nodup (h : Holds last jar) : (jar.rows.map StoredCookie.key).Nodup := by
  have hkeys : jar.rows.map StoredCookie.key = jar.store.entries.map Sigma.fst := by
    rw [rows, List.map_map]
    refine List.map_congr_left fun entry hentry => ?_
    exact h.keyed _ _ (h.recent _ _ ((Assoc.mem_entries_iff_lookup _ entry.1 entry.2).1 hentry))
  rw [hkeys]
  exact jar.store.nodupKeys

end CallerJar

/-- **What `cookieHeader` answers.**  In either storage mode, after any calls that do not overlap, under a clock that does
not go back: the pairs of exactly those cookies that are the most recent for their path and name, have not expired and match
the path, each once, longer paths first; and `undefined` when there are none. -/
theorem cookieHeader_latest (dateParse : List Char → Option Int) (memoryOnly : Bool) (calls : List JarCall) (jar next : CallerJar)
    (requestPath : List Char) (now : Int) (all : List StoredCookie)
    (hrun : Steps.run (CallerJar.step dateParse memoryOnly) .empty calls = some jar)
    (hcall : jar.step dateParse memoryOnly (.cookieHeader requestPath now all) = some next) :
    ∃ shown : List StoredCookie,
      CookieJar.cookieHeader all now requestPath = (if shown = [] then none else
        some (List.intercalate "; ".toList (shown.map fun cookie => cookie.name ++ '=' :: cookie.value))) ∧
      (∀ cookie, cookie ∈ shown ↔ CallerJar.latestOf dateParse calls cookie.key = some cookie ∧
        cookie.isExpired now = false ∧ cookiePathMatches requestPath cookie.path = true) ∧
      (shown.map StoredCookie.key).Nodup ∧ shown.Pairwise (fun a b => b.path.length ≤ a.path.length) := by
  have hholds : CallerJar.Holds (CallerJar.latestOf dateParse calls) jar :=
    CallerJar.Holds.run (b := []) ⟨by simp [CallerJar.latestOf], by simp [CallerJar.empty], by simp [CallerJar.latestOf]⟩ hrun
  simp only [CallerJar.step] at hcall
  obtain ⟨⟨hle, hall⟩, -⟩ := Option.ite_none_right_eq_some.1 hcall
  have hlive : ∀ cookie, cookie ∈ all.filter (fun cookie => !cookie.isExpired now && cookiePathMatches requestPath cookie.path) ↔
      CallerJar.latestOf dateParse calls cookie.key = some cookie ∧ cookie.isExpired now = false ∧
        cookiePathMatches requestPath cookie.path = true := by
    intro cookie
    rw [List.mem_filter, hall.mem_iff, hholds.mem_rows_iff, Bool.and_eq_true, Bool.not_eq_true']
    constructor
    · rintro ⟨hlookup, hfresh, hmatch⟩
      exact ⟨hholds.recent _ _ hlookup, hfresh, hmatch⟩
    · rintro ⟨hlast, hfresh, hmatch⟩
      exact ⟨hholds.kept _ _ hlast (CallerJar.isExpired_earlier hle hfresh), hfresh, hmatch⟩
  have hkeys : ((all.filter (fun cookie => !cookie.isExpired now && cookiePathMatches requestPath cookie.path)).map
      StoredCookie.key).Nodup :=
    (List.filter_sublist.map _).nodup ((hall.map _).nodup_iff.2 hholds.nodup)
  unfold CookieJar.cookieHeader
  generalize all.filter (fun cookie => !cookie.isExpired now && cookiePathMatches requestPath cookie.path) = live at hlive hkeys
  have hsorted := List.mergeSort_perm live (fun a b : StoredCookie => decide (b.path.length ≤ a.path.length))
  refine ⟨_, ?_, fun cookie => hsorted.mem_iff.trans (hlive cookie), (hsorted.map _).nodup_iff.2 hkeys, ?_⟩
  · by_cases hnone : live = []
    · simp [hnone]
    have hsome : live.mergeSort (fun a b => decide (b.path.length ≤ a.path.length)) ≠ [] := fun hnil =>
      hnone (List.Perm.eq_nil (hnil ▸ hsorted.symm))
    rw [if_neg hnone, if_neg hsome]
  · have hpairs := @List.pairwise_mergeSort StoredCookie (fun a b => decide (b.path.length ≤ a.path.length))
      (fun a b c hab hbc => by simp_all; omega) (fun a b => by simp; omega) live
    exact hpairs.imp fun h => of_decide_eq_true h

theorem cookieHeader_latest_login :
    let set (header : String) (at_ : Int) : JarCall := .applySetCookie header.toList "/api/".toList at_ at_
    let calls := [set "sid=1; Path=/" 0, set "t=2; Path=/api" 1, set "u=3; Max-Age=9" 2, set "u=4; Max-Age=0" 3]
    let all : List StoredCookie := [⟨['t'], ['2'], "/api".toList, none⟩, ⟨"sid".toList, ['1'], ['/'], none⟩]
    ∃ shown : List StoredCookie, CookieJar.cookieHeader all 4 "/api/x".toList = (if shown = [] then none else
        some (List.intercalate "; ".toList (shown.map fun cookie => cookie.name ++ '=' :: cookie.value))) ∧
      ∀ cookie, cookie ∈ shown ↔ CallerJar.latestOf (fun _ => none) calls cookie.key = some cookie ∧
        cookie.isExpired 4 = false ∧ cookiePathMatches "/api/x".toList cookie.path = true := by
  intro set calls all
  have hends : ((Steps.run (CallerJar.step (fun _ => none) false) .empty calls).bind fun jar =>
      jar.step (fun _ => none) false (.cookieHeader "/api/x".toList 4 all)).isSome = true := by decide +kernel
  obtain ⟨next, hnext⟩ := Option.isSome_iff_exists.1 hends
  obtain ⟨jar, hrun, hcall⟩ := Option.bind_eq_some_iff.1 hnext
  obtain ⟨shown, hheader, hshown, -⟩ := cookieHeader_latest (fun _ => none) false calls jar next _ 4 all hrun hcall
  exact ⟨shown, hheader, hshown⟩

end YuriRtc
