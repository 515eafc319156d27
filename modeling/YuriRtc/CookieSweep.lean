import YuriRtc.Assoc
import YuriRtc.CookieJar
/-!
# CookieSweep — a sweep deletes what it has read, not what is there

`cookieHeader` deletes the keys of the cookies that were expired when it read the jar.  A `Set-Cookie` that commits between
the two transactions puts a live cookie under such a key, and the sweep deletes it (`sweep_deletes_fresh_login`).  That is the
only way a live cookie goes before its time (`live_cookie_kept`).
-/
namespace YuriRtc

open Steps (run Meets of_guard run_inv run_cons_some run_append meets_append)

namespace CookieJar

def retires (dateParse : List Char → Option Int) (key : CookieKey) : JarEvent → Bool
  | .applySetCookie header requestPath calledAt =>
    (parseSetCookie dateParse calledAt header requestPath).any (fun cookie => cookie.key == key)
  | .clearSession => true
  | .readAll _ | .sweep _ _ | .tick _ => false

/-- **No key that is expired in the call's snapshot has been set between its two transactions.** -/
def Unraced (jar : CookieJar) : JarEvent → Prop
  | .sweep call readAt => ∀ pending ∈ jar.calls call, ∀ old ∈ expiredIn pending.all readAt, old.key ∉ pending.setSince
  | .applySetCookie _ _ _ | .readAll _ | .clearSession | .tick _ => True

instance (jar : CookieJar) (e : JarEvent) : Decidable (Unraced jar e) := by
  unfold Unraced
  split <;> infer_instance

variable {cookie : StoredCookie}

theorem isExpired_mono {now later : Int} (hle : now ≤ later)
    (h : cookie.isExpired now = true) : cookie.isExpired later = true := by
  unfold StoredCookie.isExpired at *
  split at h
  · cases h
  · simp only [decide_eq_true_eq] at *
    omega

theorem lookup_eraseAll (key : CookieKey) : ∀ (cookies : List StoredCookie)
    (store : AList (fun _ : CookieKey => StoredCookie)), (∀ cookie ∈ cookies, cookie.key ≠ key) →
      (eraseAll store cookies).lookup key = store.lookup key
  | [], _, _ => rfl
  | cookie :: cookies, store, h => by
    have hne : key ≠ cookie.key := fun heq => h cookie List.mem_cons_self heq.symm
    show (eraseAll (store.erase cookie.key) cookies).lookup key = _
    rw [lookup_eraseAll key cookies _ (fun c hc => h c (List.mem_cons_of_mem _ hc)), AList.lookup_erase_ne hne]

theorem lookup_of_eraseAll (key : CookieKey) : ∀ (cookies : List StoredCookie)
    (store : AList (fun _ : CookieKey => StoredCookie)), (eraseAll store cookies).lookup key = some cookie →
      store.lookup key = some cookie
  | [], _, h => h
  | old :: cookies, store, h => by
    have herased := lookup_of_eraseAll key cookies (store.erase old.key) h
    rw [Assoc.lookup_erase_eq] at herased
    split at herased
    · cases herased
    · exact herased

theorem lookup_apply_of_ne (jar : CookieJar) {key : CookieKey} (calledAt : Int)
    (h : cookie.key ≠ key) : (jar.apply cookie calledAt).store.lookup key = jar.store.lookup key := by
  unfold apply
  dsimp only
  split
  · exact AList.lookup_erase_ne h.symm
  · exact AList.lookup_insert_ne h.symm

/-- **Under a key that has not been set since a call read it stands the cookie it read, or none.** -/
structure Recorded (jar : CookieJar) : Prop where
  keyed : ∀ key cookie, jar.store.lookup key = some cookie → cookie.key = key
  unset : ∀ call pending, jar.calls call = some pending → ∀ old ∈ pending.all, old.key ∉ pending.setSince →
    ∀ cookie, jar.store.lookup old.key = some cookie → cookie = old

variable {dateParse : List Char → Option Int} {jar jar' : CookieJar}

theorem Recorded.empty : Recorded empty where
  keyed _ _ h := by cases h
  unset _ _ h := by cases h

/-- Rows may go without a record. -/
theorem Recorded.shrinks (h : Recorded jar) {store : AList (fun _ : CookieKey => StoredCookie)}
    {calls : Nat → Option PendingHeader} (now : Int)
    (hstore : ∀ key cookie, store.lookup key = some cookie → jar.store.lookup key = some cookie)
    (hcalls : ∀ call pending, calls call = some pending → jar.calls call = some pending) : Recorded ⟨store, now, calls⟩ where
  keyed key cookie hc := h.keyed key cookie (hstore key cookie hc)
  unset call pending hp old hold hnot cookie hc :=
    h.unset call pending (hcalls call pending hp) old hold hnot cookie (hstore _ cookie hc)

theorem Recorded.apply (h : Recorded jar) (cookie : StoredCookie) (calledAt : Int) :
    Recorded (jar.apply cookie calledAt) where
  keyed key other hother := by
    by_cases hkey : cookie.key = key
    · unfold CookieJar.apply at hother
      dsimp only at hother
      split at hother
      · rw [hkey, AList.lookup_erase] at hother
        cases hother
      · rw [hkey, AList.lookup_insert] at hother
        cases hother
        exact hkey
    · rw [lookup_apply_of_ne jar calledAt hkey] at hother
      exact h.keyed key other hother
  unset call pending hp old hold hnot other hother := by
    obtain ⟨before, hbefore, rfl⟩ := Option.map_eq_some_iff.1 hp
    simp only [List.mem_cons, not_or] at hnot
    rw [lookup_apply_of_ne jar calledAt (Ne.symm hnot.1)] at hother
    exact h.unset call before hbefore old hold hnot.2 other hother

theorem Recorded.readAll (h : Recorded jar) (call : Nat) :
    Recorded { jar with calls := Function.update jar.calls call (some ⟨jar.getAll, []⟩) } where
  keyed := h.keyed
  unset call' pending hp old hold hnot cookie hc := by
    change Function.update jar.calls call _ call' = some pending at hp
    rcases eq_or_ne call' call with rfl | hne
    · rw [Function.update_self] at hp
      cases hp
      obtain ⟨⟨key, row⟩, hrow, rfl⟩ := List.mem_map.1 hold
      have hlookup := (Assoc.mem_entries_iff_lookup jar.store key row).1 hrow
      obtain rfl := h.keyed key row hlookup
      exact Option.some.inj (hc.symm.trans hlookup)
    · rw [Function.update_of_ne hne] at hp
      exact h.unset call' pending hp old hold hnot cookie hc

def Kept (cookie : StoredCookie) (jar : CookieJar) : Prop :=
  jar.store.lookup cookie.key = some cookie ∨ cookie.isExpired jar.now = true

theorem Kept.sweep {pending : PendingHeader} {readAt : Int} {call : Nat} (h : Kept cookie jar) (hrecorded : Recorded jar)
    (hpending : jar.calls call = some pending) (hok : Unraced jar (.sweep call readAt)) (hle : readAt ≤ jar.now)
    (calls : Nat → Option PendingHeader) :
    Kept cookie { jar with store := eraseAll jar.store (expiredIn pending.all readAt), calls := calls } := by
  rcases h with hrow | hexpired
  · by_cases hdel : ∀ old ∈ expiredIn pending.all readAt, old.key ≠ cookie.key
    · exact .inl ((lookup_eraseAll cookie.key _ jar.store hdel).trans hrow)
    simp only [not_forall, not_not] at hdel
    obtain ⟨old, hold, hkey⟩ := hdel
    obtain ⟨hread, hexpired⟩ := List.mem_filter.1 hold
    -- the key has not been set since, so the cookie is the expired one that was read
    obtain rfl := hrecorded.unset call pending hpending old hread (hok pending hpending old hold) cookie (hkey ▸ hrow)
    exact .inr (isExpired_mono hle hexpired)
  · exact .inr hexpired

theorem Recorded.step {e : JarEvent} (h : Recorded jar) (hs : jar.step dateParse e = some jar') : Recorded jar' := by
  cases e <;> simp only [CookieJar.step] at hs
  case applySetCookie header requestPath calledAt =>
    split at hs
    · split at hs
      · cases hs
        exact h
      · cases hs
        exact h.apply _ calledAt
    · cases hs
  case readAll call =>
    split at hs
    · cases hs
      exact h.readAll call
    · cases hs
  case sweep call readAt =>
    split at hs
    · cases hs
    obtain ⟨-, rfl⟩ := of_guard hs
    refine h.shrinks _ (fun key cookie => lookup_of_eraseAll key _ _) fun call' pending' hp => ?_
    grind
  case clearSession =>
    cases hs
    exact h.shrinks _ (fun _ _ hc => by cases hc) fun _ _ hp => hp
  case tick now =>
    obtain ⟨-, rfl⟩ := of_guard hs
    exact h.shrinks now (fun _ _ hc => hc) fun _ _ hp => hp

theorem Kept.step {e : JarEvent} (h : Kept cookie jar) (hrecorded : Recorded jar) (hok : Unraced jar e)
    (he : retires dateParse cookie.key e = false) (hs : jar.step dateParse e = some jar') : Kept cookie jar' := by
  cases e <;> simp only [CookieJar.step] at hs
  case applySetCookie header requestPath calledAt =>
    split at hs
    · split at hs
      · cases hs
        exact h
      rename_i other hparse
      cases hs
      have hne : other.key ≠ cookie.key := by simpa [retires, hparse] using he
      refine h.imp (fun hrow => ?_) id
      rw [lookup_apply_of_ne jar calledAt hne, hrow]
    · cases hs
  case readAll call =>
    split at hs
    · cases hs
      exact h
    · cases hs
  case sweep call readAt =>
    split at hs
    · cases hs
    rename_i pending hpending
    obtain ⟨hle, rfl⟩ := of_guard hs
    exact h.sweep hrecorded hpending hok hle _
  case clearSession => cases he
  case tick now =>
    obtain ⟨hle, rfl⟩ := of_guard hs
    exact h.imp_right (isExpired_mono hle)

theorem Kept.run : ∀ {fs : List JarEvent} {jar jar' : CookieJar}, Kept cookie jar → Recorded jar →
    Meets (CookieJar.step dateParse) Unraced jar fs → (∀ e ∈ fs, retires dateParse cookie.key e = false) →
      run (CookieJar.step dateParse) jar fs = some jar' → Kept cookie jar'
  | [], _, _, h, _, _, _, hrun => by
    cases hrun
    exact h
  | e :: fs, jar, jar', h, hrecorded, hok, hnone, hrun => by
    obtain ⟨next, hs, hrest⟩ := run_cons_some _ hrun
    rw [Meets, hs] at hok
    have hnext : Kept cookie next := h.step hrecorded hok.1 (hnone e List.mem_cons_self) hs
    exact Kept.run hnext (hrecorded.step hs) hok.2 (fun e' he' => hnone e' (List.mem_cons_of_mem _ he')) hrest

/-- **A live cookie stays in the jar** until it expires, its key is set again or the session is cleared, whatever sweeps and
other writes come in between, as long as no `applySetCookie` for a key that is expired in a pending call's snapshot commits
before that call's sweep. -/
theorem live_cookie_kept (dateParse : List Char → Option Int) (es fs : List JarEvent) (header requestPath : List Char)
    (calledAt : Int) (cookie : StoredCookie) (jar : CookieJar)
    (hparse : parseSetCookie dateParse calledAt header requestPath = some cookie) (hlive : cookie.isExpired calledAt = false)
    (hok : Meets (step dateParse) Unraced empty (es ++ .applySetCookie header requestPath calledAt :: fs))
    (hrun : run (step dateParse) empty (es ++ .applySetCookie header requestPath calledAt :: fs) = some jar)
    (hnone : ∀ e ∈ fs, retires dateParse cookie.key e = false) (hnow : cookie.isExpired jar.now = false) :
    jar.store.lookup cookie.key = some cookie := by
  rw [run_append] at hrun
  obtain ⟨before, hbefore, hafter⟩ := Option.bind_eq_some_iff.1 hrun
  have hok' := meets_append _ _ _ _ _ _ hok hbefore
  obtain ⟨committed, hs, hrest⟩ := run_cons_some _ hafter
  rw [Meets, hs] at hok'
  have hput : Kept cookie committed := by
    simp only [CookieJar.step, hparse] at hs
    obtain ⟨-, rfl⟩ := of_guard hs
    exact .inl (by simp [apply, hlive])
  have hrecorded : Recorded before :=
    run_inv (step dateParse) Recorded (fun _ _ _ h hs => h.step hs) es empty before .empty hbefore
  rcases Kept.run hput (hrecorded.step hs) hok'.2 hnone hrest with hrow | hexpired
  · exact hrow
  · cases hnow.symm.trans hexpired

def secondLogin : JarEvent := .applySetCookie "sid=b; max-age=100".toList "/apiv2/login".toList 2000

def expiredLogin : List JarEvent :=
  [.applySetCookie "sid=a; max-age=1".toList "/apiv2/login".toList 0, .tick 2000, .readAll 0]

theorem live_cookie_kept_sweptBefore :
    ∃ jar, run (step fun _ => none) empty (expiredLogin ++ [.sweep 0 2000] ++ secondLogin :: [.readAll 1, .sweep 1 2000]) =
        some jar ∧
      jar.store.lookup ("/apiv2".toList, "sid".toList) =
        some ⟨"sid".toList, "b".toList, "/apiv2".toList, some 102000⟩ := by
  have hends : (run (step fun _ => none) empty
      (expiredLogin ++ [.sweep 0 2000] ++ secondLogin :: [.readAll 1, .sweep 1 2000])).map (fun jar => jar.now) =
      some 2000 := by decide +kernel
  obtain ⟨jar, hrun, hnow⟩ := Option.map_eq_some_iff.1 hends
  refine ⟨jar, hrun, ?_⟩
  exact live_cookie_kept (fun _ => none) _ _ _ _ _ ⟨"sid".toList, "b".toList, "/apiv2".toList, some 102000⟩ jar (by decide +kernel)
    (by decide +kernel) (by decide +kernel) hrun (by decide +kernel) (by rw [hnow]; decide +kernel)

/-- **A fresh login is swept away** with the expired one that a concurrent `cookieHeader` has read under its key. -/
theorem sweep_deletes_fresh_login :
    (run (step fun _ => none) empty (expiredLogin ++ secondLogin :: [.sweep 0 2000])).map
        (fun jar => (jar.now, jar.store.lookup ("/apiv2".toList, "sid".toList))) = some (2000, none) ∧
      (parseSetCookie (fun _ => none) 2000 "sid=b; max-age=100".toList "/apiv2/login".toList).map
        (fun cookie => (cookie.key, cookie.expiresAt)) = some (("/apiv2".toList, "sid".toList), some 102000) := by
  decide +kernel

end CookieJar
end YuriRtc
