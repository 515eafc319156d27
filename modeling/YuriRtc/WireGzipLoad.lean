import YuriRtc.StaticBody
import YuriRtc.Steps
import YuriRtc.WireGzip
/-!
# WireGzipLoad — loads that share a build

`content-node/static_wire.go`: `wireGzipCache.load`, any number of them at once.  A load runs in the stages between its two
critical sections: it looks into the cache, it waits for the flight of another load, or it leads a flight of its own, for
which it waits for a build slot, builds and finishes.  A flight goes by the number of the load that leads it.
-/
namespace YuriRtc

/-- The fields of `wireGzipFlight`, and what `load` returns. -/
structure GzipResult where
  data : Bytes
  use : Bool
  err : Option ServeError
deriving DecidableEq, Repr

inductive LoadStage where
  | called
  | looking
  | waiting (flight : Nat)
  | queued
  | building
  | finishing (result : GzipResult)
deriving DecidableEq, Repr

def LoadStage.leads : LoadStage → Bool
  | .called | .looking | .waiting _ => false
  | .queued | .building | .finishing _ => true

/-- `done`: the context of the load is done. -/
structure GzipLoad where
  key : WireGzipCacheKey
  done : Bool
  stage : LoadStage
deriving DecidableEq, Repr

/-- `builds` counts the slots taken; `landed` holds the flights whose `done` is closed. -/
structure GzipState where
  cache : WireGzipCache
  flights : AList (fun _ : WireGzipCacheKey => Nat)
  builds : Nat
  loads : AList (fun _ : Nat => GzipLoad)
  landed : AList (fun _ : Nat => GzipResult)
  returned : AList (fun _ : Nat => GzipResult)
  next : Nat

/-- `giveUp` is the case of a `select` on a context that is done; `built` brings what the build function returns. -/
inductive LoadAction where
  | cancel
  | check
  | look
  | wake
  | giveUp
  | slot
  | built (result : GzipResult)
  | finish
deriving DecidableEq, Repr

/-- `store` is a call of `storeResultLocked` on its own. -/
inductive GzipEvent where
  | call (key : WireGzipCacheKey)
  | load (id : Nat) (action : LoadAction)
  | store (key : WireGzipCacheKey) (data : Bytes) (use : Bool)
deriving DecidableEq, Repr

namespace GzipState

def init : GzipState := ⟨.new, ∅, 0, ∅, ∅, ∅, 0⟩

def set (s : GzipState) (id : Nat) (l : GzipLoad) : GzipState := { s with loads := s.loads.insert id l }

def stand (s : GzipState) (id : Nat) (l : GzipLoad) (stage : LoadStage) : GzipState := s.set id { l with stage := stage }

def answer (s : GzipState) (id : Nat) (result : GzipResult) : GzipState :=
  { s with loads := s.loads.erase id, returned := s.returned.insert id result }

/-- `nil, false, ctx.Err()`. -/
def canceledResult : GzipResult := ⟨[], false, some .canceled⟩

def look (s : GzipState) (id : Nat) (l : GzipLoad) : GzipState :=
  match s.cache.entries.lookup l.key with
  | some e => { s with cache := s.cache.moveToFront e }.answer id ⟨e.entry.data, e.entry.use, none⟩
  | none =>
    match s.flights.lookup l.key with
    | some flight => s.stand id l (.waiting flight)
    | none => { s with flights := s.flights.insert l.key id }.stand id l .queued

def finish (s : GzipState) (id : Nat) (l : GzipLoad) (result : GzipResult) : Option GzipState :=
  (if result.err = none ∧ l.done = false then s.cache.storeResultLocked l.key result.data result.use else some s.cache).map
    fun cache =>
      { s with cache := cache, flights := s.flights.erase l.key, landed := s.landed.insert id result }.answer id result

def advance (s : GzipState) (id : Nat) (l : GzipLoad) : LoadAction → Option GzipState
  | .cancel => some (s.set id { l with done := true })
  | .check =>
    if l.stage = .called then
      if l.done then some (s.answer id canceledResult) else some (s.stand id l .looking)
    else none
  | .look => if l.stage = .looking then some (s.look id l) else none
  | .wake =>
    match l.stage with
    | .waiting flight => (s.landed.lookup flight).map (s.answer id)
    | _ => none
  | .giveUp =>
    if l.done then
      match l.stage with
      | .waiting _ => some (s.answer id canceledResult)
      | .queued => some (s.stand id l (.finishing canceledResult))
      | _ => none
    else none
  | .slot =>
    if l.stage = .queued ∧ s.builds < maxWireGzipCacheBuilds then
      some ({ s with builds := s.builds + 1 }.stand id l .building)
    else none
  | .built result =>
    if l.stage = .building then some ({ s with builds := s.builds - 1 }.stand id l (.finishing result)) else none
  | .finish =>
    match l.stage with
    | .finishing result => s.finish id l result
    | _ => none

def step (s : GzipState) : GzipEvent → Option GzipState
  | .call key => some { s with loads := s.loads.insert s.next ⟨key, false, .called⟩, next := s.next + 1 }
  | .load id action => (s.loads.lookup id).bind fun l => s.advance id l action
  | .store key data use => (s.cache.storeResultLocked key data use).map fun cache => { s with cache := cache }

/-! ### The flights are those of the loads that lead -/

structure Flown (s : GzipState) : Prop where
  kept : s.cache.Kept
  bounded : s.cache.Bounded
  led : ∀ key id, s.flights.lookup key = some id ↔
    ∃ l, s.loads.lookup id = some l ∧ l.key = key ∧ l.stage.leads = true
  numbered : ∀ id l, s.loads.lookup id = some l → id < s.next

namespace Flown

theorem init : Flown init where
  kept := WireGzipCache.kept_new
  bounded := ⟨by decide, by decide⟩
  led key id := ⟨nofun, fun ⟨_, h, _⟩ => (by cases h)⟩
  numbered id l h := by cases h

variable {s : GzipState} {id : Nat} {l : GzipLoad}

section

variable (h : s.Flown) (hl : s.loads.lookup id = some l)
include h hl

theorem set (l' : GzipLoad) (hkey : l'.key = l.key)
    (hleads : l'.stage.leads = l.stage.leads) (builds : Nat) : ({ s with builds := builds }.set id l').Flown where
  kept := h.kept
  bounded := h.bounded
  led key other := by
    show s.flights.lookup key = some other ↔ ∃ m, (s.loads.insert id l').lookup other = some m ∧ _
    rw [h.led]
    by_cases heq : other = id
    · grind [AList.lookup_insert]
    · rw [AList.lookup_insert_ne heq]
  numbered other m hm := by
    change (s.loads.insert id l').lookup other = some m at hm
    by_cases heq : other = id
    · rw [heq]
      exact h.numbered id l hl
    · rw [AList.lookup_insert_ne heq] at hm
      exact h.numbered other m hm

theorem stand (stage : LoadStage) (hleads : stage.leads = l.stage.leads)
    (builds : Nat) : ({ s with builds := builds }.stand id l stage).Flown :=
  h.set hl { l with stage := stage } rfl hleads builds

theorem leave (hleads : l.stage.leads = false) (result : GzipResult) :
    (s.answer id result).Flown where
  kept := h.kept
  bounded := h.bounded
  led key other := by
    show s.flights.lookup key = some other ↔ ∃ m, (s.loads.erase id).lookup other = some m ∧ _
    rw [h.led]
    by_cases heq : other = id
    · grind [AList.lookup_erase]
    · rw [AList.lookup_erase_ne heq]
  numbered other m hm := by
    change (s.loads.erase id).lookup other = some m at hm
    by_cases heq : other = id
    · rw [heq, AList.lookup_erase] at hm
      cases hm
    · rw [AList.lookup_erase_ne heq] at hm
      exact h.numbered other m hm

theorem look (hstage : l.stage = .looking) : (s.look id l).Flown := by
  have hleads : l.stage.leads = false := by
    rw [hstage]
    rfl
  unfold GzipState.look
  split
  · next e he =>
    have hmoved : ({ s with cache := s.cache.moveToFront e } : GzipState).Flown :=
      ⟨h.kept.moveToFront ((h.kept.entries l.key e).1 he).1, ⟨h.bounded.bytes, h.bounded.count⟩, h.led, h.numbered⟩
    exact hmoved.leave hl hleads _
  split
  · next flight hflight =>
    exact h.stand hl (.waiting flight) hleads.symm s.builds
  rename_i hnone
  -- nobody leads this key, so the load may
  have halone : ∀ other m, s.loads.lookup other = some m → m.stage.leads = true → m.key ≠ l.key := by
    intro other m hm hmleads hkey
    have := (h.led l.key other).2 ⟨m, hm, hkey, hmleads⟩
    grind
  refine ⟨h.kept, h.bounded, fun key other => ?_, fun other m hm => ?_⟩
  · show (s.flights.insert l.key id).lookup key = some other ↔
      ∃ m, (s.loads.insert id { l with stage := .queued }).lookup other = some m ∧ m.key = key ∧ m.stage.leads = true
    by_cases heq : other = id
    · subst heq
      rw [AList.lookup_insert]
      simp only [Option.some.injEq, exists_eq_left', LoadStage.leads, and_true]
      by_cases hkey : key = l.key
      · subst hkey
        simp [AList.lookup_insert]
      · rw [AList.lookup_insert_ne hkey, h.led, hl]
        simp [hleads, Ne.symm hkey]
    · rw [AList.lookup_insert_ne heq]
      by_cases hkey : key = l.key
      · subst hkey
        rw [AList.lookup_insert, Option.some.injEq]
        constructor
        · omega
        · rintro ⟨m, hm, hmkey, hmleads⟩
          exact absurd hmkey (halone other m hm hmleads)
      · rw [AList.lookup_insert_ne hkey, h.led]
  · change (s.loads.insert id { l with stage := .queued }).lookup other = some m at hm
    by_cases heq : other = id
    · rw [heq]
      exact h.numbered id l hl
    · rw [AList.lookup_insert_ne heq] at hm
      exact h.numbered other m hm

/-- **A leader finishes, whatever its build gave: its flight is gone, and a result that is an error or that comes after its
context leaves the cache alone.** -/
theorem finish {result : GzipResult} (hstage : l.stage = .finishing result) :
    ∃ s', s.finish id l result = some s' ∧ s'.Flown ∧ s'.flights.lookup l.key = none ∧
      (result.err ≠ none ∨ l.done = true → s'.cache = s.cache) := by
  have hleads : l.stage.leads = true := by
    rw [hstage]
    rfl
  obtain ⟨cache, hcache, hkept, hbounded, hsame⟩ : ∃ cache,
      (if result.err = none ∧ l.done = false then s.cache.storeResultLocked l.key result.data result.use
        else some s.cache) = some cache ∧ cache.Kept ∧ cache.Bounded ∧
      (result.err ≠ none ∨ l.done = true → cache = s.cache) := by
    split
    · next hgood =>
      obtain ⟨cache, hstore, hkept, hbounded, -⟩ :=
        h.kept.storeResultLocked h.bounded l.key result.data result.use
      simp_all
    · exact ⟨s.cache, rfl, h.kept, h.bounded, fun _ => rfl⟩
  refine ⟨_, by rw [GzipState.finish, hcache, Option.map_some], ⟨hkept, hbounded, fun key other => ?_, fun other m hm => ?_⟩,
    AList.lookup_erase _ _, hsame⟩
  · show (s.flights.erase l.key).lookup key = some other ↔
      ∃ m, (s.loads.erase id).lookup other = some m ∧ m.key = key ∧ m.stage.leads = true
    have hown : s.flights.lookup l.key = some id := (h.led l.key id).2 ⟨l, hl, rfl, hleads⟩
    by_cases hkey : key = l.key
    · subst hkey
      rw [AList.lookup_erase]
      constructor
      · intro hnone
        cases hnone
      rintro ⟨m, hm, hmkey, hmleads⟩
      by_cases heq : other = id
      · rw [heq, AList.lookup_erase] at hm
        cases hm
      rw [AList.lookup_erase_ne heq] at hm
      have := (h.led l.key other).2 ⟨m, hm, hmkey, hmleads⟩
      simp_all
    · rw [AList.lookup_erase_ne hkey, h.led]
      by_cases heq : other = id
      · grind [AList.lookup_erase]
      · rw [AList.lookup_erase_ne heq]
  · change (s.loads.erase id).lookup other = some m at hm
    by_cases heq : other = id
    · rw [heq, AList.lookup_erase] at hm
      cases hm
    · rw [AList.lookup_erase_ne heq] at hm
      exact h.numbered other m hm

end

theorem advance {s' : GzipState} {action : LoadAction} (h : s.Flown) (hl : s.loads.lookup id = some l)
    (hstep : s.advance id l action = some s') : s'.Flown := by
  cases action <;> simp only [GzipState.advance] at hstep
  case cancel =>
    cases hstep
    exact h.set hl { l with done := true } rfl rfl s.builds
  case check =>
    split at hstep
    · next hstage =>
      have hleads : l.stage.leads = false := by
        rw [hstage]
        rfl
      split at hstep
      · cases hstep
        exact h.leave hl hleads _
      · cases hstep
        exact h.stand hl .looking hleads.symm s.builds
    · cases hstep
  case look =>
    split at hstep
    · next hstage =>
      cases hstep
      exact h.look hl hstage
    · cases hstep
  case wake =>
    split at hstep
    · next flight hstage =>
      obtain ⟨result, -, rfl⟩ := Option.map_eq_some_iff.1 hstep
      refine h.leave hl ?_ result
      rw [hstage]
      rfl
    · cases hstep
  case giveUp =>
    split at hstep
    · split at hstep
      · next flight hstage =>
        cases hstep
        refine h.leave hl ?_ _
        rw [hstage]
        rfl
      · next hstage =>
        cases hstep
        refine h.stand hl (.finishing canceledResult) ?_ s.builds
        rw [hstage]
        rfl
      · cases hstep
    · cases hstep
  case slot =>
    split at hstep
    · next hready =>
      cases hstep
      refine h.stand hl .building ?_ (s.builds + 1)
      rw [hready.1]
      rfl
    · cases hstep
  case built result =>
    split at hstep
    · next hstage =>
      cases hstep
      refine h.stand hl (.finishing result) ?_ (s.builds - 1)
      rw [hstage]
      rfl
    · cases hstep
  case finish =>
    split at hstep
    · next result hstage =>
      obtain ⟨s'', hfinish, hflown, -⟩ := h.finish hl hstage
      simp_all
    · cases hstep

theorem called (h : s.Flown) (key : WireGzipCacheKey) :
    ({ s with loads := s.loads.insert s.next ⟨key, false, .called⟩, next := s.next + 1 } : GzipState).Flown where
  kept := h.kept
  bounded := h.bounded
  led key' other := by
    show s.flights.lookup key' = some other ↔ ∃ m, (s.loads.insert s.next ⟨key, false, .called⟩).lookup other = some m ∧ _
    rw [h.led]
    by_cases heq : other = s.next
    · subst heq
      have hnone : s.loads.lookup s.next = none := by
        cases hl : s.loads.lookup s.next with
        | none => rfl
        | some l => exact absurd (h.numbered s.next l hl) (lt_irrefl _)
      rw [AList.lookup_insert, hnone]
      simp [LoadStage.leads]
    · rw [AList.lookup_insert_ne heq]
  numbered other m hm := by
    show other < s.next + 1
    change (s.loads.insert s.next ⟨key, false, .called⟩).lookup other = some m at hm
    by_cases heq : other = s.next
    · omega
    · rw [AList.lookup_insert_ne heq] at hm
      exact Nat.lt_succ_of_lt (h.numbered other m hm)

theorem step {s' : GzipState} {e : GzipEvent} (h : s.Flown) (hstep : s.step e = some s') : s'.Flown := by
  cases e with
  | call key =>
    cases hstep
    exact h.called key
  | store key data use =>
    obtain ⟨cache, hstore, hkept, hbounded, -⟩ := h.kept.storeResultLocked h.bounded key data use
    simp only [GzipState.step, hstore, Option.map_some, Option.some.injEq] at hstep
    subst hstep
    exact ⟨hkept, hbounded, h.led, h.numbered⟩
  | load id action =>
    obtain ⟨l, hl, hadvance⟩ := Option.bind_eq_some_iff.1 hstep
    exact h.advance hl hadvance

end Flown

/-- **The cache after any run of loads and stores.**  The list, the two maps and the counter agree and stay within their
bounds; a store ends and what it admits is there afterwards; a key has one build at a time; and a leader that finishes
removes its flight, and leaves the cache alone where its build failed or its context was done. -/
theorem cache_kept (events : List GzipEvent) (s : GzipState) (hrun : Steps.run step init events = some s) :
    s.cache.Kept ∧ s.cache.entries.entries.length = s.cache.lru.length ∧ s.cache.Bounded ∧
      (∀ key data use, ∃ cache, s.cache.storeResultLocked key data use = some cache ∧
        (WireGzipCache.admits data use = true →
          ∃ e, cache.entries.lookup key = some e ∧ e.entry = WireGzipCache.entryOf key data use)) ∧
      (∀ id id' l l', s.loads.lookup id = some l → s.loads.lookup id' = some l' → l.stage = .building →
        l'.stage = .building → l.key = l'.key → id = id') ∧
      (∀ id l result, s.loads.lookup id = some l → l.stage = .finishing result → ∃ s', s.step (.load id .finish) = some s' ∧
        s'.flights.lookup l.key = none ∧ (result.err ≠ none ∨ l.done = true → s'.cache = s.cache)) := by
  have h : s.Flown := Steps.run_inv step Flown (fun s e s' hinv hstep => hinv.step hstep) events init s .init hrun
  refine ⟨h.kept, h.kept.length_entries, h.bounded, fun key data use => ?_, ?_, ?_⟩
  · obtain ⟨cache, hstore, -, -, hthere⟩ := h.kept.storeResultLocked h.bounded key data use
    exact ⟨cache, hstore, hthere⟩
  · intro id id' l l' hl hl' hstage hstage' hkey
    have hled := (h.led l.key id).2 ⟨l, hl, rfl, by rw [hstage]; rfl⟩
    have hled' := (h.led l.key id').2 ⟨l', hl', hkey.symm, by rw [hstage']; rfl⟩
    exact Option.some.inj (hled.symm.trans hled')
  intro id l result hl hstage
  obtain ⟨s', hfinish, -, hgone, hsame⟩ := h.finish hl hstage
  refine ⟨s', ?_, hgone, hsame⟩
  simp only [step, Option.bind_some, hl, advance, hstage]
  exact hfinish

def sharedBuild (key : WireGzipCacheKey) : List GzipEvent :=
  [.call key, .call key, .load 0 .check, .load 1 .check, .load 0 .look, .load 1 .look, .load 0 .slot,
    .load 0 (.built ⟨[1, 2], true, none⟩), .load 0 .finish, .load 1 .wake]

theorem cache_kept_shared_build :
    ∃ s, Steps.run step init (sharedBuild ⟨['a'], 9, 1⟩) = some s ∧ s.cache.used = 2 ∧
      s.returned.lookup 1 = some ⟨[1, 2], true, none⟩ ∧ s.cache.Kept := by
  obtain ⟨s, hrun, hparts⟩ : ∃ s, Steps.run step init (sharedBuild ⟨['a'], 9, 1⟩) = some s ∧ s.cache.used = 2 ∧
      s.returned.lookup 1 = some ⟨[1, 2], true, none⟩ :=
    Steps.exists_run (by decide +kernel)
  exact ⟨s, hrun, hparts.1, hparts.2, (cache_kept _ s hrun).1⟩

end GzipState
end YuriRtc
