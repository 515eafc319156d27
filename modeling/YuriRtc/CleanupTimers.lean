import YuriRtc.Assoc
import YuriRtc.Steps
/-!
# CleanupTimers — which cleanup of a signaling record runs

`content-node/signal.go`: `scheduleCleanup` calls from any goroutine and the callbacks of their timers, over `cleanupTimers`
and `cleanupMu`.  Calls are numbered in the order in which they held the mutex, and a call's number names its timer and its
`remove`.  A callback asks under the mutex whether its timer is still registered, and runs `remove` after it has let the
mutex go.
-/
namespace YuriRtc

/-- Where the timer of a call and its callback stand: `removing` is a callback that found its timer registered, took it out
and has unlocked, and whose `remove` has not begun. -/
inductive CleanupStage where
  | armed
  | stopped
  | called
  | removing
  | removed
  | ignored
deriving DecidableEq, Repr

structure CleanupCall where
  key : List Char
  due : Nat
  stage : CleanupStage
  returned : Bool
deriving DecidableEq, Repr

/-- `answered` holds, for a record whose answer has been written, the number of calls made before it was last written. -/
structure CleanupState where
  now : Nat
  cleanupTimers : AList (fun _ : List Char => Nat)
  calls : AList (fun _ : Nat => CleanupCall)
  nextCall : Nat
  answered : AList (fun _ : List Char => Nat)

inductive CleanupEvent where
  | waits (elapsed : Nat)
  | schedules (key : List Char) (after : Nat)
  | returns (call : Nat)
  | fires (call : Nat)
  | locks (call : Nat)
  | removes (call : Nat)
  | answers (key : List Char)
deriving DecidableEq, Repr

/-- `time.Minute` of `handleRTDBOffer`'s watchdog and the thirty seconds its answer is left to be collected, in
milliseconds. -/
def offerWatchdog : Nat := 60000

def answerCleanup : Nat := 30000

/-- `Timer.Stop`, which a callback that has started does not hear. -/
def CleanupCall.stop (c : CleanupCall) : CleanupCall :=
  if c.stage = .armed then { c with stage := .stopped } else c

theorem CleanupCall.stop_key (c : CleanupCall) : c.stop.key = c.key := by
  unfold stop
  split <;> rfl

theorem CleanupCall.stop_stage (c : CleanupCall) :
    c.stop.stage ≠ .armed ∧ (c.stop.stage = .removing → c.stage = .removing) := by grind [stop]

namespace CleanupState

def init : CleanupState := ⟨0, ∅, ∅, 0, ∅⟩

def setCall (s : CleanupState) (n : Nat) (c : CleanupCall) : CleanupState :=
  { s with calls := s.calls.insert n c }

def stopPrior (s : CleanupState) (key : List Char) : CleanupState :=
  match s.cleanupTimers.lookup key with
  | none => s
  | some prior =>
    match s.calls.lookup prior with
    | none => s
    | some c => s.setCall prior c.stop

/-- The whole call, made under `cleanupMu`. -/
def scheduleCleanup (s : CleanupState) (key : List Char) (after : Nat) : CleanupState :=
  let s := s.stopPrior key
  { s with
    cleanupTimers := s.cleanupTimers.insert key s.nextCall
    calls := s.calls.insert s.nextCall ⟨key, s.now + after, .armed, false⟩
    nextCall := s.nextCall + 1 }

/-- What a callback does between `cleanupMu.Lock` and `cleanupMu.Unlock`. -/
def checkCurrent (s : CleanupState) (n : Nat) (c : CleanupCall) : CleanupState :=
  if s.cleanupTimers.lookup c.key = some n then
    { s.setCall n { c with stage := .removing } with cleanupTimers := s.cleanupTimers.erase c.key }
  else s.setCall n { c with stage := .ignored }

def step (s : CleanupState) : CleanupEvent → Option CleanupState
  | .waits elapsed => some { s with now := s.now + elapsed }
  | .schedules key after => some (s.scheduleCleanup key after)
  | .returns n =>
    (s.calls.lookup n).map (fun c => s.setCall n { c with returned := true })
  | .fires n =>
    (s.calls.lookup n).bind (fun c =>
      if c.stage = .armed ∧ c.due ≤ s.now then some (s.setCall n { c with stage := .called }) else none)
  | .locks n =>
    (s.calls.lookup n).bind (fun c => if c.stage = .called then some (s.checkCurrent n c) else none)
  | .removes n =>
    (s.calls.lookup n).bind (fun c =>
      if c.stage = .removing then some (s.setCall n { c with stage := .removed }) else none)
  | .answers key => some { s with answered := s.answered.insert key s.nextCall }

section Machine

variable {n : Nat} {c c' : CleanupCall} {key : List Char}

variable {s t : CleanupState}

def Made (s : CleanupState) (n : Nat) (key : List Char) : Prop := ∃ c ∈ s.calls.lookup n, c.key = key

/-- **No call for the key has been made since `n`, and no answer to the record has been written since.** -/
def Latest (s : CleanupState) (n : Nat) (key : List Char) : Prop :=
  (∀ m, s.Made m key → m ≤ n) ∧ ∀ m ∈ s.answered.lookup key, m ≤ n

/-- **A callback for the key has let the mutex go and its `remove` has not begun.** -/
def Removing (s : CleanupState) (key : List Char) : Prop :=
  ∃ e ∈ s.calls.entries, e.2.key = key ∧ e.2.stage = .removing

instance (s : CleanupState) (key : List Char) : Decidable (s.Removing key) :=
  inferInstanceAs (Decidable (∃ e ∈ s.calls.entries, e.2.key = key ∧ e.2.stage = .removing))

theorem removing_iff (s : CleanupState) (key : List Char) :
    s.Removing key ↔ ∃ n, ∃ c, s.calls.lookup n = some c ∧ c.key = key ∧ c.stage = .removing := by
  constructor
  · rintro ⟨⟨n, c⟩, hmem, hc⟩
    exact ⟨n, c, (Assoc.mem_entries_iff_lookup s.calls n c).1 hmem, hc⟩
  · rintro ⟨n, c, hn, hc⟩
    exact ⟨⟨n, c⟩, (Assoc.mem_entries_iff_lookup s.calls n c).2 hn, hc⟩

theorem lookup_setCall (s : CleanupState) (n : Nat) (c : CleanupCall) (m : Nat) :
    (s.setCall n c).calls.lookup m = if m = n then some c else s.calls.lookup m :=
  Assoc.lookup_insert_eq s.calls n c m

theorem made_setCall (h : s.calls.lookup n = some c) (hkey : c'.key = c.key) (m : Nat)
    (key : List Char) : (s.setCall n c').Made m key ↔ s.Made m key := by
  unfold Made
  grind [lookup_setCall]

theorem latest_setCall (h : s.calls.lookup n = some c) (hkey : c'.key = c.key) (m : Nat)
    (key : List Char) : (s.setCall n c').Latest m key ↔ s.Latest m key := by
  unfold Latest
  simp only [made_setCall h hkey]
  rfl

/-- **What the mutex protects**: calls are numbered in order, a registered timer is that of the last call made for its key,
and a timer still running is registered. -/
structure Registered (s : CleanupState) : Prop where
  numbered : ∀ n c, s.calls.lookup n = some c → n < s.nextCall
  last : ∀ key n, s.cleanupTimers.lookup key = some n → ∀ m, s.Made m key → m ≤ n
  armed : ∀ n c, s.calls.lookup n = some c → c.stage = .armed → s.cleanupTimers.lookup c.key = some n

theorem Registered.init : Registered CleanupState.init where
  numbered _ _ h := by cases h
  last _ _ h := by cases h
  armed _ _ h := by cases h

theorem Registered.setCall (hr : s.Registered) (h : s.calls.lookup n = some c)
    (hkey : c'.key = c.key) (harmed : c'.stage = .armed → c.stage = .armed) : (s.setCall n c').Registered where
  numbered m d hm := by
    rw [lookup_setCall] at hm
    split at hm
    · rename_i heq
      rw [heq]
      exact hr.numbered n c h
    · exact hr.numbered m d hm
  last key m hm k hk := hr.last key m hm k ((made_setCall h hkey k key).1 hk)
  armed m d hm hd := by
    rw [lookup_setCall] at hm
    split at hm
    · rename_i heq
      obtain rfl := Option.some.inj hm
      rw [hkey, heq]
      exact hr.armed n c h (harmed hd)
    · exact hr.armed m d hm hd

theorem stopPrior_cases (s : CleanupState) (key : List Char) :
    (∃ n c, s.cleanupTimers.lookup key = some n ∧ s.calls.lookup n = some c ∧ s.stopPrior key = s.setCall n c.stop) ∨
      s.stopPrior key = s ∧ ∀ n, s.cleanupTimers.lookup key = some n → s.calls.lookup n = none := by grind [stopPrior]

theorem Registered.stopPrior (hr : s.Registered) (key : List Char) : (s.stopPrior key).Registered := by
  rcases stopPrior_cases s key with ⟨n, c, -, hc, heq⟩ | ⟨heq, -⟩
  · rw [heq]
    exact hr.setCall hc c.stop_key (fun h => absurd h c.stop_stage.1)
  · rw [heq]
    exact hr

theorem Registered.stopped (hr : s.Registered)
    (h : (s.stopPrior key).calls.lookup n = some c) (hkey : c.key = key) : c.stage ≠ .armed := by
  intro harmed
  have hreg := (hr.stopPrior key).armed n c h harmed
  rw [hkey] at hreg
  rcases stopPrior_cases s key with ⟨m, d, hm, -, heq⟩ | ⟨heq, hnone⟩
  · rw [heq] at h hreg
    obtain rfl := Option.some.inj (hm.symm.trans hreg)
    rw [lookup_setCall, if_pos rfl] at h
    obtain rfl := Option.some.inj h
    exact d.stop_stage.1 harmed
  · simp_all

theorem lookup_scheduleCleanup (s : CleanupState) (key : List Char) (after n : Nat) :
    (s.scheduleCleanup key after).calls.lookup n =
      if n = (s.stopPrior key).nextCall then some ⟨key, (s.stopPrior key).now + after, .armed, false⟩
      else (s.stopPrior key).calls.lookup n :=
  Assoc.lookup_insert_eq _ _ _ _

theorem timers_scheduleCleanup (s : CleanupState) (key : List Char) (after : Nat) (other : List Char) :
    (s.scheduleCleanup key after).cleanupTimers.lookup other =
      if other = key then some (s.stopPrior key).nextCall else (s.stopPrior key).cleanupTimers.lookup other :=
  Assoc.lookup_insert_eq _ _ _ _

theorem made_scheduleCleanup {after : Nat} {other : List Char} (h : (s.scheduleCleanup key after).Made n other) :
    n = (s.stopPrior key).nextCall ∧ other = key ∨ (s.stopPrior key).Made n other := by
  obtain ⟨c, hc, hother⟩ := h
  rw [Option.mem_def, lookup_scheduleCleanup] at hc
  split at hc
  · grind
  · exact .inr ⟨c, hc, hother⟩

theorem Registered.scheduleCleanup (hr : s.Registered) (key : List Char) (after : Nat) :
    (s.scheduleCleanup key after).Registered where
  numbered n c h := by
    rw [lookup_scheduleCleanup] at h
    show n < (s.stopPrior key).nextCall + 1
    split at h
    · omega
    · exact Nat.lt_succ_of_lt ((hr.stopPrior key).numbered n c h)
  last other n h m hm := by
    rw [timers_scheduleCleanup] at h
    split at h
    · obtain rfl := Option.some.inj h
      rcases made_scheduleCleanup hm with ⟨rfl, -⟩ | ⟨c, hc, -⟩
      · exact le_rfl
      · exact le_of_lt ((hr.stopPrior key).numbered m c hc)
    rename_i hne
    rcases made_scheduleCleanup hm with ⟨-, heq⟩ | hmade
    · exact absurd heq hne
    · exact (hr.stopPrior key).last other n h m hmade
  armed n c h harmed := by
    rw [lookup_scheduleCleanup] at h
    rw [timers_scheduleCleanup]
    split at h
    · grind
    · rw [if_neg (fun hkey => hr.stopped h hkey harmed)]
      exact (hr.stopPrior key).armed n c h harmed

theorem Registered.checkCurrent (hr : s.Registered) (h : s.calls.lookup n = some c) :
    (s.checkCurrent n c).Registered := by
  unfold CleanupState.checkCurrent
  split
  · rename_i hreg
    have hset : (s.setCall n { c with stage := .removing }).Registered := hr.setCall h rfl nofun
    refine ⟨hset.numbered, fun key m hm => ?_, fun m d hm hd => ?_⟩
    · rw [Assoc.lookup_erase_eq] at hm
      split at hm
      · cases hm
      · exact hset.last key m hm
    have hreg' := hset.armed m d hm hd
    rw [Assoc.lookup_erase_eq, if_neg]
    · exact hreg'
    · -- the timer registered for the key is the callback's own, which runs no more
      intro hkey
      rw [hkey] at hreg'
      obtain rfl := Option.some.inj (hreg.symm.trans hreg')
      have hm' : (s.setCall n { c with stage := .removing }).calls.lookup n = some d := hm
      rw [lookup_setCall, if_pos rfl] at hm'
      obtain rfl := Option.some.inj hm'
      cases hd
  · exact hr.setCall h rfl nofun

theorem bind_guard {o : Option CleanupCall} {p : CleanupCall → Prop} [DecidablePred p] {f : CleanupCall → CleanupState}
    (h : o.bind (fun c => if p c then some (f c) else none) = some t) : ∃ c, o = some c ∧ p c ∧ f c = t := by
  obtain ⟨c, hc, hif⟩ := Option.bind_eq_some_iff.1 h
  simp_all

theorem Registered.step (hr : s.Registered) {e : CleanupEvent} (h : s.step e = some t) : t.Registered := by
  cases e with
  | waits elapsed =>
    obtain rfl := Option.some.inj h
    exact { hr with }
  | schedules key after =>
    obtain rfl := Option.some.inj h
    exact hr.scheduleCleanup key after
  | returns n =>
    obtain ⟨c, hc, rfl⟩ := Option.map_eq_some_iff.1 h
    exact hr.setCall hc rfl id
  | fires n =>
    obtain ⟨c, hc, -, rfl⟩ := bind_guard h
    exact hr.setCall hc rfl nofun
  | locks n =>
    obtain ⟨c, hc, -, rfl⟩ := bind_guard h
    exact hr.checkCurrent hc
  | removes n =>
    obtain ⟨c, hc, -, rfl⟩ := bind_guard h
    exact hr.setCall hc rfl nofun
  | answers key =>
    obtain rfl := Option.some.inj h
    exact { hr with }

/-- **A call or a written answer does not overtake a callback**: no `scheduleCleanup` for a key, and no write of an answer to
its record, falls between the unlock of a callback that is to remove it and its `remove`, and no callback takes the mutex
between the write of an answer and the `scheduleCleanup` that follows the write. -/
def Undisturbed (s : CleanupState) : CleanupEvent → Prop
  | .schedules key _ => ¬ s.Removing key
  | .answers key => ¬ s.Removing key
  | .locks n => ∀ c ∈ s.calls.lookup n, s.cleanupTimers.lookup c.key = some n → ∀ m ∈ s.answered.lookup c.key, m ≤ n
  | _ => True

instance (s : CleanupState) (e : CleanupEvent) : Decidable (s.Undisturbed e) := by
  unfold Undisturbed
  split <;> infer_instance

/-- **A callback that is to remove the record is that of the last call for it, and no answer has been written since.** -/
def Current (s : CleanupState) : Prop :=
  ∀ n c, s.calls.lookup n = some c → c.stage = .removing → s.Latest n c.key

theorem Current.setCall (hcur : s.Current) (h : s.calls.lookup n = some c)
    (hkey : c'.key = c.key) (hstage : c'.stage = .removing → s.Latest n c.key) : (s.setCall n c').Current := by
  intro m d hm hd
  rw [latest_setCall h hkey]
  rw [lookup_setCall] at hm
  split at hm
  · simp_all
  · exact hcur m d hm hd

theorem Current.stopPrior (hcur : s.Current) (key : List Char) : (s.stopPrior key).Current := by
  rcases stopPrior_cases s key with ⟨n, c, -, hc, heq⟩ | ⟨heq, -⟩
  · rw [heq]
    exact hcur.setCall hc c.stop_key (fun h => hcur n c hc (c.stop_stage.2 h))
  · rw [heq]
    exact hcur

theorem removing_stopPrior
    (h : (s.stopPrior key).calls.lookup n = some c) (hstage : c.stage = .removing) : s.Removing c.key := by
  rw [removing_iff]
  rcases stopPrior_cases s key with ⟨m, d, -, hd, heq⟩ | ⟨heq, -⟩
  · rw [heq, lookup_setCall] at h
    split at h
    · obtain rfl := Option.some.inj h
      exact ⟨m, d, hd, d.stop_key.symm, d.stop_stage.2 hstage⟩
    · exact ⟨n, c, h, rfl, hstage⟩
  · grind

theorem Current.scheduleCleanup (hcur : s.Current) (after : Nat) (hok : ¬ s.Removing key) :
    (s.scheduleCleanup key after).Current := by
  intro n c h hstage
  rw [lookup_scheduleCleanup] at h
  split at h
  · grind
  have hne : c.key ≠ key := fun hkey => hok (hkey ▸ removing_stopPrior h hstage)
  obtain ⟨hmade, hanswered⟩ := hcur.stopPrior key n c h hstage
  refine ⟨fun m hm => ?_, hanswered⟩
  rcases made_scheduleCleanup hm with ⟨-, hkey⟩ | hm'
  · exact absurd hkey hne
  · exact hmade m hm'

theorem Current.checkCurrent (hcur : s.Current) (hr : s.Registered)
    (h : s.calls.lookup n = some c) (hok : s.Undisturbed (.locks n)) : (s.checkCurrent n c).Current := by
  unfold CleanupState.checkCurrent
  split
  · rename_i hreg
    have hlatest : s.Latest n c.key := ⟨hr.last c.key n hreg, hok c h hreg⟩
    have hset : (s.setCall n { c with stage := .removing }).Current := hcur.setCall h rfl (fun _ => hlatest)
    exact hset
  · exact hcur.setCall h rfl nofun

theorem Current.step (hcur : s.Current) (hr : s.Registered) {e : CleanupEvent} (hok : s.Undisturbed e)
    (h : s.step e = some t) : t.Current := by
  cases e with
  | waits elapsed =>
    obtain rfl := Option.some.inj h
    exact hcur
  | schedules key after =>
    obtain rfl := Option.some.inj h
    exact hcur.scheduleCleanup after hok
  | returns n =>
    obtain ⟨c, hc, rfl⟩ := Option.map_eq_some_iff.1 h
    exact hcur.setCall hc rfl (hcur n c hc)
  | fires n =>
    obtain ⟨c, hc, -, rfl⟩ := bind_guard h
    exact hcur.setCall hc rfl nofun
  | locks n =>
    obtain ⟨c, hc, -, rfl⟩ := bind_guard h
    exact hcur.checkCurrent hr hc hok
  | removes n =>
    obtain ⟨c, hc, -, rfl⟩ := bind_guard h
    exact hcur.setCall hc rfl nofun
  | answers key =>
    obtain rfl := Option.some.inj h
    intro n c hn hstage
    have hne : c.key ≠ key := fun hkey => hok ((removing_iff s key).2 ⟨n, c, hn, hkey, hstage⟩)
    obtain ⟨hmade, hanswered⟩ := hcur n c hn hstage
    refine ⟨hmade, ?_⟩
    simp_all

end Machine

/-- **Superseded cleanups do not run.**  In every run the timer that runs for a key is the registered one, so there is at most
one.  In every run that is undisturbed, a `remove` begins only while no later call for its key has returned and no answer has
been written to the record since its own call. -/
theorem superseded_never_removes (es : List CleanupEvent) (s : CleanupState) (hrun : Steps.run step init es = some s) :
    (∀ n m c d, s.calls.lookup n = some c → s.calls.lookup m = some d → c.stage = .armed → d.stage = .armed →
      c.key = d.key → n = m ∧ s.cleanupTimers.lookup c.key = some n) ∧
    (Steps.Meets step Undisturbed init es → ∀ n t, s.step (.removes n) = some t →
      ∃ c, s.calls.lookup n = some c ∧
        (∀ m d, s.calls.lookup m = some d → d.key = c.key → n < m → d.returned = false) ∧
        ∀ m, s.answered.lookup c.key = some m → m ≤ n) := by
  have hreg : s.Registered :=
    Steps.run_inv step Registered (fun _ _ _ hi hstep => hi.step hstep) es init s .init hrun
  constructor
  · intro n m c d hn hm hc hd hkey
    have hcn := hreg.armed n c hn hc
    have hdm := hreg.armed m d hm hd
    rw [← hkey] at hdm
    exact ⟨Option.some.inj (hcn.symm.trans hdm), hcn⟩
  · intro hmeets n t hstep
    have hboth : s.Registered ∧ s.Current :=
      Steps.run_inv_when step Undisturbed (fun u => u.Registered ∧ u.Current)
        (fun _ _ _ hi hok hs => ⟨hi.1.step hs, hi.2.step hi.1 hok hs⟩) es init s
        ⟨.init, fun _ _ h => by cases h⟩ hmeets hrun
    obtain ⟨c, hc, hstage, -⟩ := bind_guard hstep
    obtain ⟨hmade, hanswered⟩ := hboth.2 n c hc hstage
    refine ⟨c, hc, fun m d hm hkey hlt => ?_, hanswered⟩
    exact absurd (hmade m ⟨d, hm, hkey⟩) (Nat.not_le_of_lt hlt)

def branchKey : List Char := "rtdb:signal/u".toList

def replacedWatchdog : List CleanupEvent :=
  [.schedules branchKey offerWatchdog, .returns 0, .waits offerWatchdog, .fires 0, .answers branchKey,
    .schedules branchKey answerCleanup, .returns 1, .locks 0, .waits answerCleanup, .fires 1, .locks 1]

theorem superseded_never_removes_replaced :
    ∃ s t, Steps.run step init replacedWatchdog = some s ∧ s.step (.removes 1) = some t ∧
      ∃ c, s.calls.lookup 1 = some c ∧
        (∀ m d, s.calls.lookup m = some d → d.key = c.key → 1 < m → d.returned = false) ∧
        ∀ m, s.answered.lookup c.key = some m → m ≤ 1 := by
  have hmeets : Steps.Meets step Undisturbed init replacedWatchdog := by decide +kernel
  obtain ⟨s, hrun, hsome⟩ : ∃ s, Steps.run step init replacedWatchdog = some s ∧ (s.step (.removes 1)).isSome = true :=
    Steps.exists_run (by decide +kernel)
  obtain ⟨t, ht⟩ := Option.isSome_iff_exists.1 hsome
  exact ⟨s, t, hrun, ht, (superseded_never_removes replacedWatchdog s hrun).2 hmeets 1 t ht⟩

/-- The watchdog's callback has found its timer registered and let the mutex go when the answer is written and its call is
made. -/
def overtakenWatchdog : List CleanupEvent :=
  [.schedules branchKey offerWatchdog, .returns 0, .waits offerWatchdog, .fires 0, .locks 0, .answers branchKey,
    .schedules branchKey answerCleanup, .returns 1]

/-- **The watchdog removes an answered record**: after the answer's `scheduleCleanup` has returned, the watchdog's `remove`
begins. -/
theorem overtaken_watchdog_removes :
    ∃ s t c d, Steps.run step init overtakenWatchdog = some s ∧ s.step (.removes 0) = some t ∧
      s.calls.lookup 0 = some c ∧ s.calls.lookup 1 = some d ∧ d.key = c.key ∧ d.returned = true ∧
      s.answered.lookup c.key = some 1 := by
  obtain ⟨s, hrun, hremoves, hzero, hone, hanswered⟩ : ∃ s, Steps.run step init overtakenWatchdog = some s ∧
      (s.step (.removes 0)).isSome = true ∧ s.calls.lookup 0 = some ⟨branchKey, offerWatchdog, .removing, true⟩ ∧
      s.calls.lookup 1 = some ⟨branchKey, offerWatchdog + answerCleanup, .armed, true⟩ ∧
      s.answered.lookup branchKey = some 1 :=
    Steps.exists_run (by decide +kernel)
  obtain ⟨t, ht⟩ := Option.isSome_iff_exists.1 hremoves
  exact ⟨s, t, _, _, hrun, ht, hzero, hone, rfl, rfl, hanswered⟩

end CleanupState
end YuriRtc
