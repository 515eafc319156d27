import YuriRtc.Dedupe
import YuriRtc.Steps
/-!
# Signaler — one answer per session

`content-node/signal.go`: any number of `Signaler.handle` calls from both legs, over one `Dedupe` and one clock that never goes
back.  A leader calls the answer function and completes its entry; every call that joined an entry waits for its result or
for the end of its own context.  What the answer function does, when it returns, and whether a reply can be written is left
open.
-/
namespace YuriRtc

structure OfferBlob where
  sessionId : List Char
  sdp : List Char
deriving DecidableEq, Repr

structure AnswerBlob where
  sdp : List Char
  candidates : List (List Char)
deriving DecidableEq, Repr

/-- `canceled` is `context.Canceled`. -/
inductive AnswerError where
  | canceled
  | failed
deriving DecidableEq, Repr

inductive AnswerResult where
  | answer (blob : AnswerBlob)
  | error (reason : AnswerError)
deriving DecidableEq, Repr

/-- How a call of `handle` ends: an offer without a session or an SDP is discarded, a reply that cannot be written is
discarded after it, and so is an offer that failed unless it was canceled. -/
inductive HandleEnd where
  | discarded
  | replied (blob : AnswerBlob) (written : Bool)
  | failed (reason : AnswerError)
deriving DecidableEq, Repr

def AnswerResult.ending (written : Bool) : AnswerResult → HandleEnd
  | .answer blob => .replied blob written
  | .error reason => .failed reason

inductive HandleStage where
  | called
  | leading (entry : DedupeEntry)
  | answering (entry : DedupeEntry)
  | completing (entry : DedupeEntry) (result : AnswerResult)
  | waiting (entry : DedupeEntry)
  | returned (entry : Option DedupeEntry) (ending : HandleEnd)
deriving DecidableEq, Repr

structure HandleCall where
  offer : OfferBlob
  done : Bool
  stage : HandleStage
deriving DecidableEq, Repr

structure Invocation where
  record : DedupeRecord
  time : Int
deriving DecidableEq, Repr

/-- `results` are the entries that are ready, by their numbers.  The last three fields record what has happened: the joins
that made a leader, the calls of the answer function and what it returned. -/
structure SignalState where
  dedupe : Dedupe
  clock : Int
  calls : AList (fun _ : Nat => HandleCall)
  results : AList (fun _ : Nat => AnswerResult)
  next : Nat
  led : List DedupeRecord
  invocations : List Invocation
  answers : AList (fun _ : Nat => AnswerResult)

inductive HandleAction where
  | cancel
  | join
  | invoke
  | answered (result : AnswerResult)
  | complete
  | wake (written : Bool)
  | giveUp
deriving DecidableEq, Repr

inductive SignalEvent where
  | tick (elapsed : Nat)
  | call (offer : OfferBlob)
  | handle (id : Nat) (action : HandleAction)
deriving DecidableEq, Repr

namespace SignalState

def init (ttl clock : Int) : SignalState := ⟨.new ttl, clock, ∅, ∅, 0, [], [], ∅⟩

def stand (s : SignalState) (id : Nat) (c : HandleCall) (stage : HandleStage) : SignalState :=
  { s with calls := s.calls.insert id { c with stage := stage } }

def join (s : SignalState) (id : Nat) (c : HandleCall) : SignalState :=
  if c.offer.sessionId = [] ∨ c.offer.sdp = [] then s.stand id c (.returned none .discarded)
  else
    let joined := s.dedupe.join s.clock c.offer.sessionId
    if joined.2.2 then
      { s with
          dedupe := joined.1,
          led := s.led ++ [DedupeRecord.mk c.offer.sessionId joined.2.1] }.stand id c (.leading joined.2.1)
    else { s with dedupe := joined.1 }.stand id c (.waiting joined.2.1)

/-- `once.Do`: the first result stays. -/
def complete (s : SignalState) (entry : DedupeEntry) (result : AnswerResult) : SignalState :=
  if (s.results.lookup entry.number).isSome then s else { s with results := s.results.insert entry.number result }

def advance (s : SignalState) (id : Nat) (c : HandleCall) : HandleAction → Option SignalState
  | .cancel => some { s with calls := s.calls.insert id { c with done := true } }
  | .join => if c.stage = .called then some (s.join id c) else none
  | .invoke =>
    match c.stage with
    | .leading entry =>
      some ({ s with invocations := s.invocations ++ [Invocation.mk ⟨c.offer.sessionId, entry⟩ s.clock] }.stand id c
        (.answering entry))
    | _ => none
  | .answered result =>
    match c.stage with
    | .answering entry =>
      some ({ s with answers := s.answers.insert entry.number result }.stand id c (.completing entry result))
    | _ => none
  | .complete =>
    match c.stage with
    | .completing entry result => some ((s.complete entry result).stand id c (.waiting entry))
    | _ => none
  | .wake written =>
    match c.stage with
    | .waiting entry =>
      (s.results.lookup entry.number).map fun result => s.stand id c (.returned (some entry) (result.ending written))
    | _ => none
  | .giveUp =>
    match c.stage with
    | .waiting entry => if c.done then some (s.stand id c (.returned (some entry) (.failed .canceled))) else none
    | _ => none

def step (s : SignalState) : SignalEvent → Option SignalState
  | .tick elapsed => some { s with clock := s.clock + elapsed }
  | .call offer => some { s with calls := s.calls.insert s.next ⟨offer, false, .called⟩, next := s.next + 1 }
  | .handle id action => (s.calls.lookup id).bind fun c => s.advance id c action

/-! ### Entries, leaders and results -/

end SignalState

def HandleStage.entry : HandleStage → Option DedupeEntry
  | .called => none
  | .leading entry | .answering entry | .completing entry _ | .waiting entry => some entry
  | .returned entry _ => entry

def HandleStage.owes : HandleStage → Option DedupeEntry
  | .leading entry | .answering entry | .completing entry _ => some entry
  | .called | .waiting _ | .returned _ _ => none

namespace SignalState

def askedFor (s : SignalState) : List Nat := s.invocations.map (·.record.entry.number)

def Ended (s : SignalState) (done : Bool) (entry : Option DedupeEntry) (ending : HandleEnd) : Prop :=
  match entry with
  | none => ending = .discarded
  | some entry =>
    (done = true ∧ ending = .failed .canceled) ∨
      ∃ result written, s.results.lookup entry.number = some result ∧ ending = result.ending written

def Stands (s : SignalState) (c : HandleCall) : Prop :=
  match c.stage with
  | .called | .waiting _ => True
  | .leading entry => entry.number ∉ s.askedFor ∧ s.answers.lookup entry.number = none
  | .answering entry => entry.number ∈ s.askedFor ∧ s.answers.lookup entry.number = none
  | .completing entry result => s.answers.lookup entry.number = some result ∧ s.results.lookup entry.number = none
  | .returned entry ending => s.Ended c.done entry ending

structure Shared (s : SignalState) : Prop where
  tracks : s.dedupe.Tracks s.clock s.led
  numbered : ∀ id c, s.calls.lookup id = some c → id < s.next
  joined : ∀ id c entry, s.calls.lookup id = some c → c.stage.entry = some entry → ⟨c.offer.sessionId, entry⟩ ∈ s.led
  alone : ∀ id id' c c' entry entry', s.calls.lookup id = some c → s.calls.lookup id' = some c' →
    c.stage.owes = some entry → c'.stage.owes = some entry' → entry.number = entry'.number → id = id'
  stands : ∀ id c, s.calls.lookup id = some c → s.Stands c
  ready : ∀ n result, s.results.lookup n = some result → s.answers.lookup n = some result
  asked : ∀ n result, s.answers.lookup n = some result → n ∈ s.askedFor
  once : s.askedFor.Nodup
  leaders : ∀ v ∈ s.invocations, v.record ∈ s.led

theorem Stands.mono {s t : SignalState} {d : HandleCall} (hold : s.Stands d)
    (hunasked : ∀ entry, d.stage = .leading entry → entry.number ∈ t.askedFor → entry.number ∈ s.askedFor)
    (hasked : ∀ n, n ∈ s.askedFor → n ∈ t.askedFor)
    (hanswers : ∀ entry, d.stage.owes = some entry → t.answers.lookup entry.number = s.answers.lookup entry.number)
    (hresults : ∀ entry, d.stage.owes = some entry → t.results.lookup entry.number = s.results.lookup entry.number)
    (hready : ∀ n result, s.results.lookup n = some result → t.results.lookup n = some result) : t.Stands d := by
  unfold Stands at hold ⊢
  cases hstage : d.stage with
  | called => trivial
  | waiting entry => trivial
  | leading entry =>
    rw [hstage] at hold hanswers
    exact ⟨fun hmem => hold.1 (hunasked entry hstage hmem), (hanswers entry rfl).trans hold.2⟩
  | answering entry =>
    rw [hstage] at hold hanswers
    exact ⟨hasked _ hold.1, (hanswers entry rfl).trans hold.2⟩
  | completing entry result =>
    rw [hstage] at hold hanswers hresults
    exact ⟨(hanswers entry rfl).trans hold.1, (hresults entry rfl).trans hold.2⟩
  | returned entry ending =>
    rw [hstage] at hold
    cases entry with
    | none => exact hold
    | some entry => exact hold.imp_right fun ⟨result, written, hresult, hend⟩ => ⟨result, written, hready _ _ hresult, hend⟩

namespace Shared

theorem init (ttl clock : Int) : (init ttl clock).Shared where
  tracks := .new ttl clock
  numbered id c h := by cases h
  joined id c entry h := by cases h
  alone id id' c c' entry entry' h := by cases h
  stands id c h := by cases h
  ready n result h := by cases h
  asked n result h := by cases h
  once := List.nodup_nil
  leaders v hv := absurd hv List.not_mem_nil

variable {s t : SignalState} {id : Nat} {c c' : HandleCall}

section

variable (h : s.Shared) (hc : s.calls.lookup id = some c)
include h hc

theorem move (hcalls : t.calls = s.calls.insert id c')
    (hnext : t.next = s.next) (hoffer : c'.offer = c.offer) (htracks : t.dedupe.Tracks t.clock t.led) (hled : s.led ⊆ t.led)
    (hjoined : ∀ entry, c'.stage.entry = some entry → ⟨c.offer.sessionId, entry⟩ ∈ t.led)
    (howes : ∀ entry, c'.stage.owes = some entry →
      c.stage.owes = some entry ∨ ∀ r ∈ s.led, r.entry.number ≠ entry.number)
    (hstands : t.Stands c')
    (hothers : ∀ other d, other ≠ id → s.calls.lookup other = some d → s.Stands d → t.Stands d)
    (hready : ∀ n result, t.results.lookup n = some result → t.answers.lookup n = some result)
    (hasked : ∀ n result, t.answers.lookup n = some result → n ∈ t.askedFor) (honce : t.askedFor.Nodup)
    (hleaders : ∀ v ∈ t.invocations, v.record ∈ t.led) :
    t.Shared := by
  have hlookup : ∀ other d, t.calls.lookup other = some d →
      (other = id ∧ d = c') ∨ (other ≠ id ∧ s.calls.lookup other = some d) := by
    intro other d hd
    rw [hcalls] at hd
    grind [AList.lookup_insert, Option.some.injEq, AList.lookup_insert_ne]
  -- what another call owes is not what this one owes now
  have happart : ∀ other d entry entry', other ≠ id → s.calls.lookup other = some d → d.stage.owes = some entry →
      c'.stage.owes = some entry' → entry.number ≠ entry'.number := by
    intro other d entry entry' hne hd howed howed' hnumber
    rcases howes entry' howed' with hold | hnew
    · exact hne (h.alone other id d c entry entry' hd hc howed hold hnumber)
    have hentry : d.stage.entry = some entry := by
      revert howed
      cases d.stage <;> simp [HandleStage.owes, HandleStage.entry]
    exact hnew _ (h.joined other d entry hd hentry) hnumber
  refine ⟨htracks, ?_, ?_, ?_, ?_, hready, hasked, honce, hleaders⟩
  · intro other d hd
    rw [hnext]
    rcases hlookup other d hd with ⟨rfl, -⟩ | ⟨-, hold⟩
    · exact h.numbered other c hc
    · exact h.numbered other d hold
  · intro other d entry hd hentry
    rcases hlookup other d hd with ⟨-, rfl⟩ | ⟨-, hold⟩
    · grind
    · exact hled (h.joined other d entry hold hentry)
  · intro other other' d d' entry entry' hd hd' howed howed' hnumber
    rcases hlookup other d hd with ⟨rfl, rfl⟩ | ⟨hne, hold⟩
    · grind
    rcases hlookup other' d' hd' with ⟨rfl, rfl⟩ | ⟨hne', hold'⟩
    · exact absurd hnumber (happart other d entry entry' hne hold howed howed')
    · exact h.alone other other' d d' entry entry' hold hold' howed howed' hnumber
  · intro other d hd
    rcases hlookup other d hd with ⟨-, rfl⟩ | ⟨hne, hold⟩
    · exact hstands
    · exact hothers other d hne hold (h.stands other d hold)

theorem stand (c' : HandleCall) (hoffer : c'.offer = c.offer)
    (hjoined : ∀ entry, c'.stage.entry = some entry → c.stage.entry = some entry)
    (howes : ∀ entry, c'.stage.owes = some entry → c.stage.owes = some entry)
    (hstands : s.Stands c') : ({ s with calls := s.calls.insert id c' } : SignalState).Shared :=
  h.move hc rfl rfl hoffer h.tracks (List.Subset.refl _) (fun entry he => h.joined id c entry hc (hjoined entry he))
    (fun entry he => .inl (howes entry he)) hstands (fun _ _ _ _ hd => hd) h.ready h.asked h.once h.leaders

variable {entry : DedupeEntry}

theorem apart (howes : c.stage.owes = some entry)
    {other : Nat} {d : HandleCall} (hne : other ≠ id) (hd : s.calls.lookup other = some d) {entry' : DedupeEntry}
    (howes' : d.stage.owes = some entry') : entry'.number ≠ entry.number :=
  fun hnumber => hne (h.alone other id d c entry' entry hd hc howes' howes hnumber)

theorem join : (s.join id c).Shared := by
  unfold SignalState.join
  split
  · exact h.stand hc _ rfl (fun entry he => by cases he) (fun entry he => by cases he) rfl
  rcases h.tracks.join c.offer.sessionId with ⟨d', entry, hjoin, htracks, -, hled, -⟩ | ⟨d', entry, hjoin, htracks, -⟩
  · rw [hjoin]
    simp only [Bool.false_eq_true, if_false]
    refine h.move hc rfl rfl rfl htracks (List.Subset.refl _) ?_ (fun entry' he => by cases he) trivial
      (fun _ _ _ _ hd => hd) h.ready h.asked h.once h.leaders
    intro entry' he
    cases he
    exact hled
  · rw [hjoin]
    simp only [if_true]
    -- the number of the new entry is above those of all leaders before
    have hnew : ∀ r ∈ s.led, r.entry.number ≠ entry.number := by
      have hnumbers := htracks.numbers
      simp_all [List.map_append, List.nodup_append]
    have hunasked : entry.number ∉ s.askedFor := by
      intro hmem
      obtain ⟨v, hv, hnumber⟩ := List.mem_map.1 hmem
      exact hnew v.record (h.leaders v hv) hnumber
    have hunanswered : s.answers.lookup entry.number = none := by
      cases hanswer : s.answers.lookup entry.number with
      | none => rfl
      | some result => exact absurd (h.asked _ result hanswer) hunasked
    refine h.move hc rfl rfl rfl htracks (List.subset_append_left _ _) ?_ ?_ ⟨hunasked, hunanswered⟩ (fun _ _ _ _ hd => hd)
      h.ready h.asked h.once (fun v hv => List.mem_append_left _ (h.leaders v hv))
    · intro entry' he
      cases he
      exact List.mem_append_right _ (List.mem_singleton.2 rfl)
    intro entry' he
    cases he
    exact .inr hnew

theorem invoke (hstage : c.stage = .leading entry) :
    ({ s with invocations := s.invocations ++ [Invocation.mk ⟨c.offer.sessionId, entry⟩ s.clock] }.stand id c
      (.answering entry)).Shared := by
  have hstands := h.stands id c hc
  simp only [Stands, hstage] at hstands
  have howes : c.stage.owes = some entry := by rw [hstage]; rfl
  have hled := h.joined id c entry hc (by rw [hstage]; rfl)
  have hasked : ∀ calls, ({ s with
      calls := calls
      invocations := s.invocations ++ [Invocation.mk ⟨c.offer.sessionId, entry⟩ s.clock] } : SignalState).askedFor =
      s.askedFor ++ [entry.number] := fun _ => List.map_append
  refine h.move hc rfl rfl rfl h.tracks (List.Subset.refl _) ?_ ?_ ⟨?_, hstands.2⟩ ?_ h.ready ?_ ?_ ?_
  · intro entry' he
    cases he
    exact hled
  · intro entry' he
    cases he
    exact .inl howes
  · simp [SignalState.stand, hasked]
  · intro other d hne hd hold
    rw [SignalState.stand]
    refine hold.mono ?_ ?_ (fun _ _ => rfl) (fun _ _ => rfl) (fun _ _ hr => hr)
    · intro entry' hlead hmem
      rw [hasked] at hmem
      refine (List.mem_append.1 hmem).resolve_right fun hlast => ?_
      exact h.apart hc howes hne hd (show d.stage.owes = some entry' by rw [hlead]; rfl) (List.mem_singleton.1 hlast)
    · simp_all
  · intro n result hanswer
    rw [SignalState.stand, hasked]
    exact List.mem_append_left _ (h.asked n result hanswer)
  · rw [SignalState.stand, hasked, List.nodup_append]
    refine ⟨h.once, List.nodup_singleton _, fun a ha b hb hab => hstands.1 ?_⟩
    simp_all
  intro v hv
  rcases List.mem_append.1 hv with hold | hlast
  · exact h.leaders v hold
  · rw [List.mem_singleton.1 hlast]
    exact hled

theorem answered (hstage : c.stage = .answering entry)
    (result : AnswerResult) :
    ({ s with answers := s.answers.insert entry.number result }.stand id c (.completing entry result)).Shared := by
  have hstands := h.stands id c hc
  simp only [Stands, hstage] at hstands
  have howes : c.stage.owes = some entry := by rw [hstage]; rfl
  have hunready : s.results.lookup entry.number = none := by
    cases hready : s.results.lookup entry.number <;> simp_all [h.ready]
  refine h.move hc rfl rfl rfl h.tracks (List.Subset.refl _) ?_ ?_ ⟨AList.lookup_insert _, hunready⟩ ?_ ?_ ?_ h.once h.leaders
  · intro entry' he
    cases he
    exact h.joined id c entry hc (by rw [hstage]; rfl)
  · intro entry' he
    cases he
    exact .inl howes
  · intro other d hne hd hold
    refine hold.mono (fun _ _ hmem => hmem) (fun _ hn => hn) ?_ (fun _ _ => rfl) (fun _ _ hr => hr)
    intro entry' howes'
    exact AList.lookup_insert_ne (h.apart hc howes hne hd howes')
  · intro n result' hresult
    have hne : n ≠ entry.number := by
      rintro rfl
      change s.results.lookup entry.number = some result' at hresult
      simp_all
    show (s.answers.insert entry.number result).lookup n = some result'
    rw [AList.lookup_insert_ne hne]
    exact h.ready n result' hresult
  · intro n result' hanswer
    change (s.answers.insert entry.number result).lookup n = some result' at hanswer
    by_cases heq : n = entry.number
    · rw [heq]
      exact hstands.1
    · rw [AList.lookup_insert_ne heq] at hanswer
      exact h.asked n result' hanswer

theorem complete {result : AnswerResult}
    (hstage : c.stage = .completing entry result) : ((s.complete entry result).stand id c (.waiting entry)).Shared := by
  have hstands := h.stands id c hc
  simp only [Stands, hstage] at hstands
  have howes : c.stage.owes = some entry := by rw [hstage]; rfl
  have hcomplete : s.complete entry result = { s with results := s.results.insert entry.number result } := by
    rw [SignalState.complete, hstands.2]
    rfl
  rw [hcomplete]
  refine h.move hc rfl rfl rfl h.tracks (List.Subset.refl _) ?_ (fun entry' he => by cases he) trivial ?_ ?_ h.asked h.once
    h.leaders
  · intro entry' he
    cases he
    exact h.joined id c entry hc (by rw [hstage]; rfl)
  · intro other d hne hd hold
    refine hold.mono (fun _ _ hmem => hmem) (fun _ hn => hn) (fun _ _ => rfl) ?_ ?_
    · intro entry' howes'
      exact AList.lookup_insert_ne (h.apart hc howes hne hd howes')
    intro n result' hresult
    have hother : n ≠ entry.number := by grind
    exact (AList.lookup_insert_ne hother).trans hresult
  · intro n result' hresult
    change (s.results.insert entry.number result).lookup n = some result' at hresult
    by_cases heq : n = entry.number
    · subst heq
      rw [AList.lookup_insert] at hresult
      rw [← hresult]
      exact hstands.1
    · rw [AList.lookup_insert_ne heq] at hresult
      exact h.ready n result' hresult

end

variable {s' : SignalState}

theorem advance {action : HandleAction} (h : s.Shared) (hc : s.calls.lookup id = some c)
    (hstep : s.advance id c action = some s') : s'.Shared := by
  cases action <;> simp only [SignalState.advance] at hstep
  case cancel =>
    cases hstep
    refine h.stand hc _ rfl (fun _ he => he) (fun _ he => he) ?_
    have hstands := h.stands id c hc
    unfold Stands at hstands ⊢
    cases hstage : c.stage with
    | returned entry ending =>
      rw [hstage] at hstands
      cases entry with
      | none => exact hstands
      | some entry => exact hstands.imp_left fun hdone => ⟨rfl, hdone.2⟩
    | called => trivial
    | waiting entry => trivial
    | leading entry => simp_all
    | answering entry => simp_all
    | completing entry result => simp_all
  case join =>
    obtain ⟨-, rfl⟩ := Steps.of_guard hstep
    exact h.join hc
  case invoke =>
    split at hstep
    · next entry hstage =>
      cases hstep
      exact h.invoke hc hstage
    · cases hstep
  case answered result =>
    split at hstep
    · next entry hstage =>
      cases hstep
      exact h.answered hc hstage result
    · cases hstep
  case complete =>
    split at hstep
    · next entry result hstage =>
      cases hstep
      exact h.complete hc hstage
    · cases hstep
  case wake written =>
    split at hstep
    · next entry hstage =>
      obtain ⟨result, hresult, rfl⟩ := Option.map_eq_some_iff.1 hstep
      refine h.stand hc _ rfl (fun _ he => ?_) nofun (.inr ⟨result, written, hresult, rfl⟩)
      rw [hstage]
      exact he
    · cases hstep
  case giveUp =>
    split at hstep
    · next entry hstage =>
      split at hstep
      · next hdone =>
        cases hstep
        refine h.stand hc _ rfl (fun _ he => ?_) nofun (.inl ⟨hdone, rfl⟩)
        rw [hstage]
        exact he
      · cases hstep
    · cases hstep

theorem step {e : SignalEvent} (h : s.Shared) (hstep : s.step e = some s') : s'.Shared := by
  cases e with
  | tick elapsed =>
    cases hstep
    exact { h with tracks := h.tracks.later (by simp) }
  | call offer =>
    cases hstep
    have hlookup : ∀ id c, (s.calls.insert s.next ⟨offer, false, .called⟩).lookup id = some c →
        c.stage = .called ∨ s.calls.lookup id = some c := by
      grind [AList.lookup_insert, Option.some.injEq, AList.lookup_insert_ne]
    refine { h with
        numbered := fun id c hc => ?_, joined := fun id c entry hc hentry => ?_,
        alone := fun id id' c c' entry entry' hc hc' howes howes' => ?_, stands := fun id c hc => ?_ }
    · show id < s.next + 1
      by_cases heq : id = s.next
      · omega
      change (s.calls.insert s.next ⟨offer, false, .called⟩).lookup id = some c at hc
      rw [AList.lookup_insert_ne heq] at hc
      exact Nat.lt_succ_of_lt (h.numbered id c hc)
    · rcases hlookup id c hc with hcalled | hold
      · rw [hcalled] at hentry
        cases hentry
      · exact h.joined id c entry hold hentry
    · rcases hlookup id c hc with hcalled | hold
      · rw [hcalled] at howes
        cases howes
      rcases hlookup id' c' hc' with hcalled | hold'
      · rw [hcalled] at howes'
        cases howes'
      · exact h.alone id id' c c' entry entry' hold hold' howes howes'
    · rcases hlookup id c hc with hcalled | hold
      · grind [Stands]
      · exact h.stands id c hold
  | handle id action =>
    obtain ⟨c, hc, hadvance⟩ := Option.bind_eq_some_iff.1 hstep
    exact h.advance hc hadvance

end Shared

end SignalState
end YuriRtc
