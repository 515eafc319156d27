import YuriRtc.SwBridge
/-!
# BridgeHeads — the promise `SwBridge.request` waits for

The closure of a request (`SwBridge`) with `headPromise` and the abort listener.  Each way out of `pending` goes through
`entry.onError`, which rejects the promise unless a head has settled it, but for two: `entry.onEnd`, and the `cancel` of the
stream, which nobody has before the promise resolves.
-/
namespace YuriRtc

inductive HeadPromise where
  | waiting
  | resolved
  | rejected
deriving DecidableEq, Repr

structure BridgeHead where
  request : BridgeRequest
  /-- `entry.headReceived`, which is `settled` as well -/
  received : Bool
  head : HeadPromise
  listener : Bool

inductive HeadEvent where
  | head
  | bridge (e : BridgeEvent)
deriving DecidableEq, Repr

namespace BridgeHead

/-- `rejectHead` and `resolveHead`: a promise settles once. -/
def settle (s : BridgeHead) (outcome : HeadPromise) : BridgeHead :=
  if s.head = .waiting then { s with head := outcome } else s

/-- `entry.onError`, as far as the promise goes. -/
def onError (s : BridgeHead) : BridgeHead :=
  let removed := { s with listener := false }
  if s.received then removed else removed.settle .rejected

/-- The request is posted; where that fails it is forgotten and `onError` runs. -/
def posted (initial : InitialCredits) (now : Int) (sent : Bool) : BridgeHead :=
  let entered : BridgeHead := ⟨.request initial now, false, .waiting, true⟩
  if sent then entered else { entered with request.pending := false }.onError

/-- What a callback that took the id out of `pending` does to the promise. -/
def leaves (s : BridgeHead) : BridgeEvent → BridgeHead
  | .finish | .cancel => { s with listener := false }
  | .body _ _ _ | .err | .down | .pull | .enqueueReturns _ _ | .abort | .portBroken => s.onError

def step (s : BridgeHead) : HeadEvent → Option BridgeHead
  | .head =>
    if s.request.calls ≠ [] then none
    else if s.request.pending then some ({ s with received := true }.settle .resolved)
    else some s
  | .bridge e =>
    if e = .cancel ∧ s.head ≠ .resolved then none
    else (s.request.step e).map fun t =>
      let run := { s with request := t }
      if s.request.pending && !t.pending then run.leaves e else run

/-- **The page ends a response after its head.** -/
def HeadFirst (s : BridgeHead) : HeadEvent → Prop
  | .bridge .finish => s.request.pending = true → s.received = true
  | _ => True

instance (s : BridgeHead) (e : HeadEvent) : Decidable (s.HeadFirst e) := by
  unfold HeadFirst
  split <;> infer_instance

theorem step_pending {b c : BridgeRequest} {e : BridgeEvent} (h : b.step e = some c) (hp : b.pending = false) :
    c.pending = false := by
  have hdrained : ∀ b : BridgeRequest, b.closeIfDrained.pending = b.pending := fun b => by
    unfold BridgeRequest.closeIfDrained
    split <;> rfl
  have hgiven : ∀ (b : BridgeRequest) chunk caller, (b.enqueue chunk caller).pending = b.pending := fun b _ _ => by
    unfold BridgeRequest.enqueue
    split <;> rfl
  have hrecorded : ∀ (b : BridgeRequest) now later, (b.recordConsumption now later).1.pending = b.pending := fun b _ _ => by
    simp only [BridgeRequest.recordConsumption]
    split
    · rfl
    · split <;> rfl
  have hrefilled : ∀ (b : BridgeRequest) force grown, b.pending = false → (b.refillCredit force grown).pending = false :=
    fun b _ _ hb => by simp [BridgeRequest.refillCredit, hb]
  cases e with
  | pull =>
    simp only [BridgeRequest.step, BridgeRequest.onPull] at h
    grind
  | enqueueReturns now later =>
    simp only [BridgeRequest.step, BridgeRequest.resume, BridgeRequest.recordAndRefill] at h
    grind
  | _ =>
    simp only [BridgeRequest.step, BridgeRequest.onPending, BridgeRequest.onAbort, BridgeRequest.cancelStream, hp] at h
    grind

structure Settles (s : BridgeHead) : Prop where
  resolved : s.received = true ↔ s.head = .resolved
  live : s.request.pending = true → s.head ≠ .rejected
  gone : s.request.pending = false → s.head ≠ .waiting
  listener : s.listener = false → s.request.pending = false

variable {s t : BridgeHead}

theorem Settles.posted (initial : InitialCredits) (now : Int) (sent : Bool) : Settles (posted initial now sent) := by
  cases sent <;>
    exact ⟨by simp [BridgeHead.posted, onError, settle], by simp [BridgeHead.posted, onError, settle, BridgeRequest.request],
      by simp [BridgeHead.posted, onError, settle, BridgeRequest.request],
      by simp [BridgeHead.posted, onError, settle, BridgeRequest.request]⟩

theorem Settles.step {e : HeadEvent} (h : Settles s) (hok : s.HeadFirst e) (hs : s.step e = some t) : Settles t := by
  obtain ⟨hresolved, hlive, hgone, hlistener⟩ := h
  cases e with
  | head =>
    simp only [BridgeHead.step] at hs
    split at hs
    · cases hs
    split at hs <;> cases hs
    · rename_i hpending
      have hnot := hlive hpending
      unfold settle
      cases hhead : s.head <;> constructor <;> simp_all
    · exact ⟨hresolved, hlive, hgone, hlistener⟩
  | bridge e =>
    simp only [BridgeHead.step] at hs
    obtain ⟨hcancel, hs⟩ := Option.ite_none_left_eq_some.1 hs
    obtain ⟨next, hnext, rfl⟩ := Option.map_eq_some_iff.1 hs
    by_cases hleft : (s.request.pending && !next.pending) = true
    · obtain ⟨hpending, hdropped⟩ : s.request.pending = true ∧ next.pending = false := by simpa using hleft
      have hnot := hlive hpending
      rw [if_pos hleft]
      cases e with
      | finish =>
        have hhead := hresolved.1 (hok hpending)
        exact ⟨hresolved, by simp [leaves, hdropped], by simp [leaves, hhead], fun _ => hdropped⟩
      | cancel =>
        have hhead : s.head = .resolved := by simpa using hcancel
        exact ⟨hresolved, by simp [leaves, hdropped], by simp [leaves, hhead], fun _ => hdropped⟩
      | _ =>
        simp only [leaves, onError, settle]
        cases hhead : s.head <;> cases hreceived : s.received <;> constructor <;> simp_all
    · rw [if_neg hleft]
      have hsame : next.pending = s.request.pending := by
        cases hp : s.request.pending with
        | false => exact step_pending hnext hp
        | true => simpa [hp] using hleft
      exact ⟨hresolved, fun hp => hlive (hsame ▸ hp), fun hp => hgone (hsame ▸ hp), fun hl => hsame.trans (hlistener hl)⟩

/-- **Every request settles its head.**  In every run in which no response ends before its head, with messages, aborts,
cancels, lost carriers and callbacks in any order: once the id is out of `pending`, or the abort listener is removed, the promise
is settled, resolved if a head was received and rejected if none was. -/
theorem head_settled (initial : InitialCredits) (now : Int) (sent : Bool) (events : List HeadEvent) (s : BridgeHead)
    (hrun : Steps.run step (posted initial now sent) events = some s)
    (hfirst : Steps.Meets step HeadFirst (posted initial now sent) events) :
    (s.request.pending = false ∨ s.listener = false) →
      s.head = if s.received then .resolved else .rejected := by
  have hs : Settles s := Steps.run_inv_when step HeadFirst Settles (fun _ _ _ h hok hstep => h.step hok hstep) events _ s
    (.posted initial now sent) hfirst hrun
  intro hgone
  have hnot := hs.gone (hgone.elim id hs.listener)
  cases hreceived : s.received with
  | true => exact hs.resolved.1 hreceived
  | false =>
    cases hhead : s.head with
    | waiting => exact absurd hhead hnot
    | resolved => simp [hs.resolved.2 hhead] at hreceived
    | rejected => rfl

def oneCredit : InitialCredits := ⟨1, by decide, by decide⟩

/-- **The page ends a response without a head**: the request is forgotten, its listener removed, no callback is left to run,
and the promise still waits. -/
theorem end_before_head_hangs :
    (Steps.run step (posted oneCredit 0 true) [.bridge .finish]).map
      (fun s => (s.request.pending, s.listener, s.request.calls, s.head)) = some (false, false, [], .waiting) := by
  decide +kernel

theorem head_settled_ends : ∃ s, Steps.run step (posted oneCredit 0 true) [.head, .bridge .finish] = some s ∧
    s.head = .resolved := by
  obtain ⟨s, hrun, hview⟩ : ∃ s, Steps.run step (posted oneCredit 0 true) [.head, .bridge .finish] = some s ∧
      s.request.pending = false ∧ s.received = true :=
    Steps.exists_run (by decide +kernel)
  refine ⟨s, hrun, ?_⟩
  rw [head_settled oneCredit 0 true _ s hrun (by decide +kernel) (.inl hview.1), if_pos hview.2]

end BridgeHead

end YuriRtc
