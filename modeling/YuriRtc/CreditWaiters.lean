import YuriRtc.ResponseFlow
/-!
# CreditWaiters — many takers of one response's credit

`responseCreditWindow` of `content-node/server.go` between its critical sections, for any number of `take` and `grant` calls.
`wake` is a channel of capacity one, so a signal that finds it full is dropped; a taker that leaves credit behind signals in
its turn.
-/
namespace YuriRtc

/-- Where a goroutine is: not in a call, about to lock `mu` (`woken` when it comes from the channel), in the `select`, or
between its change of `available` and `signal`. -/
inductive CreditPosition where
  | outside
  | looking (woken : Bool)
  | selecting
  | signalling
deriving DecidableEq, Repr

/-- `granted` and `taken` count the credits that were accepted and the calls of `take` that got one. -/
structure CreditWaiters where
  window : ResponseCreditWindow
  wake : Bool
  granted : Nat
  taken : Nat
  position : Nat → CreditPosition

inductive CreditEvent where
  | take (g : Nat)
  | examine (g : Nat)
  | receive (g : Nat)
  | ctxDone (g : Nat)
  | grant (g count : Nat)
  | signal (g : Nat)
deriving DecidableEq, Repr

namespace CreditWaiters

def newResponseCreditWindow (initial : Nat) : CreditWaiters where
  window := .newResponseCreditWindow initial
  wake := decide (initial ≠ 0)
  granted := (ResponseCreditWindow.newResponseCreditWindow initial).available
  taken := 0
  position := fun _ => .outside

def move (s : CreditWaiters) (g : Nat) (p : CreditPosition) : CreditWaiters :=
  { s with position := Function.update s.position g p }

def step (s : CreditWaiters) : CreditEvent → Option CreditWaiters
  | .take g => if s.position g = .outside then some (s.move g (.looking false)) else none
  | .examine g =>
    match s.position g with
    | .looking _ =>
      match s.window.take with
      | some left =>
        some ({ s with window := left, taken := s.taken + 1 }.move g (if 0 < left.available then .signalling else .outside))
      | none => some (s.move g .selecting)
    | .outside | .selecting | .signalling => none
  | .receive g =>
    if s.position g = .selecting ∧ s.wake = true then some ({ s with wake := false }.move g (.looking true)) else none
  | .ctxDone g => if s.position g = .selecting then some (s.move g .outside) else none
  | .grant g count =>
    if s.position g ≠ .outside then none
    else if count = 0 ∨ maxResponseCredits ≤ s.window.available then some s
    else
      let credited := s.window.grant count
      some ({ s with
        window := credited
        granted := s.granted + (credited.available - s.window.available) }.move g .signalling)
  | .signal g => if s.position g = .signalling then some ({ s with wake := true }.move g .outside) else none

def Alert (s : CreditWaiters) (g : Nat) : Prop := s.position g = .signalling ∨ s.position g = .looking true

structure Sound (s : CreditWaiters) : Prop where
  counted : s.window.available + s.taken = s.granted
  woken : ∀ g, 0 < s.window.available → s.position g = .selecting → s.wake = true ∨ ∃ other, s.Alert other

variable {s t : CreditWaiters} {g : Nat} {p : CreditPosition}

theorem position_move : (s.move g p).position g = p := Function.update_self ..

theorem alert_move (hp : p = .signalling ∨ p = .looking true) : (s.move g p).Alert g := by
  rw [Alert, position_move]
  exact hp

theorem Sound.moves (h : Sound s) (hg : ¬ s.Alert g) (hp : p ≠ .selecting) : Sound (s.move g p) := by
  refine ⟨h.counted, fun waiter hcredit hwaiter => ?_⟩
  have hother : ∀ {other}, other ≠ g → (s.move g p).position other = s.position other := fun hne =>
    Function.update_of_ne hne _ _
  by_cases hsame : waiter = g
  · rw [hsame, position_move] at hwaiter
    exact absurd hwaiter hp
  rw [hother hsame] at hwaiter
  rcases h.woken waiter hcredit hwaiter with hwake | ⟨other, halert⟩
  · exact .inl hwake
  · have hne : other ≠ g := fun heq => hg (heq ▸ halert)
    exact .inr ⟨other, by rwa [Alert, hother hne]⟩

theorem Sound.start (initial : Nat) : Sound (newResponseCreditWindow initial) := ⟨rfl, fun _ _ h => by cases h⟩

theorem available_grant_ge (w : ResponseCreditWindow) (count : Nat) : w.available ≤ (w.grant count).available := by
  unfold ResponseCreditWindow.grant
  split
  · exact le_rfl
  split
  · exact le_rfl
  · exact Nat.le_add_right _ _

theorem Sound.step {e : CreditEvent} (h : Sound s) (hs : s.step e = some t) : Sound t := by
  have hcounted := h.counted
  cases e with
  | take g =>
    obtain ⟨hpos, hs⟩ := Option.ite_none_right_eq_some.1 hs
    cases hs
    exact h.moves (by simp [Alert, hpos]) (by simp)
  | examine g =>
    simp only [CreditWaiters.step] at hs
    split at hs
    · split at hs <;> cases hs
      · rename_i left htake
        have hless := ResponseCreditWindow.available_take htake
        refine ⟨?_, fun _ hcredit _ => .inr ⟨g, alert_move (.inl (if_pos hcredit))⟩⟩
        show left.available + (s.taken + 1) = s.granted
        omega
      · rename_i htake
        have hnone : ¬ 0 < s.window.available := fun hpos => by simp [ResponseCreditWindow.take, hpos] at htake
        exact ⟨hcounted, fun _ hcredit => absurd hcredit hnone⟩
    all_goals cases hs
  | receive g =>
    obtain ⟨-, hs⟩ := Option.ite_none_right_eq_some.1 hs
    cases hs
    exact ⟨hcounted, fun _ _ _ => .inr ⟨g, alert_move (.inr rfl)⟩⟩
  | ctxDone g =>
    obtain ⟨hpos, hs⟩ := Option.ite_none_right_eq_some.1 hs
    cases hs
    exact h.moves (by simp [Alert, hpos]) (by simp)
  | grant g count =>
    obtain ⟨-, hs⟩ := Option.ite_none_left_eq_some.1 hs
    split at hs <;> cases hs
    · exact h
    refine ⟨?_, fun _ _ _ => .inr ⟨g, alert_move (.inl rfl)⟩⟩
    have hmore := available_grant_ge s.window count
    show (s.window.grant count).available + s.taken = s.granted + ((s.window.grant count).available - s.window.available)
    omega
  | signal g =>
    obtain ⟨-, hs⟩ := Option.ite_none_right_eq_some.1 hs
    cases hs
    exact ⟨hcounted, fun _ _ _ => .inl rfl⟩

/-- **No taker is stranded.**  In every run: what is available is what was granted less what was taken, and within the cap;
and while credit is left and a taker waits, there is a token in the channel, or another goroutine is about to signal or has
received the token and is yet to look. -/
theorem no_stranded_taker (initial : Nat) (events : List CreditEvent) (s : CreditWaiters)
    (hrun : Steps.run step (newResponseCreditWindow initial) events = some s) :
    s.window.available = s.granted - s.taken ∧ s.taken ≤ s.granted ∧ s.window.available ≤ maxResponseCredits ∧
      ∀ g, 0 < s.window.available → s.position g = .selecting → s.wake = true ∨ ∃ other ≠ g, s.Alert other := by
  have hs : Sound s := Steps.run_inv step Sound (fun _ _ _ h hstep => h.step hstep) events _ s (.start initial) hrun
  have hcounted := hs.counted
  refine ⟨by omega, by omega, s.window.le_max, fun g hcredit hwaits => ?_⟩
  rcases hs.woken g hcredit hwaits with hwake | ⟨other, halert⟩
  · exact .inl hwake
  refine .inr ⟨other, fun heq => ?_, halert⟩
  rw [heq, Alert, hwaits] at halert
  rcases halert with hsame | hsame <;> cases hsame

def oneTokenForTwo : List CreditEvent :=
  [.take 1, .examine 1, .take 2, .examine 2, .grant 0 2, .signal 0, .receive 1, .examine 1]

theorem no_stranded_taker_oneToken : ∃ s, Steps.run step (newResponseCreditWindow 0) oneTokenForTwo = some s ∧
    s.window.available = 1 ∧ s.wake = false ∧ ∃ other ≠ 2, s.Alert other := by
  obtain ⟨s, hrun, hleft, hwake, hwaits⟩ : ∃ s, Steps.run step (newResponseCreditWindow 0) oneTokenForTwo = some s ∧
      s.window.available = 1 ∧ s.wake = false ∧ s.position 2 = .selecting :=
    Steps.exists_run (by decide +kernel)
  have hother := (no_stranded_taker 0 oneTokenForTwo s hrun).2.2.2 2 (by omega) hwaits
  exact ⟨s, hrun, hleft, hwake, hother.resolve_left (by simp [hwake])⟩

end CreditWaiters
end YuriRtc
