import YuriRtc.Assoc
import YuriRtc.Linearize
import YuriRtc.Steps
/-!
# FrameTokens — the reservation of request-body frames

`content-node/request_body.go`: `reserveGlobalRequestBodyFrames` takes its tokens one by one from a channel and puts them
back one by one where it finds the channel empty; `releaseGlobalRequestBodyFrames` puts tokens one by one.  A turn of a call
is one operation on the channel, or the return.  The calls are read against one counter that is decreased and increased at
once.
-/
namespace YuriRtc

open Linearize (after after_snoc)
namespace FrameTokens

open Linearize (Happening Entry Legal Linearization)

def maxGlobalQueuedRequestBodyFrames : Nat := 2048

/-! ### The calls, one operation at a time -/

inductive Operation where
  | reserve (count : Nat)
  | release (count : Nat)
deriving DecidableEq, Repr

/-- `reserved` and `refused` are the two answers of `reserveGlobalRequestBodyFrames`. -/
inductive Answer where
  | reserved
  | refused
  | released
deriving DecidableEq, Repr

inductive Call where
  | reserving (count reserved : Nat)
  | rollingBack (left : Nat)
  | releasing (count released : Nat)
deriving DecidableEq, Repr

def Operation.start : Operation → Call
  | .reserve count => .reserving count 0
  | .release count => .releasing count 0

/-- The channel holds `tokens`; calls are numbered in the order they are made. -/
structure State where
  tokens : Nat
  calls : AList (fun _ : Nat => Call)
  next : Nat
  history : List (Happening Operation Answer)

inductive Event where
  | call (op : Operation)
  | turn (id : Nat)
deriving DecidableEq, Repr

namespace State

def init (tokens : Nat) : State := ⟨tokens, ∅, 0, []⟩

def set (s : State) (id tokens : Nat) (call : Call) : State := { s with tokens := tokens, calls := s.calls.insert id call }

def respond (s : State) (id : Nat) (answer : Answer) : State :=
  { s with calls := s.calls.erase id, history := s.history ++ [.responded id answer] }

def put (s : State) (id : Nat) (call : Call) : Option State :=
  if s.tokens < maxGlobalQueuedRequestBodyFrames then some (s.set id (s.tokens + 1) call) else none

def turn (s : State) (id : Nat) : Call → Option State
  | .reserving count reserved =>
    if reserved < count then
      -- the `select` takes its default where the channel is empty
      if 0 < s.tokens then some (s.set id (s.tokens - 1) (.reserving count (reserved + 1)))
      else some (s.set id s.tokens (.rollingBack reserved))
    else some (s.respond id .reserved)
  | .rollingBack left => if 0 < left then s.put id (.rollingBack (left - 1)) else some (s.respond id .refused)
  | .releasing count released =>
    if released < count then s.put id (.releasing count (released + 1)) else some (s.respond id .released)

end State

def step (s : State) : Event → Option State
  | .call op =>
    some { s with
      calls := s.calls.insert s.next op.start
      next := s.next + 1
      history := s.history ++ [.invoked s.next op] }
  | .turn id => (s.calls.lookup id).bind (s.turn id)

/-! ### One counter -/

def serve (free : Nat) : Operation → Nat × Answer
  | .reserve count => if count ≤ free then (free - count, .reserved) else (free, .refused)
  | .release count => (free + count, .released)

/-! ### Tokens on the way -/

/-- The tokens a call has taken from the counter and not from the channel, or the other way round: those of a reservation
that is not complete, those that are going back, and those of a release that has begun. -/
def Call.inHand : Call → Nat
  | .reserving count reserved => if reserved < count then reserved else 0
  | .rollingBack left => left
  | .releasing count released => if released = 0 then 0 else count - released

def State.inHand (s : State) : Nat := (s.calls.entries.map fun e => e.2.inHand).sum

def TrulyShort (s : State) : Event → Prop
  | .call _ => True
  | .turn id =>
    match s.calls.lookup id with
    | some (.reserving count reserved) => reserved < count → s.tokens = 0 → s.inHand < count
    | _ => True

instance (s : State) (e : Event) : Decidable (TrulyShort s e) := by
  unfold TrulyShort
  split
  · infer_instance
  · split <;> infer_instance

/-! ### The order of the calls -/

/-- What the order says of a call that has not returned.  A reservation takes its place with its last token or with its
failure, a release with its first token, and a call for no tokens when it returns. -/
def Placed (order : List (Entry Operation Answer)) (history : List (Happening Operation Answer)) (id : Nat) : Call → Prop
  | .reserving count reserved =>
    .invoked id (.reserve count) ∈ history ∧ reserved ≤ count ∧
      if reserved < count ∨ count = 0 then id ∉ order.map Entry.id else ⟨id, .reserve count, .reserved⟩ ∈ order
  | .rollingBack _ => ∃ op, ⟨id, op, .refused⟩ ∈ order
  | .releasing count released =>
    .invoked id (.release count) ∈ history ∧ released ≤ count ∧
      if released = 0 then id ∉ order.map Entry.id else ⟨id, .release count, .released⟩ ∈ order

structure Explains (tokens : Nat) (s : State) (order : List (Entry Operation Answer)) : Prop where
  linear : Linearization serve tokens s.history order
  counter : after serve tokens order = s.tokens + s.inHand
  fresh : ∀ id op, .invoked id op ∈ s.history → id < s.next
  known : ∀ id call, s.calls.lookup id = some call → id < s.next ∧ Placed order s.history id call
  told : ∀ e ∈ order, (s.calls.lookup e.id).isSome ∨ .responded e.id e.result ∈ s.history
  answered : ∀ id op, .invoked id op ∈ s.history →
    (s.calls.lookup id).isSome ∨ ∃ answer, .responded id answer ∈ s.history

/-- The order is as it was, or the call `id` has taken its place. -/
def Grown (order order' : List (Entry Operation Answer)) (id : Nat) : Prop :=
  order' = order ∨ ∃ e, e.id = id ∧ order' = order ++ [e]

variable {e : Entry Operation Answer}

section

variable {order order' : List (Entry Operation Answer)}
include order order'

theorem Grown.mem {id : Nat} (h : Grown order order' id)
    (he : e ∈ order) : e ∈ order' := by
  rcases h with rfl | ⟨d, -, rfl⟩
  · exact he
  · exact List.mem_append_left _ he

theorem Grown.old {id : Nat} (h : Grown order order' id)
    (he : e ∈ order') (hne : e.id ≠ id) : e ∈ order := by
  rcases h with rfl | ⟨d, hd, rfl⟩
  · exact he
  · grind

theorem Grown.notMem {id other : Nat} (h : Grown order order' id)
    (hne : other ≠ id) (hnot : other ∉ order.map Entry.id) : other ∉ order'.map Entry.id := by
  intro hmem
  obtain ⟨e, he, rfl⟩ := List.mem_map.1 hmem
  exact hnot (List.mem_map.2 ⟨e, h.old he hne, rfl⟩)

theorem Placed.mono {history history' : List (Happening Operation Answer)}
    {id other : Nat} {call : Call} (hgrown : Grown order order' id) (hne : other ≠ id) (hhistory : history ⊆ history')
    (h : Placed order history other call) : Placed order' history' other call := by
  cases call with
  | reserving count reserved =>
    obtain ⟨hcalled, hle, hplace⟩ := h
    refine ⟨hhistory hcalled, hle, ?_⟩
    split at hplace
    · next hopen =>
      rw [if_pos hopen]
      exact hgrown.notMem hne hplace
    rename_i hopen
    rw [if_neg hopen]
    exact hgrown.mem hplace
  | rollingBack left =>
    obtain ⟨op, hplace⟩ := h
    exact ⟨op, hgrown.mem hplace⟩
  | releasing count released =>
    obtain ⟨hcalled, hle, hplace⟩ := h
    refine ⟨hhistory hcalled, hle, ?_⟩
    split at hplace
    · next hopen =>
      rw [if_pos hopen]
      exact hgrown.notMem hne hplace
    rename_i hopen
    rw [if_neg hopen]
    exact hgrown.mem hplace

end

section

variable {s : State} {id : Nat} {call : Call} (h : s.calls.lookup id = some call)
include s id call h

theorem inHand_set (tokens : Nat) (call' : Call) :
    call.inHand + (s.set id tokens call').inHand = call'.inHand + s.inHand :=
  Assoc.sum_set (fun e : Sigma fun _ : Nat => Call => e.2.inHand) h call'

theorem inHand_respond (answer : Answer) :
    s.inHand = call.inHand + (s.respond id answer).inHand :=
  Assoc.sum_erase (fun e : Sigma fun _ : Nat => Call => e.2.inHand) h

theorem inHand_le : call.inHand ≤ s.inHand := by
  rw [inHand_respond h .reserved]
  exact Nat.le_add_right _ _

end

namespace Explains

variable {tokens : Nat} {s : State} {order order' : List (Entry Operation Answer)} {id : Nat} {call : Call}

theorem init (tokens : Nat) : Explains tokens (State.init tokens) [] where
  linear := .nil
  counter := rfl
  fresh _ _ h := absurd h List.not_mem_nil
  known _ _ h := by cases h
  told _ h := absurd h List.not_mem_nil
  answered _ _ h := absurd h List.not_mem_nil

theorem set {held : Nat} {call' : Call} (h : Explains tokens s order) (hcall : s.calls.lookup id = some call)
    (hgrown : Grown order order' id) (hlinear : Linearization serve tokens s.history order')
    (hplaced : Placed order' s.history id call')
    (hcounter : after serve tokens order' + call.inHand = held + call'.inHand + s.inHand) :
    Explains tokens (s.set id held call') order' where
  linear := hlinear
  counter := by
    have hsum := inHand_set hcall held call'
    show _ = held + (s.set id held call').inHand
    omega
  fresh := h.fresh
  known other call'' hother := by
    change (s.calls.insert id call').lookup other = some call'' at hother
    by_cases heq : other = id
    · subst heq
      rw [AList.lookup_insert, Option.some.injEq] at hother
      subst hother
      exact ⟨(h.known other call hcall).1, hplaced⟩
    rw [AList.lookup_insert_ne heq] at hother
    obtain ⟨hlt, hold⟩ := h.known other call'' hother
    exact ⟨hlt, hold.mono hgrown heq (List.Subset.refl _)⟩
  told e he := by
    show ((s.calls.insert id call').lookup e.id).isSome ∨ _
    by_cases heq : e.id = id
    · rw [heq, AList.lookup_insert]
      exact .inl rfl
    · rw [AList.lookup_insert_ne heq]
      exact h.told e (hgrown.old he heq)
  answered other op hinvoked := by
    show ((s.calls.insert id call').lookup other).isSome ∨ _
    by_cases heq : other = id
    · rw [heq, AList.lookup_insert]
      exact .inl rfl
    · rw [AList.lookup_insert_ne heq]
      exact h.answered other op hinvoked

theorem respond (h : Explains tokens s order) (hcall : s.calls.lookup id = some call)
    (hgrown : Grown order order' id) (hlinear : Linearization serve tokens s.history order') (he : e ∈ order')
    (hid : e.id = id) (hcounter : after serve tokens order' + call.inHand = s.tokens + s.inHand) :
    Explains tokens (s.respond id e.result) order' where
  linear := by
    subst hid
    exact hlinear.respond he
  counter := by
    have hsum := inHand_respond hcall e.result
    show _ = s.tokens + (s.respond id e.result).inHand
    omega
  fresh other op hinvoked := by
    rcases List.mem_append.1 hinvoked with hold | hnew
    · exact h.fresh other op hold
    · cases List.mem_singleton.1 hnew
  known other call'' hother := by
    change (s.calls.erase id).lookup other = some call'' at hother
    by_cases heq : other = id
    · grind [AList.lookup_erase]
    rw [AList.lookup_erase_ne heq] at hother
    obtain ⟨hlt, hold⟩ := h.known other call'' hother
    exact ⟨hlt, hold.mono hgrown heq (List.subset_append_left _ _)⟩
  told d hd := by
    show ((s.calls.erase id).lookup d.id).isSome ∨ _
    by_cases heq : d.id = id
    · right
      rw [hlinear.unique hd he (heq.trans hid.symm), hid]
      exact List.mem_append_right _ (List.mem_singleton.2 rfl)
    · rw [AList.lookup_erase_ne heq]
      exact (h.told d (hgrown.old hd heq)).imp_right (List.mem_append_left _)
  answered other op hinvoked := by
    show ((s.calls.erase id).lookup other).isSome ∨ _
    by_cases heq : other = id
    · right
      exact ⟨e.result, List.mem_append_right _ (by rw [heq]; exact List.mem_singleton.2 rfl)⟩
    rw [AList.lookup_erase_ne heq]
    rcases List.mem_append.1 hinvoked with hold | hnew
    · exact (h.answered other op hold).imp_right fun ⟨answer, hmem⟩ => ⟨answer, List.mem_append_left _ hmem⟩
    · cases List.mem_singleton.1 hnew

theorem called (h : Explains tokens s order) (op : Operation) :
    Explains tokens { s with
      calls := s.calls.insert s.next op.start
      next := s.next + 1
      history := s.history ++ [.invoked s.next op] } order := by
  have hnone : s.calls.lookup s.next = none := by
    cases hlookup : s.calls.lookup s.next with
    | none => rfl
    | some call => exact absurd (h.known s.next call hlookup).1 (lt_irrefl _)
  have hnew : s.next ∉ order.map Entry.id := by
    intro hmem
    obtain ⟨e, he, hid⟩ := List.mem_map.1 hmem
    exact absurd (h.fresh e.id e.op (h.linear.called e he)) (by omega)
  have hstart : op.start.inHand = 0 := by
    cases op with
    | reserve count => exact ite_self 0
    | release count => rfl
  refine ⟨h.linear.invoke (fun op' hmem => absurd (h.fresh _ op' hmem) (lt_irrefl _)) op, ?_, ?_, ?_, ?_, ?_⟩
  · rw [h.counter]
    have hsum := Assoc.sum_insert_new (fun e : Sigma fun _ : Nat => Call => e.2.inHand) hnone op.start
    simp_all [State.inHand]
  · intro id op' hinvoked
    show id < s.next + 1
    rcases List.mem_append.1 hinvoked with hold | hlast
    · exact Nat.lt_succ_of_lt (h.fresh id op' hold)
    · simp_all
  · intro id call hcall
    show id < s.next + 1 ∧ _
    change (s.calls.insert s.next op.start).lookup id = some call at hcall
    by_cases heq : id = s.next
    · subst heq
      rw [AList.lookup_insert, Option.some.injEq] at hcall
      subst hcall
      have hmem : Happening.invoked s.next op ∈ s.history ++ [.invoked s.next op] := by simp
      refine ⟨Nat.lt_succ_self _, ?_⟩
      cases op with
      | reserve count =>
        refine ⟨hmem, Nat.zero_le _, ?_⟩
        simp_all
      | release count =>
        refine ⟨hmem, Nat.zero_le _, ?_⟩
        rw [if_pos rfl]
        exact hnew
    · rw [AList.lookup_insert_ne heq] at hcall
      obtain ⟨hlt, hold⟩ := h.known id call hcall
      exact ⟨Nat.lt_succ_of_lt hlt, hold.mono (.inl rfl) heq (List.subset_append_left _ _)⟩
  · intro e he
    have hne : e.id ≠ s.next := fun heq => hnew (List.mem_map.2 ⟨e, he, heq⟩)
    show ((s.calls.insert s.next op.start).lookup e.id).isSome ∨ _
    rw [AList.lookup_insert_ne hne]
    exact (h.told e he).imp_right (List.mem_append_left _)
  · intro id op' hinvoked
    show ((s.calls.insert s.next op.start).lookup id).isSome ∨ _
    by_cases heq : id = s.next
    · rw [heq, AList.lookup_insert]
      exact .inl rfl
    rw [AList.lookup_insert_ne heq]
    rcases List.mem_append.1 hinvoked with hold | hlast
    · exact (h.answered id op' hold).imp_right fun ⟨answer, hmem⟩ => ⟨answer, List.mem_append_left _ hmem⟩
    · exact absurd (Happening.invoked.inj (List.mem_singleton.1 hlast)).1 heq

variable {s' : State}

theorem reserving_turn {count reserved : Nat} (h : Explains tokens s order)
    (hcall : s.calls.lookup id = some (.reserving count reserved))
    (hshort : reserved < count → s.tokens = 0 → s.inHand < count)
    (hturn : s.turn id (.reserving count reserved) = some s') : ∃ order', Explains tokens s' order' := by
  obtain ⟨-, hcalled, hle, hplace⟩ := h.known id _ hcall
  have hcounter := h.counter
  have hhand := inHand_le hcall
  simp only [State.turn] at hturn
  simp only [Call.inHand] at hhand
  split at hturn
  · next hmore =>
    rw [if_pos (.inl hmore)] at hplace
    rw [if_pos hmore] at hhand
    split at hturn
    · next htoken =>
      cases hturn
      by_cases hlast : reserved + 1 < count
      · refine ⟨order, h.set hcall (.inl rfl) h.linear ⟨hcalled, by omega, ?_⟩ ?_⟩
        · simp_all
        · grind [Call.inHand]
      · -- the last token: all of them leave the counter at once
        have hserve : serve (after serve tokens order) (.reserve count) =
            (after serve tokens order - count, .reserved) := if_pos (by omega)
        refine ⟨order ++ [⟨id, .reserve count, .reserved⟩], h.set hcall (.inr ⟨_, rfl, rfl⟩)
          (h.linear.commit hcalled hplace (by rw [hserve])) ⟨hcalled, by omega, ?_⟩ ?_⟩
        · grind
        · rw [after_snoc, hserve]
          grind [Call.inHand]
    · next hempty =>
      cases hturn
      have hfew := hshort hmore (by omega)
      have hserve : serve (after serve tokens order) (.reserve count) =
          (after serve tokens order, .refused) := if_neg (by omega)
      refine ⟨order ++ [⟨id, .reserve count, .refused⟩], h.set hcall (.inr ⟨_, rfl, rfl⟩)
        (h.linear.commit hcalled hplace (by rw [hserve])) ⟨.reserve count, ?_⟩ ?_⟩
      · exact List.mem_append_right _ (List.mem_singleton.2 rfl)
      · rw [after_snoc, hserve]
        grind [Call.inHand]
  · next hdone =>
    cases hturn
    by_cases hzero : count = 0
    · rw [if_pos (.inr hzero)] at hplace
      have hserve : serve (after serve tokens order) (.reserve count) =
          (after serve tokens order - count, .reserved) := if_pos (by omega)
      refine ⟨_, h.respond (e := ⟨id, .reserve count, .reserved⟩) hcall (.inr ⟨_, rfl, rfl⟩)
        (h.linear.commit hcalled hplace (by rw [hserve])) (List.mem_append_right _ (List.mem_singleton.2 rfl)) rfl ?_⟩
      rw [after_snoc, hserve]
      simp only [Call.inHand, if_neg hdone]
      omega
    · rw [if_neg (by omega)] at hplace
      refine ⟨order, h.respond hcall (.inl rfl) h.linear hplace rfl ?_⟩
      simp only [Call.inHand, if_neg hdone]
      omega

theorem put_some {call' : Call} (h : s.put id call' = some s') : s' = s.set id (s.tokens + 1) call' := by
  simp_all [State.put]

theorem rollingBack_turn {left : Nat} (h : Explains tokens s order)
    (hcall : s.calls.lookup id = some (.rollingBack left)) (hturn : s.turn id (.rollingBack left) = some s') :
    ∃ order', Explains tokens s' order' := by
  obtain ⟨-, op, hplace⟩ := h.known id _ hcall
  have hcounter := h.counter
  simp only [State.turn] at hturn
  split at hturn
  · rw [put_some hturn]
    refine ⟨order, h.set hcall (.inl rfl) h.linear ⟨op, hplace⟩ ?_⟩
    simp only [Call.inHand]
    omega
  cases hturn
  refine ⟨order, h.respond hcall (.inl rfl) h.linear hplace rfl ?_⟩
  simp only [Call.inHand]
  omega

theorem releasing_turn {count released : Nat} (h : Explains tokens s order)
    (hcall : s.calls.lookup id = some (.releasing count released))
    (hturn : s.turn id (.releasing count released) = some s') : ∃ order', Explains tokens s' order' := by
  obtain ⟨-, hcalled, hle, hplace⟩ := h.known id _ hcall
  have hcounter := h.counter
  have hserve : serve (after serve tokens order) (.release count) =
      (after serve tokens order + count, .released) := rfl
  simp only [State.turn] at hturn
  split at hturn
  · next hmore =>
    rw [put_some hturn]
    by_cases hfirst : released = 0
    · -- the first token: all of them come to the counter at once
      rw [if_pos hfirst] at hplace
      refine ⟨order ++ [⟨id, .release count, .released⟩], h.set hcall (.inr ⟨_, rfl, rfl⟩)
        (h.linear.commit hcalled hplace rfl) ⟨hcalled, by omega, ?_⟩ ?_⟩
      · simp
      · rw [after_snoc, hserve]
        grind [Call.inHand]
    · rw [if_neg hfirst] at hplace
      refine ⟨order, h.set hcall (.inl rfl) h.linear ⟨hcalled, by omega, ?_⟩ ?_⟩
      · simp_all
      · grind [Call.inHand]
  · next hdone =>
    cases hturn
    by_cases hfirst : released = 0
    · rw [if_pos hfirst] at hplace
      refine ⟨_, h.respond (e := ⟨id, .release count, .released⟩) hcall (.inr ⟨_, rfl, rfl⟩)
        (h.linear.commit hcalled hplace rfl) (List.mem_append_right _ (List.mem_singleton.2 rfl)) rfl ?_⟩
      rw [after_snoc, hserve]
      grind [Call.inHand]
    · rw [if_neg hfirst] at hplace
      refine ⟨order, h.respond hcall (.inl rfl) h.linear hplace rfl ?_⟩
      grind [Call.inHand]

theorem step {e : Event} (h : ∃ order, Explains tokens s order) (hshort : TrulyShort s e)
    (hstep : FrameTokens.step s e = some s') : ∃ order', Explains tokens s' order' := by
  obtain ⟨order, h⟩ := h
  cases e with
  | call op =>
    cases hstep
    exact ⟨order, h.called op⟩
  | turn id =>
    obtain ⟨call, hcall, hturn⟩ := Option.bind_eq_some_iff.1 hstep
    cases call with
    | reserving count reserved =>
      simp only [TrulyShort, hcall] at hshort
      exact h.reserving_turn hcall hshort hturn
    | rollingBack left => exact h.rollingBack_turn hcall hturn
    | releasing count released => exact h.releasing_turn hcall hturn

theorem one_reserved {n : Nat} (h : Explains tokens s order) (hfree : n ≤ tokens)
    (hall : ∀ id op, .invoked id op ∈ s.history → op = .reserve n) (hidle : s.calls = ∅) (hsome : s.history ≠ []) :
    ∃ id, .responded id .reserved ∈ s.history := by
  have hempty : ∀ id, s.calls.lookup id = none := fun id => by
    rw [hidle]
    rfl
  have hresponded : ∃ id answer, Happening.responded id answer ∈ s.history := by
    obtain ⟨x, hx⟩ := List.exists_mem_of_ne_nil _ hsome
    cases x with
    | invoked id op =>
      rcases h.answered id op hx with hopen | ⟨answer, hmem⟩
      · simp_all
      · exact ⟨id, answer, hmem⟩
    | responded id answer => exact ⟨id, answer, hx⟩
  obtain ⟨id, answer, hmem⟩ := hresponded
  obtain ⟨e, he, -⟩ := h.linear.complete id answer hmem
  cases order with
  | nil => cases he
  | cons first order =>
    have hop := hall first.id first.op (h.linear.called first List.mem_cons_self)
    have hresult : Answer.reserved = first.result := by
      have hlegal := h.linear.legal.1
      rwa [hop, serve, if_pos hfree] at hlegal
    rcases h.told first List.mem_cons_self with hopen | hmem
    · simp_all
    · exact ⟨first.id, by rw [hresult]; exact hmem⟩

end Explains

/-- **Reservations and releases could have happened one at a time, where no reservation fails for want of tokens that
unfinished calls have in hand.**  Where all of them are reservations of the same number, that many tokens were free at the
start and all have returned, one has succeeded. -/
theorem reservations_linearizable (tokens : Nat) (events : List Event) (s : State)
    (hrun : Steps.run step (State.init tokens) events = some s)
    (hmeets : Steps.Meets step TrulyShort (State.init tokens) events) :
    (∃ order, Linearization serve tokens s.history order) ∧
      ∀ n, n ≤ tokens → (∀ id op, .invoked id op ∈ s.history → op = .reserve n) → s.calls = ∅ → s.history ≠ [] →
        ∃ id, .responded id .reserved ∈ s.history := by
  obtain ⟨order, h⟩ := Steps.run_inv_when step TrulyShort (fun s => ∃ order, Explains tokens s order)
    (fun s e s' hinv hshort hstep => Explains.step hinv hshort hstep) events (State.init tokens) s
    ⟨[], .init tokens⟩ hmeets hrun
  exact ⟨⟨order, h.linear⟩, fun n => h.one_reserved⟩

/-- Three free tokens; a reservation of two and one of three overlap, and the second finds the channel empty behind the
first. -/
def overlapInTurn : List Event :=
  [.call (.reserve 2), .call (.reserve 3), .turn 0, .turn 0, .turn 1, .turn 1, .turn 0, .turn 1, .turn 1]

theorem reservations_linearizable_in_turn :
    ∃ s, Steps.run step (State.init 3) overlapInTurn = some s ∧
      s.history = [.invoked 0 (.reserve 2), .invoked 1 (.reserve 3), .responded 0 .reserved, .responded 1 .refused] ∧
      ∃ order, Linearization serve 3 s.history order := by
  have hall : (Steps.run step (State.init 3) overlapInTurn).map State.history =
      some [.invoked 0 (.reserve 2), .invoked 1 (.reserve 3), .responded 0 .reserved, .responded 1 .refused] := by
    decide +kernel
  obtain ⟨s, hrun, hhistory⟩ := Option.map_eq_some_iff.1 hall
  exact ⟨s, hrun, hhistory, (reservations_linearizable 3 overlapInTurn s hrun (by decide +kernel)).1⟩

def halfEach : List Event :=
  [.call (.reserve 16), .call (.reserve 16)] ++ List.replicate 8 (.turn 0) ++ List.replicate 8 (.turn 1) ++
    [.turn 0, .turn 1] ++ List.replicate 9 (.turn 0) ++ List.replicate 9 (.turn 1)

def bothRefused : List (Happening Operation Answer) :=
  [.invoked 0 (.reserve 16), .invoked 1 (.reserve 16), .responded 0 .refused, .responded 1 .refused]

theorem not_linearization_bothRefused (order : List (Entry Operation Answer)) :
    ¬ Linearization serve 16 bothRefused order := by
  intro h
  obtain ⟨e, he, -⟩ := h.complete 0 .refused (by decide)
  cases order with
  | nil => cases he
  | cons first order =>
    have hcalled := h.called first List.mem_cons_self
    simp only [bothRefused, List.mem_cons, Happening.invoked.injEq, reduceCtorEq, List.not_mem_nil, or_false] at hcalled
    have hop : first.op = .reserve 16 := by grind
    have hresponded : Happening.responded first.id Answer.refused ∈ bothRefused := by
      rcases hcalled with ⟨hid, -⟩ | ⟨hid, -⟩
      · rw [hid]
        decide
      · rw [hid]
        decide
    obtain ⟨d, hd, hid, hresult⟩ := h.complete first.id .refused hresponded
    have hlegal := h.legal.1
    rw [hop, ← h.unique hd List.mem_cons_self hid, hresult] at hlegal
    exact absurd hlegal (by decide)

theorem half_each_both_refused :
    ∃ s, Steps.run step (State.init 16) halfEach = some s ∧ s.tokens = 16 ∧ s.calls.entries = [] ∧
      s.history = bothRefused ∧ ¬ ∃ order, Linearization serve 16 s.history order := by
  obtain ⟨s, hrun, htokens, hcalls, hhistory⟩ : ∃ s, Steps.run step (State.init 16) halfEach = some s ∧ s.tokens = 16 ∧
      s.calls.entries = [] ∧ s.history = bothRefused :=
    Steps.exists_run (by decide +kernel)
  refine ⟨s, hrun, htokens, hcalls, hhistory, ?_⟩
  rintro ⟨order, horder⟩
  rw [hhistory] at horder
  exact not_linearization_bothRefused order horder

end FrameTokens
end YuriRtc
