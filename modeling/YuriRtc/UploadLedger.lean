import YuriRtc.SessionSteps
/-!
# UploadLedger — where the sixteen credits of an upload are

Each of the sixteen frames a request body may have in the node is either still granted to the page
(`requestCreditsAvailable`), consumed and not granted again yet (`requestCreditsPending`), or in the body: queued, current,
or inside the callback for a consumed chunk (`heldChunks`).  A cancelled, ended or closed body drops chunks without
granting them again, so `Ledger` has an equation only up to then.  Every move of a request's state keeps it
(`Ledger.move`).
-/
namespace YuriRtc

namespace AsyncRequestBody

variable {b : AsyncRequestBody} {c next : Consumer}

/-- Inside `onChunkConsumed`. -/
def inCallback : Consumer → Bool
  | .consumed _ => true
  | _ => false

@[simp] theorem inCallback_idle : inCallback .idle = false := rfl

@[simp] theorem inCallback_consumed (next : Consumer) : inCallback (.consumed next) = true := rfl

def heldChunks (b : AsyncRequestBody) : Nat :=
  b.chunks.toList.length + b.hasCurrent.toNat + (inCallback b.consumer).toNat

def resumes : Consumer → Bool
  | .read _ | .writeTo _ | .returning _ => true
  | _ => false

def Placed (b : AsyncRequestBody) : Prop :=
  match b.consumer with
  | .readCurrent _ | .writeCurrent _ | .writing _ => b.hasCurrent = true
  | .consumed next => resumes next = true
  | _ => True

structure Consumes (b b' : AsyncRequestBody) : Prop where
  placed : Placed b'
  held_le : heldChunks b' ≤ heldChunks b
  held_eq : b.closed = false → heldChunks b' = heldChunks b
  closed : b'.closed = b.closed
  ended : b'.ended = b.ended
  closers : b'.closers = b.closers

theorem placed_of_resumes (h : resumes b.consumer = true) : Placed b := by
  unfold Placed
  cases hc : b.consumer <;> simp_all [resumes]

theorem inCallback_of_resumes (h : resumes c = true) : inCallback c = false := by
  cases c <;> simp_all [resumes, inCallback]

theorem consumes_goto (hcallback : inCallback b.consumer = false)
    (hc : inCallback c = false) (hplaced : Placed { b with consumer := c }) : Consumes b { b with consumer := c } where
  placed := hplaced
  held_le := by simp [heldChunks, hcallback, hc]
  held_eq _ := by simp [heldChunks, hcallback, hc]
  closed := rfl
  ended := rfl
  closers := rfl

theorem consumes_finish (hcurrent : b.hasCurrent = true)
    (hcallback : inCallback b.consumer = false) (hnext : resumes next = true) :
    Consumes b { b.clearCurrent with consumer := .consumed next } where
  placed := hnext
  held_le := by simp [heldChunks, clearCurrent, hcurrent, hcallback]
  held_eq _ := by simp [heldChunks, clearCurrent, hcurrent, hcallback]
  closed := rfl
  ended := rfl
  closers := rfl

theorem consumes_took (n : Nat) (hcurrent : b.hasCurrent = true)
    (hcallback : inCallback b.consumer = false) (hnext : resumes next = true) : Consumes b (b.took n next) := by
  unfold took
  split
  · exact consumes_finish hcurrent hcallback hnext
  have hplain := inCallback_of_resumes hnext
  exact ⟨placed_of_resumes hnext, by simp [heldChunks, hcallback, hplain], fun _ => by simp [heldChunks, hcallback, hplain],
    rfl, rfl, rfl⟩

theorem awaitCurrent_held (b : AsyncRequestBody) (c : Consumer) (hcallback : inCallback b.consumer = false)
    (hc : inCallback c = false) :
    heldChunks { b.awaitCurrent.1 with consumer := c } = heldChunks b ∧
      b.awaitCurrent.1.closed = b.closed ∧ b.awaitCurrent.1.ended = b.ended ∧
      b.awaitCurrent.1.closers = b.closers ∧ (b.awaitCurrent.2 = .current → b.awaitCurrent.1.hasCurrent = true) := by
  unfold awaitCurrent
  split
  · simp_all [heldChunks]
  rename_i h
  split
  · rename_i chunk hfront
    rw [Rings.Ring.front?_eq_head?] at hfront
    obtain ⟨rest, hlist⟩ := List.head?_eq_some_iff.1 hfront
    simp [heldChunks, hcallback, hc, h, Rings.Ring.toList_popFront, hlist]
  split
  · exact ⟨by simp [heldChunks, releaseDrained, hcallback, hc], rfl, rfl, rfl, nofun⟩
  split <;> simp [heldChunks, hcallback, hc]

theorem consumes_await {b₁ : AsyncRequestBody} {a : Await} (h : b.awaitCurrent = (b₁, a))
    (hcallback : inCallback b.consumer = false) (hc : inCallback c = false)
    (hplaced : (a = .current → b₁.hasCurrent = true) → Placed { b₁ with consumer := c }) :
    Consumes b { b₁ with consumer := c } := by
  obtain ⟨hheld, hclosed, hended, hclosers, hcurrent⟩ := awaitCurrent_held b c hcallback hc
  rw [h] at hheld hclosed hended hclosers hcurrent
  exact ⟨hplaced hcurrent, le_of_eq hheld, fun _ => hheld, hclosed, hended, hclosers⟩

theorem consumes_advance {b' : AsyncRequestBody} (hplaced : Placed b) (h : b.advance = some b') : Consumes b b' := by
  unfold advance at h
  split at h
  · rename_i room hc
    have hcallback : inCallback b.consumer = false := by rw [hc]; rfl
    split at h
    · rename_i heq
      cases h
      exact consumes_await heq hcallback rfl fun hcurrent => hcurrent rfl
    all_goals
      rename_i heq
      cases h
      exact consumes_await heq hcallback rfl fun _ => trivial
  · rename_i room hc
    have hcallback : inCallback b.consumer = false := by rw [hc]; rfl
    cases h
    have hcurrent : b.hasCurrent = true := by grind [Placed]
    refine consumes_took _ hcurrent hcallback ?_
    split <;> rfl
  · rename_i total hc
    have hcallback : inCallback b.consumer = false := by rw [hc]; rfl
    split at h
    · cases h
      exact consumes_goto hcallback rfl trivial
    · cases h
      exact consumes_goto hcallback rfl trivial
  · rename_i total hc
    have hcallback : inCallback b.consumer = false := by rw [hc]; rfl
    split at h
    · rename_i heq
      cases h
      exact consumes_await heq hcallback rfl fun hcurrent => hcurrent rfl
    all_goals
      rename_i heq
      cases h
      exact consumes_await heq hcallback rfl fun _ => trivial
  · rename_i total hc
    have hcallback : inCallback b.consumer = false := by rw [hc]; rfl
    have hcurrent : b.hasCurrent = true := by grind [Placed]
    split at h
    · cases h
      exact consumes_finish hcurrent hcallback rfl
    · cases h
      exact consumes_goto hcallback rfl hcurrent
  · cases h

theorem afterWake_some {c' : Consumer} (h : afterWake c = some c') :
    inCallback c = false ∧ inCallback c' = false ∧ ∀ b : AsyncRequestBody, Placed { b with consumer := c' } := by
  cases c with
  | readBlocked room =>
    cases h
    exact ⟨rfl, rfl, fun _ => trivial⟩
  | writeBlocked total =>
    cases h
    exact ⟨rfl, rfl, fun _ => trivial⟩
  | _ => cases h

theorem consumes_step {b' : AsyncRequestBody} {e : BodyEvent} (he : PeerSession.isConsumerEvent e = true)
    (hplaced : Placed b) (h : b.step e = some b') : Consumes b b' := by
  cases e <;> simp only [step] at h
  case readCall room =>
    obtain ⟨hidle, rfl⟩ := Steps.of_guard h
    exact consumes_goto (by rw [hidle.1]; rfl) rfl trivial
  case writeToCall =>
    obtain ⟨hidle, rfl⟩ := Steps.of_guard h
    exact consumes_goto (by rw [hidle]; rfl) rfl trivial
  case advance => exact consumes_advance hplaced h
  case woken =>
    split at h
    · obtain ⟨c, hwake, rfl⟩ := Option.map_eq_some_iff.1 h
      obtain ⟨hcallback, hc, hp⟩ := afterWake_some hwake
      exact ⟨hp { b with wake := false }, by simp [heldChunks, hcallback, hc], fun _ => by simp [heldChunks, hcallback, hc],
        rfl, rfl, rfl⟩
    · cases h
  case ctxDone =>
    split at h
    · obtain ⟨c, hwake, rfl⟩ := Option.map_eq_some_iff.1 h
      exact consumes_goto (afterWake_some hwake).1 rfl trivial
    · cases h
  case wrote n failed =>
    split at h
    · rename_i total hc
      cases h
      have hcallback : inCallback b.consumer = false := by rw [hc]; rfl
      have hcurrent : b.hasCurrent = true := by simp_all [Placed]
      unfold wrote
      split
      · exact consumes_goto hcallback rfl trivial
      refine consumes_took _ hcurrent hcallback ?_
      split
      · rfl
      · split <;> rfl
    · cases h
  case unlock =>
    split at h
    · rename_i r hc
      cases h
      have hcallback : inCallback b.consumer = false := by rw [hc]; rfl
      unfold unlockConsumer
      split
      · rename_i hclosed
        refine ⟨trivial, ?_, fun hopen => ?_, rfl, rfl, rfl⟩
        · simp [heldChunks, releaseDrained, clearCurrent, hcallback]
        · simp_all
      · exact consumes_goto hcallback rfl trivial
    · cases h
  all_goals cases he

variable (b)

theorem heldChunks_push {payload : Bytes} {chunks : Rings.Ring Bytes requestBodyQueueFrames}
    (h : b.chunks.push payload = some chunks) : heldChunks { b with chunks := chunks, wake := true } = heldChunks b + 1 := by
  simp only [heldChunks, Rings.Ring.toList_push h, List.length_append, List.length_singleton]
  omega

theorem heldChunks_resume (h : b.consumer = .consumed next)
    (hnext : resumes next = true) : heldChunks { b with consumer := next } + 1 = heldChunks b := by
  simp [heldChunks, h, inCallback_of_resumes hnext]

theorem heldChunks_close : heldChunks b.close ≤ heldChunks b := by
  unfold close
  split
  · exact le_rfl
  · simp [heldChunks, signal]

theorem close_closed : b.close.closed = true := by
  unfold close
  split
  · rename_i h
    exact h
  · rfl

variable {b}

theorem placed_close (h : Placed b) : Placed b.close := by
  unfold close
  split <;> exact h

theorem closeCurrent_spec (b : AsyncRequestBody) (h : Placed b) :
    Placed b.closeCurrent ∧ heldChunks b.closeCurrent ≤ heldChunks b ∧ b.closeCurrent.closed = b.closed ∧
      b.closeCurrent.ended = b.ended := by grind [clearCurrent, releaseDrained, heldChunks, closeCurrent, Placed]

theorem close_ended (b : AsyncRequestBody) : b.close.ended = b.ended := by
  unfold close
  split <;> rfl

end AsyncRequestBody

open AsyncRequestBody (heldChunks Placed)

namespace RequestState

/-- **The credits of an upload**: none is ever doubled, and none is lost before the upload is over. -/
structure Ledger (st : RequestState) : Prop where
  placed : Placed st.body
  window : st.requestCreditsAvailable + st.requestCreditsPending + heldChunks st.body ≤ maxRequestCredits
  conserved : st.cancelled = false → st.bodyEnded = false → st.body.closed = false →
    st.requestCreditsAvailable + st.requestCreditsPending + heldChunks st.body = maxRequestCredits
  batched : st.requestCreditsPending < requestCreditBatchSize
  ended : st.body.ended = true → st.bodyEnded = true
  closers : st.body.closers ≠ 0 → st.body.closed = true

theorem ledger_newRequestState (id lane : Nat) (head : RequestHead) (h : head.hasBody = true) :
    Ledger (newRequestState id lane head) := by
  have hheld : heldChunks .newAsyncRequestBody = 0 := rfl
  simp only [newRequestState, h, if_true]
  refine ⟨trivial, ?_, fun _ _ _ => ?_, ?_, nofun, fun h => absurd rfl h⟩
  · dsimp only
    omega
  · dsimp only
    omega
  · dsimp only
    decide

namespace Ledger

variable {st' : RequestState}

variable {st : RequestState}

section

variable (h : Ledger st)
include h

theorem enqueues {payload : Bytes} {now : Nat}
    (hst : st.enqueueRequestBody payload now = .ok st') : Ledger st' := by
  obtain ⟨-, havailable, -, body, hbody, rfl⟩ := enqueueRequestBody_ok hst
  obtain ⟨-, -, chunks, hpush, rfl⟩ := AsyncRequestBody.enqueue_ok hbody
  have hheld := AsyncRequestBody.heldChunks_push st.body hpush
  obtain ⟨hplaced, hwindow, hconserved, hbatched, hended, hclosers⟩ := h
  refine ⟨hplaced, ?_, fun hc he ho => ?_, hbatched, hended, hclosers⟩
  · dsimp only
    omega
  · grind

theorem settled (st' : RequestState) (hplaced : Placed st'.body)
    (havailable : st'.requestCreditsAvailable = st.requestCreditsAvailable)
    (hpending : st'.requestCreditsPending = st.requestCreditsPending) (hheld : heldChunks st'.body ≤ heldChunks st.body)
    (hover : st'.cancelled = true ∨ st'.bodyEnded = true ∨ st'.body.closed = true)
    (hended : st'.body.ended = true → st'.bodyEnded = true)
    (hclosers : st'.body.closers ≠ 0 → st'.body.closed = true) : Ledger st' where
  placed := hplaced
  window := by
    have := h.window
    omega
  conserved hc he ho := by simp_all
  batched := hpending ▸ h.batched
  ended := hended
  closers := hclosers

theorem chunkConsumed {next : Consumer} (hnext : st.body.consumer = .consumed next) :
    Ledger { st.requestBodyChunkConsumed.1 with
      body := { st.requestBodyChunkConsumed.1.body with consumer := next } } := by
  have hresumes : AsyncRequestBody.resumes next = true := by
    have := h.placed
    grind [Placed]
  have hheld := AsyncRequestBody.heldChunks_resume st.body hnext hresumes
  have hplaced : Placed { st.body with consumer := next } := AsyncRequestBody.placed_of_resumes hresumes
  have hwindow := h.window
  have hbatched := h.batched
  unfold requestBodyChunkConsumed
  split
  · rename_i hover
    refine h.settled _ hplaced rfl rfl (by dsimp only; omega) ?_ h.ended h.closers
    grind
  split
  · rename_i hbatch
    refine ⟨hplaced, ?_, fun hc he ho => ?_, hbatch.1, h.ended, h.closers⟩
    · dsimp only
      omega
    have := h.conserved hc he ho
    dsimp only
    omega
  · -- the window leaves room for the whole grant
    have hgrant : st.creditGrant = st.requestCreditsPending + 1 := by
      unfold creditGrant
      omega
    refine ⟨hplaced, ?_, fun hc he ho => ?_, ?_, h.ended, h.closers⟩
    · dsimp only
      omega
    · have := h.conserved hc he ho
      dsimp only
      omega
    · dsimp only
      omega

theorem move (hm : Move st st') : Ledger st' := by
  cases hm with
  | starts => exact { h with }
  | enqueues payload now _ hst => exact h.enqueues hst
  | ends =>
    unfold endRequestBody
    split
    · exact h
    unfold AsyncRequestBody.endBody
    split
    · exact h.settled _ h.placed rfl rfl le_rfl (.inr (.inl rfl)) (fun _ => rfl) h.closers
    · exact h.settled _ h.placed rfl rfl le_rfl (.inr (.inl rfl)) (fun _ => rfl) h.closers
  | stops => exact h.settled _ h.placed rfl rfl le_rfl (.inr (.inl rfl)) (fun _ => rfl) h.closers
  | cancels => exact h.settled _ h.placed rfl rfl le_rfl (.inl rfl) h.ended h.closers
  | closes =>
    have hclosed := AsyncRequestBody.close_closed st.body
    exact h.settled _ (AsyncRequestBody.placed_close h.placed) rfl rfl (AsyncRequestBody.heldChunks_close _)
      (.inr (.inr hclosed)) (fun he => h.ended (AsyncRequestBody.close_ended st.body ▸ he)) (fun _ => hclosed)
  | closesCurrent =>
    simp only [AsyncRequestBody.step]
    split
    · exact { h with }
    rename_i hclosers
    have hclosed := h.closers hclosers
    obtain ⟨hplaced, hheld, hsame, hended⟩ := AsyncRequestBody.closeCurrent_spec st.body h.placed
    exact h.settled _ hplaced rfl rfl hheld (.inr (.inr (hsame.trans hclosed))) (fun he => h.ended (hended ▸ he))
      (fun _ => hsame.trans hclosed)
  | arms deadline => exact { h with }
  | timesOut => exact h.settled _ h.placed rfl rfl le_rfl (.inr (.inl rfl)) (fun _ => rfl) h.closers
  | consumes e he body hbody =>
    obtain ⟨hplaced, hle, heq, hclosed, hended, hclosers⟩ := AsyncRequestBody.consumes_step he h.placed hbody
    have hwindow := h.window
    refine ⟨hplaced, ?_, fun hc hn ho => ?_, h.batched, fun hb => h.ended (hended ▸ hb),
      fun hn => hclosed.trans (h.closers (hclosers ▸ hn))⟩
    · dsimp only
      omega
    have hopen : st.body.closed = false := hclosed ▸ ho
    have := h.conserved hc hn hopen
    simp_all
  | chunkConsumed next hnext => exact h.chunkConsumed hnext

theorem moves (hm : Moves st st') : Ledger st' := by
  induction hm with
  | refl => exact h
  | tail _ hmove ih => exact ih.move hmove

theorem creditGrant_pos (hcallback : AsyncRequestBody.inCallback st.body.consumer = true) :
    st.creditGrant ≠ 0 := by
  have hwindow := h.window
  have hheld : 1 ≤ heldChunks st.body := by grind [heldChunks]
  unfold creditGrant
  omega

theorem available_pos (hcancelled : st.cancelled = false) (hended : st.bodyEnded = false)
    (hclosed : st.body.closed = false) (hheld : heldChunks st.body = 0) : st.requestCreditsAvailable ≠ 0 := by
  have hconserved := h.conserved hcancelled hended hclosed
  have hbatched := h.batched
  have : requestCreditBatchSize < maxRequestCredits := by decide
  omega

theorem enqueue_paid (hpaid : st.requestCreditsAvailable ≠ 0) (payload : Bytes) (now : Nat) :
    st.enqueueRequestBody payload now ≠ .error .creditExhausted ∧
      st.enqueueRequestBody payload now ≠ .error (.body .queueFull) := by
  have hroom : st.body.chunks.push payload ≠ none := fun hpush => by
    have hfull := (Rings.Ring.push_eq_none_iff _ _).1 hpush
    have hwindow := h.window
    have hsize : maxRequestCredits = requestBodyQueueFrames := rfl
    unfold heldChunks at hwindow
    omega
  refine ⟨fun he => ?_, fun he => ?_⟩
  · rcases enqueueRequestBody_error he with ⟨he, -⟩ | ⟨-, hzero⟩ | ⟨he, -⟩ | ⟨e, he, -⟩
    · cases he
    · exact hpaid hzero
    · cases he
    · cases he
  · rcases enqueueRequestBody_error he with ⟨he, -⟩ | ⟨-, hzero⟩ | ⟨he, -⟩ | ⟨e, he, henqueue⟩
    · cases he
    · exact hpaid hzero
    · cases he
    cases he
    rcases enqueue_error henqueue with ⟨he, -⟩ | ⟨he, -⟩ | ⟨-, hfull⟩
    · cases he
    · cases he
    · exact hroom hfull

end

end Ledger
end RequestState

namespace PeerSession

def Booked (s : PeerSession) : Prop := ∀ r, r < s.next → (s.states r).hasBody = true → (s.states r).Ledger

theorem booked_newPeerSession : Booked newPeerSession := fun _ h => absurd h (Nat.not_lt_zero _)

theorem Booked.step {s t : PeerSession} {e : SessionEvent} (h : Booked s) (hs : s.step e = some t) : Booked t := by
  rcases step_carries_or_admits hs with hc | ⟨lane, id, size, head, env, -, -, -, -, rx, rfl⟩
  · intro r hr hbody
    exact (h r (hc.next ▸ hr) ((hc.moves r).same.hasBody ▸ hbody)).moves (hc.moves r)
  intro r hr hbody
  rcases Nat.lt_succ_iff_lt_or_eq.1 hr with hold | rfl
  · change ((s.admitted env lane id head).states r).hasBody = true at hbody
    show ((s.admitted env lane id head).states r).Ledger
    rw [admitted_states_of_lt s env lane id head hold] at hbody ⊢
    exact h r hold hbody
  change ((s.admitted env lane id head).states s.next).hasBody = true at hbody
  show ((s.admitted env lane id head).states s.next).Ledger
  rw [admitted_state] at hbody ⊢
  exact RequestState.ledger_newRequestState id lane head hbody

end PeerSession
end YuriRtc
