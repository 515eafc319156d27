import YuriRtc.SentFrames
/-!
# TerminalFrames — nothing after a terminal frame

The node does not keep its terminal frames last.  A handler may answer before the upload is over, and the reader of the body
then sends a refill behind `ResEnd` (`earlyAnswer`); a socket may be closed while its pump holds a message
(`closedWhilePumping`).  Where one is only sent when nobody else is about to send (`Orderly`) it is the last
(`terminal_frames_final`).
-/
namespace YuriRtc

open Function (update update_of_ne update_self)
open Steps (of_guard run)

/-- **A terminal frame is the last one.** -/
def Final (frames : List SentFrame) : Prop := ∀ frame ∈ frames.dropLast, frame.isTerminal = false

instance (frames : List SentFrame) : Decidable (Final frames) :=
  inferInstanceAs (Decidable (∀ frame ∈ frames.dropLast, frame.isTerminal = false))

def Ended (frames : List SentFrame) : Prop := ∃ frame ∈ frames, frame.isTerminal = true

theorem final_append {frames : List SentFrame} (h : ¬ Ended frames) (frame : SentFrame) : Final (frames ++ [frame]) := by
  intro f hf
  rw [List.dropLast_concat] at hf
  exact Bool.eq_false_iff.2 fun hterminal => h ⟨f, hf, hterminal⟩

theorem ended_append {frames : List SentFrame} {frame : SentFrame} (h : Ended (frames ++ [frame])) :
    Ended frames ∨ frame.isTerminal = true := by
  obtain ⟨f, hf, hterminal⟩ := h
  rcases List.mem_append.1 hf with hold | hnew
  · exact .inl ⟨f, hold, hterminal⟩
  · exact .inr (List.mem_singleton.1 hnew ▸ hterminal)

/-! ### The condition -/

namespace SentRequest

def Settled (st : SentRequest) : Prop :=
  (st.hasBody = true → st.bodyEnded = true) ∧ st.greeting = false ∧ (st.expiry = .idle ∨ st.expiry = .over)

instance (st : SentRequest) : Decidable st.Settled := inferInstanceAs (Decidable (_ ∧ _ ∧ _))

def occupied (st : SentRequest) : Bool :=
  match st.serve with
  | .sending _ _ | .failing => true
  | .waiting | .running | .returning | .done => false

/-- The handler is about to send `ResEnd`. -/
def ending (st : SentRequest) : Bool :=
  match st.serve with
  | .sending _ frame => frame.isTerminal
  | .waiting | .running | .returning | .failing | .done => false

end SentRequest

def SentStream.occupied (stream : SentStream) : Bool :=
  match stream.dial, stream.pump with
  | .connected _, _ | _, .sending _ => true
  | _, _ => false

namespace FrameSession

/-- **When a terminal frame is sent, nobody else is about to send for the same request or socket**; ids are new, no body
frame is refused, and nothing comes from the upstream of a socket that has been closed. -/
def Orderly (s : FrameSession) : FrameEvent → Prop
  | .admitted id _ | .accept id | .reject id _ => s.owner id = none
  | .refuse _ => False
  | .sends r _ _ => (s.states r).ending = true → (s.states r).Settled
  | .reportFailure r _ => (s.states r).Settled
  | .reportTimeout r _ => (s.states r).occupied = false
  | .dialEnds k (some _) => (s.streams k).closeOnce = .unused
  | .upstreamRead k (.message _) => (s.streams k).closeOnce = .unused
  | .reportClose k _ => (s.streams k).occupied = false
  | _ => True

instance (s : FrameSession) (e : FrameEvent) : Decidable (s.Orderly e) := by
  unfold Orderly
  split <;> infer_instance

end FrameSession

/-! ### Who is silent -/

namespace SentRequest

structure Silent (st : SentRequest) (live : Bool) : Prop where
  greeting : st.greeting = false
  refilling : st.refilling = false
  refusing : st.refusing = false
  body : st.hasBody = true → st.bodyEnded = true
  expiry : st.expiry = .idle ∨ st.expiry = .over
  serve : st.serve = .done ∨ live = false ∧ st.occupied = false

structure Sane (st : SentRequest) (live : Bool) : Prop where
  refilling : st.refilling = true → st.hasBody = true ∧ st.bodyEnded = false
  refusing : st.refusing = false
  expired : st.expiry = .expired ∨ st.expiry = .reporting → st.bodyEnded = true ∧ st.greeting = false
  reporting : st.expiry = .reporting → live = false

theorem Silent.of_and {st : SentRequest} {live : Bool} (h : st.Silent live) (b : Bool) : st.Silent (live && b) :=
  { h with serve := h.serve.imp_right fun ⟨hlive, hidle⟩ => ⟨by rw [hlive, Bool.false_and], hidle⟩ }

theorem Sane.of_and {st : SentRequest} {live : Bool} (h : st.Sane live) (b : Bool) : st.Sane (live && b) :=
  { h with reporting := fun hreporting => by rw [h.reporting hreporting, Bool.false_and] }

end SentRequest

structure SentStream.Silent (stream : SentStream) : Prop where
  closed : stream.closeOnce = .used
  occupied : stream.occupied = false

namespace FrameSession

variable {st : SentRequest} {r : Ref} {id k : Nat} {frame : SentFrame} {sent : Bool} {e : FrameEvent}
   {t : FrameSession} {stream : SentStream}

structure Silenced (s : FrameSession) (id : Nat) : Prop where
  owned : s.owner id ≠ none
  request : ∀ r, s.owner id = some (.request r) → (s.states r).Silent (s.isLive r)
  socket : ∀ k, s.owner id = some (.socket k) → (s.streams k).Silent

structure Sound (s : FrameSession) : Prop where
  live : ∀ id r, s.requests id = some r → r < s.next ∧ (s.states r).id = id
  request : ∀ r < s.next, s.owner (s.states r).id = some (.request r)
  socket : ∀ k < s.nextStream, s.owner (s.streams k).id = some (.socket k)
  owned : ∀ id r, s.owner id = some (.request r) → r < s.next ∧ (s.states r).id = id
  ownedStream : ∀ id k, s.owner id = some (.socket k) → k < s.nextStream ∧ (s.streams k).id = id
  sane : ∀ r < s.next, (s.states r).Sane (s.isLive r)
  final : ∀ id, Final (s.wire id)
  silent : ∀ id, Ended (s.wire id) → s.Silenced id

/-! ### A request takes a step -/

variable {s : FrameSession}

theorem isLive_modify (s : FrameSession) (r q : Ref) (hid : st.id = (s.states r).id) :
    (s.modify r st).isLive q = s.isLive q := by
  unfold isLive modify
  by_cases hq : q = r <;> simp_all

theorem Sound.modify (h : Sound s) (hid : st.id = (s.states r).id)
    (hsane : st.Sane (s.isLive r)) (hsilent : (s.states r).Silent (s.isLive r) → st.Silent (s.isLive r)) :
    Sound (s.modify r st) := by
  have hstates : ∀ q, q ≠ r → (s.modify r st).states q = s.states q := fun q hq => update_of_ne hq _ _
  have hstate : (s.modify r st).states r = st := update_self _ _ _
  have hids : ∀ q, ((s.modify r st).states q).id = (s.states q).id := fun q => by by_cases hq : q = r <;> simp_all
  refine ⟨fun id q hq => ?_, fun q hq => ?_, h.socket, fun id q hq => ?_, h.ownedStream, fun q hq => ?_, h.final,
    fun id hended => ?_⟩
  · rw [hids]
    exact h.live id q hq
  · rw [hids]
    exact h.request q hq
  · rw [hids]
    exact h.owned id q hq
  · rw [isLive_modify s r q hid]
    by_cases hqr : q = r
    · rw [hqr, hstate]
      exact hsane
    · rw [hstates q hqr]
      exact h.sane q hq
  · obtain ⟨howned, hrequest, hsocket⟩ := h.silent id hended
    refine ⟨howned, fun q hq => ?_, hsocket⟩
    rw [isLive_modify s r q hid]
    by_cases hqr : q = r
    · rw [hqr, hstate]
      exact hsilent (hqr ▸ hrequest q hq)
    · rw [hstates q hqr]
      exact hrequest q hq

theorem isLive_unlink (h : Sound s) (r : Ref) {q : Ref} (hq : q < s.next) :
    (s.unlink r).isLive q = (s.isLive q && decide (q ≠ r)) := by
  unfold unlink
  split
  · rename_i hlive
    have hr : s.requests (s.states r).id = some r := by simpa [isLive] using hlive
    simp only [isLive]
    by_cases hqr : q = r
    · simp [hqr]
    have hne : (s.states q).id ≠ (s.states r).id := fun heq => by
      have howner := h.request q hq
      rw [heq, h.request r (h.live _ r hr).1] at howner
      cases howner
      exact hqr rfl
    simp [update_of_ne hne, hqr]
  · grind

theorem Sound.unlink (h : Sound s) (r : Ref) : Sound (s.unlink r) := by
  have hlive := fun {q : Ref} (hq : q < s.next) => isLive_unlink h r hq
  have hrequests : ∀ id q, (s.unlink r).requests id = some q → s.requests id = some q := fun id q hq => by
    unfold FrameSession.unlink at hq
    split at hq
    · grind
    · exact hq
  have hrest : (s.unlink r).states = s.states ∧ (s.unlink r).streams = s.streams ∧ (s.unlink r).next = s.next ∧
      (s.unlink r).nextStream = s.nextStream ∧ (s.unlink r).owner = s.owner ∧ (s.unlink r).wire = s.wire := by
    grind [FrameSession.unlink]
  obtain ⟨hstates, hstreams, hnext, hnextStream, howner, hwire⟩ := hrest
  constructor
  · intro id q hq
    rw [hstates, hnext]
    exact h.live id q (hrequests id q hq)
  · rw [hstates, hnext, howner]
    exact h.request
  · rw [hstreams, hnextStream, howner]
    exact h.socket
  · rw [hstates, hnext, howner]
    exact h.owned
  · rw [hstreams, hnextStream, howner]
    exact h.ownedStream
  · rw [hstates, hnext]
    intro q hq
    rw [hlive hq]
    exact (h.sane q hq).of_and _
  · rw [hwire]
    exact h.final
  rw [hwire]
  intro id hended
  obtain ⟨howned, hrequest, hsocket⟩ := h.silent id hended
  refine ⟨howner ▸ howned, fun q hq => ?_, fun k hk => ?_⟩
  · rw [howner] at hq
    rw [hstates, hlive (h.owned id q hq).1]
    exact (hrequest q hq).of_and _
  · simp_all

theorem Silenced.withWire (h : s.Silenced id) (wire : Nat → List SentFrame) :
    { s with wire := wire }.Silenced id := { h with }

theorem Sound.send (h : Sound s) (hended : ¬ Ended (s.wire id))
    (hsilent : sent = true → frame.isTerminal = true → s.Silenced id) : Sound (s.send id frame sent) := by
  unfold FrameSession.send
  split
  · rename_i hsent
    refine { h with final := fun id' => ?_, silent := fun id' hended' => ?_ }
    · show Final (update s.wire id (s.wire id ++ [frame]) id')
      by_cases hid : id' = id
      · rw [hid, update_self]
        exact final_append hended frame
      · rw [update_of_ne hid]
        exact h.final id'
    · change Ended (update s.wire id (s.wire id ++ [frame]) id') at hended'
      refine Silenced.withWire ?_ _
      by_cases hid : id' = id
      · rw [hid, update_self] at hended'
        exact hid ▸ hsilent hsent ((ended_append hended').resolve_left hended)
      · rw [update_of_ne hid] at hended'
        exact h.silent id' hended'
  · exact h

theorem Sound.respond (h : Sound s) (hr : r < s.next)
    (hid : st.id = (s.states r).id) (hsane : st.Sane (s.isLive r)) (hnot : ¬ (s.states r).Silent (s.isLive r))
    (hsilent : sent = true → frame.isTerminal = true → st.Silent (s.isLive r)) :
    Sound ((s.modify r st).send (s.states r).id frame sent) := by
  have howner := h.request r hr
  refine (h.modify hid hsane fun hold => absurd hold hnot).send (fun hended => ?_) fun hsent hterminal => ?_
  · exact hnot ((h.silent _ hended).request r howner)
  refine ⟨fun hnone => ?_, fun q hq => ?_, fun k hk => ?_⟩
  · exact absurd (howner.symm.trans hnone) (Option.some_ne_none _)
  · cases howner.symm.trans hq
    rw [isLive_modify s r r hid]
    show (update s.states r st r).Silent _
    simp_all
  · cases howner.symm.trans hk

theorem Sound.greet (h : Sound s) (hr : r < s.next) (hgreeting : (s.states r).greeting = true) (sent : Bool) :
    Sound ((s.modify r { s.states r with greeting := false }).send (s.states r).id .reqCredit sent) := by
  have hsane := h.sane r hr
  refine h.respond hr rfl { hsane with expired := fun hexpiry => ⟨(hsane.expired hexpiry).1, rfl⟩ }
    (fun hsilent => ?_) nofun
  cases hsilent.greeting.symm.trans hgreeting

theorem Sound.refilled (h : Sound s) (hr : r < s.next) (hrefilling : (s.states r).refilling = true) (sent : Bool) :
    Sound ((s.modify r { s.states r with refilling := false }).send (s.states r).id .reqCredit sent) := by
  have hsane := h.sane r hr
  refine h.respond hr rfl { hsane with refilling := nofun }
    (fun hsilent => ?_) nofun
  cases hsilent.refilling.symm.trans hrefilling

theorem silent_of_settled {live : Bool} (hsane : st.Sane live) (hsettled : st.Settled)
    (hserve : st.serve = .done ∨ live = false ∧ st.occupied = false) : st.Silent live := by
  obtain ⟨hended, hgreeting, hexpiry⟩ := hsettled
  refine ⟨hgreeting, Bool.eq_false_iff.2 fun hrefilling => ?_, hsane.refusing, hended, hexpiry, hserve⟩
  obtain ⟨hbody, hopen⟩ := hsane.refilling hrefilling
  simp_all

section

variable (h : Sound s) (hr : r < s.next)
include h hr

theorem Sound.serve {next : ServePhase} (hoccupied : (s.states r).occupied = true)
    (hsettled : sent = true → frame.isTerminal = true → (s.states r).Settled ∧ next = .done) :
    Sound ((s.modify r { s.states r with serve := next }).send (s.states r).id frame sent) := by
  have hsane : ({ s.states r with serve := next } : SentRequest).Sane (s.isLive r) :=
    ⟨(h.sane r hr).refilling, (h.sane r hr).refusing, (h.sane r hr).expired, (h.sane r hr).reporting⟩
  refine h.respond hr rfl hsane (fun hsilent => ?_) fun hsent hterminal => ?_
  · rcases hsilent.serve with hdone | ⟨-, hidle⟩
    · rw [SentRequest.occupied, hdone] at hoccupied
      cases hoccupied
    · simp_all
  · obtain ⟨hsettled, hdone⟩ := hsettled hsent hterminal
    exact silent_of_settled hsane hsettled (.inl hdone)

theorem Sound.reportTimeout (hreporting : (s.states r).expiry = .reporting)
    (hidle : (s.states r).occupied = false) (sent : Bool) :
    Sound ((s.modify r { s.states r with expiry := .over }).send (s.states r).id .resErr sent) := by
  have hold := h.sane r hr
  obtain ⟨hended, hgreeting⟩ := hold.expired (.inr hreporting)
  have hsane : ({ s.states r with expiry := .over } : SentRequest).Sane (s.isLive r) :=
    ⟨hold.refilling, hold.refusing, fun hexpiry => (by simp at hexpiry), fun hexpiry => (by simp at hexpiry)⟩
  refine h.respond hr rfl hsane (fun hsilent => ?_) fun _ _ => ?_
  · rcases hsilent.expiry with hexpiry | hexpiry
    all_goals
      cases hreporting.symm.trans hexpiry
  · exact silent_of_settled hsane ⟨fun _ => hended, hgreeting, .inr rfl⟩ (.inr ⟨hold.reporting hreporting, hidle⟩)

theorem Sound.expireCancels (hexpired : (s.states r).expiry = .expired) :
    Sound ((s.modify r { s.states r with expiry := if s.isLive r then .reporting else .over }).unlink r) := by
  have hcommute : ∀ st : SentRequest, st.id = (s.states r).id → (s.modify r st).unlink r = (s.unlink r).modify r st := by
    intro st hid
    unfold FrameSession.unlink
    rw [isLive_modify s r r hid]
    split
    · simp only [FrameSession.modify, update_self, hid]
    · rfl
  have hstates : (s.unlink r).states = s.states := by unfold FrameSession.unlink; split <;> rfl
  have hdead : (s.unlink r).isLive r = false := by rw [isLive_unlink h r hr]; simp
  have hold := h.sane r hr
  obtain ⟨hended, hgreeting⟩ := hold.expired (.inl hexpired)
  rw [hcommute { s.states r with expiry := if s.isLive r then .reporting else .over } rfl]
  refine (h.unlink r).modify (by rw [hstates]) ⟨hold.refilling, hold.refusing, fun _ => ⟨hended, hgreeting⟩, fun _ => hdead⟩
    fun hsilent => ?_
  rw [hstates] at hsilent
  rcases hsilent.expiry with hexpiry | hexpiry
  all_goals
    cases hexpired.symm.trans hexpiry

theorem Sound.turn {next : ServePhase}
    (hnext : (s.states r).serve ≠ .done ∧ ((s.states r).occupied = false → s.isLive r = false →
      ({ s.states r with serve := next } : SentRequest).occupied = false)) :
    Sound (s.modify r { s.states r with serve := next }) := by
  have hold := h.sane r hr
  refine h.modify rfl { hold with } fun hsilent => ?_
  refine { hsilent with serve := .inr ?_ }
  obtain ⟨hdead, hidle⟩ := hsilent.serve.resolve_left hnext.1
  exact ⟨hdead, hnext.2 hidle hdead⟩

theorem Sound.stepRequest (he : e.about = .request r)
    (ho : s.Orderly e) (hs : s.stepRequest r (s.states r) e = some t) : Sound t := by
  have hsane := h.sane r hr
  cases e with
  | greet q sent =>
    obtain ⟨hgreeting, rfl⟩ := of_guard hs
    exact h.greet hr hgreeting sent
  | start q =>
    obtain ⟨hguard, rfl⟩ := of_guard hs
    refine h.turn hr ⟨by rw [hguard.1]; exact nofun, fun _ hdead => ?_⟩
    simp_all
  | call q frame =>
    simp only [FrameSession.stepRequest] at hs
    split at hs
    · rename_i hguard
      have hne : (s.states r).serve ≠ .done := by rw [hguard.1]; exact nofun
      split at hs
      · rename_i target htarget
        cases hs
        refine h.turn hr ⟨hne, fun _ hdead => ?_⟩
        -- whoever is found under the id is the request itself
        obtain ⟨htlt, htid⟩ := h.live _ _ htarget
        have howner := h.request target htlt
        simp_all [h.request, isLive]
      · cases hs
        exact h.turn hr ⟨hne, fun _ _ => rfl⟩
    · cases hs
  | sends q sent again =>
    cases he
    simp only [FrameSession.stepRequest] at hs
    split at hs
    · rename_i target frame hserve
      cases hs
      refine h.serve hr (by rw [SentRequest.occupied, hserve]) fun hsent hterminal => ⟨ho ?_, ?_⟩
      · rw [SentRequest.ending, hserve]
        exact hterminal
      · simp only [hsent, hterminal, Bool.true_eq_false, if_true, if_false]
    · cases hs
  | gaveUp q =>
    simp only [FrameSession.stepRequest] at hs
    split at hs
    · rename_i target frame hserve
      cases hs
      exact h.turn hr ⟨by rw [hserve]; exact nofun, fun _ _ => rfl⟩
    · cases hs
  | returns q failed =>
    obtain ⟨hguard, rfl⟩ := of_guard hs
    refine h.turn hr ⟨?_, fun _ hdead => ?_⟩
    · grind
    · rw [hdead]
      simp [SentRequest.occupied]
  | reportFailure q sent =>
    cases he
    obtain ⟨hserve, rfl⟩ := of_guard hs
    exact h.serve hr (by rw [SentRequest.occupied, hserve]) fun _ _ => ⟨ho, rfl⟩
  | refill q =>
    obtain ⟨hguard, rfl⟩ := of_guard hs
    refine h.modify rfl { hsane with refilling := fun _ => ⟨hguard.1, hguard.2.1⟩ } fun hsilent => ?_
    have hended := hsilent.body hguard.1
    simp_all
  | refilled q sent =>
    obtain ⟨hrefilling, rfl⟩ := of_guard hs
    exact h.refilled hr hrefilling sent
  | endBody q =>
    obtain ⟨hguard, rfl⟩ := of_guard hs
    refine h.modify rfl ⟨fun hrefilling => ?_, hsane.refusing,
      fun hexpiry => ⟨rfl, (hsane.expired hexpiry).2⟩, hsane.reporting⟩
      fun hsilent => { hsilent with body := fun _ => rfl }
    exact absurd (hguard.2.symm.trans hrefilling) Bool.false_ne_true
  | refuse q => exact ho.elim
  | reportRefusal q sent =>
    simp only [FrameSession.stepRequest, hsane.refusing] at hs
    cases hs
  | expire q =>
    simp only [FrameSession.stepRequest] at hs
    split at hs
    · rename_i hguard
      obtain ⟨hbody, hopen, hrefilling, hgreeting, hidle⟩ := hguard
      cases hs
      refine h.modify rfl ⟨fun hrefills => absurd (hrefilling.symm.trans hrefills) Bool.false_ne_true, hsane.refusing,
        fun _ => ⟨rfl, hgreeting⟩, fun hreporting => ?_⟩ fun hsilent => ?_
      · grind
      · have hended := hsilent.body hbody
        simp_all
    · cases hs
  | expireCancels q =>
    obtain ⟨hexpired, rfl⟩ := of_guard hs
    exact h.expireCancels hr hexpired
  | reportTimeout q sent =>
    cases he
    obtain ⟨hreporting, rfl⟩ := of_guard hs
    exact h.reportTimeout hr hreporting ho sent
  | remove q =>
    cases hs
    exact h.unlink r
  | cancel q =>
    cases hs
    exact h.modify rfl { hsane with } fun hsilent =>
      { hsilent with }
  | _ => cases hs

end

/-! ### A socket takes a step -/

theorem Sound.modifyStream (h : Sound s) (hid : stream.id = (s.streams k).id)
    (hsilent : (s.streams k).Silent → stream.Silent) : Sound (s.modifyStream k stream) := by
  have hstreams : ∀ j, j ≠ k → (s.modifyStream k stream).streams j = s.streams j := fun j hj => update_of_ne hj _ _
  have hstream : (s.modifyStream k stream).streams k = stream := update_self _ _ _
  have hids : ∀ j, ((s.modifyStream k stream).streams j).id = (s.streams j).id := fun j => by
    by_cases hj : j = k <;> simp_all
  refine { h with socket := fun j hj => ?_, ownedStream := fun id j hj => ?_, silent := fun id hended => ?_ }
  · rw [hids]
    exact h.socket j hj
  · rw [hids]
    exact h.ownedStream id j hj
  obtain ⟨howned, hrequest, hsocket⟩ := h.silent id hended
  refine ⟨howned, hrequest, fun j hj => ?_⟩
  by_cases hjk : j = k
  · rw [hjk, hstream]
    exact hsilent (hjk ▸ hsocket j hj)
  · rw [hstreams j hjk]
    exact hsocket j hj

theorem Sound.forget (h : Sound s) (k : Nat) : Sound (s.forget k) := by
  unfold FrameSession.forget
  split
  · exact ⟨h.live, h.request, h.socket, h.owned, h.ownedStream, h.sane, h.final, fun id hended =>
      ⟨(h.silent id hended).owned, (h.silent id hended).request, (h.silent id hended).socket⟩⟩
  · exact h

theorem Sound.runOnce (h : Sound s) (hid : stream.id = (s.streams k).id)
    (honce : stream.closeOnce = (s.streams k).closeOnce)
    (hoccupied : (s.streams k).occupied = false → stream.occupied = false) (report : SocketReport) :
    Sound (s.runOnce k stream report) := by
  have hstays : Sound (s.modifyStream k stream) :=
    h.modifyStream hid fun hsilent => ⟨honce.trans hsilent.closed, hoccupied hsilent.occupied⟩
  unfold FrameSession.runOnce
  split
  · rename_i hunused
    apply Sound.forget
    refine h.modifyStream hid fun hsilent => ?_
    have hused := honce.trans hsilent.closed
    cases hunused.symm.trans hused
  · exact hstays
  · exact hstays

theorem Sound.socketSends (h : Sound s) (hk : k < s.nextStream)
    (hid : stream.id = (s.streams k).id) (hnot : ¬ (s.streams k).Silent)
    (hsilent : frame.isTerminal = true → stream.Silent) :
    Sound ((s.modifyStream k stream).send (s.streams k).id frame sent) := by
  have howner := h.socket k hk
  refine (h.modifyStream hid fun hold => absurd hold hnot).send (fun hended => ?_) fun _ hterminal => ?_
  · exact hnot ((h.silent _ hended).socket k howner)
  refine ⟨fun hnone => ?_, fun q hq => ?_, fun j hj => ?_⟩
  · exact absurd (howner.symm.trans hnone) (Option.some_ne_none _)
  · cases howner.symm.trans hq
  cases howner.symm.trans hj
  show (update s.streams k stream k).Silent
  simp_all

theorem occupied_of_connected {p : String} (h : stream.dial = .connected p) :
    stream.occupied = true := by
  rw [SentStream.occupied, h]

theorem occupied_of_sending {m : WebSocketMessage} (h : stream.pump = .sending m) :
    stream.occupied = true := by
  unfold SentStream.occupied
  rw [h]
  split <;> simp_all

theorem occupied_dialed (stream : SentStream) (h : stream.occupied = false) :
    ({ stream with dial := .done } : SentStream).occupied = false := by
  obtain ⟨id, dial, pump, once⟩ := stream
  cases dial <;> cases pump <;> first | rfl | cases h

theorem occupied_pumped (stream : SentStream) (phase : PumpPhase) (hphase : ∀ m, phase ≠ .sending m)
    (h : stream.occupied = false) : ({ stream with pump := phase } : SentStream).occupied = false := by
  obtain ⟨id, dial, pump, once⟩ := stream
  cases phase with
  | sending m => exact absurd rfl (hphase m)
  | _ => cases dial <;> cases pump <;> first | rfl | cases h

theorem Silent.not_of_occupied (h : stream.occupied = true) : ¬ stream.Silent := fun hsilent => by
  rw [hsilent.occupied] at h
  cases h

theorem Sound.stepStream (h : Sound s) (hk : k < s.nextStream) (he : e.about = .socket k)
    (ho : s.Orderly e) (hs : s.stepStream k (s.streams k) e = some t) : Sound t := by
  have hdialed := occupied_dialed (s.streams k)
  have hpumped := occupied_pumped (s.streams k)
  cases e with
  | dialEnds j protocol =>
    cases he
    simp only [FrameSession.stepStream] at hs
    split at hs
    · cases protocol with
      | some p =>
        cases hs
        refine h.modifyStream rfl fun hsilent => ?_
        have hclosed := hsilent.closed
        cases ho.symm.trans hclosed
      | none =>
        cases hs
        exact h.runOnce (by rfl) (by rfl) hdialed _
    · cases hs
  | reportOpened j sent =>
    simp only [FrameSession.stepStream] at hs
    split at hs
    · rename_i p hdial
      split at hs
      · cases hs
        exact h.socketSends hk rfl (Silent.not_of_occupied (occupied_of_connected hdial)) nofun
      · cases hs
        exact h.runOnce (by rfl) (by rfl) hdialed _
    · cases hs
    · cases hs
  | takeCredit j taken =>
    simp only [FrameSession.stepStream] at hs
    split at hs
    · split at hs
      · cases hs
        refine h.modifyStream rfl fun hsilent => ⟨hsilent.closed, hpumped _ (fun m hm => ?_) hsilent.occupied⟩
        cases hm
      · cases hs
        exact h.runOnce (by rfl) (by rfl) (hpumped _ fun m hm => by cases hm) _
    · cases hs
  | upstreamRead j read =>
    cases he
    simp only [FrameSession.stepStream] at hs
    split at hs
    · cases read with
      | message m =>
        cases hs
        refine h.modifyStream rfl fun hsilent => ?_
        have hclosed := hsilent.closed
        cases ho.symm.trans hclosed
      | closed code =>
        cases hs
        exact h.runOnce (by rfl) (by rfl) (hpumped _ fun m hm => by cases hm) _
      | dropped =>
        cases hs
        exact h.runOnce (by rfl) (by rfl) (hpumped _ fun m hm => by cases hm) _
    · cases hs
  | sendData j sent =>
    simp only [FrameSession.stepStream] at hs
    split at hs
    · rename_i m hpump
      split at hs
      · cases hs
        exact h.socketSends hk rfl (Silent.not_of_occupied (occupied_of_sending hpump)) nofun
      · cases hs
        exact h.runOnce (by rfl) (by rfl) (hpumped _ fun m hm => by cases hm) _
    all_goals cases hs
  | close j report =>
    cases hs
    exact h.runOnce rfl rfl id report
  | reportClose j sent =>
    cases he
    simp only [FrameSession.stepStream] at hs
    split at hs
    · rename_i report hrunning
      cases hs
      refine h.socketSends hk rfl (fun hsilent => ?_) fun _ => ⟨rfl, ho⟩
      have hclosed := hsilent.closed
      cases hrunning.symm.trans hclosed
    all_goals cases hs
  | dropSocket j =>
    obtain ⟨hunused, rfl⟩ := of_guard hs
    apply Sound.forget
    refine h.modifyStream rfl fun hsilent => ?_
    have hclosed := hsilent.closed
    cases hunused.symm.trans hclosed
  | _ => cases hs

/-! ### An id is taken -/

section

variable (h : Sound s) (hid : s.owner id = none)
include h hid

theorem Sound.request_ne (hr : r < s.next) :
    (s.states r).id ≠ id := fun heq => by
  have howner := h.request r hr
  grind

theorem Sound.socket_ne (hk : k < s.nextStream) :
    (s.streams k).id ≠ id := fun heq => by
  have howner := h.socket k hk
  grind

theorem Sound.not_ended : ¬ Ended (s.wire id) := fun hended =>
  (h.silent id hended).owned hid

end

theorem Sound.ended_ne (h : Sound s) {id' : Nat} (hid : s.owner id = none) (hended : Ended (s.wire id')) : id' ≠ id :=
  fun heq => h.not_ended hid (heq ▸ hended)

theorem owner_of_update {owner : Nat → Option FrameOwner} {id' : Nat} {o x : FrameOwner}
    (h : update owner id (some o) id' = some x) (hne : x ≠ o) : owner id' = some x := by
  by_cases hid : id' = id <;> simp_all

section

variable (h : Sound s) (hid : s.owner id = none)
include h hid

theorem Sound.admitted (hasBody : Bool) :
    Sound { s with
      requests := update s.requests id (some s.next)
      states := update s.states s.next ⟨id, hasBody, false, false, hasBody, false, false, .waiting, .idle⟩
      next := s.next + 1
      owner := update s.owner id (some (.request s.next)) } := by
  have hlive : ∀ q < s.next, update s.requests id (some s.next) (s.states q).id = s.requests (s.states q).id :=
    fun q hq => update_of_ne (h.request_ne hid hq) _ _
  refine ⟨fun id' q hq => ?_, fun q hq => ?_, fun k hk => ?_, fun id' q hq => ?_, fun id' k hk => ?_, fun q hq => ?_, h.final,
    fun id' hended => ?_⟩
  · dsimp only at hq ⊢
    by_cases hid' : id' = id
    · simp_all
    rw [update_of_ne hid'] at hq
    obtain ⟨hlt, heq⟩ := h.live id' q hq
    exact ⟨Nat.lt_succ_of_lt hlt, by rw [update_of_ne (ne_of_lt hlt), heq]⟩
  · dsimp only at hq ⊢
    rcases Nat.lt_succ_iff_lt_or_eq.1 hq with hlt | rfl
    · rw [update_of_ne (ne_of_lt hlt), update_of_ne (h.request_ne hid hlt)]
      exact h.request q hlt
    · simp_all
  · exact (update_of_ne (h.socket_ne hid hk) _ _).trans (h.socket k hk)
  · dsimp only at hq ⊢
    by_cases hid' : id' = id
    · simp_all
    rw [update_of_ne hid'] at hq
    obtain ⟨hlt, heq⟩ := h.owned id' q hq
    exact ⟨Nat.lt_succ_of_lt hlt, by rw [update_of_ne (ne_of_lt hlt), heq]⟩
  · exact h.ownedStream id' k (owner_of_update hk nofun)
  · dsimp only [isLive] at hq ⊢
    rcases Nat.lt_succ_iff_lt_or_eq.1 hq with hlt | rfl
    · rw [update_of_ne (ne_of_lt hlt), hlive q hlt]
      exact h.sane q hlt
    · rw [update_self]
      exact ⟨nofun, rfl, fun hexpiry => (by simp at hexpiry), nofun⟩
  · have hne := h.ended_ne hid hended
    obtain ⟨howned, hrequest, hsocket⟩ := h.silent id' hended
    refine ⟨?_, fun q hq => ?_, fun k hk => ?_⟩
    · exact fun hnone => howned ((update_of_ne hne _ _).symm.trans hnone)
    · have hq' := (update_of_ne hne _ _).symm.trans hq
      have hlt := (h.owned id' q hq').1
      dsimp only [isLive]
      rw [update_of_ne (ne_of_lt hlt), hlive q hlt]
      exact hrequest q hq'
    · exact hsocket k ((update_of_ne hne _ _).symm.trans hk)

theorem Sound.accept :
    Sound { s with
      sockets := update s.sockets id (some s.nextStream)
      streams := update s.streams s.nextStream ⟨id, .dialing, .off, .unused⟩
      nextStream := s.nextStream + 1
      owner := update s.owner id (some (.socket s.nextStream)) } := by
  refine ⟨h.live, fun q hq => ?_, fun k hk => ?_, fun id' q hq => ?_, fun id' k hk => ?_, h.sane, h.final,
    fun id' hended => ?_⟩
  · exact (update_of_ne (h.request_ne hid hq) _ _).trans (h.request q hq)
  · dsimp only at hk ⊢
    rcases Nat.lt_succ_iff_lt_or_eq.1 hk with hlt | rfl
    · rw [update_of_ne (ne_of_lt hlt), update_of_ne (h.socket_ne hid hlt)]
      exact h.socket k hlt
    · simp_all
  · exact h.owned id' q (owner_of_update hq nofun)
  · dsimp only at hk ⊢
    by_cases hid' : id' = id
    · simp_all
    rw [update_of_ne hid'] at hk
    obtain ⟨hlt, heq⟩ := h.ownedStream id' k hk
    exact ⟨Nat.lt_succ_of_lt hlt, by rw [update_of_ne (ne_of_lt hlt), heq]⟩
  · have hne := h.ended_ne hid hended
    obtain ⟨howned, hrequest, hsocket⟩ := h.silent id' hended
    refine ⟨?_, fun q hq => ?_, fun k hk => ?_⟩
    · exact fun hnone => howned ((update_of_ne hne _ _).symm.trans hnone)
    · exact hrequest q ((update_of_ne hne _ _).symm.trans hq)
    have hk' := (update_of_ne hne _ _).symm.trans hk
    have hlt := (h.ownedStream id' k hk').1
    grind

theorem Sound.reject (sent : Bool) :
    Sound ({ s with owner := update s.owner id (some .nobody) }.send id .resErr sent) := by
  refine Sound.send ?_ (h.not_ended hid) fun _ _ => ⟨?_, fun q hq => ?_, fun k hk => ?_⟩
  · refine ⟨h.live, fun q hq => ?_, fun k hk => ?_, fun id' q hq => ?_, fun id' k hk => ?_, h.sane, h.final,
      fun id' hended => ?_⟩
    · exact (update_of_ne (h.request_ne hid hq) _ _).trans (h.request q hq)
    · exact (update_of_ne (h.socket_ne hid hk) _ _).trans (h.socket k hk)
    · exact h.owned id' q (owner_of_update hq nofun)
    · exact h.ownedStream id' k (owner_of_update hk nofun)
    have hne := h.ended_ne hid hended
    obtain ⟨howned, hrequest, hsocket⟩ := h.silent id' hended
    refine ⟨?_, fun q hq => ?_, fun k hk => ?_⟩
    · exact fun hnone => howned ((update_of_ne hne _ _).symm.trans hnone)
    · exact hrequest q ((update_of_ne hne _ _).symm.trans hq)
    · exact hsocket k ((update_of_ne hne _ _).symm.trans hk)
  · exact fun hnone => absurd ((update_self id _ s.owner).symm.trans hnone) (Option.some_ne_none _)
  · simp_all
  · simp_all

end

/-! ### Runs -/

theorem Sound.step (h : Sound s) (ho : s.Orderly e) (hs : s.step e = some t) :
    Sound t := by
  unfold FrameSession.step at hs
  split at hs
  · split at hs
    · cases hs
      exact h.admitted ho _
    · cases hs
  · cases hs
    exact h.reject ho _
  · split at hs
    · cases hs
      exact h.accept ho
    · cases hs
  split at hs
  · rename_i r habout
    split at hs
    · rename_i hr
      exact h.stepRequest hr habout ho hs
    · cases hs
  · rename_i k habout
    split at hs
    · rename_i hk
      exact h.stepStream hk habout ho hs
    · cases hs
  · cases hs

theorem sound_new : Sound newFrameSession :=
  ⟨nofun, nofun, nofun, nofun, nofun, nofun, nofun, fun _ ⟨_, hframe, _⟩ => (by cases hframe)⟩

/-- **In an orderly run no frame follows a terminal frame of its id.** -/
theorem terminal_frames_final (es : List FrameEvent) (t : FrameSession)
    (hm : Steps.Meets FrameSession.step Orderly newFrameSession es)
    (hs : run FrameSession.step newFrameSession es = some t) (id : Nat) : Final (t.wire id) :=
  (Steps.run_inv_when FrameSession.step Orderly Sound (fun _ _ _ h ho hs => h.step ho hs) es newFrameSession t sound_new hm
    hs).final id

def orderlyAnswers : List FrameEvent :=
  [.admitted 1 true, .greet 0 true, .start 0, .refill 0, .refilled 0 true, .endBody 0, .call 0 .resHead, .sends 0 true false,
    .call 0 .resBody, .sends 0 true false, .call 0 .resEnd, .sends 0 true false, .remove 0,
    .accept 2, .dialEnds 0 (some ""), .reportOpened 0 true, .takeCredit 0 true, .upstreamRead 0 (.message ⟨.text, [104, 105]⟩),
    .sendData 0 true, .close 0 goingAway, .reportClose 0 true]

theorem terminal_frames_final_answers :
    ∃ t, run FrameSession.step newFrameSession orderlyAnswers = some t ∧
      t.wire 1 = [.reqCredit, .reqCredit, .resHead, .resBody, .resEnd] ∧ t.wire 2 = [.wsOpened, .wsData, .wsClose] ∧
      ∀ id, Final (t.wire id) := by
  obtain ⟨t, ht, hwires⟩ : ∃ t, run FrameSession.step newFrameSession orderlyAnswers = some t ∧
      t.wire 1 = [.reqCredit, .reqCredit, .resHead, .resBody, .resEnd] ∧ t.wire 2 = [.wsOpened, .wsData, .wsClose] :=
    Steps.exists_run (by decide +kernel)
  exact ⟨t, ht, hwires.1, hwires.2, terminal_frames_final orderlyAnswers t (by decide +kernel) ht⟩

def earlyAnswer : List FrameEvent :=
  [.admitted 1 true, .greet 0 true, .start 0, .call 0 .resHead, .sends 0 true false, .call 0 .resEnd, .sends 0 true false,
    .refill 0, .refilled 0 true]

def closedWhilePumping : List FrameEvent :=
  [.accept 2, .dialEnds 0 (some ""), .reportOpened 0 true, .takeCredit 0 true,
    .upstreamRead 0 (.message ⟨.text, [104, 105]⟩), .close 0 goingAway, .reportClose 0 true, .sendData 0 true]

theorem terminal_frames_followed :
    (∃ t, run FrameSession.step newFrameSession earlyAnswer = some t ∧
      t.wire 1 = [.reqCredit, .resHead, .resEnd, .reqCredit] ∧ ¬ Final (t.wire 1)) ∧
    ∃ t, run FrameSession.step newFrameSession closedWhilePumping = some t ∧
      t.wire 2 = [.wsOpened, .wsClose, .wsData] ∧ ¬ Final (t.wire 2) := by
  have hearly : (run FrameSession.step newFrameSession earlyAnswer).map (fun t => t.wire 1) =
      some [.reqCredit, .resHead, .resEnd, .reqCredit] := by
    decide +kernel
  have hclosed : (run FrameSession.step newFrameSession closedWhilePumping).map (fun t => t.wire 2) =
      some [.wsOpened, .wsClose, .wsData] := by
    decide +kernel
  obtain ⟨t, ht, hwire⟩ := Option.map_eq_some_iff.1 hearly
  obtain ⟨u, hu, hwire'⟩ := Option.map_eq_some_iff.1 hclosed
  refine ⟨⟨t, ht, hwire, ?_⟩, u, hu, hwire', ?_⟩
  · rw [hwire]
    decide
  · rw [hwire']
    decide

end FrameSession

end YuriRtc
