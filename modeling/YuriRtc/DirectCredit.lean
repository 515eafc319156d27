import YuriRtc.DirectRequest
/-!
# DirectCredit — a waiting direct request has credit out

Until the response ends, the credits of its window are all somewhere: with the node, on the lane as frames or as credit, in
the page's queue, or released and not returned yet (`Accounted`).  A request that waits has an empty queue and at most one
released credit, the one of the chunk whose `enqueue` ran the `pull`.  With a window of one that is all there is, and the
request waits with nothing out (`window_of_one_stalls`); otherwise something is always on its way (`waiting_has_credit`).
-/
namespace YuriRtc

open ResponseCreditWindow (available_grant available_take empty newResponseCreditWindow)
open Steps (of_guard run)
namespace DirectRequest

variable {s t : DirectRequest} {n : Nat}

def bodiesIn (frames : List DirectFrame) : Nat :=
  frames.countP fun frame => match frame with
    | .resBody _ => true
    | .resHead _ | .resEnd | .resErr => false

def creditOf : ResponseControl → Nat
  | .req n | .credit n => n
  | .cancel => 0

def creditsIn (controls : List ResponseControl) : Nat := (controls.map creditOf).sum

def outstanding (s : DirectRequest) : Nat :=
  s.window.available + s.taken + bodiesIn s.toPage + creditsIn s.toNode

def held (s : DirectRequest) : Nat := s.credit + s.directQueue.length + s.directReleased

/-- **Nothing is delivered to a read that is pending**, when the window is a single credit. -/
def Unhurried (s : DirectRequest) : DirectEvent → Prop
  | .pageReceives _ => s.initial.credits = 1 → bodiesIn (s.toPage.take 1) = 1 →
    ¬ (s.directWaiting = true ∧ 0 < s.stream.reads ∧ s.stream.pulling = false)
  | .take | .sendHead _ | .sendBody _ | .sendEnd | .sendError | .nodeReceives _ | .started _ | .pullSettled _ | .read _
  | .cancelStream _ | .refuseStatus _ | .laneLost => True

instance (s : DirectRequest) (e : DirectEvent) : Decidable (Unhurried s e) := by
  unfold Unhurried
  split <;> infer_instance

/-! ### What the page does -/

structure Open (s : DirectRequest) : Prop where
  notEnded : s.directEnded = false
  active : s.active = true
  attached : s.attached = true
  canHaveBody : s.canHaveBody = true
  notFinished : s.bodyFinished = false

/-- **What the page does to a request that goes on**: it returns credit, and its share of the window grows by `n`. -/
structure Pays (n : Nat) (s t : DirectRequest) : Prop where
  initial : t.initial = s.initial
  live : t.live = s.live
  window : t.window = s.window
  taken : t.taken = s.taken
  done : t.done = s.done
  toPage : t.toPage = s.toPage
  opened : Open t
  held : t.held = s.held + n
  returned : ∃ grants : List Nat, t.toNode = s.toNode ++ grants.map .credit ∧ t.credit = s.credit + grants.sum

theorem Pays.refl (h : Open s) : Pays 0 s s :=
  ⟨rfl, rfl, rfl, rfl, rfl, rfl, h, rfl, [], by simp, by simp⟩

theorem Pays.trans {m : Nat} {u : DirectRequest} (h : Pays m s t) (h' : Pays n t u) : Pays (m + n) s u := by
  obtain ⟨grants, hnode, hcredit⟩ := h.returned
  obtain ⟨grants', hnode', hcredit'⟩ := h'.returned
  refine ⟨h'.initial.trans h.initial, h'.live.trans h.live, h'.window.trans h.window, h'.taken.trans h.taken,
    h'.done.trans h.done, h'.toPage.trans h.toPage, h'.opened, ?_, grants ++ grants', ?_, ?_⟩
  · rw [h'.held, h.held]
    omega
  · simp_all
  · grind

theorem flushDirectCredit_pays (h : Open s) (hfits : s.held ≤ maxResponseCredits) (sendOk force : Bool) :
    (s.flushDirectCredit sendOk force).directEnded = true ∨
      Pays 0 s (s.flushDirectCredit sendOk force) ∧
        (s.flushDirectCredit sendOk force).directWaiting = s.directWaiting ∧
        (s.flushDirectCredit sendOk force).directQueue = s.directQueue ∧
        ((s.flushDirectCredit sendOk force).directReleased = 0 ∨
          force = false ∧ (s.flushDirectCredit sendOk force).directReleased = s.directReleased) := by
  unfold flushDirectCredit
  split
  · rename_i hnone
    rcases hnone with hzero | hended
    · exact .inr ⟨.refl h, rfl, rfl, .inl hzero⟩
    · exact .inl hended
  split
  · rename_i hbatch
    exact .inr ⟨.refl h, rfl, rfl, .inr ⟨hbatch.1, rfl⟩⟩
  rename_i hsome _
  have hvalid : ¬ (s.directReleased = 0 ∨ maxResponseCredits < s.directReleased ∨
      maxResponseCredits - s.directReleased < s.credit) := by grind [held]
  unfold onCredit
  rw [if_pos h.active, if_neg hvalid]
  cases sendOk with
  | true =>
    refine .inr ⟨⟨rfl, rfl, rfl, rfl, rfl, rfl, { h with }, ?_,
      [s.directReleased], rfl, ?_⟩, rfl, rfl, .inl rfl⟩
    · show s.credit + s.directReleased + s.directQueue.length + 0 = s.credit + s.directQueue.length + s.directReleased + 0
      omega
    · simp [pageSend]
  | false =>
    refine .inl ?_
    show (onErr { s with credit := s.credit + s.directReleased }).directEnded = true
    simp [onErr, h.attached]

theorem releaseDirectCredit_pays (h : Open s) (hfits : s.held < maxResponseCredits) (sendOk : Bool) :
    (s.releaseDirectCredit sendOk).directEnded = true ∨
      Pays 1 s (s.releaseDirectCredit sendOk) ∧ (s.releaseDirectCredit sendOk).directWaiting = s.directWaiting ∧
        (s.releaseDirectCredit sendOk).directQueue = s.directQueue ∧
        (s.releaseDirectCredit sendOk).directReleased ≤ s.directReleased + 1 := by
  have hopen : Open { s with directReleased := s.directReleased + 1 } :=
    { h with }
  have hpays : Pays 1 s { s with directReleased := s.directReleased + 1 } :=
    ⟨rfl, rfl, rfl, rfl, rfl, rfl, hopen, rfl, [], by simp, by simp⟩
  unfold releaseDirectCredit
  rcases flushDirectCredit_pays hopen hfits sendOk false with hended | ⟨hflush, hwaiting, hqueue, hreleased⟩
  · exact .inl hended
  · refine .inr ⟨hpays.trans hflush, hwaiting, hqueue, ?_⟩
    grind

theorem closeBody_of_open (h : s.directEnded = false) : s.closeBody = s := by
  simp [closeBody, h]

theorem closeBody_ended (h : s.directEnded = true) : s.closeBody.directEnded = true := by
  unfold closeBody
  split <;> exact h

def Idle (s : DirectRequest) : Prop := s.directWaiting = true → s.directQueue = [] ∧ s.directReleased = 0

section

variable (h : Open s) (hfits : s.held ≤ maxResponseCredits) (hqueue : s.directWaiting = true → s.directQueue = []) (sendOk : Bool)
include h hfits hqueue sendOk

theorem pull_pays :
    (s.pull sendOk).directEnded = true ∨ Pays 0 s (s.pull sendOk) ∧ Idle (s.pull sendOk) := by
  unfold pull
  split
  · rename_i chunk rest hq
    generalize s.stream.putPulling chunk = stream
    have hopen : Open { s with directQueue := rest, stream := stream } :=
      { h with }
    have hheld : ({ s with directQueue := rest, stream := stream } : DirectRequest).held + 1 = s.held := by grind [held]
    have hnotWaiting : s.directWaiting = false := by simp_all
    rcases releaseDirectCredit_pays hopen (by omega) sendOk with hended | ⟨hrelease, hwaiting, -, -⟩
    · exact .inl (closeBody_ended hended)
    rw [closeBody_of_open hrelease.opened.notEnded]
    refine .inr ⟨{ hrelease with held := ?_ }, fun hw => ?_⟩
    · rw [hrelease.held]
      omega
    · simp_all
  · rename_i hq
    rw [if_neg (by rw [h.notEnded]; decide)]
    have hopen : Open { s with directWaiting := true } :=
      { h with }
    have hpays : Pays 0 s { s with directWaiting := true } :=
      ⟨rfl, rfl, rfl, rfl, rfl, rfl, hopen, rfl, [], by simp, by simp⟩
    rcases flushDirectCredit_pays hopen hfits sendOk true with hended | ⟨hflush, -, hsame, hzero⟩
    · exact .inl hended
    · refine .inr ⟨hpays.trans hflush, fun _ => ⟨hsame.trans hq, ?_⟩⟩
      simp_all

theorem callPullIfNeeded_pays :
    (s.callPullIfNeeded sendOk).directEnded = true ∨
      Pays 0 s (s.callPullIfNeeded sendOk) ∧
        (Idle (s.callPullIfNeeded sendOk) ∨
          (s.callPullIfNeeded sendOk).directWaiting = s.directWaiting ∧
          (s.callPullIfNeeded sendOk).directQueue = s.directQueue ∧
          (s.callPullIfNeeded sendOk).directReleased = s.directReleased) := by
  unfold callPullIfNeeded
  split
  · split
    · exact .inr ⟨⟨rfl, rfl, rfl, rfl, rfl, rfl, { h with }, rfl,
        [], by simp, by simp⟩, .inr ⟨rfl, rfl, rfl⟩⟩
    generalize { s.stream with pulling := true } = stream
    have hopen : Open { s with stream := stream } :=
      { h with }
    have hpays : Pays 0 s { s with stream := stream } :=
      ⟨rfl, rfl, rfl, rfl, rfl, rfl, hopen, rfl, [], by simp, by simp⟩
    rcases pull_pays hopen hfits hqueue sendOk with hended | ⟨hpull, hidle⟩
    · exact .inl hended
    · exact .inr ⟨hpays.trans hpull, .inl hidle⟩
  · exact .inr ⟨.refl h, .inr ⟨rfl, rfl, rfl⟩⟩

end

structure Waits (s : DirectRequest) : Prop where
  queue : s.directWaiting = true → s.directQueue = []
  released : s.directWaiting = true → s.directReleased ≤ 1
  one : s.directWaiting = true → s.initial.credits = 1 → s.directReleased = 0

theorem Idle.waits (h : Idle s) : Waits s :=
  ⟨fun hw => (h hw).1, fun hw => by rw [(h hw).2]; exact Nat.zero_le _, fun hw _ => (h hw).2⟩

theorem callPullIfNeeded_waits (h : Open s) (hfits : s.held ≤ maxResponseCredits) (hw : Waits s)
    (sendOk : Bool) : (s.callPullIfNeeded sendOk).directEnded = true ∨
      Pays 0 s (s.callPullIfNeeded sendOk) ∧ Waits (s.callPullIfNeeded sendOk) := by
  rcases callPullIfNeeded_pays h hfits hw.queue sendOk with hended | ⟨hpays, hidle | ⟨hwaiting, hqueue, hreleased⟩⟩
  · exact .inl hended
  · exact .inr ⟨hpays, hidle.waits⟩
  refine .inr ⟨hpays, ?_, ?_, ?_⟩
  · rw [hwaiting, hqueue]
    exact hw.queue
  · rw [hwaiting, hreleased]
    exact hw.released
  · rw [hwaiting, hreleased, hpays.initial]
    exact hw.one

theorem releaseDirectCredit_ended (h : s.directEnded = true) (sendOk : Bool) :
    (s.releaseDirectCredit sendOk).directEnded = true := by
  simp [releaseDirectCredit, flushDirectCredit, h]

theorem callPullIfNeeded_put (h : ¬ (0 < s.stream.reads ∧ s.stream.pulling = false)) (sendOk : Bool)
    (chunk : Bytes) : ({ s with directWaiting := false, stream := s.stream.put chunk }.callPullIfNeeded sendOk).directWaiting =
      false := by
  unfold callPullIfNeeded
  by_cases hreads : 0 < s.stream.reads
  · grind [BodyStream.put]
  · simp [BodyStream.put, BodyStream.shouldPull, hreads]

theorem onBody_pays (h : Open s) (hfits : s.held < maxResponseCredits) (sendOk : Bool) (chunk : Bytes)
    (hone : s.initial.credits = 1 → ¬ (s.directWaiting = true ∧ 0 < s.stream.reads ∧ s.stream.pulling = false)) :
    (s.onBody sendOk chunk).directEnded = true ∨ Pays 1 s (s.onBody sendOk chunk) ∧ Waits (s.onBody sendOk chunk) := by
  unfold onBody
  rw [if_pos ⟨h.attached, h.canHaveBody, h.notFinished⟩]
  split
  · rename_i hwaiting
    have hopen : Open { s with directWaiting := false, stream := s.stream.put chunk } :=
      { h with }
    have hpays : Pays 0 s { s with directWaiting := false, stream := s.stream.put chunk } :=
      ⟨rfl, rfl, rfl, rfl, rfl, rfl, hopen, rfl, [], by simp, by simp⟩
    rcases callPullIfNeeded_pays hopen (le_of_lt hfits) nofun sendOk with
      hended | ⟨hpull, hcases⟩
    · exact .inl (releaseDirectCredit_ended hended sendOk)
    have hidle : Idle ({ s with directWaiting := false, stream := s.stream.put chunk }.callPullIfNeeded sendOk) := by
      rcases hcases with hidle | ⟨hsame, -, -⟩
      · exact hidle
      intro hw'
      rw [hsame] at hw'
      cases hw'
    have hheld := hpull.held
    rcases releaseDirectCredit_pays hpull.opened (by rw [hheld]; exact hfits) sendOk with
      hended | ⟨hrelease, hwaits, hqueue, hreleased⟩
    · exact .inl hended
    refine .inr ⟨(hpays.trans hpull).trans hrelease, fun hw' => ?_, fun hw' => ?_, fun hw' hcredits => ?_⟩
    · rw [hqueue]
      exact (hidle (hwaits ▸ hw')).1
    · rw [(hidle (hwaits ▸ hw')).2] at hreleased
      exact hreleased
    · -- with a single credit no `pull` runs inside `enqueue`
      rw [hrelease.initial, hpull.initial] at hcredits
      have hnot := callPullIfNeeded_put (fun hread => hone hcredits ⟨hwaiting, hread⟩) sendOk chunk
      rw [hwaits, hnot] at hw'
      cases hw'
  · rename_i hwaiting
    have hwaiting : s.directWaiting = false := by simpa using hwaiting
    refine .inr ⟨⟨rfl, rfl, rfl, rfl, rfl, rfl, { h with }, ?_,
      [], by simp, by simp⟩, ?_, ?_, ?_⟩
    · simp [held]
      omega
    all_goals
      intro hw'
      exact absurd (hwaiting.symm.trans hw') (by decide)

/-! ### The whole window -/

/-- Before the node has the request its window is empty and the request is the first frame on the lane; after that there is
none. -/
def Announced (s : DirectRequest) : Prop :=
  (s.live = false ∧ s.window.available = 0 ∧ s.taken = 0 ∧
    ∃ grants : List Nat, s.toNode = .req s.initial.credits :: grants.map .credit) ∨
  s.live = true ∧ ∃ grants : List Nat, s.toNode = grants.map .credit

/-- **Every credit of the window is accounted for**, until the response ends. -/
structure Accounted (s : DirectRequest) : Prop where
  opened : s.directEnded = false → Open s
  announced : s.directEnded = false → s.done = false → Announced s
  outstanding : s.directEnded = false → s.done = false → s.outstanding = s.credit
  held : s.directEnded = false → s.held = s.initial.credits
  waits : s.directEnded = false → Waits s

theorem creditsIn_append (as bs : List ResponseControl) : creditsIn (as ++ bs) = creditsIn as + creditsIn bs := by
  simp [creditsIn]

theorem creditsIn_credits (grants : List Nat) : creditsIn (grants.map .credit) = grants.sum := by
  have hsame : creditOf ∘ ResponseControl.credit = id := rfl
  simp [creditsIn, hsame]

theorem Accounted.start (initial : InitialCredits) : Accounted (start initial) where
  opened _ := ⟨rfl, rfl, rfl, rfl, rfl⟩
  announced _ _ := .inl ⟨rfl, rfl, rfl, [], rfl⟩
  outstanding _ _ := by
    simp [DirectRequest.outstanding, DirectRequest.start, creditsIn, creditOf, bodiesIn, empty]
  held _ := rfl
  waits _ := ⟨nofun, nofun, nofun⟩

theorem Accounted.ended (h : s.directEnded = true) : Accounted s := by
  have hno : ∀ {p : Prop}, s.directEnded = false → p := fun hf => absurd (h.symm.trans hf) (by decide)
  exact ⟨hno, hno, hno, hno, hno⟩

theorem Accounted.fits (h : Accounted s) (ho : s.directEnded = false) : s.held ≤ maxResponseCredits := by
  rw [h.held ho]
  exact s.initial.le_max

theorem Accounted.pays (hheld : s.held + n = s.initial.credits)
    (hann : s.done = false → Announced s) (hout : s.done = false → s.outstanding = s.credit) (h : Pays n s t) (hw : Waits t) :
    Accounted t := by
  obtain ⟨grants, hnode, hcredit⟩ := h.returned
  refine ⟨fun _ => h.opened, fun _ hdone => ?_, fun _ hdone => ?_, fun _ => ?_, fun _ => hw⟩
  · rw [h.done] at hdone
    unfold Announced
    rw [h.live, h.window, h.taken, h.initial, hnode]
    rcases hann hdone with ⟨hlive, havailable, htaken, before, hbefore⟩ | ⟨hlive, before, hbefore⟩
    · exact .inl ⟨hlive, havailable, htaken, before ++ grants, by rw [hbefore, List.map_append]; rfl⟩
    · exact .inr ⟨hlive, before ++ grants, by rw [hbefore, List.map_append]⟩
  · rw [h.done] at hdone
    have hsum := hout hdone
    unfold DirectRequest.outstanding at hsum ⊢
    rw [h.window, h.taken, h.toPage, hnode, hcredit, creditsIn_append, creditsIn_credits]
    omega
  · rw [h.held, h.initial, hheld]

theorem Accounted.callPull (h : Accounted s) (ho : s.directEnded = false) (stream : BodyStream)
    (sendOk : Bool) : Accounted ({ s with stream := stream }.callPullIfNeeded sendOk) := by
  obtain ⟨hended, hactive, hattached, hbody, hfinished⟩ := h.opened ho
  have hwaits := h.waits ho
  rcases callPullIfNeeded_waits (s := { s with stream := stream }) ⟨hended, hactive, hattached, hbody, hfinished⟩ (h.fits ho)
      { hwaits with } sendOk with hended' | ⟨hpays, hwaits'⟩
  · exact .ended hended'
  · exact .pays (s := { s with stream := stream }) (h.held ho) (h.announced ho) (h.outstanding ho) hpays hwaits'

theorem bodiesIn_cons (frame : DirectFrame) (rest : List DirectFrame) :
    bodiesIn (frame :: rest) = bodiesIn rest + bodiesIn [frame] := by
  simp [bodiesIn, List.countP_cons]

theorem Accounted.onFrame (h : Accounted s) (ho : s.directEnded = false) {frame : DirectFrame}
    {rest : List DirectFrame} (hpage : s.toPage = frame :: rest) (sendOk : Bool)
    (hone : s.initial.credits = 1 → bodiesIn [frame] = 1 →
      ¬ (s.directWaiting = true ∧ 0 < s.stream.reads ∧ s.stream.pulling = false)) :
    Accounted ({ s with toPage := rest }.onFrame sendOk frame) := by
  obtain ⟨hended, hactive, hattached, hbody, hfinished⟩ := h.opened ho
  have hout : s.done = false → s.window.available + s.taken + (bodiesIn rest + bodiesIn [frame]) + creditsIn s.toNode =
      s.credit := fun hdone => by
    have hsum := h.outstanding ho hdone
    unfold DirectRequest.outstanding at hsum
    rw [hpage, bodiesIn_cons] at hsum
    exact hsum
  unfold DirectRequest.onFrame
  rw [if_pos hactive]
  cases frame with
  | resHead canHaveBody =>
    dsimp only [onHead]
    rw [if_pos hattached]
    cases canHaveBody with
    | true =>
      refine .pays (s := { s with toPage := rest }) (n := 0) (h.held ho) (h.announced ho) hout
        ⟨rfl, rfl, rfl, rfl, rfl, rfl, ⟨hended, hactive, hattached, rfl, hfinished⟩, rfl, [], by simp, by simp⟩ ?_
      exact ⟨(h.waits ho).queue, (h.waits ho).released, (h.waits ho).one⟩
    | false => exact .ended (closeBody_ended rfl)
  | resBody chunk =>
    dsimp only
    split
    · refine .ended ?_
      grind [failRequest, pageSend, finish, onErr]
    rename_i hcredit
    have hheld : s.credit + s.directQueue.length + s.directReleased = s.initial.credits := h.held ho
    have hmax := s.initial.le_max
    have hspent : ({ s with toPage := rest, credit := s.credit - 1 } : DirectRequest).held + 1 = s.initial.credits := by
      show s.credit - 1 + s.directQueue.length + s.directReleased + 1 = _
      omega
    rcases onBody_pays (s := { s with toPage := rest, credit := s.credit - 1 })
        ⟨hended, hactive, hattached, hbody, hfinished⟩ (by omega) sendOk chunk (fun hc => hone hc rfl) with
      hended' | ⟨hpays, hwaits⟩
    · exact .ended hended'
    refine .pays hspent (h.announced ho) (fun hdone => ?_) hpays hwaits
    have hsum := hout hdone
    show s.window.available + s.taken + bodiesIn rest + creditsIn s.toNode = s.credit - 1
    rw [show bodiesIn [DirectFrame.resBody chunk] = 1 from rfl] at hsum
    omega
  | resEnd =>
    refine .ended ?_
    show (onEnd { s with toPage := rest }).directEnded = true
    unfold onEnd
    rw [if_pos hattached]
    exact closeBody_ended rfl
  | resErr =>
    refine .ended ?_
    show (onErr { s with toPage := rest }).directEnded = true
    simp [onErr, hattached]

structure SamePage (s t : DirectRequest) : Prop where
  initial : t.initial = s.initial
  active : t.active = s.active
  credit : t.credit = s.credit
  attached : t.attached = s.attached
  canHaveBody : t.canHaveBody = s.canHaveBody
  bodyFinished : t.bodyFinished = s.bodyFinished
  directEnded : t.directEnded = s.directEnded
  directWaiting : t.directWaiting = s.directWaiting
  directReleased : t.directReleased = s.directReleased
  directQueue : t.directQueue = s.directQueue

section

variable (h : Accounted s) (ho : s.directEnded = false)
include h ho

theorem Accounted.samePage (hp : SamePage s t)
    (hann : t.done = false → Announced t) (hout : t.done = false → t.outstanding = t.credit) : Accounted t := by
  obtain ⟨hended, hactive, hattached, hbody, hfinished⟩ := h.opened ho
  have hw := h.waits ho
  refine ⟨fun _ => ⟨hp.directEnded.trans hended, hp.active.trans hactive, hp.attached.trans hattached,
    hp.canHaveBody.trans hbody, hp.bodyFinished.trans hfinished⟩, fun _ => hann, fun _ => hout, fun _ => ?_,
    fun _ => ⟨?_, ?_, ?_⟩⟩
  · unfold DirectRequest.held
    rw [hp.credit, hp.directQueue, hp.directReleased, hp.initial]
    exact h.held ho
  · rw [hp.directWaiting, hp.directQueue]
    exact hw.queue
  · rw [hp.directWaiting, hp.directReleased]
    exact hw.released
  · rw [hp.directWaiting, hp.directReleased, hp.initial]
    exact hw.one

theorem Accounted.grant (hd : s.done = false)
    {rest : List ResponseControl} (hnode : s.toNode = .credit n :: rest) :
    (s.window.grant n).available = s.window.available + n := by
  apply available_grant
  have hout := h.outstanding ho hd
  have hheld := h.fits ho
  unfold DirectRequest.outstanding at hout
  unfold DirectRequest.held at hheld
  rw [hnode] at hout
  simp only [creditsIn, List.map_cons, List.sum_cons, creditOf] at hout
  omega

theorem Accounted.nodeReceive (accepted : Bool)
    {control : ResponseControl} {rest : List ResponseControl} (hnode : s.toNode = control :: rest) :
    Accounted ({ s with toNode := rest }.nodeReceive accepted control) := by
  have hsame : SamePage s ({ s with toNode := rest }.nodeReceive accepted control) := by
    cases control with
    | req n => cases accepted <;> exact ⟨rfl, rfl, rfl, rfl, rfl, rfl, rfl, rfl, rfl, rfl⟩
    | credit n =>
      dsimp only [DirectRequest.nodeReceive]
      split <;> exact ⟨rfl, rfl, rfl, rfl, rfl, rfl, rfl, rfl, rfl, rfl⟩
    | cancel => exact ⟨rfl, rfl, rfl, rfl, rfl, rfl, rfl, rfl, rfl, rfl⟩
  have hdone : s.done = true → ({ s with toNode := rest }.nodeReceive accepted control).done = true := by
    intro hd
    cases control with
    | req n => cases accepted <;> simp [DirectRequest.nodeReceive, hd]
    | credit n =>
      dsimp only [DirectRequest.nodeReceive]
      split <;> exact hd
    | cancel => rfl
  rcases Bool.eq_false_or_eq_true s.done with hd | hd
  · have hno : ∀ {p : Prop}, ({ s with toNode := rest }.nodeReceive accepted control).done = false → p :=
      fun hf => absurd ((hdone hd).symm.trans hf) (by decide)
    exact h.samePage ho hsame hno hno
  have hout := h.outstanding ho hd
  unfold DirectRequest.outstanding at hout
  rw [hnode] at hout
  rcases h.announced ho hd with ⟨-, havailable, htaken, grants, hgrants⟩ | ⟨hlive, grants, hgrants⟩
  · -- the request itself
    rw [hnode] at hgrants
    obtain ⟨rfl, rfl⟩ := List.cons.inj hgrants
    cases accepted with
    | false => exact h.samePage ho hsame nofun nofun
    | true =>
      refine h.samePage ho hsame (fun _ => .inr ⟨rfl, grants, rfl⟩) (fun _ => ?_)
      have hwhole : (newResponseCreditWindow s.initial.credits).available = s.initial.credits :=
        (available_grant .empty _ (by
          show 0 + s.initial.credits ≤ _
          rw [Nat.zero_add]
          exact s.initial.le_max)).trans (Nat.zero_add _)
      show (newResponseCreditWindow s.initial.credits).available + s.taken + bodiesIn s.toPage +
        creditsIn (grants.map .credit) = s.credit
      rw [hwhole]
      simp only [creditsIn, List.map_cons, List.sum_cons, creditOf] at hout ⊢
      omega
  · -- more credit
    rw [hnode] at hgrants
    cases grants with
    | nil => cases hgrants
    | cons n grants =>
      obtain ⟨rfl, rfl⟩ := List.cons.inj hgrants
      have hwhole := h.grant ho hd hnode
      have hreceive : ({ s with toNode := grants.map .credit } : DirectRequest).nodeReceive accepted (.credit n) =
          { s with toNode := grants.map .credit, window := s.window.grant n } := if_pos hlive
      rw [hreceive] at hsame ⊢
      refine h.samePage ho hsame (fun _ => .inr ⟨hlive, grants, rfl⟩) (fun _ => ?_)
      show (s.window.grant n).available + s.taken + bodiesIn s.toPage + creditsIn (grants.map .credit) = s.credit
      rw [hwhole]
      simp only [creditsIn, List.map_cons, List.sum_cons, creditOf] at hout ⊢
      omega

end

theorem bodiesIn_append (as bs : List DirectFrame) : bodiesIn (as ++ bs) = bodiesIn as + bodiesIn bs := by
  simp [bodiesIn]

section

variable (h : s.directEnded = true)
include h

theorem onErr_ended : s.onErr.directEnded = true := by
  unfold onErr
  split
  · rfl
  · exact h

variable (sendOk : Bool)

theorem pull_ended : (s.pull sendOk).directEnded = true := by
  unfold pull
  split
  · apply closeBody_ended
    apply releaseDirectCredit_ended
    exact h
  · rw [if_pos h]
    exact closeBody_ended h

theorem callPullIfNeeded_ended :
    (s.callPullIfNeeded sendOk).directEnded = true := by
  unfold callPullIfNeeded
  split
  · split
    · exact h
    · apply pull_ended
      exact h
  · exact h

theorem onFrame_ended (frame : DirectFrame) :
    (s.onFrame sendOk frame).directEnded = true := by
  unfold onFrame
  split
  · cases frame with
    | resHead canHaveBody =>
      dsimp only [onHead]
      split
      · split
        · exact h
        · exact closeBody_ended rfl
      · exact h
    | resBody chunk =>
      dsimp only
      split
      · show (onErr (pageSend s sendOk .cancel)).directEnded = true
        apply onErr_ended
        unfold pageSend
        split <;> exact h
      unfold onBody
      split
      · split
        · apply releaseDirectCredit_ended
          apply callPullIfNeeded_ended
          exact h
        · exact h
      · exact h
    | resEnd =>
      show (onEnd s).directEnded = true
      unfold onEnd
      split
      · exact closeBody_ended rfl
      · exact h
    | resErr => exact onErr_ended h
  · exact h

theorem cancelRequest_ended :
    (s.cancelRequest sendOk).directEnded = true := by grind [cancelRequest, pageSend, finish]

end

theorem step_ended {e : DirectEvent} (h : s.directEnded = true) (hs : s.step e = some t) :
    t.directEnded = true := by
  cases e <;> simp only [step] at hs
  case take =>
    split at hs
    · cases hs
    · obtain ⟨w, -, rfl⟩ := Option.map_eq_some_iff.1 hs
      exact h
  case sendHead | sendBody | sendEnd | sendError => grind [step]
  case nodeReceives accepted =>
    split at hs
    · cases hs
    rename_i control toNode _
    cases hs
    cases control with
    | req n => cases accepted <;> exact h
    | credit n =>
      dsimp only [DirectRequest.nodeReceive]
      split <;> exact h
    | cancel => exact h
  case pageReceives sendOk =>
    split at hs <;> cases hs
    apply onFrame_ended
    exact h
  case started sendOk =>
    split at hs <;> cases hs
    apply callPullIfNeeded_ended
    exact h
  case pullSettled sendOk =>
    obtain ⟨-, rfl⟩ := of_guard hs
    split
    · apply callPullIfNeeded_ended
      exact h
    · exact h
  case read sendOk =>
    cases hs
    unfold readBody
    split
    · apply callPullIfNeeded_ended
      exact h
    split
    · exact h
    · apply callPullIfNeeded_ended
      exact h
  case cancelStream sendOk =>
    split at hs <;> cases hs
    exact cancelRequest_ended rfl sendOk
  case refuseStatus sendOk =>
    cases hs
    exact cancelRequest_ended (closeBody_ended rfl) sendOk
  case laneLost =>
    obtain ⟨-, rfl⟩ := of_guard hs
    exact onErr_ended h

theorem Accounted.step {e : DirectEvent} (h : Accounted s) (hok : Unhurried s e)
    (hs : s.step e = some t) : Accounted t := by
  rcases Bool.eq_false_or_eq_true s.directEnded with hended | ho
  · exact .ended (step_ended hended hs)
  have hout := h.outstanding ho
  unfold DirectRequest.outstanding at hout
  cases e <;> simp only [DirectRequest.step] at hs
  case take =>
    split at hs
    · cases hs
    obtain ⟨w, hw, rfl⟩ := Option.map_eq_some_iff.1 hs
    have htake := available_take hw
    refine h.samePage ho ⟨rfl, rfl, rfl, rfl, rfl, rfl, rfl, rfl, rfl, rfl⟩ (fun hd => ?_) (fun hd => ?_)
    · rcases h.announced ho hd with ⟨-, hzero, -, -⟩ | hlive
      · omega
      · exact .inr hlive
    have := hout hd
    show w.available + (s.taken + 1) + bodiesIn s.toPage + creditsIn s.toNode = s.credit
    omega
  case sendHead canHaveBody =>
    obtain ⟨-, rfl⟩ := of_guard hs
    refine h.samePage ho ⟨rfl, rfl, rfl, rfl, rfl, rfl, rfl, rfl, rfl, rfl⟩ (h.announced ho) (fun hd => ?_)
    have := hout hd
    show s.window.available + s.taken + bodiesIn (s.toPage ++ [.resHead canHaveBody]) + creditsIn s.toNode = s.credit
    rw [bodiesIn_append, show bodiesIn [DirectFrame.resHead canHaveBody] = 0 from rfl]
    omega
  case sendBody chunk =>
    split at hs <;> cases hs
    rename_i htaken
    refine h.samePage ho ⟨rfl, rfl, rfl, rfl, rfl, rfl, rfl, rfl, rfl, rfl⟩ (fun hd => ?_) (fun hd => ?_)
    · rcases h.announced ho hd with ⟨-, -, hzero, -⟩ | hlive
      · exact absurd hzero htaken
      · exact .inr hlive
    have := hout hd
    show s.window.available + (s.taken - 1) + bodiesIn (s.toPage ++ [.resBody chunk]) + creditsIn s.toNode = s.credit
    rw [bodiesIn_append, show bodiesIn [DirectFrame.resBody chunk] = 1 from rfl]
    omega
  case sendEnd | sendError =>
    obtain ⟨-, rfl⟩ := of_guard hs
    exact h.samePage ho ⟨rfl, rfl, rfl, rfl, rfl, rfl, rfl, rfl, rfl, rfl⟩ nofun nofun
  case nodeReceives accepted =>
    split at hs <;> cases hs
    rename_i hnode
    exact h.nodeReceive ho accepted hnode
  case pageReceives sendOk =>
    split at hs <;> cases hs
    rename_i frame toPage hpage
    refine h.onFrame ho hpage sendOk fun hone hbody => hok hone ?_
    rw [hpage]
    exact hbody
  case started sendOk =>
    split at hs <;> cases hs
    exact h.callPull ho _ sendOk
  case pullSettled sendOk =>
    obtain ⟨-, rfl⟩ := of_guard hs
    split
    · exact h.callPull ho _ sendOk
    · exact h.samePage ho ⟨rfl, rfl, rfl, rfl, rfl, rfl, rfl, rfl, rfl, rfl⟩ (h.announced ho) (h.outstanding ho)
  case read sendOk =>
    cases hs
    unfold readBody
    split
    · exact h.callPull ho _ sendOk
    split
    · exact h
    · exact h.callPull ho _ sendOk
  case cancelStream sendOk =>
    split at hs <;> cases hs
    exact .ended (cancelRequest_ended rfl sendOk)
  case refuseStatus sendOk =>
    cases hs
    exact .ended (cancelRequest_ended (closeBody_ended rfl) sendOk)
  case laneLost =>
    obtain ⟨-, rfl⟩ := of_guard hs
    refine .ended ?_
    show s.onErr.directEnded = true
    simp [onErr, (h.opened ho).attached]

/-- **A direct request that waits has credit out**: for every window, in every run of frames, credits and reads, as long as
the response goes on, the node may still spend a credit, or a body or a credit is on the lane; with a window of one, in the
runs that hand no chunk to a read that is pending. -/
theorem waiting_has_credit (initial : InitialCredits) (es : List DirectEvent) (s : DirectRequest)
    (hok : Steps.Meets step Unhurried (start initial) es) (h : run step (start initial) es = some s)
    (hwaiting : s.directWaiting = true) (hended : s.directEnded = false) (hdone : s.done = false) : 0 < s.outstanding := by
  have hacc : Accounted s :=
    Steps.run_inv_when step Unhurried Accounted (fun _ _ _ hi hok hs => hi.step hok hs) es _ s (.start initial) hok h
  have hw := hacc.waits hended
  have hheld := hacc.held hended
  rw [hacc.outstanding hended hdone]
  unfold held at hheld
  have hqueue : s.directQueue.length = 0 := by rw [hw.queue hwaiting]; rfl
  have hreleased := hw.released hwaiting
  have hpos := s.initial.pos
  have hone := hw.one hwaiting
  omega

/-- A request with a window of `credits`, its head received and a first read pending. -/
def readPending : List DirectEvent :=
  [.nodeReceives true, .started true, .pullSettled true, .sendHead true, .pageReceives true, .read true, .pullSettled true]

theorem waiting_has_credit_twoCredits :
    ∃ s, run step (start ⟨2, by decide, by decide⟩)
        (readPending ++ [.take, .sendBody [1], .pageReceives true]) = some s ∧
      s.directWaiting = true ∧ s.directReleased = 1 ∧ 0 < s.outstanding := by
  have hends : (run step (start ⟨2, by decide, by decide⟩)
      (readPending ++ [.take, .sendBody [1], .pageReceives true])).map
        (fun s => (s.directWaiting, s.directEnded, s.done, s.directReleased)) = some (true, false, false, 1) := by
    decide +kernel
  obtain ⟨s, hrun, hs⟩ := Option.map_eq_some_iff.1 hends
  simp only [Prod.mk.injEq] at hs
  obtain ⟨hwaiting, hended, hdone, hreleased⟩ := hs
  exact ⟨s, hrun, hwaiting, hreleased,
    waiting_has_credit _ _ s (by decide +kernel) hrun hwaiting hended hdone⟩

/-- **A window of one waits with nothing out** once a chunk is handed to a pending read: the `pull` inside `enqueue` finds no
credit to return, and the chunk's own credit is kept for a batch. -/
theorem window_of_one_stalls :
    (run step (start ⟨1, by decide, by decide⟩) (readPending ++ [.take, .sendBody [1], .pageReceives true])).map
      (fun s => (s.directWaiting, s.directEnded, s.done, s.directReleased, s.outstanding)) =
      some (true, false, false, 1, 0) := by
  decide +kernel

end DirectRequest
end YuriRtc
