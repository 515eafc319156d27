import YuriRtc.PortExchange
/-!
# PortReplacement — what a response loses when the page's port is replaced

The bridge drops what is still queued on a replaced port, and the page goes on on the new one as soon as it has made it, so a
response can be closed without a chunk of its middle (`replaced_port_loses_chunk`).  Where no chunk of a response that goes on
is queued on a port when it is replaced, and the page posts none without a port (`Undivided`), a stream that is closed has
delivered what the page posted (`replacement_keeps_responses`).
-/
namespace YuriRtc

open Steps (exists_run of_guard run)
open BridgeTrace (receives start)
open Function (update update_of_ne update_self)

open BridgeRequest (bodyChunk)

/-! ### One stream -/

def chunksOf (replies : List Reply) : List Bytes :=
  replies.flatMap fun reply =>
    match reply with
    | .body frame byteOffset byteLength => (bodyChunk frame byteOffset byteLength).toList
    | .head | .finish | .err => []

theorem chunksOf_append (a b : List Reply) : chunksOf (a ++ b) = chunksOf a ++ chunksOf b := List.flatMap_append

/-- **A stream has missed nothing**: what it received and what is under way is what was posted, and the end comes last. -/
structure Follows (entry : BridgeEntry) (posted : List Bytes) (underway : List Reply) (serving : Prop) : Prop where
  sound : entry.trace.Sound
  whole : entry.isPending = true → entry.trace.received ++ chunksOf underway = posted
  unfinished : entry.isPending = true → serving → .finish ∉ underway
  last : entry.isPending = true → ∀ before after, underway = before ++ .finish :: after → after = []
  ended : entry.trace.request.ended = true → entry.trace.received = posted ∧ ¬ serving

variable {e : BridgeEvent}

namespace BridgeRequest

structure Stays (b b' : BridgeRequest) : Prop where
  ended : b'.ended = b.ended
  pending : b'.pending = true → b.pending = true

theorem Stays.refl (b : BridgeRequest) : Stays b b := ⟨rfl, id⟩

theorem Stays.trans {a b c : BridgeRequest} (h : Stays a b) (h' : Stays b c) : Stays a c :=
  ⟨h'.ended.trans h.ended, fun hp => h.pending (h'.pending hp)⟩

section

variable (b : BridgeRequest)
include b

theorem stays_refuse (e : BridgeError) : Stays b (b.refuse e) := by
  obtain ⟨outbox, hr⟩ := refuse_eq b e
  rw [hr]
  exact ⟨rfl, nofun⟩

theorem stays_refillCredit (force flushGrowth : Bool) : Stays b (b.refillCredit force flushGrowth) := by
  obtain ⟨hr, -⟩ | ⟨-, hp, n, -, -, hr⟩ | ⟨-, hp, hr⟩ := b.refillCredit_cases force flushGrowth <;> rw [hr]
  · exact .refl b
  · exact ⟨rfl, id⟩
  · exact ⟨rfl, nofun⟩

theorem stays_recordAndRefill (now later : Int) : Stays b (b.recordAndRefill now later) := by
  refine Stays.trans ?_ (stays_refillCredit _ _ _)
  obtain ⟨_, _, _, hr | ⟨-, hr⟩ | ⟨-, -, hr⟩⟩ := b.recordConsumption_cases now later <;> rw [hr] <;> exact ⟨rfl, id⟩

theorem stays_closeIfDrained : Stays b b.closeIfDrained := by
  obtain hr | ⟨-, -, hr⟩ := b.closeIfDrained_cases <;> rw [hr]
  · exact .refl b
  · exact ⟨rfl, id⟩

theorem stays_enqueue (chunk : Bytes) (caller : BridgeCall) : Stays b (b.enqueue chunk caller) := by
  unfold enqueue
  split <;> exact ⟨rfl, id⟩

theorem stays_onPull : Stays b b.onPull := by
  unfold onPull
  split
  · exact ⟨(stays_enqueue _ _ _).ended, (stays_enqueue _ _ _).pending⟩
  split
  · exact stays_closeIfDrained b
  · exact ⟨(stays_refillCredit _ _ _).ended, (stays_refillCredit _ _ _).pending⟩

theorem stays_onChunk (chunk : Bytes) : Stays b (b.onChunk chunk) := by
  unfold onChunk
  split
  · exact stays_refuse _ _
  split
  · exact stays_refuse _ _
  split
  · exact ⟨(stays_enqueue _ _ _).ended, (stays_enqueue _ _ _).pending⟩
  split
  · exact ⟨(stays_refuse _ _).ended, (stays_refuse _ _).pending⟩
  · exact ⟨rfl, id⟩

theorem stays_resume (now later : Int) (call : BridgeCall) : Stays b (b.resume now later call) := by
  cases call with
  | onChunk => exact stays_recordAndRefill b now later
  | onPull =>
    simp only [resume]
    split
    · exact stays_closeIfDrained b
    · exact (stays_recordAndRefill b now later).trans (stays_closeIfDrained _)

theorem stays_detach : Stays b b.detach := by
  obtain ⟨outbox, hr⟩ := postForRequest_getD b .cancel
  unfold detach
  rw [hr]
  exact ⟨rfl, nofun⟩

theorem stays_cancelStream : Stays b b.cancelStream := by
  unfold cancelStream
  split
  · obtain ⟨outbox, hr⟩ := postForRequest_getD { b with queued := [], stream := .cancelled, pending := false } .cancel
    rw [hr]
    exact ⟨rfl, nofun⟩
  · exact ⟨rfl, id⟩

theorem pending_onEnd : b.onEnd.pending = b.pending := by
  unfold onEnd closeIfDrained
  split <;> rfl

end

theorem step_stays {b b' : BridgeRequest} (hs : b.step e = some b') (he : e ≠ .finish) : Stays b b' := by
  cases e <;> simp only [step] at hs
  case body frame byteOffset byteLength =>
    obtain ⟨-, ⟨-, rfl⟩ | ⟨-, rfl⟩⟩ := onPending_cases hs
    · unfold onBody
      split
      · exact ⟨rfl, fun h => (by cases h)⟩
      · exact stays_onChunk b _
    · exact .refl _
  case finish => exact absurd rfl he
  case err =>
    obtain ⟨-, ⟨-, rfl⟩ | ⟨-, rfl⟩⟩ := onPending_cases hs
    · exact ⟨rfl, fun h => (by cases h)⟩
    · exact .refl _
  case down =>
    obtain ⟨-, ⟨-, rfl⟩ | ⟨-, rfl⟩⟩ := onPending_cases hs
    · exact stays_detach b
    · exact .refl _
  case pull =>
    obtain ⟨-, rfl⟩ := of_guard hs
    exact stays_onPull b
  case enqueueReturns now later =>
    split at hs <;> cases hs
    exact ⟨(stays_resume _ now later _).ended, (stays_resume _ now later _).pending⟩
  case cancel =>
    obtain ⟨-, rfl⟩ := of_guard hs
    exact stays_cancelStream b
  case abort =>
    obtain ⟨-, rfl⟩ := of_guard hs
    unfold onAbort
    split
    · exact stays_refuse b _
    · exact .refl b
  case portBroken =>
    obtain ⟨-, rfl⟩ := of_guard hs
    exact ⟨rfl, id⟩

end BridgeRequest

variable {entry : BridgeEntry}

namespace BridgeEntry

theorem step_eq {entry entry' : BridgeEntry} (hs : entry.step e = some entry') :
    entry.trace.request.step e = some entry'.trace.request ∧
      entry'.trace.received = entry.trace.received ++ receives entry.trace.request e ∧
      (entry.trace.Sound → entry'.trace.Sound) := by
  obtain ⟨trace, htrace, rfl⟩ := Option.map_eq_some_iff.1 hs
  refine ⟨?_, ?_, fun h => h.step htrace⟩ <;> obtain ⟨b, hb, rfl⟩ := Option.map_eq_some_iff.1 htrace
  · exact hb
  · rfl

theorem fail_spec (hidle : entry.trace.request.calls = []) :
    entry.fail.isPending = false ∧ entry.fail.trace.request.ended = entry.trace.request.ended ∧
      entry.fail.trace.received = entry.trace.received ∧ (entry.trace.Sound → entry.fail.trace.Sound) := by
  have hstep : ∃ b, entry.trace.request.step .down = some b ∧ b.pending = false := by
    simp only [BridgeRequest.step, BridgeRequest.onPending, hidle, ne_eq, not_true_eq_false, if_false]
    split
    · exact ⟨_, rfl, rfl⟩
    · rename_i hpending
      exact ⟨_, rfl, by simpa using hpending⟩
  obtain ⟨b, hb, hpending⟩ := hstep
  have hs : entry.step .down = some { entry with trace := ⟨b, entry.trace.received ++ []⟩ } := by
    unfold BridgeEntry.step BridgeTrace.step
    rw [hb]
    rfl
  have hfail : entry.fail = { entry with trace := ⟨b, entry.trace.received ++ []⟩ } := by
    unfold BridgeEntry.fail
    rw [hs]
    rfl
  rw [hfail]
  exact ⟨hpending, (BridgeRequest.step_stays hb fun h => (by cases h)).ended, List.append_nil _, (step_eq hs).2.2⟩

end BridgeEntry

namespace Follows

variable {entry entry' : BridgeEntry} {posted : List Bytes} {underway : List Reply} {serving : Prop}

theorem of_not_pending (hsound : entry.trace.Sound) (hpending : entry.isPending = false)
    (hended : entry.trace.request.ended = true → entry.trace.received = posted ∧ ¬ serving) :
    Follows entry posted underway serving := by
  refine ⟨hsound, fun h => ?_, fun h => ?_, fun h => ?_, hended⟩ <;> exact absurd (hpending.symm.trans h) Bool.false_ne_true

theorem fail (h : Follows entry posted underway serving) (hidle : entry.trace.request.calls = []) (underway' : List Reply) :
    Follows entry.fail posted underway' serving := by
  obtain ⟨hpending, hended, hreceived, hsound⟩ := BridgeEntry.fail_spec hidle
  refine of_not_pending (hsound h.sound) hpending fun hend => ?_
  rw [hreceived]
  exact h.ended (hended ▸ hend)

theorem stays (h : Follows entry posted underway serving) (hs : entry.step e = some entry')
    (he : e ≠ .finish) (hnone : receives entry.trace.request e = []) : Follows entry' posted underway serving := by
  obtain ⟨hb, hreceived, hsound⟩ := BridgeEntry.step_eq hs
  obtain ⟨hended, hpending⟩ := BridgeRequest.step_stays hb he
  rw [hnone, List.append_nil] at hreceived
  refine ⟨hsound h.sound, fun hp => ?_, fun hp => h.unfinished (hpending hp), fun hp => h.last (hpending hp), fun hend => ?_⟩
  · rw [hreceived]
    exact h.whole (hpending hp)
  · rw [hreceived]
    exact h.ended (hended ▸ hend)

theorem drop (before : List Reply) (h : Follows entry posted (before ++ underway) serving)
    (hnone : entry.isPending = true → chunksOf before = []) : Follows entry posted underway serving := by
  refine ⟨h.sound, fun hp => ?_, fun hp hserving hmem => ?_, fun hp a b heq => ?_, h.ended⟩
  · have hwhole := h.whole hp
    grind [chunksOf_append]
  · exact h.unfinished hp hserving (List.mem_append_right _ hmem)
  · exact h.last hp (before ++ a) b (by rw [heq, List.append_assoc])

theorem head (h : Follows entry posted (.head :: underway) serving) (headReceived : Bool) :
    Follows { entry with headReceived := headReceived } posted underway serving := by
  have hrest : Follows entry posted underway serving := drop [.head] h fun _ => rfl
  exact { hrest with }

theorem body {frame : Bytes} {byteOffset byteLength : Int}
    (h : Follows entry posted (.body frame byteOffset byteLength :: underway) serving)
    (hs : entry.step (.body frame byteOffset byteLength) = some entry') : Follows entry' posted underway serving := by
  obtain ⟨hb, hreceived, hsound⟩ := BridgeEntry.step_eq hs
  obtain ⟨hended, hpending⟩ := BridgeRequest.step_stays hb nofun
  refine ⟨hsound h.sound, fun hp => ?_, fun hp hserving hmem => ?_, fun hp a b heq => ?_, fun hend => ?_⟩
  · have hold : entry.trace.request.pending = true := hpending hp
    rw [hreceived, receives, if_pos hold, List.append_assoc]
    exact h.whole (hpending hp)
  · exact h.unfinished (hpending hp) hserving (List.mem_cons_of_mem _ hmem)
  · exact h.last (hpending hp) (.body frame byteOffset byteLength :: a) b (by rw [heq]; rfl)
  · -- an ended stream is not pending and receives nothing
    have hold : entry.trace.request.pending = false := Bool.eq_false_iff.2 fun hp => by
      rw [hended, (h.sound.1.pending hp).2] at hend
      cases hend
    rw [hreceived, receives, if_neg (by rw [hold]; exact Bool.false_ne_true), List.append_nil]
    exact h.ended (hended ▸ hend)

theorem finish (h : Follows entry posted (.finish :: underway) serving) (hs : entry.step .finish = some entry') :
    Follows entry' posted underway serving := by
  obtain ⟨hb, hreceived, hsound⟩ := BridgeEntry.step_eq hs
  rw [show receives entry.trace.request .finish = [] from rfl, List.append_nil] at hreceived
  simp only [BridgeRequest.step] at hb
  obtain ⟨-, ⟨hp, hb⟩ | ⟨hp, hb⟩⟩ := BridgeRequest.onPending_cases hb
  · have hrest : underway = [] := h.last hp [] underway rfl
    have hwhole := h.whole hp
    rw [hrest, show chunksOf [Reply.finish] = [] from rfl, List.append_nil] at hwhole
    refine of_not_pending (hsound h.sound) ?_ fun _ => ⟨hreceived.trans hwhole, fun hserving => ?_⟩
    · rw [BridgeEntry.isPending, hb, BridgeRequest.pending_onEnd]
    · exact h.unfinished hp hserving List.mem_cons_self
  · refine of_not_pending (hsound h.sound) ?_ fun hend => ?_
    · rw [BridgeEntry.isPending, hb]
      exact hp
    · rw [hreceived]
      exact h.ended (hb ▸ hend)

theorem err (h : Follows entry posted (.err :: underway) serving) (hs : entry.step .err = some entry') :
    Follows entry' posted underway serving :=
  (drop [.err] h fun _ => rfl).stays hs nofun rfl

section

variable (h : Follows entry posted underway serving)
include h

theorem append (hserving : serving) (replies : List Reply)
    (hfinish : .finish ∉ replies) : Follows entry (posted ++ chunksOf replies) (underway ++ replies) serving := by
  have hnone : entry.isPending = true → .finish ∉ underway ++ replies := fun hp hmem =>
    (List.mem_append.1 hmem).elim (h.unfinished hp hserving) hfinish
  refine ⟨h.sound, fun hp => ?_, fun hp _ => hnone hp, fun hp a b heq => ?_, fun hend => absurd hserving (h.ended hend).2⟩
  · rw [chunksOf_append, ← List.append_assoc, h.whole hp]
  · exact absurd (heq ▸ List.mem_append_right a List.mem_cons_self) (hnone hp)

theorem appendFinish (hserving : serving) :
    Follows entry posted (underway ++ [.finish]) False := by
  refine ⟨h.sound, fun hp => ?_, fun _ => False.elim, fun hp a b heq => ?_, fun hend => absurd hserving (h.ended hend).2⟩
  · rw [chunksOf_append, show chunksOf [Reply.finish] = [] from rfl, List.append_nil, h.whole hp]
  rcases List.eq_nil_or_concat b with hnil | ⟨front, final, rfl⟩
  · exact hnil
  rw [List.concat_eq_append, ← List.cons_append, ← List.append_assoc] at heq
  have hmem : Reply.finish ∈ underway :=
    (List.append_inj' heq rfl).1 ▸ List.mem_append_right a List.mem_cons_self
  exact absurd hmem (h.unfinished hp hserving)

theorem stops {serving' : Prop} (hstops : serving' → serving) :
    Follows entry posted underway serving' :=
  ⟨h.sound, h.whole, fun hp hs => h.unfinished hp (hstops hs), h.last, fun hend =>
    ⟨(h.ended hend).1, fun hs => (h.ended hend).2 (hstops hs)⟩⟩

theorem congr {underway' : List Reply}
    (heq : entry.isPending = true → underway' = underway) : Follows entry posted underway' serving :=
  ⟨h.sound, fun hp => (heq hp).symm ▸ h.whole hp, fun hp => (heq hp).symm ▸ h.unfinished hp,
    fun hp => (heq hp).symm ▸ h.last hp, h.ended⟩

end

end Follows

/-! ### The ports -/

def PortMessage.replyTo (id : Nat) : PortMessage → Option Reply
  | .reply other answer => if other = id then some answer else none
  | .ready | .down => none

open PortMessage (replyTo)

def repliesOn (queues : Nat → List PortMessage) (path : List Nat) (id : Nat) : List Reply :=
  path.flatMap fun p => (queues p).filterMap (replyTo id)

theorem repliesOn_cons (queues : Nat → List PortMessage) (p : Nat) (path : List Nat) (id : Nat) :
    repliesOn queues (p :: path) id = (queues p).filterMap (replyTo id) ++ repliesOn queues path id :=
  List.flatMap_cons

theorem repliesOn_concat (queues : Nat → List PortMessage) (path : List Nat) (p : Nat) (id : Nat) :
    repliesOn queues (path ++ [p]) id = repliesOn queues path id ++ (queues p).filterMap (replyTo id) := by
  grind [repliesOn]

theorem repliesOn_update (queues : Nat → List PortMessage) {p : Nat} {path : List Nat} (hp : p ∉ path)
    (messages : List PortMessage) (id : Nat) :
    repliesOn (update queues p messages) path id = repliesOn queues path id := by
  refine List.flatMap_congr fun q hq => ?_
  grind

namespace PortExchange

variable {id p : Nat} {message : PortMessage} {rest : List PortMessage}

def path (s : PortExchange) : List Nat := s.port.toList ++ s.attaching

def underway (s : PortExchange) (id : Nat) : List Reply := repliesOn s.queues s.path id

def Open (s : PortExchange) (id : Nat) : Prop := id ∉ s.served ∨ id ∈ s.serving

def spares (s : PortExchange) : PortMessage → Bool
  | .reply id (.body _ _ _) => !s.continues id
  | .reply _ .head | .reply _ .finish | .reply _ .err | .ready | .down => true

/-- **No chunk of a response that goes on is left on a port that is replaced, and none is posted without a port.** -/
def Undivided (s : PortExchange) : PortEvent → Prop
  | .attach => ∀ p ∈ s.port, ∀ message ∈ s.queues p, s.spares message = true
  | .post id (.body _ _ _) => s.pagePort = none → s.isPending id = false
  | _ => True

instance (s : PortExchange) (e : PortEvent) : Decidable (s.Undivided e) := by
  unfold Undivided
  split <;> infer_instance

structure Intact (s : PortExchange) : Prop where
  sorted : s.path.Pairwise (· < ·)
  below : ∀ p ∈ s.path, p < s.created
  fresh : ∀ p, s.created ≤ p → s.queues p = []
  made : ∀ p, s.pagePort = some p → p < s.created
  page : ∀ p, s.pagePort = some p → s.path = [] ∨ s.path.getLast? = some p
  carried : ∀ id, s.isPending id = true → s.port ≠ none
  serving : ∀ id ∈ s.serving, id ∈ s.served
  asked : ∀ id ∈ s.served, id < s.nextId
  known : ∀ id entry, s.entries id = some entry → id < s.nextId
  unserved : ∀ id, id ∉ s.served → s.posted id = [] ∧ ∀ p, (s.queues p).filterMap (replyTo id) = []
  follows : ∀ id entry, s.entries id = some entry → Follows entry (s.posted id) (s.underway id) (s.Open id)

variable {s : PortExchange}

theorem Intact.path_ne_nil (h : Intact s) (hp : s.isPending id = true) : s.path ≠ [] := by
  obtain ⟨p, hport⟩ := Option.ne_none_iff_exists'.1 (h.carried id hp)
  grind [path]

theorem isPending_of_entry (hentry : s.entries id = some entry)
    (hp : entry.isPending = true) : s.isPending id = true := by
  rw [isPending, hentry]
  exact hp

theorem Intact.underway_sends (h : Intact s) (messages : List PortMessage) (hp : s.isPending id = true) :
    (s.sends messages).underway id = s.underway id ++
      (if s.pagePort.isSome then messages.filterMap (replyTo id) else []) := by
  unfold sends
  split
  · rename_i p hport
    have hlast := (h.page p hport).resolve_left (h.path_ne_nil hp)
    obtain ⟨front, hpath⟩ := List.getLast?_eq_some_iff.1 hlast
    have hnot : p ∉ front := fun hmem => by
      have hsorted := h.sorted
      rw [hpath] at hsorted
      exact lt_irrefl p ((List.pairwise_append.1 hsorted).2.2 p hmem p (List.mem_singleton_self p))
    show repliesOn (update s.queues p (s.queues p ++ messages)) s.path id = repliesOn s.queues s.path id ++ _
    simp_all [repliesOn_concat, repliesOn_update, update_self, List.filterMap_append, Option.isSome_some]
  · simp_all

theorem Intact.sends_spec (h : Intact s) (messages : List PortMessage) :
    ∃ queues, s.sends messages = { s with queues := queues } ∧ (∀ p, s.created ≤ p → queues p = []) ∧
      ∀ id, messages.filterMap (replyTo id) = [] →
        (∀ p, (s.queues p).filterMap (replyTo id) = []) →
        ∀ p, (queues p).filterMap (replyTo id) = [] := by
  unfold sends
  split
  · rename_i p hport
    refine ⟨_, rfl, fun q hq => ?_, fun id hmessages hold q => ?_⟩
    · rw [update_of_ne (Nat.ne_of_gt ((h.made p hport).trans_le hq))]
      exact h.fresh q hq
    · grind
  · exact ⟨s.queues, rfl, h.fresh, fun _ _ hold => hold⟩

theorem Intact.posts (h : Intact s) {messages : List PortMessage} {posted : Nat → List Bytes} {serving : List Nat}
    (hserving : ∀ id ∈ serving, id ∈ s.serving)
    (hunserved : ∀ id, id ∉ s.served → posted id = [] ∧ messages.filterMap (replyTo id) = [])
    (hfollows : ∀ id entry, s.entries id = some entry →
      Follows entry (s.posted id) (s.underway id) (s.Open id) →
      Follows entry (posted id) (s.underway id ++
        (if s.pagePort.isSome then messages.filterMap (replyTo id) else []))
        (id ∉ s.served ∨ id ∈ serving)) :
    Intact { s.sends messages with posted := posted, serving := serving } := by
  have hunderway : ∀ id, s.isPending id = true → (s.sends messages).underway id = s.underway id ++
      (if s.pagePort.isSome then messages.filterMap (replyTo id) else []) := fun _ hp =>
    h.underway_sends messages hp
  obtain ⟨queues, heq, hfresh, hnone⟩ := h.sends_spec messages
  rw [heq] at hunderway ⊢
  refine { h with
      fresh := hfresh, serving := fun id hid => h.serving id (hserving id hid),
      unserved := fun id hid => ⟨(hunserved id hid).1, hnone id (hunserved id hid).2 (h.unserved id hid).2⟩,
      follows := fun id entry hentry => ?_ }
  refine (hfollows id entry hentry (h.follows id entry hentry)).congr fun hp => ?_
  exact hunderway id (isPending_of_entry hentry hp)

theorem replyTo_self (id : Nat) (reply : Reply) : [PortMessage.reply id reply].filterMap (replyTo id) = [reply] := by
  simp [replyTo]

theorem replyTo_ne {other : Nat} (hne : other ≠ id) (reply : Reply) :
    [PortMessage.reply id reply].filterMap (replyTo other) = [] := by
  simp [replyTo, hne.symm]

theorem Intact.postsReply (h : Intact s) (hid : id ∈ s.serving) {reply : Reply} (hreply : reply ≠ .finish)
    (hport : s.pagePort = none → chunksOf [reply] ≠ [] → s.isPending id = false) (serving : List Nat)
    (hserving : ∀ id ∈ serving, id ∈ s.serving) :
    Intact { s.sends [.reply id reply] with
      posted := update s.posted id (s.posted id ++ chunksOf [reply]), serving := serving } := by
  have hopen : ∀ other, other ∉ s.served ∨ other ∈ serving → s.Open other := fun other ho => ho.imp_right (hserving other)
  refine h.posts hserving (fun other hother => ?_) fun other entry hentry hf => ?_
  · have hne : other ≠ id := fun heq => hother (heq ▸ h.serving id hid)
    rw [update_of_ne hne]
    exact ⟨(h.unserved other hother).1, replyTo_ne hne reply⟩
  by_cases hother : other = id
  · subst hother
    rw [update_self, replyTo_self]
    split
    · exact (hf.append (.inr hid) [reply] (by simpa using hreply.symm)).stops (hopen other)
    rename_i hnone
    rw [List.append_nil]
    have hpage : s.pagePort = none := by simpa using hnone
    by_cases hchunks : chunksOf [reply] = []
    · rw [hchunks, List.append_nil]
      exact hf.stops (hopen other)
    have hpending := hport hpage hchunks
    rw [isPending, hentry] at hpending
    exact .of_not_pending hf.sound hpending fun hend => absurd (.inr hid) (hf.ended hend).2
  · rw [update_of_ne hother, replyTo_ne hother, ite_self, List.append_nil]
    exact hf.stops (hopen other)

theorem sends_same (s : PortExchange) (messages : List PortMessage) :
    { s.sends messages with posted := s.posted, serving := s.serving } = s.sends messages := by
  unfold sends
  split <;> rfl

theorem sends_finished (s : PortExchange) (messages : List PortMessage) (id : Nat) :
    { s.sends messages with posted := s.posted, serving := s.serving.filter (· ≠ id) } = (s.sends messages).finished id := by
  unfold sends
  split <;> rfl

theorem posted_same (s : PortExchange) (id : Nat) {reply : Reply} (hnone : chunksOf [reply] = []) :
    update s.posted id (s.posted id ++ chunksOf [reply]) = s.posted := by simp_all

section

variable (h : Intact s) (hid : id ∈ s.serving)
include h hid

theorem Intact.postsHead : Intact (s.sends [.reply id .head]) := by
  have hposts := h.postsReply hid (show Reply.head ≠ .finish from nofun) (fun _ hne => absurd rfl hne) s.serving
    fun _ hmem => hmem
  rwa [posted_same s id rfl, sends_same] at hposts

theorem Intact.postsErr :
    Intact ((s.sends [.reply id .err]).finished id) := by
  have hposts := h.postsReply hid (show Reply.err ≠ .finish from nofun) (fun _ hne => absurd rfl hne)
    (s.serving.filter (· ≠ id)) fun _ hmem => List.mem_of_mem_filter hmem
  rwa [posted_same s id rfl, sends_finished] at hposts

theorem Intact.postsBody {frame : Bytes} {byteOffset byteLength : Int}
    (hport : s.pagePort = none → s.isPending id = false) :
    Intact { s.sends [.reply id (.body frame byteOffset byteLength)] with
      posted := update s.posted id (s.posted id ++ (bodyChunk frame byteOffset byteLength).toList) } := by
  have hposts := h.postsReply hid (show Reply.body frame byteOffset byteLength ≠ .finish from nofun) (fun hp _ => hport hp)
    s.serving fun _ hmem => hmem
  have hchunk : chunksOf [Reply.body frame byteOffset byteLength] = (bodyChunk frame byteOffset byteLength).toList :=
    List.flatMap_singleton ..
  have hserving : (s.sends [.reply id (.body frame byteOffset byteLength)]).serving = s.serving := by
    unfold sends
    split <;> rfl
  simp_all

theorem Intact.postsFinish :
    Intact ((s.sends [.reply id .finish]).finished id) := by
  have hposts : Intact { s.sends [.reply id .finish] with posted := s.posted, serving := s.serving.filter (· ≠ id) } := by
    refine h.posts (fun _ hmem => List.mem_of_mem_filter hmem) (fun other hother => ?_) fun other entry hentry hf => ?_
    · have hne : other ≠ id := fun heq => hother (heq ▸ h.serving id hid)
      exact ⟨(h.unserved other hother).1, replyTo_ne hne .finish⟩
    by_cases hother : other = id
    · subst hother
      have hgone : ¬ (other ∉ s.served ∨ other ∈ s.serving.filter (· ≠ other)) := fun ho =>
        ho.elim (fun hnot => hnot (h.serving other hid)) fun hmem => by simpa using (List.mem_filter.1 hmem).2
      rw [replyTo_self]
      split
      · exact (hf.appendFinish (.inr hid)).stops hgone
      · rw [List.append_nil]
        exact hf.stops fun hmem => absurd hmem hgone
    · rw [replyTo_ne hother, ite_self, List.append_nil]
      exact hf.stops (.imp_right List.mem_of_mem_filter)
  rwa [sends_finished] at hposts

end

theorem Intact.finished (h : Intact s) (id : Nat) : Intact (s.finished id) :=
  { h with
      serving := fun other hother => h.serving other (List.mem_of_mem_filter hother),
      follows := fun other entry hentry => (h.follows other entry hentry).stops (.imp_right List.mem_of_mem_filter) }

theorem Intact.retires (h : Intact s) :
    Intact { s.sends (s.serving.map fun id => .reply id .err) with serving := [] } := by
  have hall : ∀ id, ∀ reply ∈ (s.serving.map fun id => PortMessage.reply id .err).filterMap (replyTo id),
      reply = .err ∧ id ∈ s.serving := by simp [replyTo]
  have hnone : ∀ id, id ∉ s.serving →
      (s.serving.map fun id => PortMessage.reply id .err).filterMap (replyTo id) = [] := fun id hid =>
    List.eq_nil_iff_forall_not_mem.2 fun reply hreply => hid (hall id reply hreply).2
  have hopen : ∀ id, id ∉ s.served ∨ id ∈ [] → s.Open id := fun id ho => ho.imp_right nofun
  have hposted : (s.sends (s.serving.map fun id => .reply id .err)).posted = s.posted := by
    unfold sends
    split <;> rfl
  have hposts : Intact { s.sends (s.serving.map fun id => .reply id .err) with posted := s.posted, serving := [] } := by
    refine h.posts nofun (fun id hid => ⟨(h.unserved id hid).1, hnone id fun hmem => hid (h.serving id hmem)⟩)
      fun id entry hentry hf => ?_
    by_cases hid : id ∈ s.serving
    · split
      · have hchunks : chunksOf ((s.serving.map fun id => PortMessage.reply id .err).filterMap (replyTo id)) =
            [] := List.flatMap_eq_nil_iff.2 fun reply hreply => by rw [(hall id reply hreply).1]
        have happend := hf.append (.inr hid) _ fun hfinish => by cases (hall id _ hfinish).1
        rw [hchunks, List.append_nil] at happend
        exact happend.stops (hopen id)
      · rw [List.append_nil]
        exact hf.stops (hopen id)
    · rw [hnone id hid, ite_self, List.append_nil]
      exact hf.stops (hopen id)
  simp_all

theorem Intact.sends (h : Intact s) (hmessage : ∀ id, message.replyTo id = none) :
    Intact (s.sends [message]) := by
  have hnone : ∀ id, [message].filterMap (replyTo id) = [] := fun id => by simp [hmessage id]
  have hposts : Intact { s.sends [message] with posted := s.posted, serving := s.serving } := by
    refine h.posts (fun _ hmem => hmem) (fun id hid => ⟨(h.unserved id hid).1, hnone id⟩) fun id entry hentry hf => ?_
    rw [hnone, ite_self, List.append_nil]
    exact hf
  rwa [sends_same] at hposts

/-! ### The bridge -/

theorem calls_of_idle (h : Intact s) (hidle : s.idle = true)
    (hentry : s.entries id = some entry) : entry.trace.request.calls = [] := by
  have hall := List.all_eq_true.1 hidle id (List.mem_range.2 (h.known id entry hentry))
  simp_all

theorem Intact.setEntry (h : Intact s) {entry entry' : BridgeEntry} (hentry : s.entries id = some entry)
    (hpending : entry'.isPending = true → entry.isPending = true)
    (hfollows : Follows entry' (s.posted id) (s.underway id) (s.Open id)) : Intact (s.setEntry id entry') := by
  refine { h with
      carried := fun other hp => ?_, known := fun other found hfound => ?_, follows := fun other found hfound => ?_ }
  · refine h.carried other ?_
    by_cases hother : other = id
    · subst hother
      rw [isPending, show (s.setEntry other entry').entries other = some entry' from update_self _ _ _] at hp
      exact isPending_of_entry hentry (hpending hp)
    · rwa [isPending, show (s.setEntry id entry').entries other = s.entries other from update_of_ne hother _ _] at hp
  · by_cases hother : other = id
    · exact hother ▸ h.known id entry hentry
    · exact h.known other found ((update_of_ne hother _ _).symm.trans hfound)
  by_cases hother : other = id
  · subst hother
    rw [show (s.setEntry other entry').entries other = some entry' from update_self _ _ _] at hfound
    cases hfound
    exact hfollows
  · exact h.follows other found ((update_of_ne hother _ _).symm.trans hfound)

theorem Intact.detached (h : Intact s) (hidle : s.idle = true) : Intact s.detached := by
  have hnone : ∀ id, s.detached.isPending id = false := by
    intro id
    show ((s.entries id).map BridgeEntry.fail).any BridgeEntry.isPending = false
    cases hentry : s.entries id with
    | none => rfl
    | some entry => exact (BridgeEntry.fail_spec (calls_of_idle h hidle hentry)).1
  have hpath : s.detached.path = s.attaching := List.nil_append _
  have hold : s.path = s.port.toList ++ s.attaching := rfl
  refine ⟨?_, fun p hp => h.below p ?_, h.fresh, h.made, fun p hp => ?_, fun id hp => ?_, h.serving, h.asked,
    fun id found hfound => ?_, h.unserved, fun id found hfound => ?_⟩
  · rw [hpath]
    exact (List.pairwise_append.1 h.sorted).2.1
  · simp_all
  · rw [hpath]
    by_cases hnil : s.attaching = []
    · exact .inl hnil
    · refine .inr (((h.page p hp).resolve_left fun heq => hnil (List.append_eq_nil_iff.1 heq).2) ▸ ?_)
      rw [hold, List.getLast?_append_of_ne_nil _ hnil]
  · rw [hnone id] at hp
    cases hp
  · obtain ⟨entry, hentry, -⟩ := Option.map_eq_some_iff.1 hfound
    exact h.known id entry hentry
  · obtain ⟨entry, hentry, rfl⟩ := Option.map_eq_some_iff.1 hfound
    exact (h.follows id entry hentry).fail (calls_of_idle h hidle hentry) _

theorem chunks_spared (hspares : ∀ p ∈ s.port, ∀ message ∈ s.queues p, s.spares message = true)
    (hport : s.port = some p) (hcontinues : s.continues id = true) :
    chunksOf ((s.queues p).filterMap (replyTo id)) = [] := by
  refine List.flatMap_eq_nil_iff.2 fun reply hreply => ?_
  obtain ⟨message, hmessage, hto⟩ := List.mem_filterMap.1 hreply
  cases message with
  | reply other answer =>
    simp only [replyTo] at hto
    split at hto
    · grind [spares]
    · cases hto
  | ready => cases hto
  | down => cases hto

section

variable (h : Intact s)
include h

theorem Intact.attachPort (hidle : s.idle = true)
    (hspares : ∀ p ∈ s.port, ∀ message ∈ s.queues p, s.spares message = true) {attaching : List Nat}
    (hattaching : s.attaching = p :: attaching) : Intact ({ s with attaching := attaching }.attachPort p) := by
  have hold : s.path = s.port.toList ++ (p :: attaching) := by rw [path, hattaching]
  have hpath : ({ s with attaching := attaching }.attachPort p).path = p :: attaching := rfl
  have hunderway : ∀ id, s.underway id = repliesOn s.queues s.port.toList id ++ repliesOn s.queues (p :: attaching) id :=
    fun id => by rw [underway, hold, repliesOn, repliesOn, repliesOn, List.flatMap_append]
  refine ⟨?_, fun q hq => h.below q ?_, h.fresh, h.made, fun q hq => ?_, fun _ _ => Option.some_ne_none _, h.serving, h.asked,
    fun id found hfound => ?_, h.unserved, fun id found hfound => ?_⟩
  · rw [hpath]
    have hsorted := h.sorted
    grind
  · simp_all
  · rw [hpath]
    refine .inr (((h.page q hq).resolve_left fun heq => ?_) ▸ ?_)
    · simp_all
    · grind
  · obtain ⟨entry, hentry, -⟩ := Option.map_eq_some_iff.1 hfound
    exact h.known id entry hentry
  obtain ⟨entry, hentry, rfl⟩ := Option.map_eq_some_iff.1 hfound
  have hf := h.follows id entry hentry
  split
  · rename_i hhead
    rw [hunderway] at hf
    refine hf.drop _ fun hp => ?_
    cases hport : s.port with
    | none => rfl
    | some q =>
      have hcontinues : s.continues id = true := by simp_all [continues]
      rw [Option.toList_some, repliesOn_cons, show repliesOn s.queues [] id = [] from rfl, List.append_nil]
      exact chunks_spared hspares hport hcontinues
  · exact hf.fail (calls_of_idle h hidle hentry) _

theorem Intact.popped (hqueue : s.queues p = message :: rest) :
    (∀ q, s.created ≤ q → update s.queues p rest q = []) ∧
      ∀ id, id ∉ s.served → ∀ q, (update s.queues p rest q).filterMap (replyTo id) = [] := by
  refine ⟨fun q hq => ?_, fun id hid q => ?_⟩
  · have hne : q ≠ p := fun heq => by
      rw [heq] at hq
      cases hqueue.symm.trans (h.fresh p hq)
    rw [update_of_ne hne]
    exact h.fresh q hq
  · by_cases hqp : q = p
    · have hold := (h.unserved id hid).2 p
      simp_all
    · rw [update_of_ne hqp]
      exact (h.unserved id hid).2 q

theorem Intact.late (hqueue : s.queues p = message :: rest) (hp : p ∉ s.path) :
    Intact { s with queues := update s.queues p rest } := by
  obtain ⟨hfresh, hunserved⟩ := h.popped hqueue
  refine { h with
      fresh := hfresh, unserved := fun id hid => ⟨(h.unserved id hid).1, hunserved id hid⟩,
      follows := fun id entry hentry => ?_ }
  refine (h.follows id entry hentry).congr fun _ => ?_
  exact repliesOn_update s.queues hp rest id

theorem Intact.reads (hport : s.port = some p)
    (hqueue : s.queues p = message :: rest) {entries : Nat → Option BridgeEntry}
    (hentries : ∀ id found, entries id = some found → ∃ entry, s.entries id = some entry ∧
      ∀ underway, Follows entry (s.posted id) ((message.replyTo id).toList ++ underway) (s.Open id) →
        Follows found (s.posted id) underway (s.Open id)) :
    Intact { s with queues := update s.queues p rest, entries := entries } := by
  obtain ⟨hfresh, hunserved⟩ := h.popped hqueue
  have hpath : s.path = p :: s.attaching := by rw [path, hport]; rfl
  have hnot : p ∉ s.attaching := fun hmem => by
    have hsorted := h.sorted
    rw [hpath] at hsorted
    exact lt_irrefl p (List.rel_of_pairwise_cons hsorted hmem)
  refine ⟨h.sorted, h.below, hfresh, h.made, h.page, fun id hp => ?_, h.serving, h.asked, fun id found hfound => ?_,
    fun id hid => ⟨(h.unserved id hid).1, hunserved id hid⟩, fun id found hfound => ?_⟩
  · simp [hport]
  · obtain ⟨entry, hentry, -⟩ := hentries id found hfound
    exact h.known id entry hentry
  obtain ⟨entry, hentry, hfollows⟩ := hentries id found hfound
  refine hfollows _ ((h.follows id entry hentry).congr fun _ => ?_)
  show _ ++ repliesOn (update s.queues p rest) s.path id = repliesOn s.queues s.path id
  rw [hpath, repliesOn_cons, repliesOn_cons, update_self, repliesOn_update _ hnot, hqueue, List.filterMap_cons,
    ← List.append_assoc]
  cases message.replyTo id <;> rfl

theorem Intact.onMessage (hport : s.port = some p) (hidle : s.idle = true)
    (hqueue : s.queues p = message :: rest) {t : PortExchange}
    (hs : { s with queues := update s.queues p rest }.onMessage message = some t) : Intact t := by
  have hquiet : (∀ id, message.replyTo id = none) → Intact { s with queues := update s.queues p rest } := by
    intro hnone
    refine h.reads hport hqueue fun id found hfound => ⟨found, hfound, fun underway hf => ?_⟩
    rw [hnone id] at hf
    exact hf
  cases message with
  | down =>
    cases hs
    exact (hquiet fun _ => rfl).detached hidle
  | ready =>
    cases hs
    have hread := hquiet fun _ => rfl
    exact { hread with }
  | reply id reply =>
    have hother : ∀ other, other ≠ id → (PortMessage.reply id reply).replyTo other = none := fun other hne => by
      simp [replyTo, hne.symm]
    have hself : (PortMessage.reply id reply).replyTo id = some reply := by simp [replyTo]
    simp only [PortExchange.onMessage] at hs
    split at hs
    · rename_i hnone
      cases hs
      refine h.reads hport hqueue fun other found hfound => ⟨found, hfound, fun underway hf => ?_⟩
      grind
    rename_i entry hentry
    -- only the entry of the message changes
    have hset : ∀ entry', (∀ underway, Follows entry (s.posted id) (reply :: underway) (s.Open id) →
          Follows entry' (s.posted id) underway (s.Open id)) → Intact ({ s with
              queues := update s.queues p rest }.setEntry id entry') := by
      intro entry' hfollows
      refine h.reads hport hqueue fun other found hfound => ?_
      grind
    cases reply with
    | head =>
      cases hs
      exact hset _ fun underway hf => hf.head _
    | body frame byteOffset byteLength =>
      obtain ⟨entry', hstep, rfl⟩ := Option.map_eq_some_iff.1 hs
      exact hset entry' fun underway hf => hf.body hstep
    | finish =>
      obtain ⟨entry', hstep, rfl⟩ := Option.map_eq_some_iff.1 hs
      exact hset entry' fun underway hf => hf.finish hstep
    | err =>
      obtain ⟨entry', hstep, rfl⟩ := Option.map_eq_some_iff.1 hs
      exact hset entry' fun underway hf => hf.err hstep

theorem Intact.request (hport : s.port = some p) (initial : InitialCredits) (now : Int) :
    Intact { s with
      nextId := s.nextId + 1
      entries := update s.entries s.nextId (some ⟨start initial now, false, p⟩) } := by
  have hnew : s.nextId ∉ s.served := fun hmem => lt_irrefl _ (h.asked _ hmem)
  refine { h with
      carried := fun _ _ => ?_, asked := fun id hid => Nat.lt_succ_of_lt (h.asked id hid), known := fun id found hfound => ?_,
      follows := fun id found hfound => ?_ }
  · simp [hport]
  · by_cases hid : id = s.nextId
    · exact hid ▸ Nat.lt_succ_self _
    · exact Nat.lt_succ_of_lt (h.known id found ((update_of_ne hid _ _).symm.trans hfound))
  by_cases hid : id = s.nextId
  · subst hid
    dsimp only at hfound
    rw [update_self] at hfound
    cases hfound
    obtain ⟨hposted, hqueues⟩ := h.unserved s.nextId hnew
    have hunderway : s.underway s.nextId = [] := List.flatMap_eq_nil_iff.2 fun q _ => hqueues q
    show Follows _ (s.posted s.nextId) (s.underway s.nextId) _
    rw [hposted, hunderway]
    exact ⟨BridgeTrace.sound_start initial now, fun _ => rfl, fun _ _ => List.not_mem_nil,
      fun _ before after heq => (by cases (List.append_eq_nil_iff.1 heq.symm).2), nofun⟩
  · exact h.follows id found ((update_of_ne hid _ _).symm.trans hfound)

theorem Intact.attachPortToWorker :
    Intact { s with
      pagePort := some s.created, created := s.created + 1, attaching := s.attaching ++ [s.created] } := by
  have hpath : s.port.toList ++ (s.attaching ++ [s.created]) = s.path ++ [s.created] := (List.append_assoc _ _ _).symm
  refine ⟨?_, fun p hp => ?_, fun p hp => h.fresh p (Nat.le_of_succ_le hp), fun p hp => ?_, fun p hp => ?_, h.carried,
    h.serving, h.asked, h.known, h.unserved, fun id entry hentry => (h.follows id entry hentry).congr fun _ => ?_⟩
  · show (s.port.toList ++ (s.attaching ++ [s.created])).Pairwise (· < ·)
    rw [hpath]
    refine List.pairwise_append.2 ⟨h.sorted, List.pairwise_singleton _ _, fun p hp q hq => ?_⟩
    rw [List.mem_singleton.1 hq]
    exact h.below p hp
  · change p ∈ s.port.toList ++ (s.attaching ++ [s.created]) at hp
    rw [hpath] at hp
    rcases List.mem_append.1 hp with hold | hnew
    · exact Nat.lt_succ_of_lt (h.below p hold)
    · simp_all
  · grind
  · cases hp
    refine .inr ?_
    show (s.port.toList ++ (s.attaching ++ [s.created])).getLast? = some s.created
    rw [hpath, List.getLast?_concat]
  · show repliesOn s.queues (s.port.toList ++ (s.attaching ++ [s.created])) id = repliesOn s.queues s.path id
    simp [hpath, repliesOn_concat, h.fresh, List.filterMap_nil]

theorem Intact.step {e : PortEvent} (ho : s.Undivided e) {t : PortExchange} (hs : s.step e = some t) :
    Intact t := by
  cases e <;> simp only [PortExchange.step] at hs
  case attachPortToWorker =>
    cases hs
    exact h.attachPortToWorker
  case serve id =>
    split at hs
    · rename_i entry hentry
      split at hs
      · rename_i hguard
        cases hs
        refine { h with
            serving := fun other hother => ?_, asked := fun other hother => ?_,
            unserved := fun other hother => h.unserved other fun hmem => hother (List.mem_cons_of_mem _ hmem),
            follows := fun other found hfound => ?_ }
        · exact (List.mem_cons.1 hother).elim (fun heq => heq ▸ List.mem_cons_self)
            fun hold => List.mem_cons_of_mem _ (h.serving other hold)
        · exact (List.mem_cons.1 hother).elim (fun heq => heq ▸ h.known id entry hentry) (h.asked other)
        refine (h.follows other found hfound).stops fun ho => ?_
        by_cases heq : other = id
        · exact .inl (heq ▸ hguard.2)
        · exact ho.imp (fun hnot hmem => hnot (List.mem_cons_of_mem _ hmem)) fun hmem => (List.mem_cons.1 hmem).resolve_left heq
      · cases hs
    · cases hs
  case post id reply =>
    split at hs
    · rename_i hid
      cases reply with
      | head =>
        cases hs
        exact h.postsHead hid
      | body frame byteOffset byteLength =>
        cases hs
        exact h.postsBody hid ho
      | finish =>
        cases hs
        exact h.postsFinish hid
      | err =>
        cases hs
        exact h.postsErr hid
    · cases hs
  case abandon id =>
    cases hs
    exact h.finished id
  case attached =>
    split at hs
    · split at hs
      · cases hs
        exact h.retires
      · cases hs
    · cases hs
  case ready =>
    cases hs
    exact h.sends fun _ => rfl
  case down =>
    cases hs
    have hsent : Intact (s.sends [.down]) := h.sends fun _ => rfl
    exact { hsent with made := nofun, page := nofun }
  case attach =>
    split at hs
    · rename_i hidle
      split at hs
      · rename_i p attaching hattaching
        cases hs
        exact h.attachPort hidle ho hattaching
      · cases hs
    · cases hs
  case receive p =>
    split at hs
    · rename_i hguard
      split at hs
      · rename_i message rest hqueue
        split at hs
        · rename_i hport
          exact h.onMessage hport hguard.1 hqueue hs
        rename_i hport
        cases hs
        refine h.late hqueue fun hmem => ?_
        rcases List.mem_append.1 hmem with hcurrent | hlater
        · exact hport (Option.mem_toList.1 hcurrent)
        · exact hguard.2 hlater
      · cases hs
    · cases hs
  case request initial now =>
    split at hs
    · rename_i p hport
      split at hs
      · cases hs
        exact h.request hport initial now
      · cases hs
    · cases hs
  case stream id e =>
    split at hs
    · rename_i hown
      obtain ⟨entry, hentry, hs⟩ := Option.bind_eq_some_iff.1 hs
      obtain ⟨entry', hstep, rfl⟩ := Option.map_eq_some_iff.1 hs
      have hfinish : e ≠ .finish := fun heq => by
        subst heq
        cases hown
      refine h.setEntry hentry (BridgeRequest.step_stays (BridgeEntry.step_eq hstep).1 hfinish).pending ?_
      refine (h.follows id entry hentry).stays hstep hfinish ?_
      cases e <;> first | rfl | cases hown
    · cases hs
  case detach =>
    obtain ⟨hidle, rfl⟩ := of_guard hs
    exact h.detached hidle

end

/-! ### Runs -/

theorem intact_new : Intact newPortExchange :=
  ⟨.nil, nofun, fun _ _ => rfl, nofun, nofun, nofun, nofun, nofun, nofun, fun _ _ => ⟨rfl, fun _ => rfl⟩, nofun⟩

def Missed (s : PortExchange) (id : Nat) (entry : BridgeEntry) : Prop :=
  ¬ s.posted id <+: entry.trace.received ++ chunksOf (s.underway id)

/-- **A port that is replaced takes no response with it.**  In every undivided run a stream that is closed has delivered what
the page posted, and one that has missed a chunk has failed or was cancelled. -/
theorem replacement_keeps_responses (es : List PortEvent) (s : PortExchange)
    (hm : Steps.Meets PortExchange.step Undivided newPortExchange es)
    (hs : run PortExchange.step newPortExchange es = some s) (id : Nat) (entry : BridgeEntry)
    (hentry : s.entries id = some entry) :
    (entry.trace.request.stream = .closed → entry.trace.request.enqueued = s.posted id) ∧
    (s.Missed id entry → (∃ e, entry.trace.request.stream = .errored e) ∨ entry.trace.request.stream = .cancelled) := by
  have hintact : Intact s := Steps.run_inv_when PortExchange.step Undivided Intact (fun _ _ _ h ho hs => h.step ho hs) es
    newPortExchange s intact_new hm hs
  have hf := hintact.follows id entry hentry
  have hordered := hf.sound.1
  have hended : entry.trace.request.ended = true → ¬ s.Missed id entry := fun hend hmissed =>
    hmissed ((hf.ended hend).1 ▸ List.prefix_append _ _)
  refine ⟨fun hclosed => ?_, fun hmissed => ?_⟩
  · obtain ⟨hend, hqueued⟩ := hordered.closed hclosed
    have hall := hordered.intact (.inr hclosed)
    rw [hqueued, List.append_nil] at hall
    exact hall.trans (hf.ended hend).1
  cases hstream : entry.trace.request.stream with
  | readable =>
    by_cases hend : entry.trace.request.ended = true
    · exact absurd hmissed (hended hend)
    · have hp := hordered.live hstream (Bool.eq_false_iff.2 hend)
      exact absurd ((hf.whole hp).symm ▸ List.prefix_refl _) hmissed
  | closed => exact absurd hmissed (hended (hordered.closed hstream).1)
  | errored e => exact .inl ⟨e, rfl⟩
  | cancelled => exact .inr rfl

def firstRequest : List PortEvent :=
  [.attachPortToWorker, .attach, .ready, .receive 0, .request ⟨8, by decide, by decide⟩ 0, .serve 1, .post 1 .head,
    .receive 0, .stream 1 .pull, .post 1 (.body [1] 0 1), .receive 0, .stream 1 (.enqueueReturns 0 0), .stream 1 .pull]

def replacedBetween : List PortEvent :=
  firstRequest ++ [.attachPortToWorker, .post 1 (.body [2] 0 1), .post 1 .finish, .attach, .receive 1,
    .stream 1 (.enqueueReturns 0 0), .receive 1]

theorem replacement_keeps_responses_between :
    ∃ s entry, run PortExchange.step newPortExchange replacedBetween = some s ∧ s.entries 1 = some entry ∧
      entry.trace.request.stream = .closed ∧ s.posted 1 = [[1], [2]] ∧ entry.trace.request.enqueued = s.posted 1 := by
  obtain ⟨s, hs, hview⟩ : ∃ s, run PortExchange.step newPortExchange replacedBetween = some s ∧
      ((s.entries 1).map fun entry => entry.trace.request.stream) = some .closed ∧ s.posted 1 = [[1], [2]] :=
    exists_run (by decide +kernel)
  obtain ⟨entry, hentry, hclosed⟩ := Option.map_eq_some_iff.1 hview.1
  exact ⟨s, entry, hs, hentry, hclosed, hview.2,
    (replacement_keeps_responses replacedBetween s (by decide +kernel) hs 1 entry hentry).1 hclosed⟩

def replacedBefore : List PortEvent :=
  firstRequest ++ [.post 1 (.body [2] 0 1), .attachPortToWorker, .post 1 (.body [3] 0 1), .post 1 .finish, .attach,
    .receive 0, .receive 1, .stream 1 (.enqueueReturns 0 0), .receive 1]

theorem replaced_port_loses_chunk :
    ∃ s entry, run PortExchange.step newPortExchange replacedBefore = some s ∧ s.entries 1 = some entry ∧
      entry.trace.request.stream = .closed ∧ s.posted 1 = [[1], [2], [3]] ∧ entry.trace.request.enqueued = [[1], [3]] := by
  obtain ⟨s, hs, hview⟩ : ∃ s, run PortExchange.step newPortExchange replacedBefore = some s ∧
      ((s.entries 1).map fun entry => (entry.trace.request.stream, entry.trace.request.enqueued)) = some (.closed, [[1], [3]]) ∧
      s.posted 1 = [[1], [2], [3]] :=
    exists_run (by decide +kernel)
  obtain ⟨entry, hentry, hstream⟩ := Option.map_eq_some_iff.1 hview.1
  simp only [Prod.mk.injEq] at hstream
  exact ⟨s, entry, hs, hentry, hstream.1, hview.2, hstream.2⟩

end PortExchange

end YuriRtc
