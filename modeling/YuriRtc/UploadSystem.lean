import YuriRtc.PeerSession
/-!
# UploadSystem — a page and its peer session

The page side of an upload (`startRequest`, `streamRequestBody`, `takeUploadCredit`, `grantUploadCredit`, `finish` of
`packages/loader/src/client.ts`) next to the session of `PeerSession`.  `toNode` is what lies on each ordered lane, oldest
first; the frames for the page lie in the session's `wire`, by request.  A request id is used once.

The page reads its source and waits for a lane's send buffer whenever it likes, so only the points where it touches the
upload's credit or a lane are events.
-/
namespace YuriRtc

open Function (update update_eq_self)

open PeerSession (SessionEvent)

inductive UploadPhase where
  | fresh
  | uploading
  | over
deriving DecidableEq, Repr

structure PageRequest where
  lane : Nat
  phase : UploadPhase
  credits : Nat
  /-- `takeUploadCredit` has returned and the frame it is for is not on the lane yet. -/
  holding : Bool
  credited : Bool
  sentBytes : Nat
  finished : Bool
  /-- the upload failed with `request upload credit exceeded its v3 window`. -/
  exceeded : Bool
deriving DecidableEq, Repr

structure UploadSystem where
  node : PeerSession
  page : Nat → PageRequest
  toNode : Nat → List PeerFrame

inductive UploadEvent where
  /-- `startRequest` has its lane; without `stream` it goes straight on to `ReqEnd`. -/
  | startRequest (id lane size : Nat) (head : RequestHead) (stream : Bool)
  | takeUploadCredit (id : Nat)
  | sendBody (id : Nat) (payload : Bytes)
  | sendEnd (id : Nat)
  | sendCredit (id count : Nat)
  | cancelRequest (id : Nat)
  /-- `finish` without a frame, as for a lane that is gone. -/
  | abandon (id : Nat)
  | onFrame (id : Nat)
  | deliver (lane : Nat) (env : Env)
  | node (e : SessionEvent)
deriving DecidableEq, Repr

namespace PageRequest

def unused : PageRequest := ⟨0, .fresh, 0, false, false, 0, false, false⟩

def finish (p : PageRequest) : PageRequest := { p with phase := .over, finished := true }

/-- Whether the page takes a grant of `count` more credits. -/
def grantFits (p : PageRequest) (count : Nat) : Bool :=
  decide (count ≤ maxRequestCredits ∧ p.credits ≤ maxRequestCredits - count)

end PageRequest

namespace UploadSystem

def start : UploadSystem where
  node := .newPeerSession
  page := fun _ => .unused
  toNode := fun _ => []

def setPage (sys : UploadSystem) (id : Nat) (p : PageRequest) : UploadSystem :=
  { sys with page := update sys.page id p }

variable (sys : UploadSystem)

@[simp] theorem page_setPage (id : Nat) (p : PageRequest) : (sys.setPage id p).page id = p := by
  show update sys.page id p id = p
  rw [Function.update_self]

theorem page_setPage_of_ne {id id' : Nat} (h : id' ≠ id) (p : PageRequest) :
    (sys.setPage id p).page id' = sys.page id' := by
  show update sys.page id p id' = _
  rw [Function.update_of_ne h]

def put (sys : UploadSystem) (id : Nat) (frames : List PeerFrame) : UploadSystem :=
  { sys with toNode := update sys.toNode (sys.page id).lane (sys.toNode (sys.page id).lane ++ frames) }

def startRequest (sys : UploadSystem) (id lane size : Nat) (head : RequestHead) (stream : Bool) : UploadSystem :=
  let uploads := head.hasBody && stream
  let started := sys.setPage id
    { PageRequest.unused with lane := lane, phase := if uploads then .uploading else .over }
  started.put id (.req id size (some head) :: if head.hasBody && !stream then [.reqEnd id] else [])

/-- `Cancel`, then `finish`. -/
def cancelRequest (sys : UploadSystem) (id : Nat) : UploadSystem :=
  (sys.setPage id (sys.page id).finish).put id [.cancel id]

/-- The page takes a frame: `onFrame`, with `grantUploadCredit` for a credit. -/
def onFrame (sys : UploadSystem) (id : Nat) : NodeFrame → UploadSystem
  | .resHead | .resBody => sys
  | .resEnd | .resErr _ _ => sys.setPage id (sys.page id).finish
  | .reqCredit count =>
    let p := sys.page id
    if p.phase ≠ .uploading then sys
    else if p.grantFits count then sys.setPage id { p with credits := p.credits + count }
    else (sys.setPage id { p with exceeded := true }).cancelRequest id

def takeFrame (sys : UploadSystem) (id : Nat) : UploadSystem :=
  { sys with node := { sys.node with wire := update sys.node.wire id (sys.node.wire id).tail } }

def isReceive : SessionEvent → Bool
  | .receive _ _ _ => true
  | _ => false

def step (sys : UploadSystem) : UploadEvent → Option UploadSystem
  | .startRequest id lane size head stream =>
    if (sys.page id).phase = .fresh ∧ validateRequestHead head = none then
      some (sys.startRequest id lane size head stream)
    else none
  | .takeUploadCredit id =>
    let p := sys.page id
    if p.phase = .uploading ∧ p.holding = false ∧ p.credits ≠ 0 then
      some (sys.setPage id { p with credits := p.credits - 1, holding := true, credited := true })
    else none
  | .sendBody id payload =>
    let p := sys.page id
    if p.phase = .uploading ∧ p.holding = true then
      some ((sys.setPage id { p with holding := false, sentBytes := p.sentBytes + payload.length }).put id
        [.reqBody id payload])
    else none
  | .sendEnd id =>
    let p := sys.page id
    -- the loop over the source ends after a read, and every read waits for a credit first
    if p.phase = .uploading ∧ p.credited = true then
      some ((sys.setPage id { p with phase := .over, holding := false }).put id [.reqEnd id])
    else none
  | .sendCredit id count =>
    let p := sys.page id
    if p.phase ≠ .fresh ∧ p.finished = false ∧ count ≠ 0 then some (sys.put id [.credit id count]) else none
  | .cancelRequest id =>
    let p := sys.page id
    if p.phase ≠ .fresh ∧ p.finished = false then some (sys.cancelRequest id) else none
  | .abandon id =>
    if (sys.page id).phase ≠ .fresh then some (sys.setPage id (sys.page id).finish) else none
  | .onFrame id =>
    match sys.node.wire id with
    | [] => none
    | f :: _ => some ((sys.takeFrame id).onFrame id f)
  | .deliver lane env =>
    match sys.toNode lane with
    | [] => none
    | f :: rest =>
      (sys.node.step (.receive lane f env)).map fun node =>
        { sys with node := node, toNode := update sys.toNode lane rest }
  | .node e => if isReceive e then none else (sys.node.step e).map fun node => { sys with node := node }

/-- **What the page does to one of its requests**: the frame it takes for it, the record it leaves and the frames it puts
on the lane. -/
inductive PageActs (sys : UploadSystem) (id : Nat) :
    UploadEvent → Option NodeFrame → PageRequest → List PeerFrame → Prop
  | starts (lane size : Nat) (head : RequestHead) (stream : Bool) (hfresh : (sys.page id).phase = .fresh)
    (hvalid : validateRequestHead head = none) : PageActs sys id (.startRequest id lane size head stream) none
      { PageRequest.unused with lane := lane, phase := if head.hasBody && stream then .uploading else .over }
      (.req id size (some head) :: if head.hasBody && !stream then [.reqEnd id] else [])
  | takesCredit (hphase : (sys.page id).phase = .uploading) (hholding : (sys.page id).holding = false)
    (hcredits : (sys.page id).credits ≠ 0) : PageActs sys id (.takeUploadCredit id) none
      { sys.page id with credits := (sys.page id).credits - 1, holding := true, credited := true } []
  | sendsBody (payload : Bytes) (hphase : (sys.page id).phase = .uploading) (hholding : (sys.page id).holding = true) :
    PageActs sys id (.sendBody id payload) none
      { sys.page id with holding := false, sentBytes := (sys.page id).sentBytes + payload.length } [.reqBody id payload]
  | sendsEnd (hphase : (sys.page id).phase = .uploading) (hcredited : (sys.page id).credited = true) :
    PageActs sys id (.sendEnd id) none { sys.page id with phase := .over, holding := false } [.reqEnd id]
  | sendsCredit (count : Nat) (hused : (sys.page id).phase ≠ .fresh) (hcount : count ≠ 0) :
    PageActs sys id (.sendCredit id count) none (sys.page id) [.credit id count]
  | cancels (hused : (sys.page id).phase ≠ .fresh) :
    PageActs sys id (.cancelRequest id) none (sys.page id).finish [.cancel id]
  | abandons (hused : (sys.page id).phase ≠ .fresh) : PageActs sys id (.abandon id) none (sys.page id).finish []
  | ignores (f : NodeFrame) : PageActs sys id (.onFrame id) (some f) (sys.page id) []
  | sees (f : NodeFrame) : PageActs sys id (.onFrame id) (some f) (sys.page id).finish []
  | takesGrant (count : Nat) (hphase : (sys.page id).phase = .uploading) :
    PageActs sys id (.onFrame id) (some (.reqCredit count))
      { sys.page id with credits := (sys.page id).credits + count } []
  | refusesGrant (count : Nat) (hphase : (sys.page id).phase = .uploading)
    (hfits : ¬ (sys.page id).grantFits count = true) : PageActs sys id (.onFrame id) (some (.reqCredit count))
      { (sys.page id).finish with exceeded := true } [.cancel id]

inductive Becomes (sys : UploadSystem) : UploadEvent → UploadSystem → Prop
  | page (id : Nat) (e : UploadEvent) (p : PageRequest) (frames : List PeerFrame)
    (h : PageActs sys id e none p frames) : Becomes sys e ((sys.setPage id p).put id frames)
  | onFrame (id : Nat) (f : NodeFrame) (rest : List NodeFrame) (p : PageRequest) (frames : List PeerFrame)
    (hwire : sys.node.wire id = f :: rest) (h : PageActs (sys.takeFrame id) id (.onFrame id) (some f) p frames) :
    Becomes sys (.onFrame id) (((sys.takeFrame id).setPage id p).put id frames)
  | deliver (lane : Nat) (env : Env) (f : PeerFrame) (rest : List PeerFrame) (node : PeerSession)
    (hlane : sys.toNode lane = f :: rest) (hnode : sys.node.step (.receive lane f env) = some node) :
    Becomes sys (.deliver lane env) { sys with node := node, toNode := update sys.toNode lane rest }
  | node (e : SessionEvent) (node : PeerSession) (he : isReceive e = false) (hnode : sys.node.step e = some node) :
    Becomes sys (.node e) { sys with node := node }

theorem put_nil (id : Nat) : sys.put id [] = sys := by
  rw [put, List.append_nil, update_eq_self]

theorem setPage_self (id : Nat) : sys.setPage id (sys.page id) = sys := by
  rw [setPage, update_eq_self]

theorem onFrame_acts (id : Nat) (f : NodeFrame) :
    ∃ p frames, PageActs sys id (.onFrame id) (some f) p frames ∧ sys.onFrame id f = (sys.setPage id p).put id frames := by
  have hignored : ∃ p frames, PageActs sys id (.onFrame id) (some f) p frames ∧ sys = (sys.setPage id p).put id frames :=
    ⟨_, _, .ignores f, by rw [put_nil, setPage_self]⟩
  have hover : ∃ p frames, PageActs sys id (.onFrame id) (some f) p frames ∧
      sys.setPage id (sys.page id).finish = (sys.setPage id p).put id frames := ⟨_, _, .sees f, by rw [put_nil]⟩
  cases f with
  | resHead => exact hignored
  | resBody => exact hignored
  | resEnd => exact hover
  | resErr message code => exact hover
  | reqCredit count =>
    simp only [onFrame]
    split
    · exact hignored
    rename_i hphase
    have huploading := not_not.1 hphase
    split
    · exact ⟨_, _, .takesGrant count huploading, by rw [put_nil]⟩
    rename_i hfits
    refine ⟨_, _, .refusesGrant count huploading hfits, ?_⟩
    unfold cancelRequest
    rw [page_setPage]
    simp only [setPage, Function.update_idem]
    rfl

theorem step_becomes {sys sys' : UploadSystem} {e : UploadEvent} (h : sys.step e = some sys') : Becomes sys e sys' := by
  cases e with
  | startRequest id lane size head stream =>
    obtain ⟨hguard, rfl⟩ := Steps.of_guard h
    exact .page id _ _ _ (.starts lane size head stream hguard.1 hguard.2)
  | takeUploadCredit id =>
    obtain ⟨hguard, rfl⟩ := Steps.of_guard h
    have hacts := Becomes.page id _ _ _ (.takesCredit hguard.1 hguard.2.1 hguard.2.2)
    rwa [put_nil] at hacts
  | sendBody id payload =>
    obtain ⟨hguard, rfl⟩ := Steps.of_guard h
    exact .page id _ _ _ (.sendsBody payload hguard.1 hguard.2)
  | sendEnd id =>
    obtain ⟨hguard, rfl⟩ := Steps.of_guard h
    exact .page id _ _ _ (.sendsEnd hguard.1 hguard.2)
  | sendCredit id count =>
    obtain ⟨hguard, rfl⟩ := Steps.of_guard h
    have hacts := Becomes.page id _ _ _ (.sendsCredit count hguard.1 hguard.2.2)
    rwa [setPage_self] at hacts
  | cancelRequest id =>
    obtain ⟨hguard, rfl⟩ := Steps.of_guard h
    exact .page id _ _ _ (.cancels hguard.1)
  | abandon id =>
    obtain ⟨hguard, rfl⟩ := Steps.of_guard h
    have hacts := Becomes.page id _ _ _ (.abandons hguard)
    rwa [put_nil] at hacts
  | onFrame id =>
    simp only [step] at h
    split at h
    · cases h
    rename_i f rest hwire
    cases h
    obtain ⟨p, frames, hacts, heq⟩ := onFrame_acts (sys.takeFrame id) id f
    rw [heq]
    exact .onFrame id f rest p frames hwire hacts
  | deliver lane env =>
    simp only [step] at h
    split at h
    · cases h
    rename_i f rest hlane
    obtain ⟨node, hnode, rfl⟩ := Option.map_eq_some_iff.1 h
    exact .deliver lane env f rest node hlane hnode
  | node e =>
    simp only [step] at h
    split at h
    · cases h
    rename_i he
    obtain ⟨node, hnode, rfl⟩ := Option.map_eq_some_iff.1 h
    exact .node e node (by simpa using he) hnode

theorem step_node {sys sys' : UploadSystem} {e : UploadEvent} (h : sys.step e = some sys') :
    (∃ e', sys.node.step e' = some sys'.node) ∨ ∃ wire, sys'.node = { sys.node with wire := wire } := by
  cases step_becomes h with
  | page => exact .inr ⟨sys.node.wire, rfl⟩
  | onFrame => exact .inr ⟨_, rfl⟩
  | deliver lane env f rest node _ hnode => exact .inl ⟨_, hnode⟩
  | node e node _ hnode => exact .inl ⟨e, hnode⟩

end UploadSystem
end YuriRtc
