import YuriRtc.SessionThreads
/-!
# SessionTombstones — what is left of an upload that was cut off

A tombstone takes the body frames of a request that was removed before its upload ended.  It marks an upload that was
admitted, with its lane (`Marked`), and it stays until it takes the upload's end, a `Cancel` comes, its time is over, it is
the oldest of too many, or the session closes (`step_entombed`).
-/
namespace YuriRtc

def PeerFrame.isRequest : PeerFrame → Bool
  | .req _ _ _ => true
  | .undecodable | .reqBody _ _ | .reqEnd _ | .credit _ _ | .cancel _ | .webSocket _ | .response => false

namespace PeerSession

variable {s : PeerSession} {id lane : Nat} {env : Env}

def Entombed (s : PeerSession) (id : Nat) : Prop := (s.rejectedBodies.lookup id).isSome = true

instance (s : PeerSession) (id : Nat) : Decidable (Entombed s id) := inferInstanceAs (Decidable (_ = _))

def Expires (s : PeerSession) (now id : Nat) : Prop := ∃ t ∈ s.rejectedBodies.lookup id, t.expires ≤ now

instance (s : PeerSession) (now id : Nat) : Decidable (Expires s now id) :=
  inferInstanceAs (Decidable (∃ t ∈ s.rejectedBodies.lookup id, t.expires ≤ now))

def Evicts (s : PeerSession) (env : Env) (id : Nat) : Prop :=
  maxRejectedBodyTombstonesPerPeer ≤ (s.pruneRejectedBodiesLocked env.now).rejectedBodies.entries.length ∧
    oldestTombstone (s.pruneRejectedBodiesLocked env.now).rejectedBodies env.evict = some id

instance (s : PeerSession) (env : Env) (id : Nat) : Decidable (Evicts s env id) := inferInstanceAs (Decidable (_ ∧ _))

/-! ### The operations -/

theorem lookup_prune {now : Nat} (h : ¬ Expires s now id) :
    (s.pruneRejectedBodiesLocked now).rejectedBodies.lookup id = s.rejectedBodies.lookup id := by
  show (Assoc.keep _ s.rejectedBodies).lookup id = _
  rw [Assoc.lookup_keep]
  cases ht : s.rejectedBodies.lookup id with
  | none => rfl
  | some t =>
    have hlasts : now < t.expires := Nat.lt_of_not_le fun hle => h ⟨t, ht, hle⟩
    simp [Option.filter, hlasts]

theorem lookup_evict (h : ¬ (maxRejectedBodyTombstonesPerPeer ≤ s.rejectedBodies.entries.length ∧
      oldestTombstone s.rejectedBodies env.evict = some id)) :
    (s.evictRejectedBody env).rejectedBodies.lookup id = s.rejectedBodies.lookup id := by
  grind [AList.lookup_erase_ne, evictRejectedBody]

theorem entombed_remember (h : Entombed s id) (hexpires : ¬ Expires s env.now id)
    (hevicts : ¬ Evicts s env id) (id' lane : Nat) : Entombed (s.rememberRejectedBodyLocked env id' lane) id := by
  unfold Entombed
  by_cases hid : id = id'
  · rw [hid, lookup_remember_self]
    rfl
  simp only [rememberRejectedBodyLocked]
  rw [AList.lookup_insert_ne hid, lookup_evict hevicts, lookup_prune hexpires]
  exact h

theorem entombed_discard {id' : Nat} {isEnd : Bool} (h : Entombed s id)
    (hexpires : ¬ Expires s env.now id) (hend : isEnd = true → id' ≠ id) :
    Entombed (s.discardRejectedRequestBody env id' lane isEnd).1 id := by
  have hpruned : Entombed (s.pruneRejectedBodiesLocked env.now) id := by
    rw [Entombed, lookup_prune hexpires]
    exact h
  simp only [discardRejectedRequestBody]
  split
  · exact hpruned
  split
  · exact hpruned
  split
  · rename_i hisEnd
    show (((s.pruneRejectedBodiesLocked env.now).rejectedBodies.erase id').lookup id).isSome = true
    rw [AList.lookup_erase_ne (hend hisEnd).symm]
    exact hpruned
  split
  · exact hpruned
  show (((s.pruneRejectedBodiesLocked env.now).rejectedBodies.insert id' _).lookup id).isSome = true
  by_cases hid : id = id'
  · rw [hid, AList.lookup_insert]
    rfl
  · rw [AList.lookup_insert_ne hid]
    exact hpruned

variable {t : RejectedBodyTombstone}

theorem discard_takes {isEnd : Bool}
    (h : s.rejectedBodies.lookup id = some t) (hexpires : ¬ Expires s env.now id) (hlane : t.lane = lane)
    (hremaining : isEnd = true ∨ t.remaining ≠ 0) : (s.discardRejectedRequestBody env id lane isEnd).2 = true := by
  simp only [discardRejectedRequestBody, lookup_prune hexpires, h]
  grind

theorem exec_discardBody_rejectedBodies (s : PeerSession) (env : Env) (id lane : Nat) (isEnd : Bool) :
    (s.exec env (.discardBody id lane isEnd)).1.rejectedBodies =
      (s.discardRejectedRequestBody env id lane isEnd).1.rejectedBodies := by
  simp only [exec]
  split
  · rfl
  · exact (reports_noteProtocolViolation id _).rejectedBodies

/-! ### Who drops a tombstone -/

def LosesIn (s : PeerSession) (env : Env) (id : Nat) : Section → Prop
  | .discardRaced _ _ _ _ | .discardBody _ _ _ | .dropTombstone _ _ => Expires s env.now id
  | .cancelState _ _ allowTrailing _ => allowTrailing = true ∧ (Expires s env.now id ∨ Evicts s env id)
  | _ => False

instance (s : PeerSession) (env : Env) (id : Nat) (c : Section) : Decidable (LosesIn s env id c) := by
  unfold LosesIn
  split <;> infer_instance

def ErasesIn (id : Nat) : Section → Prop
  | .discardBody id' _ isEnd => isEnd = true ∧ id' = id
  | .dropTombstone id' _ => id' = id
  | _ => False

theorem exec_entombed {c : Section} (h : Entombed s id)
    (hloses : ¬ LosesIn s env id c) (herases : ¬ ErasesIn id c) : Entombed (s.exec env c).1 id := by
  cases c with
  | enqueueBody id' lane r payload =>
    simp only [exec]
    split <;> exact h
  | discardRaced id' lane r e =>
    have hraced : Entombed (s.discardRacedRequestBodyError env id' lane e).1 id := by
      unfold discardRacedRequestBodyError
      split
      · exact entombed_discard h hloses fun hend => (by cases hend)
      · exact entombed_discard h hloses fun hend => (by cases hend)
      · exact h
      · exact h
      · exact h
    simp only [exec]
    split
    · exact hraced
    · rw [Entombed, (reports_rejectProtocol _ env id' _ _).rejectedBodies]
      exact hraced
  | discardBody id' lane isEnd =>
    rw [Entombed, exec_discardBody_rejectedBodies]
    exact entombed_discard h hloses fun hend hid => herases ⟨hend, hid⟩
  | dropTombstone id' lane => exact entombed_discard h hloses fun _ => herases
  | cancelState id' r allowTrailing timedOut =>
    simp only [exec]
    split
    · simp only [removeRequest]
      split
      · rename_i hremembers
        have hstays : ¬ (Expires s env.now id ∨ Evicts s env id) := fun hlost =>
          hloses ⟨(Bool.and_eq_true _ _ ▸ hremembers).1, hlost⟩
        apply entombed_remember
        · exact h
        · exact fun he => hstays (.inl he)
        · exact fun he => hstays (.inr he)
      · exact h
    · exact h
  | timeoutError id' =>
    simp only [exec]
    rw [Entombed, (reports_sendBoundedError s env id' _ _).rejectedBodies]
    exact h
  | sendInitialCredits r =>
    simp only [exec]
    split <;> exact h
  | serve r =>
    simp only [exec]
    split
    · rw [Entombed, (reports_sendBoundedError s env _ _ _).rejectedBodies]
      exact h
    · exact h
  | _ => exact h

def Loses (s : PeerSession) (id : Nat) : SessionEvent → Prop
  | .receive _ frame env => frame.isRequest = true ∧ Expires s env.now id
  | .laneGoesOn lane env => ∃ c ∈ (s.rx lane).head?, LosesIn s env id c
  | .taskGoesOn task env => ∃ c ∈ (s.tasks task).head?, LosesIn s env id c
  | .timer _ env => Expires s env.now id ∨ Evicts s env id
  | .dispatch | .startPicked | .dropPicked | .consumer _ _ | .chunkConsumed _ _ | .handlerCloses _ | .respond _ _ | .attach
  | .detachLane _ _ | .close => False

instance (s : PeerSession) (id : Nat) (e : SessionEvent) : Decidable (Loses s id e) := by
  unfold Loses
  split <;> infer_instance

def Erases (s : PeerSession) (id : Nat) : SessionEvent → Prop
  | .laneGoesOn lane _ => ∃ c others, s.rx lane = c :: others ∧ ErasesIn id c
  | .taskGoesOn task _ => ∃ c others, s.tasks task = c :: others ∧ ErasesIn id c
  | .receive _ _ _ | .timer _ _ | .dispatch | .startPicked | .dropPicked | .consumer _ _ | .chunkConsumed _ _
  | .handlerCloses _ | .respond _ _ | .attach | .detachLane _ _ | .close => False

theorem onMessage_entombed {frame : PeerFrame} (h : Entombed s id)
    (hloses : ¬ (frame.isRequest = true ∧ Expires s env.now id)) : Entombed (s.onMessage env lane frame).1 id := by
  have hpruned : frame.isRequest = true →
      ((s.pruneRejectedBodiesLocked env.now).rejectedBodies.lookup id).isSome = true := fun hreq => by
    rw [lookup_prune fun he => hloses ⟨hreq, he⟩]
    exact h
  have hm := onMessage_handles s env lane frame
  generalize s.onMessage env lane frame = m at hm ⊢
  cases hm with
  | books id' frame t ht =>
    rw [Entombed, ht.rejectedBodies]
    exact h
  | refuses id' size head t ht =>
    rcases ht.tombstones with heq | heq
    · rw [Entombed, heq]
      exact h
    · rw [Entombed, heq]
      exact hpruned rfl
  | admits => exact hpruned rfl
  | _ => exact h

theorem step_entombed {t : PeerSession} {e : SessionEvent} (hs : s.step e = some t) (hopen : t.closed = false)
    (h : Entombed s id) (hloses : ¬ Loses s id e) (herases : ¬ Erases s id e) : Entombed t id := by
  cases step_becomes hs with
  | receives lane frame env => exact onMessage_entombed h hloses
  | laneGoesOn lane env c others hrx =>
    refine exec_entombed h (fun hl => hloses ⟨c, ?_, hl⟩) fun he => herases ⟨c, others, hrx, he⟩
    rw [hrx]
    rfl
  | taskGoesOn task env c others htask =>
    refine exec_entombed h (fun hl => hloses ⟨c, ?_, hl⟩) fun he => herases ⟨c, others, htask, he⟩
    rw [htask]
    rfl
  | timerFires r env =>
    apply entombed_remember
    · exact h
    · exact fun he => hloses (.inl he)
    · exact fun he => hloses (.inr he)
  | closes => cases hopen
  | _ => exact h

/-! ### Whose tombstones there are -/

/-- **Every tombstone marks an admitted upload, with its lane.** -/
def Marked (s : PeerSession) : Prop := ∀ id t, s.rejectedBodies.lookup id = some t →
  ∃ r < s.next, (s.states r).id = id ∧ (s.states r).hasBody = true ∧ (s.states r).lane = t.lane

/-- **No tombstone is new**: those after a step are those before it, up to the frames they have left. -/
def Retains (m m' : AList (fun _ : Nat => RejectedBodyTombstone)) : Prop :=
  ∀ id t', m'.lookup id = some t' → ∃ t, m.lookup id = some t ∧ t'.lane = t.lane ∧ t'.expires = t.expires

theorem Retains.refl (m : AList (fun _ : Nat => RejectedBodyTombstone)) : Retains m m := fun _ t h => ⟨t, h, rfl, rfl⟩

variable {m m' : AList (fun _ : Nat => RejectedBodyTombstone)}

theorem Thins.retains (h : Thins m m') : Retains m m' := fun id t ht => by
  rcases h id with heq | hgone
  · exact ⟨t, heq ▸ ht, rfl, rfl⟩
  · cases hgone.symm.trans ht

theorem Spends.retains {now : Nat} (h : Spends m m' now id lane t) : Retains m m' :=
    fun id' t' ht' => by
  by_cases hid : id' = id
  · rw [hid, h.spent] at ht'
    cases ht'
    exact ⟨t, hid ▸ h.found, rfl, rfl⟩
  rcases h.others id' hid with heq | hgone
  · exact ⟨t', heq ▸ ht', rfl, rfl⟩
  · cases hgone.symm.trans ht'

theorem retains_prune (s : PeerSession) (now : Nat) :
    Retains s.rejectedBodies (s.pruneRejectedBodiesLocked now).rejectedBodies := (thins_prune s now).retains

theorem onMessage_thins (s : PeerSession) (env : Env) (lane : Nat) (frame : PeerFrame) :
    Thins s.rejectedBodies (s.onMessage env lane frame).1.rejectedBodies := by
  have hm := onMessage_handles s env lane frame
  generalize s.onMessage env lane frame = m at hm ⊢
  cases hm with
  | books id frame t ht =>
    rw [ht.rejectedBodies]
    exact .refl _
  | refuses id size head t ht =>
    rcases ht.tombstones with heq | heq
    · rw [heq]
      exact .refl _
    · rw [heq]
      exact thins_prune s env.now
  | admits => exact thins_prune s env.now
  | _ => exact .refl _

theorem retains_onMessage (s : PeerSession) (env : Env) (lane : Nat) (frame : PeerFrame) :
    Retains s.rejectedBodies (s.onMessage env lane frame).1.rejectedBodies := (onMessage_thins s env lane frame).retains

theorem retains_remember {id' : Nat} (hid : id' ≠ id)
    (h : (s.rememberRejectedBodyLocked env id lane).rejectedBodies.lookup id' = some t) :
    ∃ old, s.rejectedBodies.lookup id' = some old ∧ t.lane = old.lane ∧ t.expires = old.expires := by
  rcases lookup_remember_ne s env lane hid with heq | hgone
  · exact ⟨t, heq ▸ h, rfl, rfl⟩
  · cases hgone.symm.trans h

def absorbs (s : PeerSession) (env : Env) : Section → Option (Nat × Nat)
  | .discardBody id lane false => if (s.discardRejectedRequestBody env id lane false).2 then some (id, lane) else none
  | .discardRaced id lane _ e => if (s.discardRacedRequestBodyError env id lane e).2 then some (id, lane) else none
  | _ => none

theorem discardRaced_tombstones (s : PeerSession) (env : Env) (id lane : Nat) (e : UploadError) :
    (Thins s.rejectedBodies (s.discardRacedRequestBodyError env id lane e).1.rejectedBodies ∧
        (s.discardRacedRequestBodyError env id lane e).2 = false) ∨
      (s.discardRacedRequestBodyError env id lane e).2 = true ∧ ∃ t, Spends s.rejectedBodies
        (s.discardRacedRequestBodyError env id lane e).1.rejectedBodies env.now id lane t := by
  have hdiscard := discard_tombstones s env id lane false
  unfold discardRacedRequestBodyError
  split
  · exact hdiscard.imp (fun h => ⟨h.1, h.2 rfl⟩) fun h => h.2
  · exact hdiscard.imp (fun h => ⟨h.1, h.2 rfl⟩) fun h => h.2
  all_goals exact .inl ⟨.refl _, rfl⟩

theorem exec_tombstones_of_ne (s : PeerSession) (env : Env) (c : Section)
    (hc : ∀ id r allowTrailing timedOut, c ≠ .cancelState id r allowTrailing timedOut) :
    (Thins s.rejectedBodies (s.exec env c).1.rejectedBodies ∧ s.absorbs env c = none) ∨
      ∃ id lane t, s.absorbs env c = some (id, lane) ∧
        Spends s.rejectedBodies (s.exec env c).1.rejectedBodies env.now id lane t := by
  cases c with
  | discardRaced id lane r e =>
    simp only [exec, absorbs]
    rcases discardRaced_tombstones s env id lane e with ⟨hthins, hfails⟩ | ⟨htakes, t, hspends⟩
    · rw [hfails]
      refine .inl ⟨?_, rfl⟩
      simp only [Bool.false_eq_true, if_false]
      rw [(reports_rejectProtocol _ env id _ _).rejectedBodies]
      exact hthins
    · rw [htakes]
      exact .inr ⟨id, lane, t, rfl, hspends⟩
  | discardBody id lane isEnd =>
    rw [exec_discardBody_rejectedBodies]
    rcases discard_tombstones s env id lane isEnd with ⟨hthins, hfails⟩ | ⟨rfl, htakes, t, hspends⟩
    · refine .inl ⟨hthins, ?_⟩
      cases isEnd with
      | true => rfl
      | false => simp [absorbs, hfails]
    · exact .inr ⟨id, lane, t, if_pos htakes, hspends⟩
  | dropTombstone id lane =>
    rcases discard_tombstones s env id lane true with ⟨hthins, -⟩ | ⟨hend, -⟩
    · exact .inl ⟨hthins, rfl⟩
    · cases hend
  | cancelState id r allowTrailing timedOut => exact absurd rfl (hc id r allowTrailing timedOut)
  | enqueueBody id lane r payload =>
    simp only [exec]
    split <;> exact .inl ⟨.refl _, rfl⟩
  | timeoutError id =>
    simp only [exec]
    rw [(reports_sendBoundedError s env id _ _).rejectedBodies]
    exact .inl ⟨.refl _, rfl⟩
  | sendInitialCredits r =>
    simp only [exec]
    split <;> exact .inl ⟨.refl _, rfl⟩
  | serve r =>
    simp only [exec]
    split
    · rw [(reports_sendBoundedError s env _ _ _).rejectedBodies]
      exact .inl ⟨.refl _, rfl⟩
    · exact .inl ⟨.refl _, rfl⟩
  | _ => exact .inl ⟨.refl _, rfl⟩

theorem exec_retains (s : PeerSession) (env : Env) (c : Section)
    (hc : ∀ id r allowTrailing timedOut, c ≠ .cancelState id r allowTrailing timedOut) :
    Retains s.rejectedBodies (s.exec env c).1.rejectedBodies := by
  rcases exec_tombstones_of_ne s env c hc with ⟨hthins, -⟩ | ⟨id, lane, t, -, hspends⟩
  · exact hthins.retains
  · exact hspends.retains

namespace Marked

variable {s : PeerSession}

theorem newPeerSession : Marked newPeerSession := nofun

theorem retains {t : PeerSession} (h : Marked s) (hk : Keeps s t) (ht : Retains s.rejectedBodies t.rejectedBodies) :
    Marked t := fun id tombstone' hlookup => by
  obtain ⟨tombstone, hold, hlane', -⟩ := ht id tombstone' hlookup
  obtain ⟨r, hr, hid, hbody, hlane⟩ := h id tombstone hold
  have hsame := hk.same r hr
  exact ⟨r, lt_of_lt_of_le hr hk.next, hsame.id.trans hid, hsame.hasBody.trans hbody,
    (hsame.lane.trans hlane).trans hlane'.symm⟩

theorem remember (h : Marked s) (env : Env) {r : Ref} (hr : r < s.next) (hbody : (s.states r).hasBody = true) :
    Marked (s.rememberRejectedBodyLocked env (s.states r).id (s.states r).lane) := by
  obtain ⟨m, heq⟩ := (buries_remember s env (s.states r).id (s.states r).lane).eq
  intro id t ht
  by_cases hid : id = (s.states r).id
  · rw [hid, lookup_remember_self] at ht
    cases ht
    rw [heq]
    exact ⟨r, hr, hid.symm, hbody, rfl⟩
  obtain ⟨old, hold, hlane, -⟩ := retains_remember hid ht
  obtain ⟨r', hr', hid', hbody', hlane'⟩ := h id old hold
  rw [heq]
  exact ⟨r', hr', hid', hbody', hlane'.trans hlane.symm⟩

theorem exec (h : Marked s) (env : Env) {c : Section} (hc : c.Refers s) : Marked (s.exec env c).1 := by
  by_cases hcancel : ∃ id r allowTrailing timedOut, c = .cancelState id r allowTrailing timedOut
  · obtain ⟨id, r, allowTrailing, timedOut, rfl⟩ := hcancel
    simp only [PeerSession.exec]
    split
    · simp only [removeRequest]
      split
      · rename_i hremembers
        obtain ⟨hr, rfl⟩ := hc
        have hremoved : Marked { s with
            requests := s.requests.erase (s.states r).id
            bodyRequests := if (s.states r).hasBody then s.bodyRequests - 1 else s.bodyRequests } := h
        exact hremoved.remember env hr (Bool.and_eq_true _ _ ▸ hremembers).2
      · exact h
    · exact h
  · push Not at hcancel
    exact h.retains (carries_exec s env c).keeps (exec_retains s env c hcancel)

theorem step {t : PeerSession} {e : SessionEvent} (h : Marked s) (hth : Threaded s) (hs : s.step e = some t) :
    Marked t := by
  have hk := step_keeps hs
  cases step_becomes hs with
  | receives lane frame env => exact h.retains hk (retains_onMessage s env lane frame)
  | laneGoesOn lane env c others hrx =>
    exact h.exec env (hth.rx lane c (by rw [hrx]; exact List.mem_cons_self)).1
  | taskGoesOn task env c others htask =>
    exact h.exec env (hth.tasks task c (by rw [htask]; exact List.mem_cons_self)).1
  | timerFires r env hr hbody =>
    have htimedOut : Marked (s.timedOut r) := h.retains (carries_timedOut s r).keeps (.refl _)
    have hsame := ((carries_timedOut s r).moves r).same
    have hremembered := htimedOut.remember env (r := r) hr (hsame.hasBody.trans hbody)
    rw [hsame.id, hsame.lane] at hremembered
    exact hremembered
  | closes => exact nofun
  | _ => exact h.retains hk (.refl _)

end Marked
end PeerSession
end YuriRtc
