import YuriRtc.SessionTombstones
/-!
# RejectedBodies — how much the tombstones take

A peer has at most 256 tombstones, and one takes at most sixteen frames, all of its own upload on its own lane, before it is
laid down again.  The count goes by what the tombstone has left: no step that does not lay it down raises that, and every
frame it takes lowers it (`step_allowance`).
-/
namespace YuriRtc

namespace PeerSession

variable {s t : PeerSession} {id lane : Nat} {env : Env} {e : SessionEvent} {m m' : AList (fun _ : Nat => RejectedBodyTombstone)}

def running (s : PeerSession) : SessionEvent → Option (Env × Section)
  | .laneGoesOn lane env => (s.rx lane).head?.map fun c => (env, c)
  | .taskGoesOn task env => (s.tasks task).head?.map fun c => (env, c)
  | _ => none

/-- The id and the lane of the `ReqBody` frame that a tombstone takes in the step. -/
def takesFrame (s : PeerSession) (e : SessionEvent) : Option (Nat × Nat) :=
  (s.running e).bind fun (env, c) => s.absorbs env c

/-- The step calls `rememberRejectedBodyLocked` for the id: an upload is cancelled behind a tombstone, or times out. -/
def installs (s : PeerSession) (id : Nat) : SessionEvent → Bool
  | .timer r env => (s.states r).id == id && s.isLive r &&
      !((s.states r).bodyEnded || (s.states r).bodyTimedOut || decide (env.now < (s.states r).bodyDeadline))
  | e =>
    match s.running e with
    | some (_, .cancelState id' r allowTrailing _) =>
      id' == id && s.requests.lookup id' == some r && (allowTrailing && (s.states r).hasBody)
    | _ => false

def framesTaken (id : Nat) : List SessionEvent → PeerSession → Nat
  | [], _ => 0
  | e :: events, s =>
    (if (s.takesFrame e).map Prod.fst = some id then 1 else 0) + (s.step e).elim 0 (framesTaken id events)

/-! ### One step -/

inductive Tombs (s : PeerSession) (e : SessionEvent) (t : PeerSession) : Prop
  | thins (hnone : s.takesFrame e = none) (h : Thins s.rejectedBodies t.rejectedBodies)
  | spends (now id lane : Nat) (tombstone : RejectedBodyTombstone) (htakes : s.takesFrame e = some (id, lane))
    (h : Spends s.rejectedBodies t.rejectedBodies now id lane tombstone)
  | buries (env : Env) (id lane : Nat) (u : PeerSession) (hnone : s.takesFrame e = none) (hinstalls : s.installs id e = true)
    (hu : u.rejectedBodies = s.rejectedBodies)
    (h : t.rejectedBodies = (u.rememberRejectedBodyLocked env id lane).rejectedBodies)

theorem tombs_exec {c : Section} (hruns : s.running e = some (env, c)) (htimer : ∀ r env, e ≠ .timer r env)
    (ht : t.rejectedBodies = (s.exec env c).1.rejectedBodies) : Tombs s e t := by
  have htakes : s.takesFrame e = s.absorbs env c := by rw [takesFrame, hruns]; rfl
  by_cases hcancel : ∃ id r allowTrailing timedOut, c = .cancelState id r allowTrailing timedOut
  · obtain ⟨id, r, allowTrailing, timedOut, rfl⟩ := hcancel
    simp only [exec] at ht
    split at ht
    · rename_i hlive
      simp only [removeRequest] at ht
      split at ht
      · rename_i hburies
        refine .buries env id _ { s with
          requests := s.requests.erase id
          bodyRequests := if (s.states r).hasBody then s.bodyRequests - 1 else s.bodyRequests } htakes ?_ rfl ht
        cases e with
        | timer r' env' => exact absurd rfl (htimer r' env')
        | _ => simp [installs, hruns, hlive, hburies]
      · exact .thins htakes (ht ▸ .refl _)
    · exact .thins htakes (ht ▸ .refl _)
  · push Not at hcancel
    rcases exec_tombstones_of_ne s env c hcancel with ⟨hthins, hnone⟩ | ⟨id, lane, tombstone, hsome, hspends⟩
    · exact .thins (htakes.trans hnone) (ht ▸ hthins)
    · exact .spends env.now id lane tombstone (htakes.trans hsome) (ht ▸ hspends)

theorem step_tombs (hs : s.step e = some t) : Tombs s e t := by
  cases step_becomes hs with
  | receives lane frame env => exact .thins rfl (onMessage_thins s env lane frame)
  | laneGoesOn lane env c others hrx => exact tombs_exec (by rw [running, hrx]; rfl) (by simp) rfl
  | taskGoesOn task env c others htask => exact tombs_exec (by rw [running, htask]; rfl) (by simp) rfl
  | timerFires r env hr hbody hlive =>
    refine .buries env (s.states r).id (s.states r).lane (s.timedOut r) rfl ?_ rfl rfl
    obtain ⟨-, hfires⟩ := Steps.of_guard hs
    simp only [expireRequestBody] at hfires
    split at hfires
    · -- a callback that stops at its guards spawns nothing
      obtain ⟨m, heq⟩ := (buries_remember (s.timedOut r) env (s.states r).id (s.states r).lane).eq
      rw [heq] at hfires
      have hspawned : s.nextTask = s.nextTask + 1 := congrArg PeerSession.nextTask hfires
      omega
    · rename_i hguards
      simp [installs, hlive, hguards]
  | closes => exact .thins rfl fun id => .inr (AList.lookup_empty id)
  | _ => exact .thins rfl (.refl _)

inductive Fate (s : PeerSession) (e : SessionEvent) (t : PeerSession) (id : Nat) : Prop
  | stays (hfree : (s.takesFrame e).map Prod.fst ≠ some id)
    (h : t.rejectedBodies.lookup id = s.rejectedBodies.lookup id ∨ t.rejectedBodies.lookup id = none)
  | spent (now lane : Nat) (tombstone : RejectedBodyTombstone) (htakes : s.takesFrame e = some (id, lane))
    (h : Spends s.rejectedBodies t.rejectedBodies now id lane tombstone)
  | laid (lane expires : Nat) (hinstalls : s.installs id e = true)
    (h : t.rejectedBodies.lookup id = some ⟨lane, maxRejectedBodyTrailingFrames, expires⟩)

theorem Tombs.fate (h : Tombs s e t) (id : Nat) : Fate s e t id := by
  cases h with
  | thins hnone hthins => exact .stays (by simp [hnone]) (hthins id)
  | spends now id' lane tombstone htakes hspends =>
    by_cases hid : id = id'
    · exact .spent now lane tombstone (hid ▸ htakes) (hid ▸ hspends)
    · exact .stays (by simp [htakes, Ne.symm hid]) (hspends.others id hid)
  | buries env id' lane u hnone hinstalls hu ht =>
    by_cases hid : id = id'
    · exact .laid lane _ (hid ▸ hinstalls) (by rw [ht, hid, lookup_remember_self])
    refine .stays (by simp [hnone]) ?_
    rw [ht, ← hu]
    exact lookup_remember_ne u env lane hid

/-! ### How many there are -/

theorem Retains.length_le (h : Retains m m') : m'.entries.length ≤ m.entries.length := by
  have hsub : m'.keys ⊆ m.keys := fun id hid => by
    obtain ⟨tombstone', htombstone'⟩ := Option.isSome_iff_exists.1 (AList.lookup_isSome.2 (AList.mem_keys.2 hid))
    obtain ⟨tombstone, htombstone, -⟩ := h id tombstone' htombstone'
    exact AList.mem_keys.1 (AList.lookup_isSome.1 (htombstone ▸ rfl))
  have hkeys := (m'.keys_nodup.subperm hsub).length_le
  simpa [AList.keys, List.keys] using hkeys

theorem oldestTombstone_some (h : m.entries ≠ []) (evict : Nat) :
    ∃ oldest tombstone, oldestTombstone m evict = some oldest ∧ m.lookup oldest = some tombstone := by
  let expires : (Sigma fun _ : Nat => RejectedBodyTombstone) → Nat := fun e => e.2.expires
  obtain ⟨first, hfirst⟩ := Option.ne_none_iff_exists'.1 fun hnone => h ((List.argmin_eq_none (f := expires)).1 hnone)
  have hoff : first ∈ m.entries.filter (fun e => m.entries.all (fun f => decide (e.2.expires ≤ f.2.expires))) := by
    refine List.mem_filter.2 ⟨List.argmin_mem hfirst, ?_⟩
    rw [List.all_eq_true]
    exact fun f hf => decide_eq_true (List.le_of_mem_argmin (f := expires) hf hfirst)
  generalize hoffered : m.entries.filter (fun e => m.entries.all (fun f => decide (e.2.expires ≤ f.2.expires))) = offered
    at hoff
  have hlt : evict % offered.length < offered.length := Nat.mod_lt _ (List.length_pos_of_mem hoff)
  have hsub : offered ⊆ m.entries := fun e he => List.mem_of_mem_filter (hoffered ▸ he)
  refine ⟨offered[evict % offered.length].1, offered[evict % offered.length].2, ?_, ?_⟩
  · simp only [oldestTombstone, hoffered]
    rw [List.getElem?_eq_getElem hlt]
    rfl
  · exact (Assoc.mem_entries_iff_lookup _ _ _).1 (hsub (List.getElem_mem hlt))

theorem length_remember (h : s.rejectedBodies.entries.length ≤ maxRejectedBodyTombstonesPerPeer) (env : Env) (id lane : Nat) :
    (s.rememberRejectedBodyLocked env id lane).rejectedBodies.entries.length ≤ maxRejectedBodyTombstonesPerPeer := by
  have hpruned := (thins_prune s env.now).retains.length_le.trans h
  have hevicted : ((s.pruneRejectedBodiesLocked env.now).evictRejectedBody env).rejectedBodies.entries.length <
      maxRejectedBodyTombstonesPerPeer := by
    unfold evictRejectedBody
    split
    · assumption
    rename_i hfull
    have hsome : (s.pruneRejectedBodiesLocked env.now).rejectedBodies.entries ≠ [] := fun hnil => by
      rw [hnil] at hfull
      exact hfull (by decide)
    obtain ⟨oldest, tombstone, holdest, hlookup⟩ := oldestTombstone_some hsome env.evict
    rw [holdest]
    have hlength := (Assoc.perm_cons_erase hlookup).length_eq
    rw [List.length_cons] at hlength
    show (AList.erase oldest _).entries.length < _
    omega
  show (AList.insert id _ _).entries.length ≤ _
  rw [AList.entries_insert, List.length_cons]
  exact Nat.succ_le_of_lt ((List.kerase_sublist id _).length_le.trans_lt hevicted)

/-! ### Bounds -/

structure Bounded (s : PeerSession) : Prop where
  few : s.rejectedBodies.entries.length ≤ maxRejectedBodyTombstonesPerPeer
  small : ∀ id tombstone, s.rejectedBodies.lookup id = some tombstone → tombstone.remaining ≤ maxRejectedBodyTrailingFrames

theorem Bounded.step (h : Bounded s) (hs : s.step e = some t) : Bounded t := by
  have htombs := step_tombs hs
  refine ⟨?_, fun id tombstone hlookup => ?_⟩
  · cases htombs with
    | thins _ hthins => exact hthins.retains.length_le.trans h.few
    | spends _ _ _ _ _ hspends => exact hspends.retains.length_le.trans h.few
    | buries env id lane u _ _ hu ht => exact ht ▸ length_remember (hu ▸ h.few) env id lane
  cases htombs.fate id with
  | stays _ hstays =>
    rcases hstays with heq | hgone
    · exact h.small id tombstone (heq ▸ hlookup)
    · cases hgone.symm.trans hlookup
  | spent now lane old _ hspends =>
    cases hspends.spent.symm.trans hlookup
    exact (Nat.sub_le _ 1).trans (h.small id old hspends.found)
  | laid lane expires _ hlaid =>
    cases hlaid.symm.trans hlookup
    exact le_rfl

def allowance (s : PeerSession) (id : Nat) : Nat := (s.rejectedBodies.lookup id).elim 0 RejectedBodyTombstone.remaining

theorem Bounded.allowance_le (h : Bounded s) (id : Nat) : s.allowance id ≤ maxRejectedBodyTrailingFrames := by
  unfold allowance
  cases hlookup : s.rejectedBodies.lookup id with
  | none => exact Nat.zero_le _
  | some tombstone => exact h.small id tombstone hlookup

theorem step_allowance (hs : s.step e = some t) (hinstalls : s.installs id e = false) :
    (if (s.takesFrame e).map Prod.fst = some id then 1 else 0) + t.allowance id ≤ s.allowance id := by
  unfold allowance
  cases (step_tombs hs).fate id with
  | stays hfree hstays =>
    rw [if_neg hfree, Nat.zero_add]
    rcases hstays with heq | hgone
    · rw [heq]
    · rw [hgone]
      exact Nat.zero_le _
  | spent now lane tombstone htakes hspends =>
    have hleft := hspends.left
    rw [htakes, Option.map_some, if_pos rfl, hspends.spent, hspends.found, Option.elim_some, Option.elim_some]
    dsimp only
    omega
  | laid _ _ hlaid => cases hlaid.symm.trans hinstalls

theorem run_allowance : ∀ (events : List SessionEvent) (s t : PeerSession),
    Steps.Meets step (fun s e => s.installs id e = false) s events → Steps.run step s events = some t →
      framesTaken id events s + t.allowance id ≤ s.allowance id
  | [], s, t, _, hrun => by
    cases hrun
    exact le_of_eq (Nat.zero_add _)
  | e :: events, s, t, hmeets, hrun => by
    obtain ⟨u, hstep, hrest⟩ := Steps.run_cons_some step hrun
    rw [Steps.Meets, hstep] at hmeets
    have hone := step_allowance hstep hmeets.1
    have hothers := run_allowance events u t hmeets.2 hrest
    rw [framesTaken, hstep, Option.elim_some]
    omega

theorem discard_end_lookup {tombstone : RejectedBodyTombstone} (h : s.rejectedBodies.lookup id = some tombstone)
    (hlane : tombstone.lane = lane) :
    (s.discardRejectedRequestBody env id lane true).1.rejectedBodies.lookup id = none := by
  simp only [discardRejectedRequestBody]
  split
  · assumption
  rename_i found hfound
  have hsame : tombstone = found := Option.some.inj (h.symm.trans (lookup_prune_some hfound).1)
  rw [if_neg (not_not.2 (hsame ▸ hlane)), if_pos trivial]
  exact AList.lookup_erase _ _

/-- **Tombstones are tightly bounded.**  In every reachable state there are at most 256 of them; a `ReqBody` frame is taken
only by a tombstone of its id and lane whose time is not over; without a new one laid down at most sixteen frames are taken
for an id, and no other frame lowers what its tombstone has left; a `ReqEnd` or `Cancel` on its lane removes it when no
request is live there; and `begin` admits nothing under its id. -/
theorem rejectedBodies_bounded (events : List SessionEvent) (s : PeerSession)
    (hrun : Steps.run step newPeerSession events = some s) (id : Nat) :
    s.rejectedBodies.entries.length ≤ 256 ∧
    (∀ env c lane, s.absorbs env c = some (id, lane) →
      ∃ tombstone, s.rejectedBodies.lookup id = some tombstone ∧ tombstone.lane = lane ∧ env.now < tombstone.expires) ∧
    (∀ later t, Steps.run step s later = some t → Steps.Meets step (fun s e => s.installs id e = false) s later →
      framesTaken id later s ≤ 16) ∧
    (∀ e t tombstone tombstone', s.step e = some t → s.rejectedBodies.lookup id = some tombstone →
      t.rejectedBodies.lookup id = some tombstone' → tombstone'.remaining < tombstone.remaining →
        s.takesFrame e = some (id, tombstone.lane)) ∧
    (∀ env lane frame, frame = .reqEnd id ∨ frame = .cancel id → s.requestOnLane id lane = none →
      ∃ c, (s.onMessage env lane frame).2 = [c] ∧ ∀ (t : PeerSession) env' tombstone,
        t.rejectedBodies.lookup id = some tombstone → tombstone.lane = lane →
          (t.exec env' c).1.rejectedBodies.lookup id = none) ∧
    ∀ env lane head tombstone, s.rejectedBodies.lookup id = some tombstone → env.now < tombstone.expires →
      (s.begin env lane id head).1.next = s.next ∧ (s.begin env lane id head).1.requests = s.requests := by
  have hstart : Bounded newPeerSession := ⟨Nat.zero_le _, fun id _ h => by cases (AList.lookup_empty id).symm.trans h⟩
  have hbounded : Bounded s := Steps.run_inv step Bounded (fun _ _ _ h hs => h.step hs) events _ s hstart hrun
  refine ⟨hbounded.few, ?_, ?_, ?_, ?_, ?_⟩
  · intro env c lane habsorbs
    have hc : ∀ id' r allowTrailing timedOut, c ≠ .cancelState id' r allowTrailing timedOut := fun _ _ _ _ heq => by
      rw [heq] at habsorbs
      cases habsorbs
    rcases exec_tombstones_of_ne s env c hc with ⟨-, hnone⟩ | ⟨id', lane', tombstone, hsome, hspends⟩
    · cases hnone.symm.trans habsorbs
    · cases hsome.symm.trans habsorbs
      exact ⟨tombstone, hspends.found, hspends.lane, hspends.lasts⟩
  · intro later t hlater hmeets
    have htaken := run_allowance later s t hmeets hlater
    exact (Nat.le_of_add_right_le htaken).trans (hbounded.allowance_le id)
  · intro e t tombstone tombstone' hstep hbefore hafter hless
    cases (step_tombs hstep).fate id with
    | stays _ hstays =>
      rcases hstays with heq | hgone
      · cases hbefore.symm.trans (heq.symm.trans hafter)
        exact absurd hless (lt_irrefl _)
      · cases hgone.symm.trans hafter
    | spent now lane spent htakes hspends =>
      cases hbefore.symm.trans hspends.found
      rw [htakes, hspends.lane]
    | laid lane expires _ hlaid =>
      cases hlaid.symm.trans hafter
      exact absurd hless (not_lt.2 (hbounded.small id tombstone hbefore))
  · intro env lane frame hframe hnone
    rcases hframe with rfl | rfl
    · refine ⟨.discardBody id lane true, by simp only [onMessage, hnone], fun t env' tombstone hfound hlane => ?_⟩
      rw [exec_discardBody_rejectedBodies]
      exact discard_end_lookup hfound hlane
    · refine ⟨.dropTombstone id lane, by simp only [onMessage, hnone], fun t env' tombstone hfound hlane => ?_⟩
      exact discard_end_lookup hfound hlane
  · intro env lane head tombstone hfound hlasts
    rcases begin_cases s env lane id head with ⟨hadmits, -⟩ | ⟨-, t, hbegin, hrefuses⟩
    · have hstays : ¬ Expires s env.now id := by
        rintro ⟨found, hfound', hover⟩
        cases hfound.symm.trans hfound'
        exact not_lt.2 hover hlasts
      cases hfound.symm.trans ((lookup_prune hstays).symm.trans hadmits.notDraining)
    obtain ⟨u, hburies, hreports⟩ := hrefuses.reports
    rw [hbegin]
    obtain ⟨m, rfl⟩ := hburies.eq
    obtain ⟨errors, v, c, p, rfl, -⟩ := hreports.eq
    exact ⟨rfl, rfl⟩

def cancelledUpload : List SessionEvent :=
  [.attach, .receive 0 (.req 7 9 (some ⟨protocolVersion, "POST".toList, ['/'], true, 0, 8⟩)) {}, .laneGoesOn 0 {},
    .laneGoesOn 0 {}, .receive 0 (.cancel 7) {}] ++ List.replicate 6 (.laneGoesOn 0 {})

def oneFrame : List SessionEvent := [.receive 0 (.reqBody 7 []) {}, .laneGoesOn 0 {}]

/-- Another frame of it comes, and its tombstone takes it. -/
theorem rejectedBodies_bounded_oneFrame : ∃ s, Steps.run step newPeerSession cancelledUpload = some s ∧
    framesTaken 7 oneFrame s = 1 ∧ framesTaken 7 oneFrame s ≤ 16 := by
  obtain ⟨s, hrun, hone, hmeets, hsome⟩ : ∃ s, Steps.run step newPeerSession cancelledUpload = some s ∧
      framesTaken 7 oneFrame s = 1 ∧ Steps.Meets step (fun s e => s.installs 7 e = false) s oneFrame ∧
      (Steps.run step s oneFrame).isSome = true :=
    Steps.exists_run (by decide +kernel)
  obtain ⟨t, hlater⟩ := Option.isSome_iff_exists.1 hsome
  have hfew := (rejectedBodies_bounded cancelledUpload s hrun 7).2.2.1 _ t hlater hmeets
  exact ⟨s, hrun, hone, hfew⟩

end PeerSession
end YuriRtc
