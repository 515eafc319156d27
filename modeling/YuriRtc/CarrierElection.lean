import YuriRtc.CarrierBridge
/-!
# CarrierElection — one carrier, or somebody is being asked

What holds of the bridge between any two of its events: without a port, a fetch that waits is waiting for a wake epoch that is
active; with a port none is; a port that is ready has nobody waiting for it.  The calls nest (the last waiter to leave
detaches a port that is not ready, `detach` starts the next epoch, `attach` detaches), so the invariant is proved of `detach`
and of `cleanup` from what holds where they are called.
-/
namespace YuriRtc

open Steps (of_guard run)
namespace CarrierBridge

variable {s t : CarrierBridge}

structure Elected (s : CarrierBridge) : Prop where
  wakes : s.port = none → s.waiters ≠ [] → s.wakeEpoch.isSome = true
  rests : s.port.isSome = true → s.wakeEpoch = none
  ready : s.portReady = true → s.port.isSome = true ∧ s.waiters = []
  waiting : ∀ task ∈ s.waiters, s.tasks task = .waiting

theorem elected_new : newSwBridge.Elected where
  wakes _ h := absurd rfl h
  rests h := by cases h
  ready h := by cases h
  waiting _ h := absurd h List.not_mem_nil

theorem Elected.congr (h : s.Elected) (hport : t.port = s.port := by rfl) (hready : t.portReady = s.portReady := by rfl)
    (hwaiters : t.waiters = s.waiters := by rfl) (hepoch : t.wakeEpoch = s.wakeEpoch := by rfl)
    (htasks : ∀ task, s.tasks task = .waiting → t.tasks task = .waiting := by exact fun _ ht => ht) : t.Elected where
  wakes hnone hsome := by
    rw [hport] at hnone
    rw [hwaiters] at hsome
    rw [hepoch]
    exact h.wakes hnone hsome
  rests hsome := by
    rw [hport] at hsome
    rw [hepoch]
    exact h.rests hsome
  ready hr := by
    rw [hready] at hr
    rw [hport, hwaiters]
    exact h.ready hr
  waiting task hmem := by
    rw [hwaiters] at hmem
    exact htasks task (h.waiting task hmem)

theorem setTask_of_ne (s : CarrierBridge) {task other : Nat} (hne : other ≠ task) (value : CarrierTask) :
    (s.setTask task value).tasks other = s.tasks other := Function.update_of_ne hne ..

theorem Elected.setTask (h : s.Elected) {task : Nat} (hnot : s.tasks task ≠ .waiting) (value : CarrierTask) :
    (s.setTask task value).Elected :=
  h.congr rfl rfl rfl rfl fun other hother => by grind [setTask_of_ne]

/-! ### Nested calls -/

theorem elected_ensureWakeEpoch (hport : s.port = none) (hready : s.portReady = false)
    (hwaiting : ∀ task ∈ s.waiters, s.tasks task = .waiting) : s.ensureWakeEpoch.Elected := by
  have hrests : s.port.isSome = true → s.wakeEpoch = none := fun hsome => by
    rw [hport] at hsome
    cases hsome
  have hnotReady : s.portReady = true → s.port.isSome = true ∧ s.waiters = [] := fun hr => by
    rw [hready] at hr
    cases hr
  unfold ensureWakeEpoch
  split
  · rename_i hskip
    refine ⟨fun _ hsome => ?_, hrests, hnotReady, hwaiting⟩
    simp_all
  · refine ⟨fun _ _ => rfl, fun hsome => ?_, hnotReady, hwaiting⟩
    simp_all

theorem elected_detach (hwaiting : ∀ task ∈ s.waiters, s.tasks task = .waiting) (reason : String) :
    (s.detach reason).Elected :=
  elected_ensureWakeEpoch rfl rfl hwaiting

structure Leaving (s : CarrierBridge) (task : Nat) : Prop where
  wakes : s.port = none → s.waiters.filter (· ≠ task) ≠ [] → s.wakeEpoch.isSome = true
  rests : s.port.isSome = true → s.wakeEpoch = none
  ready : s.portReady = true → s.port.isSome = true ∧ s.waiters.filter (· ≠ task) = []
  waiting : ∀ other ∈ s.waiters.filter (· ≠ task), s.tasks other = .waiting

theorem Leaving.cleanup {task : Nat} (h : s.Leaving task) : (s.cleanup task).Elected := by
  unfold CarrierBridge.cleanup
  simp only
  split
  · rename_i hlast
    split
    · exact elected_detach h.waiting _
    rename_i hport
    refine ⟨fun _ hsome => absurd hlast.1 hsome, fun _ => rfl, fun hr => ?_, h.waiting⟩
    exact absurd hr (by rw [hlast.2]; exact Bool.false_ne_true)
  · exact { h with }

theorem Elected.leaving (h : s.Elected) (task : Nat) (outcome : CarrierTask) : (s.setTask task outcome).Leaving task where
  wakes hport hsome := by
    refine h.wakes hport fun hnone => hsome ?_
    show s.waiters.filter (· ≠ task) = []
    rw [hnone]
    rfl
  rests := h.rests
  ready hr := by
    refine ⟨(h.ready hr).1, ?_⟩
    show s.waiters.filter (· ≠ task) = []
    rw [(h.ready hr).2]
    rfl
  waiting other hmem := by
    obtain ⟨hin, hne⟩ := List.mem_filter.1 hmem
    rw [setTask_of_ne s (of_decide_eq_true hne)]
    exact h.waiting other hin

theorem Elected.settle (h : s.Elected) (task : Nat) (outcome : CarrierTask) : (s.settle task outcome).Elected := by
  unfold CarrierBridge.settle
  split
  · exact (h.leaving task outcome).cleanup
  · exact h

theorem Elected.settleAll (outcome : CarrierTask) : ∀ (tasks : List Nat) {s : CarrierBridge}, s.Elected →
    (s.settleAll outcome tasks).Elected
  | [], _, h => h
  | task :: tasks, _, h => Elected.settleAll outcome tasks (h.settle task outcome)

/-! ### A wake that fails

The epoch is over before the waiters leave, so the invariant does not hold while they do. -/

structure Rejecting (s : CarrierBridge) : Prop where
  port : s.port = none
  notReady : s.portReady = false
  epoch : s.wakeEpoch = none
  waiting : ∀ task ∈ s.waiters, s.tasks task = .waiting

theorem Rejecting.settle (h : s.Rejecting) (task : Nat) (outcome : CarrierTask) :
    (s.settle task outcome).Rejecting ∧ (s.settle task outcome).waiters = s.waiters.filter (· ≠ task) := by
  unfold CarrierBridge.settle
  split
  · have hleft : ∀ other ∈ s.waiters.filter (· ≠ task), (s.setTask task outcome).tasks other = .waiting := by
      intro other hmem
      obtain ⟨hin, hne⟩ := List.mem_filter.1 hmem
      rw [setTask_of_ne s (of_decide_eq_true hne)]
      exact h.waiting other hin
    unfold CarrierBridge.cleanup
    simp only
    split
    · split
      · rename_i hheld
        have hsome : s.port.isSome = true := hheld
        rw [h.port] at hsome
        cases hsome
      · exact ⟨⟨h.port, h.notReady, rfl, hleft⟩, rfl⟩
    · exact ⟨{ h with waiting := hleft }, rfl⟩
  · rename_i hnot
    refine ⟨h, (List.filter_eq_self.2 fun other hin => ?_).symm⟩
    simp only [decide_eq_true_eq]
    rintro rfl
    exact hnot (h.waiting other hin)

theorem Rejecting.settleAll (outcome : CarrierTask) : ∀ (tasks : List Nat) {s : CarrierBridge}, s.Rejecting →
    (s.settleAll outcome tasks).Rejecting ∧ ∀ task ∈ (s.settleAll outcome tasks).waiters, task ∈ s.waiters ∧ task ∉ tasks
  | [], _, h => ⟨h, fun _ hmem => ⟨hmem, List.not_mem_nil⟩⟩
  | task :: tasks, s, h => by
    obtain ⟨hnext, hwaiters⟩ := h.settle task outcome
    obtain ⟨hlast, hleft⟩ := Rejecting.settleAll outcome tasks hnext
    refine ⟨hlast, fun other hmem => ?_⟩
    obtain ⟨hin, hnot⟩ := hleft other hmem
    simp_all

theorem elected_wakeFails (h : s.Rejecting) (outcome : CarrierTask) : (s.settleAll outcome s.waiters).Elected := by
  obtain ⟨hlast, hleft⟩ := h.settleAll outcome s.waiters
  have hnobody : (s.settleAll outcome s.waiters).waiters = [] :=
    List.eq_nil_iff_forall_not_mem.2 fun task hmem => (hleft task hmem).2 (hleft task hmem).1
  refine ⟨fun _ hsome => absurd hnobody hsome, fun _ => hlast.epoch, fun hr => ?_, hlast.waiting⟩
  rw [hlast.notReady] at hr
  cases hr

/-! ### The events -/

theorem Elected.install (h : s.Elected) (task : Nat) (aborted : Bool) : (s.install task aborted).Elected := by
  -- the waiter is in, and everybody else is where they were
  have hwaiting : ∀ other ∈ s.waiters ++ [task], (s.pushWaiter task).tasks other = .waiting := by
    intro other hmem
    rcases eq_or_ne other task with rfl | hne
    · exact Function.update_self ..
    · refine (Function.update_of_ne hne ..).trans (h.waiting other ?_)
      exact (List.mem_append.1 hmem).resolve_right fun hc => hne (List.mem_singleton.1 hc)
  have hothers : (s.pushWaiter task).waiters.filter (· ≠ task) = s.waiters.filter (· ≠ task) := by
    show (s.waiters ++ [task]).filter (· ≠ task) = s.waiters.filter (· ≠ task)
    simp
  have hleaves : ∀ outcome : CarrierTask, ((s.pushWaiter task).settle task outcome).Elected := by
    intro outcome
    unfold CarrierBridge.settle
    rw [if_pos (hwaiting task (List.mem_append_right _ List.mem_cons_self))]
    have hleaving := h.leaving task outcome
    refine Leaving.cleanup ⟨fun hport hsome => ?_, h.rests, fun hr => ⟨(h.ready hr).1, ?_⟩, fun other hmem => ?_⟩
    · refine hleaving.wakes hport fun hnone => hsome ?_
      exact hothers.trans hnone
    · exact hothers.trans (hleaving.ready hr).2
    · have hmem' : other ∈ (s.pushWaiter task).waiters.filter (· ≠ task) := hmem
      simp_all [setTask_of_ne]
  unfold CarrierBridge.install
  split
  · exact hleaves _
  split
  · exact hleaves _
  rename_i hnotReady
  split
  · rename_i hheld
    refine ⟨fun hport => ?_, h.rests, fun hr => absurd ⟨hheld, hr⟩ hnotReady, hwaiting⟩
    have hnone : s.port = none := hport
    simp_all
  rename_i hfree
  have hfalse : s.portReady = false := by
    cases hr : s.portReady with
    | false => rfl
    | true => exact absurd (h.ready hr).1 hfree
  exact elected_ensureWakeEpoch (s := s.pushWaiter task) (Option.not_isSome_iff_eq_none.1 hfree) hfalse hwaiting

theorem elected_takeOver (hwaiting : ∀ task ∈ s.waiters, s.tasks task = .waiting) (port : Nat) (owner : Option ClientId)
    (preHead : List PendingEntry) : (s.takeOver port owner preHead).Elected where
  wakes h := by cases h
  rests _ := rfl
  ready h := by cases h
  waiting := hwaiting

theorem Elected.attach (h : s.Elected) (port : Nat) (owner : Option ClientId) : (s.attach port owner).Elected := by
  unfold CarrierBridge.attach
  split
  · exact h.congr
  split
  · exact elected_takeOver (elected_detach h.waiting _).waiting port owner []
  · exact elected_takeOver (s := { s with pending := s.pending.filter (·.headReceived) }) h.waiting port owner _

theorem Elected.onMessage (h : s.Elected) (leaves : Bool) (message : PageMessage) : (s.onMessage leaves message).Elected := by
  cases message <;> simp only [CarrierBridge.onMessage]
  case down reason => exact elected_detach h.waiting reason
  case ready =>
    split
    · exact h
    rename_i hopens
    refine Elected.settleAll _ _ ⟨fun _ hsome => absurd rfl hsome, fun _ => rfl, fun _ => ⟨?_, rfl⟩,
      fun _ hmem => absurd hmem List.not_mem_nil⟩
    exact Option.isSome_iff_ne_none.2 fun hnone => hopens (.inr hnone)
  case head id =>
    split
    · exact h.congr
    · exact h
  case body id frame byteOffset byteLength =>
    split
    · split
      · exact h.congr
      · cases leaves <;> exact h.congr
    · exact h
  case finish id =>
    split
    · exact h.congr
    · exact h
  case err id message =>
    split
    · exact h.congr
    · exact h

theorem Elected.step (h : s.Elected) {e : CarrierEvent} (hs : s.step e = some t) : t.Elected := by
  cases e <;> simp only [CarrierBridge.step] at hs
  case attach port owner =>
    cases hs
    exact h.attach port owner
  case receive port message leaves =>
    cases hs
    split
    · exact h.onMessage leaves message
    · exact h
  case readyTimeout =>
    split at hs
    · cases hs
      split
      · exact h.congr
      · exact elected_detach h.waiting _
    · cases hs
  case check task allowCached now =>
    obtain ⟨hunused, rfl⟩ := of_guard hs
    exact h.setTask (by rw [hunused]; exact nofun) _
  case acquire task aborted now =>
    obtain ⟨hunused, rfl⟩ := of_guard hs
    exact h.setTask (by rw [hunused]; exact nofun) _
  case found task owner now =>
    split at hs <;> cases hs
    rename_i acquiring allowCached port ownerClientId hlooking
    have hnot : s.tasks task ≠ .waiting := by simp [hlooking]
    unfold checked
    split
    · exact h.setTask hnot _
    split
    · exact (h.setTask hnot (.looked acquiring s.portReady)).congr
    · exact elected_detach (h.setTask hnot _).waiting _
  case resume task aborted =>
    split at hs <;> cases hs
    · rename_i hlooked
      exact h.setTask (by rw [hlooked]; exact nofun) _
    · exact h.install task aborted
  case abort task =>
    obtain ⟨-, rfl⟩ := of_guard hs
    exact h.settle task _
  case timeout task =>
    obtain ⟨-, rfl⟩ := of_guard hs
    exact h.settle task _
  case wake epoch =>
    obtain ⟨-, rfl⟩ := of_guard hs
    split
    · exact h.congr
    · exact h.congr
  case wakeFails epoch =>
    obtain ⟨-, rfl⟩ := of_guard hs
    split
    · exact h.congr
    rename_i hactive
    -- an epoch is active, so there is no port, and none is ready
    have hport : s.port = none := by cases hheld : s.port <;> simp_all [h.rests]
    have hnotReady : s.portReady = false := by
      cases hr : s.portReady with
      | false => rfl
      | true =>
        have hheld := (h.ready hr).1
        simp_all
    exact elected_wakeFails (s := { s with waking := _, wakeEpoch := none }) ⟨hport, hnotReady, rfl, h.waiting⟩ _
  case request task aborted posted =>
    split at hs <;> cases hs
    rename_i original hacquired
    have hresumed : (s.setTask task .unused).Elected := h.setTask (by rw [hacquired]; exact nofun) _
    split
    · exact hresumed
    unfold beginRequest
    split
    · exact hresumed.congr
    · exact hresumed.congr
  case leave id =>
    cases hs
    exact h.congr

theorem attach_standby (s : CarrierBridge) {held : Nat} {owner other : ClientId} (hport : s.port = some held)
    (howner : s.ownerClientId = some owner) (hne : other ≠ owner) (port : Nat) :
    s.attach port (some other) = { s with posts := s.posts ++ [(port, .standby)] } := by
  have hstandby : s.isStandby (some other) = true := by
    simp [isStandby, hport, howner, hne.symm]
  rw [attach, if_pos hstandby]

/-- **The carrier election, between any two events of the bridge.**  A fetch that waits without a port has an active wake epoch,
and with a port there is none; a port that is ready is held and has nobody waiting; what comes on another port changes
nothing; and a page other than the one that carries the transport is told to stand by, and nothing else happens. -/
theorem one_carrier (events : List CarrierEvent) (s : CarrierBridge) (hrun : run step newSwBridge events = some s) :
    (s.port = none → s.waiters ≠ [] → s.wakeEpoch.isSome = true) ∧
    (s.port.isSome = true → s.wakeEpoch = none) ∧
    (s.portReady = true → s.port.isSome = true ∧ s.waiters = []) ∧
    (∀ port message leaves, s.port ≠ some port → s.step (.receive port message leaves) = some s) ∧
    (∀ held owner, s.port = some held → s.ownerClientId = some owner → ∀ port other, other ≠ owner →
      s.step (.attach port (some other)) = some { s with posts := s.posts ++ [(port, .standby)] }) := by
  have h : s.Elected :=
    Steps.run_inv step Elected (fun _ _ _ h hs => h.step hs) events newSwBridge s elected_new hrun
  refine ⟨h.wakes, h.rests, h.ready, fun port message leaves hnot => ?_, fun held owner hport howner port other hne => ?_⟩
  · exact congrArg some (if_neg hnot)
  · exact congrArg some (attach_standby s hport howner hne port)

def twoPages : List CarrierEvent :=
  [.acquire 0 false 0, .resume 0 false, .wake 0, .attach 7 (some ['a'])]

theorem one_carrier_second_page :
    ∃ s, run step newSwBridge twoPages = some s ∧ s.waiters = [0] ∧ s.wakeEpoch = none ∧
      s.step (.attach 8 (some ['b'])) = some { s with posts := s.posts ++ [(8, .standby)] } := by
  obtain ⟨s, hrun, hport, howner, hwaiters⟩ : ∃ s, run step newSwBridge twoPages = some s ∧ s.port = some 7 ∧
      s.ownerClientId = some ['a'] ∧ s.waiters = [0] :=
    Steps.exists_run (by decide +kernel)
  obtain ⟨-, hrests, -, -, hstandby⟩ := one_carrier _ s hrun
  exact ⟨s, hrun, hwaiters, hrests (by rw [hport]; rfl), hstandby 7 ['a'] hport howner 8 ['b'] (by decide)⟩

end CarrierBridge
end YuriRtc
