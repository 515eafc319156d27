import YuriRtc.CacheEpoch
/-!
# CacheBarrier — an invalidation is a barrier

Once `invalidateCaches` has resolved, no cache holds an entry it was to delete whose request captured its epoch before the
call, then or at any later time (`invalidation_barrier`).  A write checks the epoch in the turn it calls `cache.put` in, so
one that is older than the call has either called it before, and is awaited, or never will.
-/
namespace YuriRtc

open CacheStorage (Entry Disk)

namespace Invalidation

variable (call : Invalidation) (entry : Entry Nat FetchRequest Kept)

def Matches : Prop :=
  call.isClear = true ∨ entry.request.url.href ∈ call.urls.getD [] ∨
    ∃ tag ∈ call.tags.getD [], tag ∈ cacheTags entry.response.response.headers

/-- The same by what the `cache-tag` header says, recognised or not. -/
def MatchesHeader : Prop :=
  call.isClear = true ∨ entry.request.url.href ∈ call.urls.getD [] ∨
    ∃ tag ∈ call.tags.getD [], tag ∈ entry.response.response.headers.elements "cache-tag".toList

def Precedes : Prop := ∀ ask ∈ entry.response.ask, ask < call.asks

end Invalidation

namespace SweepStage

def isEarly : SweepStage → Bool
  | .queued | .waiting => true
  | .listing | .clearing _ | .sweeping _ | .reading _ _ | .visiting _ _ _ | .deleting _ _ _ _ | .done | .failed => false

def isSweep : SweepStage → Bool
  | .sweeping _ | .reading _ _ | .visiting _ _ _ | .deleting _ _ _ _ => true
  | .queued | .waiting | .listing | .clearing _ | .done | .failed => false

def Ahead (name : CacheName) (entry : Entry Nat FetchRequest Kept) : SweepStage → Prop
  | .queued | .waiting | .listing | .failed => True
  | .clearing names | .sweeping names => name ∈ names
  | .reading cache names => name ∈ names ∨ entry.cache = cache
  | .visiting cache requests names => name ∈ names ∨ entry.cache = cache ∧ entry.request ∈ requests
  | .deleting cache request requests names =>
    name ∈ names ∨ entry.cache = cache ∧ entry.request ∈ request :: requests
  | .done => False

theorem ahead_of_isEarly {stage : SweepStage} (h : stage.isEarly = true) (name : CacheName)
    (entry : Entry Nat FetchRequest Kept) : stage.Ahead name entry := by
  cases stage <;> first | exact trivial | cases h

end SweepStage

structure Barred (w : CacheWorker) (call : Invalidation) : Prop where
  asks : call.asks ≤ w.asks.length
  epoch : call.epoch ≤ w.epoch
  older : ∀ ask < call.asks, ∀ epoch, w.asks[ask]? = some epoch → epoch < call.epoch
  sweeps : call.stage.isSweep = true → call.isClear = false
  putting : ∀ id write cache, w.writes.lookup id = some write → write.stage = .putting cache → write.ask < call.asks →
    id ∈ call.awaited ∧ call.stage.isEarly = true
  ahead : ∀ name entry, w.disk.Holds name entry → call.Precedes entry → call.Matches entry → call.stage.Ahead name entry

/-- **What a step can do to the caches**: a write calls `cache.put` under the current epoch only, and an entry is new only
where a `cache.put` was awaited. -/
structure Passes (w t : CacheWorker) : Prop where
  asks : w.asks <+: t.asks
  epoch : w.epoch ≤ t.epoch
  captured : ∀ epoch ∈ t.asks, epoch ∈ w.asks ∨ epoch = w.epoch
  putting : ∀ id write cache, t.writes.lookup id = some write → write.stage = .putting cache →
    w.writes.lookup id = some write ∨ w.asks[write.ask]? = some w.epoch
  holds : ∀ name entry, t.disk.Holds name entry → w.disk.Holds name entry ∨
    ∃ id write cache, w.writes.lookup id = some write ∧ write.stage = .putting cache ∧ entry.response.ask = some write.ask

variable {call : Invalidation}

theorem Barred.passes {w t : CacheWorker} (h : Barred w call) (hp : Passes w t) : Barred t call := by
  refine ⟨h.asks.trans hp.asks.length_le, h.epoch.trans hp.epoch, fun ask hask epoch hepoch => ?_, h.sweeps,
    fun id write cache hwrite hputting hask => ?_, fun name entry hholds hprecedes hmatches => ?_⟩
  · obtain ⟨more, hmore⟩ := hp.asks
    rw [← hmore, List.getElem?_append_left (hask.trans_le h.asks)] at hepoch
    exact h.older ask hask epoch hepoch
  · rcases hp.putting id write cache hwrite hputting with hold | hnow
    · exact h.putting id write cache hold hputting hask
    · -- the epoch has passed
      exact absurd (h.older write.ask hask w.epoch hnow) (not_lt.2 h.epoch)
  rcases hp.holds name entry hholds with hold | ⟨id, write, cache, hwrite, hputting, hask⟩
  · exact h.ahead name entry hold hprecedes hmatches
  · have hearly := (h.putting id write cache hwrite hputting (hprecedes write.ask hask)).2
    exact SweepStage.ahead_of_isEarly hearly name entry

theorem Barred.moves {w : CacheWorker} (h : Barred w call) (stage : SweepStage)
    (hsweeps : stage.isSweep = true → call.isClear = false)
    (hputting : stage.isEarly = true ∨ call.stage.isEarly = false ∨ ∀ id ∈ call.awaited, w.writes.lookup id = none)
    (hahead : ∀ name entry, w.disk.Holds name entry → call.Precedes entry → call.Matches entry →
      call.stage.Ahead name entry → stage.Ahead name entry) : Barred w { call with stage := stage } := by
  refine ⟨h.asks, h.epoch, h.older, hsweeps, fun id write cache hwrite hput hask => ?_,
    fun name entry hholds hprecedes hmatches => hahead name entry hholds hprecedes hmatches
      (h.ahead name entry hholds hprecedes hmatches)⟩
  obtain ⟨hawaited, hearly⟩ := h.putting id write cache hwrite hput hask
  rcases hputting with hstage | hlate | hgone
  · exact ⟨hawaited, hstage⟩
  · rw [hearly] at hlate
    cases hlate
  · simp_all

namespace CacheWorker

variable {w t : CacheWorker}

/-! ### What each turn does to the caches -/

theorem passes_of_disk (hasks : t.asks = w.asks) (hepoch : t.epoch = w.epoch) (hwrites : t.writes = w.writes)
    (hholds : ∀ name entry, t.disk.Holds name entry → w.disk.Holds name entry) : Passes w t := by
  refine ⟨by rw [hasks], by rw [hepoch], fun epoch h => .inl (hasks ▸ h), fun id write cache hwrite _ => .inl ?_,
    fun name entry h => .inl (hholds name entry h)⟩
  rwa [← hwrites]

theorem passes_setWrite {id : Nat} {next : CacheWrite} {disk : CacheDisk}
    (hnext : ∀ cache, next.stage = .putting cache → w.asks[next.ask]? = some w.epoch)
    (hholds : ∀ name entry, disk.Holds name entry → w.disk.Holds name entry ∨
      ∃ id write cache, w.writes.lookup id = some write ∧ write.stage = .putting cache ∧ entry.response.ask = some write.ask) :
    Passes w { w.setWrite id next with disk := disk } := by
  refine ⟨List.prefix_refl _, le_rfl, fun _ h => .inl h, fun other found cache hfound hputting => ?_, hholds⟩
  change (w.writes.insert id next).lookup other = some found at hfound
  grind [AList.lookup_insert, AList.lookup_insert_ne]

theorem stepWrite_passes {id : Nat} {write : CacheWrite} (hwrite : w.writes.lookup id = some write) {e : CacheEvent}
    (hs : w.stepWrite id write e = some t) : Passes w t ∧ t.calls = w.calls := by
  cases e with
  | proceeds _ cache =>
    simp only [stepWrite] at hs
    split at hs
    · split at hs
      · split at hs
        · rename_i hepoch
          cases hs
          exact ⟨passes_setWrite (fun _ _ => hepoch) fun _ _ h => .inl h, rfl⟩
        · cases hs
          exact ⟨passes_setWrite nofun fun _ _ h => .inl h, rfl⟩
      · cases hs
    · cases hs
    · cases hs
  | lands _ stores =>
    simp only [stepWrite] at hs
    split at hs
    · rename_i cache hputting
      split at hs
      · cases hs
        refine ⟨passes_setWrite nofun fun name entry h => ?_, rfl⟩
        rcases Disk.holds_put h with hold | hnew
        · exact .inl hold
        · exact .inr ⟨id, write, cache, hwrite, hputting, by rw [hnew]⟩
      · cases hs
        exact ⟨passes_setWrite nofun fun _ _ h => .inl h, rfl⟩
    · cases hs
    · cases hs
  | finishes _ =>
    have herase : ∀ u, some { w with writes := w.writes.erase id } = some u → Passes w u ∧ u.calls = w.calls := by
      intro u hu
      cases hu
      refine ⟨⟨List.prefix_refl _, le_rfl, fun _ h => .inl h, fun other found cache hfound _ => .inl ?_,
        fun _ _ h => .inl h⟩, rfl⟩
      grind [AList.lookup_erase, AList.lookup_erase_ne]
    grind [stepWrite]
  | _ => cases hs

def Turns (w t : CacheWorker) (index : Nat) (call : Invalidation) : Prop :=
  Passes w t ∧ ∃ stage, t.calls = w.calls.set index { call with stage := stage } ∧
    (Barred w call → Barred t { call with stage := stage })

theorem turns_of {index : Nat} {stage : SweepStage} {disk : CacheDisk}
    (hholds : ∀ name entry, disk.Holds name entry → w.disk.Holds name entry)
    (hputting : stage.isEarly = true ∨ call.stage.isEarly = false ∨ ∀ id ∈ call.awaited, w.writes.lookup id = none)
    (hsweeps : stage.isSweep = true → call.stage.isSweep = true ∨ call.isClear = false)
    (hahead : ∀ name entry, disk.Holds name entry → call.Matches entry → (call.stage.isSweep = true → call.isClear = false) →
      call.stage.Ahead name entry → stage.Ahead name entry) : Turns w { w.setCall index call stage with disk := disk } index call := by
  have hp : Passes w { w.setCall index call stage with disk := disk } := passes_of_disk rfl rfl rfl hholds
  exact ⟨hp, stage, rfl, fun h => (h.passes hp).moves stage (fun hstage => (hsweeps hstage).elim h.sweeps id) hputting
    fun name entry hholds _ hmatches => hahead name entry hholds hmatches h.sweeps⟩

theorem wants_of_matches (hclear : call.isClear = false) {entry : Entry Nat FetchRequest Kept}
    (hmem : entry ∈ w.disk.stored) (hmatches : call.Matches entry) :
    call.wants entry.request ((CacheStorage.lookup answersFor entry.cache entry.request w.disk.stored).map
      fun found => found.response.response) = true := by
  rw [Disk.lookup_self hmem]
  simp only [Invalidation.wants, Option.map_some, Bool.or_eq_true, List.contains_iff_mem, List.any_eq_true]
  rcases hmatches with hall | hurl | ⟨tag, hlisted, htag⟩
  · rw [hclear] at hall
    cases hall
  · exact .inl hurl
  · exact .inr ⟨tag, htag, hlisted⟩

theorem stepCall_turns {index : Nat} {e : CacheEvent}
    (hs : w.stepCall index call e = some t) : Turns w t index call := by
  cases e <;> simp only [stepCall] at hs
  case advances _ =>
    split at hs
    · -- its turn in the queue has come
      split at hs
      · cases hs
        exact turns_of (fun _ _ h => h) (.inl rfl) nofun fun _ _ _ _ _ _ => trivial
      · cases hs
    · -- the writes it awaits have settled
      split at hs
      · rename_i hsettled
        cases hs
        refine turns_of (fun _ _ h => h) (.inr (.inr fun id hid => ?_)) nofun fun _ _ _ _ _ _ => trivial
        exact Option.isNone_iff_eq_none.1 (List.all_eq_true.1 hsettled id hid)
      · cases hs
    · rename_i hstage
      have hlate : call.stage.isEarly = false := by rw [hstage]; rfl
      have hlisted : ∀ name (entry : Entry Nat FetchRequest Kept), w.disk.Holds name entry → name ∈ w.disk.registry.keys :=
        fun name entry h => AList.mem_keys.1 (AList.lookup_isSome.1 (by rw [h.2]; rfl))
      split at hs
      · cases hs
        exact turns_of (fun _ _ h => h) (.inr (.inl hlate)) nofun fun name entry h _ _ _ => hlisted name entry h
      rename_i hclear
      cases hs
      exact turns_of (fun _ _ h => h) (.inr (.inl hlate)) (fun _ => .inr (Bool.eq_false_iff.2 hclear))
        fun name entry h _ _ _ => hlisted name entry h
    · rename_i hstage
      cases hs
      refine turns_of (fun _ _ h => h) (.inr (.inl (by rw [hstage]; rfl))) nofun fun _ _ _ _ _ hahead => ?_
      rw [hstage] at hahead
      cases hahead
    · cases hs
    · rename_i hstage
      cases hs
      refine turns_of (fun _ _ h => h) (.inr (.inl (by rw [hstage]; rfl))) nofun fun _ _ _ _ _ hahead => ?_
      rw [hstage] at hahead
      cases hahead
    · rename_i name names hstage
      cases hs
      refine turns_of (fun _ _ h => Disk.holds_openCache h) (.inr (.inl (by rw [hstage]; rfl))) (fun _ => .inl (by rw [hstage]; rfl))
        fun other entry h _ _ hahead => ?_
      rw [hstage] at hahead
      rcases List.mem_cons.1 hahead with rfl | hrest
      · exact .inr (Disk.holds_openCache h).openCache.symm
      · exact .inl hrest
    · rename_i cache names hstage
      cases hs
      refine turns_of (fun _ _ h => h) (.inr (.inl (by rw [hstage]; rfl))) (fun _ => .inl (by rw [hstage]; rfl))
        fun other entry h _ _ hahead => ?_
      rw [hstage] at hahead
      exact hahead.imp_right fun hcache => ⟨hcache, hcache ▸ Disk.mem_keys h.1⟩
    · rename_i cache names hstage
      cases hs
      refine turns_of (fun _ _ h => h) (.inr (.inl (by rw [hstage]; rfl))) (fun _ => .inl (by rw [hstage]; rfl))
        fun other entry h _ _ hahead => ?_
      rw [hstage] at hahead
      exact hahead.resolve_right fun hnone => by cases hnone.2
    · rename_i cache request requests names hstage
      have hlate : call.stage.isEarly = false := by rw [hstage]; rfl
      split at hs
      · cases hs
        refine turns_of (fun _ _ h => h) (.inr (.inl hlate)) (fun _ => .inl (by rw [hstage]; rfl))
          fun other entry h _ _ hahead => ?_
        rwa [hstage] at hahead
      rename_i hunwanted
      cases hs
      refine turns_of (fun _ _ h => h) (.inr (.inl hlate)) (fun _ => .inl (by rw [hstage]; rfl))
        fun other entry h hmatches hsweeps hahead => ?_
      rw [hstage] at hahead
      refine hahead.imp_right fun ⟨hcache, hrequest⟩ => ⟨hcache, ?_⟩
      rcases List.mem_cons.1 hrequest with rfl | hrest
      · have hclear := hsweeps (by rw [hstage]; rfl)
        exact absurd (wants_of_matches hclear h.1 hmatches) (hcache ▸ hunwanted)
      · exact hrest
    · rename_i cache request requests names hstage
      cases hs
      refine turns_of (fun _ _ h => (Disk.holds_delete h).1) (.inr (.inl (by rw [hstage]; rfl))) (fun _ => .inl (by rw [hstage]; rfl))
        fun other entry h _ _ hahead => ?_
      rw [hstage] at hahead
      obtain ⟨hholds, hmiss⟩ := Disk.holds_delete h
      refine hahead.imp_right fun ⟨hcache, hrequest⟩ => ⟨hcache, ?_⟩
      rcases List.mem_cons.1 hrequest with rfl | hrest
      · rw [← hcache, Disk.hits_self hholds.1] at hmiss
        cases hmiss
      · exact hrest
    · cases hs
    · cases hs
  case clears _ name =>
    split at hs
    · rename_i names hstage
      split at hs
      · cases hs
        refine turns_of (fun _ _ h => (Disk.holds_drop h).1) (.inr (.inl (by rw [hstage]; rfl))) nofun
          fun other entry h _ _ hahead => ?_
        rw [hstage] at hahead
        exact List.mem_filter.2 ⟨hahead, by simpa using (Disk.holds_drop h).2⟩
      · cases hs
    · cases hs
  case fails _ =>
    split at hs
    all_goals first | cases hs; done | skip
    rename_i hqueued hwaiting _ _
    cases hs
    refine turns_of (fun _ _ h => h) (.inr (.inl ?_)) nofun fun _ _ _ _ _ _ => trivial
    cases hstage : call.stage <;> first | rfl | simp_all
  all_goals cases hs

/-! ### Runs -/

theorem passes_epoch (version : List Char) (calls : List Invalidation) :
    Passes w { w with version := version, epoch := w.epoch + 1, calls := calls } :=
  ⟨List.prefix_refl _, Nat.le_succ _, fun _ h => .inl h, fun _ _ _ hwrite _ => .inl hwrite, fun _ _ h => .inl h⟩

def AllBarred (w : CacheWorker) : Prop := ∀ call ∈ w.calls, Barred w call

theorem AllBarred.passes (h : AllBarred w) (hp : Passes w t) (hcalls : t.calls = w.calls) : AllBarred t :=
  fun call hcall => (h call (hcalls ▸ hcall)).passes hp

theorem AllBarred.turns (h : AllBarred w) {index : Nat} (hcall : w.calls[index]? = some call)
    (ht : Turns w t index call) : AllBarred t := by
  obtain ⟨hp, stage, hcalls, hbarred⟩ := ht
  intro other hother
  rw [hcalls] at hother
  rcases List.mem_or_eq_of_mem_set hother with hold | rfl
  · exact (h other hold).passes hp
  · exact hbarred (h call (List.mem_of_getElem? hcall))

def Captured (w : CacheWorker) : Prop := ∀ epoch ∈ w.asks, epoch ≤ w.epoch

theorem Captured.passes (h : Captured w) (hp : Passes w t) : Captured t := by
  intro epoch hepoch
  rcases hp.captured epoch hepoch with hold | hnow
  · exact (h epoch hold).trans hp.epoch
  · exact hnow.trans_le hp.epoch

theorem AllBarred.invalidates (h : AllBarred w) (hcaptured : Captured w) (tags urls : Option (List (List Char))) :
    AllBarred { w with
      epoch := w.epoch + 1
      calls := w.calls ++ [⟨tags, urls, w.epoch + 1, w.writes.keys, w.asks.length, .queued⟩] } := by
  intro call hcall
  rcases List.mem_append.1 hcall with hold | hnew
  · exact (h call hold).passes (passes_epoch w.version _)
  rw [List.mem_singleton.1 hnew]
  refine ⟨le_rfl, le_rfl, fun ask _ epoch hepoch => ?_, nofun, fun id write cache hwrite _ _ => ⟨?_, rfl⟩,
    fun _ _ _ _ _ => trivial⟩
  · exact Nat.lt_succ_of_le (hcaptured epoch (List.mem_of_getElem? hepoch))
  · exact AList.mem_keys.1 (AList.lookup_isSome.1 (by rw [hwrite]; rfl))

theorem step_barred {e : CacheEvent} (h : AllBarred w ∧ Captured w) (hs : w.step e = some t) :
    AllBarred t ∧ Captured t := by
  obtain ⟨hbarred, hcaptured⟩ := h
  have hpasses : ∀ u, Passes w u → u.calls = w.calls → AllBarred u ∧ Captured u := fun u hp hcalls =>
    ⟨hbarred.passes hp hcalls, hcaptured.passes hp⟩
  have hdisk : ∀ disk : CacheDisk, (∀ name entry, disk.Holds name entry → w.disk.Holds name entry) →
      AllBarred { w with disk := disk } ∧ Captured { w with disk := disk } := fun disk hholds =>
    hpasses _ (passes_of_disk rfl rfl rfl hholds) rfl
  have hwrite : ∀ id e, ((w.writes.lookup id).bind fun write => w.stepWrite id write e) = some t →
      AllBarred t ∧ Captured t := by
    intro id e hs
    obtain ⟨write, hwrite, hs⟩ := Option.bind_eq_some_iff.1 hs
    obtain ⟨hp, hcalls⟩ := stepWrite_passes hwrite hs
    exact hpasses t hp hcalls
  have hcall : ∀ index e, (w.calls[index]?.bind fun call => w.stepCall index call e) = some t →
      AllBarred t ∧ Captured t := by
    intro index e hs
    obtain ⟨call, hcall, hs⟩ := Option.bind_eq_some_iff.1 hs
    have hturns := stepCall_turns hs
    exact ⟨hbarred.turns hcall hturns, hcaptured.passes hturns.1⟩
  cases e with
  | asks =>
    cases hs
    refine hpasses _ ⟨List.prefix_append _ _, le_rfl, fun epoch hepoch => ?_, fun _ _ _ hw _ => .inl hw,
      fun _ _ h => .inl h⟩ rfl
    exact (List.mem_append.1 hepoch).imp_right fun hnew => List.mem_singleton.1 hnew
  | begins ask request response policy =>
    simp only [step] at hs
    split at hs
    · rename_i name _ _
      split at hs
      · cases hs
        have hp : Passes w (w.setWrite w.nextWrite ⟨ask, request, response, .opening name⟩) :=
          passes_setWrite nofun fun _ _ h => .inl h
        exact hpasses _ { hp with } rfl
      · grind
    · grind
    · cases hs
  | proceeds id cache => exact hwrite id _ hs
  | lands id stores => exact hwrite id _ hs
  | finishes id => exact hwrite id _ hs
  | creates name =>
    cases hs
    exact hdisk _ fun _ _ h => Disk.holds_openCache h
  | removes cache request =>
    cases hs
    exact hdisk _ fun _ _ h => (Disk.holds_delete h).1
  | purges name =>
    cases hs
    exact hdisk _ fun _ _ h => (Disk.holds_drop h).1
  | usesVersion version =>
    cases hs
    exact hpasses _ (passes_epoch version _) rfl
  | invalidates tags urls =>
    cases hs
    exact ⟨hbarred.invalidates hcaptured tags urls, hcaptured.passes (passes_epoch w.version _)⟩
  | advances index => exact hcall index _ hs
  | clears index name => exact hcall index _ hs
  | fails index => exact hcall index _ hs

theorem barred_new (version : List Char) (disk : CacheDisk) :
    AllBarred (newCacheWorker version disk) ∧ Captured (newCacheWorker version disk) :=
  ⟨fun _ hcall => absurd hcall List.not_mem_nil, fun _ hepoch => absurd hepoch List.not_mem_nil⟩

/-- **An invalidation is a barrier.**  From any caches to begin with and at any time, a call that has resolved leaves no entry
it matches whose request captured its epoch before the call. -/
theorem invalidation_barrier (version : List Char) (disk : CacheDisk) (es : List CacheEvent) (w : CacheWorker)
    (hs : Steps.run CacheWorker.step (newCacheWorker version disk) es = some w) (call : Invalidation) (hcall : call ∈ w.calls)
    (hdone : call.stage = .done) (name : CacheName) (entry : Entry Nat FetchRequest Kept)
    (hholds : w.disk.Holds name entry) (hmatches : call.Matches entry) : ¬ call.Precedes entry := by
  intro hprecedes
  have hinv := Steps.run_inv CacheWorker.step (fun w => AllBarred w ∧ Captured w) (fun _ _ _ h hs => step_barred h hs) es
    (newCacheWorker version disk) w (barred_new version disk) hs
  have hahead := (hinv.1 call hcall).ahead name entry hholds hprecedes hmatches
  rw [hdone] at hahead
  exact hahead

structure CallView where
  isDone : Bool
  asks : Nat
  tags : List (List Char)
deriving DecidableEq

structure EntryView where
  cache : Nat
  ask : Option Nat
  tags : List (List Char)
deriving DecidableEq

/-- What is to be seen of a worker, with the tags `tagsOf` finds in a response. -/
def view (tagsOf : Headers → List (List Char)) (w : CacheWorker) : List CallView × List EntryView × Option Nat :=
  (w.calls.map fun call => ⟨call.isDone, call.asks, call.tags.getD []⟩,
    w.disk.stored.map fun entry => ⟨entry.cache, entry.response.ask, tagsOf entry.response.response.headers⟩,
    w.disk.registry.lookup .lru)

theorem exists_of_view {tagsOf : Headers → List (List Char)} {run : Option CacheWorker} {asks : Nat}
    {listed tags : List (List Char)} {cache : Nat} {ask : Option Nat}
    (h : run.map (view tagsOf) = some ([⟨true, asks, listed⟩], [⟨cache, ask, tags⟩], some cache)) :
    ∃ w call entry, run = some w ∧ call ∈ w.calls ∧ call.stage = .done ∧ call.asks = asks ∧ call.tags.getD [] = listed ∧
      w.disk.Holds .lru entry ∧ entry.response.ask = ask ∧ tagsOf entry.response.response.headers = tags := by
  obtain ⟨w, hw, hview⟩ := Option.map_eq_some_iff.1 h
  simp only [view, Prod.mk.injEq] at hview
  obtain ⟨hcalls, hstored, hname⟩ := hview
  obtain ⟨call, _, hcall, hsame, -⟩ := List.map_eq_cons_iff.1 hcalls
  obtain ⟨entry, _, hentry, hkept, -⟩ := List.map_eq_cons_iff.1 hstored
  simp only [CallView.mk.injEq, EntryView.mk.injEq] at hsame hkept
  refine ⟨w, call, entry, hw, by rw [hcall]; exact List.mem_cons_self, ?_, hsame.2.1, hsame.2.2,
    ⟨by rw [hentry]; exact List.mem_cons_self, by rw [hname, hkept.1]⟩, hkept.2.1, hkept.2.2⟩
  grind [Invalidation.isDone]

def coverRequest : FetchRequest :=
  ⟨true, ⟨"https://app".toList, "/cover.png".toList, [], []⟩, .noCors, .image, .default, Headers.empty⟩

def taggedCover (tags : List Char) : Response := ⟨200, Headers.empty.set "cache-tag".toList tags, [137, 80]⟩

def coverReplaced : List CacheEvent :=
  [.asks, .creates .lru, .begins 0 coverRequest (taggedCover "covers".toList) .cacheFirstLru, .proceeds 0 0,
    .invalidates (some ["covers".toList]) none, .advances 0, .lands 0 true, .finishes 0, .advances 0, .advances 0, .asks,
    .advances 0, .advances 0, .advances 0, .advances 0, .advances 0, .advances 0,
    .begins 1 coverRequest (taggedCover "covers".toList) .cacheFirstLru, .proceeds 1 0, .lands 1 true, .finishes 1]

theorem invalidation_barrier_cover :
    ∃ w call entry, Steps.run CacheWorker.step (newCacheWorker "1".toList .empty) coverReplaced = some w ∧ call ∈ w.calls ∧
      call.stage = .done ∧ w.disk.Holds .lru entry ∧ call.Matches entry ∧ ¬ call.Precedes entry := by
  have hview : (Steps.run CacheWorker.step (newCacheWorker "1".toList .empty) coverReplaced).map (view cacheTags) =
      some ([⟨true, 1, ["covers".toList]⟩], [⟨0, some 1, ["covers".toList]⟩], some 0) := by
    decide +kernel
  obtain ⟨w, call, entry, hw, hcall, hdone, -, hlisted, hholds, -, htags⟩ := exists_of_view hview
  have hmatches : call.Matches entry :=
    .inr (.inr ⟨"covers".toList, by rw [hlisted]; exact List.mem_cons_self, by rw [htags]; exact List.mem_cons_self⟩)
  exact ⟨w, call, entry, hw, hcall, hdone, hholds, hmatches,
    invalidation_barrier "1".toList .empty coverReplaced w hw call hcall hdone .lru entry hholds hmatches⟩

def tagBeyondLimit : List CacheEvent :=
  [.asks, .creates .lru,
    .begins 0 coverRequest (taggedCover "a,b,c,d,e,f,g,h,i,j,k,l,m,n,o,p,q,r,s,t,u,v,w,x,y,z,A,B,C,D,E,F,G".toList)
      .cacheFirstLru,
    .proceeds 0 0, .lands 0 true, .finishes 0, .invalidates (some ["G".toList]) none, .advances 0, .advances 0, .advances 0,
    .advances 0, .advances 0, .advances 0, .advances 0, .advances 0]

/-- `cacheTags` reads no more than 32 tags. -/
theorem invalidation_keeps_33rd_tag :
    ∃ w call entry, Steps.run CacheWorker.step (newCacheWorker "1".toList .empty) tagBeyondLimit = some w ∧ call ∈ w.calls ∧
      call.stage = .done ∧ w.disk.Holds .lru entry ∧ call.MatchesHeader entry ∧ call.Precedes entry := by
  have hview : (Steps.run CacheWorker.step (newCacheWorker "1".toList .empty) tagBeyondLimit).map
      (view fun headers => (headers.elements "cache-tag".toList).filter (· = "G".toList)) =
      some ([⟨true, 1, ["G".toList]⟩], [⟨0, some 0, ["G".toList]⟩], some 0) := by
    decide +kernel
  obtain ⟨w, call, entry, hw, hcall, hdone, hasks, hlisted, hholds, hask, htags⟩ := exists_of_view hview
  refine ⟨w, call, entry, hw, hcall, hdone, hholds, .inr (.inr ⟨"G".toList, ?_, ?_⟩), ?_⟩
  · rw [hlisted]
    exact List.mem_cons_self
  · exact List.mem_of_mem_filter (htags.symm ▸ List.mem_cons_self)
  intro ask hmem
  rw [hask] at hmem
  cases hmem
  rw [hasks]
  exact Nat.one_pos

end CacheWorker

end YuriRtc
