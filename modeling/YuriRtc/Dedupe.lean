import Mathlib
/-!
# Dedupe — the recently answered sessions

`content-node/signal.go`: the map `seen`, the expiry queue `order` with its moving `head`, and `Join`.  The queue is read as
the tail of the list of all leaders there ever were: what `pruneLocked` has passed is older than `ttl`, and what it has not
passed is what `seen` holds.
-/
namespace YuriRtc

/-- `dedupeEntry` without its result; the number tells entries apart. -/
structure DedupeEntry where
  number : Nat
  joinedAt : Int
deriving DecidableEq, Repr

structure DedupeRecord where
  sessionId : List Char
  entry : DedupeEntry
deriving DecidableEq, Repr

/-- `made` counts the entries. -/
structure Dedupe where
  seen : AList (fun _ : List Char => DedupeEntry)
  order : List DedupeRecord
  head : Nat
  ttl : Int
  made : Nat

namespace Dedupe

def new (ttl : Int) : Dedupe := ⟨∅, [], 0, ttl, 0⟩

def pruneLoop (now : Int) : Nat → Dedupe → Dedupe
  | 0, d => d
  | fuel + 1, d =>
    match d.order[d.head]? with
    | none => d
    | some record =>
      if now - record.entry.joinedAt ≤ d.ttl then d
      else
        pruneLoop now fuel { d with
          seen := if d.seen.lookup record.sessionId = some record.entry then d.seen.erase record.sessionId else d.seen
          head := d.head + 1 }

def compact (d : Dedupe) : Dedupe :=
  if 1024 ≤ d.head ∧ d.order.length ≤ d.head * 2 then { d with order := d.order.drop d.head, head := 0 } else d

def pruneLocked (d : Dedupe) (now : Int) : Dedupe := (pruneLoop now d.order.length d).compact

def join (d : Dedupe) (now : Int) (sessionId : List Char) : Dedupe × DedupeEntry × Bool :=
  let pruned := d.pruneLocked now
  match pruned.seen.lookup sessionId with
  | some entry => (pruned, entry, false)
  | none =>
    let entry : DedupeEntry := ⟨pruned.made, now⟩
    ({ pruned with
        seen := pruned.seen.insert sessionId entry
        order := pruned.order ++ [⟨sessionId, entry⟩]
        made := pruned.made + 1 }, entry, true)

/-! ### The queue and the leaders -/

def live (d : Dedupe) : List DedupeRecord := d.order.drop d.head

def Fresh (d : Dedupe) (now : Int) (r : DedupeRecord) : Prop := now - r.entry.joinedAt ≤ d.ttl

instance (d : Dedupe) (now : Int) (r : DedupeRecord) : Decidable (d.Fresh now r) := inferInstanceAs (Decidable (_ ≤ _))

/-- `led` are all leaders so far, in order. -/
structure Tracks (d : Dedupe) (clock : Int) (led : List DedupeRecord) : Prop where
  within : d.head ≤ d.order.length
  split : ∃ gone, led = gone ++ d.live ∧ ∀ r ∈ gone, ¬ d.Fresh clock r
  timely : led.Pairwise (fun a b => a.entry.joinedAt ≤ b.entry.joinedAt)
  past : ∀ r ∈ led, r.entry.joinedAt ≤ clock
  unique : (d.live.map DedupeRecord.sessionId).Nodup
  seen : ∀ sessionId entry, d.seen.lookup sessionId = some entry ↔ ⟨sessionId, entry⟩ ∈ d.live
  apart : led.Pairwise (fun a b => a.sessionId = b.sessionId → ¬ d.Fresh b.entry.joinedAt a)
  numbers : (led.map (·.entry.number)).Nodup
  made : ∀ r ∈ led, r.entry.number < d.made

namespace Tracks

theorem new (ttl clock : Int) : (new ttl).Tracks clock [] where
  within := le_rfl
  split := ⟨[], rfl, fun r hr => absurd hr List.not_mem_nil⟩
  timely := List.Pairwise.nil
  past r hr := absurd hr List.not_mem_nil
  unique := List.nodup_nil
  seen sessionId entry := ⟨fun h => (by cases h), fun h => absurd h List.not_mem_nil⟩
  apart := List.Pairwise.nil
  numbers := List.nodup_nil
  made r hr := absurd hr List.not_mem_nil

variable {d : Dedupe} {clock now : Int} {led : List DedupeRecord}

theorem mem_led (h : d.Tracks clock led) {r : DedupeRecord} (hr : r ∈ d.live) : r ∈ led := by
  obtain ⟨gone, hsplit, -⟩ := h.split
  simp_all

theorem live_of_fresh (h : d.Tracks clock led) {r : DedupeRecord} (hr : r ∈ led) (hfresh : d.Fresh clock r) : r ∈ d.live := by
  obtain ⟨gone, hsplit, hgone⟩ := h.split
  grind

theorem later (h : d.Tracks clock led) (hle : clock ≤ now) : d.Tracks now led := by
  obtain ⟨gone, hsplit, hgone⟩ := h.split
  refine { h with split := ⟨gone, hsplit, fun r hr hfresh => hgone r hr ?_⟩, past := fun r hr => (h.past r hr).trans hle }
  unfold Fresh at hfresh ⊢
  omega

theorem pass (h : d.Tracks now led) {record : DedupeRecord} (hfront : d.order[d.head]? = some record)
    (hexpired : ¬ d.Fresh now record) :
    ({ d with
      seen := if d.seen.lookup record.sessionId = some record.entry then d.seen.erase record.sessionId else d.seen
      head := d.head + 1 } : Dedupe).Tracks now led := by
  obtain ⟨hlt, hget⟩ := List.getElem?_eq_some_iff.1 hfront
  have hlive : d.live = record :: d.order.drop (d.head + 1) := by
    rw [live, List.drop_eq_getElem_cons hlt, hget]
  have hunique := h.unique
  rw [hlive, List.map_cons, List.nodup_cons] at hunique
  have hshown : d.seen.lookup record.sessionId = some record.entry :=
    (h.seen _ _).2 (by rw [hlive]; exact List.mem_cons_self)
  obtain ⟨gone, hsplit, hgone⟩ := h.split
  rw [if_pos hshown]
  refine ⟨hlt, ⟨gone ++ [record], ?_, ?_⟩, h.timely, h.past, hunique.2, fun sessionId entry => ?_, h.apart, h.numbers, h.made⟩
  · rw [List.append_assoc, List.singleton_append]
    exact hsplit.trans (by rw [hlive]; rfl)
  · intro r hr
    rcases List.mem_append.1 hr with hold | hlast
    · exact hgone r hold
    · rw [List.mem_singleton.1 hlast]
      exact hexpired
  · show (d.seen.erase record.sessionId).lookup sessionId = some entry ↔ ⟨sessionId, entry⟩ ∈ d.order.drop (d.head + 1)
    by_cases heq : sessionId = record.sessionId
    · rw [heq, AList.lookup_erase]
      grind
    · rw [AList.lookup_erase_ne heq, h.seen, hlive, List.mem_cons]
      grind

theorem pruneLoop {fuel : Nat} (h : d.Tracks now led) (hfuel : d.order.length ≤ d.head + fuel) :
    (pruneLoop now fuel d).Tracks now led ∧ (∀ r ∈ (Dedupe.pruneLoop now fuel d).live, d.Fresh now r) ∧
      (Dedupe.pruneLoop now fuel d).ttl = d.ttl := by
  induction fuel generalizing d with
  | zero =>
    refine ⟨h, fun r hr => ?_, rfl⟩
    have hnil : d.live = [] := List.drop_eq_nil_of_le (by omega)
    change r ∈ d.live at hr
    rw [hnil] at hr
    cases hr
  | succ fuel ih =>
    simp only [Dedupe.pruneLoop]
    split
    · next hnone =>
      refine ⟨h, fun r hr => ?_, rfl⟩
      have hnil : d.live = [] := List.drop_eq_nil_of_le (List.getElem?_eq_none_iff.1 hnone)
      rw [hnil] at hr
      cases hr
    · next record hfront =>
      split
      · next hfresh =>
        refine ⟨h, fun r hr => ?_, rfl⟩
        obtain ⟨hlt, hget⟩ := List.getElem?_eq_some_iff.1 hfront
        have hlive : d.live = record :: d.order.drop (d.head + 1) := by
          rw [live, List.drop_eq_getElem_cons hlt, hget]
        obtain ⟨gone, hsplit, -⟩ := h.split
        have htimely := (List.pairwise_append.1 (hsplit ▸ h.timely)).2.1
        rw [hlive] at hr htimely
        rcases List.mem_cons.1 hr with rfl | hlater
        · exact hfresh
        have hle := (List.pairwise_cons.1 htimely).1 r hlater
        unfold Fresh
        omega
      · next hexpired => exact ih (h.pass hfront hexpired) (by simp only; omega)

theorem compact (h : d.Tracks clock led) : d.compact.Tracks clock led ∧ d.compact.live = d.live ∧ d.compact.ttl = d.ttl := by
  unfold Dedupe.compact
  split
  · have hlive : ({ d with order := d.order.drop d.head, head := 0 } : Dedupe).live = d.live := List.drop_zero
    refine ⟨⟨Nat.zero_le _, ?_, h.timely, h.past, ?_, ?_, h.apart, h.numbers, h.made⟩, hlive, rfl⟩
    · rw [hlive]
      exact h.split
    · rw [hlive]
      exact h.unique
    · rw [hlive]
      exact h.seen
  · exact ⟨h, rfl, rfl⟩

theorem pruneLocked (h : d.Tracks now led) :
    (d.pruneLocked now).Tracks now led ∧ (d.pruneLocked now).ttl = d.ttl ∧
      ∀ r, r ∈ (d.pruneLocked now).live ↔ r ∈ led ∧ d.Fresh now r := by
  obtain ⟨hloop, hfresh, httl⟩ := h.pruneLoop (show d.order.length ≤ d.head + d.order.length from Nat.le_add_left _ _)
  obtain ⟨hcompact, hlive, hsame⟩ := hloop.compact
  have hsettled : (d.pruneLocked now).ttl = d.ttl := hsame.trans httl
  refine ⟨hcompact, hsettled, fun r => ⟨fun hr => ⟨hcompact.mem_led hr, hfresh r (hlive ▸ hr)⟩, fun hr => ?_⟩⟩
  refine hcompact.live_of_fresh hr.1 ?_
  show now - r.entry.joinedAt ≤ (d.pruneLocked now).ttl
  rw [hsettled]
  exact hr.2

theorem push (h : d.Tracks now led) {sessionId : List Char} (hnone : d.seen.lookup sessionId = none)
    (halone : ∀ r ∈ led, r.sessionId = sessionId → ¬ d.Fresh now r) :
    ({ d with
      seen := d.seen.insert sessionId ⟨d.made, now⟩
      order := d.order ++ [⟨sessionId, ⟨d.made, now⟩⟩]
      made := d.made + 1 } : Dedupe).Tracks now (led ++ [⟨sessionId, ⟨d.made, now⟩⟩]) := by
  have hnew : ∀ r ∈ d.live, r.sessionId ≠ sessionId := by
    rintro ⟨other, entry⟩ hr rfl
    rw [(h.seen _ _).2 hr] at hnone
    cases hnone
  have hlive : ∀ made seen, ({ d with
      seen := seen
      order := d.order ++ [⟨sessionId, ⟨d.made, now⟩⟩]
      made := made } : Dedupe).live = d.live ++ [⟨sessionId, ⟨d.made, now⟩⟩] :=
    fun _ _ => List.drop_append_of_le_length h.within
  obtain ⟨gone, hsplit, hgone⟩ := h.split
  refine ⟨?_, ⟨gone, ?_, hgone⟩, ?_, ?_, ?_, fun other entry => ?_, ?_, ?_, ?_⟩
  · simp only [List.length_append, List.length_singleton]
    exact h.within.trans (Nat.le_succ _)
  · simp_all
  · rw [List.pairwise_append]
    refine ⟨h.timely, List.pairwise_singleton _ _, fun a ha b hb => ?_⟩
    rw [List.mem_singleton.1 hb]
    exact h.past a ha
  · intro r hr
    rcases List.mem_append.1 hr with hold | hlast
    · exact h.past r hold
    · rw [List.mem_singleton.1 hlast]
  · rw [hlive, List.map_append, List.nodup_append]
    refine ⟨h.unique, List.nodup_singleton _, fun a ha b hb hab => ?_⟩
    grind
  · rw [hlive, List.mem_append, List.mem_singleton]
    grind [AList.lookup_insert, Option.some.injEq, AList.lookup_insert_ne, h.seen]
  · rw [List.pairwise_append]
    refine ⟨h.apart, List.pairwise_singleton _ _, fun a ha b hb => ?_⟩
    rw [List.mem_singleton.1 hb]
    exact halone a ha
  · rw [List.map_append, List.nodup_append]
    refine ⟨h.numbers, List.nodup_singleton _, fun a ha b hb hab => ?_⟩
    obtain ⟨r, hr, rfl⟩ := List.mem_map.1 ha
    have hlt := h.made r hr
    simp_all
  · intro r hr
    show r.entry.number < d.made + 1
    rcases List.mem_append.1 hr with hold | hlast
    · exact Nat.lt_succ_of_lt (h.made r hold)
    · simp_all

theorem join (h : d.Tracks now led) (sessionId : List Char) :
    (∃ d' entry, d.join now sessionId = (d', entry, false) ∧ d'.Tracks now led ∧ d'.ttl = d.ttl ∧
      ⟨sessionId, entry⟩ ∈ led ∧ d.Fresh now ⟨sessionId, entry⟩) ∨
    (∃ d' entry, d.join now sessionId = (d', entry, true) ∧ d'.Tracks now (led ++ [⟨sessionId, entry⟩]) ∧ d'.ttl = d.ttl ∧
      entry.joinedAt = now ∧ ∀ r ∈ led, r.sessionId = sessionId → ¬ d.Fresh now r) := by
  obtain ⟨hpruned, httl, hlive⟩ := h.pruneLocked
  unfold Dedupe.join
  cases hlookup : (d.pruneLocked now).seen.lookup sessionId with
  | some entry =>
    left
    obtain ⟨hled, hfresh⟩ := (hlive _).1 ((hpruned.seen sessionId entry).1 hlookup)
    simp_all
  | none =>
    right
    have halone : ∀ r ∈ led, r.sessionId = sessionId → ¬ d.Fresh now r := by
      rintro ⟨other, entry⟩ hr rfl hfresh
      rw [(hpruned.seen _ _).2 ((hlive _).2 ⟨hr, hfresh⟩)] at hlookup
      cases hlookup
    have hstale : ∀ r ∈ led, r.sessionId = sessionId → ¬ (d.pruneLocked now).Fresh now r := by
      intro r hr hid
      show ¬ now - r.entry.joinedAt ≤ (d.pruneLocked now).ttl
      rw [httl]
      exact halone r hr hid
    refine ⟨_, ⟨(d.pruneLocked now).made, now⟩, by simp only [hlookup], hpruned.push hlookup hstale, httl, rfl, halone⟩

end Tracks

end Dedupe
end YuriRtc
