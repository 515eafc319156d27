import Mathlib
/-!
# Linearize — the order in which overlapping calls could have happened

A history is what the callers see: a call is invoked, and later it may respond.  A linearization puts the calls that have
responded, and some that have not, into one order that a sequential object could have served and that keeps two calls in their
order where the first had responded before the second was invoked.
-/
namespace Linearize

universe u v w

variable {σ : Type u} {ω : Type v} {ρ : Type w}

inductive Happening (ω : Type v) (ρ : Type w) where
  | invoked (id : Nat) (op : ω)
  | responded (id : Nat) (result : ρ)
deriving DecidableEq, Repr

structure Entry (ω : Type v) (ρ : Type w) where
  id : Nat
  op : ω
  result : ρ
deriving DecidableEq, Repr

def Legal (serve : σ → ω → σ × ρ) : σ → List (Entry ω ρ) → Prop
  | _, [] => True
  | s, e :: order => (serve s e.op).2 = e.result ∧ Legal serve (serve s e.op).1 order

def after (serve : σ → ω → σ × ρ) (s : σ) (order : List (Entry ω ρ)) : σ := order.foldl (fun s e => (serve s e.op).1) s

structure Linearization (serve : σ → ω → σ × ρ) (s : σ) (history : List (Happening ω ρ)) (order : List (Entry ω ρ)) :
    Prop where
  legal : Legal serve s order
  called : ∀ e ∈ order, .invoked e.id e.op ∈ history
  once : (order.map Entry.id).Nodup
  complete : ∀ id result, .responded id result ∈ history → ∃ e ∈ order, e.id = id ∧ e.result = result
  inTime : ∀ a ∈ order, ∀ b ∈ order, ∀ result op,
    List.Sublist [.responded a.id result, .invoked b.id op] history → List.Sublist [a, b] order

variable {serve : σ → ω → σ × ρ} {s : σ} {history : List (Happening ω ρ)} {order : List (Entry ω ρ)}

theorem after_snoc (e : Entry ω ρ) : after serve s (order ++ [e]) = (serve (after serve s order) e.op).1 := by
  simp [after]

variable {e : Entry ω ρ}

theorem legal_snoc (h : Legal serve s order) (he : (serve (after serve s order) e.op).2 = e.result) :
    Legal serve s (order ++ [e]) := by
  induction order generalizing s with
  | nil => exact ⟨he, trivial⟩
  | cons d order ih => exact ⟨h.1, ih h.2 he⟩

theorem pair_sublist_snoc {α : Type*} {a b c : α} {l : List α} (h : List.Sublist [a, b] (l ++ [c])) :
    List.Sublist [a, b] l ∨ (a ∈ l ∧ b = c) := by
  obtain ⟨l₁, l₂, hsplit, hl, hc⟩ := List.sublist_append_iff.1 h
  cases l₂ with
  | nil =>
    rw [List.append_nil] at hsplit
    exact .inl (hsplit ▸ hl)
  | cons x l₂ =>
    right
    have hx : x :: l₂ = [c] := by
      rcases List.sublist_singleton.1 hc with hnil | hone
      · cases hnil
      · exact hone
    obtain ⟨rfl, rfl⟩ := List.cons.inj hx
    cases l₁ with
    | nil => cases hsplit
    | cons y l₁ =>
      obtain ⟨rfl, hrest⟩ := List.cons.inj hsplit
      have hb : [b] = l₁ ++ [x] := hrest
      cases l₁ with
      | nil => exact ⟨hl.subset (by simp), (List.cons.inj hb).1⟩
      | cons z l₁ => simp at hb

namespace Linearization

theorem nil : Linearization serve s [] [] where
  legal := trivial
  called _ he := absurd he List.not_mem_nil
  once := List.nodup_nil
  complete _ _ h := absurd h List.not_mem_nil
  inTime _ ha := absurd ha List.not_mem_nil

theorem unique (h : Linearization serve s history order) {a b : Entry ω ρ} (ha : a ∈ order) (hb : b ∈ order)
    (hid : a.id = b.id) : a = b :=
  List.inj_on_of_nodup_map h.once ha hb hid

theorem invoke {id : Nat} (h : Linearization serve s history order) (hfresh : ∀ op, .invoked id op ∉ history) (op : ω) :
    Linearization serve s (history ++ [.invoked id op]) order where
  legal := h.legal
  called e he := List.mem_append_left _ (h.called e he)
  once := h.once
  complete id' result hresponded := by
    rcases List.mem_append.1 hresponded with hold | hnew
    · exact h.complete id' result hold
    · cases List.mem_singleton.1 hnew
  inTime a ha b hb result op' hpair := by
    rcases pair_sublist_snoc hpair with hold | ⟨-, hnew⟩
    · exact h.inTime a ha b hb result op' hold
    · -- a call that is invoked only now has no place yet
      obtain ⟨rfl, -⟩ := Happening.invoked.inj hnew
      exact absurd (h.called b hb) (hfresh _)

theorem commit (h : Linearization serve s history order) (hcalled : .invoked e.id e.op ∈ history)
    (hnew : e.id ∉ order.map Entry.id) (hresult : (serve (after serve s order) e.op).2 = e.result) :
    Linearization serve s history (order ++ [e]) where
  legal := legal_snoc h.legal hresult
  called d hd := by
    rcases List.mem_append.1 hd with hold | hlast
    · exact h.called d hold
    · rwa [List.mem_singleton.1 hlast]
  once := by
    rw [List.map_append, List.nodup_append]
    refine ⟨h.once, List.nodup_singleton _, fun a ha b hb hab => hnew ?_⟩
    rw [← List.mem_singleton.1 hb, ← hab]
    exact ha
  complete id result hresponded := by
    obtain ⟨d, hd, hfields⟩ := h.complete id result hresponded
    exact ⟨d, List.mem_append_left _ hd, hfields⟩
  inTime a ha b hb result op hpair := by
    -- what has responded has its place already
    obtain ⟨d, hd, hid, -⟩ := h.complete a.id result (hpair.subset (by simp))
    have hplaced : a ∈ order := by
      rcases List.mem_append.1 ha with hold | hlast
      · exact hold
      · rw [List.mem_singleton.1 hlast] at hid
        exact absurd (List.mem_map.2 ⟨d, hd, hid⟩) hnew
    rcases List.mem_append.1 hb with hold | hlast
    · exact (h.inTime a hplaced b hold result op hpair).trans (List.sublist_append_left _ _)
    · rw [List.mem_singleton.1 hlast]
      exact (List.singleton_sublist.2 hplaced).append (List.Sublist.refl [e])

theorem respond (h : Linearization serve s history order) (he : e ∈ order) :
    Linearization serve s (history ++ [.responded e.id e.result]) order where
  legal := h.legal
  called d hd := List.mem_append_left _ (h.called d hd)
  once := h.once
  complete id result hresponded := by
    rcases List.mem_append.1 hresponded with hold | hnew
    · exact h.complete id result hold
    · obtain ⟨rfl, rfl⟩ := Happening.responded.inj (List.mem_singleton.1 hnew)
      exact ⟨e, he, rfl, rfl⟩
  inTime a ha b hb result op hpair := by
    rcases pair_sublist_snoc hpair with hold | ⟨-, hnew⟩
    · exact h.inTime a ha b hb result op hold
    · cases hnew

end Linearization

end Linearize
