import Mathlib
/-!
# Steps — runs of a step function

A machine is a step function `step : σ → ε → Option σ`: what event `e` does in state `s`, `none` when `e` cannot happen
there.  Everything nondeterministic (a schedule, a clock reading, a peer's answer) is part of the event.  `run` folds a
list of events, `Meets` says that every step of a run satisfies a condition read at the state before it, and the
induction over runs is done here once: an invariant kept by every step (`run_inv`), or kept by every step that meets a
condition (`run_inv_when`).
-/
namespace Steps

universe u v

variable {σ : Type u} {ε : Type v}

/-- **The state a run ends in**, when every one of its events could happen. -/
def run (step : σ → ε → Option σ) : σ → List ε → Option σ
  | s, [] => some s
  | s, e :: es =>
    match step s e with
    | none => none
    | some s' => run step s' es

/-- **Every step of the run meets `ok`**, read at the state before it. -/
def Meets (step : σ → ε → Option σ) (ok : σ → ε → Prop) : σ → List ε → Prop
  | _, [] => True
  | s, e :: es =>
    ok s e ∧
      match step s e with
      | none => True
      | some s' => Meets step ok s' es

instance decidableMeets (step : σ → ε → Option σ) (ok : σ → ε → Prop) [∀ s e, Decidable (ok s e)] :
    ∀ (s : σ) (es : List ε), Decidable (Meets step ok s es)
  | _, [] => isTrue trivial
  | s, e :: es =>
    haveI : Decidable (match step s e with | none => True | some s' => Meets step ok s' es) :=
      match step s e with
      | none => isTrue trivial
      | some s' => decidableMeets step ok s' es
    inferInstanceAs (Decidable (_ ∧ _))

theorem of_guard {p : Prop} [Decidable p] {s t : σ} (h : (if p then some s else none) = some t) : p ∧ s = t := by
  split at h
  · exact ⟨‹p›, Option.some.inj h⟩
  · cases h

theorem of_unless {p : Prop} [Decidable p] {s t : σ} (h : (if p then none else some s) = some t) : ¬ p ∧ s = t := by
  split at h
  · cases h
  · exact ⟨‹¬ p›, Option.some.inj h⟩

variable (step : σ → ε → Option σ)

@[simp] theorem run_nil (s : σ) : run step s [] = some s := rfl

theorem run_cons {s s' : σ} {e : ε} (h : step s e = some s') (es : List ε) :
    run step s (e :: es) = run step s' es := by
  rw [run, h]

theorem run_cons_some {s t : σ} {e : ε} {es : List ε} (h : run step s (e :: es) = some t) :
    ∃ s', step s e = some s' ∧ run step s' es = some t := by
  rw [run] at h
  split at h
  · cases h
  · rename_i s' hs
    exact ⟨s', hs, h⟩

/-- A run on given events is found by running it, with what it ends in. -/
theorem exists_run {step : σ → ε → Option σ} {s : σ} {es : List ε} {p : σ → Prop} [DecidablePred p]
    (h : ((run step s es).any fun t => p t) = true) : ∃ t, run step s es = some t ∧ p t := by
  obtain ⟨t, ht, hp⟩ := (Option.any_eq_true _ _).1 h
  exact ⟨t, ht, of_decide_eq_true hp⟩

theorem run_append (step : σ → ε → Option σ) : ∀ (s : σ) (es fs : List ε),
    run step s (es ++ fs) = (run step s es).bind (fun s' => run step s' fs)
  | _, [], _ => rfl
  | s, e :: es, fs => by
    rw [List.cons_append, run, run]
    cases step s e with
    | none => rfl
    | some s' => exact run_append step s' es fs

theorem run_trans {step : σ → ε → Option σ} {s u t : σ} {es fs : List ε} (h : run step s es = some u)
    (h' : run step u fs = some t) : run step s (es ++ fs) = some t := by
  rw [run_append, h, Option.bind_some, h']

theorem run_inv_when (step : σ → ε → Option σ) (ok : σ → ε → Prop) (Inv : σ → Prop)
    (hstep : ∀ s e s', Inv s → ok s e → step s e = some s' → Inv s') :
    ∀ (es : List ε) (s t : σ), Inv s → Meets step ok s es → run step s es = some t → Inv t
  | [], s, t, hs, _, h => by
    cases h
    exact hs
  | e :: es, s, t, hs, hm, h => by
    obtain ⟨s', he, hr⟩ := run_cons_some step h
    rw [Meets, he] at hm
    exact run_inv_when step ok Inv hstep es s' t (hstep s e s' hs hm.1 he) hm.2 hr

theorem meets_append (step : σ → ε → Option σ) (ok : σ → ε → Prop) : ∀ (s t : σ) (es fs : List ε),
    Meets step ok s (es ++ fs) → run step s es = some t → Meets step ok t fs
  | s, t, [], fs, hm, h => by
    cases h
    exact hm
  | s, t, e :: es, fs, hm, h => by
    obtain ⟨s', he, hr⟩ := run_cons_some step h
    rw [List.cons_append, Meets, he] at hm
    exact meets_append step ok s' t es fs hm.2 hr

theorem Meets.append {step : σ → ε → Option σ} {ok : σ → ε → Prop} : ∀ {s t : σ} {es fs : List ε},
    Meets step ok s es → run step s es = some t → Meets step ok t fs → Meets step ok s (es ++ fs)
  | s, t, [], fs, _, h, hm => by
    cases h
    exact hm
  | s, t, e :: es, fs, hes, h, hm => by
    obtain ⟨s', he, hr⟩ := run_cons_some step h
    rw [Meets, he] at hes
    rw [List.cons_append, Meets, he]
    exact ⟨hes.1, hes.2.append hr hm⟩

theorem meets_true (step : σ → ε → Option σ) : ∀ (es : List ε) (s : σ), Meets step (fun _ _ => True) s es
  | [], _ => trivial
  | e :: es, s => by
    refine ⟨trivial, ?_⟩
    cases step s e with
    | none => trivial
    | some s' => exact meets_true step es s'

theorem run_inv (Inv : σ → Prop)
    (hstep : ∀ s e s', Inv s → step s e = some s' → Inv s') (es : List ε) (s t : σ) (hs : Inv s)
    (h : run step s es = some t) : Inv t :=
  run_inv_when step (fun _ _ => True) Inv (fun s e s' hi _ => hstep s e s' hi) es s t hs (meets_true step es s) h

end Steps
