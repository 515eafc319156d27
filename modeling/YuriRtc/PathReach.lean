import YuriRtc.PathResolve
/-!
# PathReach — the file names a request can reach

The other side of `resolve_contained`: which names below the root `Handler.resolve` maps to themselves.  `Escaped` is any
percent-escaping of a name, so the result does not depend on which bytes a browser leaves as they are.  The test for `..`
looks at the whole cleaned path and not at its components.
-/
namespace YuriRtc

open LexicalPath

/-- `text` is `name` with any of its bytes percent-escaped, the percent signs among them. -/
inductive Escaped : Bytes → Bytes → Prop
  | nil : Escaped [] []
  | plain {text name : Bytes} (byte : UInt8) (hbyte : byte ≠ 0x25) (h : Escaped text name) :
    Escaped (byte :: text) (byte :: name)
  | octet {text name : Bytes} (high low highValue lowValue : UInt8) (hhigh : unhex high = some highValue)
    (hlow : unhex low = some lowValue) (h : Escaped text name) :
    Escaped (0x25 :: high :: low :: text) ((16 * highValue + lowValue) :: name)

theorem pathUnescape_plain {byte : UInt8} (h : byte ≠ 0x25) (rest : Bytes) :
    pathUnescape (byte :: rest) = (pathUnescape rest).map (byte :: ·) := by
  cases rest with
  | nil => simp [pathUnescape, h]
  | cons second rest => cases rest <;> simp [pathUnescape, h]

theorem pathUnescape_append {text name : Bytes} (h : Escaped text name) (rest : Bytes) :
    pathUnescape (text ++ rest) = (pathUnescape rest).map (name ++ ·) := by
  induction h with
  | nil =>
    rw [List.nil_append]
    cases pathUnescape rest <;> rfl
  | plain byte hbyte h ih =>
    rw [List.cons_append, pathUnescape_plain hbyte, ih, Option.map_map]
    rfl
  | octet high low highValue lowValue hhigh hlow h ih =>
    rw [List.cons_append, List.cons_append, List.cons_append, pathUnescape, if_pos rfl, hhigh, hlow]
    dsimp only
    rw [ih, Option.map_map]
    rfl

theorem pathUnescape_intercalate {texts names : List Bytes} (h : List.Forall₂ Escaped texts names) :
    pathUnescape ([slash].intercalate texts) = some ([slash].intercalate names) := by
  induction h with
  | nil => rfl
  | @cons text name texts names hfirst hrest ih =>
    cases hrest with
    | nil =>
      have hdecoded := pathUnescape_append hfirst []
      rw [List.append_nil] at hdecoded
      rw [List.intercalate_singleton, List.intercalate_singleton, hdecoded]
      show some (name ++ []) = some name
      rw [List.append_nil]
    | cons hsecond hrest =>
      rw [List.intercalate_cons_of_ne_nil (List.cons_ne_nil _ _), List.intercalate_cons_of_ne_nil (List.cons_ne_nil _ _),
        List.append_assoc, pathUnescape_append hfirst, List.append_assoc, List.singleton_append,
        pathUnescape_plain (by decide), ih]
      rfl

theorem pathUnescape_render {texts names : List Bytes} (h : List.Forall₂ Escaped texts names) :
    pathUnescape (render texts) = some (render names) := by
  rw [render, pathUnescape_plain (by decide), pathUnescape_intercalate h]
  rfl

theorem clean_render {names : List Bytes} (h : ∀ name ∈ names, Ordinary name) : clean (render names) = render names := by
  have hrooted : ((render names).head? == some slash) = true := rfl
  simp only [clean, render_ne_nil, if_false, hrooted, foldl_cleanStep_render names [] h, if_true, List.append_nil,
    List.reverse_reverse]
  rfl

theorem infix_append_cons {α : Type} {w a b : List α} {c : α} (hw : c ∉ w) (hne : w ≠ []) :
    w <:+: a ++ c :: b ↔ w <:+: a ∨ w <:+: b := by
  constructor
  · rintro ⟨s, t, h⟩
    rw [List.append_assoc, List.append_eq_append_iff] at h
    rcases h with ⟨k, rfl, h⟩ | ⟨k, rfl, h⟩
    · -- `w` begins before the separator, so it ends before it
      rcases List.append_eq_append_iff.1 h with ⟨m, rfl, -⟩ | ⟨m, rfl, hrest⟩
      · exact .inl ⟨s, m, by rw [List.append_assoc]⟩
      cases m with
      | nil =>
        rw [List.append_nil]
        exact .inl ⟨s, [], by rw [List.append_nil]⟩
      | cons d m =>
        rw [List.cons_append, List.cons.injEq] at hrest
        exact absurd (List.mem_append_right k (hrest.1 ▸ List.mem_cons_self)) hw
    · cases k with
      | nil =>
        cases w with
        | nil => exact absurd rfl hne
        | cons d w =>
          rw [List.nil_append, List.cons_append, List.cons.injEq] at h
          exact absurd (h.1 ▸ List.mem_cons_self) hw
      | cons d k =>
        rw [List.cons_append, List.cons.injEq] at h
        exact .inr ⟨k, t, by rw [h.2, List.append_assoc]⟩
  · rintro (⟨s, t, rfl⟩ | ⟨s, t, rfl⟩)
    · exact ⟨s, t ++ c :: b, by simp⟩
    · exact ⟨a ++ c :: s, t, by simp⟩

theorem periods_render {names : List Bytes} :
    [period, period] <:+: render names ↔ ∃ name ∈ names, [period, period] <:+: name := by
  have hslash : slash ∉ [period, period] := by decide
  have hne : [period, period] ≠ [] := List.cons_ne_nil _ _
  -- the slash in front belongs to no name
  have hrooted : ∀ path : Bytes, [period, period] <:+: slash :: path ↔ [period, period] <:+: path := fun path => by
    have hsplit := infix_append_cons (a := []) (b := path) hslash hne
    rwa [List.nil_append, List.infix_nil, or_iff_right hne] at hsplit
  rw [render, hrooted]
  induction names with
  | nil => simp [List.intercalate]
  | cons name names ih =>
    by_cases hnil : names = []
    · simp [hnil, List.intercalate_singleton]
    rw [List.intercalate_cons_of_ne_nil hnil, List.append_assoc, List.singleton_append, infix_append_cons hslash hne]
    refine (or_congr Iff.rfl ih).trans ?_
    simp

/-- **A file is reached under its own names** just where none of them has two periods in a row. -/
theorem resolve_reaches_iff (root : Bytes) (hclean : clean root = root) (habs : root.head? = some slash)
    (hroot : root ≠ [slash]) (names texts : List Bytes) (hne : names ≠ [])
    (hnames : ∀ name ∈ names, Ordinary name ∧ 0 ∉ name) (hescaped : List.Forall₂ Escaped texts names) :
    resolve root (render texts) = .ok (root ++ [slash] ++ [slash].intercalate names) ↔
      ∀ name ∈ names, ¬ [period, period] <:+: name := by
  obtain ⟨first, rfl, hfirst⟩ := exists_render hclean habs
  have hfirstNe : first ≠ [] := by
    rintro rfl
    exact hroot rfl
  have hordinary : ∀ name ∈ names, Ordinary name := fun name hmem => (hnames name hmem).1
  have hzero : (0 : UInt8) ∉ render names := by
    intro hmem
    rcases List.mem_cons.1 hmem with h | h
    · exact absurd h (by decide)
    rcases mem_of_mem_intercalate h with h | ⟨name, hname, h⟩
    · exact absurd h (by decide)
    · exact (hnames name hname).2 h
  have hcleaned : clean (slash :: trimSlash (render names)) = render names := clean_render hordinary
  have hjoin : join [render first, render names] = render first ++ [slash] ++ [slash].intercalate names :=
    (join_render first names hfirst hordinary).trans (render_append hfirstNe hne)
  have hbelow : render first ++ [slash] <+: render first ++ [slash] ++ [slash].intercalate names := List.prefix_append _ _
  unfold resolve
  rw [pathUnescape_render hescaped]
  simp only [hzero, if_false, hcleaned, hjoin, hbelow, not_true_eq_false, and_false]
  constructor
  · intro h name hmem hperiods
    rw [if_pos (periods_render.2 ⟨name, hmem, hperiods⟩)] at h
    cases h
  intro h
  rw [if_neg fun hperiods => ?_]
  obtain ⟨name, hmem, hperiods⟩ := periods_render.1 hperiods
  exact h name hmem hperiods

/-- `Gun Spin.json` in a directory whose name has an escaped letter. -/
theorem resolve_reaches_gunSpin :
    let text := fun s : String => s.toList.map fun c => UInt8.ofNat c.toNat
    resolve (text "/srv") (text "/%61/Gun%20Spin.json") = .ok (text "/srv/a/Gun Spin.json") := by
  intro text
  have hplain : ∀ name : Bytes, 0x25 ∉ name → Escaped name name := by
    intro name h
    induction name with
    | nil => exact .nil
    | cons byte name ih =>
      rw [List.mem_cons, not_or] at h
      exact .plain byte (Ne.symm h.1) (ih h.2)
  have hgun : Escaped (text "Gun" ++ 0x25 :: 0x32 :: 0x30 :: text "Spin.json") (text "Gun" ++ 0x20 :: text "Spin.json") :=
    .plain _ (by decide) (.plain _ (by decide) (.plain _ (by decide)
      (.octet 0x32 0x30 2 0 (by decide) (by decide) (hplain _ (by decide)))))
  exact (resolve_reaches_iff (text "/srv") (by decide) (by decide) (by decide)
    [text "a", text "Gun Spin.json"] [text "%61", text "Gun%20Spin.json"] (List.cons_ne_nil _ _)
    (by
      intro name hmem
      rw [List.mem_cons, List.mem_singleton] at hmem
      rcases hmem with rfl | rfl <;> exact ⟨⟨by decide, by decide, by decide, by decide⟩, by decide⟩)
    (.cons (.octet 0x36 0x31 6 1 (by decide) (by decide) .nil) (.cons hgun .nil))).2 (by decide)

/-- **A name with two periods in a row is taken for a traversal.** -/
theorem resolve_refuses_periods :
    let text := fun s : String => s.toList.map fun c => UInt8.ofNat c.toNat
    resolve (text "/srv") (text "/a..b.js") = .error "path traversal" ∧ Ordinary (text "a..b.js") ∧ 0 ∉ text "a..b.js" := by
  intro text
  exact ⟨by decide +kernel, ⟨by decide +kernel, by decide +kernel, by decide +kernel, by decide +kernel⟩, by decide +kernel⟩

end YuriRtc
