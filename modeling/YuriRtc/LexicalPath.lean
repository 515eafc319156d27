import Mathlib
/-!
# LexicalPath — cleaning and joining slash-separated paths

What Go's `filepath.Clean` and `filepath.Join` do on Unix, on the text alone: repeated slashes and `.` elements go, `..` takes
the element before it away, or is dropped at the beginning of a rooted path.  A clean rooted path is a list of ordinary
names (`clean_rooted`), and joining two of them puts the lists one behind the other (`join_render`).
-/
namespace LexicalPath

def slash : UInt8 := 0x2f
def period : UInt8 := 0x2e

def cleanStep (rooted : Bool) (names : List (List UInt8)) (element : List UInt8) : List (List UInt8) :=
  if element = [] ∨ element = [period] then names
  else if element = [period, period] then
    match names with
    | [] => if rooted then [] else [element]
    | last :: rest => if last = [period, period] then element :: names else rest
  else element :: names

def clean (path : List UInt8) : List UInt8 :=
  if path = [] then [period]
  else
    let rooted := path.head? == some slash
    let names := ((path.splitOn slash).foldl (cleanStep rooted) []).reverse
    if rooted then slash :: [slash].intercalate names
    else if names = [] then [period]
    else [slash].intercalate names

def join (elements : List (List UInt8)) : List UInt8 :=
  let kept := elements.dropWhile (· == [])
  if kept = [] then [] else clean ([slash].intercalate kept)

def Ordinary (name : List UInt8) : Prop := name ≠ [] ∧ name ≠ [period] ∧ name ≠ [period, period] ∧ slash ∉ name

def render (names : List (List UInt8)) : List UInt8 := slash :: [slash].intercalate names

/-! ### Elements -/

theorem slash_notMem_splitOn (path : List UInt8) : ∀ element ∈ path.splitOn slash, slash ∉ element := by
  induction path with
  | nil => simp
  | cons c path ih =>
    intro element hmem
    rw [List.splitOn_cons_eq_if_modifyHead] at hmem
    by_cases hc : c = slash
    · simp only [hc, beq_self_eq_true, if_true, List.mem_cons] at hmem
      rcases hmem with rfl | hmem
      · exact List.not_mem_nil
      · exact ih element hmem
    simp only [beq_eq_false_iff_ne.2 hc, Bool.false_eq_true, if_false] at hmem
    cases hsplit : path.splitOn slash with
    | nil => exact absurd hsplit (List.splitOn_ne_nil _ _)
    | cons first rest =>
      rw [hsplit] at hmem ih
      simp only [List.modifyHead_cons, List.mem_cons] at hmem
      rcases hmem with rfl | hmem
      · have := ih first List.mem_cons_self
        simp only [List.mem_cons, not_or]
        exact ⟨Ne.symm hc, this⟩
      · exact ih element (List.mem_cons_of_mem _ hmem)

theorem mem_intercalate {elements : List (List UInt8)} {element : List UInt8} {byte : UInt8} (h : element ∈ elements)
    (hbyte : byte ∈ element) : byte ∈ [slash].intercalate elements := by
  induction elements with
  | nil => exact absurd h List.not_mem_nil
  | cons first rest ih =>
    by_cases hnil : rest = []
    · subst hnil
      rw [List.intercalate_singleton]
      exact List.mem_singleton.1 h ▸ hbyte
    rw [List.intercalate_cons_of_ne_nil hnil, List.append_assoc, List.mem_append]
    rcases List.mem_cons.1 h with rfl | hrest
    · exact .inl hbyte
    · exact .inr (List.mem_append_right _ (ih hrest))

theorem mem_of_mem_intercalate {elements : List (List UInt8)} {byte : UInt8} (h : byte ∈ [slash].intercalate elements) :
    byte = slash ∨ ∃ element ∈ elements, byte ∈ element := by
  induction elements with
  | nil => exact absurd h List.not_mem_nil
  | cons first rest ih =>
    by_cases hnil : rest = []
    · subst hnil
      rw [List.intercalate_singleton] at h
      exact .inr ⟨first, List.mem_cons_self, h⟩
    rw [List.intercalate_cons_of_ne_nil hnil, List.append_assoc, List.mem_append, List.singleton_append, List.mem_cons] at h
    rcases h with h | h | h
    · exact .inr ⟨first, List.mem_cons_self, h⟩
    · exact .inl h
    · exact (ih h).imp_right fun ⟨element, hmem, hbyte⟩ => ⟨element, List.mem_cons_of_mem _ hmem, hbyte⟩

theorem mem_of_mem_splitOn {path element : List UInt8} (h : element ∈ path.splitOn slash) {byte : UInt8}
    (hbyte : byte ∈ element) : byte ∈ path := by
  have hjoin : [slash].intercalate (path.splitOn slash) = path := List.intercalate_splitOn slash
  exact hjoin ▸ mem_intercalate h hbyte

/-! ### Cleaning -/

theorem cleanStep_ordinary {names : List (List UInt8)} {element : List UInt8} (hnames : ∀ name ∈ names, Ordinary name)
    (helement : slash ∉ element) : ∀ name ∈ cleanStep true names element, Ordinary name := by
  unfold cleanStep
  split
  · exact hnames
  rename_i hskip
  split
  · cases names with
    | nil => simp
    | cons last rest =>
      have hlast := hnames last List.mem_cons_self
      simp only [hlast.2.2.1, if_false]
      exact fun name hmem => hnames name (List.mem_cons_of_mem _ hmem)
  · next hup =>
    intro name hmem
    rcases List.mem_cons.1 hmem with rfl | hmem
    · exact ⟨fun h => hskip (.inl h), fun h => hskip (.inr h), hup, helement⟩
    · exact hnames name hmem

theorem mem_cleanStep {rooted : Bool} {names : List (List UInt8)} {element name : List UInt8}
    (h : name ∈ cleanStep rooted names element) : name ∈ names ∨ name = element := by
  unfold cleanStep at h
  split at h
  · exact .inl h
  split at h
  · cases names with
    | nil =>
      cases rooted with
      | true => exact .inl h
      | false => exact .inr (List.mem_singleton.1 h)
    | cons last rest =>
      simp only at h
      split at h
      · exact (List.mem_cons.1 h).symm
      · exact .inl (List.mem_cons_of_mem _ h)
  · exact (List.mem_cons.1 h).symm

theorem foldl_cleanStep_ordinary (elements names : List (List UInt8)) (helements : ∀ element ∈ elements, slash ∉ element)
    (hnames : ∀ name ∈ names, Ordinary name) : ∀ name ∈ elements.foldl (cleanStep true) names, Ordinary name := by
  induction elements generalizing names with
  | nil => exact hnames
  | cons element elements ih =>
    exact ih _ (fun other hmem => helements other (List.mem_cons_of_mem _ hmem))
      (cleanStep_ordinary hnames (helements element List.mem_cons_self))

theorem mem_foldl_cleanStep {rooted : Bool} (elements names : List (List UInt8)) {name : List UInt8}
    (h : name ∈ elements.foldl (cleanStep rooted) names) : name ∈ names ∨ name ∈ elements := by
  induction elements generalizing names with
  | nil => exact .inl h
  | cons element elements ih =>
    rcases ih _ h with hkept | hmem
    · rcases mem_cleanStep hkept with hmem | rfl
      · exact .inl hmem
      · exact .inr List.mem_cons_self
    · exact .inr (List.mem_cons_of_mem _ hmem)

theorem clean_rooted (rest : List UInt8) : ∃ names, clean (slash :: rest) = render names ∧
    (∀ name ∈ names, Ordinary name) ∧ ∀ name ∈ names, ∀ byte ∈ name, byte ∈ slash :: rest := by
  refine ⟨(((slash :: rest).splitOn slash).foldl (cleanStep true) []).reverse, ?_, ?_, ?_⟩
  · simp [clean, render]
  · intro name hmem
    exact foldl_cleanStep_ordinary _ [] (slash_notMem_splitOn _) (by simp) name (List.mem_reverse.1 hmem)
  intro name hmem byte hbyte
  rcases mem_foldl_cleanStep _ [] (List.mem_reverse.1 hmem) with hnil | helement
  · exact absurd hnil List.not_mem_nil
  · exact mem_of_mem_splitOn helement hbyte

section

variable {rooted : Bool} (names kept : List (List UInt8)) (h : ∀ name ∈ names, Ordinary name)
include rooted names kept h

theorem foldl_cleanStep_names :
    names.foldl (cleanStep rooted) kept = names.reverse ++ kept := by
  induction names generalizing kept with
  | nil => rfl
  | cons name names ih =>
    obtain ⟨hne, hdot, hup, -⟩ := h name List.mem_cons_self
    have hstep : cleanStep rooted kept name = name :: kept := by
      simp only [cleanStep, hne, hdot, or_self, if_false, hup]
    rw [List.foldl_cons, hstep, ih _ fun other hmem => h other (List.mem_cons_of_mem _ hmem), List.reverse_cons,
      List.append_assoc, List.singleton_append]

theorem foldl_cleanStep_render :
    ((render names).splitOn slash).foldl (cleanStep rooted) kept = names.reverse ++ kept := by
  have hempty (kept : List (List UInt8)) : cleanStep rooted kept [] = kept := by simp [cleanStep]
  have hsplit : (render names).splitOn slash = [] :: ([slash].intercalate names).splitOn slash := by
    rw [render, List.splitOn_cons_eq_if_modifyHead, beq_self_eq_true, if_pos rfl]
  rw [hsplit, List.foldl_cons, hempty]
  by_cases hnil : names = []
  · subst hnil
    simp [List.intercalate, hempty]
  · rw [List.splitOn_intercalate _ (fun name hmem => (h name hmem).2.2.2) hnil]
    exact foldl_cleanStep_names names kept h

end

/-! ### Joining -/

theorem render_ne_nil (names : List (List UInt8)) : render names ≠ [] := List.cons_ne_nil _ _

theorem join_render (first second : List (List UInt8)) (hfirst : ∀ name ∈ first, Ordinary name)
    (hsecond : ∀ name ∈ second, Ordinary name) : join [render first, render second] = render (first ++ second) := by
  have hkept : [render first, render second].dropWhile (· == []) = [render first, render second] :=
    List.dropWhile_cons_of_neg (by simp [render])
  have hpath : [slash].intercalate [render first, render second] = render first ++ slash :: render second := by
    simp [List.intercalate]
  have hrooted : (render first ++ slash :: render second).head? == some slash := by simp [render]
  simp only [join, hkept, hpath, clean, hrooted, List.splitOn_append_cons_self, List.foldl_append,
    foldl_cleanStep_render first [] hfirst, foldl_cleanStep_render second _ hsecond]
  simp [render]

theorem join_name (names : List (List UInt8)) (name : List UInt8) (hnames : ∀ other ∈ names, Ordinary other)
    (hname : Ordinary name) : join [render names, name] = render (names ++ [name]) := by
  have hkept : [render names, name].dropWhile (· == []) = [render names, name] :=
    List.dropWhile_cons_of_neg (by simp [render])
  have hpath : [slash].intercalate [render names, name] = render names ++ slash :: name := by
    simp [List.intercalate]
  have hrooted : (render names ++ slash :: name).head? == some slash := by simp [render]
  have hsplit : name.splitOn slash = [name] := List.splitOn_eq_singleton hname.2.2.2
  have hlast : [name].foldl (cleanStep true) (names.reverse ++ []) = [name].reverse ++ (names.reverse ++ []) :=
    foldl_cleanStep_names [name] _ (by simpa using hname)
  simp only [join, hkept, hpath, clean, hrooted, List.splitOn_append_cons_self, List.foldl_append,
    foldl_cleanStep_render names [] hnames, hsplit, hlast]
  simp [render]

theorem exists_render {path : List UInt8} (hclean : clean path = path) (habs : path.head? = some slash) :
    ∃ names, path = render names ∧ ∀ name ∈ names, Ordinary name := by
  obtain ⟨rest, rfl⟩ := List.head?_eq_some_iff.1 habs
  obtain ⟨names, hnames, hordinary, -⟩ := clean_rooted rest
  exact ⟨names, hclean.symm.trans hnames, hordinary⟩

theorem intercalate_append {first second : List (List UInt8)} (hfirst : first ≠ []) (hsecond : second ≠ []) :
    [slash].intercalate (first ++ second) = [slash].intercalate first ++ [slash] ++ [slash].intercalate second := by
  induction first with
  | nil => exact absurd rfl hfirst
  | cons name first ih =>
    by_cases hnil : first = []
    · subst hnil
      rw [List.singleton_append, List.intercalate_cons_of_ne_nil hsecond, List.intercalate_singleton]
    rw [List.cons_append, List.intercalate_cons_of_ne_nil (List.append_ne_nil_of_left_ne_nil hnil _), ih hnil,
      List.intercalate_cons_of_ne_nil hnil]
    simp only [List.append_assoc]

theorem render_append {first second : List (List UInt8)} (hfirst : first ≠ []) (hsecond : second ≠ []) :
    render (first ++ second) = render first ++ [slash] ++ [slash].intercalate second := by
  rw [render, intercalate_append hfirst hsecond]
  rfl

end LexicalPath
