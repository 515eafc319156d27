import YuriRtc.LexicalPath
import YuriRtc.Protocol
/-!
# PathResolve — the file a request names

`Handler.resolve` of `content-node/handler.go`, and the file `Handler.static` opens for it.  A Go string is its bytes.
`resolve_contained` says that the path is the root's or lies below it.
-/
namespace YuriRtc

open LexicalPath

def unhex (c : UInt8) : Option UInt8 :=
  if 0x30 ≤ c ∧ c ≤ 0x39 then some (c - 0x30)
  else if 0x61 ≤ c ∧ c ≤ 0x66 then some (c - 0x61 + 10)
  else if 0x41 ≤ c ∧ c ≤ 0x46 then some (c - 0x41 + 10)
  else none

/-- `url.PathUnescape`: each `%` is followed by two hexadecimal digits. -/
def pathUnescape : Bytes → Option Bytes
  | [] => some []
  | c :: rest =>
    if c = 0x25 then
      match rest with
      | high :: low :: rest =>
        match unhex high, unhex low with
        | some h, some l => (pathUnescape rest).map ((16 * h + l) :: ·)
        | _, _ => none
      | _ => none
    else (pathUnescape rest).map (c :: ·)

/-- `strings.TrimPrefix(decoded, "/")`. -/
def trimSlash (path : Bytes) : Bytes := if path.head? = some slash then path.tail else path

def resolve (root urlPath : Bytes) : Except String Bytes :=
  match pathUnescape urlPath with
  | none => .error "invalid escaped path"
  | some decoded =>
    if 0 ∈ decoded then .error "invalid escaped path"
    else
      let cleaned := clean (slash :: trimSlash decoded)
      if [period, period] <:+: cleaned then .error "path traversal"
      else
        let full := join [root, cleaned]
        if full ≠ root ∧ ¬ root ++ [slash] <+: full then .error "path escapes root"
        else .ok full

def indexHtml : Bytes := "index.html".toList.map fun c => UInt8.ofNat c.toNat

/-- The file `Handler.static` opens: a directory's is its index. -/
def staticPath (isDir : Bytes → Bool) (root urlPath : Bytes) : Except String Bytes := do
  let full ← resolve root urlPath
  return if isDir full then join [full, indexHtml] else full

def Contained (root path : Bytes) : Prop :=
  path = root ∨ ∃ names, names ≠ [] ∧ (∀ name ∈ names, Ordinary name ∧ 0 ∉ name) ∧
    path = root ++ [slash] ++ [slash].intercalate names

theorem contained_render {first names : List Bytes} (hfirst : first ≠ []) (h : ∀ name ∈ names, Ordinary name ∧ 0 ∉ name) :
    Contained (render first) (render (first ++ names)) := by
  by_cases hnil : names = []
  · left
    rw [hnil, List.append_nil]
  · exact .inr ⟨names, hnil, h, render_append hfirst hnil⟩

theorem cleaned_names {decoded : Bytes} (h : 0 ∉ decoded) :
    ∃ names, clean (slash :: trimSlash decoded) = render names ∧ ∀ name ∈ names, Ordinary name ∧ 0 ∉ name := by
  obtain ⟨names, hnames, hordinary, hbytes⟩ := clean_rooted (trimSlash decoded)
  refine ⟨names, hnames, fun name hmem => ⟨hordinary name hmem, fun hzero => ?_⟩⟩
  rcases List.mem_cons.1 (hbytes name hmem 0 hzero) with heq | hin
  · exact absurd heq (by decide)
  refine h ?_
  unfold trimSlash at hin
  split at hin
  · exact List.mem_of_mem_tail hin
  · exact hin

theorem resolve_names {first : List Bytes} (hfirst : ∀ name ∈ first, Ordinary name) {urlPath full : Bytes}
    (h : resolve (render first) urlPath = .ok full) :
    ∃ names, full = render (first ++ names) ∧ ∀ name ∈ names, Ordinary name ∧ 0 ∉ name := by
  unfold resolve at h
  split at h
  · cases h
  rename_i decoded _
  split at h
  · cases h
  rename_i hzero
  obtain ⟨names, hnames, hordinary⟩ := cleaned_names hzero
  simp only [hnames] at h
  split at h
  · cases h
  split at h
  · cases h
  · cases h
    exact ⟨names, join_render first names hfirst fun name hmem => (hordinary name hmem).1, hordinary⟩

theorem indexHtml_ordinary : Ordinary indexHtml ∧ 0 ∉ indexHtml := by
  refine ⟨⟨?_, ?_, ?_, ?_⟩, ?_⟩ <;> decide

/-- **No request names a file outside the root**: what is resolved is the root or lies below it, by ordinary components
without NUL, and so does the file that is opened for it. -/
theorem resolve_contained (root : Bytes) (hclean : clean root = root) (habs : root.head? = some slash) (hroot : root ≠ [slash])
    (urlPath : Bytes) :
    (∀ full, resolve root urlPath = .ok full → Contained root full) ∧
      ∀ isDir full, staticPath isDir root urlPath = .ok full → Contained root full := by
  obtain ⟨first, rfl, hfirst⟩ := exists_render hclean habs
  have hne : first ≠ [] := by
    rintro rfl
    exact hroot rfl
  constructor
  · intro full h
    obtain ⟨names, rfl, hnames⟩ := resolve_names hfirst h
    exact contained_render hne hnames
  intro isDir full h
  cases hresolve : resolve (render first) urlPath with
  | error text =>
    rw [staticPath, hresolve] at h
    cases h
  | ok resolved =>
    rw [staticPath, hresolve] at h
    cases h
    obtain ⟨names, rfl, hnames⟩ := resolve_names hfirst hresolve
    split
    · -- a directory, whose index is one more component
      have hall : ∀ name ∈ first ++ names, Ordinary name := by
        intro name hmem
        rcases List.mem_append.1 hmem with hmem | hmem
        · exact hfirst name hmem
        · exact (hnames name hmem).1
      rw [join_name _ _ hall indexHtml_ordinary.1, List.append_assoc]
      refine contained_render hne fun name hmem => ?_
      rcases List.mem_append.1 hmem with hmem | hmem
      · exact hnames name hmem
      · exact List.mem_singleton.1 hmem ▸ indexHtml_ordinary
    · exact contained_render hne hnames

/-- An escaped name below `/srv/root`, with dot segments that stay below it. -/
theorem resolve_contained_dotSegments :
    let text := fun s : String => s.toList.map fun c => UInt8.ofNat c.toNat
    resolve (text "/srv/root") (text "//a/%2e%2e/./Gun%20Spin.json") = .ok (text "/srv/root/Gun Spin.json") ∧
      Contained (text "/srv/root") (text "/srv/root/Gun Spin.json") := by
  intro text
  have hresolve : resolve (text "/srv/root") (text "//a/%2e%2e/./Gun%20Spin.json") = .ok (text "/srv/root/Gun Spin.json") := by
    decide +kernel
  exact ⟨hresolve, (resolve_contained (text "/srv/root") (by decide +kernel) (by decide +kernel) (by decide +kernel)
    (text "//a/%2e%2e/./Gun%20Spin.json")).1 _ hresolve⟩

end YuriRtc
