import YuriRtc.Injection
/-!
# InjectionStream — injecting into the first chunk of a document

The stream decides on its first chunk, which shows the beginning of the document and, where it cuts a character, a
replacement (`View`).  Each token of the prologue is known from the characters it takes (`Local`), so the chunk finds every
token that lies in it; `prologuePoint_agree` says where its point is against the document's.
-/
namespace YuriRtc

/-! ### Tokens -/

/-- A scan that is settled by the characters it takes, the last of which is a `>`. -/
def Local {α : Type} (size : α → Nat) (scan : List Char → Option α) : Prop :=
  ∀ html found, scan html = some found → ∃ taken rest, html = taken ++ '>' :: rest ∧ size found = taken.length + 1 ∧
    ∀ other, scan (taken ++ '>' :: other) = some found

theorem local_markupEnd (quote : Option Char) : Local id (markupEnd quote) := by
  intro html
  induction html generalizing quote with
  | nil =>
    intro n h
    cases quote <;> cases h
  | cons c rest ih =>
    intro n h
    cases quote with
    | some q =>
      obtain ⟨m, hm, rfl⟩ := Option.map_eq_some_iff.1 h
      grind [markupEnd]
    | none =>
      simp only [markupEnd] at h
      split at h
      · next hquote =>
        obtain ⟨m, hm, rfl⟩ := Option.map_eq_some_iff.1 h
        obtain ⟨taken, after, rfl, hsize, hother⟩ := ih _ m hm
        grind [markupEnd]
      rename_i hquote
      split at h
      · next hend =>
        cases h
        subst hend
        exact ⟨[], rest, rfl, rfl, fun other => by simp [markupEnd]⟩
      rename_i hend
      obtain ⟨m, hm, rfl⟩ := Option.map_eq_some_iff.1 h
      obtain ⟨taken, after, rfl, hsize, hother⟩ := ih _ m hm
      grind [markupEnd]

theorem local_commentClose : Local (· + 3) commentClose := by
  intro html
  induction html with
  | nil =>
    intro n h
    cases h
  | cons c rest ih =>
    intro n h
    simp only [commentClose] at h
    split at h
    · next hclose =>
      cases h
      obtain ⟨after, hafter⟩ := List.isPrefixOf_iff_prefix.1 hclose
      refine ⟨['-', '-'], after, hafter.symm, rfl, fun other => ?_⟩
      rfl
    rename_i hclose
    obtain ⟨m, hm, rfl⟩ := Option.map_eq_some_iff.1 h
    obtain ⟨taken, after, rfl, hsize, hother⟩ := ih m hm
    have hlength : m + 3 = taken.length + 1 := hsize
    refine ⟨c :: taken, after, rfl, by simp only [List.length_cons]; omega, fun other => ?_⟩
    -- the first three characters are among those taken
    have hnot : "-->".toList.isPrefixOf (c :: (taken ++ '>' :: other)) = false := by
      match taken, hlength with
      | x :: y :: _, _ => simpa [List.isPrefixOf] using hclose
    simp only [List.cons_append, commentClose, hnot, Bool.false_eq_true, if_false, hother other, Option.map_some]

theorem local_commentAt : Local id commentAt := by
  intro html n h
  simp only [commentAt] at h
  split at h
  · next hopen =>
    obtain ⟨m, hm, rfl⟩ := Option.map_eq_some_iff.1 h
    obtain ⟨body, hbody⟩ := List.isPrefixOf_iff_prefix.1 hopen
    subst hbody
    obtain ⟨taken, after, htaken, hsize, hother⟩ := local_commentClose _ m hm
    have hlength : m + 3 = taken.length + 1 := hsize
    refine ⟨"<!--".toList ++ taken, after, ?_, ?_, fun other => ?_⟩
    · simp_all
    · simp_all
    · simp [commentAt, hother, Option.map_some]
  · cases h

theorem boundary_not_name {c : Char} (h : c = '>' ∨ c = '/' ∨ isAsciiWhitespace c = true) : isTagNameChar c = false := by
  rcases h with rfl | rfl | h
  · decide
  · decide
  · simp only [isAsciiWhitespace, Bool.or_eq_true, beq_iff_eq] at h
    rcases h with (((rfl | rfl) | rfl) | rfl) | rfl <;> decide

theorem local_startTagAt : Local Prod.snd startTagAt := by
  intro html found h
  unfold startTagAt at h
  split at h
  · next c rest =>
    split at h
    · next hstart =>
      split at h
      · cases h
      rename_i boundary after hdrop
      split at h
      · next hboundary =>
        obtain ⟨n, hn, rfl⟩ := Option.map_eq_some_iff.1 h
        obtain ⟨taken, later, htaken, hsize, hother⟩ := local_markupEnd none _ n hn
        have hn' : n = taken.length + 1 := hsize
        have hrest : rest = rest.takeWhile isTagNameChar ++ (taken ++ '>' :: later) := by
          rw [← htaken, ← hdrop, List.takeWhile_append_dropWhile]
        generalize hname : rest.takeWhile isTagNameChar = name at hrest
        have hall : ∀ x ∈ name, isTagNameChar x = true := by
          intro x hx
          rw [← hname] at hx
          exact List.mem_takeWhile_imp hx
        -- the boundary is the first of the characters up to the end of the tag
        have hfirst : ∀ other, ∃ tail, taken ++ '>' :: other = boundary :: tail := by
          intro other
          cases taken <;> simp_all
        refine ⟨'<' :: c :: name ++ taken, later, ?_, ?_, fun other => ?_⟩
        · rw [hrest]
          simp
        · grind
        obtain ⟨tail, htail⟩ := hfirst other
        have hscan := hother other
        simp_all [List.takeWhile_append_of_pos, List.takeWhile_cons_of_neg, boundary_not_name,
          List.dropWhile_append_of_pos, List.dropWhile_cons_of_neg, startTagAt, Option.map_some]
      · cases h
    · cases h
  · cases h

theorem local_doctypeEndAt : Local id doctypeEndAt := by
  intro html found h
  simp only [doctypeEndAt] at h
  split at h
  · next hprefix =>
    split at h
    · cases h
    rename_i boundary after hdrop
    split at h
    · next hboundary =>
      obtain ⟨n, hn, rfl⟩ := Option.map_eq_some_iff.1 h
      obtain ⟨taken, later, htaken, hsize, hother⟩ := local_markupEnd none _ n hn
      have hn' : n = taken.length + 1 := hsize
      have hnine : (html.take 9).length = 9 := by
        have := congrArg List.length hprefix
        rwa [List.length_map] at this
      have hhtml : html = html.take 9 ++ (taken ++ '>' :: later) := by
        rw [← htaken, ← hdrop, List.take_append_drop]
      generalize html.take 9 = opening at hprefix hnine hhtml
      refine ⟨opening ++ taken, later, by rw [hhtml, List.append_assoc], ?_, fun other => ?_⟩
      · grind
      have hfirst : ∃ tail, taken ++ '>' :: other = boundary :: tail := by cases taken <;> simp_all
      obtain ⟨tail, htail⟩ := hfirst
      have hscan := hother other
      simp_all [doctypeEndAt, List.take_left', List.drop_left', Option.map_some]
    · cases h
  · cases h

theorem local_headOrBodyAt : Local id headOrBodyAt := by
  intro html found h
  unfold headOrBodyAt at h
  split at h
  · next name n htag =>
    split at h
    · next hname =>
      cases h
      obtain ⟨taken, rest, hhtml, hsize, hother⟩ := local_startTagAt _ _ htag
      refine ⟨taken, rest, hhtml, hsize, fun other => ?_⟩
      simp only [headOrBodyAt, hother other, if_pos hname]
    · cases h
  · cases h

/-! ### What a chunk shows -/

/-- A view of a document: the characters `seen` of it, and a replacement for one that was cut. -/
def View (seen shown html : List Char) : Prop :=
  ∃ tail rest, shown = seen ++ tail ∧ html = seen ++ rest ∧ (tail = [] ∨ tail = [replacementCharacter])

theorem View.drop {seen shown html : List Char} (h : View seen shown html) {k : Nat} (hk : k ≤ seen.length) :
    View (seen.drop k) (shown.drop k) (html.drop k) := by
  obtain ⟨tail, rest, rfl, rfl, htail⟩ := h
  exact ⟨tail, rest, List.drop_append_of_le_length hk, List.drop_append_of_le_length hk, htail⟩

section Found
variable {α : Type} {size : α → Nat} {scan : List Char → Option α}

theorem Local.found (hlocal : Local size scan) {seen shown html : List Char} (hview : View seen shown html) {found : α}
    (h : scan shown = some found) : size found ≤ seen.length ∧ scan html = some found := by
  obtain ⟨tail, rest, rfl, rfl, htail⟩ := hview
  obtain ⟨taken, after, hshown, hsize, hother⟩ := hlocal _ _ h
  have hin : taken ++ ['>'] <+: seen ++ tail := ⟨after, by rw [hshown]; simp⟩
  have hlength : taken.length + 1 ≤ seen.length := by
    by_contra hlong
    have hle := hin.length_le
    simp only [List.length_append, List.length_singleton] at hle
    rcases htail with rfl | rfl
    · simp_all
    simp only [List.length_singleton] at hle
    -- the last character would be the replacement
    have hall : taken ++ ['>'] = seen ++ [replacementCharacter] := hin.eq_of_length (by simp; omega)
    have := (List.append_inj_right' hall rfl)
    exact absurd this (by decide)
  refine ⟨by omega, ?_⟩
  have hseen : taken ++ ['>'] <+: seen :=
    List.prefix_of_prefix_length_le hin (List.prefix_append _ _) (by simpa using hlength)
  obtain ⟨left, hleft⟩ := hseen
  grind

theorem Local.shown (hlocal : Local size scan) {seen shown html : List Char} (hview : View seen shown html) {found : α}
    (h : scan html = some found) (hsize : size found ≤ seen.length) : scan shown = some found := by
  obtain ⟨tail, rest, rfl, rfl, -⟩ := hview
  obtain ⟨taken, after, hhtml, hlength, hother⟩ := hlocal _ _ h
  have hin : taken ++ ['>'] <+: seen ++ rest := ⟨after, by rw [hhtml]; simp⟩
  have hseen : taken ++ ['>'] <+: seen :=
    List.prefix_of_prefix_length_le hin (List.prefix_append _ _) (by simp; omega)
  obtain ⟨left, hleft⟩ := hseen
  grind

end Found

/-! ### Blanks and comments -/

def blanks (html : List Char) : Nat := (html.takeWhile isAsciiWhitespace).length

/-- What `skipPrologueTrivia` skips. -/
inductive Skips : List Char → Nat → Prop where
  | stop (html : List Char) (hnone : commentAt (html.drop (blanks html)) = none) : Skips html (blanks html)
  | comment (html : List Char) (n m : Nat) (h : commentAt (html.drop (blanks html)) = some n)
      (hrest : Skips (html.drop (blanks html + n)) m) : Skips html (blanks html + n + m)

variable {seen shown html : List Char} {n : Nat}

theorem commentAt_le (h : commentAt html = some n) : 0 < n ∧ n ≤ html.length := by
  obtain ⟨taken, rest, rfl, hsize, -⟩ := local_commentAt _ _ h
  simp_all

theorem skips_skipPrologueTrivia (fuel : Nat) (html : List Char) (hfuel : html.length < fuel) :
    Skips html (skipPrologueTrivia fuel html) := by
  induction fuel generalizing html with
  | zero => omega
  | succ fuel ih =>
    simp only [skipPrologueTrivia]
    split
    · next n hcomment =>
      obtain ⟨hpos, hle⟩ := commentAt_le hcomment
      rw [List.length_drop] at hle
      exact .comment html n _ hcomment (ih _ (by rw [List.length_drop]; omega))
    · next hcomment => exact .stop html hcomment

theorem skips_trivia (html : List Char) : Skips html (trivia html) :=
  skips_skipPrologueTrivia _ _ (Nat.lt_succ_self _)

theorem Skips.unique {n m : Nat} (hn : Skips html n) (hm : Skips html m) : n = m := by
  induction hn generalizing m with
  | stop html hnone => cases hm <;> simp_all
  | comment html n k h _ ih =>
    cases hm with
    | stop _ hnone => simp [hnone] at h
    | comment _ n' k' h' hrest' => grind

/-- The document goes on with a part of its prologue, up to `stop`. -/
def Ahead (html : List Char) (first stop : Nat) : Prop :=
  first < stop ∧ ∃ c rest, html.drop first = c :: rest ∧
    (isAsciiWhitespace c = true ∨ (c = '<' ∧ first + 2 ≤ stop ∧ ∃ d rest', rest = d :: rest' ∧ d ∈ ['!', 'h', 'H', 'b', 'B']))

theorem Ahead.shift {k first stop : Nat} (h : Ahead (html.drop k) first stop) :
    Ahead html (k + first) (k + stop) := by
  obtain ⟨hlt, c, rest, hdrop, hstart⟩ := h
  rw [List.drop_drop] at hdrop
  refine ⟨by omega, c, rest, hdrop, ?_⟩
  grind

theorem Ahead.mono {first stop later : Nat} (h : Ahead html first stop) (hle : stop ≤ later) :
    Ahead html first later := by
  obtain ⟨hlt, c, rest, hdrop, hstart⟩ := h
  refine ⟨by omega, c, rest, hdrop, ?_⟩
  grind

theorem ahead_of_commentAt {first n : Nat} (h : commentAt (html.drop first) = some n) :
    Ahead html first (first + n) ∧ ∃ body, html.drop first = "<!--".toList ++ body := by
  have hseven : 7 ≤ n := by
    simp only [commentAt] at h
    split at h
    · obtain ⟨m, -, rfl⟩ := Option.map_eq_some_iff.1 h
      omega
    · cases h
  have hopen : "<!--".toList <+: html.drop first := by grind [commentAt]
  obtain ⟨body, hbody⟩ := hopen
  exact ⟨⟨by omega, '<', _, hbody.symm, .inr ⟨rfl, by omega, '!', _, rfl, by decide⟩⟩, body, hbody.symm⟩

def NoToken (html : List Char) : Prop := startTagAt html = none ∧ doctypeEndAt html = none

theorem doctypeEndAt_of_short (h : html.length < 9) : doctypeEndAt html = none := by
  have hne : (html.take 9).map Char.toLower ≠ "<!doctype".toList := by
    intro heq
    have := congrArg List.length heq
    have hnine : "<!doctype".toList.length = 9 := by decide
    grind
  simp only [doctypeEndAt, if_neg hne]

theorem noToken_tail {tail : List Char} (h : tail = [] ∨ tail = [replacementCharacter]) : NoToken tail := by
  rcases h with rfl | rfl <;> exact ⟨by decide, by decide⟩

theorem noToken_of_comment {seen shown html body : List Char} (hview : View seen shown html)
    (hcomment : html = "<!--".toList ++ body) : NoToken shown := by
  obtain ⟨tail, rest, rfl, hseen, htail⟩ := hview
  rw [hcomment] at hseen
  have hopening : "<!--".toList = ['<', '!', '-', '-'] := rfl
  rw [hopening] at hseen
  have htail' : tail.length ≤ 1 := by rcases htail with rfl | rfl <;> simp
  match seen, hseen with
  | [], _ => exact noToken_tail htail
  | [x], hseen =>
    simp only [List.cons_append, List.nil_append, List.cons.injEq] at hseen
    obtain ⟨rfl, -⟩ := hseen
    rcases htail with rfl | rfl <;> exact ⟨by decide, by decide⟩
  | x :: y :: more, hseen =>
    simp only [List.cons_append, List.cons.injEq] at hseen
    obtain ⟨rfl, rfl, hmore⟩ := hseen
    refine ⟨by simp [startTagAt, isTagNameStart], ?_⟩
    match more, hmore with
    | [], _ => exact doctypeEndAt_of_short (by simp; omega)
    | z :: zs, hmore =>
      simp only [List.nil_append, List.cons_append, List.cons.injEq] at hmore
      obtain ⟨rfl, -⟩ := hmore
      simp [doctypeEndAt]

theorem blanks_append (x y : List Char) :
    blanks (x ++ y) = if blanks x = x.length then x.length + blanks y else blanks x := by
  grind [List.takeWhile_append, List.length_append, blanks]

theorem blanks_le (html : List Char) : blanks html ≤ html.length := (List.takeWhile_prefix _).length_le

theorem View.blanks_shown (h : View seen shown html) : blanks shown = blanks seen := by
  obtain ⟨tail, rest, rfl, rfl, htail⟩ := h
  have hnone : blanks tail = 0 := by rcases htail with rfl | rfl <;> decide
  simp_all [blanks_append]

theorem View.blanks_html (h : View seen shown html) (hlt : blanks seen < seen.length) :
    blanks html = blanks seen := by
  obtain ⟨tail, rest, rfl, rfl, -⟩ := h
  rw [blanks_append, if_neg (by omega)]

theorem Skips.ahead {n first : Nat} (h : Skips html n) (hblanks : first ≤ blanks html) (hlt : first < n) :
    Ahead html first n := by
  by_cases hmore : first < blanks html
  · have hget : (html.takeWhile isAsciiWhitespace)[first]? = html[first]? := by
      conv_rhs => rw [← List.takeWhile_append_dropWhile (p := isAsciiWhitespace) (l := html)]
      exact (List.getElem?_append_left hmore).symm
    have hsome : (html.takeWhile isAsciiWhitespace)[first]? = some ((html.takeWhile isAsciiWhitespace)[first]) :=
      List.getElem?_eq_getElem hmore
    have hblank := List.mem_takeWhile_imp (List.getElem_mem hmore)
    rw [hget, List.getElem?_eq_some_iff] at hsome
    obtain ⟨hin, heq⟩ := hsome
    refine ⟨hlt, _, _, List.drop_eq_getElem_cons hin, .inl ?_⟩
    rw [heq]
    exact hblank
  · have heq : first = blanks html := by omega
    subst heq
    cases h with
    | stop => omega
    | comment _ n m hcomment => exact (ahead_of_commentAt hcomment).1.mono (by omega)

theorem Skips.blanks_le_self (h : Skips html n) : blanks html ≤ n := by
  cases h <;> omega

/-- **What the chunk skips.**  It is what the document skips, or the document skips past the end of what was seen, and there
is no other token in what is left of the chunk. -/
theorem Skips.view (h : Skips shown n) (hview : View seen shown html) :
    n ≤ seen.length ∧ (Skips html n ∨ NoToken (shown.drop n) ∧ ∃ m, Skips html m ∧ seen.length < m ∧ Ahead html n m) := by
  induction h generalizing seen html with
  | stop shown hnone =>
    have hshown := hview.blanks_shown
    have hle : blanks shown ≤ seen.length := hshown ▸ blanks_le seen
    refine ⟨hle, ?_⟩
    by_cases hall : blanks shown = seen.length
    · -- blanks to the end of what was seen
      have hhtml : blanks shown ≤ blanks html := by
        obtain ⟨tail, rest, -, rfl, -⟩ := hview
        simp_all [blanks_append]
      have hskips := skips_trivia html
      have hge := hskips.blanks_le_self
      by_cases hsame : trivia html = blanks shown
      · exact .inl (hsame ▸ hskips)
      have hrest : NoToken (shown.drop (blanks shown)) := by
        obtain ⟨tail, rest, heq, -, htail⟩ := hview
        rw [hall, heq, List.drop_left]
        exact noToken_tail htail
      exact .inr ⟨hrest, _, hskips, by omega, hskips.ahead hhtml (by omega)⟩
    · have hhtml : blanks html = blanks shown := by rw [hview.blanks_html (by omega), hshown]
      have hdrop := hview.drop hle
      cases hcomment : commentAt (html.drop (blanks shown)) with
      | none => exact .inl (hhtml ▸ .stop html (hhtml.symm ▸ hcomment))
      | some c =>
        -- the comment ends behind what was seen
        have hlong : seen.length < blanks shown + c := by
          by_contra hshort
          have hfound := local_commentAt.shown hdrop hcomment (by rw [id, List.length_drop]; omega)
          simp_all
        obtain ⟨hahead, body, hbody⟩ := ahead_of_commentAt hcomment
        have hskips := Skips.comment html c _ (hhtml.symm ▸ hcomment) (skips_trivia _)
        rw [hhtml] at hskips
        exact .inr ⟨noToken_of_comment hdrop hbody, _, hskips, by omega, hahead.mono (by omega)⟩
  | comment shown n m hcomment hrest ih =>
    have hshown := hview.blanks_shown
    have hle : blanks shown ≤ seen.length := hshown ▸ blanks_le seen
    obtain ⟨hsize, hfound⟩ := local_commentAt.found (hview.drop hle) hcomment
    obtain ⟨hpos, -⟩ := commentAt_le hcomment
    rw [id, List.length_drop] at hsize
    have hhtml : blanks html = blanks shown := by rw [hview.blanks_html (by omega), hshown]
    obtain ⟨hm, hcase⟩ := ih (hview.drop (by omega))
    rw [List.length_drop] at hm
    refine ⟨by omega, ?_⟩
    rcases hcase with hsame | ⟨hnot, k, hskips, hlong, hahead⟩
    · have hskips := Skips.comment html n m (hhtml.symm ▸ hfound) (hhtml.symm ▸ hsame)
      simp_all
    have hskips := Skips.comment html n k (hhtml.symm ▸ hfound) (hhtml.symm ▸ hskips)
    rw [hhtml] at hskips
    rw [List.drop_drop] at hnot
    rw [List.length_drop] at hlong
    exact .inr ⟨hnot, _, hskips, by omega, hahead.shift⟩

/-! ### Points -/

theorem eq_of_toLower {c d : Char} (h : c.toLower = d) (hd : d.toNat < 97) : c = d := by
  rcases Text.eq_or_upper_of_toLower h with h | ⟨hlow, hhigh, hsum⟩
  · exact h
  · omega

theorem mem_of_toLower {c : Char} (h : c.toLower = 'h' ∨ c.toLower = 'b') : c ∈ ['!', 'h', 'H', 'b', 'B'] := by
  rcases h with h | h
  · rcases Text.eq_or_upper_of_toLower h with rfl | ⟨-, -, hsum⟩
    · decide
    · have : c = 'H' := Char.toNat_inj.1 (Nat.add_right_cancel (m := 32) hsum)
      simp [this]
  rcases Text.eq_or_upper_of_toLower h with rfl | ⟨-, -, hsum⟩
  · decide
  · have : c = 'B' := Char.toNat_inj.1 (Nat.add_right_cancel (m := 32) hsum)
    simp [this]

theorem startTagAt_shape {name : List Char} (h : startTagAt html = some (name, n)) :
    ∃ c rest, html = '<' :: c :: rest ∧ 3 ≤ n ∧ name.head? = some c.toLower := by
  unfold startTagAt at h
  split at h
  · next c rest =>
    split at h
    · split at h
      · cases h
      split at h
      · obtain ⟨k, hk, heq⟩ := Option.map_eq_some_iff.1 h
        cases heq
        obtain ⟨taken, after, -, hsize, -⟩ := local_markupEnd none _ k hk
        grind
      · cases h
    · cases h
  · cases h

def PrologueTag (name : List Char) : Prop := name = "html".toList ∨ name = "head".toList ∨ name = "body".toList

theorem ahead_of_startTagAt {first n : Nat} {name : List Char}
    (h : startTagAt (html.drop first) = some (name, n)) (hname : PrologueTag name) : Ahead html first (first + n) := by
  obtain ⟨c, rest, hdrop, hn, hhead⟩ := startTagAt_shape h
  have hfirst : c.toLower = 'h' ∨ c.toLower = 'b' := by
    rcases hname with rfl | rfl | rfl
    · exact .inl (Option.some.inj hhead).symm
    · exact .inl (Option.some.inj hhead).symm
    · exact .inr (Option.some.inj hhead).symm
  exact ⟨by omega, '<', _, hdrop, .inr ⟨rfl, by omega, c, rest, rfl, mem_of_toLower hfirst⟩⟩

theorem ahead_of_headOrBodyAt {first n : Nat} (h : headOrBodyAt (html.drop first) = some n) :
    Ahead html first (first + n) := by
  unfold headOrBodyAt at h
  split at h
  · next name k htag =>
    split at h
    · next hname =>
      cases h
      exact ahead_of_startTagAt htag (.inr hname)
    · cases h
  · cases h

theorem doctypeEndAt_shape (h : doctypeEndAt html = some n) :
    ∃ rest, html = '<' :: '!' :: rest ∧ 2 ≤ n := by
  simp only [doctypeEndAt] at h
  split at h
  · next hopening =>
    split at h
    · cases h
    split at h
    · obtain ⟨m, -, rfl⟩ := Option.map_eq_some_iff.1 h
      cases html with
      | nil => simp_all
      | cons x more =>
        cases more with
        | nil => simp_all
        | cons y rest =>
          have htwo := congrArg (List.take 2) hopening
          simp only [List.take_succ_cons, List.map_cons, List.take_zero] at htwo
          obtain ⟨hx, hy⟩ := List.cons.inj (htwo.trans (rfl : _ = ['<', '!']))
          refine ⟨rest, ?_, by omega⟩
          rw [eq_of_toLower hx (by decide), eq_of_toLower (List.cons.inj hy).1 (by decide)]
    · cases h
  · cases h

theorem startTagAt_of_declaration {seen shown html rest : List Char} (hview : View seen shown html)
    (hhtml : html = '<' :: '!' :: rest) : startTagAt shown = none := by
  obtain ⟨tail, more, rfl, hseen, htail⟩ := hview
  rw [hhtml] at hseen
  match seen, hseen with
  | [], _ => exact (noToken_tail htail).1
  | [x], hseen =>
    simp only [List.cons_append, List.cons.injEq] at hseen
    obtain ⟨rfl, -⟩ := hseen
    rcases htail with rfl | rfl <;> decide
  | x :: y :: more, hseen =>
    simp only [List.cons_append, List.cons.injEq] at hseen
    obtain ⟨rfl, rfl, -⟩ := hseen
    simp [startTagAt, isTagNameStart]

/-- A point the chunk gives against the document's: they agree, or the document's lies behind what was seen and more of
the prologue is in between. -/
def Agree (seen html : List Char) (mine whole : Nat) : Prop :=
  mine ≤ seen.length ∧ (mine = whole ∨ seen.length < whole ∧ Ahead html mine whole)

theorem Agree.shift {seen html : List Char} {k mine whole : Nat} (hk : k ≤ seen.length)
    (h : Agree (seen.drop k) (html.drop k) mine whole) : Agree seen html (k + mine) (k + whole) := by
  obtain ⟨hle, hcase⟩ := h
  rw [List.length_drop] at hle hcase
  refine ⟨by omega, ?_⟩
  rcases hcase with rfl | ⟨hlong, hahead⟩
  · exact .inl rfl
  · exact .inr ⟨by omega, hahead.shift⟩

theorem View.trivia (hview : View seen shown html) :
    trivia shown ≤ seen.length ∧ (YuriRtc.trivia html = YuriRtc.trivia shown ∨
      NoToken (shown.drop (YuriRtc.trivia shown)) ∧ seen.length < YuriRtc.trivia html ∧
        Ahead html (YuriRtc.trivia shown) (YuriRtc.trivia html)) := by
  obtain ⟨hle, hcase⟩ := (skips_trivia shown).view hview
  refine ⟨hle, ?_⟩
  rcases hcase with hsame | ⟨hnot, m, hskips, hlong, hahead⟩
  · exact .inl ((skips_trivia html).unique hsame)
  · rw [hskips.unique (skips_trivia html)] at hlong hahead
    exact .inr ⟨hnot, hlong, hahead⟩

theorem ahead_trivia (h : 0 < trivia html) : Ahead html 0 (trivia html) :=
  (skips_trivia html).ahead (Nat.zero_le _) h

theorem headOrBodyAt_of_none (h : startTagAt html = none) : headOrBodyAt html = none := by
  simp only [headOrBodyAt, h]

theorem elementPoint_of_none (h : startTagAt html = none) : elementPoint html = 0 := by
  simp only [elementPoint, h]

/-- Behind `<html>`: the end of the head's or body's tag after blanks and comments, or the end of this one. -/
def innerPoint (html : List Char) : Nat :=
  match headOrBodyAt (html.drop (trivia html)) with
  | some m => trivia html + m
  | none => 0

theorem elementPoint_of_html (h : startTagAt html = some ("html".toList, n)) :
    elementPoint html = n + innerPoint (html.drop n) := by
  simp only [elementPoint, h, if_true, innerPoint, List.drop_drop]
  grind

theorem elementPoint_of_other {html name : List Char} (h : startTagAt html = some (name, n))
    (hname : name ≠ "html".toList) :
    elementPoint html = if name = "head".toList ∨ name = "body".toList then n else 0 := by
  simp only [elementPoint, h, if_neg hname, headOrBodyAt]
  split <;> rfl

theorem innerPoint_agree (hview : View seen shown html) :
    Agree seen html (innerPoint shown) (innerPoint html) := by
  obtain ⟨hle, hcase⟩ := hview.trivia
  rcases hcase with hsame | ⟨hnot, hlong, -⟩
  · have hdrop := hview.drop hle
    cases hshown : headOrBodyAt (shown.drop (trivia shown)) with
    | some m =>
      obtain ⟨hm, hfound⟩ := local_headOrBodyAt.found hdrop hshown
      rw [id, List.length_drop] at hm
      simp only [innerPoint, hsame, hshown, hfound]
      exact ⟨by omega, .inl rfl⟩
    | none =>
      cases hhtml : headOrBodyAt (html.drop (trivia shown)) with
      | none =>
        simp only [innerPoint, hsame, hshown, hhtml]
        exact ⟨Nat.zero_le _, .inl rfl⟩
      | some m =>
        -- the tag ends behind what was seen
        have hm : seen.length < trivia shown + m := by
          by_contra hshort
          have hfound := local_headOrBodyAt.shown hdrop hhtml (by rw [id, List.length_drop]; omega)
          simp_all
        simp only [innerPoint, hsame, hshown, hhtml]
        refine ⟨Nat.zero_le _, .inr ⟨hm, ?_⟩⟩
        by_cases hzero : trivia shown = 0
        · rw [hzero] at hhtml ⊢
          exact ahead_of_headOrBodyAt hhtml
        · exact (hsame ▸ ahead_trivia (hsame ▸ Nat.pos_of_ne_zero hzero)).mono (Nat.le_add_right _ _)
  · have hzero : innerPoint shown = 0 := by simp only [innerPoint, headOrBodyAt_of_none hnot.1]
    rw [hzero]
    refine ⟨Nat.zero_le _, ?_⟩
    simp only [innerPoint]
    split
    · next m _ => exact .inr ⟨by omega, (ahead_trivia (by omega)).mono (Nat.le_add_right _ _)⟩
    · exact .inl rfl

theorem elementPoint_agree (hview : View seen shown html) :
    Agree seen html (elementPoint shown) (elementPoint html) := by
  cases hshown : startTagAt shown with
  | some tag =>
    obtain ⟨name, n⟩ := tag
    obtain ⟨hn, hfound⟩ := local_startTagAt.found hview hshown
    by_cases hname : name = "html".toList
    · subst hname
      rw [elementPoint_of_html hshown, elementPoint_of_html hfound]
      exact (innerPoint_agree (hview.drop hn)).shift hn
    rw [elementPoint_of_other hshown hname, elementPoint_of_other hfound hname]
    refine ⟨?_, .inl rfl⟩
    split <;> simp_all
  | none =>
    rw [elementPoint_of_none hshown]
    refine ⟨Nat.zero_le _, ?_⟩
    cases hhtml : startTagAt html with
    | none => exact .inl (elementPoint_of_none hhtml).symm
    | some tag =>
      obtain ⟨name, n⟩ := tag
      have hn : seen.length < n := by
        by_contra hshort
        have hfound := local_startTagAt.shown hview hhtml (Nat.le_of_not_lt hshort)
        simp_all
      have hahead (hname : PrologueTag name) : Ahead html 0 n := by
        simpa using (ahead_of_startTagAt hhtml hname : Ahead html 0 (0 + n))
      by_cases hname : name = "html".toList
      · subst hname
        rw [elementPoint_of_html hhtml]
        exact .inr ⟨by omega, (hahead (.inl rfl)).mono (Nat.le_add_right _ _)⟩
      rw [elementPoint_of_other hhtml hname]
      split
      · next hinner => exact .inr ⟨hn, hahead (.inr hinner)⟩
      · exact .inl rfl

def rootPoint (html : List Char) : Nat := trivia html + elementPoint (html.drop (trivia html))

theorem rootPoint_agree (hview : View seen shown html) :
    Agree seen html (rootPoint shown) (rootPoint html) := by
  obtain ⟨hle, hcase⟩ := hview.trivia
  rcases hcase with hsame | ⟨hnot, hlong, hahead⟩
  · simp only [rootPoint, hsame]
    exact (elementPoint_agree (hview.drop hle)).shift hle
  · simp only [rootPoint, elementPoint_of_none hnot.1]
    exact ⟨hle, .inr ⟨by omega, hahead.mono (Nat.le_add_right _ _)⟩⟩

theorem prologuePoint_of_some (h : doctypeEndAt (html.drop (trivia html)) = some n) :
    prologuePoint html = trivia html + n + rootPoint (html.drop (trivia html + n)) := by
  simp only [prologuePoint, h, rootPoint, List.drop_drop, Nat.add_assoc]

theorem prologuePoint_of_none (h : doctypeEndAt (html.drop (trivia html)) = none) :
    prologuePoint html = rootPoint html := by
  simp only [prologuePoint, h, rootPoint]

theorem trivia_le_prologuePoint (html : List Char) : trivia html ≤ prologuePoint html := by
  cases h : doctypeEndAt (html.drop (trivia html)) with
  | some n =>
    rw [prologuePoint_of_some h]
    omega
  | none =>
    rw [prologuePoint_of_none h, rootPoint]
    omega

theorem prologuePoint_agree (hview : View seen shown html) :
    Agree seen html (prologuePoint shown) (prologuePoint html) := by
  obtain ⟨hle, hcase⟩ := hview.trivia
  rcases hcase with hsame | ⟨hnot, hlong, hahead⟩
  · have hdrop := hview.drop hle
    cases hshown : doctypeEndAt (shown.drop (trivia shown)) with
    | some n =>
      obtain ⟨hn, hfound⟩ := local_doctypeEndAt.found hdrop hshown
      rw [id, List.length_drop] at hn
      rw [prologuePoint_of_some hshown, prologuePoint_of_some (hsame.symm ▸ hfound), hsame]
      have hbehind : trivia shown + n ≤ seen.length := by omega
      exact (rootPoint_agree (hview.drop hbehind)).shift hbehind
    | none =>
      rw [prologuePoint_of_none hshown]
      cases hhtml : doctypeEndAt (html.drop (trivia shown)) with
      | none =>
        rw [prologuePoint_of_none (hsame.symm ▸ hhtml)]
        exact rootPoint_agree hview
      | some n =>
        -- a doctype that ends behind what was seen
        obtain ⟨rest, hopening, htwo⟩ := doctypeEndAt_shape hhtml
        have hn : seen.length < trivia shown + n := by
          by_contra hshort
          have hfound := local_doctypeEndAt.shown hdrop hhtml (by rw [id, List.length_drop]; omega)
          simp_all
        rw [rootPoint, elementPoint_of_none (startTagAt_of_declaration hdrop hopening),
          prologuePoint_of_some (hsame.symm ▸ hhtml), hsame]
        have hahead : Ahead html (trivia shown) (trivia shown + n) :=
          ⟨by omega, '<', _, hopening, .inr ⟨rfl, by omega, '!', rest, rfl, by decide⟩⟩
        exact ⟨hle, .inr ⟨by omega, hahead.mono (by omega)⟩⟩
  · rw [prologuePoint_of_none hnot.2, rootPoint, elementPoint_of_none hnot.1]
    have := trivia_le_prologuePoint html
    exact ⟨hle, .inr ⟨by omega, hahead.mono this⟩⟩

end YuriRtc
