import YuriRtc.InjectionBytes
import YuriRtc.MarkupStream
/-!
# InjectedStream — the injected stream is the rebased one with the script put in

`injectIntoStream` reads what `rebaseRootRelativeMarkupStream` puts out and looks into its first chunk that is not empty.  The
place it finds there may be off when the chunk is not UTF-8, since a replacement character has three bytes, but `subarray`
divides the chunk whatever the place is.
-/
namespace YuriRtc

theorem injectIntoStream_eq (decoder : TextDecoder) (code : List Char) (chunks : List Bytes) :
    injectIntoStream decoder code chunks = match chunks.filter (· ≠ []) with
      | [] => [utf8 (injectionScript code)]
      | first :: rest => injectIntoChunk decoder code first ++ rest := by
  induction chunks with
  | nil => rfl
  | cons chunk chunks ih =>
    by_cases hchunk : chunk = []
    · simp [injectIntoStream, hchunk, ih]
    · simp [injectIntoStream, hchunk]

/-- **Nothing of the document is lost**: for every sequence of chunks, every script and every scope, the output is the
rebased stream's with the script at one place in the first chunk that is not empty; it is that stream's alone when the chunk
has the guard already, and the script alone when there is no such chunk. -/
theorem injected_stream_preserves (decoder : TextDecoder) (code : List Char) (scope : Bytes) (chunks : List Bytes) :
    let rebased := rebaseRootRelativeMarkupStream scope chunks
    let output := (injectIntoStream decoder code rebased).flatten
    match rebased.filter (· ≠ []) with
    | [] => rebased.flatten = [] ∧ output = utf8 (injectionScript code)
    | first :: rest => rebased.flatten = first ++ rest.flatten ∧
        if guardMarker <:+: decodedChunk decoder first then output = rebased.flatten
        else ∃ before after, first = before ++ after ∧
          output = before ++ utf8 (injectionScript code) ++ after ++ rest.flatten := by
  intro rebased output
  have hflatten : (rebased.filter (· ≠ [])).flatten = rebased.flatten := List.flatten_filter_ne_nil
  have houtput : output = (injectIntoStream decoder code rebased).flatten := rfl
  rw [injectIntoStream_eq] at houtput
  cases hrebased : rebased.filter (· ≠ []) with
  | nil =>
    rw [hrebased] at hflatten houtput
    exact ⟨hflatten.symm, by simpa using houtput⟩
  | cons first rest =>
    rw [hrebased] at hflatten houtput
    refine ⟨hflatten.symm, ?_⟩
    rw [List.flatten_append] at houtput
    split
    · rename_i hmarker
      have hchunk : injectIntoChunk decoder code first = [first] := if_pos hmarker
      rw [houtput, hchunk, ← hflatten]
      simp
    rename_i hmarker
    rw [injectIntoChunk_flatten decoder code first hmarker] at houtput
    exact ⟨_, _, (List.take_append_drop _ first).symm, by rw [houtput, List.append_assoc]⟩

end YuriRtc
