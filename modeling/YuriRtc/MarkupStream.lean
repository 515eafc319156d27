import YuriRtc.MarkupRebase
/-!
# MarkupStream — rebasing a document as it arrives

`rebaseRootRelativeMarkupStream` of `packages/loader/src/inject.ts` keeps the last `markupRebaseTail` bytes back and
rebases what comes before them, with no bytes to the left of the ones kept.  The stream cuts a document into segments; a
decision near a cut sees less than the whole-document one.  `stream_rebase_kept` says when they agree.
-/
namespace YuriRtc

variable {first i n : Nat} {segs : List Segment}

def markupRebaseTail : Nat := 1024

/-- `transform`: the bytes kept back, and what is put out. -/
def rebaseTransform (scope pending chunk : Bytes) : Bytes × List Bytes :=
  let combined := pending ++ chunk
  if combined.length ≤ markupRebaseTail then (combined, [])
  else
    let length := combined.length - markupRebaseTail
    (combined.drop length, [rebaseMarkupBytes combined scope length])

def rebaseFlush (scope pending : Bytes) : List Bytes :=
  if pending = [] then [] else [rebaseMarkupBytes pending scope pending.length]

def rebaseChunks (scope : Bytes) : Bytes → List Bytes → List Bytes
  | pending, [] => rebaseFlush scope pending
  | pending, chunk :: rest =>
    let (kept, out) := rebaseTransform scope pending chunk
    out ++ rebaseChunks scope kept rest

def rebaseRootRelativeMarkupStream (scope : Bytes) (chunks : List Bytes) : List Bytes :=
  if scope = [slashByte] then chunks else rebaseChunks scope [] chunks

/-! ### Segments -/

structure Segment where
  first : Nat
  stop : Nat
  seen : Nat
deriving DecidableEq, Repr

/-- The segments of a stream of which `total` bytes have come and those before `first` have gone out. -/
def segmentsFrom : Nat → Nat → List Bytes → List Segment
  | first, total, [] => if first < total then [⟨first, total, total⟩] else []
  | first, total, chunk :: rest =>
    let seen := total + chunk.length
    if seen - first ≤ markupRebaseTail then segmentsFrom first seen rest
    else ⟨first, seen - markupRebaseTail, seen⟩ :: segmentsFrom (seen - markupRebaseTail) seen rest

def segments (chunks : List Bytes) : List Segment := segmentsFrom 0 0 chunks

def Segment.window (seg : Segment) (bytes : Bytes) : Bytes := (bytes.take seg.seen).drop seg.first

def Segment.out (seg : Segment) (bytes scope : Bytes) : Bytes :=
  rebaseMarkupBytes (seg.window bytes) scope (seg.stop - seg.first)

inductive Tiles (n : Nat) : Nat → List Segment → Prop where
  | done : Tiles n n []
  | seg (seg : Segment) (rest : List Segment) (hlt : seg.first < seg.stop) (hseen : seg.stop ≤ seg.seen) (hn : seg.seen ≤ n)
      (hnext : seg.stop < seg.seen ∨ seg.seen = n) (hrest : Tiles n seg.stop rest) : Tiles n seg.first (seg :: rest)

theorem tiles_segmentsFrom (chunks : List Bytes) (first total : Nat) (hle : first ≤ total) :
    Tiles (total + chunks.flatten.length) first (segmentsFrom first total chunks) := by
  induction chunks generalizing first total with
  | nil =>
    simp only [segmentsFrom, List.flatten_nil, List.length_nil, Nat.add_zero]
    split
    · next hlt => exact .seg ⟨first, total, total⟩ [] hlt le_rfl le_rfl (.inr rfl) .done
    rename_i hlt
    rw [show first = total by omega]
    exact .done
  | cons chunk rest ih =>
    simp only [segmentsFrom, List.flatten_cons, List.length_append, ← Nat.add_assoc]
    split
    · exact ih first _ (by omega)
    rename_i hlong
    have htail : 0 < markupRebaseTail := by decide
    refine .seg ⟨first, _, _⟩ _ (by dsimp only; omega) (Nat.sub_le _ _) (by dsimp only; omega)
      (.inl (by dsimp only; omega)) (ih _ _ (Nat.sub_le _ _))

theorem rebaseChunks_flatten (bytes scope : Bytes) (chunks : List Bytes) (first total : Nat) (hle : first ≤ total)
    (hbytes : bytes = bytes.take total ++ chunks.flatten) (htotal : total ≤ bytes.length) :
    (rebaseChunks scope ((bytes.take total).drop first) chunks).flatten =
      (segmentsFrom first total chunks).flatMap (Segment.out · bytes scope) := by
  induction chunks generalizing first total with
  | nil => grind [rebaseChunks, rebaseFlush, segmentsFrom, Segment.out, Segment.window]
  | cons chunk rest ih =>
    have hseen : bytes.take (total + chunk.length) = bytes.take total ++ chunk := by grind
    have hlong : total + chunk.length ≤ bytes.length := by grind
    have hcombined : (bytes.take total).drop first ++ chunk = (bytes.take (total + chunk.length)).drop first := by grind
    have hlength : ((bytes.take (total + chunk.length)).drop first).length = total + chunk.length - first := by grind
    have hbytes' : bytes = bytes.take (total + chunk.length) ++ rest.flatten := by grind
    simp only [rebaseChunks, rebaseTransform, segmentsFrom, hcombined, hlength]
    split
    · exact ih first _ (by omega) hbytes' hlong
    rename_i hover
    have hdrop : ((bytes.take (total + chunk.length)).drop first).drop (total + chunk.length - first - markupRebaseTail) =
        (bytes.take (total + chunk.length)).drop (total + chunk.length - markupRebaseTail) := by
      rw [List.drop_drop, show first + (total + chunk.length - first - markupRebaseTail) =
        total + chunk.length - markupRebaseTail by omega]
    rw [hdrop, List.flatten_append, ih _ _ (Nat.sub_le _ _) hbytes' hlong, List.flatMap_cons,
      show total + chunk.length - first - markupRebaseTail = total + chunk.length - markupRebaseTail - first by omega]
    simp only [List.flatten_cons, List.flatten_nil, List.append_nil, Segment.out, Segment.window]

/-! ### A segment against the document -/

section Window
variable {bytes : Bytes} {seg : Segment}

theorem byteAt_window (p : UInt8 → Bool) (k : Nat) (hk : seg.first + k < seg.seen) :
    byteAt p (seg.window bytes) k = byteAt p bytes (seg.first + k) := by
  simp only [byteAt, Segment.window, List.getElem?_drop, List.getElem?_take_of_lt hk]

theorem byteAt_window_beyond (p : UInt8 → Bool) (k : Nat) (hk : seg.seen ≤ seg.first + k) :
    byteAt p (seg.window bytes) k = false := by
  simp only [byteAt, Segment.window, List.getElem?_drop, List.getElem?_take_eq_none hk, Option.any_none]

theorem leadsTo_window {equals slash : Nat} :
    LeadsTo (seg.window bytes) equals slash ↔
      LeadsTo bytes (seg.first + equals) (seg.first + slash) ∧ seg.first + slash < seg.seen := by
  constructor
  · rintro ⟨hslash, value, hvalue, hspaces, hend⟩
    have hin : seg.first + slash < seg.seen := by grind [byteAt_window_beyond]
    have hle : value ≤ slash := by rcases hend with rfl | ⟨rfl, -⟩ <;> omega
    rw [byteAt_window _ _ hin] at hslash
    refine ⟨⟨hslash, seg.first + value, by omega, fun k h1 h2 => ?_, ?_⟩, hin⟩
    · have hspace := hspaces (k - seg.first) (by omega) (by omega)
      grind [byteAt_window]
    · grind [byteAt_window]
  · rintro ⟨⟨hslash, value, hvalue, hspaces, hend⟩, hin⟩
    have hle : value ≤ seg.first + slash := by rcases hend with h | ⟨h, -⟩ <;> omega
    refine ⟨by rwa [byteAt_window _ _ hin], value - seg.first, by omega, fun k h1 h2 => ?_, ?_⟩
    · grind [byteAt_window]
    · grind [byteAt_window]

theorem attributeName_window {equals : Nat} (hin : seg.first + equals ≤ seg.seen) :
    attributeName (seg.window bytes) equals = attributeName (bytes.drop seg.first) equals := by
  have hsame : ∀ (p : UInt8 → Bool) (j : Nat), j < equals →
      byteAt p (seg.window bytes) j = byteAt p (bytes.drop seg.first) j := by
    intro p j hj
    rw [byteAt_window p j (by omega), byteAt, byteAt, List.getElem?_drop]
  have hlast := backWhile_congr (hsame isMarkupSpace)
  have hle := backWhile_le isMarkupSpace (bytes.drop seg.first) equals
  have hname := backWhile_congr fun j (hj : j < backWhile isMarkupSpace (bytes.drop seg.first) equals) =>
    hsame isAttributeNameByte j (by omega)
  simp only [attributeName, hlast, hname]
  congr 1
  rw [Segment.window, List.drop_take, List.take_take]
  congr 1
  omega

theorem bytesStartWith_window {i : Nat} (wanted : Bytes) (hfirst : seg.first ≤ i) (hseen : seg.seen ≤ bytes.length) :
    bytesStartWith (seg.window bytes) (i - seg.first + 1) wanted = true ↔
      bytesStartWith bytes (i + 1) wanted = true ∧ i + 1 + wanted.length ≤ seg.seen := by
  have hlength : (seg.window bytes).length = seg.seen - seg.first := by grind [Segment.window]
  have hdrop : (seg.window bytes).drop (i - seg.first + 1) = (bytes.drop (i + 1)).take (seg.seen - (i + 1)) := by
    grind [Segment.window, List.drop_drop, List.drop_take]
  grind [bytesStartWith]

def Segment.turns (seg : Segment) (bytes scope : Bytes) (i : Nat) : Bool :=
  rewritten (seg.window bytes) scope (seg.stop - seg.first) (i - seg.first)

structure Segment.Fits (seg : Segment) (n : Nat) : Prop where
  lt : seg.first < seg.stop
  within : seg.stop ≤ seg.seen
  seen : seg.seen ≤ n
  next : seg.stop < seg.seen ∨ seg.seen = n

/-- **What a segment rewrites**: an `=` of the segment itself leads to the slash, its name is read from the segment's first
byte on, and the scope is looked for in what the stream had seen. -/
theorem turns_iff (hfits : seg.Fits bytes.length) {scope : Bytes} {i : Nat} (hfirst : seg.first ≤ i) (hstop : i < seg.stop) :
    seg.turns bytes scope i = true ↔
      ∃ equals, seg.first ≤ equals ∧ byteAt (· == equalsByte) bytes equals = true ∧ LeadsTo bytes equals i ∧
        byteAt (· == slashByte) bytes (i + 1) = false ∧
        listedName (attributeName (bytes.drop seg.first) (equals - seg.first)) = true ∧
        ¬ (bytesStartWith bytes (i + 1) scope.tail = true ∧ i + 1 + scope.tail.length ≤ seg.seen) := by
  obtain ⟨-, hwithin, hseen, hnext⟩ := hfits
  have hslash : byteAt (· == slashByte) (seg.window bytes) (i - seg.first + 1) = byteAt (· == slashByte) bytes (i + 1) := by
    grind [byteAt_window, byteAt_window_beyond, byteAt, List.getElem?_eq_none]
  rw [Segment.turns, rewritten_iff]
  simp only [leadsTo_window, hslash, ← bytesStartWith_window scope.tail hfirst hseen, Bool.not_eq_true,
    show seg.first + (i - seg.first) = i by omega]
  constructor
  · rintro ⟨equals, hequals, ⟨hleads, hin⟩, hlt, hnoslash, hname, hscope⟩
    have hbefore := hleads.lt
    grind [byteAt_window, attributeName_window, Nat.add_sub_cancel_left]
  rintro ⟨equals, hle, hequals, hleads, hnoslash, hname, hscope⟩
  have hbefore := hleads.lt
  refine ⟨equals - seg.first, ?_, ⟨?_, by omega⟩, by omega, hnoslash, ?_, hscope⟩
  · grind [byteAt_window]
  · simp_all
  · rwa [attributeName_window (by omega)]

theorem Segment.out_eq (hfits : seg.Fits bytes.length) {scope : Bytes} (hscope : scope ≠ [slashByte]) :
    seg.out bytes scope = rebased bytes scope (seg.turns bytes scope) seg.first (seg.stop - seg.first) := by
  have hshift : List.range' seg.first (seg.stop - seg.first) =
      (List.range' 0 (seg.stop - seg.first)).map (seg.first + ·) := (List.map_add_range' 0 _ 1).symm
  rw [Segment.out, rebaseMarkupBytes_eq _ _ _ hscope, rebased, rebased, hshift, List.flatMap_map]
  refine List.flatMap_congr fun k hk => ?_
  have hin := (List.mem_range'_1.1 hk).2
  have hbyte : (seg.window bytes)[k]? = bytes[seg.first + k]? := by
    have := hfits.within
    rw [Segment.window, List.getElem?_drop, List.getElem?_take_of_lt (by omega)]
  simp only [Segment.turns, Nat.add_sub_cancel_left, hbyte]

end Window

/-! ### The stream against the document -/

section

variable (h : Tiles n first segs)
include h

theorem Tiles.fits : ∀ seg ∈ segs, seg.Fits n := by
  induction h with
  | done => simp
  | seg seg rest hlt hseen hn hnext _ ih =>
    intro other hother
    rcases List.mem_cons.1 hother with rfl | hmem
    · exact ⟨hlt, hseen, hn, hnext⟩
    · exact ih other hmem

theorem Tiles.first_le : ∀ seg ∈ segs, first ≤ seg.first := by
  induction h with
  | done => simp
  | seg seg rest hlt _ _ _ _ ih => grind

theorem Tiles.le : first ≤ n := by
  induction h with
  | done => exact le_rfl
  | seg seg rest hlt _ _ _ _ ih => omega

theorem Tiles.exists_mem (hfirst : first ≤ i) (hi : i < n) :
    ∃ seg ∈ segs, seg.first ≤ i ∧ i < seg.stop := by
  induction h with
  | done => omega
  | seg seg rest _ _ _ _ _ ih => by_cases hstop : i < seg.stop <;> simp_all

end

def streamTurns (bytes scope : Bytes) (segs : List Segment) (i : Nat) : Bool :=
  segs.any fun seg => seg.first ≤ i && i < seg.stop && seg.turns bytes scope i

theorem Tiles.streamTurns_eq (h : Tiles n first segs) (bytes scope : Bytes)
    {seg : Segment} (hmem : seg ∈ segs) (hfirst : seg.first ≤ i) (hstop : i < seg.stop) :
    streamTurns bytes scope segs i = seg.turns bytes scope i := by
  induction h with
  | done => cases hmem
  | seg head rest hlt _ _ _ hrest ih =>
    rw [streamTurns, List.any_cons]
    rcases List.mem_cons.1 hmem with rfl | hmem'
    · have hothers : (rest.any fun other => other.first ≤ i && i < other.stop && other.turns bytes scope i) = false := by
        rw [List.any_eq_false]
        intro other hother
        have := hrest.first_le other hother
        grind
      simp [hothers, hfirst, hstop]
    · have := hrest.first_le seg hmem'
      have hhead : (decide (head.first ≤ i) && decide (i < head.stop) && head.turns bytes scope i) = false := by grind
      rw [hhead, Bool.false_or]
      exact ih hmem'

theorem Tiles.flatMap_out {bytes scope : Bytes} (h : Tiles bytes.length first segs) (hscope : scope ≠ [slashByte]) :
    segs.flatMap (Segment.out · bytes scope) =
      rebased bytes scope (streamTurns bytes scope segs) first (bytes.length - first) := by
  have hwhole := h
  induction h with
  | done => simp [rebased]
  | seg seg rest hlt hseen hn hnext hrest ih =>
    have hle := hrest.le
    have hfits := hwhole.fits seg List.mem_cons_self
    rw [List.flatMap_cons, seg.out_eq hfits hscope, ih hrest,
      show bytes.length - seg.first = (seg.stop - seg.first) + (bytes.length - seg.stop) by omega, rebased_append,
      show seg.first + (seg.stop - seg.first) = seg.stop by omega]
    congr 1
    · exact rebased_congr fun i h1 h2 => (hwhole.streamTurns_eq bytes scope List.mem_cons_self h1 (by omega)).symm
    refine rebased_congr fun i h1 h2 => ?_
    obtain ⟨other, hmem, hin⟩ := hrest.exists_mem h1 (by omega)
    rw [hrest.streamTurns_eq bytes scope hmem hin.1 hin.2,
      hwhole.streamTurns_eq bytes scope (List.mem_cons_of_mem _ hmem) hin.1 hin.2]

theorem stream_eq_rebased (scope : Bytes) (chunks : List Bytes) (hscope : scope ≠ [slashByte]) :
    (rebaseRootRelativeMarkupStream scope chunks).flatten =
      rebased chunks.flatten scope (streamTurns chunks.flatten scope (segments chunks)) 0 chunks.flatten.length := by
  have htiles := tiles_segmentsFrom chunks 0 0 le_rfl
  rw [Nat.zero_add] at htiles
  have hstream := rebaseChunks_flatten chunks.flatten scope chunks 0 0 le_rfl (by simp) (Nat.zero_le _)
  rw [List.take_zero, List.drop_nil] at hstream
  rw [rebaseRootRelativeMarkupStream, if_neg hscope, hstream]
  exact htiles.flatMap_out hscope

theorem LeadsTo.equals_unique {bytes : Bytes} {equals other slash : Nat} (h : LeadsTo bytes equals slash)
    (h' : LeadsTo bytes other slash) (hequals : byteAt (· == equalsByte) bytes equals = true)
    (hother : byteAt (· == equalsByte) bytes other = true) : equals = other := by
  rcases Nat.lt_trichotomy equals other with hlt | heq | hlt
  · have := h.lt_of_equals hother hlt
    have := h'.lt
    omega
  · exact heq
  have := h'.lt_of_equals hequals hlt
  have := h.lt
  omega

def Unscoped (bytes scope : Bytes) (slash : Nat) : Prop := bytesStartWith bytes (slash + 1) scope.tail = false

/-- **The cuts of the stream do not matter**: for the value slash of every attribute, in the segment it is in, the name is
listed exactly if its `=` is in that segment too and the part of the name there is listed; and where the scope already
follows, the stream had seen all of it before it decided (or does not take the name for a listed one). -/
def CutsKept (scope : Bytes) (chunks : List Bytes) : Prop :=
  ∀ seg ∈ segments chunks, ∀ equals slash, seg.first ≤ slash → slash < seg.stop →
    byteAt (· == equalsByte) chunks.flatten equals = true → LeadsTo chunks.flatten equals slash →
    byteAt (· == slashByte) chunks.flatten (slash + 1) = false →
      (Unscoped chunks.flatten scope slash → (listedName (attributeName chunks.flatten equals) = true ↔
        seg.first ≤ equals ∧
          listedName (attributeName (chunks.flatten.drop seg.first) (equals - seg.first)) = true)) ∧
      (¬ Unscoped chunks.flatten scope slash → seg.first ≤ equals →
        listedName (attributeName (chunks.flatten.drop seg.first) (equals - seg.first)) = true →
          slash + 1 + scope.tail.length ≤ seg.seen)

theorem cutsKept_iff (scope : Bytes) (chunks : List Bytes) :
    CutsKept scope chunks ↔ ∀ i < chunks.flatten.length, streamTurns chunks.flatten scope (segments chunks) i =
      rewritten chunks.flatten scope chunks.flatten.length i := by
  have htiles := tiles_segmentsFrom chunks 0 0 le_rfl
  rw [Nat.zero_add] at htiles
  change Tiles _ 0 (segments chunks) at htiles
  unfold CutsKept
  generalize hbytes : chunks.flatten = bytes at htiles
  constructor
  · intro hkept i hi
    obtain ⟨seg, hmem, hfirst, hstop⟩ := htiles.exists_mem (Nat.zero_le i) hi
    rw [htiles.streamTurns_eq bytes scope hmem hfirst hstop, Bool.eq_iff_iff,
      turns_iff (htiles.fits seg hmem) hfirst hstop, rewritten_iff]
    constructor
    · rintro ⟨equals, hle, hequals, hleads, hnoslash, hname, hscope⟩
      obtain ⟨hun, hsc⟩ := hkept seg hmem equals i hfirst hstop hequals hleads hnoslash
      have hunscoped : Unscoped bytes scope i := by
        by_contra hscoped
        exact hscope ⟨by simpa [Unscoped] using hscoped, hsc hscoped hle hname⟩
      exact ⟨equals, hequals, hleads, hi, hnoslash, (hun hunscoped).2 ⟨hle, hname⟩, hunscoped⟩
    · rintro ⟨equals, hequals, hleads, -, hnoslash, hname, hunscoped⟩
      obtain ⟨hle, hname'⟩ := ((hkept seg hmem equals i hfirst hstop hequals hleads hnoslash).1 hunscoped).1 hname
      refine ⟨equals, hle, hequals, hleads, hnoslash, hname', fun hscope => ?_⟩
      grind
  · intro hagree seg hmem equals slash hfirst hstop hequals hleads hnoslash
    have hfits := htiles.fits seg hmem
    have hlt : slash < bytes.length := by
      have := hfits.within
      have := hfits.seen
      omega
    have hiff := hagree slash hlt
    rw [htiles.streamTurns_eq bytes scope hmem hfirst hstop, Bool.eq_iff_iff, turns_iff hfits hfirst hstop,
      rewritten_iff] at hiff
    refine ⟨fun hunscoped => ⟨fun hname => ?_, fun ⟨hle, hname⟩ => ?_⟩, fun hscoped hle hname => ?_⟩
    · obtain ⟨other, hle, hother, hleads', -, hname', -⟩ := hiff.2 ⟨equals, hequals, hleads, hlt, hnoslash, hname, hunscoped⟩
      rw [hleads.equals_unique hleads' hequals hother]
      exact ⟨hle, hname'⟩
    · have hstream : ¬ (bytesStartWith bytes (slash + 1) scope.tail = true ∧ slash + 1 + scope.tail.length ≤ seg.seen) := by
        rw [hunscoped]
        simp
      obtain ⟨other, hother, hleads', -, -, hname', -⟩ := hiff.1 ⟨equals, hle, hequals, hleads, hnoslash, hname, hstream⟩
      rwa [hleads.equals_unique hleads' hequals hother]
    · by_contra hbeyond
      obtain ⟨-, -, -, -, -, -, hunscoped⟩ := hiff.1 ⟨equals, hle, hequals, hleads, hnoslash, hname, fun h => hbeyond h.2⟩
      exact hscoped hunscoped

/-! ### What differs shows -/

/-- Decisions that are made at slashes only, each behind an `=` that comes after `first`. -/
def TurnsBehind (bytes : Bytes) (turns : Nat → Bool) (first : Nat) : Prop :=
  ∀ i, first ≤ i → turns i = true → ∃ equals, first ≤ equals ∧ equals < i ∧ byteAt (· == equalsByte) bytes equals = true

theorem idxOf_rebased (bytes scope : Bytes) (turns : Nat → Bool) (first n : Nat) (h : TurnsBehind bytes turns first) :
    (rebased bytes scope turns first n).idxOf equalsByte = ((bytes.drop first).take n).idxOf equalsByte := by
  induction n generalizing first with
  | zero => simp [rebased]
  | succ n ih =>
    have hturn : turns first = false := by
      rw [Bool.eq_false_iff]
      intro htrue
      obtain ⟨equals, h1, h2, -⟩ := h first le_rfl htrue
      omega
    have hplain : (bytes.drop first).take (n + 1) = bytes[first]?.toList ++ (bytes.drop (first + 1)).take n := by
      rw [take_drop_eq_flatMap, take_drop_eq_flatMap, List.range'_succ, List.flatMap_cons]
    rw [hplain, Nat.add_comm n 1, rebased_append, rebased_one, hturn]
    simp only [Bool.false_eq_true, if_false]
    by_cases hequals : bytes[first]? = some equalsByte
    · simp [hequals]
    have hbehind : TurnsBehind bytes turns (first + 1) := by
      intro i hi htrue
      obtain ⟨equals, h1, h2, h3⟩ := h i (by omega) htrue
      refine ⟨equals, Nat.lt_of_le_of_ne h1 fun hsame => ?_, h2, h3⟩
      obtain ⟨byte, hbyte, heq⟩ := byteAt_iff.1 h3
      simp_all
    grind

theorem rebased_ne_of_first {bytes middle : Bytes} {turns other : Nat → Bool} (hi : i < n)
    (hmiddle : equalsByte ∉ middle) (hslash : byteAt (· == slashByte) bytes i = true) (hturn : turns i = true)
    (hother : other i = false) (hsame : ∀ j < i, turns j = other j) (hturns : TurnsBehind bytes turns (i + 1))
    (hothers : TurnsBehind bytes other (i + 1)) :
    rebased bytes (slashByte :: middle ++ [slashByte]) turns 0 n ≠
      rebased bytes (slashByte :: middle ++ [slashByte]) other 0 n := by
  intro heq
  obtain ⟨byte, hbyte, hbeq⟩ := byteAt_iff.1 hslash
  rw [show n = i + (1 + (n - (i + 1))) by omega, rebased_append, rebased_append, rebased_append, rebased_append,
    rebased_congr fun j _ hj => hsame j (by omega)] at heq
  have hcancel := List.append_cancel_left heq
  rw [Nat.zero_add, rebased_one, rebased_one, hturn, hother, hbyte, beq_iff_eq.1 hbeq] at hcancel
  simp only [if_true, Bool.false_eq_true, if_false, Option.toList_some, List.cons_append, List.nil_append,
    List.cons.injEq, true_and] at hcancel
  have hidx := congrArg (List.idxOf equalsByte) hcancel
  have htail : equalsByte ∉ middle ++ [slashByte] := by
    simp only [List.mem_append, List.mem_singleton, not_or]
    exact ⟨hmiddle, by decide⟩
  grind [idxOf_rebased]

theorem turnsBehind_of_leadsTo {bytes : Bytes} {turns : Nat → Bool} {slash : Nat}
    (hslash : byteAt (· == slashByte) bytes slash = true)
    (h : ∀ i, turns i = true → ∃ equals, byteAt (· == equalsByte) bytes equals = true ∧ LeadsTo bytes equals i) :
    TurnsBehind bytes turns (slash + 1) := by
  intro i hi htrue
  obtain ⟨equals, hequals, hleads⟩ := h i htrue
  refine ⟨equals, ?_, hleads.lt, hequals⟩
  by_contra hbefore
  by_cases hsame : equals = slash
  · rw [hsame] at hequals
    have := byteAt_exclusive .slash .equals (by decide) hslash
    exact absurd (hequals.symm.trans this) (by decide)
  · have := hleads.le_of_kind .slash (by decide) (by decide) hslash (by omega)
    omega

theorem rebased_injective {bytes middle : Bytes} {turns other : Nat → Bool} (hmiddle : equalsByte ∉ middle)
    (hturns : ∀ i, turns i = true → ∃ equals, byteAt (· == equalsByte) bytes equals = true ∧ LeadsTo bytes equals i)
    (hothers : ∀ i, other i = true → ∃ equals, byteAt (· == equalsByte) bytes equals = true ∧ LeadsTo bytes equals i)
    (heq : rebased bytes (slashByte :: middle ++ [slashByte]) turns 0 n =
      rebased bytes (slashByte :: middle ++ [slashByte]) other 0 n) : ∀ i < n, turns i = other i := by
  intro i
  -- by strong induction: at the first slash where they differ one of the two has the scope
  induction i using Nat.strong_induction_on with
  | _ i ih =>
    intro hi
    have hsame : ∀ j < i, turns j = other j := fun j hj => ih j hj (by omega)
    cases hturn : turns i with
    | true =>
      cases hother : other i with
      | true => rfl
      | false =>
        obtain ⟨equals, -, hleads⟩ := hturns i hturn
        exact absurd heq (rebased_ne_of_first hi hmiddle hleads.1 hturn hother hsame
          (turnsBehind_of_leadsTo hleads.1 hturns) (turnsBehind_of_leadsTo hleads.1 hothers))
    | false =>
      cases hother : other i with
      | false => rfl
      | true =>
        obtain ⟨equals, -, hleads⟩ := hothers i hother
        exact absurd heq.symm (rebased_ne_of_first hi hmiddle hleads.1 hother hturn (fun j hj => (hsame j hj).symm)
          (turnsBehind_of_leadsTo hleads.1 hothers) (turnsBehind_of_leadsTo hleads.1 hturns))

theorem streamTurns_leadsTo {chunks : List Bytes} {scope : Bytes}
    (h : streamTurns chunks.flatten scope (segments chunks) i = true) :
    ∃ equals, byteAt (· == equalsByte) chunks.flatten equals = true ∧ LeadsTo chunks.flatten equals i := by
  have htiles := tiles_segmentsFrom chunks 0 0 le_rfl
  rw [Nat.zero_add] at htiles
  obtain ⟨seg, hmem, hseg⟩ := List.any_eq_true.1 h
  simp only [Bool.and_eq_true, decide_eq_true_eq] at hseg
  obtain ⟨equals, -, hequals, hleads, -⟩ := (turns_iff (htiles.fits seg hmem) hseg.1.1 hseg.1.2).1 hseg.2
  exact ⟨equals, hequals, hleads⟩

/-- **Rebasing a document as it arrives gives the rebased document where no cut matters; and, for a scope without `=`, only
there.**  The scope is `/…/`; a document of the scope `/` is passed through by both. -/
theorem stream_rebase_kept (middle : Bytes) (chunks : List Bytes) :
    (CutsKept (slashByte :: middle ++ [slashByte]) chunks →
      (rebaseRootRelativeMarkupStream (slashByte :: middle ++ [slashByte]) chunks).flatten =
        rebaseMarkupBytes chunks.flatten (slashByte :: middle ++ [slashByte]) chunks.flatten.length) ∧
    (equalsByte ∉ middle →
      (rebaseRootRelativeMarkupStream (slashByte :: middle ++ [slashByte]) chunks).flatten =
        rebaseMarkupBytes chunks.flatten (slashByte :: middle ++ [slashByte]) chunks.flatten.length →
      CutsKept (slashByte :: middle ++ [slashByte]) chunks) ∧
    (rebaseRootRelativeMarkupStream [slashByte] chunks).flatten =
      rebaseMarkupBytes chunks.flatten [slashByte] chunks.flatten.length := by
  have hscope : slashByte :: middle ++ [slashByte] ≠ [slashByte] := by simp
  refine ⟨fun hkept => ?_, fun hmiddle heq => ?_, ?_⟩
  · rw [stream_eq_rebased _ _ hscope, rebaseMarkupBytes_eq _ _ _ hscope]
    refine rebased_congr fun i _ hi => (cutsKept_iff _ _).1 hkept i ?_
    rwa [Nat.zero_add] at hi
  · rw [stream_eq_rebased _ _ hscope, rebaseMarkupBytes_eq _ _ _ hscope] at heq
    refine (cutsKept_iff _ _).2 (rebased_injective hmiddle (fun i => streamTurns_leadsTo) (fun i htrue => ?_) heq)
    obtain ⟨equals, hequals, hleads, -⟩ := rewritten_iff.1 htrue
    exact ⟨equals, hequals, hleads⟩
  · simp [rebaseRootRelativeMarkupStream, rebaseMarkupBytes]

def ascii (text : String) : Bytes := text.toList.map fun c => UInt8.ofNat c.toNat

/-- The positions of `=`, in one pass. -/
def equalsFrom : Nat → Bytes → List Nat
  | _, [] => []
  | k, byte :: rest => if byte == equalsByte then k :: equalsFrom (k + 1) rest else equalsFrom (k + 1) rest

theorem filter_range'_eq_equalsFrom (before bytes : Bytes) (n : Nat) :
    (List.range' before.length n).filter (byteAt (· == equalsByte) (before ++ bytes)) =
      equalsFrom before.length (bytes.take n) := by
  induction n generalizing before bytes with
  | zero => simp [equalsFrom]
  | succ n ih =>
    rw [List.range'_succ, List.filter_cons]
    cases bytes with
    | nil =>
      have hnone (k : Nat) (hk : before.length ≤ k) : byteAt (· == equalsByte) (before ++ []) k = false := by
        simp [byteAt, hk]
      rw [hnone _ le_rfl, if_neg (by decide)]
      refine List.filter_eq_nil_iff.2 fun k hk => ?_
      grind
    | cons byte rest =>
      have hfirst : byteAt (· == equalsByte) (before ++ byte :: rest) before.length = (byte == equalsByte) := by
        simp [byteAt]
      have hrest := ih (before ++ [byte]) rest
      rw [List.length_append, List.length_singleton, List.append_assoc, List.singleton_append] at hrest
      grind [equalsFrom]

theorem rebaseMarkupBytes_eq_equalsFrom (bytes scope : Bytes) (length : Nat) :
    rebaseMarkupBytes bytes scope length =
      if scope = [slashByte] ∨ length = 0 then bytes.take length
      else
        let found := (equalsFrom 0 (bytes.take length)).foldl (rebaseStep bytes scope length) ([], 0)
        found.1 ++ (bytes.take length).drop found.2 := by
  have h := filter_range'_eq_equalsFrom [] bytes length
  rw [List.nil_append, List.length_nil, ← List.range_eq_range'] at h
  rw [rebaseMarkupBytes, equalsBelow, h]

/-- A document of one chunk whose first segment ends between the `=` and the slash of `src=/…`. -/
def cutDocument : Bytes := ascii "src=/" ++ List.replicate 1023 0x61

/-- **The slash behind the cut is rewritten in the document and not in the stream.** -/
theorem cutDocument_differs :
    (rebaseRootRelativeMarkupStream (ascii "/edurpu/") [cutDocument]).flatten = cutDocument ∧
      rebaseMarkupBytes cutDocument (ascii "/edurpu/") cutDocument.length =
        ascii "src=/edurpu/" ++ List.replicate 1023 0x61 ∧
      (rebaseRootRelativeMarkupStream (ascii "/edurpu/") [cutDocument]).flatten ≠
        rebaseMarkupBytes cutDocument (ascii "/edurpu/") cutDocument.length := by
  have hstream : (rebaseRootRelativeMarkupStream (ascii "/edurpu/") [cutDocument]).flatten = cutDocument := by
    simp only [rebaseRootRelativeMarkupStream, rebaseChunks, rebaseTransform, rebaseFlush, rebaseMarkupBytes_eq_equalsFrom]
    decide +kernel
  have hwhole : rebaseMarkupBytes cutDocument (ascii "/edurpu/") cutDocument.length =
      ascii "src=/edurpu/" ++ List.replicate 1023 0x61 := by
    rw [rebaseMarkupBytes_eq_equalsFrom]
    decide +kernel
  refine ⟨hstream, hwhole, ?_⟩
  rw [hstream, hwhole]
  decide +kernel

/-- An attribute that is split across two chunks, with the tail that is held back cut off behind it. -/
def splitDocument : List Bytes := [ascii "<iframe src = \"", ascii "/legacy.html\">" ++ List.replicate 1024 0x61]

theorem stream_rebase_kept_splitAttribute :
    CutsKept (slashByte :: ascii "edurpu" ++ [slashByte]) splitDocument ∧
      (rebaseRootRelativeMarkupStream (slashByte :: ascii "edurpu" ++ [slashByte]) splitDocument).flatten =
        ascii "<iframe src = \"/edurpu/legacy.html\">" ++ List.replicate 1024 0x61 := by
  have hwhole : rebaseMarkupBytes splitDocument.flatten (slashByte :: ascii "edurpu" ++ [slashByte])
      splitDocument.flatten.length = ascii "<iframe src = \"/edurpu/legacy.html\">" ++ List.replicate 1024 0x61 := by
    rw [rebaseMarkupBytes_eq_equalsFrom]
    decide +kernel
  have hkept := (stream_rebase_kept (ascii "edurpu") splitDocument).2.1 (by decide) <| by
    rw [hwhole]
    simp only [rebaseRootRelativeMarkupStream, splitDocument, rebaseChunks, rebaseTransform, rebaseFlush,
      rebaseMarkupBytes_eq_equalsFrom]
    decide +kernel
  exact ⟨hkept, ((stream_rebase_kept (ascii "edurpu") splitDocument).1 hkept).trans hwhole⟩

end YuriRtc
