import Mathlib.Data.List.Sort

/-!
# Line numbers of byte ranges

`computeLineNumbers` answers two queries for every range, the lines of its first
and of its last byte, in one pass over the file: the queries are sorted by
offset and a counter of newlines advances from one to the next.
-/

namespace AgentPalace.Ingest

/-- The newlines before a byte offset. -/
def newlinesBefore (bytes : List UInt8) (offset : Nat) : Nat := (bytes.take offset).count 10

structure LineQuery where
  offset : Nat
  chunk : Nat
  isEnd : Bool

/-- The order of the sort key `(offset, chunk, !isEnd)`. -/
def LineQuery.le (a b : LineQuery) : Prop :=
  a.offset < b.offset ∨ a.offset = b.offset ∧
    (a.chunk < b.chunk ∨ a.chunk = b.chunk ∧ (a.isEnd = true ∨ b.isEnd = false))

instance : DecidableRel LineQuery.le := fun a b => by
  unfold LineQuery.le
  exact inferInstance

instance : Std.Total LineQuery.le where
  total a b := by
    unfold LineQuery.le
    cases a.isEnd <;> cases b.isEnd <;> simp <;> omega

instance : IsTrans LineQuery LineQuery.le where
  trans a b c := by
    unfold LineQuery.le
    cases a.isEnd <;> cases b.isEnd <;> cases c.isEnd <;> simp <;> omega

def lineQueries (chunks : List (Nat × Nat)) : List LineQuery :=
  chunks.zipIdx.flatMap fun ((start, stop), i) => [⟨start, i, false⟩, ⟨stop - 1, i, true⟩]

/-- The bytes not yet walked over, their position and the newlines seen. -/
structure LineWalk where
  rest : List UInt8
  bytePos : Nat
  newlines : Nat

def advance (target : Nat) : List UInt8 → Nat → Nat → LineWalk
  | [], pos, newlines => ⟨[], pos, newlines⟩
  | b :: rest, pos, newlines =>
    if pos < target then advance target rest (pos + 1) (if b = 10 then newlines + 1 else newlines)
    else ⟨b :: rest, pos, newlines⟩

structure LineState where
  walk : LineWalk
  lineStarts : List Nat
  lineEnds : List Nat

def LineState.answer (st : LineState) (query : LineQuery) : LineState :=
  let walk := advance query.offset st.walk.rest st.walk.bytePos st.walk.newlines
  let line := walk.newlines + 1
  if query.isEnd then { st with walk, lineEnds := st.lineEnds.set query.chunk line }
  else { st with walk, lineStarts := st.lineStarts.set query.chunk line }

theorem LineState.answer_eq (st : LineState) (query : LineQuery) :
    st.answer query =
      let walk := advance query.offset st.walk.rest st.walk.bytePos st.walk.newlines
      ⟨walk,
        if query.isEnd then st.lineStarts else st.lineStarts.set query.chunk (walk.newlines + 1),
        if query.isEnd then st.lineEnds.set query.chunk (walk.newlines + 1) else st.lineEnds⟩ := by
  unfold LineState.answer
  split <;> rfl

def computeLineNumbers (fileBytes : List UInt8) (chunks : List (Nat × Nat)) : List (Nat × Nat) :=
  let zeros := List.replicate chunks.length 0
  let final := ((lineQueries chunks).insertionSort LineQuery.le).foldl LineState.answer
    ⟨⟨fileBytes, 0, 0⟩, zeros, zeros⟩
  final.lineStarts.zip final.lineEnds

/-- A walk that has counted the newlines before its position. -/
structure LineWalk.Counts (bytes : List UInt8) (w : LineWalk) : Prop where
  rest : w.rest = bytes.drop w.bytePos
  newlines : w.newlines = newlinesBefore bytes w.bytePos

theorem newlinesBefore_succ {bytes rest : List UInt8} {b : UInt8} {pos : Nat}
    (h : b :: rest = bytes.drop pos) :
    newlinesBefore bytes (pos + 1) = newlinesBefore bytes pos + if b = 10 then 1 else 0 := by
  have hget : bytes[pos]? = some b := by
    have := congrArg List.head? h
    simpa using this.symm
  unfold newlinesBefore
  rw [List.take_add_one, hget, List.count_append]
  by_cases hb : b = 10 <;> simp [hb]

theorem advance_counts {bytes rest : List UInt8} {target pos newlines : Nat}
    (h : LineWalk.Counts bytes ⟨rest, pos, newlines⟩) (hle : pos ≤ target) :
    (advance target rest pos newlines).Counts bytes ∧
      (advance target rest pos newlines).bytePos ≤ target ∧
      (advance target rest pos newlines).newlines = newlinesBefore bytes target := by
  induction rest generalizing pos newlines with
  | nil =>
    have hend : bytes.length ≤ pos := List.drop_eq_nil_iff.1 h.rest.symm
    refine ⟨h, hle, h.newlines.trans ?_⟩
    unfold newlinesBefore
    rw [List.take_of_length_le hend, List.take_of_length_le (by omega)]
  | cons b rest ih =>
    unfold advance
    split
    · rename_i hlt
      apply ih _ hlt
      have hrest : rest = bytes.drop (pos + 1) := by
        have hdrop : b :: rest = bytes.drop pos := h.rest
        have := congrArg List.tail hdrop
        simpa using this
      refine ⟨hrest, ?_⟩
      have hcount : newlines = newlinesBefore bytes pos := h.newlines
      simp only [newlinesBefore_succ h.rest, hcount]
      split <;> rfl
    · obtain rfl : pos = target := by omega
      exact ⟨h, Nat.le_refl _, h.newlines⟩

/-- After a run over sorted queries every query that was asked is answered. -/
theorem answers {bytes : List UInt8} {offset : Nat → Bool → Nat} {queries : List LineQuery}
    {st : LineState} (hsorted : queries.Pairwise LineQuery.le)
    (hoffset : ∀ q ∈ queries, q.offset = offset q.chunk q.isEnd)
    (hwalk : st.walk.Counts bytes) (hpos : ∀ q ∈ queries, st.walk.bytePos ≤ q.offset) (i : Nat) :
    (queries.foldl LineState.answer st).lineStarts[i]? = st.lineStarts[i]?.map (fun line =>
        if ∃ q ∈ queries, q.chunk = i ∧ q.isEnd = false then
          newlinesBefore bytes (offset i false) + 1 else line) ∧
      (queries.foldl LineState.answer st).lineEnds[i]? = st.lineEnds[i]?.map (fun line =>
        if ∃ q ∈ queries, q.chunk = i ∧ q.isEnd = true then
          newlinesBefore bytes (offset i true) + 1 else line) := by
  induction queries generalizing st with
  | nil => simp
  | cons q queries ih =>
    obtain ⟨hlater, hsorted⟩ := List.pairwise_cons.1 hsorted
    obtain ⟨hcounts, hbyte, hline⟩ := @advance_counts bytes st.walk.rest q.offset st.walk.bytePos
      st.walk.newlines hwalk (hpos q List.mem_cons_self)
    have hline := hline.trans (congrArg (newlinesBefore bytes) (hoffset q List.mem_cons_self))
    rw [List.foldl_cons, LineState.answer_eq]
    generalize advance q.offset st.walk.rest st.walk.bytePos st.walk.newlines = w at *
    have hnext : ∀ p ∈ queries, w.bytePos ≤ p.offset := by
      intro p hp
      have : q.offset ≤ p.offset := by rcases hlater p hp with h | h <;> omega
      omega
    have hmem := fun p hp => hoffset p (List.mem_cons_of_mem q hp)
    by_cases hq : q.isEnd = true
    · have ih := @ih ⟨w, st.lineStarts, st.lineEnds.set q.chunk (w.newlines + 1)⟩ hsorted hmem
        hcounts hnext
      simp only [hq, if_true]
      rw [ih.1, ih.2, List.getElem?_set]
      by_cases hi : q.chunk = i
      · by_cases hlt : i < st.lineEnds.length <;> simp_all
      · simp_all
    · simp only [Bool.not_eq_true] at hq
      have ih := @ih ⟨w, st.lineStarts.set q.chunk (w.newlines + 1), st.lineEnds⟩ hsorted hmem
        hcounts hnext
      simp only [hq, Bool.false_eq_true, if_false]
      rw [ih.1, ih.2, List.getElem?_set]
      by_cases hi : q.chunk = i
      · by_cases hlt : i < st.lineStarts.length <;> simp_all
      · simp_all

theorem computeLineNumbers_eq (bytes : List UInt8) (chunks : List (Nat × Nat)) :
    computeLineNumbers bytes chunks = chunks.map fun (start, stop) =>
      (newlinesBefore bytes start + 1, newlinesBefore bytes (stop - 1) + 1) := by
  let offset := fun (i : Nat) (isEnd : Bool) =>
    ((chunks[i]?).map fun range => if isEnd then range.2 - 1 else range.1).getD 0
  have hmem : ∀ i isEnd, i < chunks.length →
      ⟨offset i isEnd, i, isEnd⟩ ∈ (lineQueries chunks).insertionSort LineQuery.le := by
    intro i isEnd hi
    rw [List.mem_insertionSort]
    refine List.mem_flatMap.2 ⟨(chunks[i], i), List.mem_zipIdx_iff_getElem?.2 (by simp [hi]), ?_⟩
    cases isEnd <;> simp [offset, hi]
  have hoffset : ∀ q ∈ (lineQueries chunks).insertionSort LineQuery.le,
      q.offset = offset q.chunk q.isEnd := by
    intro q hq
    rw [List.mem_insertionSort] at hq
    obtain ⟨⟨range, i⟩, hrange, hq⟩ := List.mem_flatMap.1 hq
    have hget := List.mem_zipIdx_iff_getElem?.1 hrange
    simp only [List.mem_cons, List.not_mem_nil, or_false] at hq
    rcases hq with rfl | rfl <;> simp_all [offset]
  have hrun := fun i => @answers bytes offset _
    ⟨⟨bytes, 0, 0⟩, List.replicate chunks.length 0, List.replicate chunks.length 0⟩
    (List.pairwise_insertionSort LineQuery.le (lineQueries chunks)) hoffset
    ⟨rfl, by simp [newlinesBefore]⟩ (fun _ _ => Nat.zero_le _) i
  apply List.ext_getElem?
  intro i
  have hanswer := hrun i
  unfold computeLineNumbers
  by_cases hi : i < chunks.length
  · have hstart : ∃ q ∈ (lineQueries chunks).insertionSort LineQuery.le,
        q.chunk = i ∧ q.isEnd = false := ⟨_, hmem i false hi, rfl, rfl⟩
    have hend : ∃ q ∈ (lineQueries chunks).insertionSort LineQuery.le,
        q.chunk = i ∧ q.isEnd = true := ⟨_, hmem i true hi, rfl, rfl⟩
    simp only [if_pos hstart, if_pos hend] at hanswer
    rw [List.getElem?_map, List.getElem?_eq_getElem hi, Option.map_some]
    apply List.getElem?_zip_eq_some.2
    simpa [hi, offset] using hanswer
  · have hshort : (List.replicate chunks.length 0)[i]? = none :=
      List.getElem?_eq_none (by simpa using hi)
    have hnone := hanswer.1
    simp only [hshort, Option.map_none, List.getElem?_eq_none_iff] at hnone
    rw [List.getElem?_eq_none, List.getElem?_eq_none (by simpa using hi)]
    rw [List.length_zip]
    omega

end AgentPalace.Ingest
