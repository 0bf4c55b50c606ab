import AgentPalace.Ingest.Chunks

/-!
# What the chunks cover

The windows of a text overlap and leave no gap, so every character lies in one.
What is lost is the text of windows that are nearly blank: a window is made a
chunk only if 50 bytes are left of it after trimming.
-/

namespace AgentPalace.Ingest

/-! ### Trimming around a character -/

theorem trimStart_keeps {c : Char} (hc : isWhitespace c = false) (m m' : List Char) :
    trimStart (m ++ c :: m') = trimStart m ++ c :: m' := by
  unfold trimStart
  rw [List.dropWhile_append]
  split
  · rename_i hblank
    rw [List.isEmpty_iff.1 hblank, List.dropWhile_cons_of_neg (by simp [hc])]
    rfl
  · rfl

theorem trimText_keeps {c : Char} (hc : isWhitespace c = false) (m m' : List Char) :
    trimText (m ++ c :: m') = trimStart m ++ c :: m'.rdropWhile isWhitespace := by
  unfold trimText
  rw [trimStart_keeps hc, List.rdropWhile, List.reverse_append, List.reverse_cons,
    List.append_assoc]
  have hback := trimStart_keeps hc m'.reverse (trimStart m).reverse
  unfold trimStart at hback ⊢
  rw [List.singleton_append, hback, List.rdropWhile]
  simp

/-- The chunk stands in the text, around the position. -/
def Chunk.Covers (chunk : Chunk) (content : List Char) (position : Nat) : Prop :=
  ∃ x y, content = x ++ chunk.content ++ y ∧ utf8Bytes x ≤ position ∧
    position < utf8Bytes x + utf8Bytes chunk.content ∧
    ∀ range, chunk.byteRange = some range →
      range = (utf8Bytes x, utf8Bytes x + utf8Bytes chunk.content)

/-- The chunk of a window covers what is not whitespace in it. -/
theorem windowChunk_covers {l m m' r : List Char} {c : Char} (hc : isWhitespace c = false)
    {trackOffsets : Bool} {index : Nat} {chunk : Chunk}
    (h : windowChunk trackOffsets (utf8Bytes l) index (m ++ c :: m') = some chunk) :
    chunk.Covers (l ++ (m ++ c :: m') ++ r) (utf8Bytes (l ++ m)) := by
  have htext := trimText_keeps hc m m'
  have hstart := trimStart_keeps hc m m'
  have hfront : m.takeWhile isWhitespace ++ trimStart m = m := List.takeWhile_append_dropWhile
  obtain ⟨s, hs⟩ := List.rdropWhile_prefix isWhitespace m'
  have hbytes := takeWhile_trimStart m
  have hpos := c.utf8Size_pos
  unfold windowChunk at h
  simp only at h
  split at h
  · cases h
    refine ⟨l ++ m.takeWhile isWhitespace, s ++ r, ?_, ?_, ?_, fun range hrange => ?_⟩
    · simp only [htext]
      conv => lhs; rw [← hfront, ← hs]
      simp
    · simp only [utf8Bytes_append]
      omega
    · simp only [htext, utf8Bytes_append, utf8Bytes_cons]
      omega
    · have hleading : utf8Bytes (m ++ c :: m') - utf8Bytes (trimStart (m ++ c :: m')) =
          utf8Bytes (m.takeWhile isWhitespace) := by
        rw [hstart]
        simp only [utf8Bytes_append]
        omega
      simp only [hleading] at hrange
      split at hrange
      · cases hrange
        simp only [utf8Bytes_append]
      · cases hrange
  · cases h

/-! ### The loop -/

/-- A stretch of the text between two positions, and the chunk made of it. -/
def KeptWindow (content : List Char) (trackOffsets : Bool) (chunks : List Chunk)
    (window : Nat × Nat) : Prop :=
  ∃ l raw r index, content = l ++ raw ++ r ∧ utf8Bytes l = window.1 ∧
    utf8Bytes l + utf8Bytes raw = window.2 ∧
    ∀ chunk, windowChunk trackOffsets window.1 index raw = some chunk → chunk ∈ chunks

/-- What holds of the windows examined before a position. -/
structure Chunking.Scanned (content : List Char) (trackOffsets : Bool) (done : Chunking)
    (start : Nat) : Prop where
  increasing : done.windows.Pairwise fun a b => a.1 < b.1
  before : ∀ window ∈ done.windows, window.1 < start
  kept : ∀ window ∈ done.windows, KeptWindow content trackOffsets done.chunks window
  long : ∀ window ∈ done.windows, window.2 ≠ utf8Bytes content → window.1 + 400 < window.2

section
variable {content : List Char} {trackOffsets : Bool} {done : Chunking} {start : Nat}

theorem Chunking.Scanned.push (h : done.Scanned content trackOffsets start) {stop later : Nat}
    {raw : List Char} (hraw : slice? content start stop = some raw) (hlater : start < later)
    (hlong : stop ≠ utf8Bytes content → start + 400 < stop) :
    (done.push trackOffsets start stop raw).Scanned content trackOffsets later := by
  obtain ⟨l, r, hcontent, hl, hstop⟩ := slice?_iff.1 hraw
  unfold Chunking.push
  refine ⟨List.pairwise_append.2 ⟨h.increasing, List.pairwise_singleton _ _, ?_⟩, ?_, ?_, ?_⟩
  · intro a ha b hb
    obtain rfl := List.mem_singleton.1 hb
    exact h.before a ha
  · intro window hwindow
    rcases List.mem_append.1 hwindow with hwindow | hwindow
    · exact (h.before window hwindow).trans hlater
    · obtain rfl := List.mem_singleton.1 hwindow
      exact hlater
  · intro window hwindow
    rcases List.mem_append.1 hwindow with hwindow | hwindow
    · obtain ⟨l', raw', r', index, hcontent', hl', hstop', hchunk⟩ := h.kept window hwindow
      exact ⟨l', raw', r', index, hcontent', hl', hstop', fun chunk hc =>
        List.mem_append_left _ (hchunk chunk hc)⟩
    · obtain rfl := List.mem_singleton.1 hwindow
      refine ⟨l, raw, r, done.chunks.length, hcontent, hl, hstop, fun chunk hc => ?_⟩
      refine List.mem_append_right _ ?_
      rw [hc]
      exact List.mem_singleton_self chunk
  · intro window hwindow
    rcases List.mem_append.1 hwindow with hwindow | hwindow
    · exact h.long window hwindow
    · obtain rfl := List.mem_singleton.1 hwindow
      exact hlong

theorem chunkText_scanned (content : List Char) (trackOffsets : Bool) :
    ∃ out, chunkText content trackOffsets = some out ∧
      out.Scanned content trackOffsets (utf8Bytes content) ∧
      Covered out.windows (utf8Bytes content) :=
  chunkText_rule (P := fun start done => Chunking.Scanned content trackOffsets done start)
    (fun hscanned _ hraw _ hlong hlater => hscanned.push hraw hlater hlong)
    ⟨.nil, by simp, by simp, by simp⟩

theorem chunkProjectText_of_text {out : Chunking} (h : chunkText content trackOffsets = some out) :
    chunkProjectText content trackOffsets = some out.chunks := by
  by_cases hempty : content = []
  · subst hempty
    cases h
    rfl
  · rw [chunkProjectText_eq hempty, h]
    rfl

/-- A character of a window that is made a chunk is in the chunk. -/
theorem KeptWindow.covers {chunks : List Chunk} {window : Nat × Nat}
    (h : KeptWindow content trackOffsets chunks window) {l r : List Char} {c : Char}
    (hcontent : content = l ++ c :: r) (hc : isWhitespace c = false)
    (hstart : window.1 ≤ utf8Bytes l) (hstop : utf8Bytes l < window.2) {raw : List Char}
    (hraw : slice? content window.1 window.2 = some raw)
    (hmin : projectMinChunkSize ≤ utf8Bytes (trimText raw)) :
    ∃ chunk ∈ chunks, chunk.Covers content (utf8Bytes l) := by
  obtain ⟨front, raw', behind, index, hsplit, hfront, hsize, hchunk⟩ := h
  have hsame : raw' = raw := by
    have hraw' := slice?_iff.2 ⟨front, behind, hsplit, hfront, hsize⟩
    exact Option.some.inj (hraw'.symm.trans hraw)
  subst hsame
  obtain ⟨m, rfl, hm⟩ : ∃ m, l = front ++ m ∧ raw' ++ behind = m ++ c :: r :=
    prefix_of_bytes_le (by rw [← List.append_assoc, ← hsplit, hcontent]) (by omega)
  rw [utf8Bytes_append] at hstop
  obtain ⟨m', rfl⟩ : ∃ m', raw' = m ++ c :: m' := by
    obtain ⟨rest, hrest, hbehind⟩ := prefix_of_bytes_le hm.symm (by omega)
    cases rest with
    | nil =>
      rw [hrest, List.append_nil] at hsize
      omega
    | cons d rest =>
      obtain ⟨rfl, _⟩ := List.cons.inj hbehind
      exact ⟨rest, hrest⟩
  obtain ⟨chunk, hmade⟩ : ∃ chunk, windowChunk trackOffsets (utf8Bytes front) index (m ++ c :: m') =
      some chunk := ⟨_, if_pos hmin⟩
  refine ⟨chunk, hchunk chunk (hfront ▸ hmade), ?_⟩
  rw [hsplit]
  exact windowChunk_covers hc hmade

end

/-- The chunker ends; its windows move on and cover the text, and what is not whitespace is in a
chunk wherever 50 bytes are left of a window around it. -/
theorem chunkProjectText_covers (content : List Char) (trackOffsets : Bool) :
    ∃ out, chunkText content trackOffsets = some out ∧
      chunkProjectText content trackOffsets = some out.chunks ∧
      out.windows.Pairwise (fun a b => a.1 < b.1) ∧
      ∀ l c r, content = l ++ c :: r → isWhitespace c = false →
        (∃ window ∈ out.windows, window.1 ≤ utf8Bytes l ∧ utf8Bytes l < window.2) ∧
        ∀ window ∈ out.windows, window.1 ≤ utf8Bytes l → utf8Bytes l < window.2 →
          ∀ raw, slice? content window.1 window.2 = some raw →
            projectMinChunkSize ≤ utf8Bytes (trimText raw) →
              ∃ chunk ∈ out.chunks, chunk.Covers content (utf8Bytes l) := by
  obtain ⟨out, hout, hscanned, hcovered⟩ := chunkText_scanned content trackOffsets
  refine ⟨out, hout, chunkProjectText_of_text hout, hscanned.increasing,
    fun l c r hcontent hc => ⟨?_, ?_⟩⟩
  · refine hcovered.byte ?_
    have hpos := c.utf8Size_pos
    rw [hcontent, utf8Bytes_append, utf8Bytes_cons]
    omega
  · intro window hwindow hstart hstop raw hraw hmin
    exact (hscanned.kept window hwindow).covers hcontent hc hstart hstop hraw hmin

/-- A letter that stands far before the rest of the text. -/
def farLetter : List Char := 'a' :: List.replicate 799 ' ' ++ List.replicate 50 'b'

/-- The letter is in no chunk. -/
theorem farLetter_lost :
    trimText farLetter = farLetter ∧ projectMinChunkSize ≤ utf8Bytes farLetter ∧
      isWhitespace 'a' = false ∧ 'a' ∈ farLetter ∧
      (chunkProjectText farLetter true).any (fun chunks =>
        chunks.all fun chunk => !chunk.content.contains 'a') = true := by
  refine ⟨by decide +kernel, by decide +kernel, by decide, List.mem_cons_self, by decide +kernel⟩

end AgentPalace.Ingest
