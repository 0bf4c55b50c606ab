import AgentPalace.Lib.TextSlice
import AgentPalace.Core.Ids

/-!
# Chunks of a project file

`chunkProjectText` cuts a trimmed text into overlapping windows of at most 800
bytes, ended early at a paragraph or a line where there is one in their second
half, and keeps what is left of a window after trimming if it has 50 bytes.
A slice off a character boundary is a panic of the source, `none` here.

`Chunking.Ok` is the invariant of the loop; `chunkProjectText_ok` derives from it
that the loop ends without a panic and what its chunks and windows are.
-/

namespace AgentPalace.Ingest

def projectChunkSize : Nat := 800
def projectChunkOverlap : Nat := 100
def projectMinChunkSize : Nat := 50

def trimStart (cs : List Char) : List Char := cs.dropWhile isWhitespace

def trimText (cs : List Char) : List Char := (trimStart cs).rdropWhile isWhitespace

/-- A chunk of a text, with its byte range in the text if offsets are tracked. -/
structure Chunk where
  content : List Char
  chunkIndex : Nat
  byteRange : Option (Nat × Nat)
  deriving DecidableEq

/-- `u32::try_from(n).unwrap_or(u32::MAX)`. -/
def clampU32 (n : Nat) : Nat := min n 4294967295

def findBoundary (content : List Char) (start stop : Nat) (delimiter : List Char) :
    Option (Option Nat) :=
  (slice? content start stop).map fun window => (rfind delimiter window).map (start + ·)

/-- The end of a window whose last delimiter is at `split`. -/
def splitAt (start stop : Nat) : Option Nat → Nat
  | some split => if start + projectChunkSize / 2 < split then split else stop
  | none => stop

/-- The end of the window that begins at `start`. -/
def windowEnd (content : List Char) (start : Nat) : Option Nat := do
  let stop := align content (min (start + projectChunkSize) (utf8Bytes content))
  if stop < utf8Bytes content then
    match ← findBoundary content start stop ['\n', '\n'] with
    | some split => return splitAt start stop (some split)
    | none => return splitAt start stop (← findBoundary content start stop ['\n'])
  else return stop

/-- The chunk of one window, if what is left of it is long enough. -/
def windowChunk (trackOffsets : Bool) (start index : Nat) (raw : List Char) : Option Chunk :=
  let leading := utf8Bytes raw - utf8Bytes (trimStart raw)
  let text := trimText raw
  if projectMinChunkSize ≤ utf8Bytes text then
    some
      { content := text
        chunkIndex := clampU32 index
        byteRange :=
          if trackOffsets then some (start + leading, start + leading + utf8Bytes text) else none }
  else none

/-- What the loop has collected; the windows it examined are not part of the source. -/
structure Chunking where
  windows : List (Nat × Nat)
  chunks : List Chunk

def Chunking.push (trackOffsets : Bool) (done : Chunking) (start stop : Nat) (raw : List Char) :
    Chunking where
  windows := done.windows ++ [(start, stop)]
  chunks := done.chunks ++ (windowChunk trackOffsets start done.chunks.length raw).toList

def chunkLoop (content : List Char) (trackOffsets : Bool) : Nat → Nat → Chunking → Option Chunking
  | 0, _, _ => none
  | fuel + 1, start, done =>
    if start < utf8Bytes content then do
      let stop ← windowEnd content start
      let raw ← slice? content start stop
      let done := done.push trackOffsets start stop raw
      if stop = utf8Bytes content then return done
      chunkLoop content trackOffsets fuel (align content (stop - projectChunkOverlap)) done
    else return done

/-- The loop over a whole text; each turn moves on, so one turn for every byte is enough. -/
def chunkText (content : List Char) (trackOffsets : Bool) : Option Chunking :=
  chunkLoop content trackOffsets (utf8Bytes content + 1) 0 ⟨[], []⟩

def chunkProjectText (content : List Char) (trackOffsets : Bool) : Option (List Chunk) :=
  if content = [] then some [] else (chunkText content trackOffsets).map (·.chunks)

/-! ### Windows -/

theorem findBoundary_ok {content delimiter : List Char} {start stop : Nat}
    (hstart : isCharBoundary content start = true) (hstop : isCharBoundary content stop = true)
    (hle : start ≤ stop) :
    ∃ found, findBoundary content start stop delimiter = some found ∧
      ∀ split, found = some split → isCharBoundary content split = true ∧ split ≤ stop := by
  obtain ⟨window, hwindow⟩ := slice?_boundaries hstart hstop hle
  refine ⟨_, by rw [findBoundary, hwindow]; rfl, fun split hsplit => ?_⟩
  obtain ⟨i, hi, rfl⟩ := Option.map_eq_some_iff.1 hsplit
  obtain ⟨l, r, hcontent, hl, hm⟩ := slice?_iff.1 hwindow
  obtain ⟨l', r', rfl, hl'⟩ := rfind_boundary hi
  simp only [utf8Bytes_append] at hm
  refine ⟨isCharBoundary_iff.2 ⟨l ++ l', delimiter ++ r' ++ r, by simp [hcontent], ?_⟩, by omega⟩
  rw [utf8Bytes_append]
  omega

/-- A window ends at a boundary within 800 bytes, and goes on for more than 300 unless it is the
last. -/
theorem windowEnd_ok {content : List Char} {start : Nat}
    (hstart : isCharBoundary content start = true) (hlt : start < utf8Bytes content) :
    ∃ stop, windowEnd content start = some stop ∧ isCharBoundary content stop = true ∧
      stop ≤ start + projectChunkSize ∧ stop ≤ utf8Bytes content ∧
      (stop ≠ utf8Bytes content → start + 400 < stop) ∧ start < stop := by
  have hstop := isCharBoundary_align content (min (start + projectChunkSize) (utf8Bytes content))
  have hhigh := align_le content (min (start + projectChunkSize) (utf8Bytes content))
  have hlow := le_align content (min (start + projectChunkSize) (utf8Bytes content))
  have hback : align content start ≤
      align content (min (start + projectChunkSize) (utf8Bytes content)) := by
    apply le_alignDown (isCharBoundary_align content start)
    have := align_le content start
    omega
  rw [align_boundary hstart] at hback
  have hwhole : utf8Bytes content ≤ start + projectChunkSize →
      align content (min (start + projectChunkSize) (utf8Bytes content)) = utf8Bytes content := by
    intro hfits
    rw [Nat.min_eq_right hfits]
    exact align_boundary (isCharBoundary_end content)
  unfold windowEnd
  generalize align content (min (start + projectChunkSize) (utf8Bytes content)) = stop at *
  simp only [projectChunkSize] at hhigh hlow hwhole ⊢
  have hsplit : ∀ found : Option Nat, (∀ split, found = some split →
      isCharBoundary content split = true ∧ split ≤ stop) → stop < utf8Bytes content →
      isCharBoundary content (splitAt start stop found) = true ∧
        splitAt start stop found ≤ stop ∧ start + 400 < splitAt start stop found := by
    intro found hfound hinside
    cases found with
    | none => exact ⟨hstop, Nat.le_refl _, by simp only [splitAt]; omega⟩
    | some place =>
      have := hfound place rfl
      by_cases hlate : start + 400 < place
      · have heq : splitAt start stop (some place) = place := if_pos hlate
        rw [heq]
        exact ⟨this.1, this.2, hlate⟩
      · have heq : splitAt start stop (some place) = stop := if_neg hlate
        rw [heq]
        exact ⟨hstop, Nat.le_refl _, by omega⟩
  by_cases hinside : stop < utf8Bytes content
  · rw [if_pos hinside]
    have hle : start ≤ stop := by omega
    obtain ⟨paragraph, hparagraph, hbound⟩ := findBoundary_ok hstart hstop hle
    rw [hparagraph]
    cases paragraph with
    | some split =>
      have := hsplit (some split) hbound hinside
      exact ⟨_, rfl, this.1, by omega, by omega, by omega, by omega⟩
    | none =>
      obtain ⟨line, hline, hbound⟩ := findBoundary_ok hstart hstop hle
      have := hsplit line hbound hinside
      refine ⟨splitAt start stop line, ?_, this.1, by omega, by omega, by omega, by omega⟩
      show (findBoundary content start stop ['\n']).bind (fun found =>
        some (splitAt start stop found)) = _
      rw [hline]
      rfl
  · rw [if_neg hinside]
    exact ⟨stop, rfl, hstop, by omega, by omega, by omega, by omega⟩

/-! ### The chunk of a window -/

theorem trimStart_keep {s : List Char} (h : ∀ c, s.head? = some c → isWhitespace c = false) :
    trimStart s = s := by
  cases s with
  | nil => rfl
  | cons c s => exact List.dropWhile_cons_of_neg (by simp [h c rfl])

theorem trimText_keep {s : List Char} (hhead : ∀ c, s.head? = some c → isWhitespace c = false)
    (hlast : ∀ c, s.getLast? = some c → isWhitespace c = false) : trimText s = s := by
  rw [trimText, trimStart_keep hhead, List.rdropWhile_eq_self_iff]
  intro hne
  simp [hlast _ (List.getLast?_eq_some_getLast hne)]

theorem takeWhile_trimStart (cs : List Char) :
    utf8Bytes (cs.takeWhile isWhitespace) + utf8Bytes (trimStart cs) = utf8Bytes cs := by
  rw [← utf8Bytes_append]
  exact congrArg utf8Bytes List.takeWhile_append_dropWhile

theorem trimText_split (cs : List Char) :
    ∃ r, cs = cs.takeWhile isWhitespace ++ trimText cs ++ r := by
  obtain ⟨r, hr⟩ := List.rdropWhile_prefix isWhitespace (trimStart cs)
  refine ⟨r, ?_⟩
  rw [List.append_assoc]
  unfold trimText
  rw [hr]
  exact List.takeWhile_append_dropWhile.symm

theorem prefix_of_bytes_le {l r l' r' : List Char} (h : l ++ r = l' ++ r')
    (hle : utf8Bytes l ≤ utf8Bytes l') : ∃ m, l' = l ++ m ∧ r = m ++ r' := by
  rcases List.append_eq_append_iff.1 h with ⟨m, hm, hr⟩ | ⟨m, hm, hr⟩
  · exact ⟨m, hm, hr⟩
  · have hbytes := congrArg utf8Bytes hm
    rw [utf8Bytes_append] at hbytes
    have hnil : m = [] := by
      cases m with
      | nil => rfl
      | cons c m =>
        have := c.utf8Size_pos
        rw [utf8Bytes_cons] at hbytes
        omega
    subst hnil
    exact ⟨[], by simp [hm], by simp [hr]⟩

theorem firstText_mono {content l r l' r' : List Char} (h : content = l ++ r)
    (h' : content = l' ++ r') (hle : utf8Bytes l ≤ utf8Bytes l') :
    utf8Bytes l + utf8Bytes (r.takeWhile isWhitespace) ≤
      utf8Bytes l' + utf8Bytes (r'.takeWhile isWhitespace) := by
  obtain ⟨m, hl, hr⟩ := prefix_of_bytes_le (h.symm.trans h') hle
  have hcut : utf8Bytes (r.takeWhile isWhitespace) ≤
      utf8Bytes m + utf8Bytes (r'.takeWhile isWhitespace) := by
    rw [hr, List.takeWhile_append]
    split
    · rw [utf8Bytes_append]
    · obtain ⟨s, hs⟩ := List.takeWhile_prefix (l := m) isWhitespace
      have := congrArg utf8Bytes hs
      rw [utf8Bytes_append] at this
      omega
  rw [hl, utf8Bytes_append]
  omega

/-- A chunk of `content`: its size, and where it stands if offsets are tracked. -/
structure Chunk.Of (content : List Char) (trackOffsets : Bool) (c : Chunk) : Prop where
  atLeast : projectMinChunkSize ≤ utf8Bytes c.content
  atMost : utf8Bytes c.content ≤ projectChunkSize
  tracked : trackOffsets = true → ∃ l r, content = l ++ c.content ++ r ∧
    c.byteRange = some (utf8Bytes l, utf8Bytes l + utf8Bytes c.content)
  untracked : trackOffsets = false → c.byteRange = none

/-- The first byte of a chunk. -/
def Chunk.start (c : Chunk) : Option Nat := c.byteRange.map (·.1)

theorem windowChunk_ok {content l raw r : List Char} {trackOffsets : Bool} {index : Nat} {c : Chunk}
    (hcontent : content = l ++ raw ++ r) (hsize : utf8Bytes raw ≤ projectChunkSize)
    (h : windowChunk trackOffsets (utf8Bytes l) index raw = some c) :
    c.Of content trackOffsets ∧ c.chunkIndex = clampU32 index ∧
      ∀ first, c.start = some first →
        first = utf8Bytes l + utf8Bytes ((raw ++ r).takeWhile isWhitespace) := by
  unfold windowChunk at h
  simp only at h
  split at h
  · rename_i hmin
    cases h
    obtain ⟨behind, hraw⟩ := trimText_split raw
    have hleading : utf8Bytes raw - utf8Bytes (trimStart raw) =
        utf8Bytes (raw.takeWhile isWhitespace) := by
      have := takeWhile_trimStart raw
      omega
    have hbytes := congrArg utf8Bytes hraw
    simp only [utf8Bytes_append] at hbytes
    refine ⟨⟨hmin, by simp only; omega, fun htrack => ?_, fun htrack => by simp [htrack]⟩, rfl, ?_⟩
    · refine ⟨l ++ raw.takeWhile isWhitespace, behind ++ r, ?_, ?_⟩
      · rw [hcontent]
        conv => lhs; rw [hraw]
        simp
      · simp [htrack, hleading]
    · intro first hfirst
      have htext : raw.takeWhile isWhitespace ≠ raw := by
        intro hall
        have : utf8Bytes (trimText raw) = 0 := by rw [hall] at hbytes; omega
        simp only [projectMinChunkSize] at hmin
        omega
      have hstay : (raw ++ r).takeWhile isWhitespace = raw.takeWhile isWhitespace := by
        rw [List.takeWhile_append, if_neg]
        intro hlen
        exact htext ((List.takeWhile_prefix _).eq_of_length hlen)
      rw [hstay, ← hleading]
      cases trackOffsets with
      | true => simpa [Chunk.start] using hfirst.symm
      | false => cases hfirst
  · cases h

/-! ### The loop -/

/-- Windows that cover the bytes before `stop` without a gap. -/
inductive Covered : List (Nat × Nat) → Nat → Prop where
  | nil : Covered [] 0
  | next {windows : List (Nat × Nat)} {before start stop : Nat} : Covered windows before →
      start ≤ before → before ≤ stop → Covered (windows ++ [(start, stop)]) stop

/-- Every byte lies in one of the windows. -/
theorem Covered.byte {windows : List (Nat × Nat)} {stop i : Nat} (h : Covered windows stop)
    (hi : i < stop) : ∃ window ∈ windows, window.1 ≤ i ∧ i < window.2 := by
  induction h with
  | nil => omega
  | @next windows before start stop _ hstart _ ih =>
    by_cases hlast : start ≤ i
    · exact ⟨(start, stop), by simp, hlast, hi⟩
    · obtain ⟨window, hwindow, hin⟩ := ih (by omega)
      exact ⟨window, List.mem_append_left _ hwindow, hin⟩

/-- What holds of the chunks of `content` collected before a position. -/
structure Chunking.Ok (content : List Char) (trackOffsets : Bool) (done : Chunking) (start : Nat) :
    Prop where
  chunks : ∀ c ∈ done.chunks, c.Of content trackOffsets
  indexes : done.chunks.map (·.chunkIndex) = List.range done.chunks.length
  few : done.chunks.length ≤ start
  ordered : done.chunks.Pairwise fun a b => ∀ first second, a.start = some first →
    b.start = some second → first ≤ second
  /-- No chunk begins behind the first text at or behind the position. -/
  behind : ∀ c ∈ done.chunks, ∀ first, c.start = some first → ∀ l r, content = l ++ r →
    start ≤ utf8Bytes l → first ≤ utf8Bytes l + utf8Bytes (r.takeWhile isWhitespace)

section
variable {content : List Char} {trackOffsets : Bool} {done : Chunking} {start : Nat}

theorem Chunking.Ok.later (h : done.Ok content trackOffsets start) {later : Nat}
    (hle : start ≤ later) : done.Ok content trackOffsets later where
  chunks := h.chunks
  indexes := h.indexes
  few := h.few.trans hle
  ordered := h.ordered
  behind := fun c hc first hfirst l r hcontent hl =>
    h.behind c hc first hfirst l r hcontent (hle.trans hl)

/-- One turn keeps the invariant, for any position behind the window's. -/
theorem Chunking.Ok.push (h : done.Ok content trackOffsets start) {stop : Nat} {raw : List Char}
    (hraw : slice? content start stop = some raw) (hsize : stop ≤ start + projectChunkSize)
    (hsmall : start ≤ 4294967295) :
    (done.push trackOffsets start stop raw).Ok content trackOffsets (start + 1) := by
  obtain ⟨l, r, hcontent, hl, hstop⟩ := slice?_iff.1 hraw
  unfold Chunking.push
  cases hchunk : windowChunk trackOffsets start done.chunks.length raw with
  | none =>
    have := h.later (Nat.le_succ start)
    exact ⟨by simpa using this.chunks, by simpa using this.indexes, by simpa using this.few,
      by simpa using this.ordered, by simpa using this.behind⟩
  | some chunk =>
    rw [← hl] at hchunk
    obtain ⟨hof, hindex, hfirst⟩ := windowChunk_ok hcontent (by omega) hchunk
    have hsplit : content = l ++ (raw ++ r) := by rw [hcontent, List.append_assoc]
    refine ⟨?_, ?_, ?_, ?_, ?_⟩
    · intro c hc
      rcases List.mem_append.1 hc with hc | hc
      · exact h.chunks c hc
      · obtain rfl : c = chunk := by simpa using hc
        exact hof
    · have hclamp : clampU32 done.chunks.length = done.chunks.length := by
        have := h.few
        unfold clampU32
        omega
      simp only [Option.toList_some, List.map_append, h.indexes, List.map_cons, List.map_nil, hindex,
        hclamp, List.length_append, List.length_singleton, List.range_succ]
    · have := h.few
      simp only [Option.toList_some, List.length_append, List.length_singleton]
      omega
    · refine List.pairwise_append.2 ⟨h.ordered, by simp, fun a ha b hb first second hf hs => ?_⟩
      obtain rfl : b = chunk := by simpa using hb
      rw [hfirst second hs]
      exact h.behind a ha first hf l (raw ++ r) hsplit (by omega)
    · intro c hc first hf l' r' hcontent' hlater
      rcases List.mem_append.1 hc with hc | hc
      · exact h.behind c hc first hf l' r' hcontent' (by omega)
      · obtain rfl : c = chunk := by simpa using hc
        rw [hfirst first hf]
        exact firstText_mono hsplit hcontent' (by omega)

structure Chunking.Done (content : List Char) (trackOffsets : Bool) (done : Chunking) : Prop where
  ok : done.Ok content trackOffsets (utf8Bytes content)
  covered : Covered done.windows (utf8Bytes content)

section
variable {P : Nat → Chunking → Prop} (hpush : ∀ {done start stop later raw}, P start done →
  start < utf8Bytes content → slice? content start stop = some raw →
  stop ≤ start + projectChunkSize → (stop ≠ utf8Bytes content → start + 400 < stop) →
  start < later → P later (done.push trackOffsets start stop raw))

include hpush

/-- What every window that is pushed keeps up to any later position holds after the loop. -/
theorem chunkLoop_rule {fuel before : Nat} (hfuel : utf8Bytes content < start + fuel)
    (hstart : isCharBoundary content start = true) (hlt : start < utf8Bytes content)
    (hdone : P start done) (hcovered : Covered done.windows before) (hgap : start ≤ before)
    (hbefore : before < start + 200) (hinside : before ≤ utf8Bytes content) :
    ∃ out, chunkLoop content trackOffsets fuel start done = some out ∧
      P (utf8Bytes content) out ∧ Covered out.windows (utf8Bytes content) := by
  induction fuel generalizing start done before with
  | zero => omega
  | succ fuel ih =>
    obtain ⟨stop, hend, hstop, hsize, hstople, hlong, hmove⟩ := windowEnd_ok hstart hlt
    obtain ⟨raw, hraw⟩ := slice?_boundaries hstart hstop (by omega)
    have hnext := fun later hlater => @hpush _ _ _ later _ hdone hlt hraw hsize hlong hlater
    unfold chunkLoop
    rw [if_pos hlt]
    simp only [hend, hraw, Option.bind_eq_bind, Option.bind_some]
    by_cases hlast : stop = utf8Bytes content
    · rw [if_pos hlast]
      exact ⟨_, rfl, hnext _ hlt, hlast ▸ .next hcovered hgap (by omega)⟩
    · rw [if_neg hlast]
      have hfar := hlong hlast
      have hlow := le_align content (stop - projectChunkOverlap)
      have hhigh := align_le content (stop - projectChunkOverlap)
      simp only [projectChunkOverlap] at hlow hhigh ⊢
      exact ih (by omega) (isCharBoundary_align _ _) (by omega) (hnext _ (by omega))
        (.next hcovered hgap (by omega)) (by omega) (by omega) (by omega)

theorem chunkText_rule (hnil : P 0 ⟨[], []⟩) :
    ∃ out, chunkText content trackOffsets = some out ∧ P (utf8Bytes content) out ∧
      Covered out.windows (utf8Bytes content) := by
  by_cases hempty : utf8Bytes content = 0
  · refine ⟨⟨[], []⟩, ?_, hempty ▸ hnil, hempty ▸ .nil⟩
    unfold chunkText chunkLoop
    rw [if_neg (by omega)]
    rfl
  · exact chunkLoop_rule hpush (by omega) (isCharBoundary_zero content) (by omega) hnil .nil
      (Nat.le_refl 0) (by omega) (Nat.zero_le _)

end

theorem chunkText_ok (hlen : utf8Bytes content ≤ 4294967295) :
    ∃ out, chunkText content trackOffsets = some out ∧ out.Done content trackOffsets := by
  obtain ⟨out, hout, hok, hcovered⟩ := chunkText_rule
    (P := fun start done => Chunking.Ok content trackOffsets done start)
    (fun hok _ hraw hsize _ hlater => (hok.push hraw hsize (by omega)).later hlater)
    ⟨by simp, rfl, by simp, by simp, by simp⟩
  exact ⟨out, hout, hok, hcovered⟩

theorem chunkProjectText_eq (h : content ≠ []) :
    chunkProjectText content trackOffsets = (chunkText content trackOffsets).map (·.chunks) :=
  if_neg h

end

end AgentPalace.Ingest
