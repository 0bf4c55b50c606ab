import AgentPalace.Ingest.ChunkCover
import AgentPalace.Ingest.Prepare

/-!
# Large files cut in a character

A file is cut after 200,000 bytes before anyone looks whether the bytes are a
text. A cut inside a character leaves bytes that are not, and the whole file is
then read with replacement characters and its chunks get no place.
-/

namespace AgentPalace

/-! ### Characters and bytes -/

theorem toByteArray_append (x y : List UInt8) :
    (x ++ y).toByteArray = x.toByteArray ++ y.toByteArray := by
  apply ByteArray.ext
  simp

theorem utf8EncodeChar_prefix {c d : Char} {x y : List UInt8}
    (h : String.utf8EncodeChar c ++ x = String.utf8EncodeChar d ++ y) : c = d := by
  have hbytes := congrArg List.toByteArray h
  rw [toByteArray_append, toByteArray_append] at hbytes
  have hc := @ByteArray.utf8DecodeChar?_utf8EncodeChar_append x.toByteArray c
  have hd := @ByteArray.utf8DecodeChar?_utf8EncodeChar_append y.toByteArray d
  rw [hbytes, hd] at hc
  exact (Option.some.inj hc).symm

theorem encodeUtf8_cons (c : Char) (cs : List Char) :
    encodeUtf8 (c :: cs) = String.utf8EncodeChar c ++ encodeUtf8 cs := List.flatMap_cons

theorem encodeUtf8_prefix {l s : List Char} {x : List UInt8}
    (h : encodeUtf8 l = encodeUtf8 s ++ x) : ∃ r, l = s ++ r := by
  induction s generalizing l with
  | nil => exact ⟨l, rfl⟩
  | cons d s ih =>
    rw [encodeUtf8_cons, List.append_assoc] at h
    cases l with
    | nil =>
      have hlen := congrArg List.length h
      have hpos := d.utf8Size_pos
      simp [encodeUtf8] at hlen
      omega
    | cons c l =>
      rw [encodeUtf8_cons] at h
      obtain rfl := utf8EncodeChar_prefix h
      obtain ⟨r, rfl⟩ := ih (List.append_cancel_left h)
      exact ⟨r, rfl⟩

theorem fromUtf8_take {cs : List Char} {n : Nat} (h : n ≤ utf8Bytes cs) :
    (∃ s, fromUtf8 ((encodeUtf8 cs).take n) = some s) ↔ isCharBoundary cs n = true := by
  constructor
  · rintro ⟨s, hs⟩
    have htake := fromUtf8_eq hs
    have hall := List.take_append_drop n (encodeUtf8 cs)
    rw [htake] at hall
    obtain ⟨r, rfl⟩ := encodeUtf8_prefix hall.symm
    refine isCharBoundary_iff.2 ⟨s, r, rfl, ?_⟩
    have hlen := congrArg List.length htake
    rw [List.length_take, length_encodeUtf8, length_encodeUtf8] at hlen
    omega
  · intro hb
    obtain ⟨l, r, rfl, hl⟩ := isCharBoundary_iff.1 hb
    refine ⟨l, ?_⟩
    rw [encodeUtf8_append, ← hl, ← length_encodeUtf8, List.take_left]
    exact fromUtf8_encodeUtf8 l

namespace Ingest

theorem fromUtf8LossyFrom_append (l : List Char) (k : Nat) (rest : List UInt8) :
    fromUtf8LossyFrom (l.length + k) (encodeUtf8 l ++ rest) = l ++ fromUtf8LossyFrom k rest := by
  induction l with
  | nil => rw [List.length_nil, Nat.zero_add]; rfl
  | cons c l ih =>
    have hsize : (String.utf8EncodeChar c).length = c.utf8Size := by simp
    have hpos := c.utf8Size_pos
    have hfour := c.utf8Size_le_four
    have hdecode : (ByteArray.mk ((encodeUtf8 (c :: l) ++ rest).take 4).toArray).utf8DecodeChar? 0 =
        some c := by
      rw [← toList_toByteArray, encodeUtf8_cons, List.append_assoc, List.take_append,
        List.take_of_length_le (by omega), toByteArray_append]
      exact ByteArray.utf8DecodeChar?_utf8EncodeChar_append
    have hdrop : (encodeUtf8 (c :: l) ++ rest).drop c.utf8Size = encodeUtf8 l ++ rest := by
      rw [encodeUtf8_cons, List.append_assoc, ← hsize, List.drop_left]
    obtain ⟨b, bytes, hcons⟩ : ∃ b bytes, encodeUtf8 (c :: l) ++ rest = b :: bytes := by
      cases h : encodeUtf8 (c :: l) ++ rest with
      | nil =>
        have hlen := congrArg List.length h
        rw [List.length_append, length_encodeUtf8, utf8Bytes_cons, List.length_nil] at hlen
        omega
      | cons b bytes => exact ⟨b, bytes, rfl⟩
    rw [hcons] at hdecode hdrop ⊢
    rw [List.length_cons, Nat.add_right_comm, fromUtf8LossyFrom]
    simp only [hdecode, hdrop, ih, List.cons_append]

section
variable {hashBytes : List UInt8 → String} {read : String → Option (List UInt8)}

/-- The text that is chunked of a file cut inside a character. -/
def cutText (cs : List Char) : List Char :=
  trimText (fromUtf8Lossy ((encodeUtf8 cs).take largeFileTruncationBytes))

/-- The cut falls between two characters, or there is no cut. -/
def CutBetween (cs : List Char) : Prop :=
  utf8Bytes cs ≤ largeFileTruncationBytes ∨ isCharBoundary cs largeFileTruncationBytes = true

theorem cutBetween_iff {cs : List Char} : CutBetween cs ↔
    ∃ s, fromUtf8 ((encodeUtf8 cs).take largeFileTruncationBytes) = some s := by
  by_cases hshort : utf8Bytes cs ≤ largeFileTruncationBytes
  · refine iff_of_true (.inl hshort) ⟨cs, ?_⟩
    rw [List.take_of_length_le (by rwa [length_encodeUtf8]), fromUtf8_encodeUtf8]
  · rw [fromUtf8_take (by omega), CutBetween, or_iff_right hshort]

theorem textDocument_cut {cs : List Char} (h : ¬ CutBetween cs) :
    textDocument hashBytes (encodeUtf8 cs) =
      { content := cutText cs
        contentHash := hashBytes (encodeUtf8 cs)
        truncated := true
        trimOffset := 0
        validUtf8 := false
        rawBytes := encodeUtf8 cs } := by
  have hlong : largeFileTruncationBytes < (encodeUtf8 cs).length := by
    rw [length_encodeUtf8]
    exact Nat.lt_of_not_le fun hle => h (.inl hle)
  have hnone : fromUtf8 ((encodeUtf8 cs).take largeFileTruncationBytes) = none := by
    cases hs : fromUtf8 ((encodeUtf8 cs).take largeFileTruncationBytes) with
    | none => rfl
    | some s => exact absurd (cutBetween_iff.2 ⟨s, hs⟩) h
  unfold textDocument
  simp only [decide_eq_true hlong, if_true, hnone]
  rfl

/-- Nothing of the text of a file cut inside a character is long enough to keep. -/
def NearlyBlank (cs : List Char) : Prop :=
  utf8Bytes (cutText cs) < projectMinChunkSize ∨ chunkProjectText (cutText cs) false = some []

/-- What `prepareFileChunks` answers for a file cut inside a character. -/
theorem prepareFileChunks_cut {file : ProjectSource} {cs : List Char}
    (hread : read file.absolutePath = some (encodeUtf8 cs)) (hcut : ¬ CutBetween cs)
    (fingerprint : String) (rooms : List ProjectRoomConfig) :
    ∃ prepared, prepareFileChunks hashBytes read file fingerprint rooms = .ok prepared ∧
      (∀ c ∈ prepared.chunks, c.byteStart = none) ∧ (prepared.chunks = [] ↔ NearlyBlank cs) := by
  have hdocument : prepareFileChunks hashBytes read file fingerprint rooms =
      prepareDocument hashBytes file.relativePath fingerprint rooms
        (textDocument hashBytes (encodeUtf8 cs)) := by
    unfold prepareFileChunks readTextDocument
    rw [hread]
    rfl
  have htrim : trimText (cutText cs) = cutText cs := trimText_trimText _
  obtain ⟨out, hout, _⟩ := chunkText_scanned (cutText cs) false
  have hchunks := chunkProjectText_of_text hout
  rw [hdocument, textDocument_cut hcut]
  unfold prepareDocument NearlyBlank
  simp only [htrim]
  by_cases hsmall : utf8Bytes (cutText cs) < projectMinChunkSize
  · rw [if_pos hsmall]
    exact ⟨_, rfl, fun c hc => absurd hc List.not_mem_nil, iff_of_true rfl (.inl hsmall)⟩
  · rw [if_neg hsmall, hchunks]
    cases hraw : out.chunks with
    | nil => exact ⟨_, rfl, fun c hc => absurd hc List.not_mem_nil, iff_of_true rfl (.inr rfl)⟩
    | cons chunk raw =>
      refine ⟨_, rfl, fun c hc => ?_, iff_of_false nofun ?_⟩
      · obtain ⟨raw', _, rfl⟩ := List.mem_map.1 hc
        rfl
      · rintro (h | h)
        · exact hsmall h
        · cases h

/-- The chunk has a byte range, and its text is a stretch of the file. -/
def PreparedChunk.Whole (cs : List Char) (c : PreparedChunk) : Prop :=
  (∃ start stop, c.byteStart = some start ∧ c.byteEnd = some stop) ∧ ∃ l r, cs = l ++ c.text ++ r

/-- Every chunk of a text file has its place and its text exactly where the cut falls between two
characters, or so little is in front of it that there is no chunk. -/
theorem truncation_whole_iff {file : ProjectSource} {cs : List Char}
    (hread : read file.absolutePath = some (encodeUtf8 cs)) (fingerprint : String)
    (rooms : List ProjectRoomConfig) :
    ∃ prepared, prepareFileChunks hashBytes read file fingerprint rooms = .ok prepared ∧
      ((∀ c ∈ prepared.chunks, c.Whole cs) ↔ CutBetween cs ∨ NearlyBlank cs) := by
  by_cases hcut : CutBetween cs
  · obtain ⟨s, hs⟩ := cutBetween_iff.1 hcut
    obtain ⟨examined, prepared, _, hdone, hprepared, hchunks, _⟩ :=
      @prepareFileChunks_ok hashBytes read file _ s hread hs fingerprint rooms
    refine ⟨prepared, hprepared, iff_of_true (fun c hc => ?_) (.inl hcut)⟩
    rw [hchunks] at hc
    obtain ⟨raw, hraw, rfl⟩ := List.mem_map.1 hc
    obtain ⟨l, r, hcontent, hrange⟩ := (hdone.ok.chunks raw hraw).tracked rfl
    obtain ⟨before, behind, hsplit, _⟩ := trimText_around s
    obtain ⟨rest, rfl⟩ : ∃ rest, cs = s ++ rest := by
      have hall := List.take_append_drop largeFileTruncationBytes (encodeUtf8 cs)
      rw [fromUtf8_eq hs] at hall
      exact encodeUtf8_prefix hall.symm
    refine ⟨⟨_, _, by simp only [placed, hrange]; rfl, by simp only [placed, hrange]; rfl⟩,
      before ++ l, r ++ behind ++ rest, ?_⟩
    conv => lhs; rw [hsplit, hcontent]
    simp [placed]
  · obtain ⟨prepared, hprepared, hplaces, hnone⟩ :=
      @prepareFileChunks_cut hashBytes read file cs hread hcut fingerprint rooms
    refine ⟨prepared, hprepared, ?_⟩
    rw [or_iff_right hcut, ← hnone]
    constructor
    · intro h
      refine List.eq_nil_iff_forall_not_mem.2 fun c hc => ?_
      obtain ⟨⟨start, _, hstart, _⟩, _⟩ := h c hc
      rw [hplaces c hc] at hstart
      cases hstart
    · intro h c hc
      rw [h] at hc
      cases hc

end

/-! ### A file cut inside a character -/

theorem trimText_dense {cs : List Char} (h : ∀ c ∈ cs, isWhitespace c = false) :
    trimText cs = cs :=
  trimText_keep (fun c hc => h c (List.mem_of_mem_head? hc)) fun c hc =>
    h c (List.mem_of_getLast? hc)

theorem chunkProjectText_dense {content : List Char} {trackOffsets : Bool}
    (h : ∀ c ∈ content, isWhitespace c = false) (hmin : projectMinChunkSize ≤ utf8Bytes content) :
    chunkProjectText content trackOffsets ≠ some [] := by
  obtain ⟨out, hout, hscanned, hcovered⟩ := chunkText_scanned content trackOffsets
  rw [chunkProjectText_of_text hout]
  intro hnone
  have hnone : out.chunks = [] := Option.some.inj hnone
  obtain ⟨window, hwindow, hfirst, _⟩ :=
    hcovered.byte (show 0 < utf8Bytes content by simp only [projectMinChunkSize] at hmin; omega)
  obtain ⟨l, raw, r, index, hcontent, hl, hsize, hchunk⟩ := hscanned.kept window hwindow
  have hraw : trimText raw = raw := trimText_dense fun c hc => h c (by
    rw [hcontent]
    exact List.mem_append_left _ (List.mem_append_right _ hc))
  have hlarge : projectMinChunkSize ≤ utf8Bytes (trimText raw) := by
    rw [hraw]
    simp only [projectMinChunkSize] at hmin ⊢
    by_cases hlast : window.2 = utf8Bytes content
    · omega
    · have := hscanned.long window hwindow hlast
      omega
  obtain ⟨chunk, hmade⟩ : ∃ chunk, windowChunk trackOffsets window.1 index raw = some chunk :=
    ⟨_, if_pos hlarge⟩
  have hmem := hchunk chunk hmade
  rw [hnone] at hmem
  cases hmem

theorem utf8Bytes_replicate (n : Nat) : utf8Bytes (List.replicate n 'a') = n := by
  induction n with
  | zero => rfl
  | succ n ih =>
    rw [List.replicate_succ, utf8Bytes_cons, ih, show Char.utf8Size 'a' = 1 from rfl, Nat.add_comm]

/-- A file of 200,002 bytes that is cut between its last two characters. -/
def evenAccents : List Char := List.replicate 199998 'a' ++ ['é', 'é']

theorem truncation_whole_sample :
    largeFileTruncationBytes < utf8Bytes evenAccents ∧
      ∃ prepared, prepareFileChunks plainHash (fun _ => some (encodeUtf8 evenAccents)) lettersFile ""
        [] = .ok prepared ∧ ∀ c ∈ prepared.chunks, c.Whole evenAccents := by
  have hlast : utf8Bytes ['é'] = 2 := rfl
  have hcut : CutBetween evenAccents := by
    refine .inr (isCharBoundary_iff.2 ⟨List.replicate 199998 'a' ++ ['é'], ['é'], ?_, ?_⟩)
    · rw [evenAccents, List.append_assoc]
      rfl
    · rw [utf8Bytes_append, utf8Bytes_replicate, hlast]
      rfl
  obtain ⟨prepared, hprepared, hwhole⟩ := @truncation_whole_iff plainHash
    (fun _ => some (encodeUtf8 evenAccents)) lettersFile evenAccents rfl "" []
  refine ⟨?_, prepared, hprepared, hwhole.2 (.inl hcut)⟩
  rw [evenAccents, utf8Bytes_append, utf8Bytes_replicate]
  decide

/-- A file of 200,001 bytes whose last character has two. -/
def lateAccent : List Char := List.replicate 199999 'a' ++ ['é']

theorem lateAccent_cut : ¬ CutBetween lateAccent := by
  have hbytes : utf8Bytes lateAccent = 200001 := by
    rw [lateAccent, utf8Bytes_append, utf8Bytes_replicate]
    rfl
  rintro (hshort | hboundary)
  · rw [hbytes] at hshort
    exact absurd hshort (by decide)
  · obtain ⟨l, r, hsplit, hl⟩ := isCharBoundary_iff.1 hboundary
    simp only [largeFileTruncationBytes] at hl
    obtain ⟨m, rfl, hm⟩ := prefix_of_bytes_le hsplit (by rw [utf8Bytes_replicate]; omega)
    rw [utf8Bytes_append, utf8Bytes_replicate] at hl
    cases m with
    | nil =>
      rw [utf8Bytes_nil] at hl
      omega
    | cons c m =>
      obtain ⟨rfl, _⟩ := List.cons.inj hm
      rw [utf8Bytes_cons, show Char.utf8Size 'é' = 2 from rfl] at hl
      omega

theorem lateAccent_dense :
    ∀ c ∈ List.replicate 199999 'a' ++ [Char.ofNat 0xFFFD], isWhitespace c = false := by
  intro c hc
  rcases List.mem_append.1 hc with hc | hc
  · rw [List.eq_of_mem_replicate hc]
    decide
  · rw [List.mem_singleton.1 hc]
    decide

theorem cutText_lateAccent :
    cutText lateAccent = List.replicate 199999 'a' ++ [Char.ofNat 0xFFFD] := by
  have htake : (encodeUtf8 lateAccent).take largeFileTruncationBytes =
      encodeUtf8 (List.replicate 199999 'a') ++ [0xC3] := by
    rw [lateAccent, encodeUtf8_append, List.take_append, length_encodeUtf8, utf8Bytes_replicate,
      List.take_of_length_le (by rw [length_encodeUtf8, utf8Bytes_replicate]; decide)]
    rfl
  have hlossy : fromUtf8Lossy (encodeUtf8 (List.replicate 199999 'a') ++ [0xC3]) =
      List.replicate 199999 'a' ++ [Char.ofNat 0xFFFD] := by
    have hfuel : (encodeUtf8 (List.replicate 199999 'a') ++ [0xC3]).length =
        (List.replicate 199999 'a').length + 1 := by
      rw [List.length_append, length_encodeUtf8, utf8Bytes_replicate, List.length_replicate]
      rfl
    rw [fromUtf8Lossy, hfuel, fromUtf8LossyFrom_append]
    congr 1
  rw [cutText, htake, hlossy]
  exact trimText_dense lateAccent_dense

theorem lateAccent_not_blank : ¬ NearlyBlank lateAccent := by
  have hlarge : projectMinChunkSize ≤ utf8Bytes (cutText lateAccent) := by
    rw [cutText_lateAccent, utf8Bytes_append, utf8Bytes_replicate]
    simp only [projectMinChunkSize]
    omega
  rintro (hsmall | hnone)
  · exact absurd hsmall (Nat.not_lt.2 hlarge)
  · refine chunkProjectText_dense (fun c hc => ?_) hlarge hnone
    rw [cutText_lateAccent] at hc
    exact lateAccent_dense c hc

/-- Its chunks have no place. -/
theorem lateAccent_not_whole :
    ∃ prepared, prepareFileChunks plainHash (fun _ => some (encodeUtf8 lateAccent)) lettersFile "" [] =
        .ok prepared ∧ ¬ ∀ c ∈ prepared.chunks, c.Whole lateAccent := by
  obtain ⟨prepared, hprepared, hplaces, hnone⟩ := @prepareFileChunks_cut plainHash
    (fun _ => some (encodeUtf8 lateAccent)) lettersFile lateAccent rfl lateAccent_cut "" []
  refine ⟨prepared, hprepared, fun h => lateAccent_not_blank (hnone.1 ?_)⟩
  refine List.eq_nil_iff_forall_not_mem.2 fun c hc => ?_
  obtain ⟨⟨start, _, hstart, _⟩, _⟩ := h c hc
  rw [hplaces c hc] at hstart
  cases hstart

end Ingest

end AgentPalace
