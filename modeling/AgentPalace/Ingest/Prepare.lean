import AgentPalace.Ingest.Rooms
import AgentPalace.Ingest.Lines

/-!
# Preparing a project file

`prepareFileChunks` reads a file, cuts its text into chunks and says where in
the file each of them stands; a drawer keeps that place as its locator and
`resolveLocator` reads the text back. The digest of a byte string is a parameter,
as are the reads of the file system.

`chunks_faithful` says that the place of every chunk is exact, `skip_sound` that
the digest a file is skipped by stands for its chunks and their room.
-/

namespace AgentPalace.Ingest

def largeFileTruncationBytes : Nat := 200000

inductive PrepareError where
  | io (path : String)
  | panic
  deriving DecidableEq

structure ProjectSource where
  absolutePath : String
  relativePath : String

structure TextDocument where
  content : List Char
  contentHash : String
  truncated : Bool
  trimOffset : Nat
  validUtf8 : Bool
  rawBytes : List UInt8

structure PreparedChunk where
  text : List Char
  chunkIndex : Nat
  room : String
  byteStart : Option Nat
  byteEnd : Option Nat
  lineStart : Option Nat
  lineEnd : Option Nat
  deriving DecidableEq

structure PreparedFileChunks where
  relativePath : String
  contentHash : String
  fileHash : Option String
  chunks : List PreparedChunk
  truncated : Bool
  deriving DecidableEq

/-- Whether the second byte goes on a character that starts with the first, of three bytes or four. -/
def continues (first second : UInt8) : Bool :=
  if first = 0xE0 then 0xA0 ≤ second && second ≤ 0xBF
  else if first = 0xED then 0x80 ≤ second && second ≤ 0x9F
  else if first = 0xF0 then 0x90 ≤ second && second ≤ 0xBF
  else if first = 0xF4 then 0x80 ≤ second && second ≤ 0x8F
  else 0xE1 ≤ first && first ≤ 0xF3 && 0x80 ≤ second && second ≤ 0xBF

/-- The bytes of a malformed character that one replacement character stands for. -/
def malformedLength : List UInt8 → Nat
  | first :: second :: rest =>
    if continues first second then
      if first < 0xF0 then 2
      else if rest.head?.any fun third => 0x80 ≤ third && third ≤ 0xBF then 3 else 2
    else 1
  | _ => 1

def fromUtf8LossyFrom : Nat → List UInt8 → List Char
  | 0, _ => []
  | _ + 1, [] => []
  | fuel + 1, b :: bytes =>
    match (ByteArray.mk ((b :: bytes).take 4).toArray).utf8DecodeChar? 0 with
    | some c => c :: fromUtf8LossyFrom fuel ((b :: bytes).drop c.utf8Size)
    | none =>
      Char.ofNat 0xFFFD ::
        fromUtf8LossyFrom fuel ((b :: bytes).drop (malformedLength (b :: bytes)))

/-- `String::from_utf8_lossy`; every turn takes a byte at least. -/
def fromUtf8Lossy (bytes : List UInt8) : List Char := fromUtf8LossyFrom bytes.length bytes

section
variable (hashBytes : List UInt8 → String) (read : String → Option (List UInt8))

def projectIngestContentHash (documentHash routingFingerprint : String) : String :=
  hashText hashBytes (documentHash ++ ":" ++ routingFingerprint).toList

def textDocument (bytes : List UInt8) : TextDocument :=
  let truncated := decide (largeFileTruncationBytes < bytes.length)
  let effective := if truncated then bytes.take largeFileTruncationBytes else bytes
  match fromUtf8 effective with
  | some s =>
    { content := trimText s
      contentHash := hashBytes bytes
      truncated
      trimOffset := utf8Bytes s - utf8Bytes (trimStart s)
      validUtf8 := true
      rawBytes := bytes }
  | none =>
    { content := trimText (fromUtf8Lossy effective)
      contentHash := hashBytes bytes
      truncated
      trimOffset := 0
      validUtf8 := false
      rawBytes := bytes }

def readTextDocument (path : String) : Except PrepareError TextDocument :=
  match read path with
  | none => .error (.io path)
  | some bytes => .ok (textDocument hashBytes bytes)

/-- The chunks of a document with their place in the file, if it has one. -/
def placeChunks (document : TextDocument) (room : String) (raw : List Chunk) : List PreparedChunk :=
  if document.validUtf8 then
    let ranges := (raw.filterMap (·.byteRange)).map fun (start, stop) =>
      (start + document.trimOffset, stop + document.trimOffset)
    ((raw.zip ranges).zip (computeLineNumbers document.rawBytes ranges)).map
      fun ((c, start, stop), lineStart, lineEnd) =>
        ⟨c.content, c.chunkIndex, room, some start, some stop, some lineStart, some lineEnd⟩
  else raw.map fun c => ⟨c.content, c.chunkIndex, room, none, none, none, none⟩

def prepareDocument (relativePath routingFingerprint : String) (rooms : List ProjectRoomConfig)
    (document : TextDocument) : Except PrepareError PreparedFileChunks :=
  let contentHash := projectIngestContentHash hashBytes document.contentHash routingFingerprint
  if utf8Bytes (trimText document.content) < projectMinChunkSize then
    .ok ⟨relativePath, contentHash, none, [], document.truncated⟩
  else
    let room := detectProjectRoom relativePath document.content rooms
    match chunkProjectText document.content document.validUtf8 with
    | none => .error .panic
    | some [] => .ok ⟨relativePath, contentHash, none, [], document.truncated⟩
    | some raw =>
      .ok ⟨relativePath, contentHash,
        if document.validUtf8 then some document.contentHash else none,
        placeChunks document room raw, document.truncated⟩

def prepareFileChunks (file : ProjectSource) (routingFingerprint : String)
    (rooms : List ProjectRoomConfig) : Except PrepareError PreparedFileChunks := do
  let document ← readTextDocument hashBytes read file.absolutePath
  prepareDocument hashBytes file.relativePath routingFingerprint rooms document

end

/-! ### Locators -/

structure SourceLocator where
  byteStart : Nat
  byteEnd : Nat
  lineStart : Nat
  lineEnd : Nat
  fileHash : String
  resolveRoot : String
  commitHash : Option String

structure StoredChunk where
  contentHash : String
  content : List Char
  locator : Option SourceLocator

structure ResolvedSnippet where
  text : List Char
  stale : Bool
  deriving DecidableEq

section
variable (hashBytes : List UInt8 → String)

/-- The locator of a chunk: a file with a digest and a chunk with a place have one. -/
def chunkLocator (fileHash : Option String) (resolveRoot : String) (commitHash : Option String)
    (c : PreparedChunk) : Option SourceLocator :=
  match fileHash, c.byteStart, c.byteEnd with
  | some fileHash, some byteStart, some byteEnd =>
    some ⟨byteStart, byteEnd, c.lineStart.getD 1, c.lineEnd.getD 1, fileHash, resolveRoot, commitHash⟩
  | _, _, _ => none

def storeChunk (prepared : PreparedFileChunks) (resolveRoot : String) (commitHash : Option String)
    (c : PreparedChunk) : StoredChunk :=
  let locator := chunkLocator prepared.fileHash resolveRoot commitHash c
  { contentHash := hashText hashBytes c.text
    content := if locator.isSome then [] else c.text
    locator }

def resolveFromBytes (locator : SourceLocator) (sourceFile : String) (bytes : Option (List UInt8))
    (currentHash : Option String) : ResolvedSnippet :=
  match bytes with
  | none => ⟨s!"[stale] {sourceFile} missing; re-run mine".toList, true⟩
  | some bytes =>
    let text :=
      if currentHash = some locator.fileHash ∧ locator.byteStart ≤ locator.byteEnd ∧
          locator.byteEnd ≤ bytes.length then
        fromUtf8 ((bytes.drop locator.byteStart).take (locator.byteEnd - locator.byteStart))
      else none
    match text with
    | some text => ⟨text, false⟩
    | none => ⟨s!"[stale] {sourceFile} changed since mining; re-run mine".toList, true⟩

def resolveLocator (readLocatorFile : String → String → Option (List UInt8))
    (locator : SourceLocator) (sourceFile : String) : ResolvedSnippet :=
  let bytes := readLocatorFile locator.resolveRoot sourceFile
  resolveFromBytes locator sourceFile bytes (bytes.map hashBytes)

end

/-! ### Places are exact -/

theorem trimText_trimText (cs : List Char) : trimText (trimText cs) = trimText cs := by
  have htrim : ∀ ds : List Char, trimText ds = (trim (String.ofList ds)).toList := by
    intro ds
    unfold trim
    rw [String.toList_ofList, String.toList_ofList]
    rfl
  rw [htrim cs, htrim, String.ofList_toList, trim_trim]

/-- A text around its trimmed part, and the bytes before it. -/
theorem trimText_around (s : List Char) :
    ∃ before behind, s = before ++ trimText s ++ behind ∧
      utf8Bytes before = utf8Bytes s - utf8Bytes (trimStart s) := by
  obtain ⟨behind, h⟩ := trimText_split s
  refine ⟨_, behind, h, ?_⟩
  have := takeWhile_trimStart s
  omega

/-- A chunk with its place in the file, behind `offset` bytes. -/
def placed (bytes : List UInt8) (offset : Nat) (room : String) (c : Chunk) : PreparedChunk :=
  let range := c.byteRange.map fun (start, stop) => (start + offset, stop + offset)
  ⟨c.content, c.chunkIndex, room, range.map (·.1), range.map (·.2),
    range.map fun (start, _) => newlinesBefore bytes start + 1,
    range.map fun (_, stop) => newlinesBefore bytes (stop - 1) + 1⟩

theorem placeChunks_eq {document : TextDocument} {room : String} {raw : List Chunk}
    (hvalid : document.validUtf8 = true) (hraw : ∀ c ∈ raw, ∃ range, c.byteRange = some range) :
    placeChunks document room raw =
      raw.map (placed document.rawBytes document.trimOffset room) := by
  unfold placeChunks
  simp only [hvalid, if_true, computeLineNumbers_eq]
  induction raw with
  | nil => rfl
  | cons c raw ih =>
    obtain ⟨range, hrange⟩ := hraw c List.mem_cons_self
    have ih := ih fun d hd => hraw d (List.mem_cons_of_mem c hd)
    simp only [List.filterMap_cons, hrange, List.map_cons, List.zip_cons_cons, ih, placed,
      Option.map_some]

/-- The place of a chunk is exact: its bytes, and the lines of its first and its last byte. -/
structure PreparedChunk.Faithful (bytes : List UInt8) (c : PreparedChunk) : Prop where
  place : ∃ start stop, c.byteStart = some start ∧ c.byteEnd = some stop ∧ start ≤ stop ∧
    stop ≤ bytes.length ∧ (bytes.drop start).take (stop - start) = encodeUtf8 c.text ∧
    c.lineStart = some (newlinesBefore bytes start + 1) ∧
    c.lineEnd = some (newlinesBefore bytes (stop - 1) + 1)
  atLeast : 50 ≤ utf8Bytes c.text
  atMost : utf8Bytes c.text ≤ 800

structure PreparedFileChunks.Faithful (bytes : List UInt8) (prepared : PreparedFileChunks) :
    Prop where
  chunks : ∀ c ∈ prepared.chunks, c.Faithful bytes
  indexes : prepared.chunks.map (·.chunkIndex) = List.range prepared.chunks.length
  ordered : prepared.chunks.Pairwise fun a b => ∀ first second, a.byteStart = some first →
    b.byteStart = some second → first ≤ second

/-- A chunk of the trimmed text of a file has its exact place in the file. -/
theorem placed_faithful {s : List Char} {rest : List UInt8} {c : Chunk} (room : String)
    (h : c.Of (trimText s) true) :
    (placed (encodeUtf8 s ++ rest) (utf8Bytes s - utf8Bytes (trimStart s)) room c).Faithful
      (encodeUtf8 s ++ rest) := by
  obtain ⟨before, behind, hs, hoffset⟩ := trimText_around s
  obtain ⟨l, r, hcontent, hrange⟩ := h.tracked rfl
  have hsplit : s = (before ++ l) ++ c.content ++ (r ++ behind) := by
    conv => lhs; rw [hs, hcontent]
    simp
  have hbytes := encodeUtf8_slice hsplit rest
  have hsize := congrArg utf8Bytes hsplit
  simp only [utf8Bytes_append] at hsize hbytes
  have hplace : c.byteRange.map (fun (start, stop) =>
      (start + (utf8Bytes s - utf8Bytes (trimStart s)),
        stop + (utf8Bytes s - utf8Bytes (trimStart s)))) =
      some (utf8Bytes before + utf8Bytes l,
        utf8Bytes before + utf8Bytes l + utf8Bytes c.content) := by
    rw [hrange, ← hoffset]
    simp only [Option.map_some, Option.some.injEq, Prod.mk.injEq]
    omega
  refine ⟨⟨utf8Bytes before + utf8Bytes l, utf8Bytes before + utf8Bytes l + utf8Bytes c.content,
    by simp only [placed, hplace]; rfl, by simp only [placed, hplace]; rfl, by omega, ?_, ?_,
    by simp only [placed, hplace]; rfl, by simp only [placed, hplace]; rfl⟩, h.atLeast, h.atMost⟩
  · rw [List.length_append, length_encodeUtf8]
    omega
  · rw [Nat.add_sub_cancel_left]
    exact hbytes

theorem placed_ordered {bytes : List UInt8} {offset : Nat} {room : String} {raw : List Chunk}
    (h : raw.Pairwise fun a b => ∀ first second, a.start = some first →
      b.start = some second → first ≤ second) :
    (raw.map (placed bytes offset room)).Pairwise fun a b => ∀ first second,
      a.byteStart = some first → b.byteStart = some second → first ≤ second := by
  rw [List.pairwise_map]
  refine h.imp fun {a b} hab first second hfirst hsecond => ?_
  simp only [placed, Option.map_map, Option.map_eq_some_iff] at hfirst hsecond
  obtain ⟨ra, hra, rfl⟩ := hfirst
  obtain ⟨rb, hrb, rfl⟩ := hsecond
  have := hab ra.1 rb.1 (by simp [Chunk.start, hra]) (by simp [Chunk.start, hrb])
  simpa using this

section
variable {hashBytes : List UInt8 → String} {read : String → Option (List UInt8)}

theorem textDocument_valid {bytes : List UInt8} {s : List Char}
    (h : fromUtf8 (bytes.take largeFileTruncationBytes) = some s) :
    textDocument hashBytes bytes =
      { content := trimText s
        contentHash := hashBytes bytes
        truncated := decide (largeFileTruncationBytes < bytes.length)
        trimOffset := utf8Bytes s - utf8Bytes (trimStart s)
        validUtf8 := true
        rawBytes := bytes } := by
  have heffective : (if decide (largeFileTruncationBytes < bytes.length) = true then
      bytes.take largeFileTruncationBytes else bytes) = bytes.take largeFileTruncationBytes := by
    split
    · rfl
    · rename_i hshort
      rw [List.take_of_length_le (by simpa using hshort)]
  unfold textDocument
  simp only [heffective, h]

theorem prepareFileChunks_ok {file : ProjectSource} {bytes : List UInt8} {s : List Char}
    (hread : read file.absolutePath = some bytes)
    (hutf8 : fromUtf8 (bytes.take largeFileTruncationBytes) = some s) (fingerprint : String)
    (rooms : List ProjectRoomConfig) :
    ∃ examined prepared, chunkText (trimText s) true = some examined ∧
      examined.Done (trimText s) true ∧
      prepareFileChunks hashBytes read file fingerprint rooms = .ok prepared ∧
      prepared.chunks = examined.chunks.map (placed bytes
        (utf8Bytes s - utf8Bytes (trimStart s))
        (detectProjectRoom file.relativePath (trimText s) rooms)) ∧
      (prepared.chunks ≠ [] → prepared.fileHash = some (hashBytes bytes)) := by
  have hdocument : prepareFileChunks hashBytes read file fingerprint rooms =
      prepareDocument hashBytes file.relativePath fingerprint rooms
        (textDocument hashBytes bytes) := by
    unfold prepareFileChunks readTextDocument
    rw [hread]
    rfl
  rw [textDocument_valid hutf8] at hdocument
  have hshort : utf8Bytes (trimText s) ≤ 200000 := by
    have hlen := congrArg List.length (fromUtf8_eq hutf8)
    obtain ⟨before, behind, hs, -⟩ := trimText_around s
    have hbytes := congrArg utf8Bytes hs
    simp only [utf8Bytes_append, List.length_take, length_encodeUtf8,
      largeFileTruncationBytes] at hbytes hlen
    omega
  obtain ⟨examined, hexamined, hdone⟩ :=
    @chunkText_ok (trimText s) true (by omega)
  refine ⟨examined, ?_⟩
  rw [hdocument]
  unfold prepareDocument
  simp only [trimText_trimText]
  by_cases hsmall : utf8Bytes (trimText s) < projectMinChunkSize
  · have hnone : examined.chunks = [] := by
      apply List.eq_nil_iff_forall_not_mem.2
      intro c hc
      have hof := hdone.ok.chunks c hc
      obtain ⟨l, r, hcontent, -⟩ := hof.tracked rfl
      have hbytes := congrArg utf8Bytes hcontent
      have := hof.atLeast
      simp only [utf8Bytes_append] at hbytes
      omega
    refine ⟨_, hexamined, hdone, if_pos hsmall, by simp [hnone], fun h => absurd rfl h⟩
  · have hne : trimText s ≠ [] := by
      intro hnil
      rw [hnil] at hsmall
      exact hsmall (by decide)
    have hchunks : chunkProjectText (trimText s) true = some examined.chunks := by
      rw [chunkProjectText_eq hne, hexamined]
      rfl
    refine ⟨⟨file.relativePath, projectIngestContentHash hashBytes (hashBytes bytes) fingerprint,
      if examined.chunks = [] then none else some (hashBytes bytes),
      examined.chunks.map (placed bytes (utf8Bytes s - utf8Bytes (trimStart s))
        (detectProjectRoom file.relativePath (trimText s) rooms)),
      decide (largeFileTruncationBytes < bytes.length)⟩, hexamined, hdone, ?_, rfl, ?_⟩
    · refine (if_neg hsmall).trans ?_
      rw [hchunks]
      cases hraw : examined.chunks with
      | nil => rfl
      | cons c raw =>
        have htracked : ∀ d ∈ c :: raw, ∃ range, d.byteRange = some range := by
          intro d hd
          obtain ⟨_, _, _, hrange⟩ := (hdone.ok.chunks d (hraw ▸ hd)).tracked rfl
          exact ⟨_, hrange⟩
        have hplaced := @placeChunks_eq ⟨trimText s, hashBytes bytes,
          decide (largeFileTruncationBytes < bytes.length),
          utf8Bytes s - utf8Bytes (trimStart s), true, bytes⟩
          (detectProjectRoom file.relativePath (trimText s) rooms) (c :: raw) rfl htracked
        simp [hplaced]
    · intro hchunks
      exact if_neg fun hnil => hchunks (by simp [hnil])

theorem resolve_faithful {prepared : PreparedFileChunks} {bytes : List UInt8} {c : PreparedChunk}
    (hc : c.Faithful bytes) (hhash : prepared.fileHash = some (hashBytes bytes))
    {readLocatorFile : String → String → Option (List UInt8)} {resolveRoot sourceFile : String}
    (hread : readLocatorFile resolveRoot sourceFile = some bytes) (commitHash : Option String) :
    ∃ locator, (storeChunk hashBytes prepared resolveRoot commitHash c).locator = some locator ∧
      resolveLocator hashBytes readLocatorFile locator sourceFile = ⟨c.text, false⟩ ∧
      (storeChunk hashBytes prepared resolveRoot commitHash c).contentHash =
        hashText hashBytes (resolveLocator hashBytes readLocatorFile locator sourceFile).text := by
  obtain ⟨start, stop, hstart, hstop, hle, hend, htext, -, -⟩ := hc.place
  have hlocator : chunkLocator prepared.fileHash resolveRoot commitHash c =
      some ⟨start, stop, c.lineStart.getD 1, c.lineEnd.getD 1, hashBytes bytes, resolveRoot,
        commitHash⟩ := by
    unfold chunkLocator
    rw [hhash, hstart, hstop]
  have hresolve : resolveLocator hashBytes readLocatorFile ⟨start, stop, c.lineStart.getD 1,
      c.lineEnd.getD 1, hashBytes bytes, resolveRoot, commitHash⟩ sourceFile = ⟨c.text, false⟩ := by
    unfold resolveLocator resolveFromBytes
    simp only [hread, Option.map_some, hle, hend, and_self, if_true, htext, fromUtf8_encodeUtf8]
  exact ⟨_, hlocator, hresolve, by rw [hresolve]; rfl⟩

/-- **Chunks stand where their locators say.** For a file whose effective part is a text, chunking
comes to an end; every chunk has its exact bytes and lines, 50 to 800 bytes, and its index in the
order of the file; the windows it was cut from cover the trimmed text; and on the unchanged file
the stored locator reads back the text whose digest the drawer has. -/
theorem chunks_faithful {file : ProjectSource} {bytes : List UInt8} {s : List Char}
    (hread : read file.absolutePath = some bytes)
    (hutf8 : fromUtf8 (bytes.take largeFileTruncationBytes) = some s) (fingerprint : String)
    (rooms : List ProjectRoomConfig) :
    ∃ examined prepared, chunkText (trimText s) true = some examined ∧
      prepareFileChunks hashBytes read file fingerprint rooms = .ok prepared ∧
      prepared.chunks.map (·.text) = examined.chunks.map (·.content) ∧
      prepared.Faithful bytes ∧
      Covered examined.windows (utf8Bytes (trimText s)) ∧
      (∀ i < utf8Bytes (trimText s),
        ∃ window ∈ examined.windows, window.1 ≤ i ∧ i < window.2) ∧
      ∀ c ∈ prepared.chunks, ∀ (readLocatorFile : String → String → Option (List UInt8))
        (resolveRoot : String) (commitHash : Option String),
        readLocatorFile resolveRoot file.relativePath = some bytes →
        ∃ locator, (storeChunk hashBytes prepared resolveRoot commitHash c).locator =
            some locator ∧
          resolveLocator hashBytes readLocatorFile locator file.relativePath = ⟨c.text, false⟩ ∧
          (storeChunk hashBytes prepared resolveRoot commitHash c).contentHash = hashText hashBytes
            (resolveLocator hashBytes readLocatorFile locator file.relativePath).text := by
  obtain ⟨examined, prepared, hexamined, hdone, hprepared, hchunks, hhash⟩ :=
    @prepareFileChunks_ok hashBytes read file bytes s hread hutf8 fingerprint rooms
  have hbytes : bytes = encodeUtf8 s ++ bytes.drop largeFileTruncationBytes := by
    rw [← fromUtf8_eq hutf8, List.take_append_drop]
  have hfaithful : ∀ c ∈ prepared.chunks, c.Faithful bytes := by
    intro c hc
    rw [hchunks] at hc
    obtain ⟨raw, hraw, rfl⟩ := List.mem_map.1 hc
    rw [hbytes]
    exact placed_faithful _ (hdone.ok.chunks raw hraw)
  refine ⟨examined, prepared, hexamined, hprepared, ?_, ⟨hfaithful, ?_, ?_⟩, hdone.covered,
    fun i hi => hdone.covered.byte hi, ?_⟩
  · rw [hchunks, List.map_map]
    rfl
  · rw [hchunks, List.map_map, List.length_map]
    exact hdone.ok.indexes
  · rw [hchunks]
    exact placed_ordered hdone.ok.ordered
  · intro c hc readLocatorFile resolveRoot commitHash hsame
    exact resolve_faithful (hfaithful c hc) (hhash fun hnil => by simp [hnil] at hc) hsame commitHash

theorem prepareFileChunks_digest {file : ProjectSource} {fingerprint : String}
    {rooms : List ProjectRoomConfig} {prepared : PreparedFileChunks}
    (h : prepareFileChunks hashBytes read file fingerprint rooms = .ok prepared) :
    ∃ bytes, prepareDocument hashBytes file.relativePath fingerprint rooms
        (textDocument hashBytes bytes) = .ok prepared ∧
      prepared.contentHash = projectIngestContentHash hashBytes (hashBytes bytes) fingerprint := by
  unfold prepareFileChunks readTextDocument at h
  cases hread : read file.absolutePath with
  | none =>
    rw [hread] at h
    cases h
  | some bytes =>
    rw [hread] at h
    have hdocument : (textDocument hashBytes bytes).contentHash = hashBytes bytes := by
      unfold textDocument
      dsimp only
      split <;> rfl
    have hprepared : prepareDocument hashBytes file.relativePath fingerprint rooms
        (textDocument hashBytes bytes) = .ok prepared := h
    refine ⟨bytes, hprepared, ?_⟩
    rw [← hdocument]
    unfold prepareDocument at hprepared
    dsimp only at hprepared
    repeat' split at hprepared
    all_goals cases hprepared
    all_goals rfl

theorem projectIngestContentHash_inj (hinj : Function.Injective hashBytes)
    (hhex : ∀ bytes, ':' ∉ (hashBytes bytes).toList) {bytes bytes' : List UInt8}
    {fingerprint fingerprint' : String}
    (h : projectIngestContentHash hashBytes (hashBytes bytes) fingerprint =
      projectIngestContentHash hashBytes (hashBytes bytes') fingerprint') :
    bytes = bytes' ∧ fingerprint = fingerprint' := by
  have htext := encodeUtf8_injective (hinj h)
  simp only [String.toList_append, List.append_assoc] at htext
  obtain ⟨hbytes, hfingerprint⟩ := cut_inj (hhex bytes) (hhex bytes') htext
  exact ⟨hinj (String.toList_inj.1 hbytes), String.toList_inj.1 hfingerprint⟩

/-- **Skipping is sound** where two configurations are spelled alike or plainly: with one fingerprint
they prepare every file alike, and a file that has the digest of an earlier mine is prepared as it
was then. -/
theorem skip_sound (hinj : Function.Injective hashBytes)
    (hhex : ∀ bytes, ':' ∉ (hashBytes bytes).toList) {a b : List ProjectRoomConfig}
    (hspelled : SpelledAlike a b) :
    (projectRoutingFingerprint hashBytes a = projectRoutingFingerprint hashBytes b →
      ∀ read file, prepareFileChunks hashBytes read file (projectRoutingFingerprint hashBytes a) a =
        prepareFileChunks hashBytes read file (projectRoutingFingerprint hashBytes b) b) ∧
    ∀ read read' file earlier prepared,
      prepareFileChunks hashBytes read file (projectRoutingFingerprint hashBytes a) a =
        .ok earlier →
      prepareFileChunks hashBytes read' file (projectRoutingFingerprint hashBytes b) b =
        .ok prepared →
      earlier.contentHash = prepared.contentHash → earlier = prepared := by
  have hroute : projectRoutingFingerprint hashBytes a = projectRoutingFingerprint hashBytes b →
      ∀ relativePath content,
        detectProjectRoom relativePath content a = detectProjectRoom relativePath content b :=
    fun h => (hspelled.sameTerms (encodeUtf8_injective (hinj h))).route
  constructor
  · intro h read file
    unfold prepareFileChunks prepareDocument
    simp only [h, hroute h]
  · intro read read' file earlier prepared hearlier hprepared hsame
    obtain ⟨bytes, hdocument, hdigest⟩ := prepareFileChunks_digest hearlier
    obtain ⟨bytes', hdocument', hdigest'⟩ := prepareFileChunks_digest hprepared
    rw [hdigest, hdigest'] at hsame
    obtain ⟨rfl, h⟩ := projectIngestContentHash_inj hinj hhex hsame
    unfold prepareDocument at hdocument hdocument'
    simp only [h, hroute h] at hdocument
    exact Except.ok.inj (hdocument.symm.trans hdocument')

end

/-! ### Runs on one file -/

/-- A digest that keeps everything, and has no colon. -/
def plainHash (bytes : List UInt8) : String :=
  String.ofList (bytes.map fun b => Char.ofNat (b.toNat + 256))

theorem plainHash_injective : Function.Injective plainHash := by
  intro a b h
  have hmap : a.map (fun b => Char.ofNat (b.toNat + 256)) =
      b.map fun b => Char.ofNat (b.toNat + 256) := by
    simpa [plainHash] using congrArg String.toList h
  refine List.map_injective_iff.2 (fun x y hxy => ?_) hmap
  have hback : ∀ n < 256, (Char.ofNat (n + 256)).toNat = n + 256 := by decide +kernel
  have hnat := congrArg Char.toNat hxy
  rw [hback _ x.toNat_lt, hback _ y.toNat_lt] at hnat
  exact UInt8.toNat_inj.1 (Nat.add_right_cancel hnat)

theorem plainHash_colon (bytes : List UInt8) : ':' ∉ (plainHash bytes).toList := by
  unfold plainHash
  rw [String.toList_ofList, List.mem_map]
  rintro ⟨b, -, hb⟩
  have hcolon : ∀ n < 256, Char.ofNat (n + 256) ≠ ':' := by decide +kernel
  exact hcolon _ b.toNat_lt hb

theorem sameTerms_of_plain_sample :
    SameTerms [⟨"docs", none, ["guide", "how to"]⟩] [⟨"Docs", some "", ["Guide", "how to"]⟩] := by
  have hplain {name word : String} {description : Option String}
      (hname : toAsciiLowercase name = canonicalizeLabel name)
      (hword : ',' ∉ word.toList ∧ ';' ∉ word.toList) :
      ∀ room ∈ [ProjectRoomConfig.mk name description [word, "how to"]], room.Plain := by
    rintro _ (_ | ⟨_, ⟨⟩⟩)
    exact ⟨hname, List.forall_mem_cons.2 ⟨hword, List.forall_mem_singleton.2 (by decide)⟩⟩
  exact (sameTerms_of_plain (hplain (by decide) (by decide)) (hplain (by decide) (by decide))
    (by decide +kernel)).1

/-- A note that says the same letter thirty times. -/
def letters : List Char := (List.replicate 30 ['a', ' ']).flatten

def lettersFile : ProjectSource := ⟨"/notes/letters.txt", "letters.txt"⟩

theorem letters_utf8 :
    fromUtf8 ((encodeUtf8 letters).take largeFileTruncationBytes) = some letters := by
  rw [List.take_of_length_le (by decide), fromUtf8_encodeUtf8]

/-- A text of 2,000 bytes, which no chunk holds. -/
def accents : List Char := List.replicate 1000 'é'

theorem chunks_faithful_sample :
    ∃ prepared, prepareFileChunks plainHash (fun _ => some (encodeUtf8 accents)) lettersFile "" [] =
        .ok prepared ∧ prepared.Faithful (encodeUtf8 accents) ∧ 1 < prepared.chunks.length := by
  have hutf8 : fromUtf8 ((encodeUtf8 accents).take largeFileTruncationBytes) = some accents := by
    rw [List.take_of_length_le (by decide +kernel), fromUtf8_encodeUtf8]
  obtain ⟨examined, prepared, hexamined, hprepared, htexts, hfaithful, -⟩ :=
    @chunks_faithful plainHash (fun _ => some (encodeUtf8 accents)) lettersFile _ _ rfl hutf8 "" []
  have hmany : (chunkText (trimText accents) true).any (1 < ·.chunks.length) = true := by
    decide +kernel
  rw [hexamined] at hmany
  refine ⟨prepared, hprepared, hfaithful, ?_⟩
  have hlength := congrArg List.length htexts
  rw [List.length_map, List.length_map] at hlength
  rw [hlength]
  simpa using hmany

theorem skip_sound_sample :
    ∃ earlier prepared,
      prepareFileChunks plainHash (fun _ => some (encodeUtf8 letters)) lettersFile
        (projectRoutingFingerprint plainHash [⟨"docs", none, ["a", ""]⟩])
        [⟨"docs", none, ["a", ""]⟩] = .ok earlier ∧
      prepareFileChunks plainHash (fun _ => some (encodeUtf8 letters)) lettersFile
        (projectRoutingFingerprint plainHash [⟨"Docs", some "", ["A", ""]⟩])
        [⟨"Docs", some "", ["A", ""]⟩] = .ok prepared ∧
      earlier.contentHash = prepared.contentHash ∧ earlier = prepared := by
  have hplain : SpelledAlike [⟨"docs", none, ["a", ""]⟩] [⟨"Docs", some "", ["A", ""]⟩] := by
    refine .inr ⟨?_, ?_⟩
    all_goals
      rintro _ (_ | ⟨_, ⟨⟩⟩)
      exact ⟨by decide, by decide⟩
  have hsound := skip_sound plainHash_injective plainHash_colon hplain
  have hsame := hsound.1 (by decide +kernel) (fun _ => some (encodeUtf8 letters)) lettersFile
  obtain ⟨_, earlier, -, -, hearlier, -⟩ :=
    @prepareFileChunks_ok plainHash (fun _ => some (encodeUtf8 letters)) lettersFile _ _ rfl
      letters_utf8 (projectRoutingFingerprint plainHash [⟨"docs", none, ["a", ""]⟩])
      [⟨"docs", none, ["a", ""]⟩]
  have hprepared := hsame.symm.trans hearlier
  exact ⟨earlier, earlier, hearlier, hprepared, rfl,
    hsound.2 _ _ lettersFile earlier earlier hearlier hprepared rfl⟩

/-- One keyword with a comma and two keywords have the same fingerprint. -/
theorem keywords_collide :
    ¬∀ (hashBytes : List UInt8 → String) (read : String → Option (List UInt8))
      (file : ProjectSource) (a b : List ProjectRoomConfig), Function.Injective hashBytes →
      projectRoutingFingerprint hashBytes a = projectRoutingFingerprint hashBytes b →
      prepareFileChunks hashBytes read file (projectRoutingFingerprint hashBytes a) a =
        prepareFileChunks hashBytes read file (projectRoutingFingerprint hashBytes b) b := by
  intro h
  have hsame := h plainHash (fun _ => some (encodeUtf8 letters)) lettersFile
    [⟨"docs", none, ["a,b"]⟩] [⟨"docs", none, ["a", "b"]⟩] plainHash_injective (by decide +kernel)
  obtain ⟨examined, joined, hexamined, -, hjoined, hjoinedChunks, -⟩ :=
    @prepareFileChunks_ok plainHash (fun _ => some (encodeUtf8 letters)) lettersFile _ _ rfl
      letters_utf8 (projectRoutingFingerprint plainHash [⟨"docs", none, ["a,b"]⟩])
      [⟨"docs", none, ["a,b"]⟩]
  obtain ⟨examined', apart, hexamined', -, hapart, hapartChunks, -⟩ :=
    @prepareFileChunks_ok plainHash (fun _ => some (encodeUtf8 letters)) lettersFile _ _ rfl
      letters_utf8 (projectRoutingFingerprint plainHash [⟨"docs", none, ["a", "b"]⟩])
      [⟨"docs", none, ["a", "b"]⟩]
  obtain rfl : examined = examined' := Option.some.inj (hexamined.symm.trans hexamined')
  obtain rfl : joined = apart := Except.ok.inj (hjoined.symm.trans (hsame.trans hapart))
  have hone : (chunkText (trimText letters) true).map (·.chunks.length) = some 1 := by
    decide +kernel
  rw [hexamined] at hone
  obtain ⟨c, hc⟩ := List.length_eq_one_iff.1 (Option.some.inj hone)
  have hrooms := congrArg (List.map (·.room)) (hjoinedChunks.symm.trans hapartChunks)
  simp only [hc, List.map_cons, List.map_nil, placed, List.cons.injEq, and_true] at hrooms
  revert hrooms
  decide +kernel

end AgentPalace.Ingest
