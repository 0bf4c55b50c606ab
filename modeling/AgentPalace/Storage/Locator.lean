import AgentPalace.Ingest.Prepare
import AgentPalace.Lib.FileTree
import AgentPalace.Lib.Memo
import AgentPalace.Storage.DrawerRow

/-!
# Resolving locators

A drawer with a locator keeps the place of its text instead of the text.
`resolveRecords` reads the texts of a list of records back on the host that has the
files, each file once. The list comes out as if every record were resolved by itself
(`resolveRecords_faithful`).
-/

namespace AgentPalace.Locator

open Lance (DrawerRecord SourceLocator)
open Ingest (ResolvedSnippet resolveFromBytes)

abbrev Names := List (List UInt8)

/-- What resolution runs on; no vector is longer than `isizeMax`. -/
structure Host where
  tree : FileTree (List UInt8) (List UInt8)
  isizeMax : Nat

/-- The path of a text; the system takes no path with a zero byte. -/
def path (text : String) : Option (TreePath (List UInt8)) :=
  let bytes := encodeUtf8 text.toList
  if 0 ∈ bytes then none else some (.ofBytes bytes)

/-- `record.content = text`. -/
def setContent (record : DrawerRecord) (text : List Char) : DrawerRecord :=
  { record with content := String.ofList text }

/-- `file_cache`, with what has been returned and rewritten so far. -/
structure Resolving where
  fileCache : Memo (String × String) (Option (List UInt8 × String))
  staleFlags : List Bool
  records : List DrawerRecord

namespace Host

variable (host : Host) (hashBytes : List UInt8 → String)

/-- `std::fs::read`. A file that no vector can hold is an error. -/
def read (names : Names) : Option (List UInt8) :=
  (host.tree.read (.ofNames names)).filter fun bytes => bytes.length ≤ host.isizeMax

def readLocatorFile (resolveRoot sourceFile : String) : Option (List UInt8) :=
  if isBlank resolveRoot then none
  else do
    let root ← (path resolveRoot).bind host.tree.canonicalize
    let names ← (path sourceFile).bind fun p =>
      host.tree.canonicalize ((TreePath.ofNames root).join p)
    if ¬ root <+: names then none else host.read names

/-- `usize::try_from(n).unwrap_or(usize::MAX)`. -/
def toUsize (n : UInt64) : Nat := min n.toNat (2 * host.isizeMax + 1)

/-- The locator with the offsets that the bytes are sliced at. -/
def place (locator : SourceLocator) : Ingest.SourceLocator :=
  { byteStart := host.toUsize locator.byteStart, byteEnd := host.toUsize locator.byteEnd
    lineStart := locator.lineStart.toNat, lineEnd := locator.lineEnd.toNat
    fileHash := locator.fileHash, resolveRoot := locator.resolveRoot
    commitHash := locator.commitHash }

def resolveLocator (locator : SourceLocator) (sourceFile : String) : ResolvedSnippet :=
  Ingest.resolveLocator hashBytes host.readLocatorFile (host.place locator) sourceFile

/-- One turn of the loop of `resolve_records`. -/
def resolveNext (st : Resolving) (record : DrawerRecord) : Resolving :=
  match record.locator with
  | none => { st with staleFlags := st.staleFlags ++ [false], records := st.records ++ [record] }
  | some locator =>
    let (cached, fileCache) :=
      st.fileCache.orInsertWith (locator.resolveRoot, record.sourceFile) fun _ =>
        (host.readLocatorFile locator.resolveRoot record.sourceFile).map fun bytes =>
          (bytes, hashBytes bytes)
    let snippet := resolveFromBytes (host.place locator) record.sourceFile (cached.map (·.1))
      (cached.map (·.2))
    { fileCache
      staleFlags := st.staleFlags ++ [snippet.stale]
      records := st.records ++ [setContent record snippet.text] }

def resolving (records : List DrawerRecord) : Resolving :=
  records.foldl (host.resolveNext hashBytes) ⟨.empty, [], []⟩

/-- The records as they are left, with the flags that are returned. -/
def resolveRecords (records : List DrawerRecord) : List DrawerRecord × List Bool :=
  let st := host.resolving hashBytes records
  (st.records, st.staleFlags)

/-! ## What is shown -/

/-- The bytes of a file that is reached in the resolve root without a link. -/
structure Confined (resolveRoot sourceFile : String) (rootNames fileNames : Names)
    (bytes : List UInt8) : Prop where
  root : (path resolveRoot).bind host.tree.canonicalize = some rootNames
  file : ((path sourceFile).bind fun p =>
    host.tree.canonicalize ((TreePath.ofNames rootNames).join p)) = some fileNames
  inside : rootNames <+: fileNames
  dirs : ∀ above, above <+: fileNames → above ≠ fileNames → host.tree.RealDir above
  content : host.tree.entry fileNames = some (.file (some bytes))

end Host

/-- The text of an unchanged file that a locator stands for. -/
structure Shows (hashBytes : List UInt8 → String) (locator : SourceLocator) (bytes : List UInt8)
    (text : List Char) : Prop where
  hash : hashBytes bytes = locator.fileHash
  ordered : locator.byteStart.toNat ≤ locator.byteEnd.toNat
  bounded : locator.byteEnd.toNat ≤ bytes.length
  range : encodeUtf8 text = (bytes.drop locator.byteStart.toNat).take
    (locator.byteEnd.toNat - locator.byteStart.toNat)

/-- What stands for a text that is not shown names the file and says nothing else. -/
def Placeholder (sourceFile : String) (text : List Char) : Prop :=
  text = s!"[stale] {sourceFile} missing; re-run mine".toList ∨
    text = s!"[stale] {sourceFile} changed since mining; re-run mine".toList

namespace Host

variable {host : Host} {hashBytes : List UInt8 → String} {locator : SourceLocator}
  {resolveRoot sourceFile : String} {bytes : List UInt8}

theorem readLocatorFile_confined (h : host.readLocatorFile resolveRoot sourceFile = some bytes) :
    bytes.length ≤ host.isizeMax ∧
      ∃ rootNames fileNames, host.Confined resolveRoot sourceFile rootNames fileNames bytes := by
  unfold readLocatorFile at h
  split at h
  · cases h
  obtain ⟨rootNames, hroot, h⟩ := Option.bind_eq_some_iff.1 h
  obtain ⟨fileNames, hfile, h⟩ := Option.bind_eq_some_iff.1 h
  split at h
  · cases h
  rename_i hinside
  obtain ⟨hread, hlen⟩ := Option.filter_eq_some_iff.1 h
  obtain ⟨_, -, hcanonicalize⟩ := Option.bind_eq_some_iff.1 hfile
  have hcanonical := FileTree.canonicalize_canonical hcanonicalize
  exact ⟨of_decide_eq_true hlen, rootNames, fileNames,
    { root := hroot, file := hfile, inside := not_not.1 hinside
      dirs := fun _ => hcanonical.above
      content := (FileTree.read_ofNames hcanonical).1 hread }⟩

/-- An offset in the bounds of a vector is no other as a `usize`. -/
theorem toUsize_eq {n : UInt64} (h : host.toUsize n ≤ host.isizeMax) :
    host.toUsize n = n.toNat := by
  unfold toUsize at h ⊢
  omega

theorem resolveLocator_cases (host : Host) (hashBytes : List UInt8 → String)
    (locator : SourceLocator) (sourceFile : String) :
    (∃ bytes text, host.readLocatorFile locator.resolveRoot sourceFile = some bytes ∧
      Shows hashBytes locator bytes text ∧
      host.resolveLocator hashBytes locator sourceFile = ⟨text, false⟩) ∨
    ∃ text, Placeholder sourceFile text ∧
      host.resolveLocator hashBytes locator sourceFile = ⟨text, true⟩ := by
  have hsnippet : host.resolveLocator hashBytes locator sourceFile =
      resolveFromBytes (host.place locator) sourceFile
        (host.readLocatorFile locator.resolveRoot sourceFile)
        ((host.readLocatorFile locator.resolveRoot sourceFile).map hashBytes) := rfl
  rw [hsnippet]
  cases hread : host.readLocatorFile locator.resolveRoot sourceFile with
  | none => exact .inr ⟨_, .inl rfl, rfl⟩
  | some bytes =>
    obtain ⟨hlen, -⟩ := readLocatorFile_confined hread
    simp only [resolveFromBytes, Option.map_some]
    split
    · rename_i text htext
      obtain ⟨⟨hhash, hordered, hbounded⟩, hutf8⟩ := Option.ite_none_right_eq_some.1 htext
      have hstop := toUsize_eq (hbounded.trans hlen)
      have hstart := toUsize_eq (hordered.trans (hbounded.trans hlen))
      simp only [place, hstart, hstop] at hordered hbounded hutf8
      exact .inl ⟨bytes, text, rfl,
        ⟨Option.some.inj hhash, hordered, hbounded, (fromUtf8_eq hutf8).symm⟩, rfl⟩
    · exact .inr ⟨_, .inr rfl, rfl⟩

/-! ## A list of records -/

variable (host hashBytes)

/-- A record whose locator is resolved by itself, with its flag. -/
def resolveAlone (record : DrawerRecord) : DrawerRecord × Bool :=
  match record.locator with
  | none => (record, false)
  | some locator =>
    let snippet := host.resolveLocator hashBytes locator record.sourceFile
    (setContent record snippet.text, snippet.stale)

def digested (key : String × String) : Option (List UInt8 × String) :=
  (host.readLocatorFile key.1 key.2).map fun bytes => (bytes, hashBytes bytes)

def cacheKey (record : DrawerRecord) : Option (String × String) :=
  record.locator.map fun locator => (locator.resolveRoot, record.sourceFile)

/-- The state of the loop when some records are done. -/
structure Resolved (st : Resolving) (done : List DrawerRecord) : Prop where
  cache : st.fileCache.Of (host.digested hashBytes)
  keys : ∀ key, key ∈ st.fileCache.keys ↔ ∃ record ∈ done, cacheKey record = some key
  staleFlags : st.staleFlags = done.map fun record => (host.resolveAlone hashBytes record).2
  records : st.records = done.map fun record => (host.resolveAlone hashBytes record).1

variable {host hashBytes}

/-- What the cache holds of a file is what resolution by itself reads of it. -/
theorem resolveFromBytes_digested :
    resolveFromBytes (host.place locator) sourceFile
        ((host.digested hashBytes (locator.resolveRoot, sourceFile)).map (·.1))
        ((host.digested hashBytes (locator.resolveRoot, sourceFile)).map (·.2)) =
      host.resolveLocator hashBytes locator sourceFile := by
  unfold digested resolveLocator Ingest.resolveLocator
  rw [Option.map_map, Option.map_map]
  exact congrArg (resolveFromBytes _ _ · _) (congrFun Option.map_id _)

theorem mem_done {done : List DrawerRecord} {record : DrawerRecord} {key : String × String} :
    (∃ r ∈ done ++ [record], cacheKey r = some key) ↔
      cacheKey record = some key ∨ ∃ r ∈ done, cacheKey r = some key := by
  simp only [List.mem_append, List.mem_singleton, or_and_right, exists_or, exists_eq_left]
  exact or_comm

theorem Resolved.next {st : Resolving} {done : List DrawerRecord}
    (h : host.Resolved hashBytes st done) (record : DrawerRecord) :
    host.Resolved hashBytes (host.resolveNext hashBytes st record) (done ++ [record]) := by
  unfold resolveNext
  cases hlocator : record.locator with
  | none =>
    have hkey : cacheKey record = none := by
      rw [cacheKey, hlocator]
      rfl
    have halone : host.resolveAlone hashBytes record = (record, false) := by
      rw [resolveAlone, hlocator]
    exact
      { cache := h.cache
        keys := fun key => by simp [h.keys, hkey]
        staleFlags := by simp [h.staleFlags, halone]
        records := by simp [h.records, halone] }
  | some locator =>
    have hkey : cacheKey record = some (locator.resolveRoot, record.sourceFile) := by
      rw [cacheKey, hlocator]
      rfl
    have halone : host.resolveAlone hashBytes record =
        let snippet := host.resolveLocator hashBytes locator record.sourceFile
        (setContent record snippet.text, snippet.stale) := by
      rw [resolveAlone, hlocator]
    obtain ⟨hcached, hcache⟩ := h.cache.orInsertWith (locator.resolveRoot, record.sourceFile)
    have hsnippet : ∀ cached, cached = host.digested hashBytes (locator.resolveRoot,
        record.sourceFile) → resolveFromBytes (host.place locator) record.sourceFile
          (cached.map (·.1)) (cached.map (·.2)) =
        host.resolveLocator hashBytes locator record.sourceFile := by
      rintro _ rfl
      exact resolveFromBytes_digested
    refine { cache := hcache, keys := fun key => ?_, staleFlags := ?_, records := ?_ }
    · show key ∈ (st.fileCache.orInsertWith _ _).2.keys ↔ _
      rw [Memo.mem_keys_orInsertWith, mem_done, h.keys, hkey, Option.some.injEq, eq_comm]
    · rw [List.map_append, ← h.staleFlags, List.map_singleton, halone]
      exact congrArg (fun snippet => st.staleFlags ++ [snippet.stale]) (hsnippet _ hcached)
    · rw [List.map_append, ← h.records, List.map_singleton, halone]
      exact congrArg (fun snippet => st.records ++ [setContent record snippet.text])
        (hsnippet _ hcached)

theorem resolving_resolved (records : List DrawerRecord) :
    host.Resolved hashBytes (host.resolving hashBytes records) records := by
  induction records using List.reverseRecOn with
  | nil =>
    exact
      { cache := Memo.of_empty
        keys := by simp [resolving, Memo.keys, Memo.empty]
        staleFlags := rfl
        records := rfl }
  | append_singleton done record ih =>
    rw [resolving, List.foldl_concat]
    exact ih.next record

/-- **A list is resolved as its records are alone**, and what is shown of a file is the range of
its unchanged bytes inside the resolve root. -/
theorem resolveRecords_faithful (host : Host) (hashBytes : List UInt8 → String)
    (records : List DrawerRecord) :
    host.resolveRecords hashBytes records =
        (records.map (host.resolveAlone hashBytes)).unzip ∧
      ∀ (locator : SourceLocator) (sourceFile : String),
        let snippet := host.resolveLocator hashBytes locator sourceFile
        (snippet.stale = false → ∃ rootNames fileNames bytes,
          host.Confined locator.resolveRoot sourceFile rootNames fileNames bytes ∧
            Shows hashBytes locator bytes snippet.text) ∧
        (snippet.stale = true → Placeholder sourceFile snippet.text) ∧
        (locator.byteEnd < locator.byteStart → snippet.stale = true) ∧
        ∀ bytes, host.readLocatorFile locator.resolveRoot sourceFile = some bytes →
          bytes.length < locator.byteEnd.toNat → snippet.stale = true := by
  refine ⟨?_, fun locator sourceFile => ?_⟩
  · have hdone : host.Resolved hashBytes (host.resolving hashBytes records) records :=
      resolving_resolved records
    rw [resolveRecords, hdone.records, hdone.staleFlags, List.unzip_eq_map, List.map_map,
      List.map_map]
    rfl
  · rcases host.resolveLocator_cases hashBytes locator sourceFile with
      ⟨bytes, text, hread, hshows, hsnippet⟩ | ⟨text, htext, hsnippet⟩
    · obtain ⟨-, rootNames, fileNames, hconfined⟩ := readLocatorFile_confined hread
      rw [hsnippet]
      refine ⟨fun _ => ⟨rootNames, fileNames, bytes, hconfined, hshows⟩, nofun,
        fun hinverted => ?_, fun _ hsame hshort => ?_⟩
      · exact absurd hshows.ordered (Nat.not_le.2 (UInt64.lt_iff_toNat_lt.1 hinverted))
      · rw [hread, Option.some.injEq] at hsame
        exact absurd hshows.bounded (Nat.not_le.2 (hsame ▸ hshort))
    · rw [hsnippet]
      exact ⟨nofun, fun _ => htext, fun _ => rfl, fun _ _ _ => rfl⟩

end Host

end AgentPalace.Locator
