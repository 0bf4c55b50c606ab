import AgentPalace.Config.Federation
import AgentPalace.Ingest.Commit
import AgentPalace.Lib.TextSlice

/-!
# Source keys

The rows of `ingest_files` are found by their source keys: the kind of the mine,
the wing, the project and, for a branch, the view, with colons between them, and
the relative path at the end. Nothing is escaped, and a cleanup reads the path
back as what follows a fixed number of colons.

`field_plain` says when that is the path again, `field_longer` that it is a
longer text otherwise.
-/

namespace AgentPalace.Ingest

/-! ### Colons -/

/-- `split_once(':')`. -/
abbrev splitOnce (s : List Char) : Option (List Char × List Char) := splitOnceAt ':' s

/-- What follows the first `n` colons. -/
def behindColons : Nat → List Char → Option (List Char)
  | 0, s => some s
  | n + 1, s => (splitOnce s).bind fun (_, tail) => behindColons n tail

/-- `key.splitn(n + 1, ':').nth(n).unwrap_or("")`. -/
def field (n : Nat) (key : String) : String := String.ofList ((behindColons n key.toList).getD [])

theorem splitOnce_append {part : List Char} (h : ':' ∉ part) (rest : List Char) :
    splitOnce (part ++ ':' :: rest) = some (part, rest) :=
  splitOnceAt_append h rest

theorem behindColons_append {part : List Char} (h : ':' ∉ part) (n : Nat) (rest : List Char) :
    behindColons (n + 1) (part ++ ':' :: rest) = behindColons n rest := by
  simp only [behindColons, splitOnce_append h, Option.bind_some]

/-- Behind too many colons the text is found with more before it. -/
theorem behindColons_longer {n : Nat} {before : List Char} (h : n < before.count ':')
    (rest : List Char) :
    ∃ more, more ≠ [] ∧ behindColons n (before ++ rest) = some (more ++ rest) := by
  induction n generalizing before with
  | zero => exact ⟨before, by rintro rfl; simp at h, rfl⟩
  | succ n ih =>
    obtain ⟨part, tail, rfl, hpart⟩ :=
      List.eq_append_cons_of_mem (List.count_pos_iff.1 (show 0 < before.count ':' by omega))
    rw [List.count_append, List.count_eq_zero.2 hpart, List.count_cons_self] at h
    obtain ⟨more, hmore, heq⟩ := @ih tail (by omega)
    refine ⟨more, hmore, ?_⟩
    rw [List.append_assoc, List.cons_append, behindColons_append hpart, heq]

/-- The parts of a key before its path, each with the colon behind it. -/
def joined (parts : List (List Char)) : List Char := parts.flatMap fun part => part ++ [':']

theorem behindColons_joined {parts : List (List Char)} (h : ∀ part ∈ parts, ':' ∉ part)
    (rest : List Char) : behindColons parts.length (joined parts ++ rest) = some rest := by
  induction parts with
  | nil => rfl
  | cons part parts ih =>
    have hjoined : joined (part :: parts) ++ rest = part ++ ':' :: (joined parts ++ rest) := by
      simp [joined]
    rw [hjoined, List.length_cons, behindColons_append (h part List.mem_cons_self)]
    exact ih fun p hp => h p (List.mem_cons_of_mem part hp)

theorem count_joined_cons (part : List Char) (parts : List (List Char)) :
    (joined (part :: parts)).count ':' = part.count ':' + 1 + (joined parts).count ':' := by
  have hjoined : joined (part :: parts) = part ++ [':'] ++ joined parts := rfl
  rw [hjoined, List.count_append, List.count_append, List.count_singleton_self]

theorem length_le_count (parts : List (List Char)) : parts.length ≤ (joined parts).count ':' := by
  induction parts with
  | nil => exact Nat.zero_le _
  | cons part parts ih =>
    rw [count_joined_cons, List.length_cons]
    omega

theorem length_lt_count {parts : List (List Char)} (h : ∃ part ∈ parts, ':' ∈ part) :
    parts.length < (joined parts).count ':' := by
  obtain ⟨part, hpart, hcolon⟩ := h
  induction parts with
  | nil => cases hpart
  | cons first parts ih =>
    rw [count_joined_cons, List.length_cons]
    rcases List.mem_cons.1 hpart with rfl | hpart
    · have := List.count_pos_iff.2 hcolon
      have := length_le_count parts
      omega
    · have := ih hpart
      omega

/-- A path behind parts that have no colon is read back. -/
theorem field_plain {parts : List (List Char)} {key rel : String}
    (hkey : key.toList = joined parts ++ rel.toList) (h : ∀ part ∈ parts, ':' ∉ part) :
    field parts.length key = rel := by
  unfold field
  rw [hkey, behindColons_joined h]
  exact String.ofList_toList

theorem field_longer {parts : List (List Char)} {key rel : String}
    (hkey : key.toList = joined parts ++ rel.toList) (h : ∃ part ∈ parts, ':' ∈ part) :
    rel.toList.length < (field parts.length key).toList.length := by
  obtain ⟨more, hmore, heq⟩ := behindColons_longer (length_lt_count h) rel.toList
  have hpos := List.length_pos_of_ne_nil hmore
  unfold field
  rw [hkey, heq, String.toList_ofList]
  simp only [Option.getD_some, List.length_append]
  omega

/-! ### Keys -/

def sourceKeyWithRootKey (ingestKind rootKey wing : String) (extractMode : Option String)
    (relativePath : String) : String :=
  match extractMode with
  | some mode => ingestKind ++ ":" ++ wing ++ ":" ++ mode ++ ":" ++ rootKey ++ ":" ++ relativePath
  | none => ingestKind ++ ":" ++ wing ++ ":" ++ rootKey ++ ":" ++ relativePath

def projectSourceKey (ingestKind projectRootKey wing relativePath : String) : String :=
  sourceKeyWithRootKey ingestKind projectRootKey wing none relativePath

def legacyProjectSourceKey (ingestKind rootKey wing relativePath : String) : String :=
  sourceKeyWithRootKey ingestKind rootKey wing none relativePath

def projectBranchSourceKey (ingestKind projectRootKey wing branch relativePath : String) : String :=
  ingestKind ++ ":" ++ wing ++ ":" ++ projectRootKey ++ ":" ++ branch ++ ":" ++ relativePath

/-- The key that an older version has given to the same source. -/
def legacySourceKey (sourceKey : String) : Option String :=
  match splitOnce sourceKey.toList with
  | none => none
  | some (ingestKind, remainder) =>
    let requiredDelimiters :=
      if ingestKind = "projects".toList then some 2
      else if ingestKind = "convos".toList then some 3
      else none
    (requiredDelimiters.bind (behindColons · remainder)).map fun relativePath =>
      String.ofList (ingestKind ++ ':' :: relativePath)

/-! ### The rows -/

abbrev FileTable := Table IngestFileRecord.sourceKey

def Stored (files : FileTable) (key : String) : Prop := ∃ r, files.get? key = some r

/-- A row under its own key, or under the key that an older version gave it. -/
def getIngestedFile (files : FileTable) (sourceKey : String) : Option IngestFileRecord :=
  match files.get? sourceKey with
  | some r => some r
  | none => (legacySourceKey sourceKey).bind files.get?

/-- `LIKE` with the prefix escaped, in the order of the keys. -/
def ingestedSourceKeysWithPrefix (files : FileTable) (keyPrefix : String) : List String :=
  ((files.rows.map (·.sourceKey)).filter (startsWith · keyPrefix)).insertionSort (· ≤ ·)

/-- Only what an ingest of the source records is replaced. -/
theorem recorded_sourceKey (record f : IngestFileRecord) :
    ({ f with
      sourceFile := record.sourceFile, contentHash := record.contentHash
      lastIngestedAt := record.lastIngestedAt, ingestKind := record.ingestKind
      drawerCount := record.drawerCount } : IngestFileRecord).sourceKey = f.sourceKey := rfl

/-- What a source that was replaced leaves in `ingest_files`. -/
def recordSource (files : FileTable) (record : IngestFileRecord) : FileTable :=
  let update (f : IngestFileRecord) : IngestFileRecord :=
    { f with
      sourceFile := record.sourceFile, contentHash := record.contentHash
      lastIngestedAt := record.lastIngestedAt, ingestKind := record.ingestKind
      drawerCount := record.drawerCount }
  files.upsert record update (recorded_sourceKey record)

def forgetSource (files : FileTable) (sourceKey : String) : FileTable :=
  files.deleteWhere fun f => f.sourceKey = sourceKey

theorem get?_recordSource (files : FileTable) (record : IngestFileRecord) (key : String) :
    (recordSource files record).get? key =
      if key = record.sourceKey then some record else files.get? key := by
  unfold recordSource
  rw [Table.get?_upsert]
  cases hold : files.get? record.sourceKey with
  | none => rfl
  | some old =>
    have : old.sourceKey = record.sourceKey := Table.get?_key hold
    simp [this]

theorem stored_recordSource {files : FileTable} {record : IngestFileRecord} {key : String} :
    Stored (recordSource files record) key ↔ key = record.sourceKey ∨ Stored files key := by
  unfold Stored
  rw [get?_recordSource]
  by_cases h : key = record.sourceKey <;> simp [h]

theorem stored_forgetSource {files : FileTable} {sourceKey key : String} :
    Stored (forgetSource files sourceKey) key ↔ Stored files key ∧ key ≠ sourceKey := by
  unfold Stored forgetSource
  rw [Table.get?_deleteWhere]
  simp only [Option.filter_eq_some_iff, Bool.not_eq_true', decide_eq_false_iff_not]
  constructor
  · rintro ⟨r, hr, hne⟩
    exact ⟨⟨r, hr⟩, Table.get?_key hr ▸ hne⟩
  · rintro ⟨⟨r, hr⟩, hne⟩
    exact ⟨r, hr, by rwa [Table.get?_key hr]⟩

theorem mem_keysWithPrefix {files : FileTable} {keyPrefix key : String} :
    key ∈ ingestedSourceKeysWithPrefix files keyPrefix ↔
      Stored files key ∧ startsWith key keyPrefix = true := by
  unfold ingestedSourceKeysWithPrefix Stored
  rw [List.mem_insertionSort, List.mem_filter, List.mem_map]
  refine and_congr_left fun _ => ⟨?_, ?_⟩
  · rintro ⟨r, hr, rfl⟩
    exact ⟨r, Table.get?_of_mem hr⟩
  · rintro ⟨r, hr⟩
    exact ⟨r, Table.mem_of_get? hr, Table.get?_key hr⟩

theorem getIngestedFile_stored {files : FileTable} {sourceKey : String} {r : IngestFileRecord}
    (h : getIngestedFile files sourceKey = some r) :
    files.get? r.sourceKey = some r ∧
      (r.sourceKey = sourceKey ∨ legacySourceKey sourceKey = some r.sourceKey) := by
  unfold getIngestedFile at h
  split at h
  · rename_i hexact
    cases h
    exact ⟨Table.get?_key hexact ▸ hexact, .inl (Table.get?_key hexact)⟩
  · obtain ⟨key, hkey, hr⟩ := Option.bind_eq_some_iff.1 h
    obtain rfl := Table.get?_key hr
    exact ⟨hr, .inr hkey⟩

/-! ### One row for two sources -/

/-- What a mine tells apart, with the hash of its root. -/
inductive MinedSource where
  | project (wing root path : String)
  | branch (wing root view path : String)
  | convo (wing mode root path : String)
  deriving DecidableEq

namespace MinedSource

def parts : MinedSource → List String
  | project wing root _ => ["projects", wing, root]
  | branch wing root view _ => ["projects-branch", wing, root, view]
  | convo wing mode root _ => ["convos", wing, mode, root]

def path : MinedSource → String
  | project _ _ path | branch _ _ _ path | convo _ _ _ path => path

def sourceKey : MinedSource → String
  | project wing root path => projectSourceKey "projects" root wing path
  | branch wing root view path => projectBranchSourceKey "projects-branch" root wing view path
  | convo wing mode root path => sourceKeyWithRootKey "convos" root wing (some mode) path

/-- The key of the table that had no wings and no roots. -/
def formerKey : MinedSource → Option String
  | project _ _ path => some ("projects" ++ ":" ++ path)
  | branch .. => none
  | convo _ _ _ path => some ("convos" ++ ":" ++ path)

/-- No part has a colon, and a path that an older version kept alone has fewer of them than stand
before it. -/
structure Plain (source : MinedSource) : Prop where
  parts : ∀ part ∈ source.parts, ':' ∉ part.toList
  path : source.formerKey.isSome = true → source.path.toList.count ':' + 1 < source.parts.length

theorem sourceKey_toList (source : MinedSource) :
    source.sourceKey.toList = joined (source.parts.map String.toList) ++ source.path.toList := by
  cases source <;>
    simp [sourceKey, projectSourceKey, projectBranchSourceKey, sourceKeyWithRootKey, parts, path,
      joined]

theorem splitOnce_joined {part : List Char} (h : ':' ∉ part) (parts : List (List Char))
    (rest : List Char) :
    splitOnce (joined (part :: parts) ++ rest) = some (part, joined parts ++ rest) := by
  have hjoined : joined (part :: parts) ++ rest = part ++ ':' :: (joined parts ++ rest) := by
    simp [joined]
  rw [hjoined, splitOnce_append h]

theorem joined_inj {parts parts' : List (List Char)} {rest rest' : List Char}
    (h : ∀ part ∈ parts, ':' ∉ part) (h' : ∀ part ∈ parts', ':' ∉ part)
    (hlength : parts.length = parts'.length)
    (heq : joined parts ++ rest = joined parts' ++ rest') : parts = parts' ∧ rest = rest' := by
  induction parts generalizing parts' with
  | nil =>
    obtain rfl := List.length_eq_zero_iff.1 hlength.symm
    exact ⟨rfl, heq⟩
  | cons part parts ih =>
    cases parts' with
    | nil => cases hlength
    | cons part' parts' =>
      have hsplit := congrArg splitOnce heq
      rw [splitOnce_joined (h part List.mem_cons_self),
        splitOnce_joined (h' part' List.mem_cons_self)] at hsplit
      obtain ⟨rfl, htail⟩ := Prod.mk.inj (Option.some.inj hsplit)
      obtain ⟨rfl, hrest⟩ := ih (fun x hx => h x (List.mem_cons_of_mem part hx))
        (fun x hx => h' x (List.mem_cons_of_mem part hx)) (Nat.succ.inj hlength) htail
      exact ⟨rfl, hrest⟩

variable {source other : MinedSource}

theorem Plain.part (h : source.Plain) :
    ∀ part ∈ source.parts.map String.toList, ':' ∉ part := by
  intro part hpart
  obtain ⟨text, htext, rfl⟩ := List.mem_map.1 hpart
  exact h.parts text htext

theorem splitOnce_sourceKey (h : source.Plain) :
    ∃ rest, splitOnce source.sourceKey.toList =
      some ((source.parts.headD "").toList, rest) := by
  have hpart := h.part
  rw [sourceKey_toList]
  cases source <;> exact ⟨_, splitOnce_joined (hpart _ List.mem_cons_self) _ _⟩

theorem sourceKey_inj (h : source.Plain) (h' : other.Plain)
    (heq : source.sourceKey = other.sourceKey) : source = other := by
  obtain ⟨rest, hkind⟩ := splitOnce_sourceKey h
  obtain ⟨rest', hkind'⟩ := splitOnce_sourceKey h'
  rw [heq, hkind'] at hkind
  have hhead := String.toList_inj.1 (Prod.mk.inj (Option.some.inj hkind)).1
  have hlength : source.parts.length = other.parts.length := by
    cases source <;> cases other <;> first | rfl | exact absurd hhead (by simp [parts])
  have hkeys := congrArg String.toList heq
  rw [sourceKey_toList, sourceKey_toList] at hkeys
  obtain ⟨hparts, hpath⟩ := joined_inj h.part h'.part (by simpa using hlength) hkeys
  have hparts := List.map_injective_iff.2 (fun _ _ => String.toList_inj.1) hparts
  have hpath := String.toList_inj.1 hpath
  cases source <;> cases other <;> simp_all [parts, path]

theorem legacySourceKey_plain (h : source.Plain) :
    legacySourceKey source.sourceKey = source.formerKey := by
  have hpart := h.part
  have hrest := fun part hp => hpart part (List.mem_of_mem_tail hp)
  have hformer : ∀ kind path : String, String.ofList (kind.toList ++ ':' :: path.toList) =
      kind ++ ":" ++ path := fun kind path => String.toList_inj.1 (by simp)
  unfold legacySourceKey
  rw [sourceKey_toList]
  cases source with
  | project wing root path =>
    have hsplit := splitOnce_joined (hpart _ List.mem_cons_self) [wing.toList, root.toList]
      path.toList
    have hback : behindColons 2 (joined [wing.toList, root.toList] ++ path.toList) =
        some path.toList := @behindColons_joined [wing.toList, root.toList] hrest _
    simp only [parts, List.map_cons, List.map_nil, MinedSource.path, hsplit, if_true,
      Option.bind_some, hback, Option.map_some, formerKey, hformer]
  | branch wing root view path =>
    have hsplit := splitOnce_joined (hpart _ List.mem_cons_self)
      [wing.toList, root.toList, view.toList] path.toList
    have hkind : "projects-branch".toList ≠ "projects".toList ∧
        "projects-branch".toList ≠ "convos".toList := by decide
    simp only [parts, List.map_cons, List.map_nil, MinedSource.path, hsplit, if_neg hkind.1,
      if_neg hkind.2, Option.bind_none, Option.map_none, formerKey]
  | convo wing mode root path =>
    have hsplit := splitOnce_joined (hpart _ List.mem_cons_self)
      [wing.toList, mode.toList, root.toList] path.toList
    have hback : behindColons 3 (joined [wing.toList, mode.toList, root.toList] ++ path.toList) =
        some path.toList := @behindColons_joined [wing.toList, mode.toList, root.toList] hrest _
    have hkind : "convos".toList ≠ "projects".toList := by decide
    simp only [parts, List.map_cons, List.map_nil, MinedSource.path, hsplit, if_neg hkind, if_true,
      Option.bind_some, hback, Option.map_some, formerKey, hformer]

end MinedSource

end AgentPalace.Ingest
