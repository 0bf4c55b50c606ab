import AgentPalace.Lib.Checked
import AgentPalace.Lib.Json
import AgentPalace.Lib.Replace

/-!
# What a migration writes into the client files

`edit` is what the migration does to the text of one client file: a JSON
configuration or the Codex one gets the entry of the new server for that of the
old one, an instruction file gets the new tool names. A file that was edited
once is left alone from then on (`edit_stable`).
-/

namespace AgentPalace.Cli

abbrev Bytes := List UInt8

/-- An `io::Error`, by its text. -/
abbrev Error := String

def readText (bytes : Bytes) : Except Error String :=
  match String.fromUTF8? ⟨bytes.toArray⟩ with
  | some text => .ok text
  | none => .error "stream did not contain valid UTF-8"

def bytesOf (text : String) : Bytes := text.toUTF8.data.toList

theorem readText_bytesOf (text : String) : readText (bytesOf text) = .ok text := by
  have hbytes : (⟨(bytesOf text).toArray⟩ : ByteArray) = text.toByteArray := by
    unfold bytesOf
    rw [Array.toArray_toList]
    rfl
  have hread : String.fromUTF8? ⟨(bytesOf text).toArray⟩ = some text := by
    rw [hbytes]
    unfold String.fromUTF8?
    rw [dif_pos text.isValidUTF8]
    rfl
  unfold readText
  rw [hread]

/-- What `serde_json`, `toml`, `toml_edit` and the standard library do. -/
structure Codec where
  fromSlice : Bytes → Except Error Json
  toPretty : Json → String
  /-- A `config.json` of version 1 is read. -/
  configFile : Bytes → Except Error Unit
  /-- The entry `mcp_servers.mempalace` of a TOML document, and whether it has an entry
  `mcp_servers.agentpalace`. -/
  tomlServers : String → Except Error (Option Json × Bool)
  /-- The document with the entry of the old server replaced by one of the new one. -/
  tomlRenamed : String → Json → Except Error String
  isAlphanumeric : Char → Bool
  homeDir : String

/-- The client files, in the order in which they are read. -/
inductive ClientFile where
  | claude | gemini | copilot | antigravity | antigravityCli | opencode
  | codexAgents | claudeInstructions | codexConfig
  deriving DecidableEq

namespace ClientFile

def all : List ClientFile :=
  [claude, gemini, copilot, antigravity, antigravityCli, opencode, codexAgents,
    claudeInstructions, codexConfig]

theorem mem_all (c : ClientFile) : c ∈ all := by cases c <;> decide

theorem nodup_all : all.Nodup := by decide

end ClientFile

/-- The roots, the executable and the client files of one migration. -/
structure Paths where
  source : String
  /-- The source, links resolved. -/
  boundary : String
  target : String
  binary : String
  /-- Below the home, or where `XDG_CONFIG_HOME` or `CODEX_HOME` say. -/
  clientPath : ClientFile → String

variable (k : Codec) (p : Paths)

/-! ## Instructions -/

def wordBefore : Option Char → Bool
  | some c => k.isAlphanumeric c || c == '_'
  | none => false

/-- The words that are replaced, in this order; the last one wherever it stands. -/
def migrateInstructions (text : String) : String :=
  let tools := replaced (wordBefore k) "mempalace_".toList "agentpalace_".toList text.toList
  let renamed := replaced (wordBefore k) "MEMPALACE_".toList "AGENTPALACE_".toList tools
  .ofList (replaced (fun _ => false) "`mempalace ".toList "`agentpalace ".toList renamed)

/-! ## Paths in values -/

/-- The components of a path; the root is the empty one. -/
def components (path : List Char) : List (List Char) :=
  let parts := (path.splitOn '/').filter fun part => part ≠ [] ∧ part ≠ ['.']
  if path.head? = some '/' then [] :: parts else parts

def joined (parts : List (List Char)) : List Char :=
  match parts with
  | [] :: rest => '/' :: ['/'].intercalate rest
  | parts => ['/'].intercalate parts

/-- `trim_start_matches` of a text, with more fuel than the text has characters. -/
def trimStartMatches (word : List Char) : Nat → List Char → List Char
  | 0, text => text
  | fuel + 1, text =>
    if word <+: text then trimStartMatches word fuel (text.drop word.length) else text

def legacyHome : List Char := "~/.mempalace".toList

/-- The text with the home directory for the tilde of the old default. -/
def expanded (text : List Char) : List (List Char) :=
  if text = legacyHome ∨ legacyHome ++ ['/'] <+: text ∨ legacyHome ++ ['\\'] <+: text then
    let rest := (trimStartMatches legacyHome text.length text).dropWhile fun c =>
      c = '/' ∨ c = '\\'
    components (joined (components k.homeDir.toList) ++ "/.mempalace/".toList ++ rest)
  else components text

def remapPath (text : String) : String :=
  match (components p.source.toList).isPrefixOf? (expanded k text.toList) with
  | some [] => p.target
  | some relative => .ofList (joined (components p.target.toList ++ relative))
  | none => text

def remapPathValue : Json → Json
  | .str text => .str (remapPath k p text)
  | v => v

/-! ## Entries of servers -/

def stripped (start text : String) : Option String :=
  (start.toList.isPrefixOf? text.toList).map .ofList

def endsWith (text last : String) : Bool := last.toList.isSuffixOf text.toList

def fileName (command : List Char) : List Char :=
  (command.splitOnP fun c => c = '/' ∨ c = '\\').getLast?.getD []

def legacyNames : List String :=
  ["mempalace", "mempalace.exe", "mempalace-mcp", "mempalace-mcp.exe", "mempalace-cli",
    "mempalace-cli.exe"]

def legacyCommand (command : String) : Bool :=
  String.ofList (fileName command.toList) ∈ legacyNames

def customLauncher : Error :=
  "Legacy MCP entry uses a custom launcher; migrate its command manually"

/-- The arguments that make the new executable the old `-mcp` one. -/
def stdioArgs (old : String) : List Json :=
  if old.toList.tails.any fun rest => "-mcp".toList.isPrefixOf rest then
    [.str "serve", .str "--stdio"]
  else []

/-- The value is put in its place in the object. -/
def setField (name : String) (v : Json) (fields : List (String × Json)) : List (String × Json) :=
  fields.map fun f => if f.1 = name then (name, v) else f

/-- `entry(name).or_insert`. -/
def orInsert (name : String) (v : Json) (fields : List (String × Json)) : List (String × Json) :=
  if (fields.lookup name).isSome then fields else Json.insertField name v fields

def migrateCommand (object : List (String × Json)) : Except Error (List (String × Json)) :=
  match object.lookup "command" with
  | some (.arr (.str old :: args)) =>
    if legacyCommand old then
      .ok (setField "command"
        (.arr (.str p.binary :: (stdioArgs old ++ args).map (remapPathValue k p))) object)
    else .error customLauncher
  | some (.arr _) => .error "Empty MCP command"
  | some (.str old) =>
    if legacyCommand old then
      let object := orInsert "args" (.arr []) (setField "command" (.str p.binary) object)
      match object.lookup "args" with
      | some (.arr args) =>
        .ok (setField "args" (.arr ((stdioArgs old ++ args).map (remapPathValue k p))) object)
      | _ => .error "MCP args is not an array"
    else .error customLauncher
  | some _ => .error "Invalid MCP command"
  | none =>
    if (object.lookup "url").isSome then .ok object
    else .error "Legacy MCP entry has neither command nor URL"

def migrateVariable (env : List (String × Json)) (key : String) :
    Except Error (List (String × Json)) :=
  match (stripped "MEMPALACE_" key).or
      (if key = "MEMPAL_PALACE_PATH" then some "PALACE_PATH" else none) with
  | none => .ok env
  | some suffix =>
    let new := "AGENTPALACE_" ++ suffix
    if (env.lookup new).isSome then .error s!"Both {key} and {new} exist in MCP environment"
    else
      let value := (env.lookup key).getD .null
      let value :=
        if endsWith suffix "_DIR" || endsWith suffix "_PATH" then remapPathValue k p value
        else value
      .ok (Json.insertField new value (Json.removeField key env))

def migrateEnv (object : List (String × Json)) (envKey : String) :
    Except Error (List (String × Json)) :=
  match object.lookup envKey with
  | some (.obj env) => do
    let env ← (env.map (·.1)).foldlM (migrateVariable k p) env
    let env := match env.lookup "HF_HOME" with
      | some path => setField "HF_HOME" (remapPathValue k p path) env
      | none => env
    .ok (setField envKey (.obj env) object)
  | _ => .ok object

def tellHome (object : List (String × Json)) : Except Error (List (String × Json)) :=
  match object.lookup "command" with
  | none => .ok object
  | some command =>
    let envKey := match command with
      | .arr _ => "environment"
      | _ => "env"
    let object := orInsert envKey (.obj []) object
    match object.lookup envKey with
    | some (.obj env) =>
      .ok (setField envKey (.obj (orInsert "AGENTPALACE_CONFIG_DIR" (.str p.target) env)) object)
    | _ => .error "MCP environment is not an object"

def renamedTool : Json → Json
  | .str name => match stripped "mempalace_" name with
    | some suffix => .str ("agentpalace_" ++ suffix)
    | none => .str name
  | v => v

def renameTools (object : List (String × Json)) (key : String) : List (String × Json) :=
  match object.lookup key with
  | some (.arr names) => setField key (.arr (names.map renamedTool)) object
  | _ => object

def migrateEntry : Json → Except Error Json
  | .obj object => do
    let object ← migrateCommand k p object
    let object ← ["env", "environment"].foldlM (migrateEnv k p) object
    let object ← tellHome p object
    return .obj (["enabled_tools", "disabled_tools", "autoApprove", "alwaysAllow"].foldl
      renameTools object)
  | _ => .error "MCP entry is not an object"

/-! ## Client files -/

/-- The document with the entry of the new server; `none` where it has none of the old one. -/
def renamedServer (path key : String) (doc : Json) : Except Error (Option Json) :=
  match doc with
  | .obj fields =>
    match fields.lookup key with
    | some (.obj servers) =>
      match servers.lookup "mempalace" with
      | none => .ok none
      | some entry =>
        if (servers.lookup "agentpalace").isSome then .error s!"Both MCP names exist in {path}"
        else do
          let entry ← migrateEntry k p entry
          let servers := Json.insertField "agentpalace" entry (Json.removeField "mempalace" servers)
          return some (.obj (setField key (.obj servers) fields))
    | _ => .ok none
  | _ => .ok none

def editJson (path key : String) (bytes : Bytes) : Except Error (Option Bytes) := do
  match ← renamedServer k p path key (← k.fromSlice bytes) with
  | none => return none
  | some doc => return some (bytesOf (k.toPretty doc ++ "\n"))

def editInstructions (bytes : Bytes) : Except Error (Option Bytes) := do
  let source ← readText bytes
  let updated := migrateInstructions k source
  return if source = updated then none else some (bytesOf updated)

def editToml (bytes : Bytes) : Except Error (Option Bytes) := do
  let source ← readText bytes
  match ← k.tomlServers source with
  | (none, _) => return none
  | (some _, true) => .error "Both MCP names exist in Codex configuration"
  | (some value, false) =>
    let updated ← k.tomlRenamed source (← migrateEntry k p value)
    return some (bytesOf updated)

def edit : ClientFile → Bytes → Except Error (Option Bytes)
  | .opencode => editJson k p (p.clientPath .opencode) "mcp"
  | .codexAgents | .claudeInstructions => editInstructions k
  | .codexConfig => editToml k p
  | c => editJson k p (p.clientPath c) "mcpServers"

/-! ## An edited file is left alone -/

/-- The document has no entry of the old server. -/
def Unnamed (key : String) (doc : Json) : Prop :=
  ∀ fields servers, doc = .obj fields → fields.lookup key = some (.obj servers) →
    servers.lookup "mempalace" = none

/-- A document that a migration writes is read back without the entry that it lacks, and a renamed
TOML entry is not there any more. -/
structure Codec.Reads (k : Codec) (p : Paths) : Prop where
  reparses : ∀ path key bytes doc doc', k.fromSlice bytes = .ok doc →
    renamedServer k p path key doc = .ok (some doc') →
    ∃ read, k.fromSlice (bytesOf (k.toPretty doc' ++ "\n")) = .ok read ∧
      (Unnamed key doc' → Unnamed key read)
  renames : ∀ source value updated, k.tomlRenamed source value = .ok updated →
    ∃ new, k.tomlServers updated = .ok (none, new)

theorem lookup_setField {name : String} {v : Json} {fields : List (String × Json)} :
    (setField name v fields).lookup name = (fields.lookup name).map fun _ => v := by
  induction fields with
  | nil => rfl
  | cons f fields ih =>
    obtain ⟨field, x⟩ := f
    by_cases h : field = name
    · subst h
      simp [setField]
    · have hne : (name == field) = false := by simpa using Ne.symm h
      rw [List.lookup_cons, hne]
      have hset : setField name v ((field, x) :: fields) = (field, x) :: setField name v fields := by
        simp [setField, h]
      rw [hset, List.lookup_cons, hne]
      exact ih

theorem lookup_of_not_mem {α β : Type} [DecidableEq α] {a : α} {xs : List (α × β)}
    (h : a ∉ xs.map (·.1)) : xs.lookup a = none := by
  rw [List.lookup_eq_none_iff]
  intro x hx
  have hne : a ≠ x.1 := fun heq => h (heq ▸ List.mem_map_of_mem hx)
  simpa using hne

theorem renamedServer_unnamed {path key : String} {doc doc' : Json}
    (h : renamedServer k p path key doc = .ok (some doc')) : Unnamed key doc' := by
  unfold renamedServer at h
  split at h
  · rename_i fields
    split at h
    · rename_i servers hservers
      split at h
      · cases h
      · split at h
        · cases h
        · obtain ⟨entry, -, h⟩ := bind_ok h
          cases h
          rintro _ found ⟨⟩ hfound
          rw [lookup_setField, hservers] at hfound
          cases hfound
          rw [lookup_insertField_of_ne (by decide), lookup_removeField]
    · cases h
  · cases h

theorem renamedServer_none {path key : String} {doc : Json} (h : Unnamed key doc) :
    renamedServer k p path key doc = .ok none := by
  unfold renamedServer
  split
  · split
    · rename_i hservers
      rw [h _ _ rfl hservers]
    · rfl
  · rfl

theorem migrateInstructions_stable (text : String) :
    migrateInstructions k (migrateInstructions k text) = migrateInstructions k text := by
  unfold migrateInstructions
  dsimp only
  generalize htools :
    replaced (wordBefore k) "mempalace_".toList "agentpalace_".toList text.toList = tools
  generalize hnames :
    replaced (wordBefore k) "MEMPALACE_".toList "AGENTPALACE_".toList tools = names
  generalize hcommands :
    replaced (fun _ => false) "`mempalace ".toList "`agentpalace ".toList names = commands
  have htools1 : Settled (wordBefore k) "mempalace_".toList none tools := by
    rw [← htools]
    exact settled_replacedFrom (by decide) (by decide) (by decide) (by decide) (by decide)
      (by decide) (Nat.lt_succ_self _)
  have hnames1 : Settled (wordBefore k) "mempalace_".toList none names := by
    rw [← hnames]
    exact htools1.kept (by decide) (by decide) (by decide) (by decide) (by decide)
  have hnames2 : Settled (wordBefore k) "MEMPALACE_".toList none names := by
    rw [← hnames]
    exact settled_replacedFrom (by decide) (by decide) (by decide) (by decide) (by decide)
      (by decide) (Nat.lt_succ_self _)
  have hcommands1 : Settled (wordBefore k) "mempalace_".toList none commands := by
    rw [← hcommands]
    exact hnames1.kept (by decide) (by decide) (by decide) (by decide) (by decide)
  have hcommands2 : Settled (wordBefore k) "MEMPALACE_".toList none commands := by
    rw [← hcommands]
    exact hnames2.kept (by decide) (by decide) (by decide) (by decide) (by decide)
  have hcommands3 : Settled (fun _ => false) "`mempalace ".toList none commands := by
    rw [← hcommands]
    exact settled_replacedFrom (by decide) (by decide) (by decide) (by decide) (by decide)
      (by decide) (Nat.lt_succ_self _)
  rw [@String.toList_ofList commands, hcommands1.replaced (by decide), hcommands2.replaced (by decide),
    hcommands3.replaced (by decide)]

/-- **An edited file is left alone**: what the migration wrote once it does not change again. -/
theorem edit_stable (hk : k.Reads p) {c : ClientFile} {bytes updated : Bytes}
    (h : edit k p c bytes = .ok (some updated)) : edit k p c updated = .ok none := by
  have hjson : ∀ path key, editJson k p path key bytes = .ok (some updated) →
      editJson k p path key updated = .ok none := by
    intro path key h
    unfold editJson at h
    obtain ⟨doc, hdoc, h⟩ := bind_ok h
    obtain ⟨renamed, hrename, h⟩ := bind_ok h
    cases renamed with
    | none => cases h
    | some doc' =>
      cases h
      obtain ⟨read, hread, hkept⟩ := hk.reparses path key bytes doc doc' hdoc hrename
      unfold editJson
      rw [hread]
      simp only [bind, Except.bind, renamedServer_none k p (hkept (renamedServer_unnamed k p hrename))]
      rfl
  have hinstructions : editInstructions k bytes = .ok (some updated) →
      editInstructions k updated = .ok none := by
    intro h
    unfold editInstructions at h
    obtain ⟨source, -, h⟩ := bind_ok h
    dsimp only at h
    split at h
    · cases h
    · cases h
      unfold editInstructions
      simp only [readText_bytesOf, bind, Except.bind, migrateInstructions_stable]
      rfl
  have htoml : editToml k p bytes = .ok (some updated) → editToml k p updated = .ok none := by
    intro h
    unfold editToml at h
    obtain ⟨source, -, h⟩ := bind_ok h
    obtain ⟨⟨old, new⟩, -, h⟩ := bind_ok h
    cases old with
    | none => cases h
    | some value =>
      cases new with
      | true => cases h
      | false =>
        obtain ⟨entry, -, h⟩ := bind_ok h
        obtain ⟨text, hrenamed, h⟩ := bind_ok h
        cases h
        obtain ⟨new, hnew⟩ := hk.renames source entry text hrenamed
        unfold editToml
        simp only [readText_bytesOf, bind, Except.bind, hnew]
        rfl
  cases c with
  | codexAgents => exact hinstructions h
  | claudeInstructions => exact hinstructions h
  | codexConfig => exact htoml h
  | _ => exact hjson _ _ h

end AgentPalace.Cli
