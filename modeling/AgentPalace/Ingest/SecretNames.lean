import AgentPalace.Ingest.Prepare

/-!
# Names that are withheld

A file whose name is on the denylist is withheld before it is opened. The denylist
is a matter of ASCII, so it can be asked of the bytes of a name (`SecretName`). The
code asks it of the text, and a name that is no UTF-8 has none: `verdict_of_text`
says that a name with a text is withheld, and `verdict_of_bytes` what becomes of
the others.
-/

namespace AgentPalace.Ingest

abbrev ByteName := List UInt8

inductive SecretPathKind where
  | dotEnv | kubeconfig | sshPrivateKey | keystore | netrc | terraformSecret | secretsJson
  | localJson
  deriving DecidableEq

def SecretPathKind.asStr : SecretPathKind → String
  | dotEnv => ".env / *.env"
  | kubeconfig => "*.kubeconfig*"
  | sshPrivateKey => "id_rsa / id_ed25519 / id_ecdsa / id_dsa (SSH private key)"
  | keystore => "*.pfx / *.p12 / *.jks (keystore)"
  | netrc => ".npmrc / .netrc"
  | terraformSecret => "*.tfstate / *.tfvars"
  | secretsJson => "secrets*.json"
  | localJson => "*.local.json"

inductive Eligibility where
  | eligible
  | excluded
  | secret (kind : SecretPathKind)
  deriving DecidableEq

def projectReadableExtensions : List String :=
  [".txt", ".md", ".html", ".xml", ".csv", ".json", ".yaml", ".yml", ".toml", ".ini", ".cfg",
    ".conf", ".properties", ".js", ".ts", ".jsx", ".tsx", ".css", ".vue", ".svelte", ".astro",
    ".rs", ".c", ".h", ".cc", ".cpp", ".cxx", ".hh", ".hpp", ".m", ".mm", ".zig", ".nim",
    ".java", ".kt", ".kts", ".scala", ".sbt", ".groovy", ".gradle", ".cs", ".fs", ".fsi",
    ".fsx", ".py", ".rb", ".php", ".lua", ".pl", ".pm", ".r", ".jl", ".dart", ".sh", ".bash",
    ".zsh", ".fish", ".ps1", ".psm1", ".psd1", ".bat", ".cmd", ".ex", ".exs", ".erl", ".hrl",
    ".clj", ".cljc", ".cljs", ".edn", ".swift", ".go", ".sql", ".tf", ".tfvars", ".hcl",
    ".proto", ".graphql", ".gql", ".dockerfile"]

def projectSkipFiles : List String :=
  ["agentpalace.yaml", "agentpalace.yml", "mempalace.yaml", "mempalace.yml", "mempal.yaml",
    "mempal.yml", ".gitignore", "package-lock.json", "Cargo.lock", "yarn.lock",
    "pnpm-lock.yaml", "poetry.lock", "composer.lock", "Gemfile.lock"]

def projectReadableBasenames : List String :=
  ["Dockerfile", "Makefile", "Rakefile", "Gemfile", "Jenkinsfile", "Vagrantfile"]

def sshPrivateKeyNames : List String := ["id_rsa", "id_ed25519", "id_ecdsa", "id_dsa"]

def startsWithText (name : List Char) (text : String) : Prop := text.toList <+: name
def endsWithText (name : List Char) (text : String) : Prop := text.toList <:+ name
def containsText (name : List Char) (text : String) : Prop := text.toList <:+: name

instance (name : List Char) (text : String) : Decidable (startsWithText name text) :=
  inferInstanceAs (Decidable (text.toList <+: name))

instance (name : List Char) (text : String) : Decidable (endsWithText name text) :=
  inferInstanceAs (Decidable (text.toList <:+ name))

instance (name : List Char) (text : String) : Decidable (containsText name text) :=
  inferInstanceAs (Decidable (text.toList <:+: name))

def secretPathKind (fileName : List Char) : Option SecretPathKind :=
  let name := fileName.map Char.toLower
  if name = ".env".toList ∨ startsWithText name ".env." ∨ endsWithText name ".env" then some .dotEnv
  else if containsText name "kubeconfig" then some .kubeconfig
  else if ∃ key ∈ sshPrivateKeyNames, name = key.toList then some .sshPrivateKey
  else if ∃ ext ∈ [".pfx", ".p12", ".jks"], endsWithText name ext then some .keystore
  else if name = ".npmrc".toList ∨ name = ".netrc".toList then some .netrc
  else if endsWithText name ".tfstate" ∨ endsWithText name ".tfvars" then some .terraformSecret
  else if startsWithText name "secrets" ∧ endsWithText name ".json" then some .secretsJson
  else if endsWithText name ".local.json" then some .localJson
  else none

def projectSkipByName (fileName : List Char) : Option Eligibility :=
  match secretPathKind fileName with
  | some kind => some (.secret kind)
  | none => if String.ofList fileName ∈ projectSkipFiles then some .excluded else none

/-- `to_str().unwrap_or_default()`. -/
def textOf (bytes : List UInt8) : List Char := (fromUtf8 bytes).getD []

/-- `Path::extension`: what follows the last dot of a name that does not begin with it. -/
def extension (name : ByteName) : Option (List UInt8) :=
  match (name.reverse.dropWhile (· ≠ 46)) with
  | [] | [_] => none
  | _ => some (name.reverse.takeWhile (· ≠ 46)).reverse

def rawExtension (name : ByteName) : List Char := ((extension name).map textOf).getD []

def readableExtension (name : ByteName) : Bool :=
  projectReadableExtensions.any fun ext =>
    ext.toList = '.' :: (rawExtension name).map Char.toLower

def shebangReadBytes : Nat := 256
def binarySniffBytes : Nat := 8192

def hasShebang (content : Option (List UInt8)) : Bool :=
  content.any fun bytes => [35, 33].isPrefixOf (bytes.take shebangReadBytes)

def looksBinary (content : Option (List UInt8)) : Bool :=
  content.any fun bytes => (bytes.take binarySniffBytes).contains 0

/-- What is decided of a file, and whether the file was opened for it. -/
structure Verdict where
  eligibility : Eligibility
  opened : Bool

/-- `content` is what the file holds, if it can be read. -/
def projectEligibility (content : Option (List UInt8)) (name : ByteName) : Verdict :=
  let fileName := textOf name
  match projectSkipByName fileName with
  | some eligibility => ⟨eligibility, false⟩
  | none =>
    let hasExt := decide (rawExtension name ≠ [])
    let byName := decide (String.ofList fileName ∈ projectReadableBasenames)
    let sniffed := !hasExt && !byName
    let accepted :=
      (hasExt && readableExtension name) || (!hasExt && (byName || hasShebang content))
    if !accepted || looksBinary content then ⟨.excluded, sniffed || accepted⟩
    else ⟨.eligible, true⟩

/-! ### The denylist and bytes -/

/-- Each byte as a character. -/
def byteChars (bytes : List UInt8) : List Char := bytes.map fun b => Char.ofNat b.toNat

/-- The denylist, asked of the bytes of a name. -/
def SecretName (name : ByteName) : Prop := (secretPathKind (byteChars name)).isSome

instance (name : ByteName) : Decidable (SecretName name) :=
  inferInstanceAs (Decidable (_ = true))

def Denied (name : List Char) : Prop :=
  (name = ".env".toList ∨ startsWithText name ".env." ∨ endsWithText name ".env") ∨
  containsText name "kubeconfig" ∨
  (∃ key ∈ sshPrivateKeyNames, name = key.toList) ∨
  (∃ ext ∈ [".pfx", ".p12", ".jks"], endsWithText name ext) ∨
  (name = ".npmrc".toList ∨ name = ".netrc".toList) ∨
  (endsWithText name ".tfstate" ∨ endsWithText name ".tfvars") ∨
  (startsWithText name "secrets" ∧ endsWithText name ".json") ∨
  endsWithText name ".local.json"

theorem secretPathKind_isSome (fileName : List Char) :
    (secretPathKind fileName).isSome ↔ Denied (fileName.map Char.toLower) := by
  unfold secretPathKind Denied
  dsimp only
  split_ifs <;> simp_all

/-- `spell` writes an ASCII character in lower case and the others with characters that are not
ASCII, as bytes do. -/
structure Spelling (spell : Char → List Char) : Prop where
  ascii : ∀ c : Char, c.toNat < 128 → spell c = [c.toLower]
  other : ∀ c : Char, 128 ≤ c.toNat → spell c ≠ [] ∧ ∀ d ∈ spell c, 128 ≤ d.toNat

def Ascii (text : List Char) : Prop := ∀ c ∈ text, c.toNat < 128

namespace Spelling

variable {spell : Char → List Char} (h : Spelling spell) {text pattern : List Char}

include h in
theorem starts (hpattern : Ascii pattern) (hstart : pattern <+: text.flatMap spell) :
    pattern <+: text.map Char.toLower := by
  induction pattern generalizing text with
  | nil => exact List.nil_prefix
  | cons a pattern ih =>
    have hrest : Ascii pattern := fun c hc => hpattern c (List.mem_cons_of_mem _ hc)
    cases text with
    | nil => exact absurd (List.prefix_nil.1 hstart) (List.cons_ne_nil a pattern)
    | cons c text =>
      rw [List.flatMap_cons] at hstart
      by_cases hc : c.toNat < 128
      · rw [h.ascii c hc, List.singleton_append, List.cons_prefix_cons] at hstart
        rw [List.map_cons, List.cons_prefix_cons]
        exact ⟨hstart.1, ih hrest hstart.2⟩
      · obtain ⟨hne, hlarge⟩ := h.other c (Nat.not_lt.1 hc)
        obtain ⟨d, rest, hd⟩ := List.exists_cons_of_ne_nil hne
        rw [hd, List.cons_append, List.cons_prefix_cons] at hstart
        have hsmall := hpattern a List.mem_cons_self
        have hbig := hlarge d (by rw [hd]; exact List.mem_cons_self)
        rw [hstart.1] at hsmall
        omega

include h in
theorem reversed : Spelling fun c => (spell c).reverse where
  ascii c hc := by rw [h.ascii c hc]; rfl
  other c hc :=
    ⟨by simpa using (h.other c hc).1, fun d hd => (h.other c hc).2 d (by simpa using hd)⟩

include h in
theorem ends (hpattern : Ascii pattern) (hend : pattern <:+ text.flatMap spell) :
    pattern <:+ text.map Char.toLower := by
  rw [← List.reverse_prefix] at hend ⊢
  rw [List.reverse_flatMap] at hend
  have hascii : Ascii pattern.reverse := fun c hc => hpattern c (List.mem_reverse.1 hc)
  have hstart := h.reversed.starts hascii hend
  rwa [List.map_reverse] at hstart

include h in
theorem contains (hpattern : Ascii pattern) (hwithin : pattern <:+: text.flatMap spell) :
    pattern <:+: text.map Char.toLower := by
  have hpast : ∀ (front back : List Char), (∀ d ∈ front, 128 ≤ d.toNat) →
      pattern <:+: front ++ back → pattern <:+: back := by
    intro front back hfront hin
    induction front with
    | nil => exact hin
    | cons d front ih =>
      rcases List.infix_cons_iff.1 hin with hstart | hin
      · cases hp : pattern with
        | nil => exact List.nil_infix
        | cons a rest =>
          have hstart : pattern <+: d :: (front ++ back) := hstart
          rw [hp, List.cons_prefix_cons] at hstart
          have hsmall := hpattern a (by rw [hp]; exact List.mem_cons_self)
          have hbig := hfront d List.mem_cons_self
          rw [hstart.1] at hsmall
          omega
      · exact ih (fun c hc => hfront c (List.mem_cons_of_mem _ hc)) hin
  induction text with
  | nil => exact hwithin
  | cons c text ih =>
    by_cases hc : c.toNat < 128
    · rw [List.flatMap_cons, h.ascii c hc, List.singleton_append] at hwithin
      rcases List.infix_cons_iff.1 hwithin with hstart | hin
      · refine (h.starts hpattern (?_ : pattern <+: (c :: text).flatMap spell)).isInfix
        rw [List.flatMap_cons, h.ascii c hc]
        exact hstart
      · exact (ih hin).trans (List.suffix_cons ..).isInfix
    · rw [List.flatMap_cons] at hwithin
      exact (ih (hpast _ _ (h.other c (Nat.not_lt.1 hc)).2 hwithin)).trans
        (List.suffix_cons ..).isInfix

include h in
theorem spells (hpattern : Ascii pattern) (heq : text.flatMap spell = pattern) :
    text.map Char.toLower = pattern := by
  induction text generalizing pattern with
  | nil => exact heq
  | cons c text ih =>
    rw [List.flatMap_cons] at heq
    by_cases hc : c.toNat < 128
    · rw [h.ascii c hc, List.singleton_append] at heq
      subst heq
      rw [List.map_cons, ih (fun d hd => hpattern d (List.mem_cons_of_mem _ hd)) rfl]
    · obtain ⟨hne, hlarge⟩ := h.other c (Nat.not_lt.1 hc)
      obtain ⟨d, hd⟩ := List.exists_mem_of_ne_nil _ hne
      have hsmall := hpattern d (heq ▸ List.mem_append_left _ hd)
      have hbig := hlarge d hd
      omega

include h in
/-- What is denied of the spelling is denied of the text. -/
theorem denied (hdenied : Denied (text.flatMap spell)) : Denied (text.map Char.toLower) := by
  have hascii : ∀ pattern : String, pattern.toList.all (fun c => c.toNat < 128) = true →
      Ascii pattern.toList :=
    fun pattern hall c hc => of_decide_eq_true (List.all_eq_true.1 hall c hc)
  have hstarts : ∀ pattern : String, pattern.toList.all (fun c => c.toNat < 128) = true →
      startsWithText (text.flatMap spell) pattern →
        startsWithText (text.map Char.toLower) pattern :=
    fun pattern hall => h.starts (hascii pattern hall)
  have hends : ∀ pattern : String, pattern.toList.all (fun c => c.toNat < 128) = true →
      endsWithText (text.flatMap spell) pattern → endsWithText (text.map Char.toLower) pattern :=
    fun pattern hall => h.ends (hascii pattern hall)
  have hspells : ∀ pattern : String, pattern.toList.all (fun c => c.toNat < 128) = true →
      text.flatMap spell = pattern.toList → text.map Char.toLower = pattern.toList :=
    fun pattern hall => h.spells (hascii pattern hall)
  refine Or.imp ?dotEnv (Or.imp ?kubeconfig (Or.imp ?sshKey (Or.imp ?keystore (Or.imp ?netrc
    (Or.imp ?terraform (Or.imp ?secrets ?localJson)))))) hdenied
  case dotEnv => exact Or.imp (hspells _ rfl) (Or.imp (hstarts _ rfl) (hends _ rfl))
  case kubeconfig => exact h.contains (hascii _ rfl)
  case sshKey =>
    have hall : ∀ key ∈ sshPrivateKeyNames, key.toList.all (fun c => c.toNat < 128) = true := by
      decide
    exact fun ⟨key, hkey, heq⟩ => ⟨key, hkey, hspells key (hall key hkey) heq⟩
  case keystore =>
    have hall : ∀ ext ∈ [".pfx", ".p12", ".jks"],
        ext.toList.all (fun c => c.toNat < 128) = true := by decide
    exact fun ⟨ext, hext, he⟩ => ⟨ext, hext, hends ext (hall ext hext) he⟩
  case netrc => exact Or.imp (hspells _ rfl) (hspells _ rfl)
  case terraform => exact Or.imp (hends _ rfl) (hends _ rfl)
  case secrets => exact And.imp (hstarts _ rfl) (hends _ rfl)
  case localJson => exact hends _ rfl

end Spelling

/-- The bytes of a character, as characters in lower case. -/
def spellBytes (c : Char) : List Char :=
  (byteChars (String.utf8EncodeChar c)).map Char.toLower

/-- The bytes of a character that is not ASCII are not ASCII. -/
theorem large_utf8EncodeChar {c : Char} (hc : 128 ≤ c.toNat) {b : UInt8}
    (hb : b ∈ String.utf8EncodeChar c) : 128 ≤ b.toNat := by
  have hlarge : ∀ n, n < 256 → 128 ≤ n → 128 ≤ (UInt8.ofNat n).toNat := fun n hlt hle => by
    rwa [UInt8.toNat_ofNat_of_lt' hlt]
  have hnle : ¬ c.val.toNat ≤ 127 := Nat.not_le.2 hc
  unfold String.utf8EncodeChar at hb
  simp only [if_neg hnle] at hb
  split_ifs at hb <;> simp only [List.mem_cons, List.not_mem_nil, or_false] at hb
  · rcases hb with rfl | rfl
    all_goals exact hlarge _ (by omega) (by omega)
  · rcases hb with rfl | rfl | rfl
    all_goals exact hlarge _ (by omega) (by omega)
  · rcases hb with rfl | rfl | rfl | rfl
    all_goals exact hlarge _ (by omega) (by omega)

theorem spelling_bytes : Spelling spellBytes where
  ascii c hc := by
    have hle : c.val.toNat ≤ 127 := Nat.le_of_lt_succ hc
    have hbyte : (UInt8.ofNat c.val.toNat).toNat = c.val.toNat :=
      UInt8.toNat_ofNat_of_lt' (lt_of_le_of_lt hle (by decide))
    have hchar : Char.ofNat c.val.toNat = c := Char.ofNat_toNat c
    unfold spellBytes byteChars String.utf8EncodeChar
    simp only [if_pos hle, List.map_cons, List.map_nil, hbyte, hchar]
  other c hc := by
    have hlower : ∀ n < 256, 128 ≤ n → 128 ≤ (Char.ofNat n).toLower.toNat := by decide +kernel
    refine ⟨by simp [spellBytes, byteChars, String.utf8EncodeChar_ne_nil], fun d hd => ?_⟩
    obtain ⟨e, he, rfl⟩ := List.mem_map.1 hd
    obtain ⟨b, hb, rfl⟩ := List.mem_map.1 he
    exact hlower _ b.toNat_lt (large_utf8EncodeChar hc hb)

theorem secretPathKind_of_secret {text : List Char} (h : SecretName (encodeUtf8 text)) :
    (secretPathKind text).isSome := by
  have hspell : (byteChars (encodeUtf8 text)).map Char.toLower = text.flatMap spellBytes := by
    simp only [byteChars, encodeUtf8, List.map_flatMap]
    rfl
  rw [secretPathKind_isSome]
  refine spelling_bytes.denied ?_
  rw [← hspell]
  exact (secretPathKind_isSome _).1 h

/-! ### What becomes of a name -/

theorem verdict_of_text {name : ByteName} (h : SecretName name) (htext : (fromUtf8 name).isSome)
    (content : Option (List UInt8)) :
    (projectEligibility content name).opened = false ∧
      (projectEligibility content name).eligibility ≠ .eligible := by
  obtain ⟨text, htext⟩ := Option.isSome_iff_exists.1 htext
  have hname : textOf name = text := by rw [textOf, htext, Option.getD_some]
  obtain ⟨kind, hkind⟩ := Option.isSome_iff_exists.1
    (secretPathKind_of_secret (fromUtf8_eq htext ▸ h))
  have hskip : projectSkipByName text = some (.secret kind) := by rw [projectSkipByName, hkind]
  have hverdict : projectEligibility content name = ⟨.secret kind, false⟩ := by
    unfold projectEligibility
    rw [hname]
    simp only [hskip]
  rw [hverdict]
  exact ⟨rfl, by simp⟩

theorem opened_of_bytes {name : ByteName} (htext : fromUtf8 name = none)
    (content : Option (List UInt8)) :
    (projectEligibility content name).opened = true ↔
      rawExtension name = [] ∨ readableExtension name = true := by
  have hname : textOf name = [] := by rw [textOf, htext, Option.getD_none]
  have hskip : projectSkipByName [] = none := by decide +kernel
  have hbase : String.ofList [] ∉ projectReadableBasenames := by decide +kernel
  unfold projectEligibility
  rw [hname]
  simp only [hskip, hbase, decide_false, Bool.not_false, Bool.and_true, Bool.false_or]
  by_cases hext : rawExtension name = []
  · simp only [hext, ne_eq, not_true_eq_false, decide_false, Bool.not_false, Bool.true_or,
      true_or, iff_true]
    split <;> rfl
  · simp only [hext, ne_eq, not_false_eq_true, decide_true, Bool.not_true, Bool.true_and,
      Bool.false_and, Bool.or_false, Bool.false_or, false_or]
    cases readableExtension name
    · simp
    · cases looksBinary content <;> simp

theorem opened_of_eligible {content : Option (List UInt8)} {name : ByteName}
    (h : (projectEligibility content name).eligibility = .eligible) :
    (projectEligibility content name).opened = true := by
  unfold projectEligibility at h ⊢
  dsimp only at h ⊢
  split at h
  · rename_i eligibility hskip
    unfold projectSkipByName at hskip
    split at hskip
    · cases hskip
      cases h
    · split_ifs at hskip
      cases hskip
      cases h
  · split_ifs at h ⊢
    rfl

end AgentPalace.Ingest
