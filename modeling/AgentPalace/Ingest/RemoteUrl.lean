import AgentPalace.Ingest.Chunks

/-!
# The identity of a git remote

`normalizeGitRemoteUrl` makes `host/path` of the spellings of a remote. A
`Remote` is such a spelling, taken apart. The user is cut off at the first `@` of
a URL and the port at the first `:`, wherever they stand, and slashes before the
path are dropped: `Regular` says when this is right, and `identity_iff_regular`
that the identity is `host/path` just then.
-/

namespace AgentPalace.Ingest

def lowerChars (s : List Char) : List Char := s.map Char.toLower

def trimEndSlashes (s : List Char) : List Char := s.rdropWhile (· = '/')

def trimStartSlashes (s : List Char) : List Char := s.dropWhile (· = '/')

def dotGit : List Char := ".git".toList

def stripGit (s : List Char) : List Char :=
  if dotGit.isSuffixOf s then s.take (s.length - dotGit.length) else s

def schemeMark : List Char := "://".toList

def afterText (needle : List Char) : List Char → Option (List Char)
  | [] => none
  | c :: cs =>
    if needle.isPrefixOf (c :: cs) then some ((c :: cs).drop needle.length) else afterText needle cs

/-- `host:path`, what follows the `@` of the SCP style. -/
def scpIdentity (afterAt : List Char) : Option (List Char) :=
  match splitOnceAt ':' afterAt with
  | some (host, path) =>
    let host := lowerChars host
    let path := trimStartSlashes path
    if path = [] ∨ host = [] then none else some (host ++ '/' :: path)
  | none => none

def hostOf (hostPort : List Char) : List Char :=
  match splitOnceAt ':' hostPort with
  | some (host, _) => host
  | none => hostPort

/-- `host[:port]/path`, without a user. -/
def hostIdentity (hostAndRest : List Char) : Option (List Char) :=
  let (hostPort, path) := (splitOnceAt '/' hostAndRest).getD (hostAndRest, [])
  let host := lowerChars (hostOf hostPort)
  let path := trimStartSlashes path
  if host = [] then none
  else if path = [] then some host
  else some (host ++ '/' :: path)

/-- `[user@]host[:port]/path`, what follows the scheme. -/
def urlIdentity (afterScheme : List Char) : Option (List Char) :=
  match splitOnceAt '@' afterScheme with
  | some (_, hostAndRest) => hostIdentity hostAndRest
  | none => hostIdentity afterScheme

/-- The identity of a URL without what is stripped from its end. -/
def identityOf (url : List Char) : Option (List Char) :=
  match splitOnceAt '@' url with
  | some (before, afterAt) =>
    if (afterText schemeMark before).isNone then scpIdentity afterAt
    else (afterText schemeMark url).bind urlIdentity
  | none => (afterText schemeMark url).bind urlIdentity

def stripEnd (url : List Char) : List Char := trimEndSlashes (stripGit (trimEndSlashes url))

def normalizeGitRemoteUrl (url : List Char) : Option (List Char) :=
  let url := trimText url
  if url = [] then none
  else if stripEnd url = [] then none
  else identityOf (stripEnd url)

/-- The identity of a repository whose `origin` is printed as `stdout`, if git prints one. -/
def deriveRepoId (stdout : Option (List Char)) (wing : List Char) : List Char :=
  match (stdout.map trimText).filter (· ≠ []) with
  | some url => (normalizeGitRemoteUrl url).getD ("wing:".toList ++ wing)
  | none => "wing:".toList ++ wing

/-! ### Spellings -/

inductive Form where
  /-- `git@host:path`. -/
  | scp
  /-- `scheme://[user@]host[:port]/path`. -/
  | url (scheme : List Char) (user port : Option (List Char))

/-- A remote as it is spelled: `.git` and slashes at the end belong to no path. In the SCP style
`/srv/repo` and `srv/repo` are two paths. -/
structure Remote where
  form : Form
  host : List Char
  path : List Char
  git : Bool
  slashes : Nat
  host_ne : host ≠ []
  host_plain : '/' ∉ host ∧ '@' ∉ host
  path_ne : path ≠ []
  path_back : path.getLast? ≠ some '/' ∧ ¬ dotGit <:+ path
  scheme_plain : ∀ scheme user port, form = .url scheme user port →
    scheme ≠ [] ∧ ∀ c ∈ scheme, isAsciiAlphanumeric c = true
  user_plain : ∀ scheme user port, form = .url scheme (some user) port → '/' ∉ user
  port_plain : ∀ scheme user port, form = .url scheme user (some port) →
    ∀ c ∈ port, c.isDigit = true

namespace Form

def portText : Option (List Char) → List Char
  | some port => ':' :: port
  | none => []

def authority (user port : Option (List Char)) (host : List Char) : List Char :=
  match user with
  | some user => user ++ '@' :: (host ++ portText port)
  | none => host ++ portText port

def front (host : List Char) : Form → List Char
  | scp => "git@".toList ++ host ++ [':']
  | url scheme user port => scheme ++ schemeMark ++ authority user port host ++ ['/']

end Form

namespace Remote

def front (r : Remote) : List Char := r.form.front r.host

def back (r : Remote) : List Char :=
  (if r.git then dotGit else []) ++ List.replicate r.slashes '/'

def text (r : Remote) : List Char := r.front ++ r.path ++ r.back

def identity (r : Remote) : List Char := lowerChars r.host ++ '/' :: r.path

/-- The user and the port end where the first `@` and the first `:` stand. -/
def Plain (r : Remote) : Prop :=
  match r.form with
  | .scp => ':' ∉ r.host
  | .url _ none _ => ':' ∉ r.host ∧ '@' ∉ r.path
  | .url _ (some user) _ => ('@' ∉ user ∧ ':' ∉ r.host) ∨
      -- the user spells the host
      ∃ before host rest, user = before ++ '@' :: (host ++ ':' :: rest) ∧ '@' ∉ before ∧
        ':' ∉ host ∧ lowerChars host = lowerChars r.host

/-- Nothing but `.git` and slashes is stripped from the end. -/
def KeepsEnd (r : Remote) : Prop :=
  r.back ≠ [] ∨ ∀ c, r.path.getLast? = some c → isWhitespace c = false

structure Regular (r : Remote) : Prop where
  plain : r.Plain
  keeps_end : r.KeepsEnd
  front : r.path.head? ≠ some '/'

end Remote

/-! ### What is stripped from the end -/

theorem prefix_stripEnd (s : List Char) : stripEnd s <+: s := by
  have hgit : stripGit (trimEndSlashes s) <+: trimEndSlashes s := by
    unfold stripGit
    split
    · exact List.take_prefix ..
    · exact List.prefix_rfl
  exact (List.rdropWhile_prefix ..).trans (hgit.trans (List.rdropWhile_prefix ..))

theorem trimEndSlashes_append {s : List Char} (h : s.getLast? ≠ some '/') (slashes : Nat) :
    trimEndSlashes (s ++ List.replicate slashes '/') = s := by
  induction slashes with
  | zero =>
    rw [List.replicate_zero, List.append_nil, trimEndSlashes, List.rdropWhile_eq_self_iff]
    intro hne hslash
    rw [List.getLast?_eq_some_getLast hne] at h
    exact h (congrArg some (of_decide_eq_true hslash))
  | succ slashes ih =>
    rw [List.replicate_succ', ← List.append_assoc, trimEndSlashes,
      List.rdropWhile_concat_pos _ _ _ (by simp)]
    exact ih

/-- A suffix without the separator lies behind it. -/
theorem suffix_behind {s front back : List Char} {sep : Char} (h : s <:+ front ++ sep :: back)
    (hsep : sep ∉ s) : s <:+ back := by
  rcases List.suffix_or_suffix_of_suffix h (List.suffix_append front (sep :: back)) with h | h
  · rcases List.suffix_cons_iff.1 h with rfl | h
    · simp at hsep
    · exact h
  · exact absurd (h.subset (by simp)) hsep

theorem stripEnd_append {s : List Char} (hslash : s.getLast? ≠ some '/') (hgit : ¬ dotGit <:+ s)
    (git : Bool) (slashes : Nat) :
    stripEnd (s ++ ((if git then dotGit else []) ++ List.replicate slashes '/')) = s := by
  have hend : trimEndSlashes s = s := by simpa using trimEndSlashes_append hslash 0
  unfold stripEnd
  cases git with
  | false =>
    rw [if_neg (by simp), List.nil_append, trimEndSlashes_append hslash, stripGit,
      if_neg (by simpa using hgit), hend]
  | true =>
    have hlast : (s ++ dotGit).getLast? ≠ some '/' := by
      rw [List.getLast?_append_of_ne_nil _ (by decide)]
      decide
    rw [if_pos rfl, ← List.append_assoc, trimEndSlashes_append hlast, stripGit, if_pos (by simp),
      List.length_append, Nat.add_sub_cancel, List.take_left, hend]

theorem trimText_line {s : List Char} (hne : s ≠ [])
    (hhead : ∀ c, s.head? = some c → isWhitespace c = false) :
    trimText (s ++ ['\n']) = trimText s := by
  have hline : trimStart (s ++ ['\n']) = s ++ ['\n'] := by
    refine trimStart_keep fun c hc => hhead c ?_
    rwa [List.head?_append_of_ne_nil _ hne] at hc
  rw [trimText, trimText, hline, trimStart_keep hhead, List.rdropWhile_concat_pos _ _ _ (by decide)]

theorem stripEnd_trimText_short {s : List Char}
    (hhead : ∀ c, s.head? = some c → isWhitespace c = false) {c : Char}
    (hlast : s.getLast? = some c) (hblank : isWhitespace c = true) :
    stripEnd (trimText s) <+: s ∧ (stripEnd (trimText s)).length < s.length := by
  obtain ⟨init, rfl⟩ : ∃ init, s = init ++ [c] := ⟨_, (List.dropLast_append_getLast? c hlast).symm⟩
  have htrim : trimText (init ++ [c]) <+: init := by
    rw [trimText, trimStart_keep hhead, List.rdropWhile_concat_pos _ _ _ hblank]
    exact List.rdropWhile_prefix ..
  have hstrip := (prefix_stripEnd _).trans htrim
  refine ⟨hstrip.trans (List.prefix_append ..), ?_⟩
  have := hstrip.length_le
  simp only [List.length_append, List.length_singleton]
  omega

/-! ### Host and path -/

theorem toLower_plain {c d : Char} (h : c.toLower = d) (hd : ¬ ('a' ≤ d ∧ d ≤ 'z')) : c = d := by
  by_contra hne
  have hletters : ∀ k < 91, 64 < k →
      'a' ≤ (Char.ofNat k).toLower ∧ (Char.ofNat k).toLower ≤ 'z' := by decide
  have hupper : 65 ≤ c.toNat ∧ c.toNat ≤ 90 := by
    unfold Char.toLower at h
    split at h
    · rename_i hupper
      exact ⟨UInt32.le_iff_toNat_le.1 hupper.1, UInt32.le_iff_toNat_le.1 hupper.2⟩
    · exact absurd h hne
  have hletter := hletters c.toNat (by omega) (by omega)
  rw [Char.ofNat_toNat, h] at hletter
  exact hd hletter

theorem mem_lowerChars {c : Char} (hc : ¬ ('a' ≤ c ∧ c ≤ 'z')) {s : List Char}
    (h : c ∈ lowerChars s) : c ∈ s := by
  obtain ⟨d, hd, hdc⟩ := List.mem_map.1 h
  exact toLower_plain hdc hc ▸ hd

theorem hostOf_append {host : List Char} (h : ':' ∉ host) {rest : List Char}
    (hrest : rest = [] ∨ ∃ port, rest = ':' :: port) : hostOf (host ++ rest) = host := by
  rcases hrest with rfl | ⟨port, rfl⟩
  · rw [List.append_nil, hostOf, splitOnceAt_none h]
  · rw [hostOf, splitOnceAt_append h]

theorem prefix_hostOf (hostPort : List Char) : hostOf hostPort <+: hostPort := by
  by_cases h : ':' ∈ hostPort
  · obtain ⟨host, rest, rfl, hhost⟩ := List.eq_append_cons_of_mem h
    rw [hostOf_append hhost (.inr ⟨rest, rfl⟩)]
    exact List.prefix_append ..
  · simp only [hostOf, splitOnceAt_none h, List.prefix_rfl]

theorem hostIdentity_split {hostPort : List Char} (h : '/' ∉ hostPort) (path : List Char) :
    hostIdentity (hostPort ++ '/' :: path) =
      if lowerChars (hostOf hostPort) = [] then none
      else if trimStartSlashes path = [] then some (lowerChars (hostOf hostPort))
      else some (lowerChars (hostOf hostPort) ++ '/' :: trimStartSlashes path) := by
  unfold hostIdentity
  rw [splitOnceAt_append h]
  rfl

def pathLength (s : List Char) : Nat := (s.dropWhile (· ≠ '/')).length

theorem pathLength_append {front : List Char} (h : '/' ∉ front) (s : List Char) :
    pathLength (front ++ s) = pathLength s := by
  have hall : ∀ c ∈ front, decide (c ≠ '/') = true :=
    fun c hc => decide_eq_true fun heq => h (heq ▸ hc)
  unfold pathLength
  rw [List.dropWhile_append_of_pos hall]

theorem pathLength_le (s : List Char) : pathLength s ≤ s.length :=
  (List.dropWhile_suffix _).length_le

theorem pathLength_plain {s : List Char} (h : '/' ∉ s) : pathLength s = 0 := by
  have := pathLength_append h []
  rwa [List.append_nil] at this

theorem pathLength_behind (front s : List Char) : pathLength s ≤ pathLength (front ++ s) := by
  by_cases h : '/' ∈ front
  · obtain ⟨before, rest, rfl, hbefore⟩ := List.eq_append_cons_of_mem h
    rw [List.append_assoc, pathLength_append hbefore]
    have := pathLength_le s
    simp only [pathLength, List.cons_append, ne_eq, not_true_eq_false, decide_false,
      Bool.false_eq_true, not_false_eq_true, List.dropWhile_cons_of_neg, List.length_cons,
      List.length_append] at this ⊢
    omega
  · rw [pathLength_append h]

theorem not_mem_lowerChars_hostOf {hostPort : List Char} (h : '/' ∉ hostPort) :
    '/' ∉ lowerChars (hostOf hostPort) := fun hmem =>
  h ((prefix_hostOf hostPort).subset (mem_lowerChars (by decide) hmem))

theorem pathLength_hostIdentity {s identity : List Char} (h : hostIdentity s = some identity) :
    pathLength identity ≤ pathLength s := by
  by_cases hslash : '/' ∈ s
  · obtain ⟨hostPort, path, rfl, hhost⟩ := List.eq_append_cons_of_mem hslash
    rw [hostIdentity_split hhost] at h
    have hplain := not_mem_lowerChars_hostOf hhost
    rw [pathLength_append hhost]
    split at h
    · cases h
    split at h
    · cases h
      rw [pathLength_plain hplain]
      exact Nat.zero_le _
    · cases h
      rw [pathLength_append hplain]
      have hle : (trimStartSlashes path).length ≤ path.length := (List.dropWhile_suffix _).length_le
      simpa [pathLength] using hle
  · unfold hostIdentity at h
    rw [splitOnceAt_none hslash] at h
    have hplain := not_mem_lowerChars_hostOf hslash
    simp only [Option.getD_none, trimStartSlashes, List.dropWhile_nil, if_true] at h
    split at h
    · cases h
    · cases h
      rw [pathLength_plain hplain]
      exact Nat.zero_le _

theorem pathLength_urlIdentity {s identity : List Char} (h : urlIdentity s = some identity) :
    pathLength identity ≤ pathLength s := by
  by_cases hat : '@' ∈ s
  · obtain ⟨user, rest, rfl, huser⟩ := List.eq_append_cons_of_mem hat
    rw [urlIdentity, splitOnceAt_append huser] at h
    calc pathLength identity ≤ pathLength rest := pathLength_hostIdentity h
      _ ≤ pathLength ((user ++ ['@']) ++ rest) := pathLength_behind ..
      _ = pathLength (user ++ '@' :: rest) := by simp
  · rw [urlIdentity, splitOnceAt_none hat] at h
    exact pathLength_hostIdentity h

theorem lowerChars_ne {host part : List Char} (h : part.length < host.length) :
    lowerChars part ≠ lowerChars host := by
  intro heq
  have := congrArg List.length heq
  simp only [lowerChars, List.length_map] at this
  omega

section

theorem trimStartSlashes_iff {path : List Char} :
    trimStartSlashes path = path ↔ path.head? ≠ some '/' := by
  cases path with
  | nil => simp [trimStartSlashes]
  | cons c path =>
    by_cases hc : c = '/'
    · subst hc
      have hle : (trimStartSlashes path).length ≤ path.length := (List.dropWhile_suffix _).length_le
      refine iff_of_false (fun heq => ?_) (by simp)
      have := congrArg List.length heq
      simp only [trimStartSlashes, decide_true, List.dropWhile_cons_of_pos, List.length_cons]
        at this hle
      omega
    · exact iff_of_true (List.dropWhile_cons_of_neg (by simpa using hc)) (by simpa using hc)

/-- A host and what stands behind the first slash. -/
theorem slash_inj {host host' path path' : List Char} (h : '/' ∉ host) (h' : '/' ∉ host')
    (heq : host ++ '/' :: path = host' ++ '/' :: path') : host = host' ∧ path = path' := by
  have hsplit := splitOnceAt_append h path
  rw [heq, splitOnceAt_append h'] at hsplit
  obtain ⟨hhost, hpath⟩ := Prod.mk.inj (Option.some.inj hsplit)
  exact ⟨hhost.symm, hpath.symm⟩

variable {host path : List Char} (hat : '@' ∉ host) (hpath : path ≠ [])

include hpath in
theorem hostIdentity_iff {hostPort : List Char} (h : '/' ∉ hostPort) (hhost : host ≠ [])
    (hslash : '/' ∉ host) :
    hostIdentity (hostPort ++ '/' :: path) = some (lowerChars host ++ '/' :: path) ↔
      lowerChars (hostOf hostPort) = lowerChars host ∧ path.head? ≠ some '/' := by
  have hplain := not_mem_lowerChars_hostOf h
  have hplain' : '/' ∉ lowerChars host := fun hmem => hslash (mem_lowerChars (by decide) hmem)
  rw [hostIdentity_split h, ← trimStartSlashes_iff]
  constructor
  · intro heq
    split at heq
    · cases heq
    split at heq
    · rw [Option.some.inj heq] at hplain
      simp at hplain
    · exact slash_inj hplain hplain' (Option.some.inj heq)
  · rintro ⟨heq, htrim⟩
    rw [heq, htrim, if_neg (by simpa [lowerChars] using hhost), if_neg hpath]

theorem lowerChars_hostOf_iff {rest : List Char} (hrest : rest = [] ∨ ∃ port, rest = ':' :: port) :
    lowerChars (hostOf (host ++ rest)) = lowerChars host ↔ ':' ∉ host := by
  constructor
  · intro heq hcolon
    obtain ⟨part, tail, rfl, hpart⟩ := List.eq_append_cons_of_mem hcolon
    rw [List.append_assoc, List.cons_append, hostOf_append hpart (.inr ⟨_, rfl⟩)] at heq
    exact lowerChars_ne (by simp) heq
  · intro h
    rw [hostOf_append h hrest]

include hat in
theorem lowerChars_hostOf_user_iff {user rest : List Char} :
    lowerChars (hostOf (user ++ '@' :: rest)) = lowerChars host ↔
      ∃ part tail, user = part ++ ':' :: tail ∧ ':' ∉ part ∧ lowerChars part = lowerChars host := by
  constructor
  · intro heq
    by_cases hcolon : ':' ∈ user
    · obtain ⟨part, tail, rfl, hpart⟩ := List.eq_append_cons_of_mem hcolon
      rw [List.append_assoc, List.cons_append, hostOf_append hpart (.inr ⟨_, rfl⟩)] at heq
      exact ⟨part, tail, rfl, hpart, heq⟩
    · refine absurd (mem_lowerChars (by decide) ?_) hat
      rw [← heq]
      refine List.mem_map.2 ⟨'@', ?_, rfl⟩
      by_cases hrest : ':' ∈ rest
      · obtain ⟨part, tail, rfl, hpart⟩ := List.eq_append_cons_of_mem hrest
        have hsplit :
            user ++ '@' :: (part ++ ':' :: tail) = (user ++ '@' :: part) ++ ':' :: tail := by simp
        rw [hsplit, hostOf_append (by simp [hcolon, hpart]) (.inr ⟨_, rfl⟩)]
        simp
      · rw [hostOf, splitOnceAt_none (by simp [hcolon, hrest])]
        simp
  · rintro ⟨part, tail, rfl, hpart, heq⟩
    rw [List.append_assoc, List.cons_append, hostOf_append hpart (.inr ⟨_, rfl⟩), heq]

end

namespace Remote

variable (r : Remote)

theorem pathLength_identity : pathLength r.identity = r.path.length + 1 := by
  have hplain : '/' ∉ lowerChars r.host := fun h => r.host_plain.1 (mem_lowerChars (by decide) h)
  rw [identity, pathLength_append hplain]
  rfl

/-! ### SCP style -/

theorem scpIdentity_iff :
    scpIdentity (r.host ++ ':' :: r.path) = some r.identity ↔
      ':' ∉ r.host ∧ r.path.head? ≠ some '/' := by
  have hpathLower : lowerChars r.host ≠ [] := by simpa [lowerChars] using r.host_ne
  have hslash' : '/' ∉ lowerChars r.host := fun h => r.host_plain.1 (mem_lowerChars (by decide) h)
  rw [← trimStartSlashes_iff]
  by_cases hcolon : ':' ∈ r.host
  · refine iff_of_false (fun heq => ?_) fun h => h.1 hcolon
    obtain ⟨part, tail, hhost, hpart⟩ := List.eq_append_cons_of_mem hcolon
    have hsplit : splitOnceAt ':' (r.host ++ ':' :: r.path) =
        some (part, tail ++ ':' :: r.path) := by
      rw [hhost, List.append_assoc, List.cons_append, splitOnceAt_append hpart]
    have hslash : '/' ∉ lowerChars part := fun h =>
      r.host_plain.1 (by rw [hhost]; exact List.mem_append_left _ (mem_lowerChars (by decide) h))
    simp only [scpIdentity, hsplit] at heq
    split at heq
    · cases heq
    · refine lowerChars_ne ?_ (slash_inj hslash hslash' (Option.some.inj heq)).1
      rw [hhost]
      simp
  · simp only [scpIdentity, splitOnceAt_append hcolon]
    constructor
    · intro heq
      split at heq
      · cases heq
      · exact ⟨hcolon, (slash_inj hslash' hslash' (Option.some.inj heq)).2⟩
    · rintro ⟨_, htrim⟩
      rw [htrim, if_neg (by simp [r.path_ne, hpathLower])]
      rfl

theorem length_scpIdentity {s identity : List Char} (h : scpIdentity s = some identity) :
    identity.length ≤ s.length := by
  by_cases hcolon : ':' ∈ s
  · obtain ⟨host, path, rfl, hhost⟩ := List.eq_append_cons_of_mem hcolon
    simp only [scpIdentity, splitOnceAt_append hhost] at h
    split at h
    · cases h
    · cases h
      have hle : (trimStartSlashes path).length ≤ path.length := (List.dropWhile_suffix _).length_le
      simp only [lowerChars, List.length_append, List.length_map, List.length_cons]
      omega
  · rw [scpIdentity, splitOnceAt_none hcolon] at h
    cases h

/-! ### URL style -/

section

variable {scheme : List Char} {user port : Option (List Char)}
  (hform : r.form = .url scheme user port)

include hform in
theorem portText_plain : '/' ∉ Form.portText port ∧ '@' ∉ Form.portText port := by
  cases port with
  | none => exact ⟨List.not_mem_nil, List.not_mem_nil⟩
  | some port =>
    have hport := r.port_plain scheme user port hform
    have hne : ∀ c : Char, c ≠ ':' → c.isDigit = false → c ∉ ':' :: port := by
      intro c hcolon hdigit hmem
      rcases List.mem_cons.1 hmem with h | h
      · exact hcolon h
      · rw [hport c h] at hdigit
        cases hdigit
    exact ⟨hne '/' (by decide) (by decide), hne '@' (by decide) (by decide)⟩

theorem portText_cases (port : Option (List Char)) :
    Form.portText port = [] ∨ ∃ digits, Form.portText port = ':' :: digits := by
  cases port with
  | none => exact .inl rfl
  | some port => exact .inr ⟨port, rfl⟩

include hform in
theorem hostIdentity_port_iff :
    hostIdentity (r.host ++ Form.portText port ++ '/' :: r.path) = some r.identity ↔
      ':' ∉ r.host ∧ r.path.head? ≠ some '/' := by
  have hport := (r.portText_plain hform).1
  have hplain : '/' ∉ r.host ++ Form.portText port := by simp [r.host_plain.1, hport]
  rw [identity, hostIdentity_iff r.path_ne hplain r.host_ne r.host_plain.1,
    lowerChars_hostOf_iff (portText_cases port)]

include hform in
theorem urlIdentity_iff :
    urlIdentity (Form.authority user port r.host ++ '/' :: r.path) = some r.identity ↔
      r.Plain ∧ r.path.head? ≠ some '/' := by
  have hport := r.portText_plain hform
  simp only [Plain, hform]
  cases user with
  | none =>
    by_cases hat : '@' ∈ r.path
    · refine ⟨fun heq => ?_, fun h => absurd hat h.1.2⟩
      obtain ⟨before, rest, hpath, hbefore⟩ := List.eq_append_cons_of_mem hat
      have hsplit : Form.authority none port r.host ++ '/' :: r.path =
          (r.host ++ Form.portText port ++ '/' :: before) ++ '@' :: rest := by
        simp [Form.authority, hpath]
      have hplain : '@' ∉ r.host ++ Form.portText port ++ '/' :: before := by
        simp [r.host_plain.2, hport.2, hbefore]
      rw [hsplit, urlIdentity, splitOnceAt_append hplain] at heq
      have hlong := pathLength_hostIdentity heq
      have hshort := pathLength_le rest
      have hlength := congrArg List.length hpath
      simp only [pathLength_identity, List.length_append, List.length_cons] at hlong hlength
      omega
    · have hplain : '@' ∉ r.host ++ Form.portText port ++ '/' :: r.path := by
        simp [r.host_plain.2, hport.2, hat]
      have hshape : Form.authority none port r.host = r.host ++ Form.portText port := rfl
      rw [hshape, urlIdentity, splitOnceAt_none hplain, r.hostIdentity_port_iff hform]
      simp [hat]
  | some user =>
    have hslash := r.user_plain scheme user port hform
    have hshape : Form.authority (some user) port r.host ++ '/' :: r.path =
        user ++ '@' :: (r.host ++ Form.portText port ++ '/' :: r.path) := by
      simp [Form.authority]
    by_cases hat : '@' ∈ user
    · obtain ⟨before, rest, huser, hbefore⟩ := List.eq_append_cons_of_mem hat
      have hplain : '/' ∉ rest ++ '@' :: (r.host ++ Form.portText port) := by
        have hrest : '/' ∉ rest := fun h => hslash (by rw [huser]; simp [h])
        simp [hrest, r.host_plain.1, hport.1]
      have hsplit : user ++ '@' :: (r.host ++ Form.portText port ++ '/' :: r.path) =
          before ++ '@' :: (rest ++ '@' :: (r.host ++ Form.portText port) ++ '/' :: r.path) := by
        simp [huser]
      rw [hshape, hsplit, urlIdentity, splitOnceAt_append hbefore, identity,
        hostIdentity_iff r.path_ne hplain r.host_ne r.host_plain.1,
        lowerChars_hostOf_user_iff r.host_plain.2]
      refine and_congr_left fun _ => ?_
      constructor
      · rintro ⟨part, tail, rfl, hpart, heq⟩
        exact .inr ⟨before, part, tail, huser, hbefore, hpart, heq⟩
      · rintro (⟨hnone, _⟩ | ⟨before', part, tail, huser', hbefore', hpart, heq⟩)
        · exact absurd hat hnone
        · have hfirst := splitOnceAt_append hbefore rest
          rw [← huser, huser', splitOnceAt_append hbefore'] at hfirst
          exact ⟨part, tail, (Prod.mk.inj (Option.some.inj hfirst)).2.symm, hpart, heq⟩
    · rw [hshape, urlIdentity, splitOnceAt_append hat, r.hostIdentity_port_iff hform]
      refine and_congr_left fun _ => ?_
      constructor
      · exact fun hcolon => .inl ⟨hat, hcolon⟩
      · rintro (⟨_, hcolon⟩ | ⟨before, part, tail, rfl, _⟩)
        · exact hcolon
        · simp at hat

end

/-! ### Which style a text has -/

theorem afterText_scheme {scheme : List Char} (h : ':' ∉ scheme) (rest : List Char) :
    afterText schemeMark (scheme ++ schemeMark ++ rest) = some rest := by
  induction scheme with
  | nil => rfl
  | cons c scheme ih =>
    have hc : ':' ≠ c := fun heq => h (heq ▸ List.mem_cons_self)
    have hmark : schemeMark.isPrefixOf (c :: (scheme ++ schemeMark ++ rest)) = false := by
      simp [schemeMark, List.isPrefixOf, hc]
    rw [List.cons_append, List.cons_append, afterText, if_neg (by rw [hmark]; decide)]
    exact ih fun hmem => h (List.mem_cons_of_mem _ hmem)

theorem infix_of_afterText {needle s rest : List Char} (h : afterText needle s = some rest) :
    needle <:+: s := by
  induction s with
  | nil => cases h
  | cons c s ih =>
    rw [afterText] at h
    split at h
    · rename_i hneedle
      exact (List.isPrefixOf_iff_prefix.1 hneedle).isInfix
    · exact (ih h).trans (List.suffix_cons ..).isInfix

section

variable {scheme : List Char} (hscheme : ∀ c ∈ scheme, isAsciiAlphanumeric c = true)

include hscheme in
theorem not_mem_scheme {c : Char} (h : isAsciiAlphanumeric c = false) : c ∉ scheme := by
  intro hmem
  rw [hscheme c hmem] at h
  cases h

include hscheme in
theorem identityOf_url (rest : List Char) :
    identityOf (scheme ++ schemeMark ++ rest) = urlIdentity rest := by
  have hcolon : ':' ∉ scheme := not_mem_scheme hscheme (by decide)
  have hplain : '@' ∉ scheme := not_mem_scheme hscheme (by decide)
  have hat : '@' ∉ scheme ++ schemeMark := by simp [hplain, schemeMark]
  have hafter := afterText_scheme hcolon rest
  unfold identityOf
  by_cases hrest : '@' ∈ rest
  · obtain ⟨before, behind, rfl, hbefore⟩ := List.eq_append_cons_of_mem hrest
    have hfirst : '@' ∉ scheme ++ schemeMark ++ before := by
      simp only [List.mem_append, not_or] at hat ⊢
      exact ⟨hat, hbefore⟩
    have hsplit := splitOnceAt_append hfirst behind
    rw [List.append_assoc (scheme ++ schemeMark)] at hsplit
    simp only [hsplit, afterText_scheme hcolon before, hafter]
    rfl
  · have hnone : '@' ∉ scheme ++ schemeMark ++ rest := by
      simp only [List.mem_append, not_or] at hat ⊢
      exact ⟨hat, hrest⟩
    rw [splitOnceAt_none hnone, hafter]
    rfl

include hscheme in
theorem identityOf_short {s : List Char} (hs : s <+: scheme ++ schemeMark)
    (hlt : s.length < (scheme ++ schemeMark).length) : identityOf s = none := by
  have hat : '@' ∉ s := by
    intro hmem
    have hfront := hs.subset hmem
    have hat : '@' ∉ scheme := not_mem_scheme hscheme (by decide)
    simp [hat, schemeMark] at hfront
  have hshort : s <+: scheme ++ [':', '/'] := by
    refine List.prefix_of_prefix_length_le hs ?_ ?_
    · exact ⟨['/'], by simp [schemeMark]⟩
    · simp only [List.length_append, schemeMark] at hlt ⊢
      exact Nat.le_of_lt_succ hlt
  have hnone : afterText schemeMark s = none := by
    refine Option.eq_none_iff_forall_ne_some.2 fun rest hrest => ?_
    have hcount := ((infix_of_afterText hrest).sublist.trans hshort.sublist).count_le '/'
    have hzero : scheme.count '/' = 0 :=
      List.count_eq_zero.2 (not_mem_scheme hscheme (by decide))
    rw [List.count_append, hzero] at hcount
    exact absurd hcount (by decide)
  rw [identityOf, splitOnceAt_none hat, hnone]
  rfl

end

theorem identityOf_scp (rest : List Char) :
    identityOf ("git@".toList ++ rest) = scpIdentity rest := by
  have hsplit := @splitOnceAt_append '@' "git".toList (by decide) rest
  have hshape : "git@".toList ++ rest = "git".toList ++ '@' :: rest := rfl
  simp only [identityOf, hshape, hsplit]
  rfl

theorem identityOf_front_iff :
    identityOf (r.front ++ r.path) = some r.identity ↔ r.Plain ∧ r.path.head? ≠ some '/' := by
  cases hform : r.form with
  | scp =>
    have hshape : r.front ++ r.path = "git@".toList ++ (r.host ++ ':' :: r.path) := by
      simp [front, hform, Form.front]
    rw [hshape, identityOf_scp, r.scpIdentity_iff]
    simp [Plain, hform]
  | url scheme user port =>
    have hshape : r.front ++ r.path =
        scheme ++ schemeMark ++ (Form.authority user port r.host ++ '/' :: r.path) := by
      simp [front, hform, Form.front]
    rw [hshape, identityOf_url (r.scheme_plain scheme user port hform).2, r.urlIdentity_iff hform]

theorem prefix_append_cases {s front back : List Char} (h : s <+: front ++ back) :
    (s <+: front ∧ s.length < front.length) ∨ ∃ rest, s = front ++ rest ∧ rest <+: back := by
  by_cases hlt : s.length < front.length
  · exact .inl ⟨List.prefix_of_prefix_length_le h (List.prefix_append ..) hlt.le, hlt⟩
  · obtain ⟨rest, rfl⟩ :=
      List.prefix_of_prefix_length_le (List.prefix_append front back) h (Nat.not_lt.1 hlt)
    exact .inr ⟨rest, rfl, (List.prefix_append_right_inj front).1 h⟩

theorem pathLength_cut {s front back : List Char} (hfront : '/' ∉ front) (hback : back ≠ [])
    (h : s <+: front ++ back) (hlt : s.length < (front ++ back).length) :
    pathLength s < back.length := by
  rcases prefix_append_cases h with ⟨hs, _⟩ | ⟨rest, rfl, _⟩
  · rw [pathLength_plain fun hmem => hfront (hs.subset hmem)]
    exact List.length_pos_iff.2 hback
  · rw [pathLength_append hfront]
    have := pathLength_le rest
    simp only [List.length_append] at hlt
    omega

theorem slash_not_mem_authority {scheme : List Char} {user port : Option (List Char)}
    (hform : r.form = .url scheme user port) : '/' ∉ Form.authority user port r.host := by
  have hport := (r.portText_plain hform).1
  cases user with
  | none => simp [Form.authority, r.host_plain.1, hport]
  | some user =>
    have huser := r.user_plain scheme user port hform
    simp [Form.authority, huser, r.host_plain.1, hport]

theorem identityOf_cut {s : List Char} (hs : s <+: r.front ++ r.path)
    (hlt : s.length < (r.front ++ r.path).length) : identityOf s ≠ some r.identity := by
  intro heq
  cases hform : r.form with
  | scp =>
    have hshape : r.front ++ r.path = "git@".toList ++ (r.host ++ ':' :: r.path) := by
      simp [front, hform, Form.front]
    rw [hshape] at hs hlt
    rcases prefix_append_cases hs with ⟨hgit, hshort⟩ | ⟨rest, rfl, _⟩
    · have hnone : identityOf s = none := by
        have hcut : s = "git@".toList.take s.length := List.prefix_iff_eq_take.1 hgit
        have hsmall : ∀ n < 4, identityOf ("git@".toList.take n) = none := by decide
        rw [hcut]
        exact hsmall _ hshort
      rw [hnone] at heq
      cases heq
    · rw [identityOf_scp] at heq
      have hle := length_scpIdentity heq
      simp only [identity, lowerChars, List.length_append, List.length_map, List.length_cons]
        at hle hlt
      omega
  | url scheme user port =>
    have hscheme := (r.scheme_plain scheme user port hform).2
    have hshape : r.front ++ r.path =
        scheme ++ schemeMark ++ (Form.authority user port r.host ++ '/' :: r.path) := by
      simp [front, hform, Form.front]
    rw [hshape] at hs hlt
    rcases prefix_append_cases hs with ⟨hmark, hshort⟩ | ⟨rest, rfl, hrest⟩
    · rw [identityOf_short hscheme hmark hshort] at heq
      cases heq
    · rw [identityOf_url hscheme] at heq
      have hcut := pathLength_cut (r.slash_not_mem_authority hform) (List.cons_ne_nil '/' r.path)
        hrest (by simpa using hlt)
      have hle := pathLength_urlIdentity heq
      rw [pathLength_identity] at hle
      exact absurd hcut (Nat.not_lt.2 hle)

/-! ### The text of a remote -/

theorem isWhitespace_alphanumeric {c : Char} (h : isAsciiAlphanumeric c = true) :
    isWhitespace c = false := by
  have hall : ∀ n < 128, isAsciiAlphanumeric (Char.ofNat n) = true →
      isWhitespace (Char.ofNat n) = false := by decide
  have hchar := hall c.toNat (lt_of_isAsciiAlphanumeric h)
  rw [Char.ofNat_toNat] at hchar
  exact hchar h

theorem front_head {c : Char} {back : List Char} (h : (r.front ++ back).head? = some c) :
    isWhitespace c = false := by
  cases hform : r.form with
  | scp =>
    have hshape : r.front ++ back = 'g' :: ("it@".toList ++ (r.host ++ ':' :: back)) := by
      simp [front, hform, Form.front]
    rw [hshape] at h
    cases h
    decide
  | url scheme user port =>
    obtain ⟨hne, hscheme⟩ := r.scheme_plain scheme user port hform
    obtain ⟨d, scheme, rfl⟩ := List.exists_cons_of_ne_nil hne
    have hd : d = c := by simpa [front, hform, Form.front] using h
    exact isWhitespace_alphanumeric (hd ▸ hscheme d List.mem_cons_self)

theorem front_last : (r.front ++ r.path).getLast? = r.path.getLast? :=
  List.getLast?_append_of_ne_nil _ r.path_ne

theorem front_keeps : (r.front ++ r.path).getLast? ≠ some '/' ∧ ¬ dotGit <:+ r.front ++ r.path := by
  refine ⟨by rw [front_last]; exact r.path_back.1, fun h => r.path_back.2 ?_⟩
  obtain ⟨init, sep, hfront, hsep⟩ : ∃ init sep, r.front = init ++ [sep] ∧ sep ∉ dotGit := by
    cases hform : r.form with
    | scp => exact ⟨"git@".toList ++ r.host, ':', by simp [front, hform, Form.front], by decide⟩
    | url scheme user port =>
      exact ⟨scheme ++ schemeMark ++ Form.authority user port r.host, '/',
        by simp [front, hform, Form.front], by decide⟩
  rw [hfront, List.append_assoc] at h
  exact suffix_behind h hsep

theorem back_last {c : Char} (h : r.back.getLast? = some c) : isWhitespace c = false := by
  have hmem := List.mem_of_getLast? h
  have hall : dotGit.all (fun d => !isWhitespace d) = true := by rfl
  rcases List.mem_append.1 hmem with hgit | hslash
  · split at hgit
    · simpa using List.all_eq_true.1 hall c hgit
    · cases hgit
  · rw [List.eq_of_mem_replicate hslash]
    decide

theorem text_head {c : Char} (h : r.text.head? = some c) : isWhitespace c = false := by
  rw [text, List.append_assoc] at h
  exact r.front_head h

theorem trimText_text (h : r.KeepsEnd) : trimText r.text = r.text := by
  refine trimText_keep (fun c hc => r.text_head hc) fun c hc => ?_
  by_cases hback : r.back = []
  · rw [text, hback, List.append_nil, front_last] at hc
    exact h.resolve_left (fun hne => hne hback) c hc
  · rw [text, List.getLast?_append_of_ne_nil _ hback] at hc
    exact r.back_last hc

theorem normalize_text (h : r.KeepsEnd) :
    normalizeGitRemoteUrl r.text = identityOf (r.front ++ r.path) := by
  have hstrip : stripEnd r.text = r.front ++ r.path :=
    stripEnd_append r.front_keeps.1 r.front_keeps.2 r.git r.slashes
  have hne : r.front ++ r.path ≠ [] := by simp [r.path_ne]
  have htext : r.text ≠ [] := by simp [text, r.path_ne]
  simp only [normalizeGitRemoteUrl, r.trimText_text h, hstrip]
  rw [if_neg htext, if_neg hne]

theorem normalize_cut (h : ¬ r.KeepsEnd) : normalizeGitRemoteUrl r.text ≠ some r.identity := by
  have hback : r.back = [] := by
    by_contra hne
    exact h (.inl hne)
  obtain ⟨c, hlast, hblank⟩ : ∃ c, r.path.getLast? = some c ∧ isWhitespace c = true := by
    by_contra hnone
    refine h (.inr fun c hc => ?_)
    by_contra hblank
    exact hnone ⟨c, hc, by simpa using hblank⟩
  have htext : r.text = r.front ++ r.path := by rw [text, hback, List.append_nil]
  obtain ⟨hbegins, hshort⟩ := stripEnd_trimText_short (fun c hc => r.front_head hc)
    (r.front_last.trans hlast) hblank
  intro heq
  rw [htext] at heq
  simp only [normalizeGitRemoteUrl] at heq
  split at heq
  · cases heq
  split at heq
  · cases heq
  exact r.identityOf_cut hbegins hshort heq

theorem normalize_iff : normalizeGitRemoteUrl r.text = some r.identity ↔ r.Regular := by
  by_cases h : r.KeepsEnd
  · rw [r.normalize_text h, r.identityOf_front_iff]
    exact ⟨fun hplain => ⟨hplain.1, h, hplain.2⟩, fun hregular => ⟨hregular.plain, hregular.front⟩⟩
  · exact ⟨fun heq => absurd heq (r.normalize_cut h), fun hregular => absurd hregular.keeps_end h⟩

theorem deriveRepoId_text {r : Remote} (h : r.Regular) (wing : List Char) :
    deriveRepoId (some (r.text ++ ['\n'])) wing = r.identity := by
  have hne : r.text ≠ [] := by simp [text, r.path_ne]
  have hline : trimText (r.text ++ ['\n']) = r.text :=
    (trimText_line hne fun c hc => r.text_head hc).trans (r.trimText_text h.keeps_end)
  simp only [deriveRepoId, Option.map_some, hline, Option.filter_some, ne_eq, hne,
    not_false_eq_true, decide_true, if_true, (normalize_iff r).2 h, Option.getD_some]

theorem identity_inj {r r' : Remote} :
    r.identity = r'.identity ↔ lowerChars r.host = lowerChars r'.host ∧ r.path = r'.path := by
  have hslash : ∀ q : Remote, '/' ∉ lowerChars q.host :=
    fun q h => q.host_plain.1 (mem_lowerChars (by decide) h)
  constructor
  · exact slash_inj (hslash r) (hslash r')
  · rintro ⟨hhost, hpath⟩
    rw [identity, identity, hhost, hpath]

/-- A spelling has the identity `host/path` just when it is regular, and the regular
spellings of one host and one path are the ones that share a repository id. -/
theorem identity_iff_regular (r : Remote) :
    (normalizeGitRemoteUrl r.text = some r.identity ↔ r.Regular) ∧
      ∀ r' : Remote, r.Regular → r'.Regular → ∀ wing,
        (deriveRepoId (some (r.text ++ ['\n'])) wing =
            deriveRepoId (some (r'.text ++ ['\n'])) wing ↔
          lowerChars r.host = lowerChars r'.host ∧ r.path = r'.path) := by
  refine ⟨r.normalize_iff, fun r' hr hr' wing => ?_⟩
  rw [deriveRepoId_text hr, deriveRepoId_text hr', identity_inj]

def githubRemote (path : List Char) (hne : path ≠ [])
    (hback : path.getLast? ≠ some '/' ∧ ¬ dotGit <:+ path) : Remote where
  form := .url "https".toList none none
  host := "github.com".toList
  path := path
  git := false
  slashes := 0
  host_ne := by decide
  host_plain := by decide
  path_ne := hne
  path_back := hback
  scheme_plain := by
    rintro _ _ _ ⟨⟩
    have hall : "https".toList.all isAsciiAlphanumeric = true := by rfl
    exact ⟨by decide, List.all_eq_true.1 hall⟩
  user_plain := by
    rintro _ _ _ ⟨⟩
  port_plain := by
    rintro _ _ _ ⟨⟩

def acmeRemote : Remote :=
  githubRemote "acme/repo".toList (by decide) (by decide)

theorem acmeRemote_regular : acmeRemote.Regular := by
  have hplain : ':' ∉ "github.com".toList ∧ '@' ∉ "acme/repo".toList := by decide
  refine ⟨hplain, .inr ?_, by decide⟩
  rintro c ⟨⟩
  decide

theorem identity_iff_regular_sample :
    normalizeGitRemoteUrl acmeRemote.text = some acmeRemote.identity ∧
      (deriveRepoId (some (acmeRemote.text ++ ['\n'])) [] =
          deriveRepoId (some (acmeRemote.text ++ ['\n'])) [] ↔
        lowerChars acmeRemote.host = lowerChars acmeRemote.host ∧
          acmeRemote.path = acmeRemote.path) := by
  obtain ⟨hiff, hshare⟩ := identity_iff_regular acmeRemote
  exact ⟨hiff.2 acmeRemote_regular, hshare acmeRemote acmeRemote_regular acmeRemote_regular []⟩

/-- An `@` in the path is taken for the end of a user, and what stands before it is lost. -/
theorem versioned_collide :
    ¬ (∀ r : Remote, normalizeGitRemoteUrl r.text = some r.identity) ∧
      ¬ ∀ r r' : Remote, lowerChars r.host ≠ lowerChars r'.host ∨ r.path ≠ r'.path →
        normalizeGitRemoteUrl r.text ≠ normalizeGitRemoteUrl r'.text := by
  constructor
  · intro h
    have := h (githubRemote "acme/repo@v2".toList (by decide) (by decide))
    revert this
    decide
  · intro h
    refine h (githubRemote "acme/repo@v2".toList (by decide) (by decide))
      (githubRemote "other/tool@v2".toList (by decide) (by decide)) (.inr ?_) ?_
    · decide
    · decide

end Remote

end AgentPalace.Ingest
