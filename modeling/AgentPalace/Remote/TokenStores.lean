import AgentPalace.Remote.Auth
import Mathlib.Logic.Equiv.List

/-!
# The credential stores

A record of a credential store is scoped by the fields of its identity. The
in-memory store and the file compare them one by one (`memory_agrees`,
`file_agrees`); the keychain is asked for a digest of the fields in one text, with
a missing account as an empty one. It is the same map just where no two identities
in use have one text (`stores_agree_iff`).
-/

namespace AgentPalace.Remote

structure IdentityArgs where
  resource : String
  issuer : String
  clientId : String
  account : Option String
  deriving DecidableEq

def OAuthSession.args (session : OAuthSession) : IdentityArgs :=
  ⟨session.resource, session.issuer, session.clientId, session.account⟩

/-- What the stores take from other code: `Url::parse` and `to_string`, the JSON of sessions, and
the digest that names an entry of the keychain. -/
structure StoreHost where
  parseUrl : String → Option String
  encodeAll : List OAuthSession → List UInt8
  decodeAll : List UInt8 → Option (List OAuthSession)
  decodeAll_encodeAll : ∀ sessions, decodeAll (encodeAll sessions) = some sessions
  encode : OAuthSession → String
  decode : String → Option OAuthSession
  decode_encode : ∀ session, decode (encode session) = some session
  sha256 : String → List UInt8
  sha256_inj : ∀ a b, sha256 a = sha256 b → a = b
  base64Url : List UInt8 → String
  base64Url_inj : ∀ a b, base64Url a = base64Url b → a = b

inductive StoreCall where
  | load (args : IdentityArgs)
  | save (session : OAuthSession)
  | clear (args : IdentityArgs)

def StoreCall.args : StoreCall → IdentityArgs
  | load args | clear args => args
  | save session => session.args

inductive StoreAnswer where
  | loaded (result : Except TokenStoreError (Option OAuthSession))
  | saved (result : Except TokenStoreError Unit)
  | cleared (result : Except TokenStoreError ClearOutcome)

def answers {σ : Type} (exec : σ → StoreCall → StoreAnswer × σ) (s : σ) :
    List StoreCall → List StoreAnswer
  | [] => []
  | c :: cs => (exec s c).1 :: answers exec (exec s c).2 cs

namespace StoreHost

variable (k : StoreHost)

def resourceKey (raw : String) : String := (k.parseUrl raw).getD raw

def identity (args : IdentityArgs) : Identity :=
  ⟨k.resourceKey args.resource, args.issuer, args.clientId, args.account⟩

def sameIdentity (session : OAuthSession) (args : IdentityArgs) : Bool :=
  k.resourceKey session.resource == k.resourceKey args.resource && session.issuer == args.issuer &&
    session.clientId == args.clientId && session.account == args.account

/-! ## The stores -/

/-- `InMemoryTokenStore`. -/
def memory (sessions : List OAuthSession) : StoreCall → StoreAnswer × List OAuthSession
  | .load args => (.loaded (.ok (sessions.find? (k.sameIdentity · args))), sessions)
  | .save session =>
    (.saved (.ok ()), sessions.filter (fun x => !k.sameIdentity x session.args) ++ [session])
  | .clear args =>
    let kept := sessions.filter fun x => !k.sameIdentity x args
    (.cleared (.ok (if kept.length = sessions.length then .absent else .removed)), kept)

/-- `read_all`; a missing file is an empty store. -/
def readAll (file : Option (List UInt8)) : Except TokenStoreError (List OAuthSession) :=
  match file with
  | none => .ok []
  | some bytes =>
    match k.decodeAll bytes with
    | some sessions => .ok sessions
    | none => .error ⟨.corrupt, "OAuth credential store was malformed"⟩

/-- `FileTokenStore`, where no file operation fails. -/
def file (file : Option (List UInt8)) : StoreCall → StoreAnswer × Option (List UInt8)
  | .load args =>
    (.loaded ((k.readAll file).map fun sessions => sessions.find? (k.sameIdentity · args)), file)
  | .save session =>
    match k.readAll file with
    | .error e => (.saved (.error e), file)
    | .ok sessions =>
      (.saved (.ok ()), some (k.encodeAll
        (sessions.filter (fun x => !k.sameIdentity x session.args) ++ [session])))
  | .clear args =>
    match k.readAll file with
    | .error e => (.cleared (.error e), file)
    | .ok sessions =>
      let kept := sessions.filter fun x => !k.sameIdentity x args
      if kept.length = sessions.length then (.cleared (.ok .absent), file)
      else (.cleared (.ok .removed), some (k.encodeAll kept))

def entryText (args : IdentityArgs) : String :=
  k.resourceKey args.resource ++ "\n" ++ args.issuer ++ "\n" ++ args.clientId ++ "\n" ++
    args.account.getD ""

def entry (args : IdentityArgs) : String := k.base64Url (k.sha256 (k.entryText args))

/-- `KeyringTokenStore` over the entries of its service. -/
def keyring (entries : String → Option String) :
    StoreCall → StoreAnswer × (String → Option String)
  | .load args =>
    match entries (k.entry args) with
    | none => (.loaded (.ok none), entries)
    | some value =>
      match k.decode value with
      | some session => (.loaded (.ok (some session)), entries)
      | none => (.loaded (.error ⟨.corrupt, "secure credential record was malformed"⟩), entries)
  | .save session =>
    (.saved (.ok ()), Function.update entries (k.entry session.args) (some (k.encode session)))
  | .clear args =>
    match entries (k.entry args) with
    | none => (.cleared (.ok .absent), entries)
    | some _ => (.cleared (.ok .removed), Function.update entries (k.entry args) none)

/-- What the stores are meant to be: a map keyed by the identity. -/
def map (records : Identity → Option OAuthSession) :
    StoreCall → StoreAnswer × (Identity → Option OAuthSession)
  | .load args => (.loaded (.ok (records (k.identity args))), records)
  | .save session =>
    (.saved (.ok ()), Function.update records (k.identity session.args) (some session))
  | .clear args =>
    match records (k.identity args) with
    | none => (.cleared (.ok .absent), records)
    | some _ => (.cleared (.ok .removed), Function.update records (k.identity args) none)

end StoreHost

/-- Two stores whose states are related answer alike. -/
theorem answers_congr {σ τ : Type} {exec : σ → StoreCall → StoreAnswer × σ}
    {exec' : τ → StoreCall → StoreAnswer × τ} {R : σ → τ → Prop} {P : StoreCall → Prop}
    (hstep : ∀ s t c, P c → R s t → (exec s c).1 = (exec' t c).1 ∧ R (exec s c).2 (exec' t c).2)
    {s : σ} {t : τ} (h : R s t) {calls : List StoreCall} (hcalls : ∀ c ∈ calls, P c) :
    answers exec s calls = answers exec' t calls := by
  induction calls generalizing s t with
  | nil => rfl
  | cons c cs ih =>
    obtain ⟨hanswer, hnext⟩ := hstep s t c (hcalls c List.mem_cons_self) h
    rw [answers, answers, hanswer, ih hnext fun x hx => hcalls x (List.mem_cons_of_mem c hx)]

namespace StoreHost

variable {k : StoreHost}

theorem sameIdentity_iff {session : OAuthSession} {args : IdentityArgs} :
    k.sameIdentity session args = true ↔ k.identity session.args = k.identity args := by
  simp [sameIdentity, identity, OAuthSession.args, and_assoc]

/-! ## Lists of sessions -/

def Lists (k : StoreHost) (sessions : List OAuthSession)
    (records : Identity → Option OAuthSession) : Prop :=
  ∀ args, sessions.find? (k.sameIdentity · args) = records (k.identity args)

variable {sessions : List OAuthSession} {records : Identity → Option OAuthSession}

theorem find?_kept {p q : OAuthSession → Bool} (h : ∀ x, q x = true → p x = false) :
    (sessions.filter fun x => !p x).find? q = sessions.find? q := by
  rw [List.find?_filter]
  congr 1
  funext x
  cases hq : q x with
  | false => simp
  | true => simp [h x hq]

theorem find?_dropped {p q : OAuthSession → Bool} (h : ∀ x, q x = true → p x = true) :
    (sessions.filter fun x => !p x).find? q = none := by
  refine List.find?_eq_none.2 fun x hx hq => ?_
  have hkept := (List.mem_filter.1 hx).2
  rw [h x hq] at hkept
  cases hkept

theorem Lists.save (h : k.Lists sessions records) (session : OAuthSession) :
    k.Lists (sessions.filter (fun x => !k.sameIdentity x session.args) ++ [session])
      (Function.update records (k.identity session.args) (some session)) := by
  intro args
  rw [List.find?_append]
  by_cases hsame : k.identity args = k.identity session.args
  · have hself : k.sameIdentity session args = true := sameIdentity_iff.2 hsame.symm
    rw [find?_dropped fun x hx => sameIdentity_iff.2 ((sameIdentity_iff.1 hx).trans hsame), hsame,
      Function.update_self]
    simp [hself]
  · have hself : k.sameIdentity session args = false :=
      Bool.eq_false_iff.2 fun heq => hsame (sameIdentity_iff.1 heq).symm
    have hkeep : ∀ x, k.sameIdentity x args = true → k.sameIdentity x session.args = false :=
      fun x hx => Bool.eq_false_iff.2 fun heq =>
        hsame ((sameIdentity_iff.1 hx).symm.trans (sameIdentity_iff.1 heq))
    rw [find?_kept hkeep, h, Function.update_of_ne hsame]
    simp [hself]

theorem Lists.clear (h : k.Lists sessions records) (args : IdentityArgs) :
    k.Lists (sessions.filter fun x => !k.sameIdentity x args)
      (Function.update records (k.identity args) none) := by
  intro other
  by_cases hsame : k.identity other = k.identity args
  · rw [find?_dropped fun x hx => sameIdentity_iff.2 ((sameIdentity_iff.1 hx).trans hsame), hsame,
      Function.update_self]
  · have hkeep : ∀ x, k.sameIdentity x other = true → k.sameIdentity x args = false :=
      fun x hx => Bool.eq_false_iff.2 fun heq =>
        hsame ((sameIdentity_iff.1 hx).symm.trans (sameIdentity_iff.1 heq))
    rw [find?_kept hkeep, h, Function.update_of_ne hsame]

/-- Nothing is dropped just if there is no record. -/
theorem Lists.length_kept (h : k.Lists sessions records) (args : IdentityArgs) :
    (sessions.filter fun x => !k.sameIdentity x args).length = sessions.length ↔
      records (k.identity args) = none := by
  rw [← h args, List.length_filter_eq_length_iff, List.find?_eq_none]
  simp

theorem Lists.absent (h : k.Lists sessions records) {args : IdentityArgs}
    (hnone : records (k.identity args) = none) :
    (sessions.filter fun x => !k.sameIdentity x args) = sessions :=
  List.filter_eq_self.2 fun x hx => by
    have hfind := List.find?_eq_none.1 ((h args).trans hnone) x hx
    simpa using hfind

theorem memory_step (h : k.Lists sessions records) (c : StoreCall) :
    (k.memory sessions c).1 = (k.map records c).1 ∧
      k.Lists (k.memory sessions c).2 (k.map records c).2 := by
  cases c with
  | load args => exact ⟨congrArg (fun r => StoreAnswer.loaded (Except.ok r)) (h args), h⟩
  | save session => exact ⟨rfl, h.save session⟩
  | clear args =>
    unfold memory map
    dsimp only
    cases hrecord : records (k.identity args) with
    | none =>
      rw [if_pos ((h.length_kept args).2 hrecord)]
      exact ⟨rfl, by rw [h.absent hrecord]; exact h⟩
    | some old =>
      have hlength := mt (h.length_kept args).1 (by rw [hrecord]; simp)
      rw [if_neg hlength]
      exact ⟨rfl, h.clear args⟩

def Holds (k : StoreHost) (content : Option (List UInt8))
    (records : Identity → Option OAuthSession) : Prop :=
  ∃ sessions, k.readAll content = .ok sessions ∧ k.Lists sessions records

theorem readAll_encodeAll (sessions : List OAuthSession) :
    k.readAll (some (k.encodeAll sessions)) = .ok sessions := by
  unfold readAll
  dsimp only
  rw [k.decodeAll_encodeAll]

theorem file_step {content : Option (List UInt8)} (h : k.Holds content records) (c : StoreCall) :
    (k.file content c).1 = (k.map records c).1 ∧
      k.Holds (k.file content c).2 (k.map records c).2 := by
  obtain ⟨sessions, hread, hlists⟩ := h
  cases c with
  | load args =>
    unfold file map
    rw [hread]
    exact ⟨congrArg (fun r => StoreAnswer.loaded (Except.ok r)) (hlists args), sessions, hread, hlists⟩
  | save session =>
    unfold file map
    rw [hread]
    exact ⟨rfl, _, readAll_encodeAll _, hlists.save session⟩
  | clear args =>
    unfold file map
    dsimp only
    rw [hread]
    dsimp only
    cases hrecord : records (k.identity args) with
    | none =>
      rw [if_pos ((hlists.length_kept args).2 hrecord)]
      exact ⟨rfl, sessions, hread, hlists⟩
    | some old =>
      have hlength := mt (hlists.length_kept args).1 (by rw [hrecord]; simp)
      rw [if_neg hlength]
      exact ⟨rfl, _, readAll_encodeAll _, hlists.clear args⟩

/-! ## The keychain -/

/-- Different identities of a set have different texts. -/
def Separate (k : StoreHost) (used : Set IdentityArgs) : Prop :=
  ∀ a ∈ used, ∀ b ∈ used, k.entryText a = k.entryText b → k.identity a = k.identity b

/-- The entries of the identities in use are the records of a map. -/
def Keeps (k : StoreHost) (used : Set IdentityArgs) (entries : String → Option String)
    (records : Identity → Option OAuthSession) : Prop :=
  ∀ a ∈ used, entries (k.entry a) = (records (k.identity a)).map k.encode

theorem entryText_identity {a b : IdentityArgs} (h : k.identity a = k.identity b) :
    k.entryText a = k.entryText b := by
  obtain ⟨hresource, hissuer, hclient, haccount⟩ := Identity.mk.inj h
  unfold entryText
  rw [hresource, hissuer, hclient, haccount]

theorem entry_inj {a b : IdentityArgs} : k.entry a = k.entry b ↔ k.entryText a = k.entryText b :=
  ⟨fun h => k.sha256_inj _ _ (k.base64Url_inj _ _ h), fun h => by rw [entry, entry, h]⟩

theorem Separate.entry_iff {used : Set IdentityArgs} (h : k.Separate used) {a b : IdentityArgs}
    (ha : a ∈ used) (hb : b ∈ used) : k.entry a = k.entry b ↔ k.identity a = k.identity b :=
  entry_inj.trans ⟨h a ha b hb, entryText_identity⟩

theorem Keeps.update {used : Set IdentityArgs} {entries : String → Option String}
    (hused : k.Separate used) (h : k.Keeps used entries records) {args : IdentityArgs}
    (hargs : args ∈ used) (record : Option OAuthSession) :
    k.Keeps used (Function.update entries (k.entry args) (record.map k.encode))
      (Function.update records (k.identity args) record) := by
  intro a ha
  by_cases hsame : k.identity a = k.identity args
  · rw [hsame, (hused.entry_iff ha hargs).2 hsame, Function.update_self, Function.update_self]
  · rw [Function.update_of_ne hsame,
      Function.update_of_ne (mt (hused.entry_iff ha hargs).1 hsame)]
    exact h a ha

theorem keyring_step {used : Set IdentityArgs} {entries : String → Option String}
    (hused : k.Separate used) (h : k.Keeps used entries records) {c : StoreCall}
    (hc : c.args ∈ used) :
    (k.keyring entries c).1 = (k.map records c).1 ∧
      k.Keeps used (k.keyring entries c).2 (k.map records c).2 := by
  cases c with
  | load args =>
    have hentry := h args hc
    unfold keyring map
    dsimp only
    rw [hentry]
    cases hrecord : records (k.identity args) with
    | none => exact ⟨rfl, h⟩
    | some session =>
      rw [Option.map_some]
      dsimp only
      rw [k.decode_encode]
      exact ⟨rfl, h⟩
  | save session => exact ⟨rfl, h.update hused hc (some session)⟩
  | clear args =>
    have hentry := h args hc
    unfold keyring map
    dsimp only
    rw [hentry]
    cases hrecord : records (k.identity args) with
    | none => exact ⟨rfl, h⟩
    | some session => exact ⟨rfl, h.update hused hc none⟩

/-! ## Agreement -/

def mapAnswers (k : StoreHost) : List StoreCall → List StoreAnswer := answers k.map fun _ => none

theorem memory_agrees (k : StoreHost) (calls : List StoreCall) :
    answers k.memory [] calls = k.mapAnswers calls :=
  answers_congr (P := fun _ => True) (fun _ _ c _ h => memory_step h c) (fun _ => rfl)
    fun _ _ => trivial

theorem file_agrees (k : StoreHost) (calls : List StoreCall) :
    answers k.file none calls = k.mapAnswers calls :=
  answers_congr (P := fun _ => True) (fun _ _ c _ h => file_step h c) ⟨[], rfl, fun _ => rfl⟩
    fun _ _ => trivial

theorem keyring_agrees {used : Set IdentityArgs} (hused : k.Separate used)
    {calls : List StoreCall} (hcalls : ∀ c ∈ calls, c.args ∈ used) :
    answers k.keyring (fun _ => none) calls = k.mapAnswers calls :=
  answers_congr (fun _ _ _ hc h => keyring_step hused h hc) (fun _ _ => rfl) hcalls

/-- **The stores are one map**, the keychain just where the identities in use have texts of their
own. -/
theorem stores_agree_iff (k : StoreHost) (used : Set IdentityArgs) :
    (∀ calls : List StoreCall, (∀ c ∈ calls, c.args ∈ used) →
      answers k.memory [] calls = k.mapAnswers calls ∧
        answers k.file none calls = k.mapAnswers calls ∧
        answers k.keyring (fun _ => none) calls = k.mapAnswers calls) ↔ k.Separate used := by
  constructor
  · intro h a ha b hb htext
    by_contra hne
    -- a session saved for the one is loaded for the other
    let session : OAuthSession := ⟨"", none, none, a.resource, a.issuer, a.clientId, a.account⟩
    have hcalls : ∀ c ∈ [StoreCall.save session, .load b], c.args ∈ used := by
      intro c hc
      rcases List.mem_cons.1 hc with rfl | hc
      · exact ha
      · rw [List.mem_singleton.1 hc]
        exact hb
    have hkeyring := (h _ hcalls).2.2
    have hentry : Function.update (fun _ => none) (k.entry a) (some (k.encode session))
        (k.entry b) = some (k.encode session) := by
      rw [entry_inj.2 htext, Function.update_self]
    have hrecord : Function.update (fun _ => none) (k.identity a) (some session)
        (k.identity b) = none := Function.update_of_ne (Ne.symm hne) _ _
    have hargs : session.args = a := rfl
    simp only [answers, mapAnswers, keyring, map, hargs, hentry, hrecord, k.decode_encode] at hkeyring
    simp at hkeyring
  · intro hused calls hcalls
    exact ⟨memory_agrees k calls, file_agrees k calls, keyring_agrees hused hcalls⟩

end StoreHost

/-! ### A host of plain codecs -/

@[reducible] def textCode : Encodable String :=
  Encodable.ofLeftInjection (fun s => s.toList.map Char.toNat)
    (fun codes => some (String.ofList (codes.map Char.ofNat))) fun s => by
      simp [Function.comp_def]

@[reducible] def sessionCode : Encodable OAuthSession :=
  have := textCode
  Encodable.ofLeftInjection
    (fun x => (x.accessToken, x.refreshToken, x.expiresAt, x.resource, x.issuer, x.clientId, x.account))
    (fun (a, b, c, d, e, f, g) => some ⟨a, b, c, d, e, f, g⟩) fun _ => rfl

def byteText (bytes : List UInt8) : String :=
  String.ofList (bytes.map fun byte => Char.ofNat byte.toNat)

theorem byteText_inj (a b : List UInt8) (h : byteText a = byteText b) : a = b := by
  have hback : ∀ n < 256, (Char.ofNat n).toNat = n := by decide +kernel
  refine List.map_injective_iff.2 (fun x y hxy => ?_) (String.ofList_inj.1 h)
  have hcodes := congrArg Char.toNat hxy
  rw [hback _ x.toNat_lt, hback _ y.toNat_lt] at hcodes
  exact UInt8.toNat_inj.1 hcodes

/-- Sessions are stored by a number, and an entry by its text. -/
def plainHost : StoreHost :=
  have := sessionCode
  { parseUrl := some
    encodeAll := fun sessions => List.replicate (Encodable.encode sessions) 0
    decodeAll := fun bytes => Encodable.decode bytes.length
    decodeAll_encodeAll := fun sessions => by rw [List.length_replicate, Encodable.encodek]
    encode := fun session => String.ofList (List.replicate (Encodable.encode session) 'a')
    decode := fun text => Encodable.decode text.toList.length
    decode_encode := fun session => by
      rw [String.toList_ofList, List.length_replicate, Encodable.encodek]
    sha256 := encodeUtf8 ∘ String.toList
    sha256_inj := fun a b h => String.toList_inj.1 (encodeUtf8_injective h)
    base64Url := byteText
    base64Url_inj := byteText_inj }

/-- A session saved without an account is loaded for an empty one. -/
theorem account_shared : ¬ ∀ (k : StoreHost) (calls : List StoreCall),
    answers k.memory [] calls = k.mapAnswers calls ∧
      answers k.file none calls = k.mapAnswers calls ∧
      answers k.keyring (fun _ => none) calls = k.mapAnswers calls := by
  intro h
  have hseparate := (plainHost.stores_agree_iff Set.univ).1 fun calls _ => h plainHost calls
  have hsame := hseparate ⟨"https://hub.example/", "https://id.example", "cli", none⟩ trivial
    ⟨"https://hub.example/", "https://id.example", "cli", some ""⟩ trivial rfl
  exact absurd (congrArg Identity.account hsame) (by decide)

end AgentPalace.Remote
