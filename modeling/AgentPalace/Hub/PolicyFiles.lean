import AgentPalace.Hub.AccessPolicy
import Mathlib.Data.List.Pairwise

/-!
# What the readers accept

`PolicyFile.Accepted` and `BindingsFile.Accepted` say what passes the readers. A
history that passes still does with one event more, if the event starts where
the history ended (`validateAuditChain_push`), and a normalised address is
normal (`normalizeEmail_idem`): so the writers write files the readers accept.
-/

namespace AgentPalace

theorem trim_sublist (s : String) : (trim s).toList.Sublist s.toList := by
  rw [trim, String.toList_ofList, ← List.reverse_sublist, List.reverse_reverse]
  exact (List.dropWhile_sublist _).trans (List.dropWhile_sublist _).reverse

theorem trim_eq_of_lowercase {s t : String} (h : toAsciiLowercase s = toAsciiLowercase t)
    (ht : trim t = t) : trim s = s := by
  have hlen : ∀ s : String, (toAsciiLowercase s).toList.length = s.toList.length := by
    intro s
    simp [toAsciiLowercase]
  have htrim : toAsciiLowercase (trim s) = toAsciiLowercase s := by
    rw [← trim_toAsciiLowercase, h, trim_toAsciiLowercase, ht]
  refine String.toList_inj.1 ((trim_sublist s).eq_of_length ?_)
  rw [← hlen, htrim, hlen]

theorem Issuer.new_str (issuer : Issuer) : Issuer.new issuer.str = .ok issuer := by
  unfold Issuer.new
  split
  · rename_i e h
    rw [issuer.valid] at h
    cases h
  · rfl

theorem Subject.new_str (subject : Subject) : Subject.new subject.str = .ok subject := by
  unfold Subject.new
  split
  · rename_i e h
    rw [subject.valid] at h
    cases h
  · rfl

theorem SubjectBinding.parse_str (binding : SubjectBinding) :
    SubjectBinding.parse binding.issuer.str binding.subject.str = .ok binding := by
  simp [SubjectBinding.parse, Issuer.new_str, Subject.new_str]

theorem EmailAtWrite.new_valid {s : String} (h : validateEmail s = .ok ()) :
    ∃ email, EmailAtWrite.new s = .ok email := by
  unfold EmailAtWrite.new
  split
  · rename_i e he
    rw [h] at he
    cases he
  · exact ⟨_, rfl⟩

namespace Hub

/-! ## Addresses -/

theorem toLower_eq_at {c : Char} : c.toLower = '@' ↔ c = '@' := by
  have := @toLower_congr Bool (fun c => decide (c = '@')) (by decide) c
  simpa using this

theorem controlOrSpace_toLower (c : Char) :
    (isAsciiControl c.toLower || isAsciiWhitespace c.toLower) =
      (isAsciiControl c || isAsciiWhitespace c) :=
  @toLower_congr Bool (fun c => isAsciiControl c || isAsciiWhitespace c) (by decide) c

structure NormalEmail (email : String) (localPart domain : List Char) : Prop where
  text : email.toList = localPart ++ '@' :: domain
  nonempty : localPart ≠ [] ∧ domain ≠ []
  noAt : '@' ∉ localPart ∧ '@' ∉ domain
  lower : domain.map Char.toLower = domain
  plain : email.toList.any (fun ch => isAsciiControl ch || isAsciiWhitespace ch) = false
  trimmed : trim email = email
  valid : validateEmail email = .ok ()

theorem normalizeEmail_ok {value email : String} (h : normalizeEmail value = .ok email) :
    ∃ localPart domain, NormalEmail email localPart domain := by
  unfold normalizeEmail at h
  dsimp only at h
  split at h
  · cases h
  · rename_i localPart domain hsplit
    split at h
    · cases h
    · rename_i hok
      split at h
      · cases h
      · rename_i hvalid
        cases h
        push Not at hok
        obtain ⟨hlocal, hdomain, hatLocal, hatDomain, hplain⟩ := hok
        have htext := (rsplitOnceAt_iff.1 hsplit).1
        refine ⟨localPart, domain.map Char.toLower, ⟨String.toList_ofList, ⟨hlocal, ?_⟩,
          ⟨hatLocal, ?_⟩, ?_, ?_, ?_, hvalid⟩⟩
        · simpa using hdomain
        · rintro hmem
          obtain ⟨c, hc, hat⟩ := List.mem_map.1 hmem
          exact hatDomain (toLower_eq_at.1 hat ▸ hc)
        · simp [Function.comp_def]
        · rw [htext] at hplain
          simp only [String.toList_ofList, List.any_append, List.any_cons, List.any_map,
            Function.comp_def, controlOrSpace_toLower]
          simpa using hplain
        · refine trim_eq_of_lowercase (t := trim value) ?_ (trim_trim value)
          unfold toAsciiLowercase
          rw [htext]
          simp [Function.comp_def]

theorem NormalEmail.normalize {email : String} {localPart domain : List Char}
    (h : NormalEmail email localPart domain) : normalizeEmail email = .ok email := by
  have hsplit : rsplitOnceAt '@' email.toList = some (localPart, domain) :=
    rsplitOnceAt_iff.2 ⟨h.text, h.noAt.2⟩
  have htext : String.ofList (localPart ++ '@' :: domain.map Char.toLower) = email := by
    rw [h.lower, ← h.text, String.ofList_toList]
  unfold normalizeEmail
  rw [h.trimmed]
  dsimp only
  rw [hsplit]
  dsimp only
  rw [if_neg, htext, h.valid]
  rw [h.plain]
  simp [h.nonempty, h.noAt]

/-- **A normalised address is normal.** -/
theorem normalizeEmail_idem {value email : String} (h : normalizeEmail value = .ok email) :
    normalizeEmail email = .ok email := by
  obtain ⟨localPart, domain, hnormal⟩ := normalizeEmail_ok h
  exact hnormal.normalize

theorem validateEmail_normal {value email : String} (h : normalizeEmail value = .ok email) :
    validateEmail email = .ok () := by
  obtain ⟨localPart, domain, hnormal⟩ := normalizeEmail_ok h
  exact hnormal.valid

theorem validateEmails_ok {emails : List String} :
    validateEmails emails = .ok () ↔ ∀ e ∈ emails, normalizeEmail e = .ok e := by
  induction emails with
  | nil => simp [validateEmails]
  | cons email rest ih =>
    rw [List.forall_mem_cons, ← ih]
    rw [validateEmails]
    cases h : normalizeEmail email with
    | error e => simp
    | ok normalized => by_cases hne : normalized = email <;> simp [hne]

theorem validateUsers_ok {users : OrdMap String AccessEntry} :
    validateUsers users = .ok () ↔ ∀ e, users.contains e = true → normalizeEmail e = .ok e := by
  simp only [validateUsers, validateEmails_ok, OrdMap.mem_keys]

/-! ## Histories -/

/-- What `validate_audit_chain` requires of an actor. -/
def GoodActor (actor : String) : Prop :=
  isBlank actor = false ∧ actor.utf8ByteSize ≤ 256 ∧ actor.toList.any isControl = false

theorem validateActor_ok {actor trimmed : String} (h : validateActor actor = .ok trimmed) :
    GoodActor trimmed := by
  unfold validateActor at h
  dsimp only at h
  split at h
  · cases h
  · rename_i hok
    cases h
    push Not at hok
    obtain ⟨hne, hlen, hcontrol⟩ := hok
    exact ⟨by simpa [isBlank, trim_trim] using hne, hlen, by simpa using hcontrol⟩

theorem parseU64_timestamp (now : UInt64) : parseU64 (timestamp now) = some now.toNat :=
  parseU64_toString now.toNat_lt

/-- The value before an event continues what is there. -/
def Continues (prior : Option Json) (event : AuditEntry) : Prop :=
  match prior with
  | none => event.before.isNull = true
  | some previous => event.before = previous

theorem checkEvents_cons {prior last : Option Json} {event : AuditEntry} {rest : List AuditEntry} :
    checkEvents prior (event :: rest) = .ok last ↔
      event.malformed = false ∧ Continues prior event ∧
        checkEvents (some event.after) rest = .ok last := by
  cases prior with
  | none =>
    by_cases hmalformed : event.malformed = true <;> by_cases hnull : event.before.isNull = true <;>
      simp [checkEvents, Continues, hmalformed, hnull]
  | some previous =>
    by_cases hmalformed : event.malformed = true <;> by_cases hbefore : event.before = previous <;>
      simp [checkEvents, Continues, hmalformed, hbefore]

theorem checkEvents_append {prior last : Option Json} {audit : List AuditEntry}
    {event : AuditEntry} (h : checkEvents prior audit = .ok last)
    (hformed : event.malformed = false) (hcontinues : Continues last event) :
    checkEvents prior (audit ++ [event]) = .ok (some event.after) := by
  induction audit generalizing prior with
  | nil =>
    cases h
    exact checkEvents_cons.2 ⟨hformed, hcontinues, rfl⟩
  | cons first rest ih =>
    obtain ⟨hfirst, hprior, hrest⟩ := checkEvents_cons.1 h
    exact checkEvents_cons.2 ⟨hfirst, hprior, ih hrest⟩

theorem formed {actor action : String} {now : UInt64} {before after : Json}
    (hactor : GoodActor actor) (haction : isBlank action = false) :
    AuditEntry.malformed ⟨actor, timestamp now, action, before, after⟩ = false := by
  unfold GoodActor at hactor
  simp [AuditEntry.malformed, hactor, haction, parseU64_timestamp]

/-- An event that starts where the history ends is one the history can go on with. -/
theorem validateAuditChain_push {audit : List AuditEntry} {current after : Json} {revision : Nat}
    {actor action : String} {now : UInt64}
    (h : validateAuditChain audit current revision = .ok ())
    (hactor : GoodActor actor) (haction : isBlank action = false) :
    validateAuditChain (audit ++ [⟨actor, timestamp now, action, current, after⟩]) after
      (revision + 1) = .ok () := by
  unfold validateAuditChain at h ⊢
  split at h
  · cases h
  · rename_i hlen
    push Not at hlen
    split at h
    · cases h
    · rename_i last hcheck
      split at h
      · rename_i hlast
        subst hlast
        have hcontinues : Continues (some current)
            ⟨actor, timestamp now, action, current, after⟩ := rfl
        rw [if_neg (by simp [hlen.2]), checkEvents_append hcheck (formed hactor haction) hcontinues]
        exact if_pos rfl
      · cases h

theorem goodActor_bootstrap : GoodActor "bootstrap" := by
  unfold GoodActor
  decide

theorem validateAuditChain_first {after : Json} {action : String} {now : UInt64}
    (haction : isBlank action = false) :
    validateAuditChain [⟨"bootstrap", timestamp now, action, .null, after⟩] after 1 = .ok () := by
  have hcheck : checkEvents none [⟨"bootstrap", timestamp now, action, .null, after⟩] =
      .ok (some after) :=
    checkEvents_cons.2 ⟨formed goodActor_bootstrap haction, rfl, rfl⟩
  unfold validateAuditChain
  rw [if_neg (by simp), hcheck]
  exact if_pos rfl

/-! ## The policy file -/

structure PolicyFile.Accepted (policy : PolicyFile) : Prop where
  format : policy.format = 1
  revision : policy.revision ≠ 0
  normal : ∀ e, policy.users.contains e = true → normalizeEmail e = .ok e
  history : validateAuditChain policy.audit (usersValue policy.users) policy.revision = .ok ()
  admin : policy.users.values.any enabledAdmin = true

theorem PolicyFile.check_ok {policy : PolicyFile} : policy.check = .ok () ↔ policy.Accepted := by
  constructor
  · intro h
    unfold PolicyFile.check at h
    split at h
    · cases h
    · rename_i hformat
      push Not at hformat
      split at h
      · cases h
      · rename_i husers
        split at h
        · cases h
        · rename_i hhistory
          split at h
          · rename_i hadmin
            exact ⟨hformat.1, hformat.2, validateUsers_ok.1 husers, hhistory, hadmin⟩
          · cases h
  · intro h
    unfold PolicyFile.check
    rw [if_neg (by simp [h.format, h.revision]), validateUsers_ok.2 h.normal]
    dsimp only
    rw [h.history]
    dsimp only
    rw [if_pos h.admin]

/-! ## The bindings file -/

theorem nul_not_mem_issuer (issuer : Issuer) : Char.ofNat 0 ∉ issuer.str.toList := by
  intro hmem
  have := validateChars_ok.1 (validateText_ok issuer.valid).2.2 _ hmem
  revert this
  decide

theorem splitOnceAt_bindingKey (binding : SubjectBinding) :
    splitOnceAt (Char.ofNat 0) (bindingKey binding).toList =
      some (binding.issuer.str.toList, binding.subject.str.toList) := by
  rw [bindingKey, String.toList_ofList]
  exact splitOnceAt_iff.2 ⟨rfl, nul_not_mem_issuer binding.issuer⟩

/-- What is stored under the keys of the bindings. -/
structure ValidBindings (bindings : OrdMap String BindingRecord) : Prop where
  normal : ∀ key r, bindings.get? key = some r → normalizeEmail r.email = .ok r.email
  keyed : ∀ key r, bindings.get? key = some r → ∃ binding, key = bindingKey binding
  emails : ∀ key r key' r', bindings.get? key = some r → bindings.get? key' = some r' →
    r.email = r'.email → key = key'
  owners : ∀ key r key' r', bindings.get? key = some r → bindings.get? key' = some r' →
    r.ownerId = r'.ownerId → key = key'

def Fresh (emails : List String) (owners : List OwnerId) (e : String × BindingRecord) : Prop :=
  normalizeEmail e.2.email = .ok e.2.email ∧ (∃ binding, e.1 = bindingKey binding) ∧
    e.2.email ∉ emails ∧ e.2.ownerId ∉ owners

theorem checkBindings_ok {entries : List (String × BindingRecord)} {emails : List String}
    {owners : List OwnerId} :
    checkBindings entries emails owners = .ok () ↔
      (∀ e ∈ entries, Fresh emails owners e) ∧
        entries.Pairwise fun a b => a.2.email ≠ b.2.email ∧ a.2.ownerId ≠ b.2.ownerId := by
  induction entries generalizing emails owners with
  | nil => simp [checkBindings]
  | cons e rest ih =>
    obtain ⟨key, record⟩ := e
    have hhead : checkBindings ((key, record) :: rest) emails owners = .ok () ↔
        Fresh emails owners (key, record) ∧
          checkBindings rest (record.email :: emails) (record.ownerId :: owners) = .ok () := by
      constructor
      · intro h
        unfold checkBindings at h
        split at h
        · cases h
        · rename_i email hemail
          split at h
          · cases h
          · rename_i hnew
            push Not at hnew
            obtain ⟨rfl, hemails, howners⟩ := hnew
            split at h
            · cases h
            · split at h
              · cases h
              · rename_i binding _
                split at h
                · cases h
                · rename_i hkey
                  exact ⟨⟨hemail, ⟨binding, (not_not.1 hkey).symm⟩, hemails, howners⟩, h⟩
      · rintro ⟨⟨hemail, ⟨binding, hkey⟩, hemails, howners⟩, h⟩
        dsimp only at hemail hkey hemails howners
        subst hkey
        unfold checkBindings
        rw [hemail]
        dsimp only
        rw [if_neg (by simp [hemails, howners]), splitOnceAt_bindingKey]
        simp only [String.ofList_toList, SubjectBinding.parse_str]
        rw [if_neg (by simp)]
        exact h
    rw [hhead, ih, List.forall_mem_cons, List.pairwise_cons]
    simp only [Fresh, List.mem_cons]
    constructor
    · rintro ⟨hrecord, hrest, hpair⟩
      refine ⟨⟨hrecord, fun e he => ?_⟩, fun e he => ?_, hpair⟩
      · obtain ⟨h1, h2, h3, h4⟩ := hrest e he
        exact ⟨h1, h2, fun h => h3 (.inr h), fun h => h4 (.inr h)⟩
      · obtain ⟨h1, h2, h3, h4⟩ := hrest e he
        exact ⟨fun h => h3 (.inl h.symm), fun h => h4 (.inl h.symm)⟩
    · rintro ⟨⟨hrecord, hrest⟩, hne, hpair⟩
      refine ⟨hrecord, fun e he => ?_, hpair⟩
      obtain ⟨h1, h2, h3, h4⟩ := hrest e he
      obtain ⟨hemail, howner⟩ := hne e he
      exact ⟨h1, h2, fun h => h.elim (fun h => hemail h.symm) h3,
        fun h => h.elim (fun h => howner h.symm) h4⟩

theorem checkBindings_valid {bindings : OrdMap String BindingRecord} :
    checkBindings bindings.entries [] [] = .ok () ↔ ValidBindings bindings := by
  rw [checkBindings_ok]
  constructor
  · rintro ⟨hfresh, hpair⟩
    have hsymm : Std.Symm fun a b : String × BindingRecord =>
        a.2.email ≠ b.2.email ∧ a.2.ownerId ≠ b.2.ownerId :=
      ⟨fun _ _ h => ⟨h.1.symm, h.2.symm⟩⟩
    have hne : ∀ a ∈ bindings.entries, ∀ b ∈ bindings.entries, a ≠ b →
        a.2.email ≠ b.2.email ∧ a.2.ownerId ≠ b.2.ownerId :=
      fun a ha b hb => hpair.forall ha hb
    refine ⟨fun key r h => (hfresh _ (OrdMap.mem_entries.2 h)).1,
      fun key r h => (hfresh _ (OrdMap.mem_entries.2 h)).2.1, ?_, ?_⟩
    · intro key r key' r' h h' heq
      by_contra hkey
      exact (hne _ (OrdMap.mem_entries.2 h) _ (OrdMap.mem_entries.2 h')
        (fun he => hkey (congrArg Prod.fst he))).1 heq
    · intro key r key' r' h h' heq
      by_contra hkey
      exact (hne _ (OrdMap.mem_entries.2 h) _ (OrdMap.mem_entries.2 h')
        (fun he => hkey (congrArg Prod.fst he))).2 heq
  · intro h
    refine ⟨fun e he => ⟨h.normal _ _ (OrdMap.mem_entries.1 he), h.keyed _ _ (OrdMap.mem_entries.1 he),
      List.not_mem_nil, List.not_mem_nil⟩, ?_⟩
    refine bindings.sorted.imp_of_mem fun ha hb hlt => ?_
    exact ⟨fun heq => hlt.ne (h.emails _ _ _ _ (OrdMap.mem_entries.1 ha) (OrdMap.mem_entries.1 hb) heq),
      fun heq => hlt.ne (h.owners _ _ _ _ (OrdMap.mem_entries.1 ha) (OrdMap.mem_entries.1 hb) heq)⟩

structure BindingsFile.Accepted (file : BindingsFile) : Prop where
  format : file.format = 1
  history : validateAuditChain file.audit (bindingsValue file.bindings) file.audit.length = .ok ()
  valid : ValidBindings file.bindings

theorem BindingsFile.check_ok {file : BindingsFile} : file.check = .ok () ↔ file.Accepted := by
  constructor
  · intro h
    unfold BindingsFile.check at h
    split at h
    · cases h
    · rename_i hformat
      split at h
      · cases h
      · rename_i hhistory
        exact ⟨not_not.1 hformat, hhistory, checkBindings_valid.1 h⟩
  · intro h
    unfold BindingsFile.check
    rw [if_neg (by simp [h.format]), h.history]
    exact checkBindings_valid.2 h.valid

end Hub

end AgentPalace
