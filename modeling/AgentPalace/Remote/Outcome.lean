import AgentPalace.Remote.Methods

/-!
# What a mutating call reports

A call first reads (the handshake, a preflight), then sends its one mutation,
and again after a 401. `Attempts` says how the sends and the result belong
together; `Reported` is what a caller may conclude from the result.
-/

namespace AgentPalace.Remote

/-! ## Weakest preconditions of calls -/

def wp {α : Type} (m : Call α) (Q : Except RemoteError α → Session → Prop) (s : Session) : Prop :=
  Q (m.run s).1 (m.run s).2

section
variable {α β : Type} {s : Session} {m : Call α} {f : α → Call β}

theorem wp_bind {Q : Except RemoteError β → Session → Prop}
    (h : wp m (fun r s' => (∀ a, r = .ok a → wp (f a) Q s') ∧ ∀ e, r = .error e → Q (.error e) s') s) :
    wp (m >>= f) Q s := by
  unfold wp at *
  obtain ⟨hok, herror⟩ := h
  show Q (ExceptT.bindCont f (m.run s).1 (m.run s).2).1 (ExceptT.bindCont f (m.run s).1 (m.run s).2).2
  cases hr : (m.run s).1 with
  | ok a => exact hok a hr
  | error e => exact herror e hr

theorem wp_mono {Q Q' : Except RemoteError α → Session → Prop} (h : wp m Q s)
    (hQ : ∀ r s', Q r s' → Q' r s') : wp m Q' s := hQ _ _ h

end

/-! ## One request -/

section
variable (c : RemoteClient) {kind : CallKind} {rb : RequestBuilder} {s : Session}

def Sent.unauthorized (x : Sent) : Prop := ∃ r, x.delivery.outcome = .ok r ∧ r.status = 401

/-- The request was answered with a 2xx and these bytes were read of it. -/
def Sent.answered (x : Sent) (bytes : List UInt8) : Prop :=
  ∃ r, x.delivery.outcome = .ok r ∧ isSuccess r.status = true ∧
    readBody maxResponseBytes r.broken [] r.chunks = .ok bytes

def Sent.read (x : Sent) : Except RemoteError Exchange := c.readDelivery x.kind x.token x.delivery

/-- The sends of `send_authorized` and what it returns. -/
inductive Attempts (kind : CallKind) (rb : RequestBuilder) :
    List Sent → Except RemoteError Exchange → Prop where
  | once {x : Sent} (hx : x.kind = kind ∧ x.request = rb) : Attempts kind rb [x] (x.read c)
  | refused {x : Sent} {e : RemoteError} (hx : x.kind = kind ∧ x.request = rb)
      (h : x.unauthorized) : Attempts kind rb [x] (.error e)
  | twice {x y : Sent} (hx : x.kind = kind ∧ x.request = rb) (h : x.unauthorized)
      (hy : y.kind = kind ∧ y.request = rb) : Attempts kind rb [x, y] (y.read c)

theorem unauthorized_of_read {x : Sent} {ex : Exchange} (h : x.read c = .ok ex)
    (hstatus : ex.status = 401) : x.unauthorized := by
  unfold Sent.read RemoteClient.readDelivery at h
  cases hout : x.delivery.outcome with
  | error e => rw [hout] at h; cases h
  | ok r =>
    rw [hout] at h
    dsimp only at h
    split at h
    · cases h
    · cases h
      exact ⟨r, hout, hstatus⟩

theorem sendAndRead_sent : wp (c.sendAndRead rb kind) (fun r s' =>
    ∃ x : Sent, (x.kind = kind ∧ x.request = rb) ∧ s'.sent = s.sent ++ [x] ∧ r = x.read c) s :=
  ⟨⟨kind, rb, s.network.token s.sent.length, s.network.delivery s.sent.length⟩, ⟨rfl, rfl⟩, rfl, rfl⟩

theorem recoverAuthorization_sent (token challenge : Option String) :
    wp (RemoteClient.recoverAuthorization token challenge) (fun _ s' => s' = s) s := rfl

theorem sendAuthorized_attempts : wp (c.sendAuthorized rb kind) (fun r s' =>
    ∃ new, s'.sent = s.sent ++ new ∧ Attempts c kind rb new r) s := by
  unfold RemoteClient.sendAuthorized
  refine wp_bind (wp_mono (sendAndRead_sent c) ?_)
  rintro r s' ⟨x, hx, hsent, rfl⟩
  refine ⟨fun ex hex => ?_, fun e he => ⟨[x], hsent, he ▸ .once hx⟩⟩
  have hone : ∃ new, s'.sent = s.sent ++ new ∧ Attempts c kind rb new (.ok ex) :=
    ⟨[x], hsent, hex ▸ .once hx⟩
  by_cases hretry : c.oauth ∧ ex.status = 401
  · rw [if_pos hretry]
    have h401 := unauthorized_of_read c hex hretry.2
    refine wp_bind (wp_mono (recoverAuthorization_sent _ _) ?_)
    rintro r _ rfl
    refine ⟨fun recovered _ => ?_, fun e _ => ⟨[x], hsent, .refused hx h401⟩⟩
    cases recovered with
    | false => exact hone
    | true =>
      refine wp_mono (sendAndRead_sent c) ?_
      rintro r s'' ⟨y, hy, hsent', rfl⟩
      refine ⟨[x, y], ?_, .twice hx h401 hy⟩
      rw [hsent', hsent, List.append_assoc]
      rfl
  · rw [if_neg hretry]
    exact hone

/-! ## An applied request -/

variable {c} {x : Sent}

theorem not_applied_of_unauthorized (h : x.unauthorized) : x.delivery.applied = false := by
  obtain ⟨r, hout, hstatus⟩ := h
  by_contra happlied
  have hsuccess := x.delivery.applied_success r hout (by simpa using happlied)
  rw [hstatus] at hsuccess
  exact absurd hsuccess (by decide)

theorem success_ne {status : UInt16} (h : isSuccess status = true) : status ≠ 401 ∧ status ≠ 409 := by
  constructor <;> (rintro rfl; exact absurd h (by decide))

/-- Where the client read an answer, it is a 2xx. -/
theorem read_ok {ex : Exchange} (happlied : x.delivery.applied = true) (h : x.read c = .ok ex) :
    isSuccess ex.status = true ∧ x.answered ex.bytes := by
  unfold Sent.read RemoteClient.readDelivery at h
  cases hout : x.delivery.outcome with
  | error e => rw [hout] at h; cases h
  | ok r =>
    have hsuccess := x.delivery.applied_success r hout happlied
    rw [hout] at h
    simp only [hsuccess, if_true] at h
    split at h
    · cases h
    · rename_i bytes hread
      cases h
      exact ⟨hsuccess, r, hout, hsuccess, hread⟩

theorem read_error {e : RemoteError} (hkind : x.kind = .mutation)
    (happlied : x.delivery.applied = true) (h : x.read c = .error e) :
    ∃ message, e = .unknownOutcome c.name message := by
  unfold Sent.read RemoteClient.readDelivery at h
  rw [hkind] at h
  cases hout : x.delivery.outcome with
  | error e' =>
    have hsent := x.delivery.delivered_sent e' hout (x.delivery.applied_delivered happlied)
    rw [hout] at h
    simp only [RemoteClient.classifySendError, hsent, Bool.false_eq_true, if_false] at h
    cases h
    exact ⟨_, rfl⟩
  | ok r =>
    have hsuccess := x.delivery.applied_success r hout happlied
    rw [hout] at h
    simp only [hsuccess, if_true] at h
    split at h
    · simp only [RemoteClient.classifyBodyError, (success_ne hsuccess).1, hsuccess, Bool.not_true,
        Bool.false_eq_true, if_false] at h
      cases h
      exact ⟨_, rfl⟩
    · cases h

/-- What a caller may conclude from the result of a call, given the mutations it sent. -/
structure Reported {α : Type} (c : RemoteClient) (decode : Decoder α) (sent : List Sent)
    (r : Except RemoteError (RemoteRevisionedWrite α)) : Prop where
  truthful : (∃ x ∈ sent, x.delivery.applied = true) →
    (∃ x ∈ sent, ∃ bytes value, x.answered bytes ∧ decode bytes = .ok value ∧
      r = .ok (.applied value)) ∨ ∃ message, r = .error (.unknownOutcome c.name message)
  twice : sent.length ≤ 2
  replay : ∀ x y, sent = [x, y] → x.unauthorized ∧ y.request = x.request

/-- The end of a mutation: it is right about an answer to an applied request, and passes on what was
not read. -/
structure Ends {α : Type} (c : RemoteClient) (decode : Decoder α)
    (finish : Exchange → Except RemoteError (RemoteRevisionedWrite α)) : Prop where
  ok : ∀ ex value, isSuccess ex.status = true → decode ex.bytes = .ok value →
    finish ex = .ok (.applied value)
  error : ∀ ex message, isSuccess ex.status = true → decode ex.bytes = .error message →
    finish ex = .error (.unknownOutcome c.name message)

theorem Ends.last {α : Type} {decode : Decoder α}
    {finish : Exchange → Except RemoteError (RemoteRevisionedWrite α)} (hend : Ends c decode finish)
    (hkind : x.kind = .mutation) (happlied : x.delivery.applied = true) :
    (∃ bytes value, x.answered bytes ∧ decode bytes = .ok value ∧
      x.read c >>= finish = .ok (.applied value)) ∨
    ∃ message, x.read c >>= finish = .error (.unknownOutcome c.name message) := by
  cases hread : x.read c with
  | error e =>
    obtain ⟨message, rfl⟩ := read_error hkind happlied hread
    exact .inr ⟨message, rfl⟩
  | ok ex =>
    obtain ⟨hsuccess, hanswered⟩ := read_ok happlied hread
    cases hdecode : decode ex.bytes with
    | ok value => exact .inl ⟨_, value, hanswered, hdecode, hend.ok ex value hsuccess hdecode⟩
    | error message => exact .inr ⟨message, hend.error ex message hsuccess hdecode⟩

theorem Attempts.reported {α : Type} {decode : Decoder α}
    {finish : Exchange → Except RemoteError (RemoteRevisionedWrite α)} (hend : Ends c decode finish)
    {sent : List Sent} {r : Except RemoteError Exchange} (h : Attempts c .mutation rb sent r) :
    Reported c decode sent (r >>= finish) := by
  cases h with
  | once hx =>
    rename_i x
    refine ⟨?_, by simp, fun _ _ h => (by cases h)⟩
    rintro ⟨_, hmem, happlied⟩
    obtain rfl := List.mem_singleton.1 hmem
    exact (hend.last hx.1 happlied).imp_left fun h => ⟨_, hmem, h⟩
  | refused hx h401 =>
    rename_i x e
    refine ⟨?_, by simp, fun _ _ h => (by cases h)⟩
    rintro ⟨_, hmem, happlied⟩
    obtain rfl := List.mem_singleton.1 hmem
    rw [not_applied_of_unauthorized h401] at happlied
    cases happlied
  | twice hx h401 hy =>
    rename_i x y
    refine ⟨?_, by simp, ?_⟩
    · rintro ⟨z, hmem, happlied⟩
      rw [List.mem_cons, List.mem_singleton] at hmem
      rcases hmem with rfl | rfl
      · rw [not_applied_of_unauthorized h401] at happlied
        cases happlied
      · exact (hend.last hy.1 happlied).imp_left fun h => ⟨z, by simp, h⟩
    · intro x' y' heq
      cases heq
      exact ⟨h401, hy.2.trans hx.2.symm⟩

theorem answer_ends {α : Type} (decode : Decoder α) :
    Ends c decode fun ex => (c.answer decode .mutation ex).map .applied := by
  constructor <;> intro ex _ hsuccess hdecode <;>
    simp [RemoteClient.answer, (success_ne hsuccess).1, hsuccess, hdecode, Except.mapError,
      Except.map, RemoteClient.decodeFailure]

theorem answerRevisioned_ends {α : Type} (decode : Decoder α) :
    Ends c decode (c.answerRevisioned decode) := by
  constructor <;> intro ex _ hsuccess hdecode <;>
    simp [RemoteClient.answerRevisioned, (success_ne hsuccess).1, (success_ne hsuccess).2, hsuccess,
      hdecode, Except.mapError, Except.map, RemoteClient.decodeFailure]

end

/-! ## Whole calls -/

def mutations (sent : List Sent) : List Sent := sent.filter fun x => x.kind = .mutation

def Quiet {α : Type} (m : Call α) : Prop := ∀ s, wp m (fun _ s' =>
  ∃ new, s'.sent = s.sent ++ new ∧ mutations new = []) s

def Reports {α : Type} (c : RemoteClient) (decode : Decoder α)
    (m : Call (RemoteRevisionedWrite α)) : Prop := ∀ s, wp m (fun r s' =>
  ∃ new, s'.sent = s.sent ++ new ∧ Reported c decode (mutations new) r) s

section
variable {α β : Type} {c : RemoteClient} {decode : Decoder α}

theorem quiet_of_sent {m : Call β} (h : ∀ s, (m.run s).2.sent = s.sent) : Quiet m :=
  fun s => ⟨[], (h s).trans (List.append_nil _).symm, rfl⟩

theorem Quiet.bind {γ : Type} {m : Call β} {f : β → Call γ} (hm : Quiet m) (hf : ∀ b, Quiet (f b)) :
    Quiet (m >>= f) := by
  intro s
  refine wp_bind (wp_mono (hm s) ?_)
  rintro r s' ⟨new, hsent, hreads⟩
  refine ⟨fun b _ => wp_mono (hf b s') ?_, fun _ _ => ⟨new, hsent, hreads⟩⟩
  rintro r' s'' ⟨new', hsent', hreads'⟩
  refine ⟨new ++ new', ?_, ?_⟩
  · rw [hsent', hsent, List.append_assoc]
  · rw [mutations, List.filter_append]
    exact List.append_eq_nil_iff.2 ⟨hreads, hreads'⟩

theorem Attempts.reads {rb : RequestBuilder} {new : List Sent} {r : Except RemoteError Exchange}
    (h : Attempts c .read rb new r) : mutations new = [] := by
  cases h with
  | once hx => simp [mutations, hx.1]
  | refused hx _ => simp [mutations, hx.1]
  | twice hx _ hy => simp [mutations, hx.1, hy.1]

theorem Attempts.mutations {rb : RequestBuilder} {new : List Sent} {r : Except RemoteError Exchange}
    (h : Attempts c .mutation rb new r) : mutations new = new := by
  cases h with
  | once hx => simp [Remote.mutations, hx.1]
  | refused hx _ => simp [Remote.mutations, hx.1]
  | twice hx _ hy => simp [Remote.mutations, hx.1, hy.1]

theorem execute_quiet (decode : Decoder β) (rb : RequestBuilder) :
    Quiet (c.execute decode rb .read) := by
  intro s
  refine wp_bind (wp_mono (sendAuthorized_attempts c) ?_)
  rintro r s' ⟨new, hsent, hattempts⟩
  exact ⟨fun _ _ => ⟨new, hsent, hattempts.reads⟩, fun _ _ => ⟨new, hsent, hattempts.reads⟩⟩

theorem cachedInfo_quiet : Quiet c.cachedInfo := by
  refine .bind (quiet_of_sent fun _ => rfl) fun s => ?_
  cases s.info with
  | some info => exact quiet_of_sent fun _ => rfl
  | none =>
    refine .bind (.bind (quiet_of_sent fun _ => rfl) fun _ => execute_quiet _ _) fun info => ?_
    exact .bind (quiet_of_sent fun _ => rfl) fun _ => quiet_of_sent fun _ => rfl

theorem ensureHandshake_quiet : Quiet c.ensureHandshake := by
  refine cachedInfo_quiet.bind fun info => quiet_of_sent fun s => ?_
  split <;> rfl

theorem ensureCoordinationCapability_quiet : Quiet c.ensureCoordinationCapability := by
  refine ensureHandshake_quiet.bind fun info => quiet_of_sent fun s => ?_
  split <;> rfl

theorem postRequest_quiet (path : String) (req : Json) : Quiet (c.postRequest path req) :=
  .bind (quiet_of_sent fun _ => rfl) fun _ => quiet_of_sent fun _ => rfl

theorem reported_nil {r : Except RemoteError (RemoteRevisionedWrite α)} : Reported c decode [] r where
  truthful := fun ⟨_, hx, _⟩ => (by cases hx)
  twice := by simp
  replay := fun _ _ h => (by cases h)

theorem Reports.after {m : Call β} {f : β → Call (RemoteRevisionedWrite α)} (hm : Quiet m)
    (hf : ∀ b, Reports c decode (f b)) : Reports c decode (m >>= f) := by
  intro s
  refine wp_bind (wp_mono (hm s) ?_)
  rintro r s' ⟨new, hsent, hreads⟩
  refine ⟨fun b _ => wp_mono (hf b s') ?_, fun e _ => ⟨new, hsent, hreads ▸ reported_nil⟩⟩
  rintro r' s'' ⟨new', hsent', hreported⟩
  refine ⟨new ++ new', ?_, ?_⟩
  · rw [hsent', hsent, List.append_assoc]
  · rw [mutations, List.filter_append]
    have : new.filter (fun x => x.kind = .mutation) = [] := hreads
    rw [this]
    exact hreported

theorem reports_of_ends (rb : RequestBuilder)
    {finish : Exchange → Except RemoteError (RemoteRevisionedWrite α)}
    (hend : Ends c decode finish) :
    Reports c decode (c.sendAuthorized rb .mutation >>= fun ex => ExceptT.mk (pure (finish ex))) := by
  intro s
  refine wp_bind (wp_mono (sendAuthorized_attempts c) ?_)
  rintro r s' ⟨new, hsent, hattempts⟩
  have hreported := hattempts.reported hend
  rw [← hattempts.mutations] at hreported
  constructor
  · rintro ex rfl
    exact ⟨new, hsent, hreported⟩
  · rintro e rfl
    exact ⟨new, hsent, hreported⟩

theorem execute_reports (rb : RequestBuilder) :
    Reports c decode (.applied <$> c.execute decode rb .mutation) := by
  have h := reports_of_ends (c := c) rb (answer_ends decode)
  have heq : (RemoteRevisionedWrite.applied <$> c.execute decode rb .mutation :
      Call (RemoteRevisionedWrite α)) = c.sendAuthorized rb .mutation >>= fun ex =>
        ExceptT.mk (pure ((c.answer decode .mutation ex).map .applied)) := by
    unfold RemoteClient.execute
    rw [map_bind]
    refine bind_congr fun ex => ?_
    cases c.answer decode .mutation ex <;> rfl
  exact heq ▸ h

theorem executeRevisioned_reports (rb : RequestBuilder) :
    Reports c decode (c.executeRevisioned decode rb) :=
  reports_of_ends rb (answerRevisioned_ends decode)

theorem post_reports {m : Call β} (hm : Quiet m) (path : String) (req : Json) :
    Reports c decode (.applied <$> do
      let _ ← m
      let rb ← c.postRequest path req
      c.execute decode rb .mutation) := by
  simp only [map_bind]
  exact .after hm fun _ => .after (postRequest_quiet _ _) fun _ => execute_reports _

theorem deleteDrawer_reports (id : String) (op : Option String) :
    Reports c decode (.applied <$> c.deleteDrawerWithOperationId decode id op) := by
  unfold RemoteClient.deleteDrawerWithOperationId
  simp only [map_bind]
  refine .after ensureHandshake_quiet fun _ => .after (quiet_of_sent fun _ => rfl) fun url => ?_
  exact execute_reports _

theorem coordinationTaskWrite_reports (action id : String) (req : Json) :
    Reports c decode (c.coordinationTaskWrite decode action id req) :=
  .after ensureCoordinationCapability_quiet fun _ =>
    .after (postRequest_quiet _ _) fun _ => executeRevisioned_reports _

theorem ingestBatch_reports (req : IngestBatchRequest) :
    Reports c decode (.applied <$> c.ingestBatch decode req) := by
  unfold RemoteClient.ingestBatch
  simp only [map_bind]
  refine .after ensureHandshake_quiet fun info => ?_
  split
  · simp only [map_bind]
    refine .after (postRequest_quiet _ _) fun rb => .after (execute_quiet _ rb) fun _ => ?_
    exact .after (postRequest_quiet _ _) fun _ => execute_reports _
  · simp only [map_bind]
    exact .after (postRequest_quiet _ _) fun _ => execute_reports _

theorem MutatingCall.reports (call : MutatingCall) : Reports c decode (call.exec c decode) := by
  cases call with
  | addDrawer req => exact post_reports ensureHandshake_quiet _ req
  | deleteDrawer id => exact deleteDrawer_reports id none
  | deleteDrawerWithOperationId id op => exact deleteDrawer_reports id op
  | kgAddFact req => exact post_reports ensureHandshake_quiet _ req
  | kgInvalidate req => exact post_reports ensureHandshake_quiet _ req
  | ingestBatch req => exact ingestBatch_reports req
  | coordinationTaskCreate req => exact post_reports ensureCoordinationCapability_quiet _ req
  | coordinationTaskClaim id req => exact coordinationTaskWrite_reports _ id req
  | coordinationTaskRenew id req => exact coordinationTaskWrite_reports _ id req
  | coordinationTaskTransition id req => exact coordinationTaskWrite_reports _ id req
  | coordinationMessageSend req => exact post_reports ensureCoordinationCapability_quiet _ req
  | coordinationMessageAck id req => exact post_reports ensureCoordinationCapability_quiet _ req
  | coordinationArtifactPut req => exact post_reports ensureCoordinationCapability_quiet _ req
  | coordinationResultPut req => exact post_reports ensureCoordinationCapability_quiet _ req

/-- **The outcome of a mutation is never misreported or replayed blindly**, for every mutating call
and every network: where the server applied it the call returns the decoded answer or does not know
the outcome; it is sent at most twice, again only after a 401; and no error that is not retried hides
an applied mutation. -/
theorem mutation_outcome (c : RemoteClient) (decode : Decoder α) (call : MutatingCall) (s : Session) :
    ∃ new, ((call.exec c decode).run s).2.sent = s.sent ++ new ∧
      Reported c decode (mutations new) ((call.exec c decode).run s).1 ∧
      ∀ e, ((call.exec c decode).run s).1 = .error e → e.isRetryable = false →
        ∀ x ∈ mutations new, x.delivery.applied = false := by
  have hreports : Reports c decode (call.exec c decode) := call.reports
  obtain ⟨new, hsent, hreported⟩ := hreports s
  refine ⟨new, hsent, hreported, fun e he hfinal x hx => ?_⟩
  by_contra happlied
  rcases hreported.truthful ⟨x, hx, by simpa using happlied⟩ with h | ⟨message, h⟩
  · obtain ⟨_, _, _, _, _, _, hok⟩ := h
    rw [he] at hok
    cases hok
  · rw [he] at h
    cases h
    cases hfinal

end

end AgentPalace.Remote
