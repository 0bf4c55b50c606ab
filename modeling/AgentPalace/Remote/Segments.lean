import AgentPalace.Remote.Outcome

/-!
# Ids in the paths of requests

Which ids the requested URL keeps in one segment: `id_in_segment` has the exact
condition for every method that takes an id. Drawer ids are appended as a
segment; coordination ids are written into a reference that is joined to the
base, so that a slash, a mark, a percent sign or dots in an id are read as parts
of the reference.
-/

namespace AgentPalace.Remote

/-- The methods with an id in their path, with their other arguments. -/
inductive IdMethod where
  | getDrawer
  | deleteDrawer
  | deleteDrawerWithOperationId (operationId : Option String)
  | coordinationTaskGet
  | coordinationTaskClaim (req : Json)
  | coordinationTaskRenew (req : Json)
  | coordinationTaskTransition (req : Json)
  | coordinationMessageGet
  | coordinationMessageAck (req : Json)
  | coordinationArtifactGet
  | coordinationResultGet

def ignore {α : Type} (m : Call α) : Call Unit := do
  let _ ← m

namespace IdMethod

def exec (c : RemoteClient) {α : Type} (decode : Decoder α) (id : String) : IdMethod → Call Unit
  | getDrawer => ignore (c.getDrawer decode id)
  | deleteDrawer => ignore (c.deleteDrawer decode id)
  | deleteDrawerWithOperationId op => ignore (c.deleteDrawerWithOperationId decode id op)
  | coordinationTaskGet => ignore (c.coordinationTaskGet decode id)
  | coordinationTaskClaim req => ignore (c.coordinationTaskClaim decode id req)
  | coordinationTaskRenew req => ignore (c.coordinationTaskRenew decode id req)
  | coordinationTaskTransition req => ignore (c.coordinationTaskTransition decode id req)
  | coordinationMessageGet => ignore (c.coordinationMessageGet decode id)
  | coordinationMessageAck req => ignore (c.coordinationMessageAck decode id req)
  | coordinationArtifactGet => ignore (c.coordinationArtifactGet decode id)
  | coordinationResultGet => ignore (c.coordinationResultGet decode id)

/-- The kind of record an id is of; drawers are no coordination records. -/
def kind : IdMethod → Option String
  | getDrawer | deleteDrawer | deleteDrawerWithOperationId _ => none
  | coordinationTaskGet | coordinationTaskClaim _ | coordinationTaskRenew _
  | coordinationTaskTransition _ => some "tasks"
  | coordinationMessageGet | coordinationMessageAck _ => some "messages"
  | coordinationArtifactGet => some "artifacts"
  | coordinationResultGet => some "results"

def before (m : IdMethod) : List (List Char) :=
  match m.kind with
  | none => ["v1".toList, "drawers".toList]
  | some kind => ["v1".toList, "coordination".toList, kind.toList]

def after : IdMethod → Option (List Char)
  | coordinationTaskClaim _ => some "claim".toList
  | coordinationTaskRenew _ => some "renew".toList
  | coordinationTaskTransition _ => some "transition".toList
  | coordinationMessageAck _ => some "ack".toList
  | _ => none

def keeps (m : IdMethod) (id : String) : Bool :=
  if m.kind.isSome then Url.staysInside m.after id.toList
  else id.toList.all (fun c => !Url.isSkipped c) && id != "." && id != ".."

end IdMethod

/-- The request goes to the remote, to the method's segments with the id in one of its own. -/
def KeepsId (c : RemoteClient) (m : IdMethod) (id : String) (x : Sent) : Prop :=
  x.request.url.scheme = c.baseUrl.scheme ∧ x.request.url.host = c.baseUrl.host ∧
    x.request.url.port = c.baseUrl.port ∧
    x.request.url.KeepsSegment (c.baseUrl.path.dropLast ++ m.before) id.toList m.after.toList

/-! ## The URLs -/

section
variable (c : RemoteClient)

theorem IdMethod.before_words (m : IdMethod) : ∀ w ∈ m.before, Url.Word w := by
  have h : m.before.all Url.isWord = true := by cases m <;> rfl
  exact fun w hw => Url.word_of_isWord (List.all_eq_true.1 h w hw)

theorem IdMethod.after_word (m : IdMethod) : ∀ w ∈ m.after, Url.Word w := by
  have h : m.after.all Url.isWord = true := by cases m <;> rfl
  exact fun w hw => Url.word_of_isWord ((Option.all_eq_true _ _).1 h w hw)

/-- The URL of a path with fixed segments before the id. -/
theorem url_of_path (m : IdMethod) {path : String} {cs : List Char}
    (hpath : path.toList = m.before.flatMap (· ++ ['/']) ++ cs) :
    c.url path = .ok (Url.pathState c.baseUrl (Url.cleanedEnd cs) []
      (c.baseUrl.path.dropLast ++ m.before)) := by
  have hscheme : Url.startsWithScheme (m.before.flatMap (· ++ ['/']) ++ Url.cleanedEnd cs) = false := by
    cases m <;> rfl
  have hne : m.before ≠ [] := by cases m <;> simp [IdMethod.before, IdMethod.kind]
  unfold RemoteClient.url
  rw [hpath, Url.joinRelative_words _ _ m.before_words hne cs hscheme]

theorem url_drawers : c.url "v1/drawers" = .ok { c.baseUrl with
    path := c.baseUrl.path.dropLast ++ ["v1".toList, "drawers".toList], query := none
    fragment := none } := by
  have hword : ∀ w ∈ ["v1".toList], Url.Word w := fun w hw =>
    IdMethod.getDrawer.before_words w (by simp [IdMethod.before, IdMethod.kind] at hw ⊢; simp [hw])
  have hpath : "v1/drawers".toList = ["v1".toList].flatMap (· ++ ['/']) ++ "drawers".toList := rfl
  unfold RemoteClient.url
  rw [hpath, Url.joinRelative_words _ _ hword (by simp) "drawers".toList rfl]
  have hclean : Url.cleanedEnd "drawers".toList = "drawers".toList := by decide
  have hdrawers : Url.Word "drawers".toList := Url.word_of_isWord (by decide)
  have hstate := Url.pathState_inside c.baseUrl hdrawers.inside [] []
    (c.baseUrl.path.dropLast ++ ["v1".toList])
  rw [List.append_nil, List.nil_append, Url.percentEncode_self hdrawers.plain, Url.pathState,
    Url.pushSegment_plain hdrawers.dots, List.append_assoc] at hstate
  rw [hclean, hstate]
  rfl

def IdMethod.requested (m : IdMethod) (id : String) : Url :=
  if m.kind.isSome then
    Url.pathState c.baseUrl (Url.cleanedEnd (id.toList ++ Url.tailText m.after)) []
      (c.baseUrl.path.dropLast ++ m.before)
  else Url.pushPathSegment { c.baseUrl with
    path := c.baseUrl.path.dropLast ++ m.before, query := none, fragment := none } id.toList

theorem url_requested {m : IdMethod} (hkind : m.kind.isSome = true) {path id : String}
    (hpath : path.toList =
      m.before.flatMap (· ++ ['/']) ++ (id.toList ++ Url.tailText m.after)) :
    c.url path = .ok (m.requested c id) := by
  rw [url_of_path c m hpath, IdMethod.requested, if_pos hkind]

theorem drawerUrl_ok (id : String) :
    c.drawerUrl id = .ok (IdMethod.getDrawer.requested c id) := by
  unfold RemoteClient.drawerUrl
  rw [url_drawers]
  rfl

theorem IdMethod.requested_keeps (m : IdMethod) (id : String) :
    (m.requested c id).KeepsSegment (c.baseUrl.path.dropLast ++ m.before) id.toList m.after.toList ↔
      m.keeps id = true := by
  unfold requested keeps
  split
  · exact Url.pathState_keeps c.baseUrl _ m.after_word
  · rename_i hkind
    have hafter : m.after = none := by
      cases m <;> first | rfl | exact absurd rfl hkind
    rw [hafter]
    refine (Url.pushPathSegment_keeps rfl rfl).trans ?_
    simp only [Bool.and_eq_true, List.all_eq_true, Bool.not_eq_true', bne_iff_ne, and_assoc]
    have hstr : ∀ s : String, id.toList ≠ s.toList ↔ id ≠ s := fun s => by
      rw [ne_eq, String.toList_inj]
    rw [← hstr ".", ← hstr ".."]
    exact Iff.rfl

theorem IdMethod.requested_origin (m : IdMethod) (id : String) :
    (m.requested c id).scheme = c.baseUrl.scheme ∧ (m.requested c id).host = c.baseUrl.host ∧
      (m.requested c id).port = c.baseUrl.port := by
  unfold requested
  split
  · exact Url.pathState_origin _ _ _ _
  · unfold Url.pushPathSegment
    split <;> exact ⟨rfl, rfl, rfl⟩

end

/-! ## The requests of a call -/

/-- The remote speaks this version and coordinates. -/
def Ready (info : InfoResponse) : Prop :=
  info.federationApiVersion = RemoteClient.federationApiVersion ∧ "coordination" ∈ info.capabilities

/-- With the handshake done, all requests are for `u`; there are some if the remote is ready. -/
def RequestsOnly {α : Type} (u : Url) (m : Call α) : Prop := ∀ s info, s.info = some info →
  wp m (fun _ s' => ∃ new, s'.sent = s.sent ++ new ∧ (∀ x ∈ new, x.request.url = u) ∧
    (Ready info → new ≠ [])) s

/-- With the handshake done, nothing is sent; if the remote is ready, the call succeeds. -/
def Passes {α : Type} (m : Call α) : Prop := ∀ s info, s.info = some info →
  wp m (fun r s' => s' = s ∧ (Ready info → ∃ a, r = .ok a)) s

section
variable {α β : Type} {c : RemoteClient} {u : Url}

theorem ensureHandshake_cached {s : Session} {info : InfoResponse} (hinfo : s.info = some info) :
    wp c.ensureHandshake (fun r s' => s' = s ∧ (r = .ok info ∨ ¬ Ready info ∧ ∃ e, r = .error e))
      s := by
  have hcached : wp c.cachedInfo (fun r s' => r = .ok info ∧ s' = s) s := by
    obtain ⟨network, _, sent⟩ := s
    cases hinfo
    exact ⟨rfl, rfl⟩
  refine wp_bind (wp_mono hcached ?_)
  rintro _ _ ⟨rfl, rfl⟩
  refine ⟨fun a ha => ?_, fun _ he => (by cases he)⟩
  cases ha
  by_cases hversion : info.federationApiVersion = RemoteClient.federationApiVersion
  · rw [if_neg (by simpa using hversion)]
    exact ⟨rfl, .inl rfl⟩
  · rw [if_pos hversion]
    exact ⟨rfl, .inr ⟨fun hready => hversion hready.1, _, rfl⟩⟩

theorem ensureHandshake_passes : Passes c.ensureHandshake := by
  intro s info hinfo
  refine wp_mono (ensureHandshake_cached hinfo) ?_
  rintro r s' ⟨hs, hr⟩
  refine ⟨hs, fun hready => ?_⟩
  rcases hr with hok | ⟨hnot, _⟩
  · exact ⟨info, hok⟩
  · exact absurd hready hnot

theorem ensureCoordinationCapability_passes : Passes c.ensureCoordinationCapability := by
  intro s info hinfo
  refine wp_bind (wp_mono (ensureHandshake_cached hinfo) ?_)
  rintro r _ ⟨rfl, hr⟩
  rcases hr with rfl | ⟨hnot, e, rfl⟩
  · refine ⟨fun a ha => ?_, fun _ he => (by cases he)⟩
    cases ha
    by_cases hcapable : "coordination" ∈ info.capabilities
    · rw [if_neg (by simpa using hcapable)]
      exact ⟨rfl, fun _ => ⟨(), rfl⟩⟩
    · rw [if_pos hcapable]
      exact ⟨rfl, fun hready => absurd hready.2 hcapable⟩
  · exact ⟨fun _ ha => (by cases ha), fun _ _ => ⟨rfl, fun hready => absurd hready hnot⟩⟩

theorem Passes.requests {m : Call β} {f : β → Call α} (hm : Passes m)
    (hf : ∀ b, RequestsOnly u (f b)) : RequestsOnly u (m >>= f) := by
  intro s info hinfo
  refine wp_bind (wp_mono (hm s info hinfo) ?_)
  rintro r _ ⟨rfl, hready⟩
  refine ⟨fun b _ => hf b _ info hinfo, fun e he => ⟨[], (List.append_nil _).symm, by simp, ?_⟩⟩
  intro h
  obtain ⟨_, hok⟩ := hready h
  rw [he] at hok
  cases hok

theorem Attempts.requests {kind : CallKind} {rb : RequestBuilder} {new : List Sent}
    {r : Except RemoteError Exchange} (h : Attempts c kind rb new r) :
    (∀ x ∈ new, x.request.url = rb.url) ∧ new ≠ [] := by
  cases h with
  | once hx => simp [hx.2]
  | refused hx _ => simp [hx.2]
  | twice hx _ hy => simp [hx.2, hy.2]

theorem sendAuthorized_requests {kind : CallKind} {rb : RequestBuilder}
    {finish : Exchange → Except RemoteError α} :
    RequestsOnly rb.url (c.sendAuthorized rb kind >>= fun ex => ExceptT.mk (pure (finish ex))) := by
  intro s info _
  refine wp_bind (wp_mono (sendAuthorized_attempts c) ?_)
  rintro r s' ⟨new, hsent, hattempts⟩
  have hrequests := hattempts.requests
  exact ⟨fun _ _ => ⟨new, hsent, hrequests.1, fun _ => hrequests.2⟩,
    fun _ _ => ⟨new, hsent, hrequests.1, fun _ => hrequests.2⟩⟩

theorem RequestsOnly.ignore {m : Call α} (h : RequestsOnly u m) : RequestsOnly u (ignore m) := by
  intro s info hinfo
  refine wp_bind (wp_mono (h s info hinfo) ?_)
  exact fun r s' hsent => ⟨fun _ _ => hsent, fun _ _ => hsent⟩

theorem RequestsOnly.url {r : Except RemoteError Url} {f : Url → Call α} (h : r = .ok u)
    (hf : RequestsOnly u (f u)) : RequestsOnly u (ExceptT.mk (pure r) >>= f) := by
  subst h
  exact hf

theorem RequestsOnly.post {path : String} {req : Json} {f : RequestBuilder → Call α}
    (h : c.url path = .ok u) (hf : ∀ rb, rb.url = u → RequestsOnly u (f rb)) :
    RequestsOnly u (c.postRequest path req >>= f) := by
  unfold RemoteClient.postRequest
  rw [h]
  exact hf _ rfl

theorem execute_requests (decode : Decoder α) {rb : RequestBuilder} (h : rb.url = u)
    (kind : CallKind) : RequestsOnly u (c.execute decode rb kind) :=
  h ▸ sendAuthorized_requests

theorem executeRevisioned_requests (decode : Decoder α) {rb : RequestBuilder} (h : rb.url = u) :
    RequestsOnly u (c.executeRevisioned decode rb) :=
  h ▸ sendAuthorized_requests

theorem coordinationGet_requests (decode : Decoder α) {m : IdMethod} {kind id : String}
    (hkind : m.kind = some kind) (hafter : m.after = none) :
    RequestsOnly (m.requested c id) (c.coordinationGet decode kind id) := by
  refine ensureCoordinationCapability_passes.requests fun _ => .url ?_ (execute_requests _ rfl _)
  exact url_requested c (by simp [hkind]) (by
    simp [IdMethod.before, hkind, hafter, Url.tailText, toString])

theorem coordinationTaskWrite_requests (decode : Decoder α) {m : IdMethod} {action id : String}
    {req : Json} (hkind : m.kind = some "tasks") (hafter : m.after = some action.toList) :
    RequestsOnly (m.requested c id) (c.coordinationTaskWrite decode action id req) := by
  refine ensureCoordinationCapability_passes.requests fun _ => .post ?_ fun rb hrb =>
    executeRevisioned_requests _ hrb
  exact url_requested c (by simp [hkind]) (by
    simp [IdMethod.before, hkind, hafter, Url.tailText, toString])

theorem coordinationMessageAck_requests (decode : Decoder α) {id : String} {req : Json} :
    RequestsOnly ((IdMethod.coordinationMessageAck req).requested c id)
      (c.coordinationMessageAck decode id req) := by
  refine ensureCoordinationCapability_passes.requests fun _ => .post ?_ fun rb hrb =>
    execute_requests _ hrb _
  refine url_requested c rfl ?_
  simp [IdMethod.before, IdMethod.kind, IdMethod.after, Url.tailText, toString]

theorem IdMethod.requests (m : IdMethod) (decode : Decoder α) (id : String) :
    RequestsOnly (m.requested c id) (m.exec c decode id) := by
  have hdrawer : ∀ rb : Url → RequestBuilder, ∀ kind, (∀ u, (rb u).url = u) →
      RequestsOnly (IdMethod.getDrawer.requested c id) (do
        let _ ← c.ensureHandshake
        let url ← ExceptT.mk (pure (c.drawerUrl id))
        c.execute decode (rb url) kind) := fun rb kind hrb =>
    ensureHandshake_passes.requests fun _ => .url (drawerUrl_ok c id) (execute_requests _ (hrb _) _)
  cases m with
  | getDrawer => exact (hdrawer _ _ fun _ => rfl).ignore
  | deleteDrawer => exact (hdrawer _ _ fun _ => rfl).ignore
  | deleteDrawerWithOperationId op => exact (hdrawer _ _ fun _ => rfl).ignore
  | coordinationTaskGet => exact (coordinationGet_requests decode rfl rfl).ignore
  | coordinationTaskClaim req => exact (coordinationTaskWrite_requests decode rfl rfl).ignore
  | coordinationTaskRenew req => exact (coordinationTaskWrite_requests decode rfl rfl).ignore
  | coordinationTaskTransition req => exact (coordinationTaskWrite_requests decode rfl rfl).ignore
  | coordinationMessageGet => exact (coordinationGet_requests decode rfl rfl).ignore
  | coordinationMessageAck req => exact (coordinationMessageAck_requests decode).ignore
  | coordinationArtifactGet => exact (coordinationGet_requests decode rfl rfl).ignore
  | coordinationResultGet => exact (coordinationGet_requests decode rfl rfl).ignore

/-- Every request of the method, once the handshake is done, has the id in its segment. -/
def IdStays (c : RemoteClient) (m : IdMethod) (decode : Decoder α) (id : String) : Prop :=
  ∀ s, s.info.isSome = true → ∀ new, ((m.exec c decode id).run s).2.sent = s.sent ++ new →
    ∀ x ∈ new, KeepsId c m id x

def deadNetwork : Network where
  token _ := none
  delivery _ :=
    { outcome := .error ⟨false, true, "connection refused"⟩, delivered := false, applied := false
      applied_delivered := id
      delivered_sent := fun _ _ h => (by cases h)
      applied_success := fun _ _ h => (by cases h) }
  recover _ _ _ := .ok false

def readySession : Session :=
  ⟨deadNetwork, some ⟨RemoteClient.federationApiVersion, ["coordination"]⟩, []⟩

theorem keeps_of_idStays {m : IdMethod} {decode : Decoder α} {id : String}
    (h : IdStays c m decode id) : m.keeps id = true := by
  obtain ⟨new, hsent, hurl, hnew⟩ := m.requests (c := c) decode id readySession _ rfl
  obtain ⟨x, hx⟩ := List.exists_mem_of_ne_nil _ (hnew ⟨rfl, by simp⟩)
  have hkeeps := (h readySession rfl new hsent x hx).2.2.2
  rw [hurl x hx] at hkeeps
  exact (m.requested_keeps c id).1 hkeeps

/-- **When an id stays in its segment**, for every method and every id. -/
theorem id_in_segment (c : RemoteClient) (m : IdMethod) (decode : Decoder α) (id : String) :
    IdStays c m decode id ↔ m.keeps id = true := by
  refine ⟨keeps_of_idStays, fun hkeeps s hinfo new hnew x hx => ?_⟩
  obtain ⟨info, hinfo⟩ := Option.isSome_iff_exists.1 hinfo
  obtain ⟨new', hsent, hurl, _⟩ := m.requests (c := c) decode id s info hinfo
  have hx' : x ∈ new' := List.append_cancel_left (hnew.symm.trans hsent) ▸ hx
  have horigin := m.requested_origin c id
  unfold KeepsId
  rw [hurl x hx']
  exact ⟨horigin.1, horigin.2.1, horigin.2.2, (m.requested_keeps c id).2 hkeeps⟩

end

/-! ## A task id that leaves its route -/

def sampleClient : RemoteClient where
  name := "hub"
  baseUrl := ⟨"https", "hub.example", none, ["palace".toList, []], none, none⟩
  special := .inr rfl
  slash := rfl
  codec :=
    { info := fun _ => .error "", preflight := fun _ => .ok (), errorBody := fun _ => none
      conflictBody := fun _ => none, fromUtf8Lossy := fun _ => "", parseOther := fun _ _ => none
      joinError := fun _ => "" }
  oauth := false

/-- A claim of the task `../../kg/facts?` posts to the facts of the graph. -/
theorem claim_posts_to_facts :
    ((IdMethod.coordinationTaskClaim (.obj [])).requested sampleClient "../../kg/facts?").path =
        ["palace".toList, "v1".toList, "kg".toList, "facts".toList] ∧
      ¬ IdStays sampleClient (.coordinationTaskClaim (.obj [])) (fun _ => .ok ())
        "../../kg/facts?" := by
  refine ⟨by rfl, fun h => ?_⟩
  have hkeeps := keeps_of_idStays h
  have hnot : (IdMethod.coordinationTaskClaim (.obj [])).keeps "../../kg/facts?" = false := by rfl
  rw [hnot] at hkeeps
  cases hkeeps

end AgentPalace.Remote
