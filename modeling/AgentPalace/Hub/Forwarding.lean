import AgentPalace.Hub.Credentials
import AgentPalace.Server.Router

/-!
# Forwarding to the private origin

`forward` classifies a request by its method and path, checks the role and
resolves the path against the configured origin. `forward_keeps_route` says that
what is sent is what was classified, read by the URL parser and by the router of
the server.
-/

namespace AgentPalace.Hub

open Server (Method Operation Handler)

/-! ## The code -/

structure AuthorizedOwner where
  ownerId : String
  upstreamToken : String
  role : DemoRole

/-- A request target has no spaces and no control characters. -/
structure ForwardRequest where
  method : Method
  pathAndQuery : List Char
  target : ∀ c ∈ pathAndQuery, ' ' < c
  headers : List (String × String)
  body : List UInt8

inductive ForwardError where
  | unsupportedRoute
  | forbidden
  | spoofedIdentity
  | invalidOwner
  deriving DecidableEq

structure Forwarder where
  origin : Url
  special : origin.scheme = "http" ∨ origin.scheme = "https"

structure UpstreamRequest where
  method : Method
  url : Url
  bearer : String
  headers : List (String × String)
  body : Option (List UInt8)

def DemoRole.permits (role : DemoRole) (op : Operation) : Bool :=
  match role with
  | readonly => op == .read || op == .coordinationRead
  | write => op != .delete
  | admin => true

section
variable (path : List Char) (segments : List (List Char))

def oneOf (paths : List String) : Bool := paths.any fun p => path == p.toList

def segmentIs (s : String) (segment : List Char) : Bool := segment == s.toList

/-- `/v1/drawers/{id}`. -/
def isDrawerPath : Bool :=
  match segments with
  | [_, a, b, id] => segmentIs "v1" a && segmentIs "drawers" b && id != []
  | _ => false

/-- `/v1/coordination/{kind}/{id}`. -/
def isRecordPath : Bool :=
  match segments with
  | [_, a, b, kind, id] =>
    segmentIs "v1" a && segmentIs "coordination" b &&
      ["tasks", "messages", "artifacts", "results"].any (segmentIs · kind) && id != []
  | _ => false

/-- `/v1/coordination/{kind}/{id}/{action}`. -/
def isActionPath (kind : String) (actions : List String) : Bool :=
  match segments with
  | [_, a, b, k, id, action] =>
    segmentIs "v1" a && segmentIs "coordination" b && segmentIs kind k && id != [] &&
      actions.any (segmentIs · action)
  | _ => false

def searchPaths : List String := ["/v1/drawers/search", "/v1/drawers/check_duplicate", "/v1/kg/query"]

def getOperation : Option Operation :=
  if oneOf path ["/v1/health"] then some .read
  else if oneOf path ["/v1/info", "/v1/drawers", "/v1/kg/timeline", "/v1/kg/stats", "/v1/taxonomy",
      "/v1/wings", "/v1/rooms", "/v1/changes"] then some .read
  else if oneOf path ["/v1/coordination/tasks", "/v1/coordination/inbox",
      "/v1/coordination/events"] then some .coordinationRead
  else if oneOf path searchPaths then none
  else if isDrawerPath segments || isRecordPath segments then
    some (if "/v1/coordination/".toList.isPrefixOf path then .coordinationRead else .read)
  else none

def postOperation : Option Operation :=
  if oneOf path searchPaths then some .read
  else if oneOf path ["/v1/drawers", "/v1/kg/facts", "/v1/kg/facts/invalidate"] then some .write
  else if oneOf path ["/v1/ingest/preflight", "/v1/ingest/batch"] then some .ingest
  else if oneOf path ["/v1/coordination/tasks", "/v1/coordination/messages",
      "/v1/coordination/artifacts", "/v1/coordination/results"] then some .coordinationWrite
  else if isActionPath segments "tasks" ["claim", "renew", "transition"] then
    some .coordinationClaim
  else if isActionPath segments "messages" ["ack"] then some .coordinationWrite
  else none

def deleteOperation : Option Operation :=
  if isDrawerPath segments then some .delete else none

end

def containsText (s : String) (cs : List Char) : Bool := decide (s.toList <:+: cs)

/-- Targets that a URL parser may read in another way. -/
def ambiguous (pathQuery : List Char) : Bool :=
  let path := Url.pathOf pathQuery
  let lower := pathQuery.map Char.toLower
  pathQuery.contains '#' || pathQuery.contains '\\' || containsText "%2f" lower ||
    containsText "%5c" lower || containsText "%2e" lower ||
    "//".toList.isPrefixOf pathQuery || path.contains '#' ||
    (path.splitOn '/').any fun s => s == ".".toList || s == "..".toList

def routeOperation (method : Method) (pathQuery : List Char) : Option Operation :=
  let path := Url.pathOf pathQuery
  let segments := path.splitOn '/'
  if ambiguous pathQuery then none
  else
    match method with
    | .get | .head => getOperation path segments
    | .post => postOperation path segments
    | .delete => deleteOperation segments
    | .other _ => none

def sameOrigin (configured target : Url) : Bool :=
  configured.scheme == target.scheme && configured.host == target.host &&
    configured.port.or (defaultPort configured) == target.port.or (defaultPort target)
where
  defaultPort (u : Url) : Option Nat :=
    if u.scheme = "http" then some 80 else if u.scheme = "https" then some 443 else none

def isIdentityHeader (name : String) : Bool :=
  let lower := toAsciiLowercase name
  ["authorization", "x-owner", "x-identity"].contains lower ||
    ["x-owner-", "x-agentpalace-owner", "x-authenticated-owner", "x-authenticated-"].any
      fun start => start.toList.isPrefixOf lower.toList

def rejectIdentityHeaders (headers : List (String × String)) : Except ForwardError Unit :=
  if headers.any fun h => isIdentityHeader h.1 then .error .spoofedIdentity else .ok ()

mutual

def claimsOwner : Json → Bool
  | .obj fields => claimsOwnerFields fields
  | .arr items => claimsOwnerItems items
  | _ => false

def claimsOwnerItems : List Json → Bool
  | [] => false
  | item :: items => claimsOwner item || claimsOwnerItems items

def claimsOwnerFields : List (String × Json) → Bool
  | [] => false
  | (key, value) :: fields =>
    ["owner", "owner_id", "ownerid", "authenticated_owner", "authenticatedowner",
      "owner_metadata"].contains (toAsciiLowercase key) || claimsOwner value ||
      claimsOwnerFields fields

end

def rejectPayloadOwnerClaims (fromSlice : List UInt8 → Option Json) (body : List UInt8) :
    Except ForwardError Unit :=
  if body = [] then .ok ()
  else
    match fromSlice body with
    | none => .ok ()
    | some value => if claimsOwner value then .error .spoofedIdentity else .ok ()

def forwardedHeaders : List String := ["accept", "content-type", "idempotency-key", "x-operation-id"]

/-- The request that is sent; `fromSlice` parses a body, `parseOther` resolves
references that are no path from the root. -/
def Forwarder.forward (f : Forwarder) (parseOther : Url → List Char → Option Url)
    (fromSlice : List UInt8 → Option Json) (owner : AuthorizedOwner) (request : ForwardRequest) :
    Except ForwardError UpstreamRequest := do
  if isBlank owner.ownerId || isBlank owner.upstreamToken then throw .invalidOwner
  if !"/".toList.isPrefixOf request.pathAndQuery || "//".toList.isPrefixOf request.pathAndQuery then
    throw .unsupportedRoute
  let some operation := routeOperation request.method request.pathAndQuery
    | throw .unsupportedRoute
  if !owner.role.permits operation then throw .forbidden
  rejectIdentityHeaders request.headers
  rejectPayloadOwnerClaims fromSlice request.body
  let some url := Url.join parseOther f.origin request.pathAndQuery | throw .unsupportedRoute
  if !sameOrigin f.origin url then throw .unsupportedRoute
  return {
    method := request.method
    url
    bearer := owner.upstreamToken
    headers := forwardedHeaders.filterMap fun name => (request.headers.lookup name).map (name, ·)
    body := if request.body = [] then none else some request.body }

/-! ## Classification and dispatch -/

open Server

/-- The handler of a request requires the operation, or nothing and only reads. -/
def Fits (op : Operation) (handler : Handler) : Bool :=
  handler.requires == some op ||
    handler.requires == none && op == .read && !handler.mutates

/-- The router has a handler for the request, one that fits the operation. -/
def routed (method : Method) (path : List Char) (op : Operation) : Bool :=
  (dispatch method path).any (Fits op)

theorem oneOf_iff {path : List Char} {paths : List String} :
    oneOf path paths = true ↔ ∃ p ∈ paths, path = p.toList := by
  simp [oneOf]

theorem routed_of_oneOf {method : Method} {path : List Char} {paths : List String} {op : Operation}
    (h : oneOf path paths = true) (hall : paths.all fun p => routed method p.toList op) :
    routed method path op = true := by
  obtain ⟨p, hp, rfl⟩ := oneOf_iff.1 h
  exact List.all_eq_true.1 hall p hp

theorem isDrawerPath_cases {segments : List (List Char)} (h : isDrawerPath segments = true) :
    ∃ first id, segments = [first, "v1".toList, "drawers".toList, id] ∧ id ≠ [] := by
  unfold isDrawerPath at h
  split at h
  · rename_i first a b id
    simp only [segmentIs, Bool.and_eq_true, beq_iff_eq, bne_iff_ne, ne_eq] at h
    exact ⟨first, id, by rw [h.1.1, h.1.2], h.2⟩
  · cases h

theorem find_drawer {id : List Char} (hid : id ≠ []) (hsearch : id ≠ "search".toList)
    (hcheck : id ≠ "check_duplicate".toList) :
    (routes.find? fun r => patternMatches r.pattern ["v1".toList, "drawers".toList, id]) =
      some ⟨[.lit "v1", .lit "drawers", .param],
        [(.get, .routeDrawersGet), (.delete, .routeDrawersDelete)]⟩ := by
  have hne : id.isEmpty = false := by simpa using hid
  have hsearch : (id == ['s', 'e', 'a', 'r', 'c', 'h']) = false := by simpa using hsearch
  have hcheck : (id == ['c', 'h', 'e', 'c', 'k', '_', 'd', 'u', 'p', 'l', 'i', 'c', 'a', 't', 'e']) =
    false := by simpa using hcheck
  simp [routes, patternMatches, PatternPart.accepts, hne, hsearch, hcheck]

theorem isRecordPath_cases {segments : List (List Char)} (h : isRecordPath segments = true) :
    ∃ first kind id, segments = [first, "v1".toList, "coordination".toList, kind, id] ∧ id ≠ [] ∧
      ["tasks", "messages", "artifacts", "results"].any (segmentIs · kind) = true := by
  unfold isRecordPath at h
  split at h
  · rename_i first a b kind id
    simp only [Bool.and_eq_true, bne_iff_ne, ne_eq] at h
    obtain ⟨⟨⟨ha, hb⟩, hkind⟩, hid⟩ := h
    rw [segmentIs, beq_iff_eq] at ha hb
    exact ⟨first, kind, id, by rw [ha, hb], hid, hkind⟩
  · cases h

theorem find_record {kind id : List Char} (hid : id ≠ [])
    (hkind : ["tasks", "messages", "artifacts", "results"].any (segmentIs · kind) = true) :
    ∃ pattern handler, (routes.find? fun r =>
        patternMatches r.pattern ["v1".toList, "coordination".toList, kind, id]) =
      some ⟨pattern, [(.get, handler)]⟩ ∧ Fits .coordinationRead handler = true := by
  obtain ⟨c, id, rfl⟩ := List.exists_cons_of_ne_nil hid
  simp only [segmentIs, List.any_cons, List.any_nil, Bool.or_false, Bool.or_eq_true,
    beq_iff_eq] at hkind
  rcases hkind with rfl | rfl | rfl | rfl
  · refine ⟨[.lit "v1", .lit "coordination", .lit "tasks", .param], .routeCoordinationTaskGet, rfl, rfl⟩
  · refine ⟨[.lit "v1", .lit "coordination", .lit "messages", .param],
      .routeCoordinationMessageGet, rfl, rfl⟩
  · refine ⟨[.lit "v1", .lit "coordination", .lit "artifacts", .param],
      .routeCoordinationArtifactGet, rfl, rfl⟩
  · refine ⟨[.lit "v1", .lit "coordination", .lit "results", .param],
      .routeCoordinationResultGet, rfl, rfl⟩

theorem isActionPath_cases {segments : List (List Char)} {kind : String} {actions : List String}
    (h : isActionPath segments kind actions = true) :
    ∃ first id, ∃ action ∈ actions, id ≠ [] ∧
      segments = [first, "v1".toList, "coordination".toList, kind.toList, id, action.toList] := by
  unfold isActionPath at h
  split at h
  · rename_i first a b k id action
    simp only [segmentIs, Bool.and_eq_true, beq_iff_eq, bne_iff_ne, ne_eq, List.any_eq_true] at h
    obtain ⟨⟨⟨⟨ha, hb⟩, hk⟩, hid⟩, act, hact, haction⟩ := h
    exact ⟨first, id, act, hact, hid, by rw [ha, hb, hk, haction]⟩
  · cases h

theorem find_claim {id : List Char} (hid : id ≠ []) {action : String}
    (haction : action ∈ ["claim", "renew", "transition"]) :
    ∃ pattern handler, (routes.find? fun r => patternMatches r.pattern
        ["v1".toList, "coordination".toList, "tasks".toList, id, action.toList]) =
      some ⟨pattern, [(.post, handler)]⟩ ∧ Fits .coordinationClaim handler = true := by
  obtain ⟨c, id, rfl⟩ := List.exists_cons_of_ne_nil hid
  simp only [List.mem_cons, List.not_mem_nil, or_false] at haction
  rcases haction with rfl | rfl | rfl
  · refine ⟨[.lit "v1", .lit "coordination", .lit "tasks", .param, .lit "claim"],
      .routeCoordinationTaskClaim, rfl, rfl⟩
  · refine ⟨[.lit "v1", .lit "coordination", .lit "tasks", .param, .lit "renew"],
      .routeCoordinationTaskRenew, rfl, rfl⟩
  · refine ⟨[.lit "v1", .lit "coordination", .lit "tasks", .param, .lit "transition"],
      .routeCoordinationTaskTransition, rfl, rfl⟩

theorem find_ack {id : List Char} (hid : id ≠ []) :
    (routes.find? fun r => patternMatches r.pattern
        ["v1".toList, "coordination".toList, "messages".toList, id, "ack".toList]) =
      some ⟨[.lit "v1", .lit "coordination", .lit "messages", .param, .lit "ack"],
        [(.post, .routeCoordinationMessageAck)]⟩ := by
  obtain ⟨c, id, rfl⟩ := List.exists_cons_of_ne_nil hid
  rfl

/-! ### One method at a time -/

theorem routed_of_find {method : Method} {path : List Char} {segments : List (List Char)}
    {op : Operation} {route : Route} {handler : Handler}
    (hsegments : path.splitOn '/' = [] :: segments)
    (hfind : (routes.find? fun r => patternMatches r.pattern segments) = some route)
    (hhandler : route.methods.lookup (servedAs method) = some handler)
    (hfits : Fits op handler = true) : routed method path op = true := by
  simp [routed, dispatch, hsegments, dispatchSegments, hfind, hhandler, hfits]

theorem first_segment {path first : List Char} {segments : List (List Char)}
    (hslash : path.head? = some '/') (h : path.splitOn '/' = first :: segments) : first = [] := by
  cases path with
  | nil => cases hslash
  | cons c path =>
    cases hslash
    rw [List.splitOn_cons_eq_if_modifyHead] at h
    exact (List.cons.inj h).1.symm

theorem intercalate_segments {path : List Char} {segments : List (List Char)}
    (h : path.splitOn '/' = segments) : ['/'].intercalate segments = path :=
  h ▸ List.intercalate_splitOn '/'

theorem drawer_segments {path : List Char} (hslash : path.head? = some '/')
    (h : isDrawerPath (path.splitOn '/') = true) :
    ∃ id, path.splitOn '/' = [[], "v1".toList, "drawers".toList, id] ∧ id ≠ [] ∧
      path = "/v1/drawers/".toList ++ id := by
  obtain ⟨first, id, hsegments, hid⟩ := isDrawerPath_cases h
  have hfirst := first_segment hslash hsegments
  subst hfirst
  refine ⟨id, hsegments, hid, ?_⟩
  rw [← intercalate_segments hsegments]
  simp [List.intercalate, List.intersperse]

theorem find_drawer_path {path id : List Char} {own : List String} (hid : id ≠ [])
    (hpath : path = "/v1/drawers/".toList ++ id) (hsearch : "/v1/drawers/search" ∈ own)
    (hcheck : "/v1/drawers/check_duplicate" ∈ own) (hown : ¬ oneOf path own = true) :
    (routes.find? fun r => patternMatches r.pattern ["v1".toList, "drawers".toList, id]) =
      some ⟨[.lit "v1", .lit "drawers", .param],
        [(.get, .routeDrawersGet), (.delete, .routeDrawersDelete)]⟩ := by
  refine find_drawer hid ?_ ?_
  · rintro rfl
    exact hown (oneOf_iff.2 ⟨_, hsearch, hpath⟩)
  · rintro rfl
    exact hown (oneOf_iff.2 ⟨_, hcheck, hpath⟩)

theorem record_routed {path : List Char} (hslash : path.head? = some '/')
    (hrecord : isRecordPath (path.splitOn '/') = true) :
    routed .get path .coordinationRead = true ∧
      ∃ tail, path = "/v1/coordination/".toList ++ tail := by
  obtain ⟨first, kind, id, hsegments, hid, hkind⟩ := isRecordPath_cases hrecord
  have hfirst := first_segment hslash hsegments
  subst hfirst
  obtain ⟨pattern, handler, hfind, hfits⟩ := find_record hid hkind
  refine ⟨routed_of_find hsegments hfind rfl hfits, kind ++ '/' :: id, ?_⟩
  rw [← intercalate_segments hsegments]
  simp [List.intercalate, List.intersperse]

theorem getOperation_routed {method : Method} (hmethod : servedAs method = .get) {path : List Char}
    (hslash : path.head? = some '/') {op : Operation}
    (h : getOperation path (path.splitOn '/') = some op) : routed method path op = true := by
  have hget : ∀ p op, routed method p op = routed .get p op := by
    intro p op
    simp only [routed, dispatch, dispatchSegments, hmethod]
    rfl
  rw [hget]
  unfold getOperation at h
  split at h
  · rename_i hone
    cases h
    exact routed_of_oneOf hone (by decide +kernel)
  split at h
  · rename_i hone
    cases h
    exact routed_of_oneOf hone (by decide +kernel)
  split at h
  · rename_i hone
    cases h
    exact routed_of_oneOf hone (by decide +kernel)
  split at h
  · cases h
  split at h
  · rename_i hsearch hshape
    rw [Bool.or_eq_true] at hshape
    rcases hshape with hdrawer | hrecord
    · obtain ⟨id, hsegments, hid, hpath⟩ := drawer_segments hslash hdrawer
      rw [if_neg (by rw [hpath]; simp)] at h
      have hfind := find_drawer_path hid hpath (by simp [searchPaths]) (by simp [searchPaths]) hsearch
      exact Option.some.inj h ▸ routed_of_find hsegments hfind rfl (by decide)
    · obtain ⟨hread, tail, hpath⟩ := record_routed hslash hrecord
      rw [if_pos (by rw [hpath]; simp)] at h
      exact Option.some.inj h ▸ hread
  · cases h

theorem postOperation_routed {path : List Char} (hslash : path.head? = some '/') {op : Operation}
    (h : postOperation path (path.splitOn '/') = some op) : routed .post path op = true := by
  unfold postOperation at h
  split at h
  · rename_i hone
    cases h
    exact routed_of_oneOf hone (by decide +kernel)
  split at h
  · rename_i hone
    cases h
    exact routed_of_oneOf hone (by decide +kernel)
  split at h
  · rename_i hone
    cases h
    exact routed_of_oneOf hone (by decide +kernel)
  split at h
  · rename_i hone
    cases h
    exact routed_of_oneOf hone (by decide +kernel)
  split at h
  · rename_i hshape
    cases h
    obtain ⟨first, id, action, haction, hid, hsegments⟩ := isActionPath_cases hshape
    have hfirst := first_segment hslash hsegments
    subst hfirst
    obtain ⟨pattern, handler, hfind, hfits⟩ := find_claim hid haction
    exact routed_of_find hsegments hfind rfl hfits
  split at h
  · rename_i hshape
    cases h
    obtain ⟨first, id, action, haction, hid, hsegments⟩ := isActionPath_cases hshape
    rw [List.mem_singleton] at haction
    have hfirst := first_segment hslash hsegments
    subst hfirst haction
    exact routed_of_find hsegments (find_ack hid) rfl (by decide)
  · cases h

/-- The two paths that look like a drawer's but are routes of their own. -/
def ownRoutes : List String := ["/v1/drawers/search", "/v1/drawers/check_duplicate"]

theorem deleteOperation_routed {path : List Char} (hslash : path.head? = some '/') {op : Operation}
    (h : deleteOperation (path.splitOn '/') = some op) :
    if oneOf path ownRoutes then dispatch .delete path = none
    else routed .delete path op = true := by
  unfold deleteOperation at h
  split at h
  · rename_i hdrawer
    cases h
    obtain ⟨id, hsegments, hid, hpath⟩ := drawer_segments hslash hdrawer
    split
    · rename_i hown
      obtain ⟨p, hp, rfl⟩ := oneOf_iff.1 hown
      have hall : ∀ p ∈ ownRoutes, dispatch .delete p.toList = none := by decide +kernel
      exact hall p hp
    · rename_i hown
      have hfind := find_drawer_path hid hpath (by simp [ownRoutes]) (by simp [ownRoutes]) hown
      exact routed_of_find hsegments hfind rfl (by decide)
  · cases h

/-! ## What is sent -/

theorem forward_cases {f : Forwarder} {parseOther : Url → List Char → Option Url}
    {fromSlice : List UInt8 → Option Json} {owner : AuthorizedOwner} {request : ForwardRequest}
    {sent : UpstreamRequest} (h : f.forward parseOther fromSlice owner request = .ok sent) :
    request.pathAndQuery.head? = some '/' ∧ ¬ "//".toList.isPrefixOf request.pathAndQuery = true ∧
      ∃ op, routeOperation request.method request.pathAndQuery = some op ∧
        owner.role.permits op = true ∧ sent.method = request.method ∧
        Url.join parseOther f.origin request.pathAndQuery = some sent.url := by
  unfold Forwarder.forward at h
  by_cases howner : (isBlank owner.ownerId || isBlank owner.upstreamToken) = true
  · rw [if_pos howner] at h
    cases h
  rw [if_neg howner] at h
  by_cases hform : (!"/".toList.isPrefixOf request.pathAndQuery ||
      "//".toList.isPrefixOf request.pathAndQuery) = true
  · simp only [hform, if_true] at h
    cases h
  simp only [hform, Bool.false_eq_true, if_false] at h
  cases hop : routeOperation request.method request.pathAndQuery with
  | none =>
    rw [hop] at h
    cases h
  | some op =>
    rw [hop] at h
    by_cases hpermits : owner.role.permits op = true
    · simp only [hpermits, Bool.not_true, Bool.false_eq_true, if_false] at h
      cases hheaders : rejectIdentityHeaders request.headers with
      | error e =>
        rw [hheaders] at h
        cases h
      | ok _ =>
        rw [hheaders] at h
        cases hbody : rejectPayloadOwnerClaims fromSlice request.body with
        | error e =>
          rw [hbody] at h
          cases h
        | ok _ =>
          rw [hbody] at h
          cases hjoin : Url.join parseOther f.origin request.pathAndQuery with
          | none =>
            rw [hjoin] at h
            cases h
          | some url =>
            rw [hjoin] at h
            by_cases horigin : sameOrigin f.origin url = true
            · simp only [horigin, Bool.not_true, Bool.false_eq_true, if_false] at h
              cases h
              rw [Bool.or_eq_true, not_or] at hform
              refine ⟨?_, hform.2, op, rfl, hpermits, rfl, rfl⟩
              have hslash := hform.1
              cases hcs : request.pathAndQuery with
              | nil => simp [hcs] at hslash
              | cons c cs =>
                rw [hcs, Bool.not_eq_true', Bool.not_eq_false] at hslash
                have hc : ('/' == c && [].isPrefixOf cs) = true := hslash
                rw [Bool.and_eq_true, beq_iff_eq] at hc
                rw [← hc.1]
                rfl
            · simp only [Bool.eq_false_iff.2 horigin, Bool.not_false, if_true] at h
              cases h
    · simp only [Bool.eq_false_iff.2 hpermits, Bool.not_false, if_true] at h
      cases h

theorem join_classified {parseOther : Url → List Char → Option Url} {base : Url}
    {request : ForwardRequest} (hslash : request.pathAndQuery.head? = some '/') {op : Operation}
    (hop : routeOperation request.method request.pathAndQuery = some op) :
    ∃ u, Url.join parseOther base request.pathAndQuery = some u ∧ u.scheme = base.scheme ∧
      u.host = base.host ∧ u.port = base.port ∧
      [] :: u.path =
        ((Url.pathOf request.pathAndQuery).splitOn '/').map (Url.percentEncode Url.pathSet) ∧
      u.pathText.splitOn '/' = [] :: u.path := by
  obtain ⟨rest, htext⟩ : ∃ rest, request.pathAndQuery = '/' :: rest := by
    cases hcs : request.pathAndQuery with
    | nil => simp [hcs] at hslash
    | cons c rest => exact ⟨rest, by simpa [hcs] using hslash⟩
  have hclear : ambiguous request.pathAndQuery = false := by
    unfold routeOperation at hop
    simp only at hop
    split at hop
    · cases hop
    · rename_i hclear
      exact Bool.eq_false_iff.2 hclear
  rw [htext] at hclear
  simp only [ambiguous, Bool.or_eq_false_iff, containsText, decide_eq_false_iff_not] at hclear
  obtain ⟨⟨⟨⟨⟨⟨⟨hhash, hback⟩, _⟩, _⟩, hescaped⟩, hdouble⟩, _⟩, hdots⟩ := hclear
  have htarget := request.target
  rw [htext] at htarget
  have hpath : Url.pathOf ('/' :: rest) = '/' :: Url.pathOf rest := rfl
  rw [hpath, List.splitOn_cons_eq_if_modifyHead, if_pos (by simp)] at hdots
  have hsingle : rest.head? ≠ some '/' := by
    intro h
    cases rest with
    | nil => cases h
    | cons c rest =>
      cases h
      simp at hdouble
  have hplain : ∀ c ∈ rest, c ≠ '\\' ∧ c ≠ '#' := by
    intro c hc
    constructor
    · rintro rfl
      simp [hc] at hback
    · rintro rfl
      simp [hc] at hhash
  have hsegments : ∀ s ∈ (Url.pathOf rest).splitOn '/', Url.isDots s = false := by
    intro s hs
    rw [List.any_cons, Bool.or_eq_false_iff, List.any_eq_false] at hdots
    have hdot := hdots.2 s hs
    simp only [Bool.or_eq_true, beq_iff_eq, not_or] at hdot
    refine Url.isDots_plain ?_ hdot hescaped
    refine (Url.infix_of_mem_splitOn hs).trans ?_
    exact (List.takeWhile_prefix _).isInfix.trans (List.suffix_cons _ _).isInfix
  obtain ⟨u, hjoin, hscheme, hhost, hport, hpathOf, hpathText⟩ :=
    Url.join_segments parseOther base htarget hsingle hplain hsegments
  rw [htext, hpath, List.splitOn_cons_eq_if_modifyHead, if_pos (by simp)]
  exact ⟨u, hjoin, hscheme, hhost, hport, by rw [hpathOf]; rfl, hpathText⟩

theorem routeOperation_routed {method : Method} {pathQuery : List Char} {op : Operation}
    (hslash : (Url.pathOf pathQuery).head? = some '/')
    (h : routeOperation method pathQuery = some op) :
    (method = .delete ∧ oneOf (Url.pathOf pathQuery) ownRoutes = true ∧
        dispatch method (Url.pathOf pathQuery) = none) ∨
      routed method (Url.pathOf pathQuery) op = true := by
  unfold routeOperation at h
  simp only at h
  split at h
  · cases h
  cases method with
  | get => exact .inr (getOperation_routed rfl hslash h)
  | head => exact .inr (getOperation_routed rfl hslash h)
  | post => exact .inr (postOperation_routed hslash h)
  | delete =>
    have hdelete := deleteOperation_routed hslash h
    split at hdelete
    · rename_i hown
      exact .inl ⟨rfl, hown, hdelete⟩
    · exact .inr hdelete
  | other name => cases h

theorem fits_iff {op : Operation} {handler : Handler} : Fits op handler = true ↔
    handler.requires = some op ∨
      (handler.requires = none ∧ op = .read) ∧ handler.mutates = false := by
  simp [Fits]

theorem requires_read {handler : Handler}
    (h : handler.requires = some .read ∨ handler.requires = some .coordinationRead) :
    handler.mutates = false := by
  cases handler <;> simp [Handler.requires, Handler.mutates] at h ⊢

theorem fits_readonly {role : DemoRole} {op : Operation} {handler : Handler}
    (hfits : Fits op handler = true) (hpermits : role.permits op = true) (hrole : role = .readonly) :
    handler.mutates = false := by
  subst hrole
  rw [DemoRole.permits, Bool.or_eq_true, beq_iff_eq, beq_iff_eq] at hpermits
  rcases fits_iff.1 hfits with hop | ⟨_, hreads⟩
  · refine requires_read (hpermits.imp ?_ ?_) <;> (rintro rfl; exact hop)
  · exact hreads

theorem fits_deletes {role : DemoRole} {op : Operation} {handler : Handler}
    (hfits : Fits op handler = true) (hpermits : role.permits op = true)
    (hdeletes : handler.deletes = true) : role = .admin := by
  rw [Handler.deletes, beq_iff_eq] at hdeletes
  subst hdeletes
  rcases fits_iff.1 hfits with hop | ⟨_, hreads⟩
  · cases hop
    cases role with
    | readonly => cases hpermits
    | write => cases hpermits
    | admin => rfl
  · cases hreads

theorem dispatch_encoded {method : Method} {path : List Char} {u : Url}
    (hslash : path.head? = some '/')
    (hpath : [] :: u.path = (path.splitOn '/').map (Url.percentEncode Url.pathSet))
    (htext : u.pathText.splitOn '/' = [] :: u.path) :
    dispatch method u.pathText = dispatch method path := by
  cases hsegments : path.splitOn '/' with
  | nil => simp at hsegments
  | cons first segments =>
    have hfirst := first_segment hslash hsegments
    subst hfirst
    rw [hsegments, List.map_cons] at hpath
    rw [dispatch, dispatch, htext, hsegments, (List.cons.inj hpath).2, dispatchSegments_encode]

/-- **Forwarding keeps the authorised route**: what is sent goes to the
configured origin, with the segments that were classified; a handler that the
router gives it requires the classified operation, or nothing and reads, so
read-only owners reach no handler that changes anything, and only admins one
that deletes. -/
theorem forward_keeps_route (f : Forwarder) (parseOther : Url → List Char → Option Url)
    (fromSlice : List UInt8 → Option Json) (owner : AuthorizedOwner) (request : ForwardRequest)
    {sent : UpstreamRequest} (h : f.forward parseOther fromSlice owner request = .ok sent) :
    ∃ op, routeOperation request.method request.pathAndQuery = some op ∧
      sent.method = request.method ∧ sent.url.scheme = f.origin.scheme ∧
      sent.url.host = f.origin.host ∧ sent.url.port = f.origin.port ∧
      [] :: sent.url.path =
        ((Url.pathOf request.pathAndQuery).splitOn '/').map (Url.percentEncode Url.pathSet) ∧
      (∀ handler, dispatch sent.method sent.url.pathText = some handler →
        (handler.requires = some op ∨ handler.requires = none ∧ op = .read) ∧
        (owner.role = .readonly → handler.mutates = false) ∧
        (handler.deletes = true → owner.role = .admin)) ∧
      (¬ (request.method = .delete ∧ oneOf (Url.pathOf request.pathAndQuery) ownRoutes = true) →
        (dispatch sent.method sent.url.pathText).isSome = true) := by
  obtain ⟨hslash, _, op, hop, hpermits, hmethod, hjoin⟩ := forward_cases h
  obtain ⟨u, hjoin', hscheme, hhost, hport, hpath, htext⟩ :=
    @join_classified parseOther f.origin request hslash op hop
  obtain rfl : sent.url = u := Option.some.inj (hjoin.symm.trans hjoin')
  have hpathSlash : (Url.pathOf request.pathAndQuery).head? = some '/' := by
    cases hcs : request.pathAndQuery with
    | nil => simp [hcs] at hslash
    | cons c cs =>
      rw [hcs, List.head?_cons, Option.some.injEq] at hslash
      rw [hslash]
      rfl
  have hdispatch := @dispatch_encoded request.method _ _ hpathSlash hpath htext
  refine ⟨op, hop, hmethod, hscheme, hhost, hport, hpath, ?_, ?_⟩
  · intro handler hhandler
    rw [hmethod, hdispatch] at hhandler
    have hfits : Fits op handler = true := by
      rcases routeOperation_routed hpathSlash hop with ⟨_, _, hnone⟩ | hrouted
      · rw [hnone] at hhandler
        cases hhandler
      · rwa [routed, hhandler] at hrouted
    refine ⟨(fits_iff.1 hfits).imp_right And.left, fits_readonly hfits hpermits, ?_⟩
    exact fits_deletes hfits hpermits
  · intro hother
    rw [hmethod, hdispatch]
    rcases routeOperation_routed hpathSlash hop with ⟨hdelete, hown, _⟩ | hrouted
    · exact absurd ⟨hdelete, hown⟩ hother
    · rw [routed, Option.any_eq_true] at hrouted
      obtain ⟨handler, hhandler, _⟩ := hrouted
      simp [hhandler]

theorem target_of_all {path : List Char} (h : (path.all fun c => Nat.blt 32 c.toNat) = true) :
    ∀ c ∈ path, ' ' < c := by
  intro c hc
  have hlt : 32 < c.toNat := by
    rw [← Nat.blt_eq]
    exact List.all_eq_true.1 h c hc
  exact UInt32.lt_iff_toNat_lt.2 hlt

def palaceForwarder : Forwarder where
  origin := ⟨"http", "palace", some 8080, [[]], none, none⟩
  special := .inl rfl

def readonlyOwner : AuthorizedOwner := ⟨"owner-1", "upstream-token", .readonly⟩

def drawerRequest : ForwardRequest where
  method := .get
  pathAndQuery := "/v1/drawers/d-{1}?view=main".toList
  target := target_of_all (by decide +kernel)
  headers := [("accept", "application/json")]
  body := []

theorem forward_keeps_route_sample :
    ∃ sent, palaceForwarder.forward (fun _ _ => none) (fun _ => none) readonlyOwner drawerRequest =
        .ok sent ∧ sent.url.host = "palace" ∧
      (dispatch sent.method sent.url.pathText).isSome = true := by
  have hsent : (palaceForwarder.forward (fun _ _ => none) (fun _ => none) readonlyOwner
      drawerRequest).isOk = true := by decide +kernel
  cases h : palaceForwarder.forward (fun _ _ => none) (fun _ => none) readonlyOwner drawerRequest with
  | error e =>
    rw [h] at hsent
    cases hsent
  | ok sent =>
    obtain ⟨op, _, _, _, hhost, _, _, _, hdispatch⟩ := forward_keeps_route palaceForwarder
      (fun _ _ => none) (fun _ => none) readonlyOwner drawerRequest h
    exact ⟨sent, rfl, hhost, hdispatch fun hdelete => by cases hdelete.1⟩

def infoRequest : ForwardRequest where
  method := .get
  pathAndQuery := "/v1/info".toList
  target := target_of_all (by decide +kernel)
  headers := []
  body := []

/-- The route of `/v1/info` has no gate, so it requires no operation. -/
theorem info_requires_nothing :
    ∃ sent, palaceForwarder.forward (fun _ _ => none) (fun _ => none) readonlyOwner infoRequest =
        .ok sent ∧
      routeOperation infoRequest.method infoRequest.pathAndQuery = some .read ∧
      ¬ ∃ handler, dispatch sent.method sent.url.pathText = some handler ∧
        handler.requires = some .read := by
  have hsent : ((palaceForwarder.forward (fun _ _ => none) (fun _ => none) readonlyOwner
      infoRequest).toOption.map fun sent => dispatch sent.method sent.url.pathText) =
        some (some .routeInfo) := by decide +kernel
  cases h : palaceForwarder.forward (fun _ _ => none) (fun _ => none) readonlyOwner infoRequest with
  | error e =>
    rw [h] at hsent
    cases hsent
  | ok sent =>
    rw [h] at hsent
    have hinfo : dispatch sent.method sent.url.pathText = some .routeInfo := Option.some.inj hsent
    refine ⟨sent, rfl, by decide +kernel, ?_⟩
    rintro ⟨handler, hhandler, hrequires⟩
    rw [hinfo] at hhandler
    cases hhandler
    cases hrequires

end AgentPalace.Hub
