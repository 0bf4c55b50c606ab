import AgentPalace.Lib.Url
import AgentPalace.Server.Access

/-!
# The router

`routes` are the paths the server answers, each with its handlers; literal
segments go before a parameter, which takes any segment that is not empty. A
handler's route may require an operation of the token (`requires`).

Percent-encoding the segments of a path does not change where it goes
(`dispatchSegments_encode`).
-/

namespace AgentPalace.Server

inductive Method where
  | get
  | head
  | post
  | delete
  | other (name : String)
  deriving DecidableEq

inductive Handler where
  | routeHealth
  | routeInfo
  | routeDrawersSearch
  | routeDrawersCheckDuplicate
  | routeDrawersAdd
  | routeDrawersList
  | routeDrawersGet
  | routeDrawersDelete
  | routeKgQuery
  | routeKgAdd
  | routeKgInvalidate
  | routeKgTimeline
  | routeKgStats
  | routeTaxonomy
  | routeWings
  | routeRooms
  | routeChanges
  | routeIngestPreflight
  | routeIngestBatch
  | routeCoordinationTaskCreate
  | routeCoordinationTasks
  | routeCoordinationTaskGet
  | routeCoordinationTaskClaim
  | routeCoordinationTaskRenew
  | routeCoordinationTaskTransition
  | routeCoordinationMessageSend
  | routeCoordinationMessageGet
  | routeCoordinationMessageAck
  | routeCoordinationInbox
  | routeCoordinationArtifactPut
  | routeCoordinationArtifactGet
  | routeCoordinationResultPut
  | routeCoordinationResultGet
  | routeCoordinationEvents
  deriving DecidableEq

namespace Handler

/-- The operation that the route's layer requires. -/
def requires : Handler → Option Operation
  | routeHealth | routeInfo => none
  | routeDrawersSearch | routeDrawersCheckDuplicate | routeDrawersList | routeDrawersGet
  | routeKgQuery | routeKgTimeline | routeKgStats | routeTaxonomy | routeWings | routeRooms
  | routeChanges => some .read
  | routeDrawersAdd | routeKgAdd | routeKgInvalidate => some .write
  | routeDrawersDelete => some .delete
  | routeIngestPreflight | routeIngestBatch => some .ingest
  | routeCoordinationTasks | routeCoordinationTaskGet | routeCoordinationMessageGet
  | routeCoordinationInbox | routeCoordinationArtifactGet | routeCoordinationResultGet
  | routeCoordinationEvents => some .coordinationRead
  | routeCoordinationTaskCreate | routeCoordinationMessageSend | routeCoordinationMessageAck
  | routeCoordinationArtifactPut | routeCoordinationResultPut => some .coordinationWrite
  | routeCoordinationTaskClaim | routeCoordinationTaskRenew
  | routeCoordinationTaskTransition => some .coordinationClaim

/-- The handlers that change what the palace holds. -/
def mutates : Handler → Bool
  | routeDrawersAdd | routeDrawersDelete | routeKgAdd | routeKgInvalidate | routeIngestPreflight
  | routeIngestBatch | routeCoordinationTaskCreate | routeCoordinationTaskClaim
  | routeCoordinationTaskRenew | routeCoordinationTaskTransition | routeCoordinationMessageSend
  | routeCoordinationMessageAck | routeCoordinationArtifactPut
  | routeCoordinationResultPut => true
  | _ => false

def deletes (h : Handler) : Bool := h == routeDrawersDelete

end Handler

/-! ## Paths -/

inductive PatternPart where
  | lit (s : String)
  | param
  deriving DecidableEq

def PatternPart.accepts : PatternPart → List Char → Bool
  | lit s, segment => segment == s.toList
  | param, segment => !segment.isEmpty

def patternMatches : List PatternPart → List (List Char) → Bool
  | [], [] => true
  | p :: ps, s :: ss => p.accepts s && patternMatches ps ss
  | _, _ => false

structure Route where
  pattern : List PatternPart
  methods : List (Method × Handler)

open PatternPart in
/-- The routes, literal segments before parameters. -/
def routes : List Route := [
  ⟨[lit "v1", lit "health"], [(.get, .routeHealth)]⟩,
  ⟨[lit "v1", lit "info"], [(.get, .routeInfo)]⟩,
  ⟨[lit "v1", lit "drawers", lit "search"], [(.post, .routeDrawersSearch)]⟩,
  ⟨[lit "v1", lit "drawers", lit "check_duplicate"], [(.post, .routeDrawersCheckDuplicate)]⟩,
  ⟨[lit "v1", lit "drawers"], [(.post, .routeDrawersAdd), (.get, .routeDrawersList)]⟩,
  ⟨[lit "v1", lit "drawers", param], [(.get, .routeDrawersGet), (.delete, .routeDrawersDelete)]⟩,
  ⟨[lit "v1", lit "kg", lit "query"], [(.post, .routeKgQuery)]⟩,
  ⟨[lit "v1", lit "kg", lit "facts"], [(.post, .routeKgAdd)]⟩,
  ⟨[lit "v1", lit "kg", lit "facts", lit "invalidate"], [(.post, .routeKgInvalidate)]⟩,
  ⟨[lit "v1", lit "kg", lit "timeline"], [(.get, .routeKgTimeline)]⟩,
  ⟨[lit "v1", lit "kg", lit "stats"], [(.get, .routeKgStats)]⟩,
  ⟨[lit "v1", lit "taxonomy"], [(.get, .routeTaxonomy)]⟩,
  ⟨[lit "v1", lit "wings"], [(.get, .routeWings)]⟩,
  ⟨[lit "v1", lit "rooms"], [(.get, .routeRooms)]⟩,
  ⟨[lit "v1", lit "changes"], [(.get, .routeChanges)]⟩,
  ⟨[lit "v1", lit "coordination", lit "tasks"],
    [(.post, .routeCoordinationTaskCreate), (.get, .routeCoordinationTasks)]⟩,
  ⟨[lit "v1", lit "coordination", lit "tasks", param], [(.get, .routeCoordinationTaskGet)]⟩,
  ⟨[lit "v1", lit "coordination", lit "tasks", param, lit "claim"],
    [(.post, .routeCoordinationTaskClaim)]⟩,
  ⟨[lit "v1", lit "coordination", lit "tasks", param, lit "renew"],
    [(.post, .routeCoordinationTaskRenew)]⟩,
  ⟨[lit "v1", lit "coordination", lit "tasks", param, lit "transition"],
    [(.post, .routeCoordinationTaskTransition)]⟩,
  ⟨[lit "v1", lit "coordination", lit "messages"], [(.post, .routeCoordinationMessageSend)]⟩,
  ⟨[lit "v1", lit "coordination", lit "messages", param], [(.get, .routeCoordinationMessageGet)]⟩,
  ⟨[lit "v1", lit "coordination", lit "messages", param, lit "ack"],
    [(.post, .routeCoordinationMessageAck)]⟩,
  ⟨[lit "v1", lit "coordination", lit "inbox"], [(.get, .routeCoordinationInbox)]⟩,
  ⟨[lit "v1", lit "coordination", lit "artifacts"], [(.post, .routeCoordinationArtifactPut)]⟩,
  ⟨[lit "v1", lit "coordination", lit "artifacts", param], [(.get, .routeCoordinationArtifactGet)]⟩,
  ⟨[lit "v1", lit "coordination", lit "results"], [(.post, .routeCoordinationResultPut)]⟩,
  ⟨[lit "v1", lit "coordination", lit "results", param], [(.get, .routeCoordinationResultGet)]⟩,
  ⟨[lit "v1", lit "coordination", lit "events"], [(.get, .routeCoordinationEvents)]⟩,
  ⟨[lit "v1", lit "ingest", lit "preflight"], [(.post, .routeIngestPreflight)]⟩,
  ⟨[lit "v1", lit "ingest", lit "batch"], [(.post, .routeIngestBatch)]⟩]

/-- `HEAD` is answered by the handler of `GET`. -/
def servedAs (method : Method) : Method := if method = .head then .get else method

def dispatchSegments (method : Method) : List (List Char) → Option Handler
  | [] :: segments =>
    (routes.find? fun r => patternMatches r.pattern segments).bind fun r =>
      r.methods.lookup (servedAs method)
  | _ => none

/-- The handler of a request line; `none` is 404 or 405. -/
def dispatch (method : Method) (path : List Char) : Option Handler :=
  dispatchSegments method (path.splitOn '/')

/-! ## Encoded paths -/

open Url

/-- A text that percent-encoding leaves alone and never produces. -/
def plainText (s : String) : Bool := s.toList.all fun c => !pathSet c && c != '%'

theorem percentEncode_eq_plain {s : String} (hs : plainText s = true) {segment : List Char} :
    percentEncode pathSet segment = s.toList ↔ segment = s.toList := by
  rw [plainText, List.all_eq_true] at hs
  constructor
  · intro h
    rw [← h]
    refine (percentEncode_self fun c hc => ?_).symm
    by_contra hset
    rw [Bool.not_eq_false] at hset
    obtain ⟨b, bytes, hbytes⟩ := List.exists_cons_of_ne_nil (@String.utf8EncodeChar_ne_nil c)
    have hpercent : '%' ∈ percentEncode pathSet segment := by
      refine List.mem_flatMap.2 ⟨c, hc, ?_⟩
      simp [percentEncodeChar, hset, hbytes, percentEncodeByte]
    rw [h] at hpercent
    simpa using hs _ hpercent
  · rintro rfl
    exact percentEncode_self fun c hc => by
      have := hs c hc
      simp only [Bool.and_eq_true, Bool.not_eq_true'] at this
      exact this.1

theorem percentEncode_isEmpty (segment : List Char) :
    (percentEncode pathSet segment).isEmpty = segment.isEmpty := by
  cases segment with
  | nil => rfl
  | cons c cs =>
    obtain ⟨b, bytes, hbytes⟩ := List.exists_cons_of_ne_nil (@String.utf8EncodeChar_ne_nil c)
    rw [percentEncode_cons, percentEncodeChar]
    split
    · simp [hbytes, percentEncodeByte]
    · rfl

def PatternPart.plain : PatternPart → Bool
  | lit s => plainText s
  | param => true

theorem accepts_encode {p : PatternPart} (hp : p.plain = true) (segment : List Char) :
    p.accepts (percentEncode pathSet segment) = p.accepts segment := by
  cases p with
  | lit s =>
    rw [Bool.eq_iff_iff]
    simp only [PatternPart.accepts, beq_iff_eq]
    exact percentEncode_eq_plain hp
  | param => simp only [PatternPart.accepts, percentEncode_isEmpty]

theorem patternMatches_encode {pattern : List PatternPart} (h : pattern.all (·.plain) = true)
    (segments : List (List Char)) :
    patternMatches pattern (segments.map (percentEncode pathSet)) =
      patternMatches pattern segments := by
  induction pattern generalizing segments with
  | nil => cases segments <;> rfl
  | cons p ps ih =>
    rw [List.all_cons, Bool.and_eq_true] at h
    cases segments with
    | nil => rfl
    | cons s ss =>
      simp only [List.map_cons, patternMatches, accepts_encode h.1, ih h.2]

theorem routes_plain : routes.all (fun r => r.pattern.all (·.plain)) = true := by decide +kernel

theorem dispatchSegments_encode (method : Method) (segments : List (List Char)) :
    dispatchSegments method ([] :: segments.map (percentEncode pathSet)) =
      dispatchSegments method ([] :: segments) := by
  have hfind : ∀ rs : List Route, rs.all (fun r => r.pattern.all (·.plain)) = true →
      (rs.find? fun r => patternMatches r.pattern (segments.map (percentEncode pathSet))) =
        rs.find? fun r => patternMatches r.pattern segments := by
    intro rs hrs
    induction rs with
    | nil => rfl
    | cons r rs ih =>
      rw [List.all_cons, Bool.and_eq_true] at hrs
      rw [List.find?_cons, List.find?_cons, patternMatches_encode hrs.1, ih hrs.2]
  simp only [dispatchSegments, hfind routes routes_plain]

end AgentPalace.Server
