import EditorBack.LayeredRouter
import EditorBack.RunHandle

/-!
# The size limit of request bodies

`create_app` puts a `RequestBodyLimitLayer` of 1 MiB and the CORS layer around a
router that is still empty and merges the API routes in after them.  So neither
layer covers a route, and the only limit a body meets is the default one of the
`Json` extractor, which is twice as large and comes after the check of the
content type.

`limit_covers_iff` says for which bodies of more than 1 MiB that makes no
difference.
-/

namespace EditorBack

open LayeredRouter

inductive Method
  | get
  | head
  | post
  | put
  | delete
  | options
  | other
  deriving DecidableEq

/-- A request as it comes from the connection. -/
structure HttpRequest where
  method : Method
  /-- the segments of the path -/
  path : List String
  contentType : Option String
  contentLength : Option Nat
  body : List UInt8
  length_eq : ∀ n ∈ contentLength, n = body.length

/-- A request inside the router, with the limits put around its body. -/
structure Request where
  http : HttpRequest
  limits : List Nat

/-- `Limited::new` around the body. -/
def Request.limited (req : Request) (limit : Nat) : Request :=
  { req with limits := limit :: req.limits }

/-- The body, unless it exceeds one of its limits. -/
def Request.read (req : Request) : Option (List UInt8) :=
  if req.limits.all (req.http.body.length ≤ ·) then some req.http.body else none

/-- How far a request comes before a handler makes its first call. -/
inductive Reception
  /-- a layer, an extractor or the router answers -/
  | answered (status : Nat)
  | runHandle (sub : Submission)
  | getJob (jobId : Uuid)

/-- Why a body of JSON does not decode. -/
inductive JsonError
  | syntaxError
  | dataError

def JsonError.status : JsonError → Nat
  | .syntaxError => 400
  | .dataError => 422

/-- What the extractors take from outside: which content types are JSON, how a
body is decoded, and `Uuid::parse_str`. -/
structure Extractors where
  isJson : Option String → Bool
  decode : List UInt8 → Except JsonError RunRequest
  parseStr : String → Option Uuid

/-- The default limit of an extractor that reads the body. -/
def defaultBodyLimit : Nat := 2097152

/-- The extractor `Json<RunRequest>`, with the status of its `JsonRejection`. -/
def Extractors.json (ex : Extractors) (req : Request) : Except Nat RunRequest :=
  if ex.isJson req.http.contentType then
    match (req.limited defaultBodyLimit).read with
    | none => .error 413
    | some bytes =>
        match ex.decode bytes with
        | .ok request => .ok request
        | .error err => .error err.status
  else .error 415

/-! ## The router -/

namespace Api

/-- `post(handler)` -/
def post (handler : Request → Reception) (req : Request) : Reception :=
  if req.http.method = .post then handler req else .answered 405

/-- `get(handler)`, which takes `HEAD` as well. -/
def get (handler : Request → Reception) (req : Request) : Reception :=
  if req.http.method = .get ∨ req.http.method = .head then handler req else .answered 405

/-- The `{job_id}` of a path `/run/{job_id}`. -/
def jobSegment : List String → Option String
  | ["run", jobId] => if jobId = "" then none else some jobId
  | _ => none

section Service

variable (ex : Extractors) (id : Uuid)

/-- `run_handle`, under the id it draws. -/
def runHandle (req : Request) : Reception :=
  .runHandle (.receive (ex.json req) id)

/-- `get_job`, which has no extractor for the body. -/
def getJob (req : Request) : Reception :=
  match (jobSegment req.http.path).bind ex.parseStr with
  | some jobId => .getJob jobId
  | none => .answered 400

/-- `routes::router` -/
def router : Router Request Reception :=
  (Router.new.route (fun req => req.http.path = ["run"]) (post (runHandle ex id))).route
    (fun req => (jobSegment req.http.path).isSome) (get (getJob ex))

/-- `RequestBodyLimitLayer` -/
def requestBodyLimit (limit : Nat) (inner : Request → Reception) (req : Request) : Reception :=
  if req.http.contentLength.any (limit < ·) then .answered 413
  else inner (req.limited (req.http.contentLength.elim limit (min limit)))

/-- `CorsLayer`, which answers preflight requests. -/
def cors (inner : Request → Reception) (req : Request) : Reception :=
  if req.http.method = .options then .answered 200 else inner req

/-- The router of `create_app`. -/
def createApp : Router Request Reception :=
  ((Router.new.layer (requestBodyLimit (1024 * 1024))).layer cors).merge (router ex id)

/-- What the API does with a request. -/
def serve (http : HttpRequest) : Reception :=
  (createApp ex id).dispatch (fun _ => .answered 404) ⟨http, []⟩

end Service

end Api

/-- The routes of the API. -/
inductive Endpoint
  /-- `POST /run` -/
  | run
  /-- `GET /run/{job_id}` -/
  | job
  deriving DecidableEq

/-- The route a request is for. -/
def HttpRequest.endpoint (http : HttpRequest) : Option Endpoint :=
  if http.path = ["run"] ∧ http.method = .post then some .run
  else if (Api.jobSegment http.path).isSome ∧ (http.method = .get ∨ http.method = .head) then some .job
  else none

/-! ## What it means that a body is refused -/

/-- `ApiError::into_response` -/
def ApiError.status : ApiError → Nat
  | .internal _ => 500
  | .invalidJson => 400
  | .payloadTooLarge => 413

namespace Submission

/-- What a call does in a number of steps, the database being whatever it is at
each of them. -/
def run (sub : Submission) : List (Db × SubmissionInput) → Option (List SubmissionEffect)
  | [] => some []
  | (db, input) :: steps =>
      (sub.step input db).bind fun eff => (eff.submission.run steps).map (eff :: ·)

/-- Whatever the call still does, it inserts no row and sends no message. -/
def Inert (sub : Submission) : Prop :=
  ∀ steps effs, sub.run steps = some effs → ∀ eff ∈ effs, eff.event = none ∧ eff.accepted = none

/-- A call that is over stays as it is. -/
theorem Move.over {db : Db} {sub : Submission} {input : SubmissionInput} {eff : SubmissionEffect}
    (hm : Move db sub input eff) (hover : sub.isOver = true) :
    eff.submission = sub ∧ eff.event = none ∧ eff.accepted = none := by
  cases hm with
  | overCrashed _ => exact ⟨rfl, rfl, rfl⟩
  | crashed hactive =>
      rw [hover] at hactive
      cases hactive
  | inserted hp _ | insertLost hp _ | insertFailed hp _ | acked hp | unacked hp | refused hp =>
      simp [isOver, hp] at hover

theorem inert_of_isOver {sub : Submission} (hover : sub.isOver = true) : sub.Inert := by
  intro steps
  induction steps with
  | nil =>
      intro effs hrun eff heff
      cases hrun
      cases heff
  | cons step steps ih =>
      intro effs hrun eff heff
      obtain ⟨first, hfirst, hmap⟩ := Option.bind_eq_some_iff.mp hrun
      obtain ⟨rest, hrest, rfl⟩ := Option.map_eq_some_iff.mp hmap
      obtain ⟨hsame, hevent, haccepted⟩ := (step_move hfirst).over hover
      rw [hsame] at hrest
      rcases List.mem_cons.mp heff with rfl | hafter
      · exact ⟨hevent, haccepted⟩
      · exact ih rest hrest eff hafter

end Submission

namespace Reception

/-- The status of an answer that is already given. -/
def status : Reception → Option Nat
  | .answered status => some status
  | .runHandle ⟨.returned (.error err), _⟩ => some err.status
  | .runHandle _ | .getJob _ => none

/-- The request inserts no row and sends no message. -/
def Inert : Reception → Prop
  | .runHandle sub => sub.Inert
  | .answered _ | .getJob _ => True

end Reception

namespace Api

/-- **The limit covers a request**: with a body of more than 1 MiB, `POST /run` is
answered with 413 and has no effect, and on the other route the body is not read. -/
def LimitCovers (ex : Extractors) (id : Uuid) (http : HttpRequest) : Prop :=
  1024 * 1024 < http.body.length →
  match http.endpoint with
  | some .run => (serve ex id http).status = some 413 ∧ (serve ex id http).Inert
  | some .job => ∀ http' : HttpRequest, http'.method = http.method → http'.path = http.path →
      serve ex id http' = serve ex id http
  | none => True

section Serve

variable {ex : Extractors} {id : Uuid} {http : HttpRequest}

theorem endpoint_run (h : http.endpoint = some .run) :
    http.path = ["run"] ∧ http.method = .post := by
  unfold HttpRequest.endpoint at h
  split at h
  · assumption
  · split at h <;> cases h

theorem endpoint_job (h : http.endpoint = some .job) :
    (jobSegment http.path).isSome = true ∧ (http.method = .get ∨ http.method = .head) := by
  unfold HttpRequest.endpoint at h
  split at h
  · cases h
  · split at h
    · assumption
    · cases h

/-- The layers of `create_app` cover none of its routes. -/
theorem serviceFor_createApp (req : Request) :
    (createApp ex id).serviceFor req = (router ex id).serviceFor req := by
  refine Router.serviceFor_layer_merge ?_
  rw [Router.handles_layer]
  exact Router.not_handles_new

/-- `POST /run` reaches `run_handle` with the body as it came. -/
theorem serve_run (h : http.endpoint = some .run) :
    serve ex id http = runHandle ex id ⟨http, []⟩ := by
  obtain ⟨hpath, hmethod⟩ := endpoint_run h
  have hservice : (router ex id).serviceFor ⟨http, []⟩ = some (post (runHandle ex id)) := by
    rw [router, Router.serviceFor_route_of_handles]
    · exact Router.serviceFor_route Router.not_handles_new (by simp [hpath])
    · simp [hpath]
  rw [serve, Router.dispatch, serviceFor_createApp, hservice, Option.getD_some, post,
    if_pos hmethod]

/-- `GET /run/{job_id}` reaches `get_job`. -/
theorem serve_job (hpath : (jobSegment http.path).isSome = true)
    (hmethod : http.method = .get ∨ http.method = .head) :
    serve ex id http = getJob ex ⟨http, []⟩ := by
  have hservice : (router ex id).serviceFor ⟨http, []⟩ = some (get (getJob ex)) := by
    refine Router.serviceFor_route ?_ hpath
    have hrun : http.path ≠ ["run"] := by
      intro hrun
      rw [hrun] at hpath
      cases hpath
    simp [hrun]
  rw [serve, Router.dispatch, serviceFor_createApp, hservice, Option.getD_some, get,
    if_pos hmethod]

/-- What the extractor makes of the body of `POST /run`. -/
theorem json_tooLarge_iff :
    ex.json ⟨http, []⟩ = .error 413 ↔
      ex.isJson http.contentType = true ∧ defaultBodyLimit < http.body.length := by
  unfold Extractors.json
  cases hjson : ex.isJson http.contentType with
  | false => simp
  | true =>
      by_cases hlong : http.body.length ≤ defaultBodyLimit
      · have hread : (Request.limited ⟨http, []⟩ defaultBodyLimit).read = some http.body := by
          simp [Request.read, Request.limited, hlong]
        simp only [if_true, hread]
        cases ex.decode http.body with
        | ok request => simp [hlong]
        | error err => cases err <;> simp [JsonError.status, hlong]
      · have hread : (Request.limited ⟨http, []⟩ defaultBodyLimit).read = none := by
          simp [Request.read, Request.limited, hlong]
        simp only [if_true, hread]
        simp only [true_and, true_iff]
        omega

/-- `run_handle` answers with 413 exactly what the extractor rejects with it. -/
theorem status_runHandle_iff (req : Request) :
    (runHandle ex id req).status = some 413 ↔ ex.json req = .error 413 := by
  unfold runHandle Submission.receive
  cases hjson : ex.json req with
  | ok request => simp [Reception.status]
  | error status =>
      by_cases hstatus : status = 413
      · simp [Reception.status, hstatus, ApiError.status]
      · simp [Reception.status, hstatus, ApiError.status]

/-- What is answered with 413 has no effect. -/
theorem inert_runHandle {req : Request} (h : ex.json req = .error 413) :
    (runHandle ex id req).Inert := by
  rw [runHandle, h]
  exact Submission.inert_of_isOver rfl

/-- **The size limit covers a request exactly if** its body is not longer than
1 MiB, it is not for `POST /run`, or the body is JSON of more than 2 MiB.  Every
other request goes on to the stores or is answered with another status. -/
theorem limit_covers_iff :
    LimitCovers ex id http ↔
      http.body.length ≤ 1024 * 1024 ∨ http.endpoint ≠ some .run ∨
        (ex.isJson http.contentType = true ∧ defaultBodyLimit < http.body.length) := by
  unfold LimitCovers
  by_cases hlong : 1024 * 1024 < http.body.length
  swap
  · exact iff_of_true (fun h => absurd h hlong) (Or.inl (Nat.le_of_not_lt hlong))
  rw [forall_prop_of_true hlong, or_iff_right (Nat.not_le_of_gt hlong)]
  cases hroute : http.endpoint with
  | none => simp
  | some endpoint =>
      cases endpoint with
      | run =>
          dsimp only
          rw [serve_run hroute, status_runHandle_iff, ← json_tooLarge_iff,
            or_iff_right (not_not_intro rfl)]
          exact and_iff_left_of_imp inert_runHandle
      | job =>
          refine iff_of_true ?_ (Or.inl nofun)
          intro http' hmethod' hpath'
          obtain ⟨hpath, hmethod⟩ := endpoint_job hroute
          rw [serve_job hpath hmethod, serve_job (by rwa [hpath']) (by rwa [hmethod'])]
          unfold getJob
          rw [hpath']

end Serve

/-! ## Bodies between the two limits -/

/-- `{"code":"` and `"}` around `n` letters `a`. -/
def codeBody (n : Nat) : List UInt8 :=
  [123, 34, 99, 111, 100, 101, 34, 58, 34] ++ List.replicate n 97 ++ [34, 125]

theorem length_codeBody (n : Nat) : (codeBody n).length = n + 11 := by
  simp [codeBody]

def codeRequest (n : Nat) : HttpRequest where
  method := .post
  path := ["run"]
  contentType := some "application/json"
  contentLength := some (codeBody n).length
  body := codeBody n
  length_eq := by
    intro m hm
    cases hm
    rfl

/-- The extractors, as they act on `codeRequest n`. -/
def codeExtractors (n : Nat) : Extractors where
  isJson := fun contentType => contentType = some "application/json"
  decode := fun body =>
    if body = codeBody n then .ok ⟨String.ofList (List.replicate n 'a')⟩ else .error .syntaxError
  parseStr := fun _ => none

/-- Up to 2 MiB, the extractor passes the code on. -/
theorem json_codeRequest {n : Nat} (h : n + 11 ≤ defaultBodyLimit) :
    (codeExtractors n).json ⟨codeRequest n, []⟩ = .ok ⟨String.ofList (List.replicate n 'a')⟩ := by
  have hread : (Request.limited ⟨codeRequest n, []⟩ defaultBodyLimit).read = some (codeBody n) := by
    simp [Request.read, Request.limited, codeRequest, length_codeBody, h]
  have hdecode : (codeExtractors n).decode (codeBody n) =
      .ok ⟨String.ofList (List.replicate n 'a')⟩ := if_pos rfl
  have hjson : (codeExtractors n).isJson (codeRequest n).contentType = true := by
    simp [codeExtractors, codeRequest]
  rw [Extractors.json, if_pos hjson, hread]
  dsimp only
  rw [hdecode]

/-- A body of 1.5 MiB is accepted. -/
theorem large_body_accepted :
    serve (codeExtractors (1536 * 1024)) 7 (codeRequest (1536 * 1024)) =
        .runHandle ⟨.inserting (.submit 7 ⟨String.ofList (List.replicate (1536 * 1024) 'a')⟩), none⟩ ∧
      ¬ LimitCovers (codeExtractors (1536 * 1024)) 7 (codeRequest (1536 * 1024)) := by
  have hserve : serve (codeExtractors (1536 * 1024)) 7 (codeRequest (1536 * 1024)) =
      runHandle (codeExtractors (1536 * 1024)) 7 ⟨codeRequest (1536 * 1024), []⟩ := serve_run rfl
  have hsize : 1536 * 1024 + 11 ≤ defaultBodyLimit := by decide
  have hjson := json_codeRequest hsize
  refine ⟨?_, ?_⟩
  · rw [hserve, runHandle, hjson]
    rfl
  · intro hcovers
    have hlong : 1024 * 1024 < (codeRequest (1536 * 1024)).body.length := by
      simp [codeRequest, length_codeBody]
    have hstatus := (hcovers hlong).1
    rw [hserve, status_runHandle_iff, hjson] at hstatus
    cases hstatus

end Api

end EditorBack
