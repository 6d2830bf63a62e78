import TelemetryApi.Auth
import TelemetryApi.Db
import TelemetryApi.Ndjson

/-!
# The ingest route

`POST /v1/events` of `app/routes/events.py`: the body is parsed by one of two
parsers, the objects are validated one after the other, and the rows of the
accepted ones go into one `INSERT`.
-/

namespace TelemetryApi

structure Request where
  authorization : Option String
  contentType : Option String
  body : Bytes

structure IngestResponse where
  accepted : Int
  rejected : Int
  errors : List String

/-- The objects of a body and the errors of its other records. -/
structure Parsed where
  rawObjects : List JsonObject
  parseErrors : List SoftError

/-- What the validation loop leaves for the `INSERT` and the answer. -/
structure Batch where
  parsed : Parsed
  rows : List OrmRow
  errors : List SoftError

section Parse

variable (rt : Runtime)

/-- The body goes to `parse_ndjson`. -/
def Request.isNdjson (req : Request) : Bool :=
  PyStr.contains "ndjson" (PyStr.lower (req.contentType.getD "")) ||
    decide ('\n' ∈ Utf8.decodeReplace req.body)

/-- One pass of the loop over the items of an array. -/
def itemStep (acc : List JsonObject × List SoftError) (entry : Json × Nat) :
    List JsonObject × List SoftError :=
  match entry.1 with
  | .obj fields => (acc.1 ++ [fields], acc.2)
  | _ => (acc.1, acc.2 ++ [.itemNotObject entry.2])

def splitItems (items : List Json) : List JsonObject × List SoftError :=
  (items.zipIdx 1).foldl itemStep ([], [])

/-- The body as one JSON value, an object or an array. -/
def parseJson (raw : Bytes) : Except PyExc Parsed :=
  match rt.loads (if raw = [] then nullText else raw) with
  | .error exc => .error (.http ⟨422, s!"could not parse JSON body: {exc}", []⟩)
  | .ok .null => .ok ⟨[], []⟩
  | .ok (.obj fields) => .ok ⟨[fields], []⟩
  | .ok (.arr items) => .ok ⟨(splitItems items).1, (splitItems items).2⟩
  | .ok _ => .error (.http ⟨422, "JSON body must be an object or array of objects", []⟩)

def parseBody (req : Request) : Except PyExc Parsed :=
  if req.isNdjson then .ok ⟨(parseNdjson rt req.body).1, (parseNdjson rt req.body).2⟩
  else parseJson rt req.body

/-- One pass of the validation loop; only a `ValidationError` is caught. -/
def validateStep (acc : List OrmRow × List SoftError) (entry : JsonObject × Nat) :
    Except PyExc (List OrmRow × List SoftError) :=
  match modelValidate rt entry.1 with
  | .ok ev => do
    let row ← toOrmRow ev
    return (acc.1 ++ [row], acc.2)
  | .error (.validation errors) =>
    .ok (acc.1, acc.2 ++ [.invalidEvent entry.2 (rt.errorsText errors)])
  | .error e => .error e

def validateAll (parsed : Parsed) : Except PyExc (List OrmRow × List SoftError) :=
  (parsed.rawObjects.zipIdx 1).foldlM (validateStep rt) ([], parsed.parseErrors)

end Parse

variable (settings : Settings) (rt : Runtime)

def bodyTooLarge (size : Nat) (limit : Int) : HttpError :=
  ⟨413, s!"body {size} bytes exceeds limit {limit}", []⟩

def tooManyEvents (count : Nat) (cap : Int) : HttpError :=
  ⟨413, s!"{count} events exceed per-request cap {cap}", []⟩

/-- The handler up to the `INSERT`. -/
def prepareBatch (req : Request) : Except PyExc Batch := do
  if settings.maxBodyBytes < req.body.length then
    throw (.http (bodyTooLarge req.body.length settings.maxBodyBytes))
  let parsed ← parseBody rt req
  if settings.maxEventsPerRequest < parsed.rawObjects.length then
    throw (.http (tooManyEvents parsed.rawObjects.length settings.maxEventsPerRequest))
  let (rows, errors) ← validateAll rt parsed
  return ⟨parsed, rows, errors⟩

/-- The answer to a batch whose rows are inserted. -/
def Batch.response (b : Batch) : IngestResponse where
  accepted := b.rows.length
  rejected := b.parsed.rawObjects.length + b.parsed.parseErrors.length - b.rows.length
  errors := (b.errors.take 25).map SoftError.text

/-- `ingest_events` -/
def ingestEvents (db : Database) (store : List OrmRow) (req : Request) (session : Session) :
    Except PyExc IngestResponse × Session :=
  match prepareBatch settings rt req with
  | .error e => (.error e, session)
  | .ok b =>
    -- without an accepted event there is no `INSERT`
    if b.rows = [] then (.ok b.response, session)
    else match session.execute db store b.rows with
      | (.error e, session) => (.error e, session)
      | (.ok (), session) => (.ok b.response, session)

/-! ## The route -/

inductive AnswerBody where
  | response (r : IngestResponse)
  | detail (text : String)
  | serverError

structure Answer where
  status : Nat
  body : AnswerBody
  headers : List (String × String)

/-- What FastAPI sends for the outcome of a request. An exception that is no
`HTTPException` reaches the outermost middleware. -/
def answerOf : Except PyExc IngestResponse → Answer
  | .ok r => ⟨200, .response r, []⟩
  | .error (.http e) => ⟨e.statusCode, .detail e.detail, e.headers⟩
  | .error _ => ⟨500, .serverError, []⟩

/-- `POST /v1/events`: the answer and the rows that have become durable. The
token is checked before the session is opened. -/
def postEvents (db : Database) (store : List OrmRow) (req : Request) : Answer × List OrmRow :=
  match settings.requireIngestToken req.authorization with
  | .error e => (answerOf (.error e), [])
  | .ok () =>
    let (outcome, inserted) := sessionScope db store (ingestEvents settings rt db store req)
    (answerOf outcome, inserted)

end TelemetryApi
