import TelemetryApi.Foundations.Projection
import TelemetryApi.Main
import TelemetryApi.Routes.Commits

/-!
# The ingest route behind the metrics

`POST /v1/events` of one process with `MetricsMiddleware` around it, step by step: the
middleware's steps and those of the handler and its session interleave with those of all
other requests, and commits and metrics go into one log. It is a run of the server and a run
of the metrics at once, and what the metrics count bounds what the table has.
-/

namespace TelemetryApi

/-- An ingest request as the middleware sees it. -/
structure IngestCall where
  req : Request
  urlPath : String

/-- The middleware's view of the request, when the call comes to `inner`. -/
def IngestCall.http (call : IngestCall) (inner : Except PyExc Nat) : HttpCall :=
  ⟨"POST", "/v1/events", call.urlPath, inner⟩

/-- How far a request has come in the middleware and, while it is called, behind it. -/
inductive MeteredStage where
  | received (route : Option Route)
  | calling (label : String) (route : Option Route) (stage : Stage)
  | returned (label : String) (status : Nat) (outcome : Except PyExc IngestResponse)
  | raised (label : String) (outcome : Except PyExc IngestResponse)
  | counted (label : String) (status : Nat) (outcome : Except PyExc IngestResponse)
  | finished (outcome : Except PyExc IngestResponse)
  /-- The task was cancelled in the call, and the timer is closed. -/
  | cancelled (label : String)

/-- A commit, or what the request adds to the metrics and sends. -/
abbrev MeteredEvent := List OrmRow ⊕ RequestEvent

variable (settings : Settings) (rt : Runtime)

inductive MeteredStep (call : IngestCall) :
    MeteredStage → Option MeteredEvent → MeteredStage → Prop
  | label (route : Option Route) :
      MeteredStep call (.received route) none
        (.calling (pathLabel route call.urlPath) route .received)
  | route (label : String) (route : Option Route) (stage : Stage) :
      MeteredStep call (.calling label route stage) none
        (.calling label (Route.find routes "POST" "/v1/events") stage)
  /-- The handler and its session take a step. What they leave is answered by the middleware. -/
  | serve (label : String) (route : Option Route) {stage stage' : Stage}
      {out : Option (List OrmRow)} (h : RequestStep settings rt call.req stage out stage')
      (hopen : ∀ a, stage' ≠ .answered a) :
      MeteredStep call (.calling label route stage) (out.map .inl) (.calling label route stage')
  | respond (label : String) (route : Option Route) {outcome : Except PyExc IngestResponse}
      {status : Nat} (h : handled outcome = .ok status) :
      MeteredStep call (.calling label route (.closed outcome))
        (some (.inr (.observed "POST" label))) (.returned label status outcome)
  | raise (label : String) (route : Option Route) {outcome : Except PyExc IngestResponse}
      {e : PyExc} (h : handled outcome = .error e) :
      MeteredStep call (.calling label route (.closed outcome))
        (some (.inr (.observed "POST" label))) (.raised label outcome)
  | cancel (label : String) (route : Option Route) :
      MeteredStep call (.calling label route .gone) (some (.inr (.observed "POST" label)))
        (.cancelled label)
  | count (label : String) (status : Nat) (outcome : Except PyExc IngestResponse) :
      MeteredStep call (.returned label status outcome)
        (some (.inr (.counted "POST" label status))) (.counted label status outcome)
  | send (label : String) (status : Nat) (outcome : Except PyExc IngestResponse) :
      MeteredStep call (.counted label status outcome)
        (some (.inr (.sent "POST" call.urlPath status))) (.finished outcome)
  | sendError (label : String) (outcome : Except PyExc IngestResponse) :
      MeteredStep call (.raised label outcome) (some (.inr (.sent "POST" call.urlPath 500)))
        (.finished outcome)

abbrev MeteredServer := Tasks IngestCall MeteredStage MeteredEvent

abbrev MeteredServer.Reachable (t : MeteredServer) : Prop :=
  Relation.ReflTransGen (Tasks.Step (MeteredStep settings rt) (.received none))
    (Tasks.empty (.received none)) t

variable {settings rt}

/-! ## The server -/

/-- The stage of the request behind the middleware. -/
def MeteredStage.served : MeteredStage → Stage
  | .received _ => .received
  | .calling _ _ stage => stage
  | .returned _ _ outcome | .raised _ outcome | .counted _ _ outcome => .closed outcome
  | .finished outcome => .answered (answerOf outcome)
  | .cancelled _ => .gone

def MeteredServer.server (t : MeteredServer) : Server :=
  t.project (fun _ call => call.req) MeteredStage.served Sum.getLeft?

theorem MeteredStep.served {call : IngestCall} {s s' : MeteredStage} {out : Option MeteredEvent}
    (h : MeteredStep settings rt call s out s') :
    RequestStep settings rt call.req s.served (out.bind Sum.getLeft?) s'.served ∨
      out.bind Sum.getLeft? = none ∧ s'.served = s.served := by
  cases h with
  | label route => exact .inr ⟨rfl, rfl⟩
  | route label route stage => exact .inr ⟨rfl, rfl⟩
  | @serve label route stage stage' out hstep _ =>
    have hout : (out.map Sum.inl : Option MeteredEvent).bind Sum.getLeft? = out := by
      cases out <;> rfl
    rw [hout]
    exact .inl hstep
  | respond label route hstatus => exact .inr ⟨rfl, rfl⟩
  | raise label route herror => exact .inr ⟨rfl, rfl⟩
  | cancel label route => exact .inr ⟨rfl, rfl⟩
  | count label status outcome => exact .inr ⟨rfl, rfl⟩
  | send label status outcome => exact .inl (.answer outcome)
  | sendError label outcome => exact .inl (.answer outcome)

/-! ## The metrics -/

/-- How far `dispatch` has come. -/
def MeteredStage.dispatch : MeteredStage → Dispatch
  | .received route => .received route
  | .calling label route _ => .calling label route
  | .returned label status _ => .returned label status
  | .raised label _ | .cancelled label => .raised label
  | .counted label status _ => .counted label status
  | .finished _ => .finished

/-- The metrics, when each call comes to what is foretold. -/
def MeteredServer.app (inner : Nat → Except PyExc Nat) (t : MeteredServer) : App :=
  t.project (fun i call => call.http (inner i)) MeteredStage.dispatch Sum.getRight?

/-- What is foretold of the call is what it has come to. -/
def MeteredStage.Foretells (inner : Except PyExc Nat) : MeteredStage → Prop
  | .received _ | .calling _ _ _ => True
  | .returned _ _ outcome | .raised _ outcome | .counted _ _ outcome | .finished outcome =>
    inner = handled outcome
  | .cancelled _ => ∃ e, inner = .error e

def MeteredServer.Foretold (inner : Nat → Except PyExc Nat) (t : MeteredServer) : Prop :=
  ∀ i call, t.jobs[i]? = some call → (t.stage i).Foretells (inner i)

theorem MeteredStep.foretells {call : IngestCall} {s s' : MeteredStage} {out : Option MeteredEvent}
    (h : MeteredStep settings rt call s out s') {inner : Except PyExc Nat}
    (hinner : s'.Foretells inner) : s.Foretells inner := by
  cases h with
  | count label status outcome => exact hinner
  | send label status outcome => exact hinner
  | sendError label outcome => exact hinner
  | _ => trivial

theorem MeteredStep.dispatch {call : IngestCall} {s s' : MeteredStage} {out : Option MeteredEvent}
    (h : MeteredStep settings rt call s out s') {inner : Except PyExc Nat}
    (hinner : s'.Foretells inner) :
    DispatchStep (call.http inner) s.dispatch (out.bind Sum.getRight?) s'.dispatch ∨
      out.bind Sum.getRight? = none ∧ s'.dispatch = s.dispatch := by
  cases h with
  | label route => exact .inl (.label route)
  | route label route stage => exact .inl (.route label route)
  | @serve label route stage stage' out hstep _ =>
    refine .inr ⟨?_, rfl⟩
    cases out <;> rfl
  | respond label route hstatus =>
    have hcall : (call.http inner).inner = .ok _ := Eq.trans hinner hstatus
    exact .inl (.respond label route hcall)
  | raise label route herror =>
    have hcall : (call.http inner).inner = .error _ := Eq.trans hinner herror
    exact .inl (.raise label route hcall)
  | cancel label route =>
    obtain ⟨e, he⟩ := hinner
    exact .inl (.raise label route he)
  | count label status outcome => exact .inl (.count label status)
  | send label status outcome => exact .inl (.send label status)
  | sendError label outcome => exact .inl (.sendError label)

/-- What the call has come to so far. -/
def MeteredStage.inner : MeteredStage → Except PyExc Nat
  | .received _ | .calling _ _ _ => .ok 200
  | .returned _ _ outcome | .raised _ outcome | .counted _ _ outcome | .finished outcome =>
    handled outcome
  | .cancelled _ => .error (.database "cancelled")

theorem MeteredStage.foretells_inner (s : MeteredStage) : s.Foretells s.inner := by
  cases s with
  | cancelled label => exact ⟨_, rfl⟩
  | received route => trivial
  | calling label route stage => trivial
  | _ => rfl

theorem MeteredServer.Reachable.app {t : MeteredServer} (h : t.Reachable settings rt)
    {inner : Nat → Except PyExc Nat} (hinner : t.Foretold inner) : (t.app inner).Reachable :=
  Tasks.reachable_project (fun i _ (s : MeteredStage) => s.Foretells (inner i))
    (fun _ _ _ _ _ hstep => hstep.foretells) (fun _ _ _ _ _ hstep => hstep.dispatch) h hinner

theorem MeteredServer.Reachable.server {t : MeteredServer} (h : t.Reachable settings rt) :
    t.server.Reachable settings rt :=
  Tasks.reachable_project (fun _ _ _ => True) (fun _ _ _ _ _ _ _ => trivial)
    (fun _ _ _ _ _ hstep _ => hstep.served) h fun _ _ _ => trivial

/-! ## What the metrics say of the table -/

variable (settings rt) in
/-- What a request has committed at each stage. A response other than 200 comes without a
commit. -/
def MeteredStage.Behind (call : IngestCall) : MeteredStage → List (List OrmRow) → Prop
  | .received _, commits => commits = []
  | .calling _ _ stage, commits =>
    call.req.Keeps settings rt stage commits ∧
      ∀ e, stage = .closed (.error (.http e)) → commits = []
  | .returned _ _ outcome, commits | .raised _ outcome, commits | .counted _ _ outcome, commits
  | .finished outcome, commits =>
    Accounted settings rt call.req commits outcome ∧
      ∀ e, outcome = .error (.http e) → commits = []
  | .cancelled _, commits => AllOrNone settings rt call.req commits

/-- An `HTTPException` leaves the handler before the first statement. -/
theorem RequestStep.nil_of_http {req : Request} {s s' : Stage} {out : Option (List OrmRow)}
    (h : RequestStep settings rt req s out s') {commits : List (List OrmRow)}
    (hkeeps : req.Keeps settings rt s commits) {e : HttpError}
    (he : s' = .closed (.error (.http e))) : commits ++ out.toList = [] := by
  cases h with
  | refuse herror =>
    obtain rfl : commits = [] := hkeeps
    rfl
  | reject hauth herror =>
    obtain rfl : commits = [] := hkeeps
    rfl
  | _ => cases he

theorem MeteredStep.behind {call : IngestCall} {s s' : MeteredStage} {out : Option MeteredEvent}
    (h : MeteredStep settings rt call s out s') {commits : List (List OrmRow)}
    (hbehind : s.Behind settings rt call commits) :
    s'.Behind settings rt call (commits ++ (out.bind Sum.getLeft?).toList) := by
  cases h with
  | label route =>
    obtain rfl : commits = [] := hbehind
    refine ⟨rfl, ?_⟩
    intro e he
    cases he
  | @serve label route stage stage' out hstep _ =>
    have hout : (out.map Sum.inl : Option MeteredEvent).bind Sum.getLeft? = out := by
      cases out <;> rfl
    obtain ⟨hkeeps, -⟩ := hbehind
    rw [hout]
    exact ⟨hkeeps.step hstep, fun e he => hstep.nil_of_http hkeeps he⟩
  | respond label route hstatus =>
    obtain ⟨hkeeps, hhttp⟩ := hbehind
    simp only [Option.bind_some, Sum.getLeft?_inr, Option.toList_none, List.append_nil]
    exact ⟨hkeeps, fun e he => hhttp e (congrArg Stage.closed he)⟩
  | raise label route herror =>
    obtain ⟨hkeeps, hhttp⟩ := hbehind
    simp only [Option.bind_some, Sum.getLeft?_inr, Option.toList_none, List.append_nil]
    exact ⟨hkeeps, fun e he => hhttp e (congrArg Stage.closed he)⟩
  | cancel label route =>
    simp only [Option.bind_some, Sum.getLeft?_inr, Option.toList_none, List.append_nil]
    exact hbehind.1
  | _ =>
    simp only [Option.bind_none, Option.bind_some, Sum.getLeft?_inr, Option.toList_none,
      List.append_nil]
    exact hbehind

/-- A request that ends in a response was stored, or refused without a trace. -/
theorem status_of_accounted {req : Request} {commits : List (List OrmRow)}
    {outcome : Except PyExc IngestResponse} (hacc : Accounted settings rt req commits outcome)
    (hhttp : ∀ e, outcome = .error (.http e) → commits = []) {status : Nat}
    (h : handled outcome = .ok status) :
    status = 200 ∧ commits.length = 1 ∨ status ∈ [401, 403, 413, 422] ∧ commits = [] := by
  cases outcome with
  | ok r =>
    obtain ⟨b, -, -, rfl⟩ := hacc
    obtain rfl : 200 = status := Except.ok.inj h
    exact .inl ⟨rfl, rfl⟩
  | error e =>
    cases e with
    | http e =>
      obtain rfl : e.statusCode = status := Except.ok.inj h
      refine .inr ⟨?_, hhttp e rfl⟩
      obtain ⟨hauth | hprep | ⟨message, hdatabase⟩, -⟩ := hacc
      · rcases settings.requireIngestToken_eq_error hauth with heq | heq | heq
        · rw [PyExc.http.inj heq]
          exact List.mem_cons_self
        · rw [PyExc.http.inj heq]
          exact List.mem_cons_self
        · rw [PyExc.http.inj heq]
          exact List.mem_cons_of_mem _ List.mem_cons_self
      · obtain ⟨status, text, heq, hstatus⟩ | htype := prepareBatch_eq_error settings rt hprep
        · rw [PyExc.http.inj heq]
          rcases hstatus with rfl | rfl <;> simp
        · cases htype
      · cases hdatabase
    | _ => cases h

def MeteredServer.events (t : MeteredServer) : List MeteredEvent := t.log.map (·.2)

/-- The committed batches. -/
def commitsOf (events : List MeteredEvent) : List (List OrmRow) := events.filterMap Sum.getLeft?

/-- The statuses that `telemetry_requests_total` has counted, once for each increment. -/
def statusesOf (events : List MeteredEvent) : List Nat :=
  (events.filterMap Sum.getRight?).filterMap RequestEvent.status

/-- What `telemetry_request_duration_seconds` has observed. -/
def observationsOf (events : List MeteredEvent) : List String :=
  (events.filterMap Sum.getRight?).filterMap fun
    | .observed _ path => some path
    | _ => none

/-- The counter does not have more answers 200 than there are commits, and every commit
belongs to another one of the requests than the increments for a refusal. -/
structure Balanced (requests : Nat) (events : List MeteredEvent) : Prop where
  stored : (statusesOf events).count 200 ≤ (commitsOf events).length
  once : (commitsOf events).length + (statusesOf events).countP (· ≠ 200) ≤ requests
  statuses : ∀ status ∈ statusesOf events, status ∈ [200, 401, 403, 413, 422]

theorem Balanced.nil : Balanced 0 [] :=
  ⟨Nat.le_refl 0, Nat.le_refl 0, fun _ h => absurd h List.not_mem_nil⟩

theorem Balanced.append {n n' : Nat} {es es' : List MeteredEvent} (h : Balanced n es)
    (h' : Balanced n' es') : Balanced (n + n') (es ++ es') := by
  have hstored := h.stored
  have hstored' := h'.stored
  have honce := h.once
  have honce' := h'.once
  refine ⟨?_, ?_, ?_⟩
  · simp only [statusesOf, commitsOf, List.filterMap_append, List.count_append,
      List.length_append] at hstored hstored' ⊢
    omega
  · simp only [statusesOf, commitsOf, List.filterMap_append, List.countP_append,
      List.length_append] at honce honce' ⊢
    omega
  · intro status hstatus
    rw [statusesOf, List.filterMap_append, List.filterMap_append, List.mem_append] at hstatus
    exact hstatus.elim (h.statuses status) (h'.statuses status)

theorem Balanced.perm {n : Nat} {es es' : List MeteredEvent} (h : Balanced n es)
    (hperm : es.Perm es') : Balanced n es' := by
  have hstatuses : (statusesOf es).Perm (statusesOf es') :=
    (hperm.filterMap _).filterMap _
  have hcommits : (commitsOf es).length = (commitsOf es').length :=
    (hperm.filterMap _).length_eq
  refine ⟨?_, ?_, ?_⟩
  · rw [← hstatuses.count_eq, ← hcommits]
    exact h.stored
  · rw [← hstatuses.countP_eq, ← hcommits]
    exact h.once
  · intro status hstatus
    exact h.statuses status (hstatuses.mem_iff.mpr hstatus)

/-- What each request keeps to, all of them do. -/
theorem Balanced.flatMap {requests : List Nat} {f : Nat → List MeteredEvent}
    (h : ∀ i ∈ requests, Balanced 1 (f i)) : Balanced requests.length (requests.flatMap f) := by
  induction requests with
  | nil => exact .nil
  | cons i requests ih =>
    rw [List.flatMap_cons, List.length_cons, Nat.add_comm]
    exact (h i List.mem_cons_self).append
      (ih fun j hj => h j (List.mem_cons_of_mem i hj))

theorem length_le_one_of_allOrNone {req : Request} {commits : List (List OrmRow)}
    (h : AllOrNone settings rt req commits) : commits.length ≤ 1 := by
  obtain rfl | ⟨b, -, rfl⟩ := h
  · exact Nat.zero_le 1
  · exact Nat.le_refl 1

theorem MeteredStage.Behind.allOrNone {call : IngestCall} {s : MeteredStage}
    {commits : List (List OrmRow)} (h : s.Behind settings rt call commits) :
    AllOrNone settings rt call.req commits := by
  cases s with
  | received route => exact .inl h
  | calling label route stage => exact Request.Keeps.allOrNone h.1
  | cancelled label => exact h
  | _ => exact Accounted.allOrNone h.1

theorem balanced_of_uncounted {req : Request} {es : List MeteredEvent}
    (hcommits : AllOrNone settings rt req (commitsOf es)) (hstatuses : statusesOf es = []) :
    Balanced 1 es := by
  have hle := length_le_one_of_allOrNone hcommits
  refine ⟨?_, ?_, ?_⟩
  · simp [hstatuses]
  · simpa [hstatuses] using hle
  · simp [hstatuses]

theorem balanced_of_counted {req : Request} {es : List MeteredEvent}
    {outcome : Except PyExc IngestResponse}
    (hacc : Accounted settings rt req (commitsOf es) outcome)
    (hhttp : ∀ e, outcome = .error (.http e) → commitsOf es = []) {status : Nat}
    (hstatus : handled outcome = .ok status) (hstatuses : statusesOf es = [status]) :
    Balanced 1 es := by
  obtain ⟨rfl, hone⟩ | ⟨hrefusal, hnone⟩ := status_of_accounted hacc hhttp hstatus
  · exact ⟨by simp [hstatuses, hone], by simp [hstatuses, hone], by simp [hstatuses]⟩
  · have hne : status ≠ 200 := by
      rintro rfl
      simp at hrefusal
    refine ⟨?_, ?_, ?_⟩
    · simp [hstatuses, hne]
    · simp [hstatuses, hnone, hne]
    · intro status' hstatus'
      rw [hstatuses] at hstatus'
      obtain rfl := List.mem_singleton.mp hstatus'
      exact List.mem_cons_of_mem 200 hrefusal

/-- The account of one request, from its commits and from its metrics. -/
theorem MeteredStage.balanced {call : IngestCall} {s : MeteredStage} {es : List MeteredEvent}
    (hbehind : s.Behind settings rt call (commitsOf es))
    (hkeeps : (call.http s.inner).Keeps s.dispatch (es.filterMap Sum.getRight?)) :
    Balanced 1 es := by
  have hcommits := hbehind.allOrNone
  cases s with
  | received route =>
    obtain ⟨-, hmetrics⟩ := hkeeps
    exact balanced_of_uncounted hcommits (by rw [statusesOf, hmetrics]; rfl)
  | calling label route stage =>
    obtain ⟨-, hmetrics⟩ := hkeeps
    exact balanced_of_uncounted hcommits (by rw [statusesOf, hmetrics]; rfl)
  | returned label status outcome =>
    obtain ⟨-, -, hmetrics⟩ := hkeeps
    exact balanced_of_uncounted hcommits (by rw [statusesOf, hmetrics]; rfl)
  | raised label outcome =>
    obtain ⟨-, -, hmetrics⟩ := hkeeps
    exact balanced_of_uncounted hcommits (by rw [statusesOf, hmetrics]; rfl)
  | cancelled label =>
    obtain ⟨-, -, hmetrics⟩ := hkeeps
    exact balanced_of_uncounted hcommits (by rw [statusesOf, hmetrics]; rfl)
  | counted label status outcome =>
    obtain ⟨hacc, hhttp⟩ := hbehind
    obtain ⟨-, hstatus, hmetrics⟩ := hkeeps
    exact balanced_of_counted hacc hhttp hstatus (by rw [statusesOf, hmetrics]; rfl)
  | finished outcome =>
    obtain ⟨hacc, hhttp⟩ := hbehind
    have hmetrics : es.filterMap Sum.getRight? = (call.http (handled outcome)).entries := hkeeps
    cases hstatus : handled outcome with
    | ok status =>
      rw [hstatus] at hmetrics
      exact balanced_of_counted hacc hhttp hstatus (by rw [statusesOf, hmetrics]; rfl)
    | error e =>
      rw [hstatus] at hmetrics
      exact balanced_of_uncounted hcommits (by rw [statusesOf, hmetrics]; rfl)

theorem MeteredServer.Reachable.each_behind {t : MeteredServer} (h : t.Reachable settings rt) :
    t.Each fun call s es => s.Behind settings rt call (commitsOf es) := by
  apply Tasks.Each.of_reachable _ _ h
  · intro call
    rfl
  · intro call s es out s' hbehind hstep
    have hout : commitsOf (es ++ out.toList) = commitsOf es ++ (out.bind Sum.getLeft?).toList := by
      rw [commitsOf, List.filterMap_append]
      cases out with
      | none => rfl
      | some e => cases e <;> rfl
    rw [hout]
    exact hstep.behind hbehind

theorem MeteredServer.Reachable.keeps {t : MeteredServer} (h : t.Reachable settings rt) {i : Nat}
    {call : IngestCall} (hcall : t.jobs[i]? = some call) :
    (call.http (t.stage i).inner).Keeps (t.stage i).dispatch
      ((t.emitted i).filterMap Sum.getRight?) := by
  have hforetold : t.Foretold fun i => (t.stage i).inner :=
    fun i _ _ => (t.stage i).foretells_inner
  have hjob : (t.app fun i => (t.stage i).inner).jobs[i]? =
      some (call.http (t.stage i).inner) := by
    rw [MeteredServer.app, Tasks.project, List.getElem?_mapIdx, hcall]
    rfl
  have hkeeps := (h.app hforetold).each_keeps.keeps i _ hjob
  rw [MeteredServer.app, Tasks.emitted_project] at hkeeps
  exact hkeeps

/-- Every request has been answered or cancelled. -/
def MeteredServer.Finished (t : MeteredServer) : Prop :=
  ∀ i < t.jobs.length, (∃ outcome, t.stage i = .finished outcome) ∨
    ∃ label, t.stage i = .cancelled label

/-- A request that is over has been observed once. -/
theorem MeteredServer.Reachable.length_observationsOf {t : MeteredServer}
    (h : t.Reachable settings rt) (hfinished : t.Finished) {i : Nat} (hi : i < t.jobs.length) :
    (observationsOf (t.emitted i)).length = 1 := by
  have hkeeps := h.keeps (List.getElem?_eq_getElem hi)
  obtain ⟨outcome, hstage⟩ | ⟨label, hstage⟩ := hfinished i hi
  · rw [hstage] at hkeeps
    have hmetrics : (t.emitted i).filterMap Sum.getRight? =
        (t.jobs[i].http (handled outcome)).entries := hkeeps
    rw [observationsOf, hmetrics, HttpCall.entries]
    cases handled outcome <;> rfl
  · rw [hstage] at hkeeps
    obtain ⟨-, -, hmetrics⟩ := hkeeps
    rw [observationsOf, hmetrics]
    rfl

theorem observationsOf_perm {es es' : List MeteredEvent} (h : es.Perm es') :
    (observationsOf es).Perm (observationsOf es') :=
  (h.filterMap _).filterMap _

theorem length_observationsOf_flatMap {requests : List Nat} {f : Nat → List MeteredEvent}
    (h : ∀ i ∈ requests, (observationsOf (f i)).length = 1) :
    (observationsOf (requests.flatMap f)).length = requests.length := by
  induction requests with
  | nil => rfl
  | cons i requests ih =>
    have hrest := ih fun j hj => h j (List.mem_cons_of_mem i hj)
    have hhead := h i List.mem_cons_self
    simp only [observationsOf, List.flatMap_cons, List.filterMap_append, List.length_append,
      List.length_cons] at hhead hrest ⊢
    omega

theorem commitsOf_events (t : MeteredServer) : commitsOf t.events = t.server.log.map (·.2) := by
  simp only [commitsOf, MeteredServer.events, MeteredServer.server, Tasks.project,
    List.filterMap_map, List.map_filterMap, Option.map_map, Function.comp_def]
  congr 1
  funext e
  cases e.2 <;> rfl

/-! ## Single requests -/

section Single

variable (call : IngestCall) {b : Batch}

/-- A prepared batch can be served up to its `COMMIT`. -/
theorem MeteredStep.begins (hb : Prepares settings rt call.req b) :
    Tasks.LocalRun (MeteredStep settings rt call) (.received none) []
      (.calling call.urlPath none (.executed b)) := by
  have hprepare : MeteredStep settings rt call (.calling call.urlPath none .received) none
      (.calling call.urlPath none (.prepared b)) := by
    apply MeteredStep.serve call.urlPath none (.prepare hb.1 hb.2)
    rintro a ⟨⟩
  have hexecute : MeteredStep settings rt call (.calling call.urlPath none (.prepared b)) none
      (.calling call.urlPath none (.executed b)) := by
    apply MeteredStep.serve call.urlPath none (.execute b)
    rintro a ⟨⟩
  exact .step (.label none) (.step hprepare (.step hexecute (.refl _)))

/-- From there it can be committed, and the request answered. -/
theorem MeteredStep.ends :
    Tasks.LocalRun (MeteredStep settings rt call) (.calling call.urlPath none (.executed b))
      [.inl b.rows, .inr (.observed "POST" call.urlPath), .inr (.counted "POST" call.urlPath 200),
        .inr (.sent "POST" call.urlPath 200)]
      (.finished (.ok b.response)) := by
  have hcommit : MeteredStep settings rt call (.calling call.urlPath none (.executed b))
      (some (.inl b.rows)) (.calling call.urlPath none (.closed (.ok b.response))) := by
    apply MeteredStep.serve call.urlPath none (.commit b)
    rintro a ⟨⟩
  exact .step hcommit (.step (MeteredStep.respond _ _ rfl) (.step (MeteredStep.count _ 200 _)
    (.step (MeteredStep.send _ 200 _) (.refl _))))

/-- Or the request is cancelled there, and the transaction was applied. -/
theorem MeteredStep.vanishes (hb : Prepares settings rt call.req b) :
    Tasks.LocalRun (MeteredStep settings rt call) (.received none)
      [.inl b.rows, .inr (.observed "POST" call.urlPath)] (.cancelled call.urlPath) := by
  have hvanish : MeteredStep settings rt call (.calling call.urlPath none (.executed b))
      (some (.inl b.rows)) (.calling call.urlPath none .gone) := by
    apply MeteredStep.serve call.urlPath none (.vanishCommitted b)
    rintro a ⟨⟩
  exact (MeteredStep.begins call hb).trans
    (.step hvanish (.step (MeteredStep.cancel _ _) (.refl _)))

/-- A request that the handler refuses is answered with the status of the refusal. -/
theorem MeteredStep.refuses {e : HttpError}
    (hauth : settings.requireIngestToken call.req.authorization = .ok ())
    (h : prepareBatch settings rt call.req = .error (.http e)) :
    Tasks.LocalRun (MeteredStep settings rt call) (.received none)
      [.inr (.observed "POST" call.urlPath), .inr (.counted "POST" call.urlPath e.statusCode),
        .inr (.sent "POST" call.urlPath e.statusCode)]
      (.finished (.error (.http e))) := by
  have hreject : MeteredStep settings rt call (.calling call.urlPath none .received) none
      (.calling call.urlPath none (.closed (.error (.http e)))) := by
    apply MeteredStep.serve call.urlPath none (.reject hauth h)
    rintro a ⟨⟩
  exact .step (.label none) (.step hreject (.step (.respond _ _ rfl)
    (.step (.count _ e.statusCode _) (.step (.send _ e.statusCode _) (.refl _)))))

end Single

/-- A body that is no JSON. -/
def unparseableRequest : Request := ⟨none, some "application/json", [120]⟩

/-- While one batch is at its `COMMIT`, another request comes and goes. -/
theorem exists_metered_nested {call : IngestCall} {es : List MeteredEvent} {stage : MeteredStage}
    (hinner : Tasks.LocalRun (MeteredStep {} sampleRuntime call) (.received none) es stage)
    (hover : (∃ outcome, stage = .finished outcome) ∨ ∃ label, stage = .cancelled label) :
    ∃ (t : MeteredServer) (rows : List OrmRow), t.Reachable {} sampleRuntime ∧
      t.jobs.length = 2 ∧ t.Finished ∧
      t.log = es.map (fun e => (1, e)) ++ [(0, .inl rows),
        (0, .inr (.observed "POST" "/v1/events")), (0, .inr (.counted "POST" "/v1/events" 200)),
        (0, .inr (.sent "POST" "/v1/events" 200))] := by
  obtain ⟨b, hb, -⟩ := prepares_sample 0
  have houter := MeteredStep.begins ⟨mixedRequest, "/v1/events"⟩ hb
  have hrest := @MeteredStep.ends {} sampleRuntime ⟨mixedRequest, "/v1/events"⟩ b
  obtain ⟨t, hreach, hjobs, hfirst, hsecond, hlog⟩ := Tasks.LocalRun.nested houter hinner hrest
  refine ⟨t, b.rows, hreach, by rw [hjobs]; rfl, ?_, hlog⟩
  intro i hi
  rw [hjobs, List.length_cons, List.length_singleton] at hi
  obtain rfl | rfl : i = 0 ∨ i = 1 := by omega
  · exact .inl ⟨_, hfirst⟩
  · rw [hsecond]
    exact hover

/-- That other request is cancelled behind its own commit, or refused. -/
theorem exists_metered_sample (cancelled : Bool) : ∃ t : MeteredServer,
    t.Reachable {} sampleRuntime ∧ t.jobs.length = 2 ∧ t.Finished ∧
      t.server.log.length = (if cancelled then 2 else 1) ∧ (observationsOf t.events).length = 2 ∧
      statusesOf t.events = if cancelled then [200] else [422, 200] := by
  cases cancelled with
  | true =>
    obtain ⟨b, hb, -⟩ := prepares_sample 0
    obtain ⟨t, rows, hreach, hjobs, hfinished, hlog⟩ := exists_metered_nested
      (MeteredStep.vanishes ⟨mixedRequest, "/v1/events"⟩ hb) (.inr ⟨_, rfl⟩)
    refine ⟨t, hreach, hjobs, hfinished, ?_, ?_, ?_⟩
    · rw [MeteredServer.server, Tasks.project, hlog]
      rfl
    · rw [MeteredServer.events, hlog]
      rfl
    · rw [MeteredServer.events, hlog]
      rfl
  | false =>
    obtain ⟨text, htext⟩ : ∃ text, prepareBatch {} sampleRuntime unparseableRequest =
        .error (.http ⟨422, text, []⟩) := ⟨_, rfl⟩
    obtain ⟨t, rows, hreach, hjobs, hfinished, hlog⟩ := exists_metered_nested
      (MeteredStep.refuses ⟨unparseableRequest, "/v1/events"⟩ rfl htext) (.inl ⟨_, rfl⟩)
    refine ⟨t, hreach, hjobs, hfinished, ?_, ?_, ?_⟩
    · rw [MeteredServer.server, Tasks.project, hlog]
      rfl
    · rw [MeteredServer.events, hlog]
      rfl
    · rw [MeteredServer.events, hlog]
      rfl

/-! ## The account of a run -/

variable (settings rt) in
/-- However the requests interleave and fail: the commits of the metered server are those of
a run of the server, and its metrics those of a run of the metrics, each call of which comes
to what its handler has come to; a call that has not come to anything may yet come to
everything. -/
theorem metered_refines (t : MeteredServer) (h : t.Reachable settings rt) :
    t.server.Reachable settings rt ∧ t.Foretold (fun i => (t.stage i).inner) ∧
      ∀ inner, t.Foretold inner → (t.app inner).Reachable :=
  ⟨h.server, fun i _ _ => (t.stage i).foretells_inner, fun _ => h.app⟩

/-- A run with a request that is cancelled behind its commit. -/
theorem metered_refines_sample :
    ∃ t : MeteredServer, t.jobs.length = 2 ∧ t.server.log.length = 2 ∧
      t.server.Reachable {} sampleRuntime ∧ t.Foretold (fun i => (t.stage i).inner) ∧
      (t.app fun i => (t.stage i).inner).Reachable := by
  obtain ⟨t, hreach, hjobs, -, hcommits, -⟩ := exists_metered_sample true
  obtain ⟨hserver, hforetold, happ⟩ := metered_refines {} sampleRuntime t hreach
  exact ⟨t, hjobs, hcommits, hserver, hforetold, happ _ hforetold⟩

variable (settings rt) in
/-- However the requests interleave, fail and are cancelled: the counter's answers 200 are at
most the committed batches, each commit and each refusal it has counted belong to another
request, and it counts no status but 200 and the refusals. When all requests are over, the
histogram has observed each of them; and if the counter has counted as many, the committed
batches are exactly its answers 200. -/
theorem metrics_account (t : MeteredServer) (h : t.Reachable settings rt) :
    Balanced t.jobs.length t.events ∧
      (t.Finished → (observationsOf t.events).length = t.jobs.length ∧
        ((statusesOf t.events).length = (observationsOf t.events).length →
          t.server.log.length = (statusesOf t.events).count 200)) := by
  have hperm := h.each_behind.log_perm_emitted
  have hbalanced : Balanced t.jobs.length t.events := by
    have hall : Balanced (List.range t.jobs.length).length
        ((List.range t.jobs.length).flatMap t.emitted) := by
      apply Balanced.flatMap
      intro i hi
      have hcall := List.getElem?_eq_getElem (List.mem_range.mp hi)
      exact MeteredStage.balanced (h.each_behind.keeps i _ hcall) (h.keeps hcall)
    rw [List.length_range] at hall
    exact hall.perm hperm.symm
  refine ⟨hbalanced, ?_⟩
  intro hfinished
  have hobserved : (observationsOf t.events).length = t.jobs.length := by
    refine (observationsOf_perm hperm).length_eq.trans ?_
    have hall := length_observationsOf_flatMap fun i hi =>
      h.length_observationsOf hfinished (List.mem_range.mp hi)
    rwa [List.length_range] at hall
  refine ⟨hobserved, ?_⟩
  intro hcounted
  have hstored := hbalanced.stored
  have honce := hbalanced.once
  have hsplit : (statusesOf t.events).length =
      (statusesOf t.events).count 200 + (statusesOf t.events).countP (· ≠ 200) := by
    rw [List.count_eq_countP, List.length_eq_countP_add_countP fun status => status == 200]
    simp
  rw [commitsOf_events, List.length_map] at hstored honce
  omega

/-- With the second request refused the commits are the answers 200, and with it cancelled
there is one more. -/
theorem metrics_account_sample :
    (∃ t : MeteredServer, Balanced 2 t.events ∧ (observationsOf t.events).length = 2 ∧
      t.server.log.length = (statusesOf t.events).count 200) ∧
    ∃ t : MeteredServer, Balanced 2 t.events ∧ (observationsOf t.events).length = 2 ∧
      t.server.log.length = (statusesOf t.events).count 200 + 1 := by
  obtain ⟨t, hreach, hjobs, hfinished, -, hobserved, hstatuses⟩ := exists_metered_sample false
  obtain ⟨t', hreach', hjobs', hfinished', hcommits', -, hstatuses'⟩ := exists_metered_sample true
  obtain ⟨hbalanced, haccount⟩ := metrics_account {} sampleRuntime t hreach
  obtain ⟨hbalanced', haccount'⟩ := metrics_account {} sampleRuntime t' hreach'
  rw [hjobs] at hbalanced
  rw [hjobs'] at hbalanced' haccount'
  obtain ⟨-, hexact⟩ := haccount hfinished
  refine ⟨⟨t, hbalanced, hobserved, hexact ?_⟩, ⟨t', hbalanced', (haccount' hfinished').1, ?_⟩⟩
  · rw [hstatuses, hobserved]
    rfl
  · rw [hcommits', hstatuses']
    rfl

end TelemetryApi
