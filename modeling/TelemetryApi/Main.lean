import TelemetryApi.Foundations.Grouping
import TelemetryApi.Foundations.Routing
import TelemetryApi.Foundations.Tasks
import TelemetryApi.Routes.Health
import TelemetryApi.Routes.Ingest

/-!
# The metrics of the application

`MetricsMiddleware` of `app/main.py` around the routes of the application. Requests
interleave; each passes through the middleware step by step, and what it adds to the
metrics and sends to the client goes into one log.
-/

namespace TelemetryApi

/-! ## Routes -/

/-- `GET /v1/events/{event_id}` -/
def getEventRoute : Route := ⟨["GET"], [.text "/v1/events/", .param "event_id"]⟩

/-- The routes of the application, in the order of their declaration. -/
def routes : List Route :=
  [⟨["GET"], [.text "/metrics"]⟩,
    ⟨["GET"], [.text "/healthz"]⟩,
    ⟨["GET"], [.text "/readyz"]⟩,
    ⟨["POST"], [.text "/v1/events"]⟩,
    ⟨["GET"], [.text "/v1/events"]⟩,
    ⟨["GET"], [.text "/v1/events/_facets"]⟩,
    getEventRoute,
    ⟨["GET"], [.text "/v1/stats/recent"]⟩,
    ⟨["GET"], [.text "/v1/stats/timeline"]⟩,
    ⟨["GET"], [.text "/"]⟩]

example : (Route.find routes "GET" "/v1/events/_facets").map Route.path =
      some "/v1/events/_facets" ∧
    (Route.find routes "GET" "/v1/events/42").map Route.path =
      some "/v1/events/\x7bevent_id\x7d" ∧
    Route.find routes "GET" "/v1/events/4/2" = none := by decide +kernel

/-- A request as the middleware sees it: `path` is the one that is routed, `urlPath` is
`request.url.path`, and `inner` is what the application behind the middleware does, a
response with a status or an exception that no handler turned into one. -/
structure HttpCall where
  method : String
  path : String
  urlPath : String
  inner : Except PyExc Nat

/-- What the exception handlers of the application leave of an outcome. -/
def handled {α : Type} : Except PyExc α → Except PyExc Nat
  | .ok _ => .ok 200
  | .error (.http e) => .ok e.statusCode
  | .error e => .error e

/-- The route that the router puts into the scope of the request. -/
def HttpCall.route (call : HttpCall) : Option Route := Route.find routes call.method call.path

/-- `getattr(route, "path", request.url.path)` -/
def pathLabel (route : Option Route) (urlPath : String) : String :=
  match route with
  | some r => r.path
  | none => urlPath

/-! ## Dispatch -/

/-- What a request adds to the metrics, and the answer to its client. -/
inductive RequestEvent where
  /-- `REQ_LATENCY.labels(method, path)` observes a duration. -/
  | observed (method path : String)
  /-- `REQ_COUNT.labels(method, path, status).inc()` -/
  | counted (method path : String) (status : Nat)
  /-- The client of a request for that path is sent a status. -/
  | sent (method path : String) (status : Nat)
  deriving DecidableEq

/-- How far `dispatch` has come; `route` is the one in the scope. -/
inductive Dispatch where
  | received (route : Option Route)
  | calling (label : String) (route : Option Route)
  /-- `call_next` has returned or raised, and the timer is closed. -/
  | returned (label : String) (status : Nat)
  | raised (label : String)
  | counted (label : String) (status : Nat)
  | finished

/-- One step of `dispatch`. The label is read before `call_next`, and the router
writes the scope while `call_next` runs. -/
inductive DispatchStep (call : HttpCall) : Dispatch → Option RequestEvent → Dispatch → Prop
  | label (route : Option Route) :
      DispatchStep call (.received route) none (.calling (pathLabel route call.urlPath) route)
  | route (label : String) (route : Option Route) :
      DispatchStep call (.calling label route) none (.calling label call.route)
  | respond (label : String) (route : Option Route) {status : Nat} (h : call.inner = .ok status) :
      DispatchStep call (.calling label route) (some (.observed call.method label))
        (.returned label status)
  | raise (label : String) (route : Option Route) {e : PyExc} (h : call.inner = .error e) :
      DispatchStep call (.calling label route) (some (.observed call.method label))
        (.raised label)
  | count (label : String) (status : Nat) :
      DispatchStep call (.returned label status) (some (.counted call.method label status))
        (.counted label status)
  | send (label : String) (status : Nat) :
      DispatchStep call (.counted label status) (some (.sent call.method call.urlPath status))
        .finished
  /-- The outermost error middleware answers for an exception. -/
  | sendError (label : String) :
      DispatchStep call (.raised label) (some (.sent call.method call.urlPath 500)) .finished

abbrev App := Tasks HttpCall Dispatch RequestEvent

/-- The scope of a new request has no route. -/
abbrev App.Reachable (t : App) : Prop :=
  Relation.ReflTransGen (Tasks.Step DispatchStep (.received none)) (Tasks.empty (.received none)) t

/-- Every request of the run has been answered. -/
def App.Finished (t : App) : Prop := ∀ i < t.jobs.length, t.stage i = .finished

/-- What a request leaves in the log. -/
def HttpCall.entries (call : HttpCall) : List RequestEvent :=
  match call.inner with
  | .ok status =>
    [.observed call.method call.urlPath, .counted call.method call.urlPath status,
      .sent call.method call.urlPath status]
  | .error _ => [.observed call.method call.urlPath, .sent call.method call.urlPath 500]

/-- What the log has of a request at each stage. -/
def HttpCall.Keeps (call : HttpCall) : Dispatch → List RequestEvent → Prop
  | .received route, es => route = none ∧ es = []
  | .calling label _, es => label = call.urlPath ∧ es = []
  | .returned label status, es =>
    label = call.urlPath ∧ call.inner = .ok status ∧ es = [.observed call.method label]
  | .raised label, es =>
    label = call.urlPath ∧ (∃ e, call.inner = .error e) ∧ es = [.observed call.method label]
  | .counted label status, es =>
    label = call.urlPath ∧ call.inner = .ok status ∧
      es = [.observed call.method label, .counted call.method label status]
  | .finished, es => es = call.entries

/-- Each step of `dispatch` keeps the account of its entries. -/
theorem HttpCall.Keeps.step {call : HttpCall} {s s' : Dispatch} {es : List RequestEvent}
    {out : Option RequestEvent} (h : call.Keeps s es) (hstep : DispatchStep call s out s') :
    call.Keeps s' (es ++ out.toList) := by
  cases hstep with
  | label route =>
    obtain ⟨rfl, rfl⟩ := h
    exact ⟨rfl, rfl⟩
  | route label route =>
    obtain ⟨hlabel, rfl⟩ := h
    exact ⟨hlabel, rfl⟩
  | respond label route hinner =>
    obtain ⟨hlabel, rfl⟩ := h
    exact ⟨hlabel, hinner, rfl⟩
  | raise label route hinner =>
    obtain ⟨hlabel, rfl⟩ := h
    exact ⟨hlabel, ⟨_, hinner⟩, rfl⟩
  | count label status =>
    obtain ⟨hlabel, hinner, rfl⟩ := h
    exact ⟨hlabel, hinner, rfl⟩
  | send label status =>
    obtain ⟨rfl, hinner, rfl⟩ := h
    simp [HttpCall.Keeps, HttpCall.entries, hinner]
  | sendError label =>
    obtain ⟨rfl, ⟨e, hinner⟩, rfl⟩ := h
    simp [HttpCall.Keeps, HttpCall.entries, hinner]

/-- At every stage, a request has left none but its entries. -/
theorem HttpCall.Keeps.subset {call : HttpCall} {s : Dispatch} {es : List RequestEvent}
    (h : call.Keeps s es) : es ⊆ call.entries := by
  cases s with
  | received route | calling label route =>
    obtain ⟨-, rfl⟩ := h
    exact List.nil_subset _
  | returned label status =>
    obtain ⟨rfl, hinner, rfl⟩ := h
    simp [HttpCall.entries, hinner]
  | raised label =>
    obtain ⟨rfl, ⟨e, hinner⟩, rfl⟩ := h
    simp [HttpCall.entries, hinner]
  | counted label status =>
    obtain ⟨rfl, hinner, rfl⟩ := h
    simp [HttpCall.entries, hinner]
  | finished =>
    obtain rfl := h
    exact List.Subset.refl _

/-- In every interleaving, every request keeps the account of its entries. -/
theorem App.Reachable.each_keeps {t : App} (h : t.Reachable) : t.Each HttpCall.Keeps :=
  Tasks.Each.of_reachable (fun _ => ⟨rfl, rfl⟩) (fun _ _ _ _ _ hkeeps hstep => hkeeps.step hstep) h

/-- After a run the log has the entries of its requests. -/
theorem App.Reachable.log_perm {t : App} (h : t.Reachable) (hfinished : t.Finished) :
    (t.log.map (·.2)).Perm (t.jobs.flatMap HttpCall.entries) := by
  apply h.each_keeps.log_perm
  intro i call hcall
  have hkeeps := h.each_keeps.keeps i call hcall
  rw [hfinished i (List.getElem?_eq_some_iff.mp hcall).1] at hkeeps
  exact hkeeps

/-! ## The metrics of a run -/

/-- `telemetry_requests_total` -/
def requestsTotal (events : List RequestEvent) (method path : String) (status : Nat) : Nat :=
  events.count (.counted method path status)

/-- The observations of `telemetry_request_duration_seconds`. -/
def durationCount (events : List RequestEvent) (method path : String) : Nat :=
  events.count (.observed method path)

def answersSent (events : List RequestEvent) (method path : String) (status : Nat) : Nat :=
  events.count (.sent method path status)

/-- The status of an increment of the counter. -/
def RequestEvent.status : RequestEvent → Option Nat
  | .counted _ _ status => some status
  | _ => none

/-- The statuses for which the counter has a series. -/
def countedStatuses (events : List RequestEvent) : List Nat :=
  (events.filterMap RequestEvent.status).dedup

/-- The counter agrees with what the clients were sent, and the histogram with the
counter. -/
structure Conserves (events : List RequestEvent) : Prop where
  requests : ∀ method path status,
    requestsTotal events method path status = answersSent events method path status
  durations : ∀ method path, durationCount events method path =
    ((countedStatuses events).map (requestsTotal events method path)).sum

/-- An increment of the counter for that method and path. -/
def RequestEvent.isCounted (method path : String) : RequestEvent → Bool
  | .counted method' path' _ => method' == method && path' == path
  | _ => false

/-- Status by status, every increment for the method and path is counted once. -/
theorem sum_requestsTotal (events : List RequestEvent) (method path : String) :
    ((countedStatuses events).map (requestsTotal events method path)).sum =
      events.countP (RequestEvent.isCounted method path) := by
  have hnodup : ((countedStatuses events).map some).Nodup :=
    (List.nodup_dedup _).map (Option.some_injective _)
  have hkeys : ∀ e ∈ events.filter (·.status.isSome),
      e.status ∈ (countedStatuses events).map some := by
    intro e he
    obtain ⟨hmem, hsome⟩ := List.mem_filter.mp he
    obtain ⟨status, hstatus⟩ := Option.isSome_iff_exists.mp hsome
    rw [hstatus]
    exact List.mem_map_of_mem (List.mem_dedup.mpr (List.mem_filterMap.mpr ⟨e, hmem, hstatus⟩))
  have hsum := sum_countP_keys hnodup (RequestEvent.isCounted method path) hkeys
  have hone : ∀ status, ((events.filter (·.status.isSome)).filter
      fun e => e.status = some status).countP (RequestEvent.isCounted method path) =
        requestsTotal events method path status := by
    intro status
    rw [List.countP_filter, List.countP_filter, requestsTotal, List.count]
    apply List.countP_congr
    intro e _
    cases e <;> simp [RequestEvent.isCounted, RequestEvent.status, and_assoc]
  have hall : (events.filter (·.status.isSome)).countP (RequestEvent.isCounted method path) =
      events.countP (RequestEvent.isCounted method path) := by
    rw [List.countP_filter]
    apply List.countP_congr
    intro e _
    cases e <;> simp [RequestEvent.isCounted, RequestEvent.status]
  rw [List.map_map, hall] at hsum
  rw [← hsum]
  exact congrArg List.sum (List.map_congr_left fun status _ => (hone status).symm)

/-- A predicate that holds of one entry of some requests and of no entry of the others
counts those requests. -/
theorem countP_entries {q : RequestEvent → Bool} {p : HttpCall → Bool}
    (h : ∀ call : HttpCall, call.entries.countP q = if p call then 1 else 0)
    (jobs : List HttpCall) : (jobs.flatMap HttpCall.entries).countP q = jobs.countP p := by
  induction jobs with
  | nil => rfl
  | cons call jobs ih =>
    rw [List.flatMap_cons, List.countP_append, List.countP_cons, h, ih, Nat.add_comm]

/-- The status that the client of the request is sent. -/
def HttpCall.sentStatus (call : HttpCall) : Nat :=
  match call.inner with
  | .ok status => status
  | .error _ => 500

/-- The application behind the middleware turned every outcome into a response. -/
def HttpCall.Answered (call : HttpCall) : Prop := ∃ status, call.inner = .ok status

theorem HttpCall.count_counted (call : HttpCall) (method path : String) (status : Nat) :
    call.entries.count (.counted method path status) =
      if call.method = method ∧ call.urlPath = path ∧ call.inner.toOption = some status then 1
        else 0 := by
  rw [HttpCall.entries]
  cases call.inner with
  | ok s => simp [List.count_cons, Except.toOption]
  | error e => simp [Except.toOption]

theorem HttpCall.count_sent (call : HttpCall) (method path : String) (status : Nat) :
    call.entries.count (.sent method path status) =
      if call.method = method ∧ call.urlPath = path ∧ call.sentStatus = status then 1 else 0 := by
  rw [HttpCall.entries, HttpCall.sentStatus]
  cases call.inner with
  | ok s => simp [List.count_cons]
  | error e => simp [List.count_cons]

theorem HttpCall.count_observed (call : HttpCall) (method path : String) :
    call.entries.count (.observed method path) =
      if call.method = method ∧ call.urlPath = path then 1 else 0 := by
  rw [HttpCall.entries]
  cases call.inner with
  | ok s => simp [List.count_cons]
  | error e => simp [List.count_cons]

/-- Only a request that ended in a response is counted. -/
theorem HttpCall.countP_isCounted (call : HttpCall) (method path : String) :
    call.entries.countP (RequestEvent.isCounted method path) =
      if call.method = method ∧ call.urlPath = path ∧ call.inner.toOption.isSome then 1
        else 0 := by
  rw [HttpCall.entries]
  cases call.inner with
  | ok s => simp [List.countP_cons, Except.toOption, RequestEvent.isCounted]
  | error e => simp [Except.toOption, RequestEvent.isCounted]

/-- What the log of a finished run counts, in terms of its requests. -/
structure CountsJobs (events : List RequestEvent) (jobs : List HttpCall) : Prop where
  requests : ∀ method path status, requestsTotal events method path status =
    jobs.countP fun call => decide
      (call.method = method ∧ call.urlPath = path ∧ call.inner.toOption = some status)
  sent : ∀ method path status, answersSent events method path status =
    jobs.countP fun call => decide
      (call.method = method ∧ call.urlPath = path ∧ call.sentStatus = status)
  durations : ∀ method path, durationCount events method path =
    jobs.countP fun call => decide (call.method = method ∧ call.urlPath = path)
  allStatuses : ∀ method path,
    ((countedStatuses events).map (requestsTotal events method path)).sum =
      jobs.countP fun call => decide (call.method = method ∧ call.urlPath = path) &&
        call.inner.toOption.isSome

theorem App.Reachable.countsJobs {t : App} (h : t.Reachable) (hfinished : t.Finished) :
    CountsJobs (t.log.map (·.2)) t.jobs := by
  have hperm := h.log_perm hfinished
  constructor
  · intro method path status
    rw [requestsTotal, hperm.count_eq]
    exact countP_entries
      (fun call => by simpa [List.count] using call.count_counted method path status) _
  · intro method path status
    rw [answersSent, hperm.count_eq]
    exact countP_entries
      (fun call => by simpa [List.count] using call.count_sent method path status) _
  · intro method path
    rw [durationCount, hperm.count_eq]
    exact countP_entries
      (fun call => by simpa [List.count] using call.count_observed method path) _
  · intro method path
    rw [sum_requestsTotal, hperm.countP_eq]
    exact countP_entries
      (fun call => by simpa [and_assoc] using call.countP_isCounted method path) _

/-- Where a further condition does not lower a count, it holds of all that is counted. -/
theorem imp_of_countP_and_eq {α : Type*} {p q : α → Bool} {l : List α}
    (h : l.countP p = l.countP fun a => p a && q a) : ∀ a ∈ l, p a → q a := by
  intro a ha hp
  have hlength : (l.filter p).countP q = (l.filter p).length := by
    rw [List.countP_filter, ← List.countP_eq_length_filter, h]
    simp only [Bool.and_comm]
  exact List.countP_eq_length.mp hlength a (List.mem_filter.mpr ⟨ha, hp⟩)

/-- The metrics of a finished run conserve its requests exactly when no request ended
in an exception. -/
theorem conserves_iff_answered (t : App) (h : t.Reachable) (hfinished : t.Finished) :
    Conserves (t.log.map (·.2)) ↔ ∀ call ∈ t.jobs, call.Answered := by
  obtain ⟨hrequests, hsent, hdurations, hall⟩ := h.countsJobs hfinished
  constructor
  · intro hconserves call hcall
    -- an exception is observed by the timer and missed by the counter
    have hduration := hconserves.durations call.method call.urlPath
    rw [hdurations, hall] at hduration
    have hsome := imp_of_countP_and_eq hduration call hcall (by simp)
    cases hinner : call.inner with
    | ok status => exact ⟨status, hinner⟩
    | error e =>
      rw [hinner] at hsome
      cases hsome
  · intro hanswered
    refine ⟨fun method path status => ?_, fun method path => ?_⟩
    · rw [hrequests, hsent]
      apply List.countP_congr
      intro call hcall
      obtain ⟨s, hs⟩ := hanswered call hcall
      simp [HttpCall.sentStatus, hs, Except.toOption]
    · rw [hdurations, hall]
      apply List.countP_congr
      intro call hcall
      obtain ⟨s, hs⟩ := hanswered call hcall
      simp [hs, Except.toOption]

/-- One request on its own comes to `call_next`. -/
theorem HttpCall.calls (call : HttpCall) :
    Tasks.LocalRun (DispatchStep call) (.received none) []
      (.calling (pathLabel none call.urlPath) call.route) :=
  .step (DispatchStep.label none) (.step (DispatchStep.route _ none) (.refl _))

/-- What `call_next` comes to is observed, counted and sent. -/
theorem HttpCall.returns (call : HttpCall) :
    Tasks.LocalRun (DispatchStep call) (.calling (pathLabel none call.urlPath) call.route)
      call.entries .finished := by
  rw [HttpCall.entries]
  cases hinner : call.inner with
  | ok status =>
    exact .step (DispatchStep.respond _ _ hinner) (.step (DispatchStep.count _ status)
      (.step (DispatchStep.send _ status) (.refl _)))
  | error e =>
    exact .step (DispatchStep.raise _ _ hinner) (.step (DispatchStep.sendError _) (.refl _))

/-- One request on its own passes through `dispatch` to its end. -/
theorem HttpCall.dispatch (call : HttpCall) :
    Tasks.LocalRun (DispatchStep call) (.received none) call.entries .finished :=
  call.calls.trans call.returns

/-- A run that serves the requests one after the other. -/
theorem App.exists_serial (jobs : List HttpCall) :
    ∃ t : App, t.Reachable ∧ t.Finished ∧ t.jobs = jobs ∧
      t.log = jobs.zipIdx.flatMap fun call => call.1.entries.map fun e => (call.2, e) := by
  obtain ⟨t, hreach, rfl, hstage, hlog⟩ := Tasks.LocalRun.serial HttpCall.dispatch jobs
  exact ⟨t, hreach, hstage, rfl, hlog⟩

/-- A run in which one request comes and goes while another one is being served. -/
theorem App.exists_nested (outer inner : HttpCall) :
    ∃ t : App, t.Reachable ∧ t.Finished ∧ t.jobs = [outer, inner] := by
  obtain ⟨t, hreach, hjobs, hfirst, hsecond, -⟩ :=
    Tasks.LocalRun.nested outer.calls inner.dispatch outer.returns
  refine ⟨t, hreach, ?_, hjobs⟩
  intro i hi
  rw [hjobs, List.length_cons, List.length_singleton] at hi
  obtain rfl | rfl : i = 0 ∨ i = 1 := by omega
  · exact hfirst
  · exact hsecond

/-- An ingest request that is answered, and one whose database is down. -/
def answeredCall : HttpCall := ⟨"POST", "/v1/events", "/v1/events", .ok 200⟩

def raisingCall : HttpCall :=
  ⟨"POST", "/v1/events", "/v1/events", .error (.database "connection refused")⟩

/-- A request for an event by a text that is no UUID. -/
def eventCall (n : Nat) : HttpCall :=
  let path := s!"/v1/events/{n}"
  ⟨"GET", path, path, .ok 400⟩

/-- While an event is read, one ingest request is answered, or its database is down. -/
theorem conserves_iff_answered_several :
    (∃ t : App, t.jobs = [eventCall 42, answeredCall] ∧ Conserves (t.log.map (·.2))) ∧
      ∃ t : App, t.jobs = [eventCall 42, raisingCall] ∧ ¬ Conserves (t.log.map (·.2)) := by
  obtain ⟨t, hreach, hfinished, hjobs⟩ := App.exists_nested (eventCall 42) answeredCall
  obtain ⟨t', hreach', hfinished', hjobs'⟩ := App.exists_nested (eventCall 42) raisingCall
  refine ⟨⟨t, hjobs, ?_⟩, ⟨t', hjobs', ?_⟩⟩
  · rw [conserves_iff_answered t hreach hfinished, hjobs]
    simp [HttpCall.Answered, eventCall, answeredCall]
  · rw [conserves_iff_answered t' hreach' hfinished', hjobs']
    simp [HttpCall.Answered, eventCall, raisingCall]

/-- The client is sent a 500 that the counter does not have, and the histogram has an
observation more than the counter. -/
theorem conserves_raising :
    ∃ t : App, t.Reachable ∧ t.Finished ∧ t.jobs = [raisingCall] ∧
      answersSent (t.log.map (·.2)) "POST" "/v1/events" 500 = 1 ∧
      requestsTotal (t.log.map (·.2)) "POST" "/v1/events" 500 = 0 ∧
      durationCount (t.log.map (·.2)) "POST" "/v1/events" = 1 ∧
      ¬ Conserves (t.log.map (·.2)) := by
  obtain ⟨t, hreach, hfinished, hjobs, hlog⟩ := App.exists_serial [raisingCall]
  have hevents : t.log.map (·.2) =
      [.observed "POST" "/v1/events", .sent "POST" "/v1/events" 500] := by
    rw [hlog]
    rfl
  refine ⟨t, hreach, hfinished, hjobs, ?_⟩
  rw [hevents]
  refine ⟨by decide, by decide, by decide, fun h => ?_⟩
  exact absurd (h.requests "POST" "/v1/events" 500) (by decide)

/-! ## The labels of a run -/

/-- The path label of an entry of the metrics. -/
def RequestEvent.metricPath : RequestEvent → Option String
  | .observed _ path => some path
  | .counted _ path _ => some path
  | .sent _ _ _ => none

/-- The labels that the requests with a route put into the metrics. -/
def routedLabels (jobs : List HttpCall) (log : List (Nat × RequestEvent)) : List String :=
  (log.filterMap fun e =>
    if (jobs[e.1]?).any (·.route.isSome) then e.2.metricPath else none).dedup

/-- Requests with a route are labelled with its path, so that there are no more labels
than routes. -/
structure LabelLaw (t : App) : Prop where
  bounded : (routedLabels t.jobs t.log).length ≤ routes.length
  template : ∀ i call, t.jobs[i]? = some call → ∀ r, call.route = some r →
    ∀ e label, (i, e) ∈ t.log → RequestEvent.metricPath e = some label → label = r.path

/-- Every label of a request is its raw path. -/
theorem HttpCall.metricPath_entries {call : HttpCall} {e : RequestEvent} (he : e ∈ call.entries)
    {label : String} (hlabel : e.metricPath = some label) : label = call.urlPath := by
  rw [HttpCall.entries] at he
  cases hinner : call.inner with
  | ok status =>
    simp only [hinner, List.mem_cons, List.not_mem_nil, or_false] at he
    rcases he with rfl | rfl | rfl
    · exact (Option.some.inj hlabel).symm
    · exact (Option.some.inj hlabel).symm
    · cases hlabel
  | error _ =>
    simp only [hinner, List.mem_cons, List.not_mem_nil, or_false] at he
    rcases he with rfl | rfl
    · exact (Option.some.inj hlabel).symm
    · cases hlabel

theorem App.Reachable.label_eq {t : App} (h : t.Reachable) {i : Nat} {call : HttpCall}
    (hcall : t.jobs[i]? = some call) {e : RequestEvent} (he : (i, e) ∈ t.log) {label : String}
    (hlabel : e.metricPath = some label) : label = call.urlPath := by
  have hkeeps := h.each_keeps.keeps i call hcall
  exact HttpCall.metricPath_entries (hkeeps.subset (Tasks.mem_emitted.mpr he)) hlabel

/-- The labels of a run keep to the routes when every request with a route has a raw
path that is the path of its route, and after the run only then. -/
theorem labelLaw_iff (t : App) (h : t.Reachable) :
    ((∀ call ∈ t.jobs, ∀ r, call.route = some r → call.urlPath = r.path) → LabelLaw t) ∧
      (t.Finished → LabelLaw t →
        ∀ call ∈ t.jobs, ∀ r, call.route = some r → call.urlPath = r.path) := by
  constructor
  · intro hpaths
    have htemplate : ∀ i call, t.jobs[i]? = some call → ∀ r, call.route = some r →
        ∀ e label, (i, e) ∈ t.log → RequestEvent.metricPath e = some label → label = r.path := by
      intro i call hcall r hr e label he hlabel
      rw [h.label_eq hcall he hlabel]
      exact hpaths call (List.mem_of_getElem? hcall) r hr
    refine ⟨?_, htemplate⟩
    have hsubset : routedLabels t.jobs t.log ⊆ routes.map Route.path := by
      intro label hlabel
      obtain ⟨⟨i, e⟩, he, hsome⟩ := List.mem_filterMap.mp (List.mem_dedup.mp hlabel)
      rw [Option.ite_none_right_eq_some] at hsome
      obtain ⟨hany, hpath⟩ := hsome
      obtain ⟨call, hcall, hroute⟩ : ∃ call, t.jobs[i]? = some call ∧ call.route.isSome := by
        simpa [Option.any_eq_true] using hany
      obtain ⟨r, hr⟩ := Option.isSome_iff_exists.mp hroute
      rw [htemplate i call hcall r hr e label he hpath]
      exact List.mem_map_of_mem (Route.mem_of_find hr)
    have hle := (List.subperm_of_subset (List.nodup_dedup _) hsubset).length_le
    rwa [List.length_map] at hle
  · intro hfinished hlaw call hcall r hr
    obtain ⟨i, hi, rfl⟩ := List.mem_iff_getElem.mp hcall
    have hget : t.jobs[i]? = some t.jobs[i] := List.getElem?_eq_getElem hi
    have hkeeps := h.each_keeps.keeps i _ hget
    rw [hfinished i hi] at hkeeps
    have hobserved : RequestEvent.observed t.jobs[i].method t.jobs[i].urlPath ∈ t.emitted i := by
      rw [show t.emitted i = t.jobs[i].entries from hkeeps, HttpCall.entries]
      cases t.jobs[i].inner <;> exact List.mem_cons_self
    exact hlaw.template i _ hget r hr _ _ (Tasks.mem_emitted.mp hobserved) rfl

/-- Two ingest requests at a time keep the law, and an ingest request while an event is read
does not. -/
theorem labelLaw_iff_several :
    (∃ t : App, t.jobs = [answeredCall, raisingCall] ∧ LabelLaw t) ∧
      ∃ t : App, t.jobs = [eventCall 42, raisingCall] ∧ ¬ LabelLaw t := by
  obtain ⟨t, hreach, -, hjobs⟩ := App.exists_nested answeredCall raisingCall
  obtain ⟨t', hreach', hfinished', hjobs'⟩ := App.exists_nested (eventCall 42) raisingCall
  refine ⟨⟨t, hjobs, (labelLaw_iff t hreach).1 ?_⟩, ⟨t', hjobs', fun hlaw => ?_⟩⟩
  · have hroute : Route.find routes "POST" "/v1/events" =
        some ⟨["POST"], [.text "/v1/events"]⟩ := by decide +kernel
    rw [hjobs]
    intro call hcall r hr
    have hcall : call = answeredCall ∨ call = raisingCall := by simpa using hcall
    obtain rfl | rfl := hcall
    · obtain rfl := Option.some.inj (hroute.symm.trans hr)
      rfl
    · obtain rfl := Option.some.inj (hroute.symm.trans hr)
      rfl
  · have hroute : (eventCall 42).route = some getEventRoute := by decide +kernel
    have hpath := (labelLaw_iff t' hreach').2 hfinished' hlaw (eventCall 42)
      (by rw [hjobs']; exact List.mem_cons_self) _ hroute
    exact absurd hpath (by decide +kernel)

/-- One route has more labels than there are routes. -/
theorem routedLabels_events :
    ∃ t : App, t.Reachable ∧ t.Finished ∧ (∀ call ∈ t.jobs, call.route = some getEventRoute) ∧
      routes.length < (routedLabels t.jobs t.log).length ∧ ¬ LabelLaw t := by
  obtain ⟨t, hreach, hfinished, hjobs, hlog⟩ :=
    App.exists_serial ((List.range (routes.length + 1)).map eventCall)
  have hmany : routes.length < (routedLabels t.jobs t.log).length := by
    rw [hlog, hjobs]
    decide +kernel
  refine ⟨t, hreach, hfinished, ?_, hmany, fun h => Nat.not_lt_of_le h.bounded hmany⟩
  rw [hjobs]
  decide +kernel

end TelemetryApi
