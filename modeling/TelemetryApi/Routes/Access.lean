import TelemetryApi.Routes.Lifecycle
import TelemetryApi.Routes.NdjsonBatch

/-!
# Who can write

With tokens configured, every row of the table stems from a request that carried
one of them, whatever else was sent in between; and a refusal tells nothing
about the body or the table.
-/

namespace TelemetryApi

variable {settings : Settings} {rt : Runtime}

/-- A transaction in the log belongs to a request that passed the token check
and whose handler prepared the rows. -/
theorem Server.prepares_of_mem_log {s : Server}
    (h : Relation.ReflTransGen (Server.Step settings rt) (Tasks.empty .received) s)
    {i : Nat} {rows : List OrmRow} (hlog : (i, rows) ∈ s.log) :
    ∃ req b, s.jobs[i]? = some req ∧ Prepares settings rt req b ∧ rows = b.rows := by
  have heach := Server.each_keeps h
  have hlt := heach.started _ hlog
  have hjob : s.jobs[i]? = some s.jobs[i] := List.getElem?_eq_getElem hlt
  have hmem : rows ∈ s.emitted i := Tasks.mem_emitted.mpr hlog
  rcases (heach.keeps i _ hjob).allOrNone with hnone | ⟨b, hb, hall⟩
  · rw [hnone] at hmem
    cases hmem
  · rw [hall, List.mem_singleton] at hmem
    exact ⟨_, b, hjob, hb, hmem⟩

/-- From any state, an authorised request whose batch is prepared can be served
to its end. -/
theorem Server.serve (s : Server) {req : Request} {b : Batch} (hb : Prepares settings rt req b) :
    ∃ s' : Server, Relation.ReflTransGen (Server.Step settings rt) s s' ∧
      s'.jobs = s.jobs ++ [req] ∧ s'.log = s.log ++ [(s.jobs.length, b.rows)] ∧
      s'.stage s.jobs.length = .answered (answerOf (.ok b.response)) := by
  obtain ⟨s', hreach, hjobs, hanswer, hlog, -⟩ :=
    Tasks.LocalRun.spawn_reaches s (RequestRun.serve hb)
  refine ⟨s', ?_, hjobs, hlog, hanswer⟩
  have hserved : Relation.ReflTransGen (Server.Step settings rt) (s.spawn .received req) s' :=
    Relation.ReflTransGen.mono (fun _ _ h => Tasks.Step.advance h) _ _ hreach
  exact hserved.head (Tasks.Step.spawn s req)

/-- Every row of the table was inserted by a request that carried a configured
token, and a refused request is answered alike for all bodies and tables and
leaves the table as it was. -/
theorem ingest_authorised (htokens : settings.ingestTokenSet ≠ ∅) :
    (∀ s : Server, Relation.ReflTransGen (Server.Step settings rt) (Tasks.empty .received) s →
      ∀ row ∈ s.store, ∃ i req rows, (i, rows) ∈ s.log ∧ row ∈ rows ∧
        s.jobs[i]? = some req ∧ settings.CarriesToken req.authorization) ∧
    ∀ req e, settings.requireIngestToken req.authorization = .error e →
      ∀ db store, (postEvents settings rt db store req).2 = [] ∧
        ∀ req' db' store', req'.authorization = req.authorization →
          (postEvents settings rt db' store' req').1 = (postEvents settings rt db store req).1 := by
  have hauth : settings.authRequired := decide_eq_true htokens
  constructor
  · intro s hs row hrow
    obtain ⟨⟨i, rows⟩, hlog, hmem⟩ := List.mem_flatMap.mp hrow
    obtain ⟨req, b, hjob, ⟨hok, -⟩, -⟩ := Server.prepares_of_mem_log hs hlog
    exact ⟨i, req, rows, hlog, hmem, hjob,
      (settings.requireIngestToken_eq_ok_iff hauth req.authorization).mp hok⟩
  · intro req e he db store
    -- the answer is made of the refusal alone
    have hanswer : ∀ db store req', req'.authorization = req.authorization →
        postEvents settings rt db store req' = (answerOf (.error e), []) := by
      intro db store req' hreq
      rw [postEvents, hreq, he]
    refine ⟨by rw [hanswer db store req rfl], fun req' db' store' hreq => ?_⟩
    rw [hanswer db' store' req' hreq, hanswer db store req rfl]

def tokenSettings : Settings := { ingestTokens := "t" }

/-- A table that one authorised request has written to, and a refusal. -/
theorem ingest_authorised_sample :
    (∃ s : Server, s.store = acceptedRows sampleRuntime [sampleEvent] ∧
      ∀ row ∈ s.store, ∃ i req rows, (i, rows) ∈ s.log ∧ row ∈ rows ∧
        s.jobs[i]? = some req ∧ tokenSettings.CarriesToken req.authorization) ∧
    (postEvents tokenSettings sampleRuntime .accepting [] ⟨some "Bearer u", none, []⟩).2 = [] := by
  have htokens : tokenSettings.ingestTokenSet ≠ ∅ := by decide
  have hauth : tokenSettings.requireIngestToken (some "Bearer t") = .ok () :=
    (tokenSettings.requireIngestToken_eq_ok_iff (by decide) _).mpr
      ⟨"Bearer", "t", rfl, by decide, by decide⟩
  have hrefused : tokenSettings.requireIngestToken (some "Bearer u") =
      .error (.http Settings.invalidToken) := rfl
  have hprep : prepareBatch tokenSettings sampleRuntime
      (.ndjson (some "Bearer t") (ndjsonBody sampleRuntime [sampleLine])) = _ :=
    prepareBatch_ndjson (isNdjson_ndjsonBody sampleRuntime [sampleLine]) (by decide +kernel)
      (by decide) (by decide)
  obtain ⟨s, hs, -, hlog, -⟩ := Server.serve (Tasks.empty .received) ⟨hauth, hprep⟩
  refine ⟨⟨s, ?_, (ingest_authorised htokens).1 s hs⟩, ?_⟩
  · simp [Server.store, hlog, Tasks.empty, sampleLine]
  · exact ((ingest_authorised htokens).2 ⟨some "Bearer u", none, []⟩ _ hrefused _ _).1

end TelemetryApi
