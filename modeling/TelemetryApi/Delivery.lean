import Mathlib.Data.List.Flatten
import TelemetryApi.Routes.Lifecycle
import TelemetryApi.Routes.NdjsonBatch

/-!
# Delivery

Devices keep their batches in a queue until an answer tells them to drop them,
and may send a batch any number of times. Together with a server whose requests
fail at any point, no accepted event of a dropped batch is missing from the
table, and no row is there more often than its batch was sent.
-/

namespace TelemetryApi

variable (settings : Settings) (rt : Runtime) (δ : Type)

/-- A batch in the queue of a device, which keeps to the limits of the server. -/
structure QueuedBatch where
  device : δ
  body : Bytes
  objects : List JsonObject
  isNdjson : IsNdjson rt body objects
  size_le : body.length ≤ settings.maxBodyBytes
  length_le : objects.length ≤ settings.maxEventsPerRequest

/-- One sending of the batch with the given number, under the token that the
device has at the time. -/
structure Send where
  batch : Nat
  authorization : Option String
  body : Bytes

def Send.request (send : Send) : Request := .ndjson send.authorization send.body

/-- The answers on which a device drops a batch. Every other answer, and a lost
one, keeps it in the queue. -/
def drops (status : Nat) : Bool := status = 200 || status = 413 || status = 422

/-! ## One sending of a batch within the limits -/

section Send

variable {settings rt δ} {b : QueuedBatch settings rt δ} {send : Send} (hsend : send.body = b.body)

include hsend

theorem QueuedBatch.rows_of_prepares {batch : Batch} (h : Prepares settings rt send.request batch) :
    batch.rows = acceptedRows rt b.objects := by
  obtain ⟨-, hparse, -, -, hrows, -⟩ := (prepareBatch_eq_ok_iff settings rt).mp h.2
  rw [Send.request, hsend, parseBody_of_isNdjson b.isNdjson] at hparse
  rw [hrows, ← Except.ok.inj hparse]
  rfl

/-- The answer that makes a device drop the batch is a 200 behind the commit of
all its rows: neither limit is exceeded and an ndjson body is never refused
with 422. -/
theorem QueuedBatch.durable_of_drops {durable : List (List OrmRow)}
    {outcome : Except PyExc IngestResponse}
    (h : Accounted settings rt send.request durable outcome)
    (hdrops : drops (answerOf outcome).status) : durable = [acceptedRows rt b.objects] := by
  cases outcome with
  | ok r =>
    obtain ⟨batch, hb, -, hdurable⟩ := h
    rw [hdurable, QueuedBatch.rows_of_prepares hsend hb]
  | error e =>
    obtain ⟨hauth | hprep | ⟨message, rfl⟩, -⟩ := h
    · -- 401 and 403 keep the batch in the queue
      rcases settings.requireIngestToken_eq_error hauth with rfl | rfl | rfl <;> cases hdrops
    · have hrequest : prepareBatch settings rt send.request =
          prepareBatch settings rt (.ndjson send.authorization b.body) := by
        rw [Send.request, hsend]
      rw [hrequest] at hprep
      by_cases hbad : ∃ o ∈ b.objects, BadProps o
      · rw [prepareBatch_ndjson_of_badProps b.isNdjson b.size_le b.length_le hbad] at hprep
        cases hprep
        cases hdrops
      · -- a batch within the limits is prepared, so the handler raises nothing
        push Not at hbad
        rw [prepareBatch_ndjson b.isNdjson b.size_le b.length_le hbad] at hprep
        cases hprep
    · cases hdrops

theorem QueuedBatch.allOrNone {durable : List (List OrmRow)}
    (h : AllOrNone settings rt send.request durable) :
    durable = [] ∨ durable = [acceptedRows rt b.objects] := by
  rcases h with h | ⟨batch, hb, h⟩
  · exact Or.inl h
  · rw [h, QueuedBatch.rows_of_prepares hsend hb]
    exact Or.inr rfl

end Send

/-! ## Devices and the server -/

/-- All batches ever queued by their numbers, the queue of each device, and the
server with one request for each sending. -/
structure World where
  batches : List (QueuedBatch settings rt δ)
  queue : δ → List Nat
  server : Tasks Send Stage (List OrmRow)

variable {settings rt δ} [DecidableEq δ]

namespace World

def empty : World settings rt δ := ⟨[], fun _ => [], .empty .received⟩

/-- A device takes a batch out of its queue. -/
def drop (w : World settings rt δ) (b : QueuedBatch settings rt δ) (i : Nat) : δ → List Nat :=
  Function.update w.queue b.device ((w.queue b.device).filter (· ≠ i))

inductive Step : World settings rt δ → World settings rt δ → Prop
  | enqueue (w : World settings rt δ) (b : QueuedBatch settings rt δ) :
      Step w ⟨w.batches ++ [b],
        Function.update w.queue b.device (w.queue b.device ++ [w.batches.length]), w.server⟩
  /-- A queued batch is sent, also while an earlier sending is under way. -/
  | send {w : World settings rt δ} {i : Nat} {b : QueuedBatch settings rt δ}
      (hb : w.batches[i]? = some b) (hqueue : i ∈ w.queue b.device)
      (authorization : Option String) :
      Step w ⟨w.batches, w.queue, w.server.spawn .received ⟨i, authorization, b.body⟩⟩
  /-- The server takes a step, or an answer is lost. -/
  | serve {w : World settings rt δ} {server : Tasks Send Stage (List OrmRow)}
      (h : Tasks.Advance (fun send => RequestStep settings rt send.request) w.server server) :
      Step w ⟨w.batches, w.queue, server⟩
  /-- An answer reaches its device. -/
  | receive {w : World settings rt δ} {r : Nat} {send : Send} {a : Answer}
      {b : QueuedBatch settings rt δ} (hsend : w.server.jobs[r]? = some send)
      (hanswer : w.server.stage r = .answered a) (hb : w.batches[send.batch]? = some b) :
      Step w ⟨w.batches, if drops a.status then w.drop b send.batch else w.queue,
        w.server.advance r none .gone⟩

def Reachable : World settings rt δ → Prop := Relation.ReflTransGen Step empty

/-- The rows one sending has committed. -/
def committed (w : World settings rt δ) (r : Nat) : List OrmRow := (w.server.emitted r).flatten

/-- The table. -/
def store (w : World settings rt δ) : List OrmRow := w.server.log.flatMap (·.2)

/-- How often a batch was sent. -/
def sends (w : World settings rt δ) (i : Nat) : Nat :=
  w.server.jobs.countP fun send => send.batch = i

/-- How often the rows of a batch were committed. -/
def copies (w : World settings rt δ) (i : Nat) : Nat :=
  w.server.log.countP fun e => (w.server.jobs[e.1]?).any fun send => send.batch = i

/-! ## The invariant -/

/-- Every sending keeps the account of its rows and sends a queued batch, and a
batch that has left its queue was committed by one of its sendings. -/
structure Inv (w : World settings rt δ) : Prop where
  each : w.server.Each fun send => send.request.Keeps settings rt
  sent : ∀ (r : Nat) (send : Send), w.server.jobs[r]? = some send →
    ∃ b : QueuedBatch settings rt δ, w.batches[send.batch]? = some b ∧ send.body = b.body
  left : ∀ (i : Nat) (b : QueuedBatch settings rt δ), w.batches[i]? = some b →
    i ∉ w.queue b.device → ∃ (r : Nat) (send : Send), w.server.jobs[r]? = some send ∧
      send.batch = i ∧ w.server.emitted r = [acceptedRows rt b.objects]

omit [DecidableEq δ] in
theorem Inv.of_empty : (empty : World settings rt δ).Inv := by
  refine ⟨Tasks.Each.of_empty _ _, ?_, ?_⟩
  · intro r send hr
    simp [empty, Tasks.empty] at hr
  · intro i b hb
    simp [empty] at hb

theorem Inv.enqueue {w : World settings rt δ} (hw : w.Inv) (b : QueuedBatch settings rt δ) :
    Inv ⟨w.batches ++ [b],
      Function.update w.queue b.device (w.queue b.device ++ [w.batches.length]), w.server⟩ := by
  refine ⟨hw.each, ?_, ?_⟩
  · intro r send hr
    obtain ⟨b', hb', hbody⟩ := hw.sent r send hr
    have hlt : send.batch < w.batches.length := (List.getElem?_eq_some_iff.mp hb').1
    exact ⟨b', by rw [List.getElem?_append_left hlt, hb'], hbody⟩
  · intro i b' hb' hqueue
    simp only at hb' hqueue
    by_cases hi : i < w.batches.length
    · rw [List.getElem?_append_left hi] at hb'
      refine hw.left i b' hb' fun hold => hqueue ?_
      by_cases hdevice : b'.device = b.device
      · rw [hdevice] at hold ⊢
        rw [Function.update_self]
        exact List.mem_append_left _ hold
      · rwa [Function.update_of_ne hdevice]
    · -- the new batch is in its queue
      have hlt : i < (w.batches ++ [b]).length := (List.getElem?_eq_some_iff.mp hb').1
      rw [List.length_append, List.length_singleton] at hlt
      obtain rfl : i = w.batches.length := by omega
      obtain rfl : b = b' := by simpa using hb'
      exact absurd (by simp) hqueue

omit [DecidableEq δ] in
theorem Inv.spawn {w : World settings rt δ} (hw : w.Inv) {i : Nat}
    {b : QueuedBatch settings rt δ} (hb : w.batches[i]? = some b)
    (authorization : Option String) :
    Inv ⟨w.batches, w.queue, w.server.spawn .received ⟨i, authorization, b.body⟩⟩ := by
  refine ⟨hw.each.spawn rfl, ?_, ?_⟩
  · intro r send hr
    by_cases hlt : r < w.server.jobs.length
    · apply hw.sent r send
      rwa [Tasks.spawn, List.getElem?_append_left hlt] at hr
    · have hlt' := (List.getElem?_eq_some_iff.mp hr).1
      simp only [Tasks.spawn, List.length_append, List.length_singleton] at hlt'
      obtain rfl : r = w.server.jobs.length := by omega
      obtain rfl : ⟨i, authorization, b.body⟩ = send := by simpa [Tasks.spawn] using hr
      exact ⟨b, hb, rfl⟩
  · intro j b' hb' hqueue
    obtain ⟨r, send, hr, hbatch, hrows⟩ := hw.left j b' hb' hqueue
    have hlt : r < w.server.jobs.length := (List.getElem?_eq_some_iff.mp hr).1
    exact ⟨r, send, by rw [Tasks.spawn, List.getElem?_append_left hlt, hr], hbatch, hrows⟩

omit [DecidableEq δ] in
/-- A step of the server leaves the committed batches committed. -/
theorem Inv.advance {w : World settings rt δ} (hw : w.Inv)
    {server : Tasks Send Stage (List OrmRow)}
    (h : Tasks.Advance (fun send => RequestStep settings rt send.request) w.server server) :
    Inv ⟨w.batches, w.queue, server⟩ := by
  have heach : server.Each fun send => send.request.Keeps settings rt :=
    Tasks.Each.advance (P := fun send : Send => send.request.Keeps settings rt)
      (fun _ _ _ _ _ hkeeps hstep => Request.Keeps.step hkeeps hstep) h hw.each
  cases h with
  | @advance r₀ send₀ out s hr₀ hstep =>
    refine ⟨heach, hw.sent, ?_⟩
    intro i b hb hqueue
    obtain ⟨r, send, hr, hbatch, hrows⟩ := hw.left i b hb hqueue
    refine ⟨r, send, hr, hbatch, ?_⟩
    by_cases hrr : r = r₀
    · subst hrr
      -- the request has committed, so the step makes nothing more durable
      have hkeeps := (heach.keeps r send hr).allOrNone
      rw [Tasks.emitted_advance_self, hrows] at hkeeps ⊢
      rcases hkeeps with hnone | ⟨batch, -, hone⟩
      · simp at hnone
      · cases out with
        | none => rfl
        | some rows => simp at hone
    · rw [Tasks.emitted_advance_of_ne _ hrr]
      exact hrows

theorem Inv.receive {w : World settings rt δ} (hw : w.Inv) {r : Nat} {send : Send} {a : Answer}
    {b : QueuedBatch settings rt δ} (hsend : w.server.jobs[r]? = some send)
    (hanswer : w.server.stage r = .answered a) (hb : w.batches[send.batch]? = some b) :
    Inv ⟨w.batches, if drops a.status then w.drop b send.batch else w.queue,
      w.server.advance r none .gone⟩ := by
  have hgone : Inv ⟨w.batches, w.queue, w.server.advance r none .gone⟩ :=
    hw.advance (.advance hsend (.vanish _))
  refine ⟨hgone.each, hgone.sent, ?_⟩
  intro i b' hb' hqueue
  by_cases hold : i ∈ w.queue b'.device
  · -- the batch leaves its queue with this answer
    simp only at hb' hqueue
    split_ifs at hqueue with hdrops
    · have hi : i = send.batch := by
        by_contra hne
        apply hqueue
        rw [World.drop]
        by_cases hdevice : b'.device = b.device
        · rw [hdevice] at hold ⊢
          rw [Function.update_self]
          exact List.mem_filter.mpr ⟨hold, by simpa using hne⟩
        · rwa [Function.update_of_ne hdevice]
      subst hi
      obtain rfl : b = b' := Option.some.inj (hb.symm.trans hb')
      obtain ⟨b'', hb'', hbody⟩ := hw.sent r send hsend
      obtain rfl : b = b'' := Option.some.inj (hb.symm.trans hb'')
      have hkeeps := hw.each.keeps r send hsend
      rw [hanswer] at hkeeps
      obtain ⟨outcome, rfl, hacc⟩ := hkeeps
      refine ⟨r, send, hsend, rfl, ?_⟩
      rw [Tasks.emitted_advance_self]
      simpa using QueuedBatch.durable_of_drops hbody hacc hdrops
    · exact absurd hold hqueue
  · exact hgone.left i b' hb' hold

/-- Every step keeps the invariant. -/
theorem Inv.step {w w' : World settings rt δ} (h : Step w w') (hw : w.Inv) : w'.Inv := by
  cases h with
  | enqueue b => exact hw.enqueue b
  | send hb _ authorization => exact hw.spawn hb authorization
  | serve h => exact hw.advance h
  | receive hsend hanswer hb => exact hw.receive hsend hanswer hb

theorem Reachable.inv {w : World settings rt δ} (h : w.Reachable) : w.Inv :=
  invariant_of_reachable h Inv.of_empty fun _ _ => Inv.step

/-! ## What the table holds -/

omit [DecidableEq δ] in
theorem committed_sublist_store (w : World settings rt δ) (r : Nat) :
    (w.committed r).Sublist w.store := by
  have hsub : ((w.server.log.filter (·.1 = r)).map (·.2)).Sublist (w.server.log.map (·.2)) :=
    List.filter_sublist.map _
  exact hsub.flatten

omit [DecidableEq δ] in
theorem Inv.committed_eq {w : World settings rt δ} (hw : w.Inv) {r : Nat} {send : Send}
    {b : QueuedBatch settings rt δ} (hsend : w.server.jobs[r]? = some send)
    (hb : w.batches[send.batch]? = some b) :
    w.committed r = [] ∨ w.committed r = acceptedRows rt b.objects := by
  obtain ⟨b', hb', hbody⟩ := hw.sent r send hsend
  obtain rfl : b = b' := Option.some.inj (hb.symm.trans hb')
  rcases QueuedBatch.allOrNone hbody (hw.each.keeps r send hsend).allOrNone with h | h
  · exact Or.inl (by rw [World.committed, h]; rfl)
  · exact Or.inr (by rw [World.committed, h]; simp)

/-- In every state of every run: a sending has committed all accepted rows of
its batch or none; a batch that has left its queue has been committed by one of
its sendings; every row of the table was committed by a sending of a batch it
stems from; and the rows of a batch were committed at most as often as the batch
was sent. -/
theorem Reachable.delivers {w : World settings rt δ} (h : w.Reachable) :
    (∀ r send b, w.server.jobs[r]? = some send → w.batches[send.batch]? = some b →
      w.committed r = [] ∨ w.committed r = acceptedRows rt b.objects) ∧
    (∀ i b, w.batches[i]? = some b → i ∉ w.queue b.device →
      ∃ r send, w.server.jobs[r]? = some send ∧ send.batch = i ∧
        w.committed r = acceptedRows rt b.objects ∧ (w.committed r).Sublist w.store) ∧
    (∀ row ∈ w.store, ∃ r send b, w.server.jobs[r]? = some send ∧
      w.batches[send.batch]? = some b ∧ row ∈ w.committed r ∧
      row ∈ acceptedRows rt b.objects) ∧
    ∀ i, w.copies i ≤ w.sends i := by
  have hw := Reachable.inv h
  refine ⟨fun r send b hsend hb => hw.committed_eq hsend hb, ?_, ?_, ?_⟩
  · intro i b hb hqueue
    obtain ⟨r, send, hsend, hbatch, hrows⟩ := hw.left i b hb hqueue
    refine ⟨r, send, hsend, hbatch, ?_, w.committed_sublist_store r⟩
    rw [World.committed, hrows]
    simp
  · intro row hrow
    obtain ⟨⟨r, rows⟩, hlog, hmem⟩ := List.mem_flatMap.mp hrow
    have hsend := List.getElem?_eq_getElem (hw.each.started _ hlog)
    obtain ⟨b, hb, -⟩ := hw.sent r _ hsend
    have hcommitted : row ∈ w.committed r :=
      List.mem_flatten.mpr ⟨rows, Tasks.mem_emitted.mpr hlog, hmem⟩
    refine ⟨r, _, b, hsend, hb, hcommitted, ?_⟩
    rcases hw.committed_eq hsend hb with hnone | hall
    · rw [hnone] at hcommitted
      cases hcommitted
    · rwa [hall] at hcommitted
  · intro i
    refine hw.each.countP_log_le ?_ _
    intro send s es hkeeps
    rcases hkeeps.allOrNone with rfl | ⟨batch, -, rfl⟩ <;> simp

/-! ## A batch can be delivered -/

/-- From any state, a device whose token is accepted can send a queued batch and
have it served, unless it holds malformed `props`. -/
theorem serve_send {w : World settings rt δ} {i : Nat} {b : QueuedBatch settings rt δ}
    (hb : w.batches[i]? = some b) (hqueue : i ∈ w.queue b.device)
    (authorization : Option String)
    (hauth : settings.requireIngestToken authorization = .ok ())
    (hgood : ∀ o ∈ b.objects, ¬ BadProps o) :
    ∃ w' r send a, Relation.ReflTransGen Step w w' ∧ w'.batches = w.batches ∧
      w'.queue = w.queue ∧ w'.server.jobs[r]? = some send ∧ send.batch = i ∧
      w'.server.stage r = .answered a ∧ a.status = 200 := by
  have hprep : Prepares settings rt (Send.request ⟨i, authorization, b.body⟩) _ :=
    ⟨hauth, prepareBatch_ndjson b.isNdjson b.size_le b.length_le hgood⟩
  obtain ⟨server, hreach, hjobs, hanswer, -⟩ :=
    @Tasks.LocalRun.spawn_reaches _ _ _ (fun send : Send => RequestStep settings rt send.request)
      _ w.server ⟨i, authorization, b.body⟩ _ _ (RequestRun.serve hprep)
  refine ⟨⟨w.batches, w.queue, server⟩, w.server.jobs.length, ⟨i, authorization, b.body⟩, _, ?_,
    rfl, rfl, by simp [hjobs], rfl, hanswer, rfl⟩
  have hlift : ∀ {t t'}, Relation.ReflTransGen
      (Tasks.Advance fun send : Send => RequestStep settings rt send.request) t t' →
      Relation.ReflTransGen Step (⟨w.batches, w.queue, t⟩ : World settings rt δ)
        ⟨w.batches, w.queue, t'⟩ := by
    intro t t' ht
    exact ht.lift (fun t => (⟨w.batches, w.queue, t⟩ : World settings rt δ))
      fun _ _ h => Step.serve h
  exact (hlift hreach).head (Step.send hb hqueue authorization)

end World

def sampleBatch : QueuedBatch {} sampleRuntime Unit where
  device := ()
  body := ndjsonBody sampleRuntime [sampleLine]
  objects := [sampleEvent]
  isNdjson := isNdjson_ndjsonBody sampleRuntime [sampleLine]
  size_le := by decide +kernel
  length_le := by decide

/-- A run in which a device queues a batch, has it served and drops it. -/
theorem World.Reachable.delivers_sample :
    ∃ w : World {} sampleRuntime Unit, w.batches = [sampleBatch] ∧ w.queue () = [] ∧
      ∃ r send, w.server.jobs[r]? = some send ∧ send.batch = 0 ∧
        w.committed r = acceptedRows sampleRuntime [sampleEvent] ∧
        (w.committed r).Sublist w.store := by
  have henqueue := World.Step.enqueue (World.empty : World {} sampleRuntime Unit) sampleBatch
  obtain ⟨w, r, send, a, hreach, hbatches, hqueue, hsend, hbatch, hanswer, hstatus⟩ :=
    World.serve_send (w := ⟨[] ++ [sampleBatch], Function.update (fun _ => []) () ([] ++ [0]),
      .empty .received⟩) (i := 0) (b := sampleBatch) rfl (by simp [sampleBatch]) none rfl
      (by decide)
  have hb : w.batches[send.batch]? = some sampleBatch := by
    rw [hbatches, hbatch]
    rfl
  let w' : World {} sampleRuntime Unit := ⟨w.batches,
    if drops a.status then w.drop sampleBatch send.batch else w.queue,
    w.server.advance r none .gone⟩
  have hreceive : World.Step w w' := World.Step.receive hsend hanswer hb
  have hdropped : w'.queue () = [] := by
    simp [w', drops, hstatus, World.drop, hqueue, hbatch, sampleBatch]
  have hreachable := ((Relation.ReflTransGen.single henqueue).trans hreach).tail hreceive
  refine ⟨w', hbatches, hdropped, ?_⟩
  refine (World.Reachable.delivers hreachable).2.1 0 sampleBatch ?_ ?_
  · rw [show w'.batches = [sampleBatch] from hbatches]
    rfl
  · show 0 ∉ w'.queue ()
    rw [hdropped]
    exact List.not_mem_nil

end TelemetryApi
