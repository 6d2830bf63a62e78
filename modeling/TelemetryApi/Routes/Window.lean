import TelemetryApi.Foundations.Runs
import TelemetryApi.Routes.ReadCommitted
import TelemetryApi.Routes.Timeline

/-!
# The recent window

`recent_devices`, `timeline` and `event_facets` look at the last hours of the server's
clock, and compare them with the timestamp that the device gave. The table is filled
by ingest requests while the server's clock runs.
-/

namespace TelemetryApi

/-! ## What an answer depends on -/

/-- The table without a row. -/
def Store.without (store : Store) (row : Event) : Store where
  rows := store.rows.filter (· ≠ row)
  ids_nodup := store.ids_nodup.sublist (List.filter_sublist.map _)

/-- Some part of the table has another answer with the row than without it. -/
def Contributes {β : Type} (answer : Store → β) (store : Store) (row : Event) : Prop :=
  ∃ part : Store, part.rows.Sublist store.rows ∧ row ∈ part.rows ∧
    answer (part.without row) ≠ answer part

theorem Contributes.mem {β : Type} {answer : Store → β} {store : Store} {row : Event}
    (h : Contributes answer store row) : row ∈ store.rows := by
  obtain ⟨part, hpart, hrow, -⟩ := h
  exact hpart.subset hrow

/-- Where an answer looks at the rows since an instant alone, no earlier row contributes
to it. -/
theorem Contributes.le_ts {β : Type} {answer : Store → β} {since : Int}
    (hanswer : ∀ a b : Store, a.since since = b.since since → answer a = answer b)
    {store : Store} {row : Event} (h : Contributes answer store row) : since ≤ row.ts := by
  obtain ⟨part, -, -, hne⟩ := h
  by_contra hearly
  apply hne
  apply hanswer
  rw [Store.since, Store.since, Store.without, List.filter_filter]
  apply List.filter_congr
  intro other _
  by_cases hother : other = row
  · subst hother
    simp [hearly]
  · simp [hother]

/-- A table of one row. -/
def Store.single (row : Event) : Store := ⟨[row], List.nodup_singleton _⟩

theorem Contributes.of_single {β : Type} {answer : Store → β} {store : Store} {row : Event}
    (hrow : row ∈ store.rows)
    (hne : answer ((Store.single row).without row) ≠ answer (Store.single row)) :
    Contributes answer store row :=
  ⟨Store.single row, List.singleton_sublist.mpr hrow, List.mem_singleton_self row, hne⟩

section

variable {store a b : Store} {now : Int} {row : Event} {κ : Type} [LinearOrder κ]

theorem recentDevices_congr (scan : Scan VendorStats) {hours : Bounded 1 (24 * 30)}
    (h : a.since (hoursBefore now hours) = b.since (hoursBefore now hours)) :
    recentDevices a scan now hours = recentDevices b scan now hours := by
  rw [recentDevices, recentDevices, h]

theorem timeline_congr (scan : Scan StatsBucket) {hours : Bounded 1 (24 * 30)}
    (bucketMinutes : Bounded 1 (60 * 24)) (kind : Option EventKind)
    (h : a.since (hoursBefore now hours) = b.since (hoursBefore now hours)) :
    timeline a scan now hours bucketMinutes kind = timeline b scan now hours bucketMinutes kind := by
  rw [timeline, timeline]
  cases kind with
  | none => rw [timelineRows, timelineRows, h]
  | some kind => rw [timelineRows, timelineRows, h]

theorem eventFacets_congr (collation : String → κ) {hours : Bounded 1 (24 * 90)}
    (h : a.since (hoursBefore now hours) = b.since (hoursBefore now hours)) :
    eventFacets a collation now hours = eventFacets b collation now hours := by
  simp only [eventFacets, distinctTexts, h]

/-- Every row since the cut-off contributes to the rollup. -/
theorem contributes_recentDevices (scan : Scan VendorStats) {hours : Bounded 1 (24 * 30)}
    (hrow : row ∈ store.rows) (hts : hoursBefore now hours ≤ row.ts) :
    Contributes (fun st => recentDevices st scan now hours) store row := by
  apply Contributes.of_single hrow
  intro heq
  have hlength := congrArg List.length heq
  rw [recentDevices_perm.length_eq, recentDevices_perm.length_eq] at hlength
  simp [Store.single, Store.without, Store.since, groups, distinct, hts] at hlength

end

/-! ## The law of the window -/

/-- The row is of the last hours, by its timestamp and by its receipt. -/
structure InWindow (now : Int) (hours : Nat) (row : Event) : Prop where
  since : hoursBefore now hours ≤ row.ts
  untilNow : row.ts ≤ now
  received : hoursBefore now hours ≤ row.receivedAt

/-- The server's clock and the table. -/
structure Clocked where
  now : Int
  store : Store

/-- From now on, what contributes to an answer is of its window. -/
structure WindowLaw (s : Clocked) : Prop where
  recent : ∀ now hours scan row, s.now ≤ now →
    Contributes (fun st => recentDevices st scan now hours) s.store row → InWindow now hours row
  timeline : ∀ now hours scan bucketMinutes kind row, s.now ≤ now →
    Contributes (fun st => timeline st scan now hours bucketMinutes kind) s.store row →
      InWindow now hours row
  facets : ∀ {κ : Type} [LinearOrder κ] (collation : String → κ) now hours row, s.now ≤ now →
    Contributes (fun st => eventFacets st collation now hours) s.store row → InWindow now hours row

inductive ClockedEvent where
  | wait
  /-- The events that a request adds to the table. -/
  | ingest (news : List Event)

variable (settings : Settings) (rt : Runtime)

/-- Time passes, or an ingest request commits the events of its batch. -/
inductive ClockedStep : Clocked → ClockedEvent → Clocked → Prop
  | wait (s : Clocked) {now : Int} (h : s.now ≤ now) : ClockedStep s .wait ⟨now, s.store⟩
  | ingest (s : Clocked) {req : Request} {b : Batch} {news : List Event} {store' : Store}
      (hprep : Prepares settings rt req b)
      (hnews : List.Forall₂ (fun row event => ∃ id, OrmRow.stored rt row id s.now = some event)
        b.rows news)
      (hstore : store'.rows = s.store.rows ++ news) :
      ClockedStep s (.ingest news) ⟨s.now, store'⟩

/-- No event of the request is later than the clock of the server. -/
def ClockOk (s : Clocked) (e : ClockedEvent) (_ : Clocked) : Prop :=
  match e with
  | .wait => True
  | .ingest news => ∀ row ∈ news, row.ts ≤ s.now

/-- Every event was received at its timestamp or later, and not after now. -/
def Clocked.Punctual (s : Clocked) : Prop :=
  ∀ row ∈ s.store.rows, row.ts ≤ row.receivedAt ∧ row.receivedAt ≤ s.now

theorem Clocked.Punctual.inWindow {s : Clocked} (h : s.Punctual) {now : Int} {hours : Nat}
    {row : Event} (hrow : row ∈ s.store.rows) (hnow : s.now ≤ now)
    (hts : hoursBefore now hours ≤ row.ts) : InWindow now hours row := by
  obtain ⟨hreceived, hpast⟩ := h row hrow
  exact ⟨hts, by omega, by omega⟩

theorem Clocked.Punctual.windowLaw {s : Clocked} (h : s.Punctual) : WindowLaw s where
  recent _ _ scan _ hnow hc :=
    h.inWindow hc.mem hnow (hc.le_ts fun _ _ => recentDevices_congr scan)
  timeline _ _ scan bucketMinutes kind _ hnow hc :=
    h.inWindow hc.mem hnow (hc.le_ts fun _ _ => timeline_congr scan bucketMinutes kind)
  facets collation _ _ _ hnow hc :=
    h.inWindow hc.mem hnow (hc.le_ts fun _ _ => eventFacets_congr collation)

variable {settings rt}

/-- The new rows carry the server's time. -/
theorem receivedAt_of_stored {rows : List OrmRow} {news : List Event} {now : Int}
    (h : List.Forall₂ (fun row event => ∃ id, OrmRow.stored rt row id now = some event) rows news) :
    ∀ row ∈ news, row.receivedAt = now := by
  induction h with
  | nil => simp
  | cons hhead _ ih =>
    obtain ⟨id, hid⟩ := hhead
    obtain ⟨ts, -, rfl⟩ := Option.map_eq_some_iff.mp hid
    intro row hrow
    obtain rfl | hrow := List.mem_cons.mp hrow
    · rfl
    · exact ih row hrow

theorem ClockedStep.punctual {s s' : Clocked} {e : ClockedEvent} (hs : s.Punctual)
    (h : ClockedStep settings rt s e s') (hclock : ClockOk s e s') : s'.Punctual := by
  cases h with
  | wait hnow =>
    intro row hrow
    obtain ⟨hreceived, hpast⟩ := hs row hrow
    exact ⟨hreceived, hpast.trans hnow⟩
  | ingest _ hnews hstore =>
    intro row hrow
    rw [hstore] at hrow
    obtain hold | hnew := List.mem_append.mp hrow
    · exact hs row hold
    · rw [receivedAt_of_stored hnews row hnew]
      exact ⟨hclock row hnew, le_rfl⟩

/-- An event ahead of the server's clock is in the rollup at once. -/
theorem ClockedStep.clockOk {s s' : Clocked} {e : ClockedEvent} (h : ClockedStep settings rt s e s')
    (hlaw : WindowLaw s') : ClockOk s e s' := by
  cases h with
  | wait hnow => exact trivial
  | ingest _ hnews hstore =>
    intro row hrow
    by_contra hahead
    have hmem := List.mem_append_right s.store.rows hrow
    rw [← hstore] at hmem
    have hhours : hoursBefore s.now (⟨24, by decide⟩ : Bounded 1 (24 * 30)) ≤ row.ts := by
      simp only [hoursBefore]
      omega
    have hc := contributes_recentDevices .id hmem hhours
    exact hahead (hlaw.recent s.now ⟨24, by decide⟩ .id row le_rfl hc).untilNow

variable (settings rt)

/-- In a run from an empty table, the answers keep to their windows in every state
exactly when no ingested event is ahead of the server's clock. -/
theorem windowLaw_iff (now : Int) (run : List (ClockedEvent × Clocked))
    (hrun : Along (ClockedStep settings rt) ⟨now, emptyStore⟩ run) :
    (∀ x ∈ run, WindowLaw x.2) ↔ Along ClockOk ⟨now, emptyStore⟩ run := by
  have hstart : Clocked.Punctual ⟨now, emptyStore⟩ := by
    intro row hrow
    cases hrow
  constructor
  · intro hlaws
    exact hrun.of_states hstart.windowLaw hlaws fun _ _ _ _ hstep => hstep.clockOk
  · intro hclock x hx
    have hpunctual := hrun.states hclock hstart (fun _ _ _ hs hstep => hstep.punctual hs) x hx
    exact hpunctual.windowLaw

theorem windowLaw_iff_sample :
    (∀ x ∈ [(ClockedEvent.ingest [sampleStored],
        (⟨sampleStored.receivedAt, filledStore⟩ : Clocked))], WindowLaw x.2) ↔
      Along ClockOk ⟨sampleStored.receivedAt, emptyStore⟩
        [(.ingest [sampleStored], ⟨sampleStored.receivedAt, filledStore⟩)] := by
  obtain ⟨b, hprep, hstored⟩ := prepares_sample sampleStored.receivedAt
  exact windowLaw_iff {} sampleRuntime sampleStored.receivedAt _
    (.cons (.ingest _ hprep hstored rfl) (.nil _ _))

/-- The event from a device whose clock is a year ahead. -/
def aheadStored : Event :=
  { sampleStored with receivedAt := sampleStored.ts - 365 * 24 * 3600000000 }

def aheadStore : Store := ⟨[aheadStored], by decide⟩

/-- The table when the event is received, and a year later. -/
def aheadRun : List (ClockedEvent × Clocked) :=
  [(.ingest [aheadStored], ⟨aheadStored.receivedAt, aheadStore⟩),
    (.wait, ⟨aheadStored.ts, aheadStore⟩)]

/-- The event is still among those of the last hour a year after its receipt. -/
theorem windowLaw_ahead :
    Along (ClockedStep {} sampleRuntime) ⟨aheadStored.receivedAt, emptyStore⟩ aheadRun ∧
      ¬ (∀ x ∈ aheadRun, WindowLaw x.2) ∧
      (recentDevices aheadStore .id aheadStored.ts ⟨1, by decide⟩).map (·.total) = [1] := by
  obtain ⟨b, hprep, hstored⟩ := prepares_sample aheadStored.receivedAt
  refine ⟨.cons (.ingest _ hprep hstored rfl) (.cons (.wait _ (by decide)) (.nil _ _)),
    fun hlaws => ?_, by decide +kernel⟩
  have hc : Contributes (fun st => recentDevices st .id aheadStored.ts ⟨1, by decide⟩) aheadStore
      aheadStored :=
    contributes_recentDevices .id (List.mem_singleton_self _) (by decide)
  have hlaw := hlaws _ (List.mem_cons_of_mem _ List.mem_cons_self)
  have hreceived := (hlaw.recent _ _ _ _ le_rfl hc).received
  exact absurd hreceived (by decide)

end TelemetryApi
