import TelemetryApi.Foundations.Positions
import TelemetryApi.Routes.Records

/-!
# The positions that errors name

A line or an item that is no object is reported under its position in the body, an
object that the schema refuses under its index among the objects. The two numbers
agree as long as no record in front of the object is left out.
-/

namespace TelemetryApi

variable (rt : Runtime)

/-- The records of a body with their positions, and the object each of them holds:
the non-blank lines by their line numbers, or the items of an array, or an object. -/
def Request.records (req : Request) : List (Nat × Option JsonObject) :=
  if req.isNdjson then
    (iterNdjsonLines req.body).map fun line => (line.1, lineObject rt line.2)
  else if req.body = [] then []
  else match rt.loads req.body with
    | .ok (.obj fields) => [(1, some fields)]
    | .ok (.arr items) => (items.zipIdx 1).map fun entry => (entry.2, entry.1.asObject)
    | _ => []

theorem Request.records_increasing (req : Request) :
    (0 :: (req.records rt).map (·.1)).Pairwise (· < ·) := by
  rw [Request.records]
  split_ifs with hnd hempty
  · rw [List.map_map]
    exact iterLinesFrom_increasing 0 (Bytes.splitlines req.body)
  · simp
  · split
    · simp
    · rename_i items _
      have hnumbers : ((items.zipIdx 1).map fun entry => (entry.2, entry.1.asObject)).map (·.1) =
          List.range' 1 items.length := by
        rw [List.map_map, ← List.zipIdx_map_snd 1 items]
        rfl
      rw [hnumbers, List.pairwise_cons]
      exact ⟨fun n hn => by simp only [List.mem_range'_1] at hn; omega, List.pairwise_lt_range'⟩
    · simp

/-- An item that is no object is reported under its number. -/
theorem position_itemError (entry : Json × Nat) :
    (itemError entry).map SoftError.position =
      if entry.1.asObject.isNone then some entry.2 else none := by
  rw [itemError]
  cases entry.1 <;> rfl

theorem splitItems_errors (items : List Json) :
    (splitItems items).2 = (items.zipIdx 1).filterMap itemError := by
  rw [splitItems, foldl_append_readings _ itemStep_eq]
  exact List.nil_append _

/-- The parsers keep the objects of the records and report the other records under
their positions. -/
theorem parseBody_records {req : Request} {parsed : Parsed} (h : parseBody rt req = .ok parsed) :
    parsed.rawObjects = (req.records rt).filterMap (·.2) ∧
      parsed.parseErrors.map SoftError.position =
        ((req.records rt).filter fun r => r.2.isNone).map (·.1) := by
  rw [parseBody] at h
  rw [Request.records]
  split_ifs at h ⊢ with hnd hempty
  · cases h
    dsimp only
    rw [parseNdjson_eq, List.filterMap_map, List.filter_map, List.map_map]
    exact ⟨rfl, filterMap_map_eq_filter fun line _ => position_lineError rt line⟩
  · rw [parseJson, if_pos hempty, rt.loads_null] at h
    cases h
    exact ⟨rfl, rfl⟩
  · rw [parseJson, if_neg hempty] at h
    cases hv : rt.loads req.body with
    | error exc => simp [hv] at h
    | ok v =>
      cases v with
      | null | obj fields =>
        simp only [hv] at h
        cases h
        exact ⟨rfl, rfl⟩
      | arr items =>
        simp only [hv] at h
        cases h
        dsimp only
        rw [splitItems_objects, splitItems_errors, List.filterMap_map, List.filter_map,
          List.map_map]
        refine ⟨?_, filterMap_map_eq_filter fun entry _ => position_itemError entry⟩
        conv_lhs => rw [← List.zipIdx_map_fst 1 items, List.filterMap_map]
        rfl
      | bool _ | int _ | float _ | str _ => simp [hv] at h

/-- The schema refuses the object. -/
def refused (o : JsonObject) : Bool := (acceptedRow rt o).isNone

/-- The positions of the rejected records in the order of their errors: first the
records that are no object, then the refused objects. -/
def Request.rejectedPositions (req : Request) : List Nat :=
  ((req.records rt).filter fun r => r.2.isNone).map (·.1) ++
    ((keptAt (req.records rt)).filter fun r => refused rt r.2).map (·.1)

/-- No record is rejected twice. -/
theorem Request.nodup_rejectedPositions (req : Request) : (req.rejectedPositions rt).Nodup := by
  have hincr := (List.pairwise_cons.mp (req.records_increasing rt)).2
  have hnodup : ((req.records rt).map (·.1)).Nodup := hincr.imp fun h => Nat.ne_of_lt h
  have hkept := (List.pairwise_cons.mp (keptAt_increasing (req.records_increasing rt))).2
  rw [Request.rejectedPositions, List.nodup_append]
  refine ⟨hnodup.sublist (List.filter_sublist.map _), ?_, ?_⟩
  · exact (hkept.imp fun h => Nat.ne_of_lt h).sublist (List.filter_sublist.map _)
  · rintro n hn m hm rfl
    obtain ⟨⟨n, o⟩, hnone, rfl⟩ := List.mem_map.mp hn
    obtain ⟨⟨n', o'⟩, hsome, rfl⟩ := List.mem_map.mp hm
    obtain ⟨hmem, hisNone⟩ := List.mem_filter.mp hnone
    have hmem' := mem_keptAt.mp (List.mem_filter.mp hsome).1
    -- one position has one record
    have heq := List.inj_on_of_nodup_map hnodup hmem hmem' rfl
    rw [Prod.mk.injEq] at heq
    simp [heq.2] at hisNone

/-- A refused object is reported under its index among the objects. -/
theorem position_rejection {entry : JsonObject × Nat} (h : ¬ BadProps entry.1) :
    (rejection rt entry).map SoftError.position =
      if (acceptedRow rt entry.1).isNone then some entry.2 else none := by
  rcases modelValidate_of_not_badProps rt h with ⟨ev, hev⟩ | ⟨errors, herr⟩
  · obtain ⟨row, -, hacc⟩ := acceptedRow_of_ok rt hev
    rw [rejection_of_ok rt hev, hacc]
    rfl
  · rw [rejection_of_invalid rt herr, acceptedRow_of_invalid rt herr]
    rfl

variable (settings : Settings) (db : Database) (store : List OrmRow)

/-- Every error of a 200 answer names the position of the record it rejects exactly
when no object is refused behind a position without an object; no two errors name
the same position then. -/
theorem errors_position_iff (req : Request)
    (h : (postEvents settings rt db store req).1.status = 200) :
    ∃ b, prepareBatch settings rt req = .ok b ∧
      ((b.errors.map SoftError.position = req.rejectedPositions rt ∧
          (b.errors.map SoftError.position).Nodup) ↔
        ∀ n o, (n, some o) ∈ req.records rt → refused rt o →
          ∀ m, 0 < m → m < n → ∃ o', (m, some o') ∈ req.records rt) := by
  obtain ⟨-, b, hb, -⟩ := postEvents_of_status settings rt db store h
  obtain ⟨-, hparse, -, hgood, -, herrors⟩ := (prepareBatch_eq_ok_iff settings rt).mp hb
  obtain ⟨hobjects, hparseErrors⟩ := parseBody_records rt hparse
  refine ⟨b, hb, ?_⟩
  have hrejections : ((b.parsed.rawObjects.zipIdx 1).filterMap (rejection rt)).map
      SoftError.position =
      ((b.parsed.rawObjects.zipIdx 1).filter fun e => refused rt e.1).map (·.2) := by
    have hpositions := filterMap_map_eq_filter (f := fun e : JsonObject × Nat => acceptedRow rt e.1)
      (l := b.parsed.rawObjects.zipIdx 1)
      fun e he => position_rejection rt (hgood e.1 (List.fst_mem_of_mem_zipIdx he))
    exact hpositions
  have hall : b.errors.map SoftError.position = req.rejectedPositions rt ↔
      ((b.parsed.rawObjects.zipIdx 1).filter fun e => refused rt e.1).map (·.2) =
        ((keptAt (req.records rt)).filter fun r => refused rt r.2).map (·.1) := by
    rw [herrors, List.map_append, hparseErrors, hrejections, Request.rejectedPositions]
    exact List.append_right_inj _
  rw [hobjects, renumbered_eq_iff (req.records_increasing rt)] at hall
  rw [← hall]
  constructor
  · rintro ⟨heq, -⟩
    exact heq
  · intro heq
    exact ⟨heq, heq ▸ req.nodup_rejectedPositions rt⟩

theorem errors_position_iff_mixed :
    ∃ b, prepareBatch {} sampleRuntime mixedRequest = .ok b ∧
      ((b.errors.map SoftError.position = mixedRequest.rejectedPositions sampleRuntime ∧
          (b.errors.map SoftError.position).Nodup) ↔
        ∀ n o, (n, some o) ∈ mixedRequest.records sampleRuntime → refused sampleRuntime o →
          ∀ m, 0 < m → m < n → ∃ o', (m, some o') ∈ mixedRequest.records sampleRuntime) :=
  errors_position_iff sampleRuntime {} .accepting [] mixedRequest (by decide +kernel)

def emptyObjectRuntime : Runtime := .ofTexts [([123, 125], .obj []), ([91, 93], .arr [])]

/-- The line `[]`, which holds no object, and the line `{}`, an object that the
schema refuses. -/
def shiftedRequest : Request where
  authorization := none
  contentType := some "application/x-ndjson"
  body := [91, 93, 10, 123, 125, 10]

/-- The errors of both lines name the number 1. -/
theorem errors_position_shifted :
    (postEvents {} emptyObjectRuntime .accepting [] shiftedRequest).1.status = 200 ∧
      (prepareBatch {} emptyObjectRuntime shiftedRequest).toOption.map
        (fun b => b.errors.map SoftError.position) = some [1, 1] ∧
      shiftedRequest.rejectedPositions emptyObjectRuntime = [1, 2] := by
  decide +kernel

end TelemetryApi
