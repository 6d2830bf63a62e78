import TelemetryApi.Routes.Outcome

/-!
# The records of a body and how they are counted

A record is a non-blank line on the ndjson path, and the object itself or an
item of the array on the JSON path. Every record is inserted or reported.
-/

namespace TelemetryApi

variable (rt : Runtime)

/-- The object that an item of an array is, if it is one. -/
def Json.asObject : Json → Option JsonObject
  | .obj fields => some fields
  | _ => none

def itemError (entry : Json × Nat) : Option SoftError :=
  match entry.1 with
  | .obj _ => none
  | _ => some (.itemNotObject entry.2)

theorem itemStep_eq (acc : List JsonObject × List SoftError) (entry : Json × Nat) :
    itemStep acc entry =
      (acc.1 ++ (entry.1.asObject).toList, acc.2 ++ (itemError entry).toList) := by
  rw [itemStep, itemError]
  cases entry.1 <;> simp [Json.asObject]

theorem complementary_items (entries : List (Json × Nat)) :
    Complementary (fun entry => entry.1.asObject) itemError entries := by
  intro entry _
  show entry.1.asObject.isSome = !(itemError entry).isSome
  rw [itemError]
  cases entry.1 <;> rfl

theorem splitItems_objects (items : List Json) :
    (splitItems items).1 = items.filterMap Json.asObject := by
  rw [splitItems, foldl_append_readings _ itemStep_eq]
  conv_rhs => rw [← List.zipIdx_map_fst 1 items, List.filterMap_map]
  rfl

theorem splitItems_length (items : List Json) :
    (splitItems items).1.length + (splitItems items).2.length = items.length := by
  rw [splitItems, foldl_append_readings _ itemStep_eq, List.nil_append, List.nil_append,
    (complementary_items _).length_add, List.length_zipIdx]

/-- The records of a body: the non-blank lines, or one for an object, one for
each item of an array and none for an empty or `null` body. -/
def Request.recordCount (req : Request) : Nat :=
  if req.isNdjson then (Bytes.contentLines req.body).length
  else if req.body = [] then 0
  else match rt.loads req.body with
    | .ok (.obj _) => 1
    | .ok (.arr items) => items.length
    | _ => 0

theorem parseJson_length {raw : Bytes} {parsed : Parsed} (h : parseJson rt raw = .ok parsed) :
    parsed.rawObjects.length + parsed.parseErrors.length =
      if raw = [] then 0
      else match rt.loads raw with
        | .ok (.obj _) => 1
        | .ok (.arr items) => items.length
        | _ => 0 := by
  rw [parseJson] at h
  by_cases hraw : raw = []
  · -- an empty body is read as `null`
    simp only [hraw, if_true, rt.loads_null] at h ⊢
    cases h
    rfl
  · simp only [hraw, if_false] at h ⊢
    cases hv : rt.loads raw with
    | error exc => simp [hv] at h
    | ok v =>
      cases v with
      | null =>
        simp only [hv] at h
        cases h
        rfl
      | obj fields =>
        simp only [hv] at h
        cases h
        rfl
      | arr items =>
        simp only [hv] at h
        cases h
        exact splitItems_length items
      | bool _ | int _ | float _ | str _ => simp [hv] at h

/-- Every record is an object or a parse error. -/
theorem parseBody_length {req : Request} {parsed : Parsed} (h : parseBody rt req = .ok parsed) :
    parsed.rawObjects.length + parsed.parseErrors.length = req.recordCount rt := by
  rw [parseBody] at h
  rw [Request.recordCount]
  split_ifs at h ⊢ with hnd hempty
  · cases h
    exact parseNdjson_length rt req.body
  · rw [parseJson_length rt h, if_pos hempty]
  · rw [parseJson_length rt h, if_neg hempty]

/-- Every object is a row or a rejection. -/
theorem rows_add_rejections {objects : List JsonObject} (h : ∀ o ∈ objects, ¬ BadProps o) :
    (objects.filterMap (acceptedRow rt)).length +
      ((objects.zipIdx 1).filterMap (rejection rt)).length = objects.length := by
  have hcompl : Complementary (fun e : JsonObject × Nat => acceptedRow rt e.1) (rejection rt)
      (objects.zipIdx 1) :=
    fun e he => isSome_acceptedRow rt (h e.1 (List.fst_mem_of_mem_zipIdx he))
  have hlen := hcompl.length_add
  rw [List.length_zipIdx] at hlen
  rw [← filterMap_zipIdx_acceptedRow rt objects]
  exact hlen

variable (settings : Settings) (db : Database) (store : List OrmRow)

/-- A 200 answer accounts for every record of the body: the inserted rows are
the accepted ones, and the full error list has one entry for each of the others,
of which the answer carries the first 25. -/
theorem postEvents_conserves (req : Request)
    (h : (postEvents settings rt db store req).1.status = 200) :
    ∃ b r, prepareBatch settings rt req = .ok b ∧
      (postEvents settings rt db store req).1.body = .response r ∧
      r.accepted = (postEvents settings rt db store req).2.length ∧
      r.accepted + r.rejected = req.recordCount rt ∧
      r.rejected = b.errors.length ∧
      r.errors = (b.errors.take 25).map SoftError.text ∧
      (r.errors = [] ↔ r.rejected = 0) := by
  obtain ⟨-, b, hb, heq⟩ := postEvents_of_status settings rt db store h
  obtain ⟨-, hparse, -, hgood, hrows, herrors⟩ := (prepareBatch_eq_ok_iff settings rt).mp hb
  have hrecords := parseBody_length rt hparse
  have hobjects := rows_add_rejections rt hgood
  have hlen : b.errors.length = b.parsed.parseErrors.length +
      ((b.parsed.rawObjects.zipIdx 1).filterMap (rejection rt)).length := by
    rw [herrors, List.length_append]
  have hrejected : b.response.rejected = b.errors.length := by
    rw [← hrows] at hobjects
    simp only [Batch.response]
    omega
  rw [heq]
  refine ⟨b, b.response, hb, rfl, rfl, ?_, hrejected, rfl, ?_⟩
  · simp only [Batch.response]
    omega
  · rw [hrejected, Int.natCast_eq_zero, List.length_eq_zero_iff]
    simp [Batch.response]

/-- A body with one event and the line `[]`, which holds no object. -/
def mixedRequest : Request where
  authorization := none
  contentType := some "application/x-ndjson"
  body := sampleText ++ [10, 91, 93, 10]

theorem postEvents_conserves_mixed :
    ∃ b r, prepareBatch {} sampleRuntime mixedRequest = .ok b ∧
      (postEvents {} sampleRuntime .accepting [] mixedRequest).1.body = .response r ∧
      r.accepted = (postEvents {} sampleRuntime .accepting [] mixedRequest).2.length ∧
      r.accepted + r.rejected = mixedRequest.recordCount sampleRuntime ∧
      r.rejected = b.errors.length ∧
      r.errors = (b.errors.take 25).map SoftError.text ∧
      (r.errors = [] ↔ r.rejected = 0) :=
  postEvents_conserves sampleRuntime {} .accepting [] mixedRequest (by decide +kernel)

end TelemetryApi
