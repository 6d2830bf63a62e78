import TelemetryApi.Models

/-!
# Which accepted events the table can hold

`IngestEvent` and the columns of `Event` describe the same fields twice. They
agree on lengths, enums and nullability; what the schema lets through and the
table cannot hold is stated here, on the JSON object.
-/

namespace TelemetryApi

/-- The field holds no text with U+0000. -/
def JsonObject.NulFree (o : JsonObject) (key : String) : Prop :=
  ∀ s, o.get key = some (.str s) → nul ∉ s.toList

/-- The text fields of the wire that become text columns. -/
def textKeys : List String :=
  ["vendor", "device_name", "device_version", "device_id", "session_id", "user_id", "platform",
    "max_version", "name", "message", "unit"]

/-- The table can hold the values of the object: no text is or contains U+0000,
`ts_ms` is a signed 64-bit integer and `ts` has a reading in UTC. -/
structure Storable (rt : Runtime) (o : JsonObject) : Prop where
  texts : ∀ key ∈ textKeys, o.NulFree key
  props : ∀ fields, o.get "props" = some (.obj fields) →
    ∀ kv ∈ fields, nul ∉ kv.1.toList ∧ ∀ s, kv.2 = .str s → nul ∉ s.toList
  tsMs : ∀ v n, o.get "ts_ms" = some v → rt.parseInt v = .ok n → -2 ^ 63 ≤ n ∧ n < 2 ^ 63
  ts : ∀ v t, o.get "ts" = some v → rt.parseDatetime v = .ok t → (t.toUtc rt).isSome

section Fields

variable {o : JsonObject} {key : String}

theorem strField_eq_ok {lo hi : Nat} {v : Json} {s : BoundedStr lo hi}
    (h : strField lo hi key v = .ok s) : v = .str s := by
  simp only [strField] at h
  split at h
  · split_ifs at h
    cases h
    rfl
  · cases h

theorem required_eq_ok {α : Type} {field : String → Json → FieldResult α} {a : α}
    (h : required o key field = .ok a) : ∃ v, o.get key = some v ∧ field key v = .ok a := by
  rw [required] at h
  split at h
  · exact ⟨_, ‹_›, h⟩
  · cases h

theorem defaulted_eq_ok {α : Type} {field : String → Json → FieldResult α} {default a : α}
    (h : defaulted o key default field = .ok a) :
    (∃ v, o.get key = some v ∧ field key v = .ok a) ∨ o.get key = none ∧ a = default := by
  rw [defaulted] at h
  split at h
  · exact Or.inl ⟨_, ‹_›, h⟩
  · cases h
    exact Or.inr ⟨‹_›, rfl⟩

theorem parsedField_eq_ok {α : Type} {parse : Json → Except String α} {v : Json} {a : α} :
    parsedField parse key v = .ok a ↔ parse v = .ok a := by
  rw [parsedField]
  cases parse v <;> simp

theorem nulFree_iff {s : String} (h : o.get key = some (.str s)) :
    o.NulFree key ↔ nul ∉ s.toList := by
  simp [JsonObject.NulFree, h]

/-- A field of the schema keeps the bound of its column, so only U+0000 is left
to ask for. -/
theorem textFits_required {lo hi : Nat} {s : BoundedStr lo hi}
    (h : required o key (strField lo hi) = .ok s) : TextFits hi s ↔ o.NulFree key := by
  obtain ⟨v, hget, hfield⟩ := required_eq_ok h
  rw [strField_eq_ok hfield] at hget
  rw [nulFree_iff hget, TextFits]
  exact and_iff_right s.2.2

theorem textFits_defaulted {hi : Nat} {s : BoundedStr 0 hi}
    (h : defaulted o key .empty (strField 0 hi) = .ok s) : TextFits hi s ↔ o.NulFree key := by
  rcases defaulted_eq_ok h with ⟨v, hget, hfield⟩ | ⟨hget, rfl⟩
  · rw [strField_eq_ok hfield] at hget
    rw [nulFree_iff hget, TextFits]
    exact and_iff_right s.2.2
  · have hempty : nul ∉ ("" : String).toList := by decide
    simp [TextFits, JsonObject.NulFree, BoundedStr.empty, hget]

theorem optional_text {hi : Nat} {s : Option (BoundedStr 0 hi)}
    (h : defaulted o key none (optionalField (strField 0 hi)) = .ok s) :
    (∀ t ∈ s.map (·.val), TextFits hi t) ↔ o.NulFree key := by
  rcases defaulted_eq_ok h with ⟨v, hget, hfield⟩ | ⟨hget, rfl⟩
  · simp only [optionalField] at hfield
    split at hfield
    · cases hfield
      simp [JsonObject.NulFree, hget]
    · obtain ⟨t, ht, rfl⟩ := Validated.map_eq_ok.mp hfield
      rw [strField_eq_ok ht] at hget
      rw [nulFree_iff hget]
      simpa [TextFits] using fun _ => t.2.2
  · simp [JsonObject.NulFree, hget]

end Fields

variable (rt : Runtime)

/-- `str()` adds no U+0000 to `props`, and keeps the one of a string. -/
theorem props_nulFree {o : JsonObject} {props : List (String × String)}
    (h : validateProps rt o = .ok props) :
    (∀ kv ∈ props, nul ∉ kv.1.toList ∧ nul ∉ kv.2.toList) ↔
      ∀ fields, o.get "props" = some (.obj fields) →
        ∀ kv ∈ fields, nul ∉ kv.1.toList ∧ ∀ s, kv.2 = .str s → nul ∉ s.toList := by
  rcases defaulted_eq_ok h with ⟨v, hget, hfield⟩ | ⟨hget, rfl⟩
  · cases v with
    | null =>
      cases hfield
      simp [hget]
    | obj fields =>
      cases hfield
      have hstr : ∀ v : Json, nul ∉ (pyStr rt.toCPython v).toList ↔
          ∀ s, v = .str s → nul ∉ s.toList := by
        intro v
        rw [nul_mem_pyStr_iff]
        simp
      simp only [List.forall_mem_map, hget, Option.some.injEq, Json.obj.injEq, forall_eq', hstr]
    | bool _ | int _ | float _ | str _ | arr _ => cases hfield
  · simp [hget]

/-- The row of an accepted event lies in the domain of the table exactly when
the object is storable. -/
theorem inDomain_rowWith_iff {o : JsonObject} {ev : IngestEvent} (h : ev.ReadFrom rt o)
    (kind : EventKind) (level : EventLevel) :
    (rowWith ev kind level).InDomain rt ↔ Storable rt o := by
  have hmessage : (∀ m ∈ ev.message.map (·.val), nul ∉ m.toList) ↔ o.NulFree "message" := by
    rw [← optional_text h.message]
    apply forall₂_congr
    intro m hm
    obtain ⟨t, -, rfl⟩ := Option.mem_map.mp hm
    exact (and_iff_right t.2.2).symm
  obtain ⟨vts, hts, hparsets⟩ := required_eq_ok h.ts
  obtain ⟨vms, hms, hparsems⟩ := required_eq_ok h.tsMs
  rw [parsedField_eq_ok] at hparsets hparsems
  rw [OrmRow.inDomain_iff]
  simp only [rowWith]
  rw [textFits_required h.vendor, textFits_defaulted h.deviceName,
    textFits_defaulted h.deviceVersion, textFits_required h.deviceId,
    textFits_required h.sessionId, textFits_defaulted h.userId, textFits_defaulted h.platform,
    textFits_defaulted h.maxVersion, textFits_required h.name, hmessage, optional_text h.unit,
    props_nulFree rt h.props]
  constructor
  · rintro ⟨⟨hvendor, hdevice, hversion, hid, hsession, huser, hplatform, hmax, hname⟩, hmsg,
      hutc, hint, hunit, hprops⟩
    refine ⟨?_, hprops, ?_, ?_⟩
    · simp only [textKeys, List.forall_mem_cons, List.not_mem_nil, false_implies, implies_true,
        and_true]
      exact ⟨hvendor, hdevice, hversion, hid, hsession, huser, hplatform, hmax, hname, hmsg,
        hunit⟩
    · intro v n hv hn
      obtain rfl : vms = v := by simpa [hms] using hv
      obtain rfl : ev.tsMs = n := by simpa [hparsems] using hn
      exact hint
    · intro v t hv ht
      obtain rfl : vts = v := by simpa [hts] using hv
      obtain rfl : ev.ts = t := by simpa [hparsets] using ht
      exact hutc
  · -- `Storable` speaks of the parsed values, which are those of the event
    rintro ⟨htexts, hprops, hint, hutc⟩
    simp only [textKeys, List.forall_mem_cons, List.not_mem_nil, false_implies, implies_true,
      and_true] at htexts
    obtain ⟨hvendor, hdevice, hversion, hid, hsession, huser, hplatform, hmax, hname, hmsg,
      hunit⟩ := htexts
    exact ⟨⟨hvendor, hdevice, hversion, hid, hsession, huser, hplatform, hmax, hname⟩, hmsg,
      hutc vts ev.ts hts hparsets, hint vms ev.tsMs hms hparsems, hunit, hprops⟩

theorem acceptedRow_inDomain_iff {o : JsonObject} {row : OrmRow}
    (h : acceptedRow rt o = some row) : row.InDomain rt ↔ Storable rt o := by
  obtain ⟨ev, hev, hrow⟩ := (acceptedRow_eq_some rt).mp h
  obtain ⟨kind, level, hok, -, -⟩ := toOrmRow_eq_ok ev
  obtain rfl : rowWith ev kind level = row := by simpa [hok] using hrow
  exact inDomain_rowWith_iff rt (readFrom_of_modelValidate rt hev) kind level

end TelemetryApi
