import TelemetryApi.Config

/-!
# Lists in one setting

`ingest_tokens` and `cors_origins` hold lists, their elements separated by commas. The
deployment writes such a list with `join(',')`; `ingest_token_set` and `cors_origin_list`
of `app/config.py` read it.
-/

namespace TelemetryApi

namespace PyStr

theorem mem_of_mem_strip {s : String} {c : Char} (h : c ∈ (strip s).toList) : c ∈ s.toList := by
  rw [strip, String.toList_ofList] at h
  exact (List.dropWhile_suffix isSpace).subset ((List.rdropWhile_prefix isSpace _).subset h)

theorem strip_strip (s : String) : strip (strip s) = strip s := by
  rw [strip, strip, String.toList_ofList]
  apply congrArg String.ofList
  -- what is left of the front begins with no blank, and its own front is the same
  have hfront : ((s.toList.dropWhile isSpace).rdropWhile isSpace).dropWhile isSpace =
      (s.toList.dropWhile isSpace).rdropWhile isSpace := by
    apply List.dropWhile_eq_self_iff.mpr
    intro hlen
    have hne : (s.toList.dropWhile isSpace).rdropWhile isSpace ≠ [] :=
      List.ne_nil_of_length_pos hlen
    have hprefix := List.rdropWhile_prefix isSpace (s.toList.dropWhile isSpace)
    have hdrop : s.toList.dropWhile isSpace ≠ [] :=
      fun h => hne (List.prefix_nil.mp (h ▸ hprefix))
    rw [← List.head_eq_getElem hne, List.IsPrefix.head hprefix hne]
    simpa using List.head_dropWhile_not isSpace hdrop
  rw [hfront, List.rdropWhile_idempotent]

theorem notMem_of_mem_split {sep : Char} {s piece : String} (h : piece ∈ split sep s) :
    sep ∉ piece.toList := by
  obtain ⟨cs, hcs, rfl⟩ := List.mem_map.mp h
  rw [String.toList_ofList]
  clear h
  revert cs
  induction s.toList with
  | nil => simp
  | cons c rest ih =>
    intro cs hcs
    rw [List.splitOn_cons_eq_if_modifyHead] at hcs
    split_ifs at hcs with hc
    · obtain rfl | hrest := List.mem_cons.mp hcs
      · exact List.not_mem_nil
      · exact ih cs hrest
    · have hne : ¬ c = sep := fun heq => hc (beq_iff_eq.mpr heq)
      cases hsplit : rest.splitOn sep with
      | nil => exact absurd hsplit (List.splitOn_ne_nil sep rest)
      | cons first others =>
        rw [hsplit, List.modifyHead_cons] at hcs
        rw [hsplit] at ih
        obtain rfl | hothers := List.mem_cons.mp hcs
        · rw [List.mem_cons, not_or]
          exact ⟨Ne.symm hne, ih first List.mem_cons_self⟩
        · exact ih cs (List.mem_cons_of_mem _ hothers)

/-- Parts without the separator are split back. -/
theorem split_join {sep : Char} {parts : List String} (hne : parts ≠ [])
    (h : ∀ part ∈ parts, sep ∉ part.toList) :
    split sep (join (String.singleton sep) parts) = parts := by
  induction parts with
  | nil => exact absurd rfl hne
  | cons part rest ih =>
    have hpart := h part List.mem_cons_self
    cases rest with
    | nil =>
      rw [join, split, List.splitOn_eq_singleton hpart, List.map_singleton, String.ofList_toList]
    | cons next rest =>
      have hrest := ih (List.cons_ne_nil _ _) fun part' hpart' =>
        h part' (List.mem_cons_of_mem _ hpart')
      have htext : (join (String.singleton sep) (part :: next :: rest)).toList =
          part.toList ++ sep :: (join (String.singleton sep) (next :: rest)).toList := by
        simp [join]
      rw [split, htext, List.splitOn_append_cons_self_of_not_mem hpart, List.map_cons,
        String.ofList_toList]
      exact congrArg (part :: ·) hrest

end PyStr

/-- The elements of a comma-separated value, trimmed, without the empty ones. -/
def commaList (raw : String) : List String :=
  ((PyStr.split ',' raw).filter fun t => PyStr.strip t ≠ "").map PyStr.strip

/-- `cors_origin_list` -/
def corsOriginList (corsOrigins : String) : List String := commaList corsOrigins

theorem Settings.ingestTokenSet_eq (s : Settings) :
    s.ingestTokenSet = (commaList s.ingestTokens).toFinset := rfl

/-- An element that a comma-separated value can hold. -/
def Listable (t : String) : Prop := t ≠ "" ∧ PyStr.strip t = t ∧ ',' ∉ t.toList

theorem listable_of_mem_commaList {raw t : String} (h : t ∈ commaList raw) : Listable t := by
  obtain ⟨piece, hpiece, rfl⟩ := List.mem_map.mp h
  obtain ⟨hsplit, hne⟩ := List.mem_filter.mp hpiece
  refine ⟨of_decide_eq_true hne, PyStr.strip_strip piece, ?_⟩
  intro hcomma
  exact PyStr.notMem_of_mem_split hsplit (PyStr.mem_of_mem_strip hcomma)

/-- The elements that are written are read back exactly if each of them can be held. -/
theorem commaList_join {parts : List String} :
    commaList (PyStr.join "," parts) = parts ↔ ∀ part ∈ parts, Listable part := by
  constructor
  · intro h part hpart
    rw [← h] at hpart
    exact listable_of_mem_commaList hpart
  · intro h
    obtain rfl | hne := eq_or_ne parts []
    · decide
    · have hsplit : PyStr.split ',' (PyStr.join "," parts) = parts :=
        PyStr.split_join hne fun part hpart => (h part hpart).2.2
      have hkept : (parts.filter fun t => PyStr.strip t ≠ "") = parts := by
        rw [List.filter_eq_self]
        intro part hpart
        obtain ⟨hempty, hstrip, -⟩ := h part hpart
        rw [hstrip]
        exact decide_eq_true hempty
      rw [commaList, hsplit, hkept]
      nth_rewrite 2 [← List.map_id parts]
      apply List.map_congr_left
      intro part hpart
      exact (h part hpart).2.1

/-- The token set of a value that is written from tokens. -/
theorem Settings.ingestTokenSet_join (s : Settings) {tokens : List String}
    (h : ∀ token ∈ tokens, Listable token) :
    ({ s with ingestTokens := PyStr.join "," tokens } : Settings).ingestTokenSet =
      tokens.toFinset :=
  congrArg List.toFinset (commaList_join.mpr h)

/-- A list of origins that the deployment joins is the list that the application allows
exactly if none is empty, begins or ends with a blank or has a comma. Whatever the value
is, the list of origins that it is read as, and any list of the tokens that it is read as,
make a value that is read alike when they are joined. -/
theorem settings_lists_roundTrip :
    (∀ origins, corsOriginList (PyStr.join "," origins) = origins ↔
      ∀ origin ∈ origins, Listable origin) ∧
    ∀ raw, corsOriginList (PyStr.join "," (corsOriginList raw)) = corsOriginList raw ∧
      ∀ (s : Settings) (tokens : List String),
        tokens.toFinset = ({ s with ingestTokens := raw } : Settings).ingestTokenSet →
          ({ s with ingestTokens := PyStr.join "," tokens } : Settings).ingestTokenSet =
            ({ s with ingestTokens := raw } : Settings).ingestTokenSet := by
  refine ⟨fun origins => commaList_join, ?_⟩
  intro raw
  refine ⟨commaList_join.mpr fun _ => listable_of_mem_commaList, ?_⟩
  intro s tokens htokens
  have hlistable : ∀ token ∈ tokens, Listable token := by
    intro token htoken
    rw [← List.mem_toFinset, htokens, Settings.ingestTokenSet_eq, List.mem_toFinset] at htoken
    exact listable_of_mem_commaList htoken
  rw [s.ingestTokenSet_join hlistable, htokens]

/-- Two tokens in another order than they were read in. -/
theorem settings_lists_roundTrip_reordered :
    ({ ingestTokens := "b,a" } : Settings).ingestTokenSet =
      ({ ingestTokens := " a, b,,a" } : Settings).ingestTokenSet :=
  (settings_lists_roundTrip.2 " a, b,,a").2 {} ["b", "a"] (by decide +kernel)

end TelemetryApi
