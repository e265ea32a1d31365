import RepoManifest.Proofs.Distinct
import RepoManifest.Proofs.Resource.Finding
import RepoManifest.Proofs.Value.Lookup
import RepoManifest.Validation.Validator

/-!
# The error texts by field

The table of error texts has one entry per path, where the path occurs first, and every text that
was found at that path is part of the entry, in order. One more violation extends the entry of its
path, or starts one behind the others.
-/

namespace RepoManifest

/-- The texts of the errors at a written path, in order. -/
def textsAt (recorded : List Finding) (field : String) : List String :=
  (recorded.filter (·.path.join = field)).map (·.error.message)

/-- The entry of a written path: its error texts, joined. -/
def textEntry (recorded : List Finding) (field : String) : Value × Value :=
  (.str field, .str ("; ".intercalate (textsAt recorded field)))

/-- One entry for every written path, where it occurs first. -/
def textTable (recorded : List Finding) : List (Value × Value) :=
  (recorded.map (·.path.join)).eraseDups.map (textEntry recorded)

/-! ## One more finding -/

/-- Another finding adds its text at its own path. -/
theorem textsAt_concat_self (recorded : List Finding) (f : Finding) :
    textsAt (recorded ++ [f]) f.path.join = textsAt recorded f.path.join ++ [f.error.message] := by
  simp [textsAt]

/-- Another finding adds nothing at other paths. -/
theorem textsAt_concat_of_ne (recorded : List Finding) {f : Finding} {field : String}
    (h : f.path.join ≠ field) : textsAt (recorded ++ [f]) field = textsAt recorded field := by
  simp [textsAt, h]

/-- There is a text at a path exactly if something was found there. -/
theorem textsAt_eq_nil_iff {recorded : List Finding} {field : String} :
    textsAt recorded field = [] ↔ field ∉ recorded.map (·.path.join) := by
  simp [textsAt]

/-- Another finding changes no entry of another path. -/
theorem textEntry_concat_of_ne (recorded : List Finding) {f : Finding} {field : String}
    (h : f.path.join ≠ field) : textEntry (recorded ++ [f]) field = textEntry recorded field := by
  rw [textEntry, textEntry, textsAt_concat_of_ne recorded h]

/-- The first finding at a path makes an entry of its text. -/
theorem textEntry_concat_of_not_mem {recorded : List Finding} {f : Finding}
    (h : f.path.join ∉ recorded.map (·.path.join)) :
    textEntry (recorded ++ [f]) f.path.join = (.str f.path.join, .str f.error.message) := by
  rw [textEntry, textsAt_concat_self, textsAt_eq_nil_iff.mpr h, List.nil_append,
    String.intercalate_singleton]

/-- A later finding at a path extends the entry there. -/
theorem textEntry_concat_of_mem {recorded : List Finding} {f : Finding}
    (h : f.path.join ∈ recorded.map (·.path.join)) :
    textEntry (recorded ++ [f]) f.path.join =
      (.str f.path.join,
        .str ("; ".intercalate (textsAt recorded f.path.join) ++ "; " ++ f.error.message)) := by
  have hne : textsAt recorded f.path.join ≠ [] := fun hnil ↦ textsAt_eq_nil_iff.mp hnil h
  rw [textEntry, textsAt_concat_self,
    String.intercalate_append_of_ne_nil hne (List.cons_ne_nil _ _), String.intercalate_singleton]

/-! ## The table -/

/-- A path finds its entry, if it has one. -/
theorem get?_map_textEntry (recorded : List Finding) (fields : List String) (field : String) :
    Value.get? (fields.map (textEntry recorded)) field =
      if field ∈ fields then some (textEntry recorded field).2 else none := by
  induction fields with
  | nil => rfl
  | cons first rest ih =>
    rw [List.map_cons, textEntry, Value.get?_cons, ih]
    by_cases h : first = field
    · subst h
      simp [Value.text?, textEntry]
    · simp [Value.text?, h, Ne.symm h]

/-- What a path finds in the table. -/
theorem get?_textTable (recorded : List Finding) (field : String) :
    Value.get? (textTable recorded) field =
      if field ∈ recorded.map (·.path.join) then some (textEntry recorded field).2 else none := by
  rw [textTable, get?_map_textEntry]
  simp only [List.mem_eraseDups]

/-- The table after a finding at a new path. -/
theorem textTable_concat_of_not_mem {recorded : List Finding} {f : Finding}
    (h : f.path.join ∉ recorded.map (·.path.join)) :
    textTable (recorded ++ [f]) =
      textTable recorded ++ [(.str f.path.join, .str f.error.message)] := by
  have hothers : ∀ field ∈ (recorded.map (·.path.join)).eraseDups,
      textEntry (recorded ++ [f]) field = textEntry recorded field := by
    intro field hfield
    refine textEntry_concat_of_ne recorded fun heq ↦ h ?_
    rw [heq]
    exact List.mem_eraseDups.mp hfield
  rw [textTable, List.map_append, List.map_singleton, eraseDups_concat, if_neg h, List.map_append,
    List.map_congr_left hothers, List.map_singleton, textEntry_concat_of_not_mem h, textTable]

/-- The table after a finding at a path that has an entry. -/
theorem textTable_concat_of_mem {recorded : List Finding} {f : Finding}
    (h : f.path.join ∈ recorded.map (·.path.join)) :
    textTable (recorded ++ [f]) =
      Value.replaced (textTable recorded) f.path.join
        (textEntry (recorded ++ [f]) f.path.join).2 := by
  rw [textTable, List.map_append, List.map_singleton, eraseDups_concat, if_pos h, List.append_nil,
    textTable, Value.replaced, List.map_map]
  refine List.map_congr_left fun field _ ↦ ?_
  by_cases heq : f.path.join = field
  · subst heq
    simp [textEntry]
  · rw [textEntry_concat_of_ne recorded heq]
    simp [textEntry, Ne.symm heq]

/-- Findings at different paths have one entry each, with their own text. -/
theorem textTable_of_nodup {recorded : List Finding} (h : (recorded.map (·.path.join)).Nodup) :
    textTable recorded = recorded.map fun f ↦ (.str f.path.join, .str f.error.message) := by
  induction recorded using List.reverseRecOn with
  | nil => rfl
  | append_singleton recorded f ih =>
    rw [List.map_append, List.map_singleton, ← List.concat_eq_append, List.nodup_concat] at h
    rw [textTable_concat_of_not_mem h.1, ih h.2, List.map_append, List.map_singleton]

/-- One more violation is added to the table of the ones before it. -/
theorem InvalidObject.joinText_textTable (recorded : List Finding) (f : Finding) :
    joinText (textTable recorded) f.violation = .ok (textTable (recorded ++ [f])) := by
  have hfound : Value.lookup? (textTable recorded) (.str f.path.join) = _ :=
    get?_textTable recorded f.path.join
  have hinsert (text : String) := Value.insert_str (textTable recorded) f.path.join (.str text)
  rw [get?_textTable] at hinsert
  have hhashable : (Value.str f.path.join).hashable = true := by simp [Value.hashable]
  rw [joinText, Finding.violation, if_pos hhashable, hfound]
  by_cases h : f.path.join ∈ recorded.map (·.path.join)
  · simp only [if_pos h, Option.isSome_some, if_true] at hinsert ⊢
    rw [hinsert, textTable_concat_of_mem h, textEntry_concat_of_mem h]
    simp only [textEntry, Value.display_str]
  · simp only [if_neg h, Option.isSome_none, Bool.false_eq_true, if_false] at hinsert ⊢
    rw [hinsert, textTable_concat_of_not_mem h]

/-- The error texts of an invalid object are the table of its findings. -/
theorem InvalidObject.byField_eq (name : String) (recorded : List Finding) :
    InvalidObject.byField ⟨name, recorded.map Finding.violation⟩ = .ok (textTable recorded) := by
  induction recorded using List.reverseRecOn with
  | nil => rfl
  | append_singleton recorded f ih =>
    rw [byField] at ih ⊢
    rw [List.map_append, List.foldlM_append, ih, List.map_singleton]
    exact (bind_pure _).trans (joinText_textTable recorded f)

/-- The error texts of a validator are the table of its findings, also if there are none. -/
theorem Validator.byField_eq (name : String) (recorded : List Finding) :
    Validator.byField ⟨name, recorded.map Finding.violation⟩ = .ok (textTable recorded) := by
  cases recorded with
  | nil => rfl
  | cons f rest => exact InvalidObject.byField_eq name (f :: rest)

end RepoManifest
