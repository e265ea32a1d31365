import Mathlib.Data.List.Forall2
import RepoManifest.Proofs.Resource.Validity
import RepoManifest.Resource.Object

/-!
# Filling the objects of resources

Filling the object of an entry never stops, and the findings afterwards are those of the filled
entry: the keys and teams inside are objects that differ from their filled ones in nothing but the
names given explicitly, which no check looks at. An entry that filling leaves alone has an object
that filling leaves alone.
-/

namespace RepoManifest

namespace Value

/-! ## Lists of objects -/

section

variable {α : Type} (object : α → List String → Value) (fill : α → α)

/-- Filling a list of objects fills each of them, if none of them stops it. -/
theorem filledItems_map (h : ∀ x, ∃ given, (object x []).filled = (object (fill x) given, none))
    (found : List α) :
    ∃ items, filledItems (found.map (object · [])) = (items, none) ∧
      List.Forall₂ (fun x v ↦ ∃ given, v = object (fill x) given) found items := by
  induction found with
  | nil => exact ⟨[], rfl, .nil⟩
  | cons x rest ih =>
    obtain ⟨items, hitems, hrest⟩ := ih
    obtain ⟨given, hx⟩ := h x
    refine ⟨object (fill x) given :: items, ?_, .cons ⟨given, rfl⟩ hrest⟩
    simp only [List.map_cons, filledItems, hx, hitems]

/-- Objects that differ in nothing but the names given explicitly have the same findings. -/
theorem itemFindings_of_forall₂
    (hsame : ∀ x given p, findings p (object x given) = findings p (object x []))
    {found : List α} {items : List Value}
    (h : List.Forall₂ (fun x v ↦ ∃ given, v = object (fill x) given) found items)
    (p : FieldPath) (i : Nat) :
    itemFindings p i items = itemFindings p i ((found.map fill).map (object · [])) := by
  induction h generalizing i with
  | nil => rfl
  | cons hx _ ih =>
    obtain ⟨given, rfl⟩ := hx
    simp only [List.map_cons, itemFindings, hsame _ given, ih (i + 1)]

end

/-- Filling leaves a list alone if it leaves each item alone. -/
theorem filledItems_of_forall {items : List Value} (h : ∀ v ∈ items, v.filled = (v, none)) :
    filledItems items = (items, none) := by
  induction items with
  | nil => rfl
  | cons v rest ih =>
    simp only [filledItems, h v (List.mem_cons_self ..),
      ih fun w hw ↦ h w (List.mem_cons_of_mem _ hw)]

end Value

/-! ## Entries -/

/-- The object of a team grant that filling leaves alone is left alone. -/
theorem TeamAccess.filled_toObject {t : TeamAccess} (h : t.default = t) :
    t.toObject.filled = (t.toObject, none) := by
  rcases t with ⟨name, _ | permission⟩
  · simp [default, fill] at h
  · rfl

/-- The object of a deploy key that filling leaves alone is left alone. -/
theorem DeployKey.filled_toObject {k : DeployKey} (h : k.default = k) :
    k.toObject.filled = (k.toObject, none) := by
  rcases k with ⟨name, key, _ | readOnly, credentialType⟩
  · simp [default, fill] at h
  · rfl

namespace RepositoryEntry

/-- An entry's type is that of entries. -/
theorem ofType?_objectType : ResourceKind.ofType? objectType = some .entry := by decide

/-- The values of an entry's object, with the lists inside it given. -/
def valuesWith (e : RepositoryEntry) (keys teams : List Value) : List Value :=
  e.toRepository.values ++ [e.options.toObject, .list keys, .list teams]

/-- The values of an entry's object. -/
theorem toObject_eq (e : RepositoryEntry) (assigned : List String) :
    e.toObject assigned = .object objectType assigned
      (e.valuesWith (e.deployKeys.map (·.toObject)) (e.teams.map (·.toObject))) := rfl

/-- Filling sets what is unset in an entry's own settings. -/
theorem fillFields_valuesWith (e : RepositoryEntry) (keys teams : List Value) :
    Value.fillFields ResourceKind.entry.defaults objectType.fields (e.valuesWith keys teams) =
      e.default.valuesWith keys teams := by
  rcases e with ⟨⟨name, description, branch, visibility⟩, options, _, _⟩
  cases description <;> cases branch <;> cases visibility <;> rfl

/-- Filling enters the keys and teams of an entry. -/
theorem filledFields_valuesWith {e : RepositoryEntry} {keys teams keys' teams' : List Value}
    (hkeys : Value.filledItems keys = (keys', none))
    (hteams : Value.filledItems teams = (teams', none)) :
    Value.filledFields ResourceKind.entry.entered objectType.fields (e.valuesWith keys teams) =
      (e.valuesWith keys' teams', none) := by
  simp [ResourceKind.entered, objectType, Repository.fieldDecls, valuesWith, Repository.values,
    Value.filledFields, Value.filledIn, hkeys, hteams]

/-- Filling the object of an entry fills its settings, and its keys and teams one by one. -/
theorem filled_toObject {e : RepositoryEntry} (assigned : List String) {keys teams : List Value}
    (hkeys : Value.filledItems (e.deployKeys.map (·.toObject)) = (keys, none))
    (hteams : Value.filledItems (e.teams.map (·.toObject)) = (teams, none)) :
    ∃ given, (e.toObject assigned).filled =
      (.object objectType given (e.default.valuesWith keys teams), none) := by
  rw [toObject_eq, Value.filled, ofType?_objectType]
  simp only [ResourceKind.fillable, if_true, filledFields_valuesWith hkeys hteams,
    fillFields_valuesWith]
  exact ⟨_, rfl⟩

/-- The findings of an entry's object do not depend on what its lists were given explicitly. -/
theorem findings_valuesWith {e : RepositoryEntry} {given : List String} {keys teams : List Value}
    {p : FieldPath}
    (hkeys : ∀ p i, Value.itemFindings p i keys =
      Value.itemFindings p i (e.deployKeys.map (·.toObject)))
    (hteams : ∀ p i, Value.itemFindings p i teams =
      Value.itemFindings p i (e.teams.map (·.toObject))) :
    Value.findings p (.object objectType given (e.valuesWith keys teams)) =
      e.toObject.findings p := by
  rcases e with ⟨⟨name, description, branch, visibility⟩, options, deployKeys, teamGrants⟩
  simp only [toObject_eq, Value.findings, objectType, Repository.fieldDecls, valuesWith,
    Repository.values, List.cons_append, List.nil_append, Value.fieldFindings_str,
    Value.fieldFindings_ofText?, Value.fieldFindings_options, Value.fieldFindings_list, hkeys,
    hteams]
  rfl

/-- Filling the object of an entry never stops, and what it leaves has the findings of the filled
entry. -/
theorem findings_filled (e : RepositoryEntry) (assigned : List String) :
    ((e.toObject assigned).filled).2 = none ∧
      ∀ p, ((e.toObject assigned).filled).1.findings p = e.default.toObject.findings p := by
  obtain ⟨keys, hkeys, hkeys'⟩ := Value.filledItems_map (fun k given ↦ k.toObject given)
    DeployKey.default Value.filled_deployKey e.deployKeys
  obtain ⟨teams, hteams, hteams'⟩ := Value.filledItems_map (fun t given ↦ t.toObject given)
    TeamAccess.default Value.filled_teamAccess e.teams
  obtain ⟨given, hfilled⟩ := filled_toObject assigned hkeys hteams
  rw [hfilled]
  refine ⟨rfl, fun p ↦ findings_valuesWith (fun p i ↦ ?_) fun p i ↦ ?_⟩
  · exact Value.itemFindings_of_forall₂ _ _ (fun _ _ _ ↦ rfl) hkeys' p i
  · exact Value.itemFindings_of_forall₂ _ _ (fun _ _ _ ↦ rfl) hteams' p i

/-- The object of an entry that filling leaves alone is left alone. -/
theorem filled_toObject_of_default {e : RepositoryEntry} (h : e.default = e) :
    e.toObject.filled = (e.toObject, none) := by
  have hkeys : Value.filledItems (e.deployKeys.map (·.toObject)) =
      (e.deployKeys.map (·.toObject), none) := by
    refine Value.filledItems_of_forall fun v hv ↦ ?_
    obtain ⟨k, hk, rfl⟩ := List.mem_map.mp hv
    exact DeployKey.filled_toObject (map_eq_self_iff.mp (congrArg deployKeys h) k hk)
  have hteams : Value.filledItems (e.teams.map (·.toObject)) =
      (e.teams.map (·.toObject), none) := by
    refine Value.filledItems_of_forall fun v hv ↦ ?_
    obtain ⟨t, ht, rfl⟩ := List.mem_map.mp hv
    exact TeamAccess.filled_toObject (map_eq_self_iff.mp (congrArg teams h) t ht)
  have hunset : Value.unsetNames ResourceKind.entry.defaults objectType.fields
      (e.valuesWith (e.deployKeys.map (·.toObject)) (e.teams.map (·.toObject))) = [] := by
    rcases e with ⟨⟨name, description, _ | branch, _ | visibility⟩, options, _, _⟩
    · simp [default, Repository.default, fill] at h
    · simp [default, Repository.default, fill] at h
    · simp [default, Repository.default, fill] at h
    · cases description <;> rfl
  rw [toObject_eq, Value.filled, ofType?_objectType]
  simp only [ResourceKind.fillable, if_true, filledFields_valuesWith hkeys hteams,
    fillFields_valuesWith, hunset, h, List.filter_nil, List.append_nil]

end RepositoryEntry
end RepoManifest
