import RepoManifest.Proofs.Resource.Walk
import RepoManifest.Resource.Object

/-!
# What filling changes

Filling completes a value: some null fields of an object, and of the objects in its lists, get their
standard value, and nothing else changes. These fields are not required and their registries know
the standard values, so a completion has the findings of what it completes.
-/

namespace RepoManifest
namespace Value

/-! ## Completions -/

/-- The standard values that unset fields get. -/
def standardValues : List (String × Value) :=
  [("visibility", .str "private"), ("default_branch", .str "master"), ("read_only", .bool true),
    ("permission", .str "pull")]

mutual

/-- A value completes another one: it is the same value, or an object or a sequence of objects in
which some null fields are set. The names of these fields count as given explicitly. -/
inductive Completion : Value → Value → Prop
  | same (v : Value) : Completion v v
  | object {type : ObjectType} {assigned more : List String} {values values' : List Value}
      (hnames : ∀ name ∈ more, name ∈ standardValues.map (·.1))
      (hfields : FieldsCompletion type.fields values values') :
      Completion (.object type assigned values) (.object type (assigned ++ more) values')
  | list {items items' : List Value} (hitems : ItemsCompletion items items') :
      Completion (.list items) (.list items')
  | tuple {items items' : List Value} (hitems : ItemsCompletion items items') :
      Completion (.tuple items) (.tuple items')

/-- Field by field: a null field that is not required is set to its standard value, which its
registry knows; or an unrestricted field is completed; or the field stays as it is. -/
inductive FieldsCompletion : List FieldDecl → List Value → List Value → Prop
  | same (fields : List FieldDecl) (values : List Value) : FieldsCompletion fields values values
  | set {f : FieldDecl} {fields : List FieldDecl} {v : Value} {values values' : List Value}
      (hvalue : (f.name, v) ∈ standardValues) (hrequired : f.required = false)
      (hregistry : ∀ r, f.registry = some r → r.accepts v = true)
      (hrest : FieldsCompletion fields values values') :
      FieldsCompletion (f :: fields) (.null :: values) (v :: values')
  | inside {f : FieldDecl} {fields : List FieldDecl} {v v' : Value} {values values' : List Value}
      (hregistry : f.registry = none) (hv : Completion v v')
      (hrest : FieldsCompletion fields values values') :
      FieldsCompletion (f :: fields) (v :: values) (v' :: values')
  | keep {f : FieldDecl} {fields : List FieldDecl} {v : Value} {values values' : List Value}
      (hrest : FieldsCompletion fields values values') :
      FieldsCompletion (f :: fields) (v :: values) (v :: values')

/-- Item by item. -/
inductive ItemsCompletion : List Value → List Value → Prop
  | nil : ItemsCompletion [] []
  | cons {v v' : Value} {rest rest' : List Value} (hv : Completion v v')
      (hrest : ItemsCompletion rest rest') : ItemsCompletion (v :: rest) (v' :: rest')

end

/-- Items complete themselves. -/
theorem ItemsCompletion.same (items : List Value) : ItemsCompletion items items := by
  induction items with
  | nil => exact .nil
  | cons v rest ih => exact .cons (.same v) ih

/-- Only null is completed to null. -/
theorem Completion.eq_null {v : Value} (h : Completion v .null) : v = .null := by
  cases h with
  | same => rfl

/-- A completion leaves a required field empty exactly if the completed value does. -/
theorem Completion.leavesEmpty_eq {v v' : Value} (h : Completion v v') :
    v'.leavesEmpty = v.leavesEmpty := by
  cases h with
  | same => rfl
  | object => rfl
  | list hitems => cases hitems <;> rfl
  | tuple => rfl

/-- There is nothing to find in a field that holds a standard value. -/
theorem fieldFindings_of_mem_standardValues {name : String} {v : Value}
    (h : (name, v) ∈ standardValues) (p : FieldPath) (f : FieldDecl) :
    fieldFindings p [f] [v] = [] := by
  simp only [standardValues, List.mem_cons, Prod.mk.injEq, List.not_mem_nil, or_false] at h
  rcases h with ⟨_, rfl⟩ | ⟨_, rfl⟩ | ⟨_, rfl⟩ | ⟨_, rfl⟩ <;> rfl

/-- The findings in fields are those of the first one, then those of the others. -/
theorem fieldFindings_cons (p : FieldPath) (f : FieldDecl) (fields : List FieldDecl) (v : Value)
    (values : List Value) :
    fieldFindings p (f :: fields) (v :: values) =
      fieldFindings p [f] [v] ++ fieldFindings p fields values := by
  cases v <;> simp [fieldFindings]

/-- Completing fields leaves the same required fields empty. -/
theorem FieldsCompletion.requiredFindings_eq {fields : List FieldDecl} {values values' : List Value}
    (h : FieldsCompletion fields values values') (p : FieldPath) :
    requiredFindings p (fields.zip values') = requiredFindings p (fields.zip values) := by
  induction fields generalizing values values' with
  | nil => rfl
  | cons f fields ih =>
    cases h with
    | same => rfl
    | set _ hrequired _ hrest =>
      have hrest := ih hrest
      simp only [requiredFindings, List.zip_cons_cons, List.filterMap_cons, hrequired,
        Bool.false_and, Bool.false_eq_true, if_false] at hrest ⊢
      exact hrest
    | inside _ hv hrest =>
      have hrest := ih hrest
      simp only [requiredFindings, List.zip_cons_cons, List.filterMap_cons, hv.leavesEmpty_eq]
        at hrest ⊢
      rw [hrest]
    | keep hrest =>
      have hrest := ih hrest
      simp only [requiredFindings, List.zip_cons_cons, List.filterMap_cons] at hrest ⊢
      rw [hrest]

/-- Completing fields refuses the same values. -/
theorem FieldsCompletion.registryFindings_eq {fields : List FieldDecl} {values values' : List Value}
    (h : FieldsCompletion fields values values') (p : FieldPath) :
    registryFindings p (fields.zip values') = registryFindings p (fields.zip values) := by
  induction fields generalizing values values' with
  | nil => rfl
  | cons f fields ih =>
    cases h with
    | same => rfl
    | @set _ _ v _ _ _ _ hregistry hrest =>
      have hbefore : registryFinding? p f .null = none := by
        unfold registryFinding?
        cases f.registry <;> rfl
      have hafter : registryFinding? p f v = none := by
        cases hr : f.registry with
        | none => simp [registryFinding?, hr]
        | some r =>
          by_cases hv : v = .null
          · rw [hv, hbefore]
          · simp [registryFinding?, hr, (r.validate_eq_none_iff v).mpr (hregistry r hr)]
      have hrest := ih hrest
      simp only [registryFindings, List.zip_cons_cons, List.filterMap_cons, hbefore, hafter]
        at hrest ⊢
      exact hrest
    | inside hregistry _ hrest =>
      have hrest := ih hrest
      simp only [registryFindings, List.zip_cons_cons, List.filterMap_cons, registryFinding?,
        hregistry] at hrest ⊢
      exact hrest
    | keep hrest =>
      have hrest := ih hrest
      simp only [registryFindings, List.zip_cons_cons, List.filterMap_cons] at hrest ⊢
      rw [hrest]

mutual

/-- A completion has the findings of the value it completes. -/
theorem findings_of_completion (p : FieldPath) :
    ∀ {v v' : Value}, Completion v v' → findings p v' = findings p v
  | .object type _ values, _, .object _ hfields => by
    rw [findings, findings, hfields.requiredFindings_eq, hfields.registryFindings_eq,
      fieldFindings_of_completion p hfields]
  | _, _, .same _ => rfl
  | .list _, _, .list _ => rfl
  | .tuple _, _, .tuple _ => rfl

/-- Completed fields have the findings of the fields as they were. -/
theorem fieldFindings_of_completion (p : FieldPath) :
    ∀ {fields : List FieldDecl} {values values' : List Value},
      FieldsCompletion fields values values' →
        fieldFindings p fields values' = fieldFindings p fields values
  | f :: fields, v :: values, v' :: values', h => by
    rw [fieldFindings_cons p f fields v, fieldFindings_cons p f fields v']
    cases h with
    | same => rfl
    | set hvalue _ _ hrest =>
      rw [fieldFindings_of_completion p hrest, fieldFindings_of_mem_standardValues hvalue p f]
      rfl
    | inside _ hv hrest =>
      rw [fieldFindings_of_completion p hrest]
      refine congrArg (· ++ _) ?_
      cases hv with
      | same => rfl
      | @object _ assigned _ _ _ hnames hfields =>
        have hv := findings_of_completion (p ++ [.name f.name])
          (Completion.object hnames hfields : Completion (.object _ assigned _) _)
        simp only [fieldFindings, hv]
      | list hitems =>
        have hitems := itemFindings_of_completion (p ++ [.name f.name]) 0 hitems
        simp only [fieldFindings, hitems]
      | tuple => rfl
    | keep hrest => rw [fieldFindings_of_completion p hrest]
  | [], _, _, h => by cases h; rfl
  | _ :: _, [], _, h => by cases h; rfl
  | _ :: _, _ :: _, [], h => by cases h

/-- Completed items have the findings of the items as they were. -/
theorem itemFindings_of_completion (p : FieldPath) (i : Nat) :
    ∀ {items items' : List Value}, ItemsCompletion items items' →
      itemFindings p i items' = itemFindings p i items
  | [], _, .nil => rfl
  | _ :: _, _, .cons hv hrest => by
    rw [itemFindings, itemFindings, findings_of_completion _ hv,
      itemFindings_of_completion p (i + 1) hrest]

end

end Value

/-- A value that is looked up is there under its name. -/
theorem Value.mem_of_lookup {entries : List (String × Value)} {name : String} {v : Value}
    (h : entries.lookup name = some v) : (name, v) ∈ entries := by
  obtain ⟨before, after, rfl, _⟩ := List.lookup_eq_some_iff.mp h
  exact List.mem_append_right _ (List.mem_cons_self ..)

/-! ## Kinds -/

namespace ResourceKind

/-- The kind of the items in a list field. -/
def itemKind? : ResourceKind → String → Option ResourceKind
  | entry, "deploy_keys" => some deployKey
  | entry, "teams" => some teamAccess
  | _, _ => none

/-- A kind is known by its type. -/
theorem ofType?_type (kind : ResourceKind) : ofType? kind.objectType = some kind := by
  cases kind <;> decide

/-- A type with a kind is the type of that kind. -/
theorem eq_objectType {type : ObjectType} {kind : ResourceKind} (h : ofType? type = some kind) :
    type = kind.objectType := by
  have hfound := List.find?_some h
  exact (beq_iff_eq.mp hfound).symm

/-- The defaults are standard values. -/
theorem defaults_subset (kind : ResourceKind) : kind.defaults ⊆ Value.standardValues := by
  cases kind <;>
    simp [defaults, Value.standardValues, defaultVisibility, defaultBranchName, defaultPermission,
      Permission.text]

/-- The defaults are no nulls. -/
theorem defaults_ne_null (kind : ResourceKind) : ∀ entry ∈ kind.defaults, entry.2 ≠ .null := by
  cases kind <;> simp [defaults]

/-- A field with a default is not required, and its registry knows the default. -/
theorem default_fits (kind : ResourceKind) : ∀ f ∈ kind.objectType.fields,
    (kind.defaults.lookup f.name).all (fun d ↦ !f.required && f.registry.all (·.accepts d)) =
      true := by
  cases kind <;> decide

/-- A field that filling enters is not restricted, and has no default. -/
theorem entered_fits (kind : ResourceKind) : ∀ f ∈ kind.objectType.fields,
    f.name ∈ kind.entered →
      f.registry = none ∧ (kind.defaults.lookup f.name).isNone = true := by
  cases kind <;> decide

/-- Filling sets a field to a standard value; the field is not required, and its registry knows the
value. -/
theorem fits_of_lookup_defaults {kind : ResourceKind} {f : FieldDecl} {d : Value}
    (hf : f ∈ kind.objectType.fields) (hd : kind.defaults.lookup f.name = some d) :
    (f.name, d) ∈ Value.standardValues ∧ f.required = false ∧
      ∀ r, f.registry = some r → r.accepts d = true := by
  have hfits := kind.default_fits f hf
  rw [hd, Option.all_some, Bool.and_eq_true, Bool.not_eq_true'] at hfits
  refine ⟨kind.defaults_subset (Value.mem_of_lookup hd), hfits.1, fun r hr ↦ ?_⟩
  rw [hr] at hfits
  exact hfits.2

/-- The fields that filling enters hold items of a kind that is filled without entering lists. -/
theorem itemKind_of_entered {kind : ResourceKind} {name : String} (h : name ∈ kind.entered) :
    ∃ item, kind.itemKind? name = some item ∧ item.fillable = true ∧ item.entered = [] := by
  cases kind with
  | entry =>
    simp only [entered, List.mem_cons, List.not_mem_nil, or_false] at h
    rcases h with rfl | rfl
    · exact ⟨deployKey, rfl, rfl, rfl⟩
    · exact ⟨teamAccess, rfl, rfl, rfl⟩
  | _ => cases h

end ResourceKind

namespace Value

/-! ## One field at a time -/

section

variable {defaults : List (String × Value)} {names : List String} {f : FieldDecl}
  {fields : List FieldDecl} {v : Value} {values : List Value}

/-- A null field with a default is set. -/
theorem fillFields_null {d : Value} (h : defaults.lookup f.name = some d) :
    fillFields defaults (f :: fields) (.null :: values) =
      d :: fillFields defaults fields values := by
  simp only [fillFields, h]

/-- A field that holds a value, or has no default, is left alone. -/
theorem fillFields_keep (h : v ≠ .null ∨ defaults.lookup f.name = none) :
    fillFields defaults (f :: fields) (v :: values) = v :: fillFields defaults fields values := by
  rcases h with h | h
  · cases v <;> simp_all [fillFields]
  · cases v <;> simp [fillFields, h]

/-- A field that holds a value, or has no default, is not among the unset ones. -/
theorem unsetNames_keep (h : v ≠ .null ∨ defaults.lookup f.name = none) :
    unsetNames defaults (f :: fields) (v :: values) = unsetNames defaults fields values := by
  rcases h with h | h
  · cases v <;> simp_all [unsetNames]
  · cases v <;> simp [unsetNames, h]

/-- A field is set by its default, or left alone. -/
theorem fillFields_cases (defaults : List (String × Value)) (f : FieldDecl) (v : Value) :
    (∃ d, v = .null ∧ defaults.lookup f.name = some d) ∨
      (v ≠ .null ∨ defaults.lookup f.name = none) := by
  cases hd : defaults.lookup f.name with
  | none => exact .inr (.inr rfl)
  | some d =>
    by_cases hv : v = .null
    · exact .inl ⟨d, hv, rfl⟩
    · exact .inr (.inl hv)

/-- Filling enters a field of a name that it enters, and goes on if nothing stops it. -/
theorem filledFields_entered (h : f.name ∈ names) :
    filledFields names (f :: fields) (v :: values) =
      match v.filledIn.2 with
      | some misuse => (v.filledIn.1 :: values, some misuse)
      | none => (v.filledIn.1 :: (filledFields names fields values).1,
        (filledFields names fields values).2) := by
  rw [filledFields, if_pos h]
  cases hv : v.filledIn with
  | mk w stopped => cases stopped <;> rfl

/-- Without fields there is nothing to enter. -/
theorem filledFields_nil (names : List String) (values : List Value) :
    filledFields names [] values = (values, none) := by
  cases values <;> rfl

/-- Filling passes over the other fields. -/
theorem filledFields_skip (h : f.name ∉ names) :
    filledFields names (f :: fields) (v :: values) =
      (v :: (filledFields names fields values).1, (filledFields names fields values).2) := by
  rw [filledFields, if_neg h]

end

/-- Items are filled in order until one stops the filling. -/
theorem filledItems_cons (v : Value) (rest : List Value) :
    filledItems (v :: rest) =
      match v.filled.2 with
      | some misuse => (v.filled.1 :: rest, some misuse)
      | none => (v.filled.1 :: (filledItems rest).1, (filledItems rest).2) := by
  rw [filledItems]
  cases hv : v.filled with
  | mk w stopped => cases stopped <;> rfl

/-- Filling an object of a kind that can be filled. -/
theorem filled_object {type : ObjectType} {kind : ResourceKind} {assigned : List String}
    {values : List Value} (hkind : ResourceKind.ofType? type = some kind)
    (hfillable : kind.fillable = true) :
    filled (.object type assigned values) =
      (.object type
        (assigned ++ (unsetNames kind.defaults type.fields values).filter (· ∉ assigned))
        (fillFields kind.defaults type.fields (filledFields kind.entered type.fields values).1),
        (filledFields kind.entered type.fields values).2) := by
  rw [filled, hkind]
  simp only [hfillable, if_true]

/-- Filling leaves any other object alone. -/
theorem filled_object_eq_self {type : ObjectType} {assigned : List String} {values : List Value}
    (h : ∀ kind, ResourceKind.ofType? type = some kind → kind.fillable = false) :
    filled (.object type assigned values) = (.object type assigned values, some .noSuchField) := by
  rw [filled]
  cases hkind : ResourceKind.ofType? type with
  | none => rfl
  | some kind => simp [h kind hkind]

/-! ## Filling completes -/

/-- Setting defaults completes fields further. -/
theorem FieldsCompletion.fillFields {defaults : List (String × Value)} {fields : List FieldDecl}
    {values entered : List Value} (h : FieldsCompletion fields values entered)
    (hfits : ∀ f ∈ fields, ∀ d, defaults.lookup f.name = some d →
      (f.name, d) ∈ standardValues ∧ f.required = false ∧
        ∀ r, f.registry = some r → r.accepts d = true) :
    FieldsCompletion fields values (fillFields defaults fields entered) := by
  induction fields generalizing values entered with
  | nil =>
    cases h
    exact .same _ _
  | cons f fields ih =>
    rw [List.forall_mem_cons] at hfits
    obtain ⟨hfit, hfits⟩ := hfits
    -- what is null after entering was null before, so a default completes the field as it was
    have hset {values entered : List Value} {d : Value} (hd : defaults.lookup f.name = some d)
        (hrest : FieldsCompletion fields values entered) :
        FieldsCompletion (f :: fields) (.null :: values)
          (Value.fillFields defaults (f :: fields) (.null :: entered)) := by
      obtain ⟨hvalue, hrequired, hregistry⟩ := hfit d hd
      rw [fillFields_null hd]
      exact .set hvalue hrequired hregistry (ih hrest hfits)
    have hkeep {v : Value} {values entered : List Value}
        (hrest : FieldsCompletion fields values entered) :
        FieldsCompletion (f :: fields) (v :: values)
          (Value.fillFields defaults (f :: fields) (v :: entered)) := by
      rcases fillFields_cases defaults f v with ⟨d, rfl, hd⟩ | hv
      · exact hset hd hrest
      · rw [fillFields_keep hv]
        exact .keep (ih hrest hfits)
    cases h with
    | same =>
      cases values with
      | nil => exact .same _ _
      | cons v values => exact hkeep (.same _ _)
    | @set _ _ v _ _ hvalue hrequired hregistry hrest =>
      rcases fillFields_cases defaults f v with ⟨d, rfl, hd⟩ | hv
      · exact hset hd hrest
      · rw [fillFields_keep hv]
        exact .set hvalue hrequired hregistry (ih hrest hfits)
    | @inside _ _ _ v' _ _ hregistry hv hrest =>
      rcases fillFields_cases defaults f v' with ⟨d, rfl, hd⟩ | hv'
      · rw [hv.eq_null]
        exact hset hd hrest
      · rw [fillFields_keep hv']
        exact .inside hregistry hv (ih hrest hfits)
    | keep hrest => exact hkeep hrest

/-- The names of the fields that get a default are those of standard values. -/
theorem name_of_mem_unsetNames {defaults : List (String × Value)} {fields : List FieldDecl}
    {values : List Value} {name : String} (h : name ∈ unsetNames defaults fields values) :
    ∃ d, (name, d) ∈ defaults := by
  induction fields generalizing values with
  | nil => simp [unsetNames] at h
  | cons f fields ih =>
    cases values with
    | nil => simp [unsetNames] at h
    | cons v values =>
      unfold unsetNames at h
      split at h
      · next d hd =>
        rcases List.mem_cons.mp h with rfl | h
        · exact ⟨d, mem_of_lookup hd⟩
        · exact ih h
      · exact ih h

mutual

/-- Filling ends with a completion of the value. -/
theorem completion_filled : ∀ v : Value, Completion v v.filled.1
  | .object type assigned values => by
    by_cases hfillable : ∃ kind, ResourceKind.ofType? type = some kind ∧ kind.fillable = true
    · obtain ⟨kind, hkind, hfillable⟩ := hfillable
      obtain rfl := ResourceKind.eq_objectType hkind
      rw [filled_object hkind hfillable]
      have hentered := completion_filledFields kind.entered kind.objectType.fields values
        fun f hf hname ↦ (kind.entered_fits f hf hname).1
      refine .object (fun name hname ↦ ?_)
        (hentered.fillFields fun f hf d hd ↦ ResourceKind.fits_of_lookup_defaults hf hd)
      obtain ⟨d, hd⟩ := name_of_mem_unsetNames (List.mem_filter.mp hname).1
      exact List.mem_map.mpr ⟨(name, d), kind.defaults_subset hd, rfl⟩
    · rw [filled_object_eq_self fun kind hkind ↦
        Bool.eq_false_iff.mpr fun hyes ↦ hfillable ⟨kind, hkind, hyes⟩]
      exact .same _
  | .null | .bool _ | .int _ | .double _ | .str _ | .bytes _ | .date _ | .datetime _ _ | .tuple _
  | .list _ | .set _ | .map _ | .member _ _ _ => .same _

/-- Entering fields completes them. -/
theorem completion_filledFields (names : List String) :
    ∀ (fields : List FieldDecl) (values : List Value),
      (∀ f ∈ fields, f.name ∈ names → f.registry = none) →
        FieldsCompletion fields values (filledFields names fields values).1
  | f :: fields, v :: values, hfree => by
    rw [List.forall_mem_cons] at hfree
    obtain ⟨hf, hfree⟩ := hfree
    have hrest := completion_filledFields names fields values hfree
    by_cases hname : f.name ∈ names
    · have hv := completion_filledIn v
      rw [filledFields_entered hname]
      cases v.filledIn.2 with
      | none => exact .inside (hf hname) hv hrest
      | some misuse => exact .inside (hf hname) hv (.same _ _)
    · rw [filledFields_skip hname]
      exact .keep hrest
  | [], values, _ => by
    rw [filledFields_nil]
    exact .same _ _
  | _ :: _, [], _ => .same _ _

/-- Filling what a field holds completes it. -/
theorem completion_filledIn : ∀ v : Value, Completion v v.filledIn.1
  | .list items => .list (completion_filledItems items)
  | .tuple items => .tuple (completion_filledItems items)
  | .null | .bool _ | .int _ | .double _ | .str _ | .bytes _ | .date _ | .datetime _ _ | .set _
  | .map _ | .member _ _ _ | .object _ _ _ => .same _

/-- Filling items completes them. -/
theorem completion_filledItems : ∀ items : List Value,
    ItemsCompletion items (filledItems items).1
  | [] => .nil
  | v :: rest => by
    have hv := completion_filled v
    have hrest := completion_filledItems rest
    rw [filledItems_cons]
    cases v.filled.2 with
    | none => exact .cons hv hrest
    | some misuse => exact .cons hv (.same _)

end

end Value
end RepoManifest
