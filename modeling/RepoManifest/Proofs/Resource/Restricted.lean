import RepoManifest.Proofs.Reading.Word
import RepoManifest.Proofs.Resource.LastField
import RepoManifest.Proofs.Resource.Unchecked
import RepoManifest.Proofs.Resource.Validity

/-!
# Fields with a vocabulary

Four fields are restricted to a registry, each as the last one of its resource. Any word is read
into such a field, and numbers are read as their texts; the registry decides when the resource is
checked. So a value is legal in the field exactly if it spells a declared word, or is null where the
field may be left unset. Numbers are read but never legal, and everything else is not read.
-/

namespace RepoManifest

open Reading

/-! ## Values without findings -/

namespace Value

/-- A value of a simple field: a text, a flag, or nothing. -/
def IsSimple : Value → Prop
  | .null | .bool _ | .str _ => True
  | _ => False

/-- A text is simple. -/
@[simp] theorem isSimple_str (s : String) : (str s).IsSimple := trivial

/-- A text or nothing is simple. -/
@[simp] theorem isSimple_ofText? (x : Option String) : (ofText? x).IsSimple := by
  cases x <;> trivial

/-- A flag or nothing is simple. -/
@[simp] theorem isSimple_ofFlag? (x : Option Bool) : (ofFlag? x).IsSimple := by
  cases x <;> trivial

/-- There are no findings in simple fields. -/
theorem fieldFindings_of_isSimple (p : FieldPath) (fields : List FieldDecl) {values : List Value}
    (h : ∀ v ∈ values, v.IsSimple) : fieldFindings p fields values = [] := by
  induction fields generalizing values with
  | nil => exact fieldFindings_nil p values
  | cons f fields ih =>
    cases values with
    | nil => rfl
    | cons v values =>
      obtain ⟨hv, hvalues⟩ := List.forall_mem_cons.mp h
      cases v with
      | null | bool | str => exact ih hvalues
      | _ => exact hv.elim

/-! ## Filling simple fields -/

/-- Filling that enters no field leaves all of them. -/
theorem filledFields_of_nil (fields : List FieldDecl) (values : List Value) :
    filledFields [] fields values = (values, none) := by
  induction fields generalizing values with
  | nil => exact filledFields_nil [] values
  | cons f fields ih =>
    cases values with
    | nil => rfl
    | cons v values => rw [filledFields_skip List.not_mem_nil, ih]

/-- The value of a field after defaults were set. -/
def filledBy (defaults : List (String × Value)) (f : FieldDecl) (v : Value) : Value :=
  match v, defaults.lookup f.name with
  | .null, some d => d
  | v, _ => v

/-- Defaults are set field by field. -/
theorem fillFields_cons (defaults : List (String × Value)) (f : FieldDecl) (fields : List FieldDecl)
    (v : Value) (values : List Value) :
    fillFields defaults (f :: fields) (v :: values) =
      filledBy defaults f v :: fillFields defaults fields values := rfl

/-- Defaults are set in some fields and in the fields behind them. -/
theorem fillFields_append {defaults : List (String × Value)} {fields : List FieldDecl}
    {values : List Value} (h : values.length = fields.length) (more : List FieldDecl)
    (rest : List Value) :
    fillFields defaults (fields ++ more) (values ++ rest) =
      fillFields defaults fields values ++ fillFields defaults more rest := by
  induction fields generalizing values with
  | nil =>
    obtain rfl := List.length_eq_zero_iff.mp h
    rfl
  | cons f fields ih =>
    cases values with
    | nil => cases h
    | cons v values =>
      rw [List.cons_append, List.cons_append, fillFields_cons, fillFields_cons, ih (Nat.succ.inj h),
        List.cons_append]

/-- Setting defaults adds no field and leaves none out. -/
theorem length_fillFields (defaults : List (String × Value)) (fields : List FieldDecl)
    (values : List Value) : (fillFields defaults fields values).length = values.length := by
  induction fields generalizing values with
  | nil => cases values <;> rfl
  | cons f fields ih =>
    cases values with
    | nil => rfl
    | cons v values => rw [fillFields_cons, List.length_cons, List.length_cons, ih]

end Value

/-! ## Restricted fields -/

/-- The fields that are restricted to a registry. -/
inductive RestrictedField where
  | visibility | licenseTemplate | permission | credentialType
  deriving DecidableEq, Repr

namespace RestrictedField

/-- The kind of resource that has the field. -/
def kind : RestrictedField → ResourceKind
  | visibility => .repository
  | licenseTemplate => .createOptions
  | permission => .teamAccess
  | credentialType => .deployKey

/-- The name of the field. -/
def name : RestrictedField → String
  | visibility => "visibility"
  | licenseTemplate => "license_template"
  | permission => "permission"
  | credentialType => "credential_type"

/-- The registry that the field is restricted to. -/
def registry : RestrictedField → Registry
  | visibility => visibilityRegistry
  | licenseTemplate => licenseRegistry
  | permission => permissionRegistry
  | credentialType => credentialTypeRegistry

/-- Whether the field may be left unset by null. -/
def optional : RestrictedField → Bool
  | credentialType => false
  | _ => true

/-- The declaration of the field. -/
def decl (x : RestrictedField) : FieldDecl := ⟨x.name, false, some x.registry⟩

/-- The declarations of the fields in front of it. -/
def front (x : RestrictedField) : List FieldDecl := x.kind.objectType.fields.dropLast

/-- The field is the last one of its resource. -/
theorem fields_eq (x : RestrictedField) : x.kind.objectType.fields = x.front ++ [x.decl] := by
  cases x <;> rfl

/-- The other fields of its resource have other names and are not restricted. -/
theorem of_mem_front {x : RestrictedField} {f : FieldDecl} (h : f ∈ x.front) :
    f.name ≠ x.name ∧ f.registry = none := by
  have hall : ∀ f ∈ x.front, f.name ≠ x.name ∧ f.registry = none := by cases x <;> decide
  exact hall f h

/-- The registry is one of those that fields are checked against. -/
theorem registry_mem (x : RestrictedField) : x.registry ∈ registries := by cases x <;> decide

/-- Resources with a restricted field have no list fields that filling enters. -/
theorem entered_eq (x : RestrictedField) : x.kind.entered = [] := by cases x <;> rfl

/-- Read the value of the field. -/
def read (x : RestrictedField) (v : Value) : Reading Value :=
  if x.optional then (Reading.optional word v).map .ofText? else (word v).map .str

/-- Null is read where the field may be left unset. -/
theorem read_null {x : RestrictedField} (h : x.optional = true) : x.read .null = .ok .null := by
  rw [read, if_pos h]
  rfl

/-- Any other value is read as a word. -/
theorem read_of_not_unset {x : RestrictedField} {v : Value}
    (h : ¬ (v = .null ∧ x.optional = true)) : x.read v = (word v).map .str := by
  unfold read
  split
  · next hoptional =>
    have hne : v ≠ .null := fun hnull ↦ h ⟨hnull, hoptional⟩
    rw [Reading.optional]
    · cases word v <;> rfl
    · exact hne
  · rfl

/-- What is read into the field is null, where it may be left unset, or a word. -/
theorem read_eq_ok_iff {x : RestrictedField} {v value : Value} :
    x.read v = .ok value ↔
      v = .null ∧ x.optional = true ∧ value = .null ∨ ∃ s, word v = .ok s ∧ value = .str s := by
  by_cases hunset : v = .null ∧ x.optional = true
  · obtain ⟨rfl, hoptional⟩ := hunset
    have hword (s : String) : word .null ≠ .ok s := fun h ↦ by cases h
    rw [read_null hoptional, Except.ok.injEq]
    simp [hoptional, hword, eq_comm]
  · rw [read_of_not_unset hunset]
    have hnull : ¬ (v = .null ∧ x.optional = true ∧ value = .null) :=
      fun h ↦ hunset ⟨h.1, h.2.1⟩
    cases word v with
    | ok s =>
      simp only [Except.map, Except.ok.injEq, hnull, false_or, exists_eq_left']
      exact eq_comm
    | error issues => simp [hnull, Except.map]

/-! ## Setting the field -/

/-- A mapping with the field set to a value. -/
def document (x : RestrictedField) (given : List (Value × Value)) (v : Value) : Value :=
  .map (Value.insert given (.str x.name) v)

/-- The names of the fields that such a mapping gives. -/
def assigned (x : RestrictedField) (given : List (Value × Value)) (v : Value) : List String :=
  givenNames x.kind.objectType.names (Value.insert given (.str x.name) v)

/-- A resource with a value in the field. -/
def holding (x : RestrictedField) (assigned : List String) (others : List Value) (value : Value) :
    Value :=
  .object x.kind.objectType assigned (others ++ [value])

variable {x : RestrictedField} {given : List (Value × Value)} {o : Value}

/-- Setting the field of a readable mapping changes what is read into it, and nothing else. -/
theorem exists_read_document (h : x.kind.read (.map given) = .ok o) :
    ∃ others, others.length = x.front.length ∧ (∀ w ∈ others, w.IsSimple) ∧ ∀ v,
      x.kind.read (x.document given v) =
        (under (.name x.name) (x.read v)).map (x.holding (x.assigned given v) others) := by
  cases x with
  | visibility =>
    obtain ⟨⟨name, description, branch, _⟩, hread, -⟩ := map_eq_ok_iff.mp h
    refine ⟨[.str name, .ofText? description, .ofText? branch], rfl, by simp, fun v ↦ ?_⟩
    refine (congrArg (Except.map _) (Repository.read_insert_visibility hread v)).trans ?_
    rw [RestrictedField.read]
    cases Reading.optional word v <;> rfl
  | licenseTemplate =>
    obtain ⟨⟨autoInit, _⟩, hread, -⟩ := map_eq_ok_iff.mp h
    refine ⟨[.ofFlag? autoInit], rfl, by simp, fun v ↦ ?_⟩
    refine (congrArg (Except.map _) (CreateOptions.read_insert_licenseTemplate hread v)).trans ?_
    rw [RestrictedField.read]
    cases Reading.optional word v <;> rfl
  | permission =>
    obtain ⟨⟨name, _⟩, hread, -⟩ := map_eq_ok_iff.mp h
    refine ⟨[.str name], rfl, by simp, fun v ↦ ?_⟩
    refine (congrArg (Except.map _) (TeamAccess.read_insert_permission hread v)).trans ?_
    rw [RestrictedField.read]
    cases Reading.optional word v <;> rfl
  | credentialType =>
    obtain ⟨⟨name, key, readOnly, _⟩, hread, -⟩ := map_eq_ok_iff.mp h
    refine ⟨[.str name, .str key, .ofFlag? readOnly], rfl, by simp, fun v ↦ ?_⟩
    refine (congrArg (Except.map _) (DeployKey.read_insert_credentialType hread v)).trans ?_
    rw [RestrictedField.read]
    cases word v <;> rfl

/-! ## Checking the field -/

section

variable {assigned : List String} {others : List Value} {value : Value}

/-- A resource with a value in the field is one of its kind. -/
theorem isOf_holding (x : RestrictedField) (assigned : List String) (others : List Value)
    (value : Value) : (x.holding assigned others value).IsOf x.kind := ⟨assigned, _, rfl⟩

/-- The value in the field. -/
theorem field?_holding (hlength : others.length = x.front.length) :
    (x.holding assigned others value).field? x.name = some value := by
  have hfront : (x.front.zip others).find? (·.1.name == x.name) = none := by
    rw [List.find?_eq_none]
    intro entry hentry
    have hname := (of_mem_front (List.of_mem_zip hentry).1).1
    simpa using hname
  rw [Value.field?, holding, Value.fields, fields_eq, List.zip_append hlength.symm,
    List.find?_append, hfront]
  simp [decl]

/-- The findings of a resource with simple fields: those of the required fields in front, and that
of the restricted field. -/
theorem findings_holding (hlength : others.length = x.front.length)
    (hothers : ∀ w ∈ others, w.IsSimple) (hvalue : value.IsSimple) :
    (x.holding assigned others value).findings [] =
      Value.requiredFindings [] (x.front.zip others) ++
        (Value.registryFinding? [] x.decl value).toList := by
  have hrestricted : Value.registryFindings [] (x.front.zip others) = [] := by
    rw [Value.registryFindings, List.filterMap_eq_nil_iff]
    intro entry hentry
    simp [Value.registryFinding?, (of_mem_front (List.of_mem_zip hentry).1).2]
  have hsimple : ∀ w ∈ others ++ [value], w.IsSimple :=
    List.forall_mem_append.mpr ⟨hothers, List.forall_mem_singleton.mpr hvalue⟩
  have hlast : x.front.zip others ++ [x.decl].zip [value] =
      x.kind.objectType.fields.zip (others ++ [value]) := by
    rw [fields_eq, List.zip_append hlength.symm]
  have hrequired : Value.requiredFindings [] (x.front.zip others ++ [x.decl].zip [value]) =
      Value.requiredFindings [] (x.front.zip others) := by
    rw [Value.requiredFindings, List.filterMap_append]
    exact List.append_nil _
  have hregistry : Value.registryFindings [] (x.front.zip others ++ [x.decl].zip [value]) =
      (Value.registryFinding? [] x.decl value).toList := by
    rw [Value.registryFindings] at hrestricted
    rw [Value.registryFindings, List.filterMap_append, hrestricted]
    cases h : Value.registryFinding? [] x.decl value <;> simp [h]
  rw [holding, Value.findings, Value.fieldFindings_of_isSimple _ _ hsimple, ← hlast, hrequired,
    hregistry, List.append_nil]

/-- Filling sets a default in the restricted field, if it is null and has one; nothing stops it, and
the check is that of the resource as it was. -/
theorem fillAndCheck_holding (assigned : List String) (value : Value)
    (hlength : others.length = x.front.length) (name : String) :
    ((x.holding assigned others value).fillAndCheck name).object.field? x.name =
      some (Value.filledBy x.kind.defaults x.decl value) ∧
    ((x.holding assigned others value).fillAndCheck name).stopped = none ∧
    ((x.holding assigned others value).fillAndCheck name).check =
      (x.holding assigned others value).checkObject name := by
  have hof := x.isOf_holding assigned others value
  by_cases hfillable : x.kind.fillable = true
  · have hends := hof.filled_ends hfillable x.entered_eq
    obtain ⟨assigned', hfilled⟩ : ∃ assigned', (x.holding assigned others value).filled.1 =
        x.holding assigned' (Value.fillFields x.kind.defaults x.front others)
          (Value.filledBy x.kind.defaults x.decl value) := by
      rw [holding, Value.filled_object x.kind.ofType?_type hfillable, entered_eq,
        Value.filledFields_of_nil, fields_eq, Value.fillFields_append hlength]
      exact ⟨_, rfl⟩
    rw [Value.fillAndCheck_of_ends name (hof.fillable_eq.trans hfillable) hends]
    refine ⟨?_, rfl, Value.checkObject_of_completion (Value.completion_filled _) name⟩
    rw [hfilled, field?_holding ((Value.length_fillFields _ _ _).trans hlength)]
  · have hdefaults : x.kind.defaults = [] := by
      cases x <;> first | rfl | exact absurd rfl hfillable
    rw [Value.fillAndCheck, if_neg (hof.fillable_eq ▸ hfillable), hdefaults]
    exact ⟨(field?_holding hlength).trans (by cases value <;> rfl), rfl, rfl⟩

end

/-- The lines of what is wrong with the field when a document is read and, if it can be read, filled
and checked: of the issues at the field, or of its violations. -/
def problems (x : RestrictedField) (document : Value) : List String :=
  match x.kind.read document with
  | .error issues =>
    (issues.filter fun i ↦ i.path.head? = some (.name x.name)).map fun i ↦ i.line
  | .ok object =>
    match (object.fillAndCheck x.kind.objectType.name).check with
    | .ok () => []
    | .error refused =>
      (refused.violations.filter fun v ↦ v.field.text? = some x.name).map Violation.line

/-- What is reported of a resource with simple fields is the finding of the restricted field. -/
theorem problems_of_read {document : Value} {assigned : List String} {others : List Value}
    {value : Value} (hread : x.kind.read document = .ok (x.holding assigned others value))
    (hlength : others.length = x.front.length) (hothers : ∀ w ∈ others, w.IsSimple)
    (hvalue : value.IsSimple) :
    x.problems document =
      (Value.registryFinding? [] x.decl value).toList.map fun f ↦ f.violation.line := by
  obtain ⟨-, -, hcheck⟩ :=
    fillAndCheck_holding assigned value hlength x.kind.objectType.name
  have hproblems : x.problems document =
      ((((x.holding assigned others value).findings []).map Finding.violation).filter fun v ↦
        v.field.text? = some x.name).map Violation.line := by
    rw [problems, hread]
    simp only [hcheck]
    by_cases hnone : (x.holding assigned others value).findings [] = []
    · rw [Value.checkObject_eq_ok_iff.mpr hnone, hnone]
      rfl
    · rw [Value.checkObject_of_findings_ne_nil hnone]
  -- A violation is recorded under the name of its field, and the fields in front have other names.
  have hrecorded {f : Finding} {name : String} (h : f.path = [.name name]) :
      f.violation.field.text? = some name := by
    rw [Finding.violation, h]
    rfl
  have hrequired : ∀ f ∈ Value.requiredFindings [] (x.front.zip others),
      f.violation.field.text? ≠ some x.name := by
    intro f hf
    obtain ⟨⟨g, w⟩, hmem, hfound⟩ := List.mem_filterMap.mp hf
    obtain ⟨-, hfinding⟩ := Option.ite_none_right_eq_some.mp hfound
    obtain rfl := Option.some.inj hfinding
    rw [hrecorded rfl]
    exact fun h ↦ (of_mem_front (List.of_mem_zip hmem).1).1 (Option.some.inj h)
  have hregistry : ∀ f ∈ (Value.registryFinding? [] x.decl value).toList,
      f.violation.field.text? = some x.name := by
    intro f hf
    refine hrecorded ?_
    rw [Option.mem_toList] at hf
    unfold Value.registryFinding? at hf
    split at hf
    · cases hf
    · cases hf
    · obtain ⟨_, -, rfl⟩ := Option.map_eq_some_iff.mp hf
      rfl
  rw [hproblems, findings_holding hlength hothers hvalue, List.map_append, List.filter_append,
    List.filter_eq_nil_iff.mpr, List.filter_eq_self.mpr, List.nil_append, List.map_map]
  · rfl
  · exact List.forall_mem_map.mpr fun f hf ↦ decide_eq_true (hregistry f hf)
  · refine List.forall_mem_map.mpr fun f hf ↦ ?_
    simpa using hrequired f hf

/-- The finding of a text: it is refused, unless it is a declared word. -/
theorem registryFinding?_str (text : String) :
    Value.registryFinding? [] x.decl (.str text) =
      if text ∈ x.registry.values then none
      else some ⟨[.name x.name], .str text, .notAllowed x.registry.values⟩ := by
  change (x.registry.validate (.str text)).map _ = _
  rw [Registry.validate]
  simp only [Registry.accepts_str_iff]
  split <;> rfl

/-- The line of a text that the field's registry refuses. -/
def refusal (x : RestrictedField) (text : String) : String :=
  x.name ++ ": " ++ (FieldError.notAllowed x.registry.values).message ++
    " (got " ++ Text.quote text ++ ")"

/-! ## Setting, reading, filling and checking -/

/-- Nothing is wrong with null, where it may be. -/
theorem problems_document_null (h : x.kind.read (.map given) = .ok o)
    (hoptional : x.optional = true) : x.problems (x.document given .null) = [] := by
  obtain ⟨others, hlength, hothers, hreads⟩ := exists_read_document h
  have hread : x.kind.read (x.document given .null) =
      .ok (x.holding (x.assigned given .null) others .null) := by
    rw [hreads, read_null hoptional]
    rfl
  rw [problems_of_read hread hlength hothers trivial]
  rfl

/-- A text is refused, unless it is a declared word. -/
theorem problems_document_text (h : x.kind.read (.map given) = .ok o) {v : Value} {text : String}
    (hword : word v = .ok text) :
    x.problems (x.document given v) =
      if text ∈ x.registry.values then [] else [x.refusal text] := by
  obtain ⟨others, hlength, hothers, hreads⟩ := exists_read_document h
  have hread : x.kind.read (x.document given v) =
      .ok (x.holding (x.assigned given v) others (.str text)) := by
    rw [hreads, read_eq_ok_iff.mpr (.inr ⟨text, hword, rfl⟩)]
    rfl
  rw [problems_of_read hread hlength hothers trivial, registryFinding?_str]
  split <;> rfl

/-- What is no word is not read: there is one issue, at the field. -/
theorem exists_read_document_eq_error (h : x.kind.read (.map given) = .ok o) {v : Value}
    (hunset : ¬ (v = .null ∧ x.optional = true)) (hword : ∀ text, word v ≠ .ok text) :
    ∃ f ∈ [ReadFault.notText, .notUtf8, .tooManyDigits],
      x.kind.read (x.document given v) = .error [⟨[.name x.name], f⟩] ∧
      x.problems (x.document given v) ≠ [] := by
  obtain ⟨others, -, -, hreads⟩ := exists_read_document h
  obtain ⟨f, hf, hfault⟩ := exists_fault_of_word hword
  have hread : x.kind.read (x.document given v) = .error [⟨[.name x.name], f⟩] := by
    rw [hreads, read_of_not_unset hunset, hfault]
    rfl
  refine ⟨f, hf, hread, ?_⟩
  rw [problems, hread]
  simp

/-- What comes of a value in a restricted field. -/
structure Settles (x : RestrictedField) (document v : Value) : Prop where
  /-- Nothing is wrong exactly if the value is null, where it may be, or spells a declared word. -/
  legal_iff : x.problems document = [] ↔
    v = .null ∧ x.optional = true ∨ ∃ word ∈ x.registry.values, v.Spells word
  /-- If nothing is wrong, the resource holds a declared word in the end, or an unset licence. -/
  stored : x.problems document = [] → ∃ object value, x.kind.read document = .ok object ∧
    (object.fillAndCheck x.kind.objectType.name).stopped = none ∧
    (object.fillAndCheck x.kind.objectType.name).object.field? x.name = some value ∧
    ((∃ word ∈ x.registry.values, value = .str word) ∨
      x = licenseTemplate ∧ v = .null ∧ value = .null)
  /-- A number is read as its text, and that text is refused. -/
  number : v.IsNumber → (∃ object, x.kind.read document = .ok object ∧
    object.field? x.name = some (.str v.display)) ∧
    x.problems document = [x.name ++ ": " ++ (FieldError.notAllowed x.registry.values).message ++
      " (got '" ++ v.display ++ "')"]
  /-- Everything else is not read: there is one issue, at the field. -/
  unreadable : ¬ (v = .null ∧ x.optional = true) → (∀ text, ¬ v.Spells text) → ¬ v.IsNumber →
    ∃ f ∈ [ReadFault.notText, .notUtf8, .tooManyDigits],
      x.kind.read document = .error [⟨[.name x.name], f⟩]

/-- A value is legal exactly if it is null, where it may be, or spells a declared word. -/
theorem problems_document_eq_nil_iff (h : x.kind.read (.map given) = .ok o) (v : Value) :
    x.problems (x.document given v) = [] ↔
      v = .null ∧ x.optional = true ∨ ∃ word ∈ x.registry.values, v.Spells word := by
  constructor
  · intro hnone
    by_cases hunset : v = .null ∧ x.optional = true
    · exact .inl hunset
    by_cases hword : ∃ text, word v = .ok text
    · obtain ⟨text, hword⟩ := hword
      rw [problems_document_text h hword] at hnone
      have hmem : text ∈ x.registry.values := by
        by_contra hmem
        rw [if_neg hmem] at hnone
        exact absurd hnone (List.cons_ne_nil _ _)
      obtain hspells | ⟨hnumber, rfl⟩ := word_eq_ok_iff.mp hword
      · exact .inr ⟨text, hmem, hspells⟩
      · exact absurd hmem (hnumber.display_not_mem x.registry_mem)
    · push Not at hword
      obtain ⟨_, -, -, hproblems⟩ := exists_read_document_eq_error h hunset hword
      exact absurd hnone hproblems
  · rintro (⟨rfl, hoptional⟩ | ⟨text, hmem, hspells⟩)
    · exact problems_document_null h hoptional
    · rw [problems_document_text h (word_eq_ok_iff.mpr (.inl hspells)), if_pos hmem]

/-- Whatever is put in a restricted field of a readable mapping, it is settled. -/
theorem settles_document (h : x.kind.read (.map given) = .ok o) (v : Value) :
    x.Settles (x.document given v) v where
  legal_iff := problems_document_eq_nil_iff h v
  stored hnone := by
    obtain ⟨others, hlength, -, hreads⟩ := exists_read_document h
    -- What is stored is what was read, or its default.
    have hstored {value : Value} (hvalue : x.read v = .ok value) :
        ∃ object, x.kind.read (x.document given v) = .ok object ∧
          (object.fillAndCheck x.kind.objectType.name).stopped = none ∧
          (object.fillAndCheck x.kind.objectType.name).object.field? x.name =
            some (Value.filledBy x.kind.defaults x.decl value) := by
      obtain ⟨hfield, hstopped, -⟩ :=
        fillAndCheck_holding (x.assigned given v) value hlength x.kind.objectType.name
      refine ⟨_, ?_, hstopped, hfield⟩
      rw [hreads, hvalue]
      rfl
    obtain ⟨rfl, hoptional⟩ | ⟨text, hmem, hspells⟩ :=
      (problems_document_eq_nil_iff h v).mp hnone
    · obtain ⟨object, hread, hstopped, hfield⟩ := hstored (read_null hoptional)
      refine ⟨object, _, hread, hstopped, hfield, ?_⟩
      cases x with
      | visibility => exact .inl ⟨"private", by decide, rfl⟩
      | licenseTemplate => exact .inr ⟨rfl, rfl, rfl⟩
      | permission => exact .inl ⟨"pull", by decide, rfl⟩
      | credentialType => cases hoptional
    · obtain ⟨object, hread, hstopped, hfield⟩ :=
        hstored (read_eq_ok_iff.mpr (.inr ⟨text, word_eq_ok_iff.mpr (.inl hspells), rfl⟩))
      exact ⟨object, _, hread, hstopped, hfield, .inl ⟨text, hmem, rfl⟩⟩
  number hnumber := by
    have hword := word_of_isNumber hnumber
    obtain ⟨others, hlength, -, hreads⟩ := exists_read_document h
    refine ⟨⟨x.holding (x.assigned given v) others (.str v.display), ?_,
      field?_holding hlength⟩, ?_⟩
    · rw [hreads, read_eq_ok_iff.mpr (.inr ⟨_, hword, rfl⟩)]
      rfl
    · rw [problems_document_text h hword, if_neg (hnumber.display_not_mem x.registry_mem), refusal,
        hnumber.quote_display]
      simp only [String.append_assoc]
      rfl
  unreadable hunset hspells hnumber := by
    have hword (text : String) : word v ≠ .ok text := fun h ↦
      (word_eq_ok_iff.mp h).elim (hspells text) fun h ↦ hnumber h.1
    obtain ⟨f, hf, hread, -⟩ := exists_read_document_eq_error h hunset hword
    exact ⟨f, hf, hread⟩

/-- In a mapping with a name, a truth value and a member that is a number are read as their texts
and refused as visibility. -/
theorem settles_document_numbers :
    (∃ o, visibility.kind.read (.map [(.str "name", .str "docs")]) = .ok o) ∧
    visibility.problems (visibility.document [(.str "name", .str "docs")] (.bool true)) =
      ["visibility: field value isn't among the allowed enum values (public, internal, private) " ++
        "(got 'True')"] ∧
    visibility.problems
        (visibility.document [(.str "name", .str "docs")] (.member "HTTPStatus" "OK" (.int 200))) =
      ["visibility: field value isn't among the allowed enum values (public, internal, private) " ++
        "(got '200')"] := by
  have hread : Repository.read (.map [(.str "name", .str "docs")]) = .ok { name := "docs" } := by
    decide +kernel
  obtain ⟨o, hobject⟩ : ∃ o, visibility.kind.read (.map [(.str "name", .str "docs")]) = .ok o :=
    ⟨_, congrArg (Except.map _) hread⟩
  have hdigits : (200 : Int).natAbs < tenTo Value.digitLimit := by decide +kernel
  exact ⟨⟨o, hobject⟩, ((settles_document hobject (.bool true)).number (.bool true)).2,
    ((settles_document hobject _).number (.memberInt _ _ hdigits)).2⟩

end RestrictedField
end RepoManifest
