import RepoManifest.Proofs.Resource.Completion

/-!
# Filling and checking unchecked objects

The fields of an object may hold any values. Filling does nothing the second time, and never stops
on an object whose list fields hold lists of their kinds. So filling and checking an object has the
result of checking it alone, leaves it filled in any case, and can be repeated.
-/

namespace RepoManifest

namespace Value

/-! ## Filling twice -/

section

variable {defaults : List (String × Value)} {names : List String} {fields : List FieldDecl}

/-- Defaults that are no nulls leave nothing unset. -/
theorem unsetNames_fillFields (hdefaults : ∀ entry ∈ defaults, entry.2 ≠ .null)
    (values : List Value) :
    unsetNames defaults fields (fillFields defaults fields values) = [] := by
  induction fields generalizing values with
  | nil => cases values <;> rfl
  | cons f fields ih =>
    cases values with
    | nil => rfl
    | cons v values =>
      rcases fillFields_cases defaults f v with ⟨d, rfl, hd⟩ | hv
      · have hset : d ≠ .null := hdefaults _ (mem_of_lookup hd)
        rw [fillFields_null hd, unsetNames_keep (.inl hset), ih]
      · rw [fillFields_keep hv, unsetNames_keep hv, ih]

/-- Fields that were set are not set again. -/
theorem fillFields_fillFields (hdefaults : ∀ entry ∈ defaults, entry.2 ≠ .null)
    (values : List Value) :
    fillFields defaults fields (fillFields defaults fields values) =
      fillFields defaults fields values := by
  induction fields generalizing values with
  | nil => cases values <;> rfl
  | cons f fields ih =>
    cases values with
    | nil => rfl
    | cons v values =>
      rcases fillFields_cases defaults f v with ⟨d, rfl, hd⟩ | hv
      · have hset : d ≠ .null := hdefaults _ (mem_of_lookup hd)
        rw [fillFields_null hd, fillFields_keep (.inl hset), ih]
      · rw [fillFields_keep hv, fillFields_keep hv, ih]

/-- Setting defaults and entering fields do not touch the same fields, so their order does not
matter. -/
theorem filledFields_fillFields
    (hapart : ∀ f ∈ fields, f.name ∈ names → defaults.lookup f.name = none) (values : List Value) :
    filledFields names fields (fillFields defaults fields values) =
      (fillFields defaults fields (filledFields names fields values).1,
        (filledFields names fields values).2) := by
  induction fields generalizing values with
  | nil => rw [filledFields_nil, filledFields_nil]
  | cons f fields ih =>
    rw [List.forall_mem_cons] at hapart
    obtain ⟨hf, hapart⟩ := hapart
    cases values with
    | nil => rfl
    | cons v values =>
      by_cases hname : f.name ∈ names
      · rw [fillFields_keep (.inr (hf hname)), filledFields_entered hname,
          filledFields_entered hname, ih hapart]
        cases v.filledIn.2 <;> exact congrArg (·, _) (fillFields_keep (.inr (hf hname))).symm
      · rcases fillFields_cases defaults f v with ⟨d, rfl, hd⟩ | hv
        · rw [fillFields_null hd, filledFields_skip hname, filledFields_skip hname, ih hapart,
            fillFields_null hd]
        · rw [fillFields_keep hv, filledFields_skip hname, filledFields_skip hname, ih hapart,
            fillFields_keep hv]

end

mutual

/-- Filling a second time changes nothing, and stops for the same reason if it stopped. -/
theorem filled_filled : ∀ v : Value, v.filled.1.filled = v.filled
  | .object type assigned values => by
    by_cases hfillable : ∃ kind, ResourceKind.ofType? type = some kind ∧ kind.fillable = true
    · obtain ⟨kind, hkind, hfillable⟩ := hfillable
      have htype := ResourceKind.eq_objectType hkind
      have hagain := filledFields_filledFields kind.entered type.fields values
      have hset := kind.defaults_ne_null
      have hapart : ∀ f ∈ type.fields, f.name ∈ kind.entered →
          kind.defaults.lookup f.name = none := by
        intro f hf hname
        rw [htype] at hf
        exact Option.isNone_iff_eq_none.mp (kind.entered_fits f hf hname).2
      rw [filled_object hkind hfillable, filled_object hkind hfillable,
        filledFields_fillFields hapart, hagain, fillFields_fillFields hset,
        unsetNames_fillFields hset, List.filter_nil, List.append_nil]
    · have hself := fun kind hkind ↦
        Bool.eq_false_iff.mpr fun hyes ↦ hfillable ⟨kind, hkind, hyes⟩
      rw [filled_object_eq_self hself, filled_object_eq_self hself]
  | .null | .bool _ | .int _ | .double _ | .str _ | .bytes _ | .date _ | .datetime _ _ | .tuple _
  | .list _ | .set _ | .map _ | .member _ _ _ => rfl

/-- Entering fields a second time changes nothing. -/
theorem filledFields_filledFields (names : List String) :
    ∀ (fields : List FieldDecl) (values : List Value),
      filledFields names fields (filledFields names fields values).1 =
        filledFields names fields values
  | f :: fields, v :: values => by
    have hrest := filledFields_filledFields names fields values
    by_cases hname : f.name ∈ names
    · have hv := filledIn_filledIn v
      rw [filledFields_entered hname]
      cases hstop : v.filledIn.2 with
      | none =>
        rw [filledFields_entered hname]
        simp only [hv, hstop, hrest]
      | some misuse =>
        rw [filledFields_entered hname]
        simp only [hv, hstop]
    · rw [filledFields_skip hname, filledFields_skip hname, hrest]
  | [], values => by rw [filledFields_nil, filledFields_nil]
  | _ :: _, [] => rfl

/-- Filling what a field holds a second time changes nothing. -/
theorem filledIn_filledIn : ∀ v : Value, v.filledIn.1.filledIn = v.filledIn
  | .list items => congrArg (fun r ↦ (Value.list r.1, r.2)) (filledItems_filledItems items)
  | .tuple items => congrArg (fun r ↦ (Value.tuple r.1, r.2)) (filledItems_filledItems items)
  | .null | .bool _ | .int _ | .double _ | .str _ | .bytes _ | .date _ | .datetime _ _ | .set _
  | .map _ | .member _ _ _ | .object _ _ _ => rfl

/-- Filling items a second time changes nothing. -/
theorem filledItems_filledItems : ∀ items : List Value,
    filledItems (filledItems items).1 = filledItems items
  | [] => rfl
  | v :: rest => by
    have hv := filled_filled v
    have hrest := filledItems_filledItems rest
    rw [filledItems_cons]
    cases hstop : v.filled.2 with
    | none =>
      rw [filledItems_cons]
      simp only [hv, hstop, hrest]
    | some misuse =>
      rw [filledItems_cons]
      simp only [hv, hstop]

end

/-! ## Filling and checking -/

/-- A value is an object of a kind. -/
def IsOf (v : Value) (kind : ResourceKind) : Prop :=
  ∃ assigned values, v = .object kind.objectType assigned values

/-- An instance of a kind: its list fields hold lists of objects of their kinds, and its other
fields hold any values. -/
def IsInstance (v : Value) (kind : ResourceKind) : Prop :=
  v.IsOf kind ∧ ∀ field ∈ v.fields, ∀ item, kind.itemKind? field.1.name = some item →
    ∃ items, field.2 = .list items ∧ ∀ x ∈ items, x.IsOf item

/-- Filling a value is safe: it ends, only null fields with a standard value change, a second time
nothing changes, and a walk finds the same before and after. -/
structure FilledSafely (v : Value) : Prop where
  ends : v.filled.2 = none
  completes : Completion v v.filled.1
  once : v.filled.1.filled = (v.filled.1, none)
  neutral : ∀ (w : Validator) (root : FieldPath),
    w.appendFindings (root.map Segment.toValue) v.filled.1 =
      w.appendFindings (root.map Segment.toValue) v

/-- Nothing stops the entering of fields if nothing stops it in one of them. -/
theorem filledFields_ends {names : List String} {fields : List FieldDecl} {values : List Value}
    (h : ∀ field ∈ fields.zip values, field.1.name ∈ names → field.2.filledIn.2 = none) :
    (filledFields names fields values).2 = none := by
  induction fields generalizing values with
  | nil => rw [filledFields_nil]
  | cons f fields ih =>
    cases values with
    | nil => rfl
    | cons v values =>
      rw [List.zip_cons_cons, List.forall_mem_cons] at h
      have hrest := ih h.2
      by_cases hname : f.name ∈ names
      · rw [filledFields_entered hname, h.1 hname]
        exact hrest
      · rw [filledFields_skip hname]
        exact hrest

/-- Nothing stops the filling of items that can be filled one by one. -/
theorem filledItems_ends {items : List Value} (h : ∀ v ∈ items, v.filled.2 = none) :
    (filledItems items).2 = none := by
  induction items with
  | nil => rfl
  | cons v rest ih =>
    rw [List.forall_mem_cons] at h
    rw [filledItems_cons, h.1]
    exact ih h.2

/-- Nothing stops the filling of an object of a kind without entered fields. -/
theorem IsOf.filled_ends {v : Value} {kind : ResourceKind} (h : v.IsOf kind)
    (hfillable : kind.fillable = true) (hentered : kind.entered = []) : v.filled.2 = none := by
  obtain ⟨assigned, values, rfl⟩ := h
  rw [filled_object kind.ofType?_type hfillable, hentered]
  exact filledFields_ends fun field _ hname ↦ by cases hname

/-- Nothing stops the filling of an instance. -/
theorem IsInstance.filled_ends {v : Value} {kind : ResourceKind} (h : v.IsInstance kind)
    (hfillable : kind.fillable = true) : v.filled.2 = none := by
  obtain ⟨⟨assigned, values, rfl⟩, hitems⟩ := h
  rw [filled_object kind.ofType?_type hfillable]
  refine filledFields_ends fun field hfield hname ↦ ?_
  obtain ⟨item, hitem, hitemFillable, hitemEntered⟩ := ResourceKind.itemKind_of_entered hname
  obtain ⟨items, hlist, hof⟩ := hitems field hfield item hitem
  rw [hlist]
  exact filledItems_ends fun x hx ↦ (hof x hx).filled_ends hitemFillable hitemEntered

/-- Filling an instance is safe. -/
theorem IsInstance.filledSafely {v : Value} {kind : ResourceKind} (h : v.IsInstance kind)
    (hfillable : kind.fillable = true) : v.FilledSafely := by
  have hends := h.filled_ends hfillable
  refine ⟨hends, completion_filled v, ?_, fun w root ↦ ?_⟩
  · rw [filled_filled, ← hends]
  · rw [Validator.appendFindings_eq_recordAll, Validator.appendFindings_eq_recordAll,
      findings_of_completion root (completion_filled v)]

/-- An object of a kind can be filled if the kind can. -/
theorem IsOf.fillable_eq {v : Value} {kind : ResourceKind} (h : v.IsOf kind) :
    v.fillable = kind.fillable := by
  obtain ⟨assigned, values, rfl⟩ := h
  simp [Value.fillable, kind?, kind.ofType?_type]

/-- Filling keeps the kind. -/
theorem IsOf.filled {v : Value} {kind : ResourceKind} (h : v.IsOf kind) : v.filled.1.IsOf kind := by
  obtain ⟨assigned, values, rfl⟩ := h
  by_cases hfillable : kind.fillable = true
  · rw [filled_object kind.ofType?_type hfillable]
    exact ⟨_, _, rfl⟩
  · have hself : ∀ k, ResourceKind.ofType? kind.objectType = some k → k.fillable = false := by
      intro k hk
      rw [kind.ofType?_type, Option.some.injEq] at hk
      rw [← hk]
      exact Bool.eq_false_iff.mpr hfillable
    rw [filled_object_eq_self hself]
    exact ⟨_, _, rfl⟩

/-- A check of an object is a walk from its root. -/
theorem exists_walk_checkObject (name : String) (v : Value) :
    ∃ w, ({ name := name } : Validator).appendFindings [] v = .ok w ∧
      v.checkObject name = w.check :=
  ⟨_, Validator.appendFindings_eq_recordAll [] _ v, rfl⟩

/-- Completing an object does not change the result of checking it. -/
theorem checkObject_of_completion {v v' : Value} (h : Completion v v') (name : String) :
    v'.checkObject name = v.checkObject name := by
  rw [checkObject, checkObject, findings_of_completion [] h]

/-- Filling and checking an object that filling ends on: the check is that of the filled object. -/
theorem fillAndCheck_of_ends {v : Value} (name : String) (hfillable : v.fillable = true)
    (hends : v.filled.2 = none) :
    v.fillAndCheck name =
      ⟨v.filled.1, none, v.filled.1.checkObject name, [fillRecord name]⟩ := by
  rw [fillAndCheck, if_pos hfillable]
  split
  · next hfilled =>
    rw [hfilled] at hends
    cases hends
  · next hfilled => rw [hfilled]

/-- Filling an instance is safe, and filling and checking it is checking it: the result is that of a
walk through the object as it was. The object is left filled in any case, and doing it again has the
same outcome. -/
theorem fillAndCheck_of_isInstance {v : Value} {kind : ResourceKind} (h : v.IsInstance kind)
    (name : String) :
    (kind.fillable = true → v.FilledSafely) ∧
      (∃ w, ({ name := name } : Validator).appendFindings [] v = .ok w ∧
        v.checkObject name = w.check) ∧
      (v.fillAndCheck name).stopped = none ∧
      (v.fillAndCheck name).check = v.checkObject name ∧
      (v.fillAndCheck name).object = (if kind.fillable then v.filled.1 else v) ∧
      (v.fillAndCheck name).object.fillAndCheck name = v.fillAndCheck name := by
  refine ⟨h.filledSafely, exists_walk_checkObject name v, ?_⟩
  cases hfillable : kind.fillable with
  | true =>
    have hsafe := h.filledSafely hfillable
    have hagain : v.filled.1.filled.2 = none := by rw [hsafe.once]
    have houtcome := fillAndCheck_of_ends name (h.1.fillable_eq.trans hfillable) hsafe.ends
    have hsecond := fillAndCheck_of_ends name (h.1.filled.fillable_eq.trans hfillable) hagain
    rw [houtcome]
    refine ⟨rfl, checkObject_of_completion hsafe.completes name, rfl, ?_⟩
    rw [hsecond, hsafe.once]
  | false =>
    have houtcome : v.fillAndCheck name = ⟨v, none, v.checkObject name, []⟩ := by
      rw [fillAndCheck, h.1.fillable_eq, hfillable]
      rfl
    rw [houtcome]
    exact ⟨rfl, rfl, rfl, houtcome⟩

/-- An entry with no name, a team in place of its description, a visibility that is no word, and an
unset key and team. -/
def oddEntry : Value :=
  .object RepositoryEntry.objectType []
    [.null, .object TeamAccess.objectType [] [.null, .null], .null, .int 3, .null,
      .list [.object DeployKey.objectType [] [.null, .null, .null, .str "password"]],
      .list [.object TeamAccess.objectType [] [.str "ops", .null]]]

/-- The odd entry is an instance, so it is filled safely and found to have what is wrong with it. -/
theorem fillAndCheck_oddEntry :
    oddEntry.IsInstance .entry ∧ oddEntry.FilledSafely ∧
      (oddEntry.fillAndCheck "RepositoryEntry").check = oddEntry.checkObject "RepositoryEntry" ∧
      ∃ refused, oddEntry.checkObject "RepositoryEntry" = .error refused := by
  have hinstance : oddEntry.IsInstance .entry := by
    refine ⟨⟨_, _, rfl⟩, fun field hfield item hitem ↦ ?_⟩
    simp only [oddEntry, fields, RepositoryEntry.objectType, Repository.fieldDecls,
      List.cons_append, List.nil_append, List.zip_cons_cons, List.zip_nil_left, List.mem_cons,
      List.not_mem_nil, or_false] at hfield
    rcases hfield with rfl | rfl | rfl | rfl | rfl | rfl | rfl
    · cases hitem
    · cases hitem
    · cases hitem
    · cases hitem
    · cases hitem
    · obtain rfl := Option.some.inj hitem
      exact ⟨_, rfl, fun x hx ↦ ⟨_, _, List.mem_singleton.mp hx⟩⟩
    · obtain rfl := Option.some.inj hitem
      exact ⟨_, rfl, fun x hx ↦ ⟨_, _, List.mem_singleton.mp hx⟩⟩
  have hoddEntry := fillAndCheck_of_isInstance hinstance "RepositoryEntry"
  exact ⟨hinstance, hoddEntry.1 rfl, hoddEntry.2.2.2.1, _, rfl⟩

end Value
end RepoManifest
