import RepoManifest.Proofs.Distinct
import RepoManifest.Proofs.Value.Lookup
import RepoManifest.Validation.Membership

/-!
# What a registry decides

The registry of an enumerated type of words lists the distinct words in declared order. It accepts
exactly these words, as texts and as members of any enumerated type, and refuses every other value
with an error that lists all of them. There is an answer for every value, also for one that cannot
be a key.
-/

namespace RepoManifest

/-! ## Accepted values -/

namespace Registry

/-- A value with a text is that text, or a member with it. -/
theorem text?_eq_some_iff {x : Value} {word : String} :
    x.text? = some word ↔ x = .str word ∨ ∃ type name, x = .member type name (.str word) := by
  constructor
  · intro h
    unfold Value.text? at h
    split at h
    · obtain rfl := Option.some.inj h
      exact .inl rfl
    · obtain rfl := Option.some.inj h
      exact .inr ⟨_, _, rfl⟩
    · cases h
  · rintro (rfl | ⟨_, _, rfl⟩) <;> rfl

/-- A value that is not accepted is refused with all the words. -/
theorem validate_of_not_accepts {r : Registry} {x : Value} (h : r.validate x ≠ none) :
    r.validate x = some (.notAllowed r.values) := by
  rw [ne_eq, validate_eq_none_iff] at h
  rw [validate, if_neg h]

end Registry

/-- The wording of a refusal lists the allowed words in order, if there are any. -/
theorem FieldError.message_notAllowed (allowed : List String) :
    (notAllowed allowed).message = "field value isn't among the allowed enum values" ++
      if allowed = [] then "" else " (" ++ ", ".intercalate allowed ++ ")" := by
  cases allowed with
  | nil => exact (String.append_empty).symm
  | cons word rest =>
    rw [if_neg (List.cons_ne_nil word rest), message, String.append_assoc, String.append_assoc,
      String.append_assoc]
    · rfl
    · exact List.cons_ne_nil word rest

/-! ## Registries of enumerated types -/

namespace EnumType

/-- An enumerated type of words, with the words as values. -/
def asValues (type : EnumType String) : EnumType Value :=
  ⟨type.name, type.members.map fun (name, word) ↦ (name, .str word)⟩

/-- The words of a registry are the distinct words of its type, each where it occurs first. -/
theorem values_registry (type : EnumType String) :
    type.registry.values = (type.members.map (·.2)).eraseDups :=
  distinctBy_eq_eraseDups _

/-- Distinct words are found among values as they are among words. -/
theorem distinctBy_equal_map_str (words : List String) :
    distinctBy Value.equal (words.map .str) = (distinctBy (· == ·) words).map .str := by
  induction words with
  | nil => rfl
  | cons word rest ih =>
    rw [List.map_cons, distinctBy, ih, distinctBy, List.map_cons, List.filter_map]
    simp only [Function.comp_def, Value.equal_str]

/-- The words of a type whose members have names of their own make a registry of values. -/
theorem valueRegistry_asValues {type : EnumType String}
    (hnames : (type.members.map (·.1)).Nodup) :
    type.asValues.valueRegistry = .ok ⟨type.name, type.registry.values.map .str⟩ := by
  have hown : type.asValues.members.map (·.1) = type.members.map (·.1) := by
    rw [asValues, List.map_map]
    rfl
  have hwords : type.asValues.members.map (·.2) = (type.members.map (·.2)).map .str := by
    rw [asValues, List.map_map, List.map_map]
    rfl
  -- A type with one name for two members is refused before its words are looked at.
  have hdistinct : ¬ type.members.map (·.1) ≠ distinctBy (· == ·) (type.members.map (·.1)) := by
    rw [distinctBy_eq_eraseDups, eraseDups_eq_self hnames]
    exact not_not_intro rfl
  have hvalues : distinctBy Value.equal (type.asValues.members.map (·.2)) =
      type.registry.values.map .str := by
    rw [hwords, distinctBy_equal_map_str]
    rfl
  have hhashable : (type.registry.values.map Value.str).all Value.hashable = true := by
    simp [Value.hashable]
  simp only [valueRegistry, hown, if_neg hdistinct, hvalues, hhashable, if_true]
  rfl

end EnumType

/-- A registry of values that are words answers for every value as the registry of the words. -/
theorem ValueRegistry.validate_words (name : String) (r : Registry) (x : Value) :
    ValueRegistry.validate ⟨name, r.values.map .str⟩ x = .ok (r.validate x) := by
  have hfound (word : String) :
      ((r.values.map Value.str).any fun v ↦ v.equal (.str word)) = r.values.contains word := by
    simp only [List.any_map, Function.comp_def, Value.equal_str, List.contains_eq_any_beq,
      Bool.beq_comm]
  have hwords : (r.values.map Value.str).mapM Value.text? = some r.values := by
    rw [List.mapM_map]
    exact List.mapM_pure.trans (congrArg some (List.map_id' _))
  unfold validate Registry.validate Registry.accepts
  cases x.text? with
  | none => simp only [hwords, Bool.false_eq_true, if_false]
  | some word =>
    simp only [hfound, hwords]
    split <;> rfl

/-- A registry decides exactly the words of an enumerated type. -/
structure Registry.Decides (r : Registry) (type : EnumType String) : Prop where
  /-- It lists the distinct words in declared order. -/
  values_eq : r.values = (type.members.map (·.2)).eraseDups
  nodup_values : r.values.Nodup
  mem_values_iff : ∀ word, word ∈ r.values ↔ ∃ m ∈ type.members, m.2 = word
  /-- It accepts exactly them: as texts, or as members of any enumerated type. -/
  validate_eq_none_iff : ∀ x, r.validate x = none ↔
    ∃ word ∈ r.values, x = .str word ∨ ∃ type name, x = .member type name (.str word)
  /-- It refuses any other value with all of them. -/
  refused : ∀ x, r.validate x ≠ none → ∃ e, r.validate x = some e ∧ e.kind = .notAllowed ∧
    e.allowed = r.values ∧
    e.message = "field value isn't among the allowed enum values" ++
      if r.values = [] then "" else " (" ++ ", ".intercalate r.values ++ ")"
  accepts_iff : ∀ x, r.accepts x = true ↔ r.validate x = none
  accepts_word : ∀ word ∈ r.values, r.accepts (.str word) = true
  accepts_member : ∀ m ∈ type.members, r.accepts (.member type.name m.1 (.str m.2)) = true

namespace EnumType

/-- The registry of an enumerated type of words decides exactly these words. Made from the words as
values it is the same registry, and it has an answer for every value. -/
theorem decides_registry {type : EnumType String} (hnames : (type.members.map (·.1)).Nodup) :
    ∃ r, type.asValues.valueRegistry = .ok r ∧
      r.values = type.registry.values.map .str ∧
      (∀ x, r.validate x = .ok (type.registry.validate x)) ∧
      type.registry.Decides type := by
  have hmem (word : String) :
      word ∈ type.registry.values ↔ ∃ m ∈ type.members, m.2 = word := by
    rw [values_registry, List.mem_eraseDups, List.mem_map]
  refine ⟨_, valueRegistry_asValues hnames, rfl, ValueRegistry.validate_words _ _, {
    values_eq := values_registry type
    nodup_values := values_registry type ▸ nodup_eraseDups _
    mem_values_iff := hmem
    validate_eq_none_iff := fun x ↦ ?_
    refused := fun x hx ↦ ?_
    accepts_iff := fun x ↦ (Registry.validate_eq_none_iff _ x).symm
    accepts_word := fun word hword ↦ Registry.accepts_of_mem hword
    accepts_member := fun m hm ↦ ?_ }⟩
  · rw [Registry.validate_eq_none_iff, Registry.accepts_iff]
    simp only [Registry.text?_eq_some_iff]
  · exact ⟨_, Registry.validate_of_not_accepts hx, rfl, rfl, FieldError.message_notAllowed _⟩
  · exact Registry.accepts_iff.mpr ⟨m.2, (hmem m.2).mpr ⟨m, hm, rfl⟩, rfl⟩

/-- Sizes, one of which has two names. -/
def sizes : EnumType String := ⟨"Size", [("SMALL", "s"), ("LARGE", "l"), ("TINY", "s")]⟩

/-- The two names of a size stand for one word. A list, which cannot be a key, is refused like any
other value that is no size. -/
theorem decides_registry_sizes :
    (sizes.members.map (·.1)).Nodup ∧ sizes.registry.values = ["s", "l"] ∧
    sizes.registry.validate (.member "Size" "TINY" (.str "s")) = none ∧
    ∃ r, sizes.asValues.valueRegistry = .ok r ∧
      r.validate (.list []) = .ok (some (.notAllowed ["s", "l"])) := by
  have hnames : (sizes.members.map (·.1)).Nodup := by decide
  obtain ⟨r, hr, -, hvalidate, hdecides⟩ := decides_registry hnames
  have hvalues : sizes.registry.values = ["s", "l"] := by decide
  refine ⟨hnames, hvalues, (hdecides.validate_eq_none_iff _).mpr ⟨"s", ?_, .inr ⟨_, _, rfl⟩⟩, r, hr,
    ?_⟩
  · rw [hvalues]
    exact List.mem_cons_self ..
  · rw [hvalidate, ← hvalues]
    rfl

end EnumType
end RepoManifest
