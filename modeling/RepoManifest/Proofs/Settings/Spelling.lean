import RepoManifest.Proofs.Reading.Reordered
import RepoManifest.Proofs.Settings.Precedence

/-!
# Settings under several spellings

The provider section may give a setting under its name in another letter case. Such a variant counts
if the setting has no value under its exact name, neither in the document nor in the environment,
and of several variants the first one counts. Where that happens for no setting, reordering the keys
of a provider section changes neither its settings nor what is wrong with them.
-/

namespace RepoManifest

open Reading Value

namespace ProviderSettings

variable {name : String}

/-- A word is looked up among names as it is among keys. -/
theorem lookup_wordEntries (entries : List (Value × Value)) (name : String) :
    (wordEntries entries).lookup name = Value.get? entries name := by
  induction entries with
  | nil => rfl
  | cons entry rest ih =>
    obtain ⟨k, v⟩ := entry
    rw [Value.get?_cons, ← ih]
    cases hk : k.text? with
    | none => simp [wordEntries, hk]
    | some word =>
      by_cases hword : word = name
      · simp [wordEntries, hk, hword]
      · simp [wordEntries, hk, hword, List.lookup_cons, beq_false_of_ne (Ne.symm hword)]

/-! ## Variants -/

/-- Whether a key gives a setting in another letter case. -/
def isVariant (name : String) (key : Value) : Bool :=
  key.text?.any fun n ↦ foldCase n == name && n != name

/-- A key is a variant exactly if it has a text that is the name in another letter case. -/
theorem isVariant_iff {k : Value} :
    isVariant name k = true ↔ ∃ n, k.text? = some n ∧ foldCase n = name ∧ n ≠ name := by
  cases hk : k.text? <;> simp [isVariant, hk]

/-- The value of the first variant of a setting. -/
def variant? (entries : List (Value × Value)) (name : String) : Option Value :=
  (entries.find? fun entry ↦ isVariant name entry.1).map (·.2)

end ProviderSettings

namespace Manifest

open ProviderSettings (names wordEntries isVariant variant?)

variable {given es gs : List (Value × Value)} {env : Environment}
  {file : List (String × Option String)} {name : String}

/-! ## The resolved provider -/

/-- Among the entries that are no settings under their exact names, a setting is first found under
the first of its variants. -/
theorem find?_otherEntries (hname : name ∈ names) :
    ((wordEntries (otherEntries given)).find? fun (n, _) ↦ foldCase n == name).map (·.2) =
      variant? given name := by
  have hvariant : (fun entry : Value × Value ↦
      decide ((!names.any fun n ↦ entry.1.equal (.str n)) = true ∧
        ((entry.1.text?.map fun n ↦ (n, entry.2)).any fun (n, _) ↦ foldCase n == name) = true)) =
      fun entry ↦ isVariant name entry.1 := by
    funext entry
    rw [Bool.eq_iff_iff, decide_eq_true_iff, not_any_names_iff,
      ProviderSettings.isVariant_iff]
    cases hk : entry.1.text? with
    | none => simp
    | some n =>
      simp only [Option.map_some, Option.any_some, beq_iff_eq, Option.some.injEq, exists_eq_left']
      constructor
      · rintro ⟨hother, hfold⟩
        exact ⟨hfold, fun heq ↦ hother name hname (congrArg some heq)⟩
      · rintro ⟨hfold, hne⟩
        refine ⟨fun m hm heq ↦ hne ?_, hfold⟩
        obtain rfl := Option.some.inj heq
        exact (ProviderSettings.foldCase_of_mem_names hm).symm.trans hfold
  rw [wordEntries, otherEntries, List.find?_filterMap, List.find?_filter, hvariant, variant?]
  cases hfound : given.find? fun entry ↦ isVariant name entry.1 with
  | none => rfl
  | some entry =>
    have hentry : isVariant name entry.1 = true := by simpa using List.find?_some hfound
    obtain ⟨n, htext, _⟩ := ProviderSettings.isVariant_iff.mp hentry
    simp [htext]

/-- A setting of the resolved provider has the value under its exact name, from the document or else
from the environment, or else that of its first variant. -/
theorem given?_resolvedProvider (hname : name ∈ names) :
    ProviderSettings.given? (wordEntries (resolvedProvider given env file)) name =
      (settingValue? given env file name).or (variant? given name) := by
  have happend : wordEntries (resolvedProvider given env file) =
      wordEntries (otherEntries given) ++ wordEntries (settingEntries given env file) :=
    List.filterMap_append
  have hother : Value.get? (otherEntries given) name = none := by
    rw [← Option.not_isSome_iff_eq_none, isSome_get?_iff]
    rintro ⟨entry, hmem, htext⟩
    exact not_any_names_iff.mp (List.mem_filter.mp hmem).2 name hname htext
  rw [ProviderSettings.given?, happend, List.lookup_append, ProviderSettings.lookup_wordEntries,
    hother, Option.none_or, wordEntries_settingEntries, lookup_filterMap, if_pos hname,
    Option.orElse_eq_or]
  cases hv : settingValue? given env file name with
  | some v => rfl
  | none =>
    rw [Option.none_or, Option.none_or, List.find?_append, find?_foldCase_eq_none hv,
      Option.or_none, find?_otherEntries hname]

/-! ## Reordered keys -/

/-- Whether no setting is left to several variants: a setting without a value under its exact name
is given under at most one other spelling. -/
def Unambiguous (given : List (Value × Value)) (env : Environment)
    (file : List (String × Option String)) : Prop :=
  ∀ name ∈ names, settingValue? given env file name = none →
    ∀ e ∈ given, ∀ f ∈ given, isVariant name e.1 = true → isVariant name f.1 = true →
      e.1.text? = f.1.text?

/-- A section with no other keys than the exact names leaves no setting to variants. -/
theorem unambiguous_of_onlyNames (h : OnlyNames names given) (env : Environment)
    (file : List (String × Option String)) : Unambiguous given env file := by
  intro name _ _ e he f _ hvariant _
  obtain ⟨n, hn, htext⟩ := h e he
  obtain ⟨m, hm, hfold, hne⟩ := ProviderSettings.isVariant_iff.mp hvariant
  obtain rfl : n = m := Option.some.inj (htext.symm.trans hm)
  exact absurd ((ProviderSettings.foldCase_of_mem_names hn).symm.trans hfold) hne

/-- Reordered sections give a setting reordered values under its exact name, or none. -/
theorem rel_settingValue? (h : Reordered (.map es) (.map gs)) (name : String) :
    Option.Rel Reordered (settingValue? es env file name) (settingValue? gs env file name) := by
  have hvalue := h.rel_get? name
  unfold settingValue?
  generalize Value.get? es name = v at hvalue ⊢
  generalize Value.get? gs name = w at hvalue ⊢
  cases hvalue with
  | none => exact Reordered.rel_self _
  | some hvw =>
    cases hvw with
    | same => exact Reordered.rel_self _
    | list items => exact .some (.list items)
    | tuple items => exact .some (.tuple items)
    | map distinct order values => exact .some (.map distinct order values)

/-- Reordered sections give a setting reordered values, or none, if it is not left to several
variants. -/
theorem rel_given? (h : Reordered (.map es) (.map gs)) (hone : Unambiguous es env file)
    (hname : name ∈ names) :
    Option.Rel Reordered
      (ProviderSettings.given? (wordEntries (resolvedProvider es env file)) name)
      (ProviderSettings.given? (wordEntries (resolvedProvider gs env file)) name) := by
  have hexact := @rel_settingValue? es gs env file h name
  rw [given?_resolvedProvider hname, given?_resolvedProvider hname]
  cases hes : settingValue? es env file name with
  | some v =>
    rw [hes] at hexact
    generalize settingValue? gs env file name = w at hexact ⊢
    cases hexact with
    | some hvw => exact .some hvw
  | none =>
    rw [hes] at hexact
    generalize settingValue? gs env file name = w at hexact ⊢
    cases hexact
    rw [Option.none_or, Option.none_or]
    -- Only now are the variants searched, and there is at most one.
    refine h.rel_find? fun hwords e he f hf hevariant hfvariant ↦ ?_
    obtain ⟨n, htext, _⟩ := ProviderSettings.isVariant_iff.mp hevariant
    have hsame := hone name hname hes e he f hf hevariant hfvariant
    exact eq_of_text?_eq hwords he hf htext (hsame.symm.trans htext)

/-- A setting of reordered sections is read alike. -/
theorem alike_setting {α : Type} {read : Value → Reading α} (hread : IgnoresOrder read)
    (h : Reordered (.map es) (.map gs)) (hone : Unambiguous es env file) (hname : name ∈ names)
    (default : α) :
    Alike
      (ProviderSettings.setting (wordEntries (resolvedProvider es env file)) env name read default)
      (ProviderSettings.setting (wordEntries (resolvedProvider gs env file)) env name read
        default) := by
  have hgiven := rel_given? h hone hname
  unfold ProviderSettings.setting ProviderSettings.source?
  generalize ProviderSettings.given? _ name = v at hgiven ⊢
  generalize ProviderSettings.given? _ name = w at hgiven ⊢
  cases hgiven with
  | none => exact .refl _
  | some hvw => exact .under _ (hread _ _ hvw)

/-- The settings of reordered sections are read alike. -/
theorem alike_ofNamed (h : Reordered (.map es) (.map gs)) (hone : Unambiguous es env file) :
    Alike (ProviderSettings.ofNamed (wordEntries (resolvedProvider es env file)) env)
      (ProviderSettings.ofNamed (wordEntries (resolvedProvider gs env file)) env) := by
  unfold ProviderSettings.ofNamed
  rw [unknownNames_resolvedProvider, unknownNames_resolvedProvider]
  apply Alike.withIssues
  · apply Alike.ap
    · exact .ap (.ok _) (alike_setting ignoresOrder_text h hone (by decide) _)
    · exact alike_setting (ignoresOrder_optional ignoresOrder_text) h hone (by decide) _
  · exact (h.words_perm.filter _).map _

end Manifest
end RepoManifest
