import RepoManifest.Config.Load
import RepoManifest.Proofs.Reading.Outcome
import RepoManifest.Proofs.Value.Lookup

/-!
# Provider settings of a document

Reading provider settings is explained. The settings can be given by name exactly if every key of
the provider section is a keyword: resolving a setting only adds or replaces entries under names of
settings. For the same reason the unknown names are those of the section, in order.
-/

namespace RepoManifest

open Reading Value

/-- Reading a setting is explained if its value is, whatever the value. -/
theorem ProviderSettings.isExplained_setting {α : Type} {read : Value → Reading α}
    (h : ∀ v, (read v).IsExplained) (given : List (String × Value)) (env : Environment)
    (name : String) (default : α) :
    (setting given env name read default).IsExplained := by
  unfold setting
  split
  · exact isExplained_under (h _)
  · exact isExplained_ok default

/-- Reading provider settings is explained. -/
theorem ProviderSettings.isExplained_ofNamed (given : List (String × Value)) (env : Environment) :
    (ofNamed given env).IsExplained := by
  unfold ofNamed
  apply isExplained_withIssues
  refine isExplained_ap (isExplained_ap (isExplained_ok _) ?_) ?_
  · exact isExplained_setting isExplained_text given env _ _
  · exact isExplained_setting (isExplained_optional isExplained_text) given env _ _

/-- A name is known if it names a setting in any letter case, or is a keyword that says how settings
are gathered. -/
def ProviderSettings.Known (name : String) : Prop :=
  foldCase name ∈ names ∨ name ∈ gatheringKeywords

instance (name : String) : Decidable (ProviderSettings.Known name) :=
  inferInstanceAs (Decidable (foldCase name ∈ _ ∨ name ∈ _))

/-- The names of settings are in lower case. -/
theorem ProviderSettings.foldCase_of_mem_names {name : String} (h : name ∈ names) :
    foldCase name = name := by
  have hlower : ∀ n ∈ names, foldCase n = n := by decide +kernel
  exact hlower name h

/-- The names of settings are known. -/
theorem ProviderSettings.known_of_mem_names {name : String} (h : name ∈ names) : Known name := by
  refine .inl ?_
  rw [foldCase_of_mem_names h]
  exact h

/-- A text is not refused for being there. -/
theorem Reading.fault_ne_extra_of_mem_text {v : Value} {i : Issue} (h : i ∈ (text v).issues) :
    i.fault ≠ .extra := by
  have hfault : ∀ f : ReadFault, f ≠ .extra → i ∈ (fault f : Reading String).issues →
      i.fault ≠ .extra := by
    intro f hf hi
    obtain rfl := List.mem_singleton.mp hi
    exact hf
  unfold text at h
  split at h
  · cases h
  · cases h
  · split at h
    · cases h
    · exact hfault _ (by decide) h
  · exact hfault _ (by decide) h

/-- A setting is not refused for being there if no value of it is. -/
theorem ProviderSettings.fault_ne_extra_of_mem_setting {α : Type} {read : Value → Reading α}
    (hread : ∀ v, ∀ i ∈ (read v).issues, i.fault ≠ .extra) {given : List (String × Value)}
    {env : Environment} {name : String} {default : α} {i : Issue}
    (h : i ∈ (setting given env name read default).issues) : i.fault ≠ .extra := by
  unfold setting at h
  split at h
  · next v _ =>
    rw [issues_under] at h
    obtain ⟨found, hfound, rfl⟩ := List.mem_map.mp h
    exact hread v found hfound
  · cases h

/-- Exactly the unknown names are refused for being there. -/
theorem ProviderSettings.extra_mem_issues_ofNamed_iff {given : List (String × Value)}
    {env : Environment} {name : String} :
    (⟨[.name name], .extra⟩ : Issue) ∈ (ofNamed given env).issues ↔ name ∈ unknownNames given := by
  have hoptional : ∀ v, ∀ i ∈ (Reading.optional text v).issues, i.fault ≠ .extra := by
    intro v i hi
    unfold Reading.optional at hi
    split at hi
    · cases hi
    · rw [issues_map] at hi
      exact fault_ne_extra_of_mem_text hi
  simp only [ofNamed, issues_withIssues, issues_ap, List.mem_append]
  constructor
  · rintro (((hnone | hdomain) | horganization) | hunknown)
    · cases hnone
    · exact absurd rfl
        (fault_ne_extra_of_mem_setting (fun _ _ ↦ fault_ne_extra_of_mem_text) hdomain)
    · exact absurd rfl (fault_ne_extra_of_mem_setting hoptional horganization)
    · obtain ⟨n, hn, heq⟩ := List.mem_map.mp hunknown
      cases heq
      exact hn
  · intro hunknown
    exact .inr (List.mem_map_of_mem hunknown)

/-- A key that cannot be a keyword: one that is no word, or the receiver's name. -/
def ProviderSettings.NoKeyword (k : Value) : Prop :=
  k.text? = none ∨ k.text? = some receiver

/-- The entries of a mapping whose keys are words, by name. -/
def ProviderSettings.wordEntries (entries : List (Value × Value)) : List (String × Value) :=
  entries.filterMap fun entry ↦ entry.1.text?.map fun name ↦ (name, entry.2)

/-- Why keys are no keywords, if they are not. -/
def ProviderSettings.keywordFault? (keys : List Value) : Option KeywordFault :=
  if keys.any (·.text?.isNone) then some .notText
  else if keys.any (·.text? == some receiver) then some .receiver
  else none

/-- Entries have names if all their keys are words. -/
theorem ProviderSettings.mapM_text?_eq (entries : List (Value × Value)) :
    (entries.mapM fun (k, v) ↦ k.text?.map fun name ↦ (name, v)) =
      if (entries.map (·.1)).any (·.text?.isNone) then none else some (wordEntries entries) := by
  induction entries with
  | nil => rfl
  | cons entry rest ih =>
    rw [List.mapM_cons, ih]
    cases hk : entry.1.text? with
    | none => simp [hk]
    | some name =>
      by_cases hrest : (rest.map (·.1)).any (·.text?.isNone)
      · simp [hk, hrest]
      · simp [hk, hrest, wordEntries]

/-- Entries are given by name unless a key is no keyword. -/
theorem ProviderSettings.named_eq (entries : List (Value × Value)) :
    named entries =
      match keywordFault? (entries.map (·.1)) with
      | some fault => .error fault
      | none => .ok (wordEntries entries) := by
  have hreceiver : (entries.map (·.1)).any (·.text? == some receiver) =
      entries.any fun (k, _) ↦ k.text? == some receiver := List.any_map
  unfold named keywordFault?
  rw [mapM_text?_eq, hreceiver]
  by_cases htext : (entries.map (·.1)).any (·.text?.isNone)
  · simp only [htext, if_true]
  · simp only [htext, Bool.false_eq_true, if_false]
    split <;> rfl

/-- The names that are given are those of the entries whose keys are words. -/
theorem ProviderSettings.eq_wordEntries_of_named {entries : List (Value × Value)}
    {given : List (String × Value)} (h : named entries = .ok given) :
    given = wordEntries entries := by
  rw [named_eq] at h
  split at h
  · cases h
  · exact (Except.ok.inj h).symm

/-- Keys have no fault exactly if each of them is a keyword. -/
theorem ProviderSettings.keywordFault?_eq_none_iff {keys : List Value} :
    keywordFault? keys = none ↔ ∀ k ∈ keys, ¬ NoKeyword k := by
  have htext : keys.any (·.text?.isNone) = false ↔ ∀ k ∈ keys, k.text? ≠ none := by
    simp only [List.any_eq_false, Option.isNone_iff_eq_none, ne_eq]
  have hreceiver : keys.any (·.text? == some receiver) = false ↔
      ∀ k ∈ keys, k.text? ≠ some receiver := by
    simp only [List.any_eq_false, beq_iff_eq, ne_eq]
  have hboth : (∀ k ∈ keys, ¬ NoKeyword k) ↔
      keys.any (·.text?.isNone) = false ∧ keys.any (·.text? == some receiver) = false := by
    simp only [htext, hreceiver, NoKeyword, not_or, forall_and, ne_eq]
  rw [hboth, keywordFault?]
  cases keys.any (·.text?.isNone) <;> cases keys.any (·.text? == some receiver) <;> simp

/-- Keys in another order have the same fault, if any. -/
theorem ProviderSettings.keywordFault?_perm {ks ls : List Value} (h : ks.Perm ls) :
    keywordFault? ks = keywordFault? ls := by
  rw [keywordFault?, keywordFault?, h.any_eq, h.any_eq]

/-- Entries can be given by name exactly if no key has a fault. -/
theorem ProviderSettings.exists_named_iff_eq_none {entries : List (Value × Value)} :
    (∃ names, named entries = .ok names) ↔ keywordFault? (entries.map (·.1)) = none := by
  rw [named_eq]
  cases keywordFault? (entries.map (·.1)) <;> simp

/-- Entries can be given by name exactly if every key is a keyword. -/
theorem ProviderSettings.exists_named_iff {given : List (Value × Value)} :
    (∃ names, named given = .ok names) ↔ ∀ entry ∈ given, ¬ NoKeyword entry.1 := by
  rw [exists_named_iff_eq_none, keywordFault?_eq_none_iff]
  exact List.forall_mem_map

namespace Manifest

open ProviderSettings (names Known wordEntries keywordFault?)

variable {given : List (Value × Value)} {env : Environment} {file : List (String × Option String)}

/-! ## The resolved provider -/

/-- The entries of a provider section that are no settings under their exact names. -/
def otherEntries (given : List (Value × Value)) : List (Value × Value) :=
  given.filter fun (k, _) ↦ !names.any fun name ↦ k.equal (.str name)

/-- The settings of a provider section under their exact names. -/
def settingEntries (given : List (Value × Value)) (env : Environment)
    (file : List (String × Option String)) : List (Value × Value) :=
  names.filterMap fun name ↦ (settingValue? given env file name).map fun v ↦ (.str name, v)

/-- A key is no setting under its exact name exactly if its text is none of the names. -/
theorem not_any_names_iff {k : Value} :
    (!names.any fun name ↦ k.equal (.str name)) = true ↔ ∀ n ∈ names, k.text? ≠ some n := by
  simp only [Bool.not_eq_true', List.any_eq_false, equal_str_iff, ne_eq]

/-- The keys of the resolved provider have the fault of the keys of the section, if any. -/
theorem keywordFault?_resolvedProvider :
    keywordFault? ((resolvedProvider given env file).map (·.1)) =
      keywordFault? (given.map (·.1)) := by
  -- Resolving adds and removes no other keys than names of settings, which have no fault.
  have hany (p : Value → Bool) (hp : ∀ k, ∀ n ∈ names, k.text? = some n → p k = false) :
      ((resolvedProvider given env file).map (·.1)).any p = (given.map (·.1)).any p := by
    rw [Bool.eq_iff_iff, List.any_map, List.any_map, List.any_eq_true, List.any_eq_true]
    constructor
    · rintro ⟨entry, hmem, hentry⟩
      rcases List.mem_append.mp hmem with hother | hset
      · exact ⟨entry, (List.mem_filter.mp hother).1, hentry⟩
      · obtain ⟨n, hn, hvalue⟩ := List.mem_filterMap.mp hset
        obtain ⟨v, _, rfl⟩ := Option.map_eq_some_iff.mp hvalue
        rw [Function.comp_apply, hp (.str n) n hn rfl] at hentry
        cases hentry
    · rintro ⟨entry, hmem, hentry⟩
      refine ⟨entry, List.mem_append_left _ (List.mem_filter.mpr ⟨hmem, ?_⟩), hentry⟩
      rw [not_any_names_iff]
      intro n hn htext
      rw [Function.comp_apply, hp entry.1 n hn htext] at hentry
      cases hentry
  unfold keywordFault?
  rw [hany, hany]
  · intro k n hn htext
    have hne : n ≠ ProviderSettings.receiver := fun heq ↦ absurd (heq ▸ hn) (by decide)
    simpa [htext] using hne
  · intro k n _ htext
    simp [htext]

/-- The settings under their exact names are known. -/
theorem filter_words_otherEntries (given : List (Value × Value)) :
    (words (otherEntries given)).filter (fun n ↦ ¬ Known n) =
      (words given).filter fun n ↦ ¬ Known n := by
  induction given with
  | nil => rfl
  | cons entry rest ih =>
    by_cases hother : (!names.any fun n ↦ entry.1.equal (.str n)) = true
    · have hkept : otherEntries (entry :: rest) = entry :: otherEntries rest :=
        List.filter_cons_of_pos hother
      rw [hkept, words_cons, words_cons, List.filter_append, List.filter_append, ih]
    · have hdropped : otherEntries (entry :: rest) = otherEntries rest :=
        List.filter_cons_of_neg hother
      rw [not_any_names_iff] at hother
      push Not at hother
      obtain ⟨n, hn, hk⟩ := hother
      have hknown : [n].filter (fun n ↦ ¬ Known n) = [] := by
        simpa using ProviderSettings.known_of_mem_names hn
      rw [hdropped, ih, words_cons, hk, List.filter_append, Option.toList_some, hknown,
        List.nil_append]

/-- The unknown names of the resolved provider are the unknown words of the section. -/
theorem unknownNames_resolvedProvider :
    ProviderSettings.unknownNames (wordEntries (resolvedProvider given env file)) =
      (words given).filter fun n ↦ ¬ Known n := by
  have hwords : (wordEntries (resolvedProvider given env file)).map (·.1) =
      words (otherEntries given) ++ words (settingEntries given env file) := by
    have hkeys (entries : List (Value × Value)) :
        (wordEntries entries).map (·.1) = words entries := by
      rw [wordEntries, List.map_filterMap, words]
      congr 1
      funext entry
      cases entry.1.text? <;> rfl
    rw [hkeys]
    exact List.filterMap_append
  have hunknown : (fun n ↦ (foldCase n ∉ names && n ∉ ProviderSettings.gatheringKeywords : Bool)) =
      fun n ↦ decide (¬ Known n) := by
    funext n
    simp [Known]
  have hset : (words (settingEntries given env file)).filter (fun n ↦ ¬ Known n) = [] := by
    rw [List.filter_eq_nil_iff]
    intro n hmem
    obtain ⟨entry, hentry, htext⟩ := List.mem_filterMap.mp hmem
    obtain ⟨m, hm, hvalue⟩ := List.mem_filterMap.mp hentry
    obtain ⟨v, _, rfl⟩ := Option.map_eq_some_iff.mp hvalue
    obtain rfl : m = n := Option.some.inj htext
    simpa using ProviderSettings.known_of_mem_names hm
  rw [ProviderSettings.unknownNames, hwords, hunknown, List.filter_append, hset, List.append_nil,
    filter_words_otherEntries]

/-- The resolved provider can be given by name exactly if every key of the section is a keyword. -/
theorem exists_named_resolvedProvider_iff (env : Environment)
    (file : List (String × Option String)) :
    (∃ names, ProviderSettings.named (resolvedProvider given env file) = .ok names) ↔
      ∀ entry ∈ given, ¬ ProviderSettings.NoKeyword entry.1 := by
  rw [ProviderSettings.exists_named_iff_eq_none, keywordFault?_resolvedProvider,
    ← ProviderSettings.exists_named_iff_eq_none, ProviderSettings.exists_named_iff]

/-- The unknown names of the resolved provider are those of the section. -/
theorem mem_unknownNames_resolvedProvider_iff {named : List (String × Value)}
    (h : ProviderSettings.named (resolvedProvider given env file) = .ok named) {name : String} :
    name ∈ ProviderSettings.unknownNames named ↔
      (∃ entry ∈ given, entry.1.text? = some name) ∧ ¬ Known name := by
  rw [ProviderSettings.eq_wordEntries_of_named h, unknownNames_resolvedProvider, List.mem_filter,
    words, List.mem_filterMap, decide_eq_true_iff]

end Manifest
end RepoManifest
