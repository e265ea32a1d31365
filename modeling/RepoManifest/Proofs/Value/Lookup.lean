import RepoManifest.Value.Equality

/-!
# Looking up words in mappings

A key equals a word exactly if the word is its text, so a word finds the first entry whose key has
that text. Inserting an entry under a word changes what that word finds, and nothing else.
-/

namespace RepoManifest.Value

/-- A key equals a word exactly if that word is its text. -/
theorem equal_str_iff {k : Value} {s : String} :
    k.equal (.str s) = true ↔ k.text? = some s := by
  cases k with
  | member type name v => cases v <;> simp [equal, equalScalar, text?, integer?]
  | _ => simp [equal, equalScalar, text?, integer?]

/-- A key is another key than a word exactly if the word is not its text. -/
theorem equal_str_eq_false_iff {k : Value} {s : String} :
    k.equal (.str s) = false ↔ k.text? ≠ some s := by
  rw [← Bool.not_eq_true, equal_str_iff]

/-- A word finds the first entry whose key has that text. -/
theorem get?_cons (k v : Value) (rest : List (Value × Value)) (name : String) :
    get? ((k, v) :: rest) name = if k.text? = some name then some v else get? rest name := by
  by_cases h : k.text? = some name
  · simp [get?, lookup?, equal_str_iff.mpr h, h]
  · simp [get?, lookup?, equal_str_eq_false_iff.mpr h, h]

/-- A word that finds nothing in front is looked for behind. -/
theorem get?_append (front back : List (Value × Value)) (name : String) :
    get? (front ++ back) name = (get? front name).or (get? back name) := by
  simp only [get?, lookup?, List.find?_append, Option.map_or]

/-- A word finds an entry exactly if some key has that text. -/
theorem isSome_get?_iff {entries : List (Value × Value)} {name : String} :
    (get? entries name).isSome = true ↔ ∃ entry ∈ entries, entry.1.text? = some name := by
  simp only [get?, lookup?, Option.isSome_map, List.find?_isSome, equal_str_iff]

/-- What a word finds is the value of an entry. -/
theorem exists_mem_of_get? {entries : List (Value × Value)} {name : String} {v : Value}
    (h : get? entries name = some v) : ∃ k, k.text? = some name ∧ (k, v) ∈ entries := by
  obtain ⟨⟨k, w⟩, hfind, rfl⟩ := Option.map_eq_some_iff.mp h
  have hk : k.equal (.str name) = true := by simpa using List.find?_some hfind
  exact ⟨k, equal_str_iff.mp hk, List.mem_of_find?_eq_some hfind⟩

/-- The words among the keys of a mapping. -/
def words (entries : List (Value × Value)) : List String :=
  entries.filterMap fun entry ↦ entry.1.text?

/-- The word of an entry comes before the words of later ones. -/
theorem words_cons (entry : Value × Value) (rest : List (Value × Value)) :
    words (entry :: rest) = entry.1.text?.toList ++ words rest := by
  cases h : entry.1.text? with
  | none => exact List.filterMap_cons_none h
  | some name => exact List.filterMap_cons_some h

/-! ## Inserting -/

/-- Entries with another value wherever a key has the text of a word. -/
def replaced (entries : List (Value × Value)) (name : String) (value : Value) :
    List (Value × Value) :=
  entries.map fun (k, v) ↦ if k.equal (.str name) then (k, value) else (k, v)

/-- An entry under a word replaces those of that word, or goes last if there are none. -/
theorem insert_str (entries : List (Value × Value)) (name : String) (value : Value) :
    insert entries (.str name) value =
      if (get? entries name).isSome then replaced entries name value
      else entries ++ [(.str name, value)] := by
  have hany : entries.any (fun (k, _) ↦ k.equal (.str name)) = (get? entries name).isSome := by
    rw [Bool.eq_iff_iff, isSome_get?_iff, List.any_eq_true]
    simp only [equal_str_iff]
  rw [insert, hany]
  rfl

/-- Replacing values changes no key. -/
theorem map_fst_replaced (entries : List (Value × Value)) (name : String) (value : Value) :
    (replaced entries name value).map (·.1) = entries.map (·.1) := by
  rw [replaced, List.map_map]
  refine List.map_congr_left fun entry _ ↦ ?_
  obtain ⟨k, v⟩ := entry
  simp only [Function.comp]
  split <;> rfl

/-- Where a word found something, it finds the value that replaces it. -/
theorem get?_replaced_self (entries : List (Value × Value)) (name : String) (value : Value) :
    get? (replaced entries name value) name = (get? entries name).map fun _ ↦ value := by
  induction entries with
  | nil => rfl
  | cons entry rest ih =>
    obtain ⟨k, v⟩ := entry
    rw [replaced] at ih ⊢
    by_cases h : k.text? = some name
    · simp [equal_str_iff.mpr h, get?_cons, h]
    · simp [equal_str_eq_false_iff.mpr h, get?_cons, h, ih]

/-- Any other word finds what it found before. -/
theorem get?_replaced_of_ne {name other : String} (h : other ≠ name)
    (entries : List (Value × Value)) (value : Value) :
    get? (replaced entries name value) other = get? entries other := by
  induction entries with
  | nil => rfl
  | cons entry rest ih =>
    obtain ⟨k, v⟩ := entry
    rw [replaced] at ih ⊢
    by_cases hk : k.text? = some name
    · have hother : k.text? ≠ some other := fun ho ↦ h (Option.some.inj (ho.symm.trans hk))
      simp [equal_str_iff.mpr hk, get?_cons, hother, ih]
    · simp [equal_str_eq_false_iff.mpr hk, get?_cons, ih]

/-- The word of an inserted entry finds its value. -/
theorem get?_insert_self (entries : List (Value × Value)) (name : String) (value : Value) :
    get? (insert entries (.str name) value) name = some value := by
  rw [insert_str]
  cases hfound : get? entries name with
  | some v => rw [Option.isSome_some, if_pos rfl, get?_replaced_self, hfound, Option.map_some]
  | none =>
    rw [Option.isSome_none, if_neg Bool.false_ne_true, get?_append, hfound, Option.none_or,
      get?_cons]
    exact if_pos rfl

/-- Any other word finds what it found before the insertion. -/
theorem get?_insert_of_ne {name other : String} (h : other ≠ name)
    (entries : List (Value × Value)) (value : Value) :
    get? (insert entries (.str name) value) other = get? entries other := by
  rw [insert_str]
  split
  · exact get?_replaced_of_ne h entries value
  · have hlast : get? [(.str name, value)] other = none := by
      simp [get?, lookup?, h.symm]
    rw [get?_append, hlast, Option.or_none]

/-- Inserting an entry under a word adds at most that word to the keys. -/
theorem map_fst_insert (entries : List (Value × Value)) (name : String) (value : Value) :
    (insert entries (.str name) value).map (·.1) = entries.map (·.1) ∨
      (insert entries (.str name) value).map (·.1) = entries.map (·.1) ++ [.str name] := by
  rw [insert_str]
  split
  · exact .inl (map_fst_replaced entries name value)
  · exact .inr List.map_append

end RepoManifest.Value
