import RepoManifest.Proofs.Config.Entries
import RepoManifest.Proofs.Distinct
import RepoManifest.Proofs.Validation.Writable

/-!
# Names that occur again

Looking for names that occur again takes along the names seen so far, each with the position of the
entry that it occurred in first. So one more entry is reported exactly if its name counts and some
entry before has it, and the report cites the first of these; whatever is found in a list of entries
follows from that, by induction from the right.
-/

namespace RepoManifest.Duplicate

/-! ## One more entry -/

/-- The position cited by the first entry of a name. -/
def firstPosition? (names : List (Int × String)) (name : String) : Option Int :=
  (names.find? (·.2 == name)).map (·.1)

/-- What is reported for one more entry: nothing if its name is empty or new. -/
def again? (before : List (Int × String)) (entry : Int × String) : Option Duplicate :=
  if entry.2 = "" then none
  else (firstPosition? before entry.2).map fun first ↦ ⟨entry.2, first, entry.1⟩

/-- One more entry is the first of its name, unless there was one before. -/
theorem firstPosition?_concat (before : List (Int × String)) (entry : Int × String)
    (name : String) :
    firstPosition? (before ++ [entry]) name =
      (firstPosition? before name).or (if entry.2 = name then some entry.1 else none) := by
  rw [firstPosition?, List.find?_append, Option.map_or, firstPosition?]
  congr 1
  by_cases h : entry.2 = name <;> simp [h]

/-- A name is first where no entry before has it. -/
theorem firstPosition?_eq_some_iff {names : List (Int × String)} {name : String} {i : Int} :
    firstPosition? names name = some i ↔
      ∃ q : Nat, names[q]? = some (i, name) ∧
        ∀ r < q, ∀ e : Int × String, names[r]? = some e → e.2 ≠ name := by
  rw [firstPosition?, Option.map_eq_some_iff]
  constructor
  · rintro ⟨⟨_, other⟩, hfind, rfl⟩
    obtain ⟨hname, q, hq, heq, hbefore⟩ := List.find?_eq_some_iff_getElem.mp hfind
    obtain rfl : other = name := by simpa using hname
    refine ⟨q, by rw [List.getElem?_eq_getElem hq, heq], fun r hr e he ↦ ?_⟩
    obtain ⟨hlt, rfl⟩ := List.getElem?_eq_some_iff.mp he
    simpa using hbefore r hr
  · rintro ⟨q, hq, hbefore⟩
    obtain ⟨hlt, heq⟩ := List.getElem?_eq_some_iff.mp hq
    refine ⟨(i, name), List.find?_eq_some_iff_getElem.mpr
      ⟨beq_self_eq_true name, q, hlt, heq, fun r hr ↦ ?_⟩, rfl⟩
    simpa using hbefore r hr _ (List.getElem?_eq_getElem (Nat.lt_trans hr hlt))

/-- A name has a first position exactly if some entry has it. -/
theorem isSome_firstPosition?_iff {names : List (Int × String)} {name : String} :
    (firstPosition? names name).isSome = true ↔ name ∈ names.map (·.2) := by
  simp [firstPosition?, List.find?_isSome]

/-! ## Names seen so far -/

/-- What was seen are the names of the entries so far that count, each with its first position. -/
def Remembers (seen : List (String × Int)) (before : List (Int × String)) : Prop :=
  ∀ name, name ≠ "" → seen.lookup name = firstPosition? before name

/-- Nothing was seen before the first entry. -/
theorem remembers_nil : Remembers [] [] := fun _ _ ↦ rfl

namespace Remembers

variable {seen : List (String × Int)} {before : List (Int × String)} {i : Int} {name : String}

/-- An empty name does not count as seen. -/
theorem skip (h : Remembers seen before) : Remembers seen (before ++ [(i, "")]) := by
  intro other hother
  rw [h other hother, firstPosition?_concat, if_neg (Ne.symm hother), Option.or_none]

/-- A name that was seen keeps its first position. -/
theorem keep {first : Int} (h : Remembers seen before) (hname : name ≠ "")
    (hseen : seen.lookup name = some first) : Remembers seen (before ++ [(i, name)]) := by
  intro other hother
  rw [h other hother, firstPosition?_concat]
  by_cases heq : name = other
  · subst heq
    rw [← h name hname, hseen, Option.some_or]
  · rw [if_neg heq, Option.or_none]

/-- A new name is seen from here on. -/
theorem add (h : Remembers seen before) (hname : name ≠ "") (hseen : seen.lookup name = none) :
    Remembers ((name, i) :: seen) (before ++ [(i, name)]) := by
  intro other hother
  rw [firstPosition?_concat, List.lookup_cons]
  by_cases heq : name = other
  · subst heq
    rw [← h name hname, hseen, beq_self_eq_true, if_pos rfl, Option.none_or]
  · have hbeq : (other == name) = false := beq_eq_false_iff_ne.mpr fun he ↦ heq he.symm
    rw [hbeq, if_neg heq, Option.or_none]
    exact h other hother

end Remembers

/-- One more entry is looked at with what was seen in all entries before it. -/
theorem findFrom_concat {seen : List (String × Int)} {before : List (Int × String)}
    (h : Remembers seen before) (names : List (Int × String)) (entry : Int × String) :
    findFrom seen (names ++ [entry]) =
      findFrom seen names ++ (again? (before ++ names) entry).toList := by
  -- What was seen is general in the induction: each way past an entry keeps `Remembers`.
  induction names generalizing seen before with
  | nil =>
    obtain ⟨i, name⟩ := entry
    simp only [List.nil_append, List.append_nil, again?, findFrom]
    by_cases hname : name = ""
    · simp [hname]
    · have hcounts : ¬ name.isEmpty = true := by simpa using hname
      rw [← h name hname, if_neg hcounts, if_neg hname]
      cases seen.lookup name <;> rfl
  | cons first rest ih =>
    obtain ⟨i, name⟩ := first
    rw [List.cons_append, List.append_cons before]
    by_cases hname : name = ""
    · subst hname
      exact ih h.skip
    · have hcounts : ¬ name.isEmpty = true := by simpa using hname
      rw [findFrom, findFrom, if_neg hcounts, if_neg hcounts]
      cases hseen : seen.lookup name with
      | some position => exact congrArg (_ :: ·) (ih (h.keep hname hseen))
      | none => exact ih (h.add hname hseen)

/-- One more entry adds its own report behind the others. -/
theorem find_concat (names : List (Int × String)) (entry : Int × String) :
    find (names ++ [entry]) = find names ++ (again? names entry).toList :=
  findFrom_concat remembers_nil names entry

/-! ## What is reported -/

/-- The entry at a place has a name that counts and that an entry before it has, the first of which
is cited. -/
structure Repeats (names : List (Int × String)) (place : Nat) (d : Duplicate) : Prop where
  name_ne : d.name ≠ ""
  entry : names[place]? = some (d.again, d.name)
  first : ∃ q < place, names[q]? = some (d.first, d.name) ∧
    ∀ r < q, ∀ e : Int × String, names[r]? = some e → e.2 ≠ d.name

/-- One more entry repeats a name exactly if something is reported for it. -/
theorem repeats_length_iff {names : List (Int × String)} {entry : Int × String} {d : Duplicate} :
    Repeats (names ++ [entry]) names.length d ↔ again? names entry = some d := by
  have hbefore {q : Nat} (hq : q < names.length) : (names ++ [entry])[q]? = names[q]? :=
    List.getElem?_append_left hq
  rw [again?, Option.ite_none_left_eq_some, Option.map_eq_some_iff]
  constructor
  · rintro ⟨hname, hentry, q, hq, hfirst, hrest⟩
    obtain rfl : entry = (d.again, d.name) := by simpa using hentry
    refine ⟨hname, d.first, firstPosition?_eq_some_iff.mpr ⟨q, ?_, fun r hr e he ↦ ?_⟩, rfl⟩
    · rwa [hbefore hq] at hfirst
    · exact hrest r hr e (by rwa [hbefore (Nat.lt_trans hr hq)])
  · rintro ⟨hname, first, hfirst, rfl⟩
    obtain ⟨q, hq, hrest⟩ := firstPosition?_eq_some_iff.mp hfirst
    have hlt := (List.getElem?_eq_some_iff.mp hq).1
    refine ⟨hname, by simp, q, hlt, by rwa [hbefore hlt], fun r hr e he ↦ ?_⟩
    rw [hbefore (Nat.lt_trans hr hlt)] at he
    exact hrest r hr e he

/-- One more entry leaves what is repeated before it as it was. -/
theorem repeats_concat_iff {names : List (Int × String)} {entry : Int × String} {place : Nat}
    {d : Duplicate} (h : place < names.length) :
    Repeats (names ++ [entry]) place d ↔ Repeats names place d := by
  have hbefore {q : Nat} (hq : q ≤ place) : (names ++ [entry])[q]? = names[q]? :=
    List.getElem?_append_left (Nat.lt_of_le_of_lt hq h)
  constructor
  · rintro ⟨hname, hentry, q, hq, hfirst, hrest⟩
    refine ⟨hname, (hbefore (Nat.le_refl _)).symm.trans hentry, q, hq,
      (hbefore (Nat.le_of_lt hq)).symm.trans hfirst, fun r hr e he ↦ hrest r hr e ?_⟩
    exact (hbefore (Nat.le_of_lt (Nat.lt_trans hr hq))).trans he
  · rintro ⟨hname, hentry, q, hq, hfirst, hrest⟩
    refine ⟨hname, (hbefore (Nat.le_refl _)).trans hentry, q, hq,
      (hbefore (Nat.le_of_lt hq)).trans hfirst, fun r hr e he ↦ hrest r hr e ?_⟩
    exact (hbefore (Nat.le_of_lt (Nat.lt_trans hr hq))).symm.trans he

/-- Only places of entries repeat anything. -/
theorem Repeats.lt_length {names : List (Int × String)} {place : Nat} {d : Duplicate}
    (h : Repeats names place d) : place < names.length :=
  (List.getElem?_eq_some_iff.mp h.entry).1

/-- The reports are those of the places that repeat a name, in order. -/
theorem exists_places (names : List (Int × String)) :
    ∃ places : List Nat, places.Pairwise (· < ·) ∧
      (∀ p, p ∈ places ↔ ∃ d, Repeats names p d) ∧
      List.Forall₂ (Repeats names) places (find names) := by
  induction names using List.reverseRecOn with
  | nil =>
    refine ⟨[], List.Pairwise.nil, fun p ↦ iff_of_false List.not_mem_nil ?_, List.Forall₂.nil⟩
    rintro ⟨d, hd⟩
    exact absurd hd.lt_length (Nat.not_lt_zero p)
  | append_singleton names entry ih =>
    obtain ⟨places, hsorted, hmem, hreports⟩ := ih
    have hlt : ∀ p ∈ places, p < names.length := fun p hp ↦ by
      obtain ⟨d, hd⟩ := (hmem p).mp hp
      exact hd.lt_length
    have hkept : List.Forall₂ (Repeats (names ++ [entry])) places (find names) :=
      ((List.forall₂_and_left places _).mpr ⟨hlt, hreports⟩).imp fun p d ⟨hp, hd⟩ ↦
        (repeats_concat_iff hp).mpr hd
    -- A place that repeats a name is one of those before, or the last one.
    have hplace (p : Nat) : (∃ d, Repeats (names ++ [entry]) p d) ↔
        p ∈ places ∨ p = names.length ∧ ∃ d, again? names entry = some d := by
      rw [hmem]
      constructor
      · rintro ⟨d, hd⟩
        have hp := hd.lt_length
        rw [List.length_append, List.length_singleton] at hp
        rcases Nat.lt_succ_iff_lt_or_eq.mp hp with hp | rfl
        · exact .inl ⟨d, (repeats_concat_iff hp).mp hd⟩
        · exact .inr ⟨rfl, d, repeats_length_iff.mp hd⟩
      · rintro (⟨d, hd⟩ | ⟨rfl, d, hd⟩)
        · exact ⟨d, (repeats_concat_iff hd.lt_length).mpr hd⟩
        · exact ⟨d, repeats_length_iff.mpr hd⟩
    rw [find_concat]
    cases hagain : again? names entry with
    | none =>
      refine ⟨places, hsorted, fun p ↦ ?_, by simpa using hkept⟩
      simp [hplace, hagain]
    | some d =>
      refine ⟨places ++ [names.length], ?_, fun p ↦ ?_, ?_⟩
      · rw [List.pairwise_append]
        exact ⟨hsorted, List.pairwise_singleton .., by simpa using hlt⟩
      · simp [hplace, hagain]
      · exact List.rel_append hkept (.cons (repeats_length_iff.mpr hagain) .nil)

/-- Every name that counts is reported or occurs for the first time. -/
theorem length_find (names : List (Int × String)) :
    (find names).length + (counted names).eraseDups.length = (counted names).length := by
  induction names using List.reverseRecOn with
  | nil => rfl
  | append_singleton names entry ih =>
    obtain ⟨i, name⟩ := entry
    by_cases hname : name = ""
    · have hcounted : counted (names ++ [(i, name)]) = counted names := by simp [counted, hname]
      have hagain : again? names (i, name) = none := if_pos hname
      rw [find_concat, hcounted, hagain, ← ih, Option.toList_none, List.append_nil]
    · have hcounted : counted (names ++ [(i, name)]) = counted names ++ [name] := by
        simp [counted, hname]
      have hmem : name ∈ counted names ↔ (firstPosition? names name).isSome = true := by
        simp [counted, hname, isSome_firstPosition?_iff]
      rw [find_concat, hcounted, eraseDups_concat, again?, if_neg hname]
      cases hfirst : firstPosition? names name with
      | none => simp [hmem, hfirst, ← ih, Nat.add_assoc]
      | some first =>
        simp only [hmem, hfirst, Option.isSome_some, if_true, List.append_nil, List.length_append,
          ← ih]
        exact Nat.add_right_comm ..

/-- A name is reported for one more entry exactly if it counts, is the name of the entry, and
occurred before. -/
theorem exists_again?_iff {names : List (Int × String)} {entry : Int × String} {name : String} :
    (∃ d, again? names entry = some d ∧ d.name = name) ↔
      name ≠ "" ∧ entry.2 = name ∧ name ∈ names.map (·.2) := by
  constructor
  · rintro ⟨d, hd, rfl⟩
    obtain ⟨hname, hd⟩ := Option.ite_none_left_eq_some.mp hd
    obtain ⟨first, hfirst, rfl⟩ := Option.map_eq_some_iff.mp hd
    exact ⟨hname, rfl, isSome_firstPosition?_iff.mp (Option.isSome_of_eq_some hfirst)⟩
  · rintro ⟨hname, rfl, hmem⟩
    obtain ⟨first, hfirst⟩ := Option.isSome_iff_exists.mp (isSome_firstPosition?_iff.mpr hmem)
    exact ⟨⟨entry.2, first, entry.1⟩, by rw [again?, if_neg hname, hfirst, Option.map_some], rfl⟩

/-- A name is reported exactly if it counts and occurs more than once. -/
theorem exists_mem_find_iff {names : List (Int × String)} {name : String} :
    (∃ d ∈ find names, d.name = name) ↔ name ≠ "" ∧ 2 ≤ (names.map (·.2)).count name := by
  induction names using List.reverseRecOn with
  | nil => simp [find, findFrom]
  | append_singleton names entry ih =>
    have hcount : 2 ≤ ((names ++ [entry]).map (·.2)).count name ↔
        2 ≤ (names.map (·.2)).count name ∨ entry.2 = name ∧ name ∈ names.map (·.2) := by
      rw [List.map_append, List.count_append, List.map_singleton, List.count_singleton,
        ← List.count_pos_iff]
      by_cases hname : entry.2 = name
      · simp only [hname, beq_self_eq_true, if_true, true_and]
        omega
      · simp [hname]
    simp only [find_concat, List.mem_append, Option.mem_toList, or_and_right, exists_or, ih,
      exists_again?_iff, hcount, ← and_or_left]

/-- The messages are the lines, if all of them can be written. -/
theorem messages_eq (names : List (Int × String)) :
    messages names =
      if (find names).all isWritable then .ok ((find names).map line)
      else .error .tooManyDigits :=
  mapM_guarded isWritable line Misuse.tooManyDigits (find names)

/-- Each entry whose name counts and occurred before has one line, in order: it cites the first
entry of the name and the entry itself. So nothing is reported exactly if the names that count are
distinct, and there are as many lines as names that count, less the distinct ones. The lines are
reported unless a position in them has too many digits. -/
theorem lines_find (names : List (Int × String)) :
    (∃ places : List Nat, places.Pairwise (· < ·) ∧
      (∀ p, p ∈ places ↔ ∃ d, Repeats names p d) ∧
      List.Forall₂ (fun p line ↦ ∃ d, Repeats names p d ∧
          line = "Duplicate repository name '" ++ d.name ++ "': found in both repositories[" ++
            toString d.first ++ "] and repositories[" ++ toString d.again ++ "]")
        places ((find names).map line)) ∧
    (find names = [] ↔ (counted names).Nodup) ∧
    (find names).length + (counted names).eraseDups.length = (counted names).length ∧
    messages names =
      if (find names).all isWritable then .ok ((find names).map line)
      else .error .tooManyDigits := by
  obtain ⟨places, hsorted, hmem, hreports⟩ := exists_places names
  refine ⟨⟨places, hsorted, hmem, ?_⟩, find_eq_nil_iff, length_find names, messages_eq names⟩
  exact List.forall₂_map_right_iff.mpr (hreports.imp fun p d hd ↦ ⟨d, hd, rfl⟩)

/-- A name that occurs three times, with an empty name and a gap in between. -/
example : find [(0, "a"), (2, ""), (5, "a"), (6, "b"), (9, "a")] =
    [⟨"a", 0, 5⟩, ⟨"a", 0, 9⟩] := by decide

end RepoManifest.Duplicate
