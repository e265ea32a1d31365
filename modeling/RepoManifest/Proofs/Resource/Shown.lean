import RepoManifest.Proofs.Reading.Shown
import RepoManifest.Resource.Reading

/-!
# What reading a resource shows

Whatever is wrong with an item, its issues show no words of it but the keys that name no field where
they stand: of the item itself, of its options, and of its keys and teams.
-/

namespace RepoManifest

open Reading Text Value

/-- The entries of a value; only mappings have any. -/
def Value.entriesOf : Value → List (Value × Value)
  | .map given => given
  | _ => []

/-- The words among the keys of a value that name no declared field. -/
def Value.strayKeys (declared : List String) (v : Value) : List String :=
  strayWords declared v.entriesOf

/-- The words among the keys inside an item that name no field where they stand: of its options, of
its keys and of its teams. -/
def RepositoryEntry.innerStrayKeys (given : List (Value × Value)) : List String :=
  (get? given "options").toList.flatMap (Value.strayKeys CreateOptions.objectType.names) ++
  (get? given "deploy_keys").toList.flatMap (fun keys ↦
    (itemsOf keys).flatMap (Value.strayKeys DeployKey.objectType.names)) ++
  (get? given "teams").toList.flatMap (fun teams ↦
    (itemsOf teams).flatMap (Value.strayKeys TeamAccess.objectType.names))

/-- The words among the keys of an item that name no field where they stand. -/
def RepositoryEntry.strayKeys (v : Value) : List String :=
  innerStrayKeys v.entriesOf ++ v.strayKeys objectType.names

variable {v : Value}

/-! ## Structures without structures inside -/

/-- A structure shows the words of its fields, and those of its keys that name no field. -/
theorem Reading.showWords_structureOf {α : Type} {type : ObjectType}
    {body : List (Value × Value) → Reading α} {words : List (Value × Value) → List String}
    (hbody : ∀ given, (∀ entry ∈ given, PlainEntry entry) →
      Issue.ShowWords (body given).issues (words given))
    (hnone : words [] = []) (htype : Printable type.name) (hv : v.isPlain = true) :
    Issue.ShowWords (structureOf [type] type.names body v).issues
      (words v.entriesOf ++ v.strayKeys type.names) := by
  by_cases hmap : ∃ given, v = .map given
  · obtain ⟨given, rfl⟩ := hmap
    have hplain := isPlain_map.mp hv
    exact showWords_structureOf_map (hbody given hplain) hplain
  · have hentries : v.entriesOf = [] := by
      unfold Value.entriesOf
      split
      · exact absurd ⟨_, rfl⟩ hmap
      · rfl
    have hstray : v.strayKeys type.names = [] := by
      rw [Value.strayKeys, hentries]
      rfl
    rw [hentries, hnone, hstray]
    exact showWords_structureOf_of_not_map hv (fun given hv ↦ hmap ⟨given, hv⟩) htype

/-- A structure whose fields show no words shows those of its keys that name no field. -/
theorem Reading.showWords_structureOf_of_silent {α : Type} {type : ObjectType}
    {body : List (Value × Value) → Reading α}
    (hbody : ∀ given, Issue.ShowWords (body given).issues [])
    (htype : Printable type.name) (hv : v.isPlain = true) :
    Issue.ShowWords (structureOf [type] type.names body v).issues (v.strayKeys type.names) :=
  @showWords_structureOf v α type body (fun _ ↦ []) (fun given _ ↦ hbody given) rfl htype hv

/-- Reading a team grant shows the keys that name no field. -/
theorem TeamAccess.showWords_read (hv : v.isPlain = true) :
    Issue.ShowWords (read v).issues (v.strayKeys objectType.names) := by
  refine showWords_structureOf_of_silent (fun given ↦ ?_) (by decide) hv
  exact showWords_ap (showWords_ap (showWords_ok _)
    (showWords_field_of_silent silent_text given (by decide) _))
    (showWords_field_of_silent (silent_optional silent_word) given (by decide) _)

/-- Reading a deploy key shows the keys that name no field. -/
theorem DeployKey.showWords_read (hv : v.isPlain = true) :
    Issue.ShowWords (read v).issues (v.strayKeys objectType.names) := by
  refine showWords_structureOf_of_silent (fun given ↦ ?_) (by decide) hv
  exact showWords_ap (showWords_ap (showWords_ap (showWords_ap (showWords_ok _)
    (showWords_field_of_silent silent_text given (by decide) _))
    (showWords_field_of_silent silent_text given (by decide) _))
    (showWords_field_of_silent (silent_optional silent_flag) given (by decide) _))
    (showWords_field_of_silent silent_word given (by decide) _)

/-- Reading creation options shows the keys that name no field. -/
theorem CreateOptions.showWords_read (hv : v.isPlain = true) :
    Issue.ShowWords (read v).issues (v.strayKeys objectType.names) := by
  refine showWords_structureOf_of_silent (fun given ↦ ?_) (by decide) hv
  exact showWords_ap (showWords_ap (showWords_ok _)
    (showWords_field_of_silent (silent_optional silent_flag) given (by decide) _))
    (showWords_field_of_silent (silent_optional silent_word) given (by decide) _)

/-! ## Entries -/

/-- Reading the settings of a repository shows no words. -/
theorem Repository.showWords_ofEntries (given : List (Value × Value)) :
    Issue.ShowWords (ofEntries given).issues [] :=
  showWords_ap (showWords_ap (showWords_ap (showWords_ap (showWords_ok _)
    (showWords_field_of_silent silent_text given (by decide) _))
    (showWords_field_of_silent (silent_optional silent_text) given (by decide) _))
    (showWords_field_of_silent (silent_optional silent_text) given (by decide) _))
    (showWords_field_of_silent (silent_optional silent_word) given (by decide) _)

/-- The items of plain data are plain. -/
theorem Reading.isPlain_of_mem_itemsOf {item : Value} (hv : v.isPlain = true)
    (h : item ∈ itemsOf v) : item.isPlain = true := by
  unfold itemsOf sequence? at h
  split at h
  · exact isPlain_list.mp hv item h
  · exact isPlain_tuple.mp hv item h
  · exact isPlain_set.mp hv item h
  · cases h

/-- Reading an entry shows the keys that name no field where they stand. -/
theorem RepositoryEntry.showWords_read (hv : v.isPlain = true) :
    Issue.ShowWords (read v).issues (strayKeys v) := by
  refine showWords_structureOf (fun given hplain ↦ ?_) rfl (by decide) hv
  show Issue.ShowWords _ (innerStrayKeys given)
  have hitems {α : Type} {read : Value → Reading α} {words : Value → List String}
      (hread : ∀ {v : Value}, v.isPlain = true → Issue.ShowWords (read v).issues (words v))
      {name : String} (hname : Printable name) :
      Issue.ShowWords (field given name (listOrUnset read) []).issues
        ((get? given name).toList.flatMap fun v ↦ (itemsOf v).flatMap words) :=
    showWords_field hname (fun v hget ↦ showWords_listOrUnset fun item hitem ↦
      hread (isPlain_of_mem_itemsOf (isPlain_of_get? hplain hget) hitem)) []
  refine showWords_ap (showWords_ap (showWords_ap (showWords_ap (showWords_ok _)
    (Repository.showWords_ofEntries given)) ?_) ?_) ?_
  · exact showWords_field (by decide)
      (fun v hget ↦ CreateOptions.showWords_read (isPlain_of_get? hplain hget)) _
  · exact hitems DeployKey.showWords_read (by decide)
  · exact hitems TeamAccess.showWords_read (by decide)

end RepoManifest
