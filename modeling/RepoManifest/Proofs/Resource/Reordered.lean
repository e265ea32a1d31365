import RepoManifest.Proofs.Reading.Reordered
import RepoManifest.Resource.Reading

/-!
# Reading resources from reordered keys

Every resource is read alike whatever the order of the keys of its mapping and of the mappings
inside it: each field is looked up by its name, and the keys that name no field are reported in any
order.
-/

namespace RepoManifest

open Reading Value

variable {es gs : List (Value × Value)}

/-- Reading a team grant ignores the order of keys. -/
theorem TeamAccess.ignoresOrder_read : IgnoresOrder read := by
  apply ignoresOrder_structureOf
  intro es gs h
  apply Alike.ap
  · exact .ap (.ok _) (alike_field ignoresOrder_text h _ _)
  · exact alike_field (ignoresOrder_optional ignoresOrder_word) h _ _

/-- Reading a deploy key ignores the order of keys. -/
theorem DeployKey.ignoresOrder_read : IgnoresOrder read := by
  apply ignoresOrder_structureOf
  intro es gs h
  apply Alike.ap
  · apply Alike.ap
    · exact .ap (.ap (.ok _) (alike_field ignoresOrder_text h _ _))
        (alike_field ignoresOrder_text h _ _)
    · exact alike_field (ignoresOrder_optional ignoresOrder_flag) h _ _
  · exact alike_field ignoresOrder_word h _ _

/-- Reading creation options ignores the order of keys. -/
theorem CreateOptions.ignoresOrder_read : IgnoresOrder read := by
  apply ignoresOrder_structureOf
  intro es gs h
  apply Alike.ap
  · exact .ap (.ok _) (alike_field (ignoresOrder_optional ignoresOrder_flag) h _ _)
  · exact alike_field (ignoresOrder_optional ignoresOrder_word) h _ _

/-- Reordered mappings are read alike as the settings of a repository. -/
theorem Repository.alike_ofEntries (h : Reordered (.map es) (.map gs)) :
    Alike (ofEntries es) (ofEntries gs) := by
  apply Alike.ap
  · apply Alike.ap
    · exact .ap (.ap (.ok _) (alike_field ignoresOrder_text h _ _))
        (alike_field (ignoresOrder_optional ignoresOrder_text) h _ _)
    · exact alike_field (ignoresOrder_optional ignoresOrder_text) h _ _
  · exact alike_field (ignoresOrder_optional ignoresOrder_word) h _ _

/-- Reading an entry ignores the order of keys. -/
theorem RepositoryEntry.ignoresOrder_read : IgnoresOrder read := by
  apply ignoresOrder_structureOf
  intro es gs h
  apply Alike.ap
  · apply Alike.ap
    · exact .ap (.ap (.ok _) (Repository.alike_ofEntries h))
        (alike_field CreateOptions.ignoresOrder_read h _ _)
    · exact alike_field (ignoresOrder_listOrUnset DeployKey.ignoresOrder_read) h _ _
  · exact alike_field (ignoresOrder_listOrUnset TeamAccess.ignoresOrder_read) h _ _

end RepoManifest
