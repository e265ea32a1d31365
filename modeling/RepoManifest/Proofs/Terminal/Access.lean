import RepoManifest.Proofs.Terminal.Listing

/-!
# Access of keys in a listing

A key may write only if that is asked for: filling makes a key without an access one that can only
read. A listing knows nothing of this. It shows a key as read-only if its access says so, and every
other key as one that may write. So the listing of an entry shows the access that its keys have once
they are filled, but for the keys whose access is unset, which it shows as able to write.
-/

namespace RepoManifest

open Listing

/-- Whether a key may write, once it is filled. -/
def DeployKey.mayWrite (k : DeployKey) : Bool := k.default.readOnly == some false

namespace Listing

/-- An access is shown as that of a key that can only read exactly if it is. -/
theorem access_eq_access_iff {a b : Bool} : access a = access b ↔ a = b := by
  cases a <;> cases b <;> decide

/-- Two lines of keys with one name are the same exactly if they show one access. -/
theorem keyLine_eq_keyLine_iff {name a b : String} : keyLine name a = keyLine name b ↔ a = b := by
  unfold keyLine
  rw [String.append_left_inj, String.append_right_inj]

/-- Objects are read one after another, if each can be read. -/
theorem mapM_map_eq_ok {α β : Type} (object : α → Value) (read : Value → Except Misuse β)
    (part : α → β) (h : ∀ a, read (object a) = .ok (part a)) :
    ∀ all : List α, (all.map object).mapM read = .ok (all.map part)
  | [] => rfl
  | a :: rest => by
    rw [List.map_cons, List.mapM_cons, h, mapM_map_eq_ok object read part h rest]
    rfl

end Listing

namespace RepositoryEntry

variable (e : RepositoryEntry)

/-- The lines of an entry's keys. -/
theorem keyLines_listing :
    e.listing.keyLines =
      e.deployKeys.map fun k ↦ keyLine k.name (access (k.readOnly.getD false)) := by
  rw [keyLines, listing, List.map_map]
  rfl

/-- The lines of a filled entry's keys show the access that the keys have. -/
theorem keyLines_listing_default :
    e.default.listing.keyLines = e.deployKeys.map fun k ↦
      keyLine k.name (if k.mayWrite then "read-write" else "read-only") := by
  rw [keyLines_listing, default, List.map_map]
  refine List.map_congr_left fun k _ ↦ ?_
  obtain ⟨name, key, _ | _ | _, credentialType⟩ := k <;> rfl

/-- An entry is listed as its object is. -/
theorem listing_toObject (assigned : List String) :
    (e.toObject assigned).listing = .ok e.listing := by
  have hkeys := mapM_map_eq_ok (DeployKey.toObject · [])
    (fun k ↦ do
      let readOnly ← k.get "read_only"
      return ((← k.get "name").display, readOnly.truthy))
    (fun k ↦ (k.name, k.readOnly.getD false))
    (fun ⟨_, _, readOnly, _⟩ ↦ by cases readOnly <;> rfl) e.deployKeys
  have hteams := mapM_map_eq_ok (TeamAccess.toObject · [])
    (fun t ↦ do
      let name ← t.get "name"
      return (name.display, (← t.get "permission").shown))
    (fun t ↦ (t.name, (Value.ofText? t.permission).shown)) (fun _ ↦ rfl) e.teams
  -- All fields of the object are there, and those of its options.
  have hread : (e.toObject assigned).listing = (do
      let keys ← (e.deployKeys.map (DeployKey.toObject · [])).mapM _
      let teams ← (e.teams.map (TeamAccess.toObject · [])).mapM _
      return { e.listing with keys, teams }) := rfl
  rw [hread, hkeys, hteams]
  rfl

/-- How a listing shows the access of keys: each key in order as read-only or as one that may write.
Filled keys are shown with the access that they have. Keys whose access is unset cannot write, but
are shown as if they could; so filling changes the lines exactly if there is such a key. -/
structure ShowsAccess (e : RepositoryEntry) : Prop where
  lines : ∀ colour, e.listing.lines colour =
    e.listing.header colour ::
      (e.listing.attributeLines ++ e.listing.keyLines ++ e.listing.teamLines)
  ofObject : ∀ assigned, (e.toObject assigned).listing = .ok e.listing
  filled : e.default.listing.keyLines = e.deployKeys.map fun k ↦
    keyLine k.name (if k.mayWrite then "read-write" else "read-only")
  unfilled : e.listing.keyLines = e.deployKeys.map fun k ↦
    keyLine k.name (if k.mayWrite ∨ k.readOnly = none then "read-write" else "read-only")
  same_iff : e.listing.keyLines = e.default.listing.keyLines ↔
    ∀ k ∈ e.deployKeys, k.readOnly ≠ none

/-- The listing of an entry shows as able to write the keys that are, and those whose access is
unset. -/
theorem showsAccess : e.ShowsAccess where
  lines := e.listing.lines_eq
  ofObject := e.listing_toObject
  filled := e.keyLines_listing_default
  unfilled := by
    rw [keyLines_listing]
    refine List.map_congr_left fun k _ ↦ ?_
    obtain ⟨name, key, _ | _ | _, credentialType⟩ := k <;> rfl
  same_iff := by
    rw [keyLines_listing, keyLines_listing, default, List.map_map, List.map_inj_left]
    refine forall₂_congr fun k _ ↦ ?_
    change keyLine k.name _ = keyLine k.name (access (k.default.readOnly.getD false)) ↔ _
    rw [keyLine_eq_keyLine_iff, access_eq_access_iff]
    obtain ⟨name, key, _ | _ | _, credentialType⟩ := k <;> simp [DeployKey.default, fill]

/-- A key without an access cannot write once it is filled, but is shown as if it could. -/
example : (⟨"ci", "ssh-rsa A", none, "deploykey"⟩ : DeployKey).mayWrite = false ∧
    ({ name := "app", deployKeys := [⟨"ci", "ssh-rsa A", none, "deploykey"⟩] } :
      RepositoryEntry).listing.keyLines = ["    deploy_key.ci (read-write)"] := by decide

end RepositoryEntry
end RepoManifest
