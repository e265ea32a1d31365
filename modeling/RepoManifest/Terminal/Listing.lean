import RepoManifest.Resource.Basic
import RepoManifest.Terminal.Style
import RepoManifest.Value.Equality
import RepoManifest.Value.Misuse
import RepoManifest.Value.Text

/-!
# Listings

What the command line prints: a repository with its settings, keys and teams; the summary of a
configuration; and the vocabularies. A `Listing` holds the parts of a repository's text, so that a
checked entry and an unchecked object are printed by the same rule.
-/

namespace RepoManifest

namespace Terminal

/-- Pad a key with blanks on the right. -/
def padRight (width : Nat) (key : String) : String :=
  key ++ String.ofList (List.replicate (width - key.length) ' ')

/-- The length of the longest key. -/
def keyWidth (items : List (String × String)) : Nat :=
  (items.map (·.1.length)).foldl max 0

/-- Pad the keys to the length of the longest one. -/
def align (items : List (String × String)) : List (String × String) :=
  items.map fun (k, v) ↦ (padRight (keyWidth items) k, v)

end Terminal

namespace Value

/-- A value in a listing: words in quotes, truth values in lower case, a mark for unset ones. -/
def shown (v : Value) : String :=
  match v.unwrapped with
  | .null => "(unset)"
  | .bool b => if b then "true" else "false"
  | .str s => "\"" ++ s ++ "\""
  | v => v.display

end Value

/-- The parts of a repository's text. A key comes with its access, a team with its permission. -/
structure Listing where
  name : String
  attributes : List (String × String)
  keys : List (String × Bool)
  teams : List (String × String)
  deriving DecidableEq, Repr

namespace Listing

open Terminal

/-- The wording of a key's access. -/
def access (readOnly : Bool) : String := if readOnly then "read-only" else "read-write"

/-- The lines of a listing: the name, the aligned attributes, the keys and the teams. -/
def lines (l : Listing) (colour : Bool) : List String :=
  [Style.applyIf { bold := true } colour ("repository." ++ l.name)] ++
    (align l.attributes).map (fun (k, v) ↦ "    " ++ k ++ " = " ++ v) ++
    l.keys.map (fun (name, readOnly) ↦
      "    deploy_key." ++ name ++ " (" ++ access readOnly ++ ")") ++
    l.teams.map (fun (name, permission) ↦ "    team." ++ name ++ " (" ++ permission ++ ")")

/-- The text of a listing. -/
def render (l : Listing) (colour : Bool) : String := "\n".intercalate (l.lines colour)

/-- The attributes of a repository: visibility and branch always, the others if they are set. -/
def attributesOf (visibility branch description license autoInit : Value) :
    List (String × String) :=
  let given (name : String) (v : Value) : List (String × String) :=
    match v with
    | .null => []
    | v => [(name, v.shown)]
  [("visibility", visibility.shown), ("default_branch", branch.shown)] ++
    given "description" description ++ given "license_template" license ++
    given "auto_init" autoInit

end Listing

/-- The listing of an entry. -/
def RepositoryEntry.listing (e : RepositoryEntry) : Listing :=
  { name := e.name
    attributes := Listing.attributesOf (.ofText? e.visibility) (.ofText? e.defaultBranch)
      (.ofText? e.description) (.ofText? e.options.licenseTemplate) (.ofFlag? e.options.autoInit)
    keys := e.deployKeys.map fun k ↦ (k.name, k.readOnly.getD false)
    teams := e.teams.map fun t ↦ (t.name, (Value.ofText? t.permission).shown) }

namespace Value

/-- The value of a field that has to be there. -/
def get (v : Value) (name : String) : Except Misuse Value :=
  match v.field? name with
  | some value => .ok value
  | none => .error .noSuchField

/-- The items that a listing shows for a field: those of a sequence. Values without items show
nothing; items that cannot have fields are a misuse. -/
def shownItems : Value → Except Misuse (List Value)
  | .list items | .tuple items | .set items => .ok items
  | .str s | .member _ _ (.str s) => if s.isEmpty then .ok [] else .error .noSuchField
  | .bytes b => if b.isEmpty then .ok [] else .error .noSuchField
  | .map entries => if entries.isEmpty then .ok [] else .error .noSuchField
  | .object _ _ values => if values.isEmpty then .ok [] else .error .noSuchField
  | _ => .error .wrongKind

/-- The listing of an unchecked object. -/
def listing (v : Value) : Except Misuse Listing := do
  let name ← v.get "name"
  let visibility ← v.get "visibility"
  let branch ← v.get "default_branch"
  let description ← v.get "description"
  let options ← v.get "options"
  let license ← options.get "license_template"
  let autoInit ← options.get "auto_init"
  let keys ← (← shownItems (← v.get "deploy_keys")).mapM fun k ↦ do
    let readOnly ← k.get "read_only"
    return ((← k.get "name").display, readOnly.truthy)
  let teams ← (← shownItems (← v.get "teams")).mapM fun t ↦ do
    let name ← t.get "name"
    return (name.display, (← t.get "permission").shown)
  return {
    name := name.display
    attributes := Listing.attributesOf visibility branch description license autoInit
    keys, teams }

end Value

namespace Terminal

/-- The summary of a configuration with the given number of repositories. -/
def summary (count : Value) (colour : Bool) : String :=
  let noun := if count.equal (.int 1) then "repository" else "repositories"
  Style.applyIf { colour := some .green, bold := true } colour
    ("Configuration is valid: " ++ count.display ++ " " ++ noun ++ ".")

/-- The vocabularies with their words in declared order. Transports are marked: no field is checked
against them. -/
def vocabularyRows (colour : Bool) : List (String × String) :=
  registries.map (fun r ↦ (r.name, ", ".intercalate r.values)) ++
    [(transports.name, ", ".intercalate (Transport.all.map Transport.text) ++
      Style.applyIf { colour := some .grey } colour "  (not validated)")]

/-- The text of the vocabularies. -/
def vocabulary (colour : Bool) : String :=
  "\n".intercalate <| (align (vocabularyRows colour)).map fun (name, words) ↦
    Style.applyIf { bold := true } colour name ++ "  " ++ words

end Terminal
end RepoManifest
