import RepoManifest.Log.Record
import RepoManifest.Resource.Finding
import RepoManifest.Resource.Reading

/-!
# Unchecked resource objects

A resource can be held as an object whose fields are assigned without checks. `ResourceKind` names
the kinds, and says which fields filling sets and which list fields it enters. Filling an unchecked
object stops at the first value that cannot be entered; what was filled before stays filled.
-/

namespace RepoManifest

/-- The kinds of resource. -/
inductive ResourceKind where
  | repository | entry | createOptions | deployKey | teamAccess
  deriving DecidableEq, Repr, Inhabited

namespace ResourceKind

/-- Every kind. -/
def all : List ResourceKind := [repository, entry, createOptions, deployKey, teamAccess]

/-- The type of the objects of a kind. -/
def objectType : ResourceKind → ObjectType
  | repository => Repository.objectType
  | entry => RepositoryEntry.objectType
  | createOptions => CreateOptions.objectType
  | deployKey => DeployKey.objectType
  | teamAccess => TeamAccess.objectType

/-- The kind of a type name. -/
def ofName? (name : String) : Option ResourceKind := all.find? (·.objectType.name == name)

/-- The kind of an object's type. -/
def ofType? (type : ObjectType) : Option ResourceKind := all.find? (·.objectType == type)

/-- The fields that filling sets if they are unset, with their values. -/
def defaults : ResourceKind → List (String × Value)
  | repository | entry =>
    [("visibility", .str defaultVisibility), ("default_branch", .str defaultBranchName)]
  | createOptions => []
  | deployKey => [("read_only", .bool true)]
  | teamAccess => [("permission", .str defaultPermission)]

/-- The list fields that filling enters. -/
def entered : ResourceKind → List String
  | entry => ["deploy_keys", "teams"]
  | _ => []

/-- Whether objects of a kind can be filled. -/
def fillable : ResourceKind → Bool
  | createOptions => false
  | _ => true

/-- Whether an object of a type counts as one of a kind: an entry is a repository too. -/
def includes (kind : ResourceKind) (type : ObjectType) : Bool :=
  type == kind.objectType || (kind == repository && type == RepositoryEntry.objectType)

/-- Read an object of a kind. An object that is one already is taken as it is. -/
def read (kind : ResourceKind) (v : Value) : Reading Value :=
  match v with
  | .object type assigned values =>
    if kind.includes type then .ok (.object type assigned values)
    else Reading.fault (.notObject kind.objectType.name)
  | .map given =>
    let assigned := Reading.givenNames kind.objectType.names given
    match kind with
    | repository => (Repository.read v).map (·.toObject assigned)
    | entry => (RepositoryEntry.read v).map (·.toObject assigned)
    | createOptions => (CreateOptions.read v).map (·.toObject assigned)
    | deployKey => (DeployKey.read v).map (·.toObject assigned)
    | teamAccess => (TeamAccess.read v).map (·.toObject assigned)
  | _ => Reading.fault (.notObject kind.objectType.name)

end ResourceKind

namespace Value

/-- Replace the values of the fields of a name. -/
def assignField (name : String) (value : Value) : List FieldDecl → List Value → List Value
  | f :: fields, v :: values =>
    (if f.name = name then value else v) :: assignField name value fields values
  | _, values => values

/-- Assign a field of an object without checking the value. Fails if there is no such field. -/
def assign? (object : Value) (name : String) (value : Value) : Option Value :=
  match object with
  | .object type assigned values =>
    if type.fields.any (·.name == name) then
      let assigned := if name ∈ assigned then assigned else assigned ++ [name]
      some (.object type assigned (assignField name value type.fields values))
    else none
  | _ => none

/-- The wording for a field that an object's type does not have. -/
def assignMessage (type name : String) : String :=
  "\"" ++ type ++ "\" object has no field \"" ++ name ++ "\""

/-- The names of the fields that were given explicitly, in alphabetical order. -/
def assignedNames : Value → List String
  | .object _ assigned _ => assigned.mergeSort fun a b ↦ decide (a ≤ b)
  | _ => []

/-- Why a field of an object's part cannot be assigned. -/
inductive AssignFault where
  | misuse (cause : Misuse)
  | outOfRange
  | noField (type : String)
  deriving DecidableEq, Repr

/-- Assign a field of a value. -/
def assignChecked (target : Value) (name : String) (value : Value) : Except AssignFault Value :=
  match target.assign? name value, target with
  | some v, _ => .ok v
  | none, .object type _ _ => .error (.noField type.name)
  | none, _ => .error (.misuse .noSuchField)

/-- The list index of a position; negative positions count from the end. -/
def position? (size : Nat) (i : Int) : Option Nat :=
  let j := if i < 0 then i + size else i
  if 0 ≤ j ∧ j < size then some j.toNat else none

/-- Assign a field of an object's part: of the object in a field or of one in a list field. -/
def assignIn (object : Value) (field : String) (index : Option Int) (name : String)
    (value : Value) : Except AssignFault Value := do
  let part ← match object.field? field with
    | some part => .ok part
    | none => .error (.misuse .noSuchField)
  let inItems (items : List Value) (i : Int) : Except AssignFault (List Value) :=
    match position? items.length i with
    | none => .error .outOfRange
    | some j => do
      let item ← (items.getD j .null).assignChecked name value
      return items.set j item
  let part ← match part, index with
    | part, none => part.assignChecked name value
    | .list items, some i => (inItems items i).map .list
    | .tuple items, some i => (inItems items i).map .tuple
    | _, some _ => .error (.misuse .wrongKind)
  return match object with
    | .object type assigned values =>
      .object type assigned (assignField field part type.fields values)
    | v => v

/-- The kind of a resource object. -/
def kind? : Value → Option ResourceKind
  | .object type _ _ => ResourceKind.ofType? type
  | _ => none

/-- Whether filling is defined on a value. -/
def fillable (v : Value) : Bool := v.kind?.any ResourceKind.fillable

/-- Set the unset fields that have a default. -/
def fillFields (defaults : List (String × Value)) : List FieldDecl → List Value → List Value
  | f :: fields, v :: values =>
    let filled := match v, defaults.lookup f.name with
      | .null, some d => d
      | v, _ => v
    filled :: fillFields defaults fields values
  | _, values => values

/-- The names of the unset fields that have a default. -/
def unsetNames (defaults : List (String × Value)) : List FieldDecl → List Value → List String
  | f :: fields, v :: values =>
    let rest := unsetNames defaults fields values
    match v, defaults.lookup f.name with
    | .null, some _ => f.name :: rest
    | _, _ => rest
  | _, _ => []

/-- Why the items of a value that is no list cannot be filled: it has no items, or it has items that
are no resources. Without items there is nothing to fill. -/
def itemsMisuse? : Value → Option Misuse
  | .str s | .member _ _ (.str s) => if s.isEmpty then none else some .noSuchField
  | .bytes b => if b.isEmpty then none else some .noSuchField
  | .map entries => if entries.isEmpty then none else some .noSuchField
  | .set items => if items.isEmpty then none else some .noSuchField
  | .object _ _ values => if values.isEmpty then none else some .noSuchField
  | _ => some .wrongKind

mutual

/-- Fill a resource object, and say what stopped the filling, if anything did. -/
def filled : Value → Value × Option Misuse
  | .object type assigned values =>
    match ResourceKind.ofType? type with
    | none => (.object type assigned values, some .noSuchField)
    | some kind =>
      if kind.fillable then
        let unset := unsetNames kind.defaults type.fields values
        let (entered, stopped) := filledFields kind.entered type.fields values
        (.object type (assigned ++ unset.filter (· ∉ assigned))
          (fillFields kind.defaults type.fields entered), stopped)
      else (.object type assigned values, some .noSuchField)
  | v => (v, some .noSuchField)

/-- Fill the resources in the list fields of the given names, until something stops it. -/
def filledFields (names : List String) :
    List FieldDecl → List Value → List Value × Option Misuse
  | f :: fields, v :: values =>
    if f.name ∈ names then
      match filledIn v with
      | (v, some misuse) => (v :: values, some misuse)
      | (v, none) =>
        let (values, stopped) := filledFields names fields values
        (v :: values, stopped)
    else
      let (values, stopped) := filledFields names fields values
      (v :: values, stopped)
  | _, values => (values, none)

/-- Fill the resources in a list. -/
def filledIn : Value → Value × Option Misuse
  | .list items =>
    let (items, stopped) := filledItems items
    (.list items, stopped)
  | .tuple items =>
    let (items, stopped) := filledItems items
    (.tuple items, stopped)
  | v => (v, v.itemsMisuse?)

/-- Fill items in order, until something stops it. -/
def filledItems : List Value → List Value × Option Misuse
  | [] => ([], none)
  | v :: rest =>
    match filled v with
    | (v, some misuse) => (v :: rest, some misuse)
    | (v, none) =>
      let (rest, stopped) := filledItems rest
      (v :: rest, stopped)

end

/-- What became of an object that was filled and checked: the object as it is now, what stopped the
filling, the result of the check, and what was logged. -/
structure FillOutcome where
  object : Value
  stopped : Option Misuse
  check : Except InvalidObject Unit
  log : List LogRecord

/-- The record of an object that is about to be filled. -/
def fillRecord (type : String) : LogRecord :=
  ⟨.debug, "git_providers.resources.base", "Defaulting " ++ type⟩

/-- Fill a resource if that is defined on it, then check it. The object is kept as filled whether or
not it is valid. -/
def fillAndCheck (type : String) (object : Value) : FillOutcome :=
  if object.fillable then
    match object.filled with
    | (object, some misuse) => ⟨object, some misuse, .ok (), [fillRecord type]⟩
    | (object, none) => ⟨object, none, object.checkObject type, [fillRecord type]⟩
  else ⟨object, none, object.checkObject type, []⟩

/-- Filling a checked team grant is filling its object. -/
theorem filled_teamAccess (t : TeamAccess) :
    ∃ assigned, (t.toObject).filled = (t.default.toObject assigned, none) := by
  rcases t with ⟨name, _ | permission⟩
  · exact ⟨["permission"], rfl⟩
  · exact ⟨[], rfl⟩

/-- Filling a checked deploy key is filling its object. -/
theorem filled_deployKey (k : DeployKey) :
    ∃ assigned, (k.toObject).filled = (k.default.toObject assigned, none) := by
  rcases k with ⟨name, key, _ | readOnly, credentialType⟩
  · exact ⟨["read_only"], rfl⟩
  · exact ⟨[], rfl⟩

end Value
end RepoManifest
