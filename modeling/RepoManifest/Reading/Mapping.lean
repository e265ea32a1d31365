import RepoManifest.Reading.Scalar

/-!
# Reading mappings

A structure is read from a mapping, or from an object of its type, which counts as the mapping of
its fields. Declared fields are read in declared order; then each key that names no declared field
is an issue, in the order of the mapping.
-/

namespace RepoManifest.Reading

/-- The source form of a key. One that cannot be written is named by its kind. -/
def keyLiteral (key : Value) : String :=
  if key.hasLiteral then key.literal
  else
    let kind := match key with
      | .tuple _ => "tuple"
      | .member type _ _ => type
      | _ => "int"
    "<unprintable " ++ kind ++ " object>"

/-- Where the issue of a key is found: a word by name, an integer of 64 bits or a truth value by
position, any other key by its source form. -/
def keySegment (key : Value) : Segment :=
  match key with
  | .bool b => .index (if b then 1 else 0)
  | .int n | .member _ _ (.int n) =>
    if fitsWord n then .index n else .name (keyLiteral key)
  | v => .name (v.text?.getD (keyLiteral v))

/-- The issue of a key that names no declared field. -/
def keyIssue? (declared : List String) (key : Value) : Option Issue :=
  match key.text? with
  | some name => if name ∈ declared then none else some ⟨[keySegment key], .extra⟩
  | none => some ⟨[keySegment key], .keyNotText⟩

/-- The issues of the keys that name no declared field. -/
def keyIssues (declared : List String) (entries : List (Value × Value)) : List Issue :=
  entries.filterMap fun (key, _) ↦ keyIssue? declared key

/-- The entries of a mapping, or of an object of one of the given types. -/
def entries (types : List ObjectType) (v : Value) : Reading (List (Value × Value)) :=
  match v with
  | .map entries => .ok entries
  | .object type _ _ =>
    if type ∈ types then .ok (v.fields.map fun (f, value) ↦ (.str f.name, value))
    else fault (.notObject ((types.head?.map (·.name)).getD ""))
  | _ => fault (.notObject ((types.head?.map (·.name)).getD ""))

/-- A field that has a default. -/
def field {α : Type} (entries : List (Value × Value)) (name : String) (read : Value → Reading α)
    (default : α) : Reading α :=
  match Value.get? entries name with
  | some v => under (.name name) (read v)
  | none => .ok default

/-- A field that has to be there. -/
def requiredField {α : Type} (entries : List (Value × Value)) (name : String)
    (read : Value → Reading α) : Reading α :=
  match Value.get? entries name with
  | some v => under (.name name) (read v)
  | none => under (.name name) (fault .missing)

/-- A mapping's declared fields that have a key, in declared order. -/
def givenNames (declared : List String) (entries : List (Value × Value)) : List String :=
  declared.filter fun name ↦ (Value.get? entries name).isSome

end RepoManifest.Reading
