import RepoManifest.Value.Equality
import RepoManifest.Yaml.Node
import RepoManifest.Yaml.ScalarValue

/-!
# Meanings of nodes

A node stands for a value, and it may play other parts as well: its text where a scalar is asked
for, its entries where it is merged into a mapping. A `Meaning` holds all of them, so that an alias
needs no second reading of its node.
-/

namespace RepoManifest.Yaml

/-- What a node stands for in each part that it can play; `none` marks a part that it cannot.
`entries` are those that it gives to a mapping that it is merged into, `only` is its entry if it is
a mapping of one. -/
structure Meaning where
  tag : String
  value : Option Value
  text : Option (List Char) := none
  entries : Option (List (Value × Value)) := none
  only : Option (Value × Value) := none
  isMapping : Bool := false

namespace Meaning

/-- Nothing. -/
def null : Meaning := { tag := standardTag ScalarType.null.name, value := some .null }

/-- Whether a node is tagged with a type of the format. -/
def hasType (m : Meaning) (name : String) : Bool := m.tag == standardTag name

/-! ## Scalars -/

/-- The value of a text under a tag. -/
def valueOfText? (version : Version) (tag : String) (text : List Char) : Option Value :=
  let ofType (type : ScalarType) : Option (Option Value) :=
    if tag = standardTag type.name then some (scalarValue? version type text) else none
  if tag = standardTag "binary" then (Text.decodeBase64? text).map .bytes
  else
    let types : List ScalarType := [.text, .bool, .float, .int, .null, .timestamp]
    (types.findSome? ofType).getD none

/-- The tag of a scalar. Without one, or with an exclamation mark alone, a plain scalar has the type
that its text looks like; so has a quoted one with the mark. -/
def scalarTag? (version : Version) (label : Label) ( isPlain : Bool) (text : List Char) :
    Option String :=
  match label.tag with
  | some "!" => (ScalarType.ofPlain? version text).map (standardTag ·.name)
  | some tag => some tag
  | none =>
    if isPlain then (ScalarType.ofPlain? version text).map (standardTag ·.name)
    else some (standardTag ScalarType.text.name)

/-- The meaning of a scalar. -/
def ofScalar? (version : Version) (label : Label) (text : String) ( isPlain : Bool) :
    Option Meaning := do
  let text := text.toList
  let tag ← scalarTag? version label isPlain text
  some { tag, value := valueOfText? version tag text, text := some text }

/-! ## Collections -/

/-- The tag of a collection. -/
def collectionTag (label : Label) (type : String) : String :=
  match label.tag with
  | none | some "!" => standardTag type
  | some tag => tag

/-- A value as a key: sequences become tuples, and what can be no key is refused. -/
def keyOf? (v : Value) : Option Value :=
  let key := match v with
    | .list items => .tuple items
    | v => v
  if key.hashable then some key else none

/-- The entries of an ordered mapping. Keys that occur twice are refused. -/
def distinctEntries? (pairs : List (Value × Value)) : Option (List (Value × Value)) :=
  pairs.foldlM (fun entries (k, v) ↦
    if entries.any (fun (l, _) ↦ l.equal k) then none else some (entries ++ [(k, v)])) []

/-- The value of a sequence under a tag. -/
def valueOfItems? (tag : String) (items : List Meaning) : Option Value :=
  if tag = standardTag "seq" then (items.mapM Meaning.value).map .list
  else if tag = standardTag "omap" then do
    let pairs ← items.mapM Meaning.only
    if pairs.all (·.1.hashable) then (distinctEntries? pairs).map .map else none
  else if tag = standardTag "pairs" then
    (items.mapM Meaning.only).map fun pairs ↦ .list (pairs.map fun (k, v) ↦ .tuple [k, v])
  else none

/-- The meaning of a sequence. Merged, it gives the entries of its mappings, those of the last one
first. -/
def ofItems (label : Label) (items : List Meaning) : Meaning :=
  let tag := collectionTag label "seq"
  let entries := do
    let parts ← items.mapM fun m ↦ if m.isMapping then m.entries else none
    some parts.reverse.flatten
  { tag, value := valueOfItems? tag items, entries }

/-- The entries that are merged into a mapping. A second merge is refused, unless the first one gave
nothing. -/
def mergedEntries? (pairs : List (Meaning × Meaning)) : Option (List (Value × Value)) :=
  pairs.foldlM (fun merged (k, v) ↦
    if k.hasType ScalarType.merge.name then
      if merged.isEmpty then v.entries else none
    else some merged) []

/-- A key of a mapping. The mark of a default value is a key like any other. -/
def keyValue? (key : Meaning) : Option Value :=
  if key.hasType ScalarType.value.name then key.text.map fun s ↦ .str (String.ofList s)
  else key.value

/-- The entries of a mapping that are not merged. -/
def ownEntries? (pairs : List (Meaning × Meaning)) : Option (List (Value × Value)) :=
  (pairs.filter fun (k, _) ↦ !k.hasType ScalarType.merge.name).mapM fun (k, v) ↦ do
    some (← keyOf? (← keyValue? k), ← v.value)

/-- The text that a mapping has where a scalar is asked for: the text of its default value. -/
def defaultText? (pairs : List (Meaning × Meaning)) : Option (List Char) :=
  (pairs.find? fun (k, _) ↦ k.hasType ScalarType.value.name).bind fun (_, v) ↦ v.text

/-- The value of a mapping under a tag. With merged entries a later entry of a key wins; without
them a key that occurs twice is refused. -/
def valueOfPairs? (version : Version) (tag : String) (pairs : List (Meaning × Meaning)) :
    Option Value :=
  let entries : Option (List (Value × Value)) := do
    let merged ← mergedEntries? pairs
    let own ← ownEntries? pairs
    if merged.isEmpty then distinctEntries? own else some (Value.ofPairs (merged ++ own))
  if tag = standardTag "map" then entries.map .map
  else if tag = standardTag "set" then entries.map fun entries ↦ .set (entries.map (·.1))
  else if tag = standardTag ScalarType.timestamp.name then none
  else (defaultText? pairs).bind (valueOfText? version tag)

/-- The meaning of a mapping. -/
def ofPairs (version : Version) (label : Label) (pairs : List (Meaning × Meaning)) : Meaning :=
  let tag := collectionTag label "map"
  let only := match pairs with
    | [(k, v)] => do some (← k.value, ← v.value)
    | _ => none
  { tag
    value := valueOfPairs? version tag pairs
    text := defaultText? pairs
    entries := do some ((← mergedEntries? pairs) ++ (← ownEntries? pairs))
    only
    isMapping := true }

end Meaning

/-! ## Aliases -/

/-- The named nodes so far, the latest first. A node that is still open has no meaning yet;
`earlier` holds what the names meant in an earlier reading, and `isCyclic` notes that such a node
was used. -/
structure Anchors where
  known : List (String × Option Meaning) := []
  earlier : List (String × Option Meaning) := []
  isCyclic : Bool := false

namespace Anchors

/-- Give a name, if there is one, a meaning. -/
def bind (a : Anchors) (label : Label) (m : Option Meaning) : Anchors :=
  match label.anchor with
  | some name => { a with known := (name, m) :: a.known }
  | none => a

/-- The meaning of a name. A name that no node has is refused; one of a node around the alias has
its earlier meaning. -/
def find? (a : Anchors) (name : String) : Option (Meaning × Anchors) :=
  match a.known.lookup name with
  | none => none
  | some (some m) => some (m, a)
  | some none =>
    some (((a.earlier.lookup name).getD none).getD Meaning.null, { a with isCyclic := true })

end Anchors

namespace Node

mutual

/-- The meaning of a node, and the names after it. -/
def meaning? (version : Version) : Node → Anchors → Option (Meaning × Anchors)
  | .alias name, anchors => anchors.find? name
  | .scalar label text plain, anchors => do
    let m ← Meaning.ofScalar? version label text plain
    some (m, anchors.bind label (some m))
  | .sequence label items, anchors => do
    let (items, anchors) ← meanings? version items (anchors.bind label none)
    let m := Meaning.ofItems label items
    some (m, anchors.bind label (some m))
  | .mapping label entries, anchors => do
    let (pairs, anchors) ← meaningPairs? version entries (anchors.bind label none)
    let m := Meaning.ofPairs version label pairs
    some (m, anchors.bind label (some m))

/-- The meanings of items. -/
def meanings? (version : Version) : List Node → Anchors → Option (List Meaning × Anchors)
  | [], anchors => some ([], anchors)
  | node :: rest, anchors => do
    let (m, anchors) ← meaning? version node anchors
    let (more, anchors) ← meanings? version rest anchors
    some (m :: more, anchors)

/-- The meanings of entries. -/
def meaningPairs? (version : Version) :
    List (Node × Node) → Anchors → Option (List (Meaning × Meaning) × Anchors)
  | [], anchors => some ([], anchors)
  | (key, value) :: rest, anchors => do
    let (k, anchors) ← meaning? version key anchors
    let (v, anchors) ← meaning? version value anchors
    let (more, anchors) ← meaningPairs? version rest anchors
    some ((k, v) :: more, anchors)

end

/-- How often a node that holds an alias of itself is unrolled. -/
def maxUnrolling : Nat := 5

/-- The meaning of a document, a node inside of itself being unrolled a number of times. -/
def unrolled? (version : Version) (node : Node) : Nat → Anchors → Option Meaning
  | 0, anchors => (node.meaning? version anchors).map (·.1)
  | n + 1, anchors => do
    let (m, after) ← node.meaning? version anchors
    if after.isCyclic then unrolled? version node n { earlier := after.known } else some m

/-- The value of a document. -/
def value? (version : Version) (node : Node) : Option Value := do
  (← node.unrolled? version maxUnrolling {}).value

end Node
end RepoManifest.Yaml
