import RepoManifest.Yaml.Token

/-!
# Nodes

A document as a tree: scalars, sequences, mappings and aliases, with the names given to them. The
tree is read from the tokens by recursive descent.
-/

namespace RepoManifest.Yaml

/-- The names given to a node: one that aliases use, and the name of its type. -/
structure Label where
  anchor : Option String := none
  tag : Option String := none
  deriving DecidableEq, Repr, Inhabited

/-- A node of a document. -/
inductive Node
  | scalar (label : Label) (text : String) ( isPlain : Bool)
  | sequence (label : Label) (items : List Node)
  | mapping (label : Label) (entries : List (Node × Node))
  | alias (name : String)
  deriving Repr, Inhabited

/-- What the rest of a document is read with: whether its version lets a key be left out, and the
abbreviations of tags. -/
structure Grammar where
  emptyKeys : Bool
  handles : List (String × String)

/-- The name that all types of the format itself start with. -/
def standardTag (name : String) : String := "tag:yaml.org,2002:" ++ name

/-- The abbreviations that every document has. -/
def standardHandles : List (String × String) := [("!", "!"), ("!!", standardTag "")]

namespace Node

/-- The deepest nesting that is read. -/
def maxDepth : Nat := 480

/-- A node that is left out. -/
def missing : Node := .scalar {} "" true

/-- A tag in full. An abbreviation that the document does not define is refused. -/
def fullTag? (handles : List (String × String)) (tag : Tag) : Option String :=
  match tag.handle with
  | none => some tag.suffix
  | some handle => (handles.lookup handle).map (· ++ tag.suffix)

/-- The names in front of a node, in either order. -/
def label? (handles : List (String × String)) : List Token → Option (Label × List Token)
  | .anchor name :: .tag tag :: rest | .tag tag :: .anchor name :: rest => do
    some (⟨some name, some (← fullTag? handles tag)⟩, rest)
  | .anchor name :: rest => some (⟨some name, none⟩, rest)
  | .tag tag :: rest => do some (⟨none, some (← fullTag? handles tag)⟩, rest)
  | rest => some ({}, rest)

/-- Whether the next token is one of the given ones. -/
def nextIn (tokens : List Token) (choices : List Token) : Bool :=
  match tokens with
  | t :: _ => choices.contains t
  | [] => false

/-- The tokens before which a node of a block mapping may be left out. -/
def blockStops : List Token := [.key, .value, .blockEnd]

/-- The tokens before which a node inside brackets may be left out. -/
def flowStops (closing : Token) : List Token := [.value, .separator, closing]

mutual

/-- Read a node. Collections may be indented only if `block` is set, and entries may stand without
an indentation of their own if `bare` is set. `depth` bounds the nesting. -/
def node? (g : Grammar) (block bare : Bool) :
    Nat → Nat → List Token → Option (Node × List Token)
  | 0, _, _ => none
  | fuel + 1, depth, tokens =>
    match tokens with
    | .alias name :: rest => some (.alias name, rest)
    | _ => do
      let (label, rest) ← label? g.handles tokens
      if depth = 0 then none
      let depth := depth - 1
      match rest, block, bare with
      | .entry :: _, _, true => do
        let (items, rest) ← bareItems? g fuel depth rest
        some (.sequence label items, rest)
      | .scalar text plain :: rest, _, _ => some (.scalar label text plain, rest)
      | .flowSequenceStart :: rest, _, _ => do
        let (items, rest) ← flowItems? g true fuel depth rest
        some (.sequence label items, rest)
      | .flowMappingStart :: rest, _, _ => do
        let (entries, rest) ← flowEntries? g true fuel depth rest
        some (.mapping label entries, rest)
      | .sequenceStart :: rest, true, _ => do
        let (items, rest) ← blockItems? g fuel depth rest
        some (.sequence label items, rest)
      | .mappingStart :: rest, true, _ => do
        let (entries, rest) ← blockEntries? g fuel depth rest
        some (.mapping label entries, rest)
      | _, _, _ => if label = {} then none else some (.scalar label "" true, rest)
termination_by structural fuel => fuel

/-- Read a node that may be left out before one of the given tokens. -/
def optionalNode? (g : Grammar) (block bare : Bool) (stops : List Token) :
    Nat → Nat → List Token → Option (Node × List Token)
  | 0, _, _ => none
  | fuel + 1, depth, tokens =>
    if nextIn tokens stops then some (missing, tokens) else node? g block bare fuel depth tokens
termination_by structural fuel => fuel

/-- Read the value after a key, if a value is in front. -/
def valueNode? (g : Grammar) (block : Bool) (stops : List Token) :
    Nat → Nat → List Token → Option (Node × List Token)
  | 0, _, _ => none
  | fuel + 1, depth, tokens =>
    match tokens with
    | .value :: rest => optionalNode? g block block stops fuel depth rest
    | _ => some (missing, tokens)
termination_by structural fuel => fuel

/-- Read the items of an indented sequence. -/
def blockItems? (g : Grammar) : Nat → Nat → List Token → Option (List Node × List Token)
  | 0, _, _ => none
  | fuel + 1, depth, tokens =>
    match tokens with
    | .entry :: rest => do
      let (item, rest) ← optionalNode? g true false [.entry, .blockEnd] fuel depth rest
      let (more, rest) ← blockItems? g fuel depth rest
      some (item :: more, rest)
    | .blockEnd :: rest => some ([], rest)
    | _ => none
termination_by structural fuel => fuel

/-- Read the items of a sequence that has no indentation of its own. -/
def bareItems? (g : Grammar) : Nat → Nat → List Token → Option (List Node × List Token)
  | 0, _, _ => none
  | fuel + 1, depth, tokens =>
    match tokens with
    | .entry :: rest => do
      let (item, rest) ← optionalNode? g true false (.entry :: blockStops) fuel depth rest
      let (more, rest) ← bareItems? g fuel depth rest
      some (item :: more, rest)
    | rest => some ([], rest)
termination_by structural fuel => fuel

/-- Read the entries of an indented mapping. -/
def blockEntries? (g : Grammar) :
    Nat → Nat → List Token → Option (List (Node × Node) × List Token)
  | 0, _, _ => none
  | fuel + 1, depth, tokens =>
    let entry (key : Node) (rest : List Token) : Option (List (Node × Node) × List Token) := do
      let (value, rest) ← valueNode? g true blockStops fuel depth rest
      let (more, rest) ← blockEntries? g fuel depth rest
      some ((key, value) :: more, rest)
    match tokens with
    | .key :: rest => do
      let (key, rest) ← optionalNode? g true true blockStops fuel depth rest
      entry key rest
    | .value :: _ => if g.emptyKeys then entry missing tokens else none
    | .blockEnd :: rest => some ([], rest)
    | _ => none
termination_by structural fuel => fuel

/-- Read the items of a sequence in brackets. A key in it makes a mapping of one entry. -/
def flowItems? (g : Grammar) ( isFirst : Bool) :
    Nat → Nat → List Token → Option (List Node × List Token)
  | 0, _, _ => none
  | fuel + 1, depth, tokens =>
    let item (tokens : List Token) : Option (List Node × List Token) :=
      match tokens with
      | .flowSequenceEnd :: rest => some ([], rest)
      | .key :: rest => do
        if depth = 0 then none
        let stops := flowStops .flowSequenceEnd
        let (key, rest) ← optionalNode? g false false stops fuel (depth - 1) rest
        let (value, rest) ← valueNode? g false [.separator, .flowSequenceEnd] fuel (depth - 1) rest
        let (more, rest) ← flowItems? g false fuel depth rest
        some (.mapping {} [(key, value)] :: more, rest)
      | _ => do
        let (item, rest) ← node? g false false fuel depth tokens
        let (more, rest) ← flowItems? g false fuel depth rest
        some (item :: more, rest)
    match tokens, isFirst with
    | .flowSequenceEnd :: rest, _ => some ([], rest)
    | _, true => item tokens
    | .separator :: rest, false => item rest
    | _, false => none
termination_by structural fuel => fuel

/-- Read the entries of a mapping in brackets. -/
def flowEntries? (g : Grammar) ( isFirst : Bool) :
    Nat → Nat → List Token → Option (List (Node × Node) × List Token)
  | 0, _, _ => none
  | fuel + 1, depth, tokens =>
    let entry (key : Node) (rest : List Token) : Option (List (Node × Node) × List Token) := do
      let (value, rest) ← valueNode? g false [.separator, .flowMappingEnd] fuel depth rest
      let (more, rest) ← flowEntries? g false fuel depth rest
      some ((key, value) :: more, rest)
    let item (tokens : List Token) : Option (List (Node × Node) × List Token) :=
      match tokens with
      | .flowMappingEnd :: rest => some ([], rest)
      | .key :: rest => do
        let stops := flowStops .flowMappingEnd
        let (key, rest) ← optionalNode? g false false stops fuel depth rest
        entry key rest
      | _ =>
        if g.emptyKeys && nextIn tokens [.value] then entry missing tokens
        else do
          let (key, rest) ← node? g false false fuel depth tokens
          let (more, rest) ← flowEntries? g false fuel depth rest
          some ((key, missing) :: more, rest)
    match tokens, isFirst with
    | .flowMappingEnd :: rest, _ => some ([], rest)
    | _, true => item tokens
    | .separator :: rest, false => item rest
    | _, false => none
termination_by structural fuel => fuel

end

/-- Read the node of a document. A token leads to few steps, so its fuel depends on their number. -/
def root? (g : Grammar) (tokens : List Token) : Option (Node × List Token) :=
  node? g true false (4 * tokens.length + 8) maxDepth tokens

/-- The abbreviations that directives define. A second version, one that does not start with 1, and
an abbreviation that is defined twice are refused. -/
def directives? (versioned : Bool) (handles : List (String × String)) :
    List Token → Option (List (String × String) × List Token)
  | .directive (.version v) :: rest =>
    if versioned ∨ v.major ≠ 1 then none else directives? true handles rest
  | .directive (.tag handle text) :: rest =>
    if (handles.lookup handle).isSome then none
    else directives? versioned ((handle, text) :: handles) rest
  | .directive .other :: rest => directives? versioned handles rest
  | rest => some (handles, rest)

/-- Whether the document is over. After the mark of its end a legacy document may hold more of
them. -/
def isOver (version : Version) (tokens : List Token) : Bool :=
  if version = Version.legacy then tokens.all (· == .documentEnd)
  else tokens.isEmpty || tokens == [.documentEnd]

/-- Read the only document of a text: its node, or nothing if the text is empty. -/
def ofTokens? (version : Version) (tokens : List Token) : Option (Option Node) := do
  let finish : Node × List Token → Option (Option Node) := fun (node, rest) ↦
    if isOver version rest then some (some node) else none
  match tokens with
  | [] => some none
  | .directive _ :: _ | .documentStart :: _ =>
    let (handles, rest) ← directives? false [] tokens
    match rest with
    | .documentStart :: rest =>
      let g := ⟨version.isModern, handles ++ standardHandles⟩
      match rest with
      | [] | .directive _ :: _ | .documentStart :: _ | .documentEnd :: _ => finish (missing, rest)
      | _ => finish (← root? g rest)
    | _ => none
  | _ => finish (← root? ⟨version.isModern, standardHandles⟩ tokens)

end Node
end RepoManifest.Yaml
