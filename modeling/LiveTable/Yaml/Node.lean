import LiveTable.Yaml.Lexeme

/-!
# Documents

A YAML document as a tree of nodes. An alias is the node of its anchor. A text may hold no document
at all, but not two.
-/

namespace LiveTable.Yaml

/-- A node of a document, with its tag if it has one. -/
inductive Node
  | scalar (style : Style) (tag : Option String) (text : String)
  | sequence (tag : Option String) (items : List Node)
  | mapping (tag : Option String) (entries : List (Node × Node))
  /-- An alias inside the node of its anchor. -/
  | loop
  deriving Inhabited

namespace Node

/-- The scalar that is not written. -/
def blank : Node := .scalar .plain none ""

/-- The text of a scalar. -/
def text? : Node → Option String
  | .scalar _ _ text => some text
  | _ => none

end Node

/-! ## Reading lexemes -/

/-- What is left to read, the nodes of anchors, and what declared handles stand for. The latest
anchor of a name is in front and counts. -/
structure Reader where
  rest : List Lexeme
  anchors : List (String × Node)
  handles : List (String × String)

/-- What the handles stand for that need no declaration. -/
def commonHandles : List (String × String) := [("!", "!"), ("!!", "tag:yaml.org,2002:")]

/-- A reader that may fail. -/
abbrev Reads (α : Type) := StateT Reader Option α

namespace Reads

/-- The lexeme that comes next. -/
def peek : Reads (Option Lexeme) := do return (← get).rest.head?

/-- Pass over the next lexeme. -/
def skip : Reads Unit := modify fun r => { r with rest := r.rest.drop 1 }

/-- Pass over a lexeme if it comes next. -/
def accept (l : Lexeme) : Reads Bool := do
  if (← peek) = some l then
    skip
    return true
  else return false

/-- Pass over a lexeme that must come next. -/
def expect (l : Lexeme) : Reads Unit := do
  if ← accept l then return
  failure

/-- One of the lexemes comes next. -/
def nextIn (ls : List Lexeme) : Reads Bool := do return (← peek).any ls.contains

/-- The anchor that comes next, if one does. -/
def anchor? : Reads (Option String) := do
  match ← peek with
  | some (.anchor name) => skip; return some name
  | _ => return none

/-- The full tag that comes next, if one does. -/
def tag? : Reads (Option String) := do
  match ← peek with
  | some (.tag "" rest) => skip; return some rest
  | some (.tag handle rest) =>
    skip
    match ((← get).handles ++ commonHandles).lookup handle with
    | some expansion => return some (expansion ++ rest)
    | none => failure
  | _ => return none

/-- The anchor and the tag of a node, in any order. -/
def properties : Reads (Option String × Option String) := do
  match ← anchor? with
  | some name => return (some name, ← tag?)
  | none =>
    let tag ← tag?
    return (← anchor?, tag)

/-- Read the node of an anchor. While it is read, an alias of the anchor stands for a loop. -/
def anchored (name : Option String) (read : Reads Node) : Reads Node := do
  match name with
  | none => read
  | some name =>
    let older := (← get).anchors.length
    modify fun r => { r with anchors := (name, .loop) :: r.anchors }
    let node ← read
    modify fun r =>
      { r with anchors := r.anchors.set (r.anchors.length - 1 - older) (name, node) }
    return node

end Reads

open Reads

/-- Lexemes behind which a value of a block mapping is missing. -/
def entryEnds : List Lexeme := [.key, .value, .blockEnd]

mutual

/-- Read a node. In a block, block collections are allowed; the items of a sequence may stand
without an indentation of their own where `plainItems` says so. -/
def node : Nat → (block plainItems : Bool) → Reads Node
  | 0, _, _ => failure
  | fuel + 1, block, plainItems => do
    if let some (.alias name) ← peek then
      skip
      match (← get).anchors.lookup name with
      | some node => return node
      | none => failure
    let (name, tag) ← properties
    anchored name (content fuel block plainItems tag (name.isSome || tag.isSome))

/-- Read a node behind its anchor and its tag. -/
def content : Nat → (block plainItems : Bool) → (tag : Option String) → (mayMiss : Bool) →
    Reads Node
  | 0, _, _, _, _ => failure
  | fuel + 1, block, plainItems, tag, mayMiss => do
    match ← peek with
    | some (.scalar style text) => skip; return .scalar style tag text
    | some .flowSequence => skip; return .sequence tag (← flowItems fuel true)
    | some .flowMapping => skip; return .mapping tag (← flowEntries fuel true)
    | some .item =>
      if plainItems then return .sequence tag (← items fuel false)
      else if mayMiss then return .scalar .plain tag ""
      else failure
    | some .blockSequence =>
      if block then skip; return .sequence tag (← items fuel true)
      else if mayMiss then return .scalar .plain tag ""
      else failure
    | some .blockMapping =>
      if block then skip; return .mapping tag (← entries fuel)
      else if mayMiss then return .scalar .plain tag ""
      else failure
    | _ => if mayMiss then return .scalar .plain tag "" else failure

/-- Read the items of a block sequence; one with an indentation of its own has an end. -/
def items : Nat → (indented : Bool) → Reads (List Node)
  | 0, _ => failure
  | fuel + 1, indented => do
    if ← accept .item then
      let ends := if indented then [.item, .blockEnd] else .item :: entryEnds
      let first ← if ← nextIn ends then pure .blank else node fuel true false
      return first :: (← items fuel indented)
    else
      if indented then expect .blockEnd
      return []

/-- Read the entries of a block mapping. -/
def entries : Nat → Reads (List (Node × Node))
  | 0 => failure
  | fuel + 1 => do
    if ← accept .key then
      let key ← if ← nextIn entryEnds then pure .blank else node fuel true true
      let value ← if ← accept .value then
          if ← nextIn entryEnds then pure .blank else node fuel true true
        else pure .blank
      return (key, value) :: (← entries fuel)
    else
      expect .blockEnd
      return []

/-- Read the items of a flow sequence. An item may be a mapping with one entry. -/
def flowItems : Nat → (first : Bool) → Reads (List Node)
  | 0, _ => failure
  | fuel + 1, first => do
    if ← accept .flowSequenceEnd then return []
    unless first do expect .comma
    if ← accept .key then
      let ends := [.value, .comma, .flowSequenceEnd]
      let key ← if ← nextIn ends then pure .blank else node fuel false false
      let value ← flowValue fuel .flowSequenceEnd
      return .mapping none [(key, value)] :: (← flowItems fuel false)
    else if ← accept .flowSequenceEnd then return []
    else
      let item ← node fuel false false
      return item :: (← flowItems fuel false)

/-- Read the entries of a flow mapping. A key may stand without a value. -/
def flowEntries : Nat → (first : Bool) → Reads (List (Node × Node))
  | 0, _ => failure
  | fuel + 1, first => do
    if ← accept .flowMappingEnd then return []
    unless first do expect .comma
    if ← accept .key then
      let ends := [.value, .comma, .flowMappingEnd]
      let key ← if ← nextIn ends then pure .blank else node fuel false false
      let value ← flowValue fuel .flowMappingEnd
      return (key, value) :: (← flowEntries fuel false)
    else if ← accept .flowMappingEnd then return []
    else
      let key ← node fuel false false
      return (key, .blank) :: (← flowEntries fuel false)

/-- Read the value of an entry in a flow collection. -/
def flowValue : Nat → (closing : Lexeme) → Reads Node
  | 0, _ => failure
  | fuel + 1, closing => do
    if ← accept .value then
      if ← nextIn [.comma, closing] then return .blank else node fuel false false
    else return .blank

end

/-! ## Documents -/

/-- Read the declarations in front of a document; `versioned` tells that one of the version was
read. No handle is declared twice. -/
def declarations : Nat → (versioned : Bool) → Reads Unit
  | 0, _ => failure
  | fuel + 1, versioned => do
    match ← peek with
    | some (.version major minor) =>
      if versioned || major != 1 || (minor != 1 && minor != 2) then failure
      skip
      declarations fuel true
    | some (.handle handle expansion) =>
      if ((← get).handles.lookup handle).isSome then failure
      skip
      modify fun r => { r with handles := (handle, expansion) :: r.handles }
      declarations fuel versioned
    | _ => pure ()

/-- Lexemes behind which the content of a document is missing. -/
def isDocumentEdge : Lexeme → Bool
  | .version .. | .handle .. | .documentStart | .documentEnd => true
  | _ => false

/-- Read the document of a text; its start may be marked. -/
def document (fuel : Nat) : Reads Node := do
  match ← peek with
  | some l =>
    if isDocumentEdge l then
      declarations fuel false
      expect .documentStart
      match ← peek with
      | some next => if isDocumentEdge next then return .blank else node fuel true false
      | none => return .blank
    else node fuel true false
  | none => failure

/-- Read the one document of a row of lexemes, if there is one. Marks of the end may follow. -/
def Node.ofLexemes? (ls : List Lexeme) : Option (Option Node) :=
  if ls.isEmpty then some none
  else
    match (document (4 * ls.length + 4)).run ⟨ls, [], []⟩ with
    | some (node, r) => if r.rest.all (· == .documentEnd) then some (some node) else none
    | none => none

/-- The document of a text. The outer option tells that the text can be read, the inner one that
there is a document. -/
def Node.read? (text : String) : Option (Option Node) := do Node.ofLexemes? (← Lexeme.ofText? text)

end LiveTable.Yaml
