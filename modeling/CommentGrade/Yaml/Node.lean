import CommentGrade.Yaml.Token

/-!
# Nodes of YAML

The tree that tokens describe: scalars, sequences and mappings, each with its tag if it has one. An alias is the
node that its anchor names; it must come after that node, and no two nodes have the same anchor.
-/
namespace CommentGrade.Yaml

/-- A node. A tag that is missing is to be found from the node itself. -/
inductive Node where
  | scalar (tag : Option String) (text : String) (plain : Bool)
  | sequence (tag : Option String) (items : List Node)
  | mapping (tag : Option String) (entries : List (Node × Node))

namespace Node

instance : Inhabited Node := ⟨.scalar none "" true⟩

/-- The node where nothing is written. -/
def nothing : Node := .scalar none "" true

/-- What is left to be read, and the nodes that have names. -/
structure Progress where
  tokens : List Token
  anchors : List (String × Node) := []
  handles : List (String × String) := []

abbrev Builder := StateT Progress (Except TreeError)

def refuse {α : Type} : Builder α := throw .malformed

def peek : Builder (Option Token) := return (← get).tokens.head?

def drop : Builder Unit := modify fun p => { p with tokens := p.tokens.tail }

/-- Takes the next token if it is the given one. -/
def accept (t : Token) : Builder Bool := do
  if (← peek) == some t then
    drop
    return true
  else return false

/-- Takes the given token, which must come next. -/
def expect (t : Token) : Builder Unit := do
  if !(← accept t) then refuse

/-- Whether one of the given tokens comes next, or none. -/
def atOneOf (ts : List Token) : Builder Bool := do
  match ← peek with
  | none => return true
  | some t => return ts.contains t

def anchor? : Builder (Option String) := do
  match ← peek with
  | some (.anchor name) =>
    drop
    return some name
  | _ => return none

/-- A tag before a node, in full. -/
def tag? : Builder (Option String) := do
  match ← peek with
  | some (.tag none suffix) =>
    drop
    return some suffix
  | some (.tag (some handle) suffix) =>
    drop
    match (← get).handles.lookup handle with
    | some start => return some (start ++ suffix)
    | none => refuse
  | _ => return none

/-- An anchor and a tag before a node, in any order. -/
def properties : Builder (Option String × Option String) := do
  match ← anchor? with
  | some a => return (some a, ← tag?)
  | none =>
    let t ← tag?
    return (← anchor?, t)

mutual

/-- A node. Inside a flow collection there are no block collections. A sequence that is the value of a mapping
need not be indented. The number bounds the steps. -/
def build (block indentless : Bool) : Nat → Builder Node
  | 0 => refuse
  | n + 1 => do
    match ← peek with
    | some (.alias name) =>
      drop
      match (← get).anchors.lookup name with
      | some node => return node
      | none => refuse
    | _ =>
      let (anchor, tag) ← properties
      let written := if tag = some "!" then none else tag
      let node ← match ← peek with
        | some .blockEntry =>
          if indentless then pure (Node.sequence written (← indentlessItems n))
          else if anchor.isSome || tag.isSome then pure (Node.scalar written "" true)
          else refuse
        | some (.scalar text plain) =>
          drop
          pure (Node.scalar written text (plain || tag == some "!"))
        | some .flowSequenceStart =>
          drop
          pure (Node.sequence written (← flowItems true n))
        | some .flowMappingStart =>
          drop
          pure (Node.mapping written (← flowEntries true n))
        | some .blockSequenceStart =>
          if block then
            drop
            pure (Node.sequence written (← blockItems n))
          else if anchor.isSome || tag.isSome then pure (Node.scalar written "" true)
          else refuse
        | some .blockMappingStart =>
          if block then
            drop
            pure (Node.mapping written (← blockEntries n))
          else if anchor.isSome || tag.isSome then pure (Node.scalar written "" true)
          else refuse
        | _ => if anchor.isSome || tag.isSome then pure (Node.scalar written "" true) else refuse
      match anchor with
      | none => return node
      | some a =>
        if ((← get).anchors.lookup a).isSome then refuse
        else
          modify fun p => { p with anchors := (a, node) :: p.anchors }
          return node

def blockItems : Nat → Builder (List Node)
  | 0 => refuse
  | n + 1 => do
    if ← accept .blockEntry then
      let node ← if ← atOneOf [.blockEntry, .blockEnd] then pure nothing else build true false n
      return node :: (← blockItems n)
    else
      expect .blockEnd
      return []

/-- The items of a sequence that is not indented; its end is no token. -/
def indentlessItems : Nat → Builder (List Node)
  | 0 => refuse
  | n + 1 => do
    if ← accept .blockEntry then
      let node ←
        if ← atOneOf [.blockEntry, .key, .value, .blockEnd] then pure nothing else build true false n
      return node :: (← indentlessItems n)
    else return []

def blockEntries : Nat → Builder (List (Node × Node))
  | 0 => refuse
  | n + 1 => do
    if ← accept .key then
      let k ← if ← atOneOf [.key, .value, .blockEnd] then pure nothing else build true true n
      let v ← if ← accept .value then
          if ← atOneOf [.key, .value, .blockEnd] then pure nothing else build true true n
        else pure nothing
      return (k, v) :: (← blockEntries n)
    else
      expect .blockEnd
      return []

/-- The items of a flow sequence; a pair among them is a mapping of its own. -/
def flowItems (first : Bool) : Nat → Builder (List Node)
  | 0 => refuse
  | n + 1 => do
    if ← accept .flowSequenceEnd then return []
    else
      if !first then expect .flowEntry
      if ← accept .key then
        let k ← if ← atOneOf [.value, .flowEntry, .flowSequenceEnd] then pure nothing else build false false n
        let v ← if ← accept .value then
            if ← atOneOf [.flowEntry, .flowSequenceEnd] then pure nothing else build false false n
          else pure nothing
        return .mapping none [(k, v)] :: (← flowItems false n)
      else if ← accept .flowSequenceEnd then return []
      else
        let node ← build false false n
        return node :: (← flowItems false n)

/-- The entries of a flow mapping; a key without a value has nothing as its value. -/
def flowEntries (first : Bool) : Nat → Builder (List (Node × Node))
  | 0 => refuse
  | n + 1 => do
    if ← accept .flowMappingEnd then return []
    else
      if !first then expect .flowEntry
      if ← accept .key then
        let k ← if ← atOneOf [.value, .flowEntry, .flowMappingEnd] then pure nothing else build false false n
        let v ← if ← accept .value then
            if ← atOneOf [.flowEntry, .flowMappingEnd] then pure nothing else build false false n
          else pure nothing
        return (k, v) :: (← flowEntries false n)
      else if ← accept .flowMappingEnd then return []
      else
        let k ← build false false n
        return (k, nothing) :: (← flowEntries false n)

end

/-- The directives before a document. Each may be given once; the version must be 1. -/
def directives (version : Bool) (handles : List (String × String)) : Nat → Builder (List (String × String))
  | 0 => refuse
  | n + 1 => do
    match ← peek with
    | some (.versionDirective major) =>
      drop
      if version || major != 1 then refuse else directives true handles n
    | some (.tagDirective handle start) =>
      drop
      if (handles.lookup handle).isSome then refuse else directives version (handles ++ [(handle, start)]) n
    | some .otherDirective =>
      drop
      directives version handles n
    | _ => return handles ++ [("!", "!"), ("!!", "tag:yaml.org,2002:")]

/-- The ends of documents that come next are taken. -/
def skipEnds : Nat → Builder Unit
  | 0 => pure ()
  | n + 1 => do if ← accept .documentEnd then skipEnds n

/-- The one document of a stream; there may be none. -/
def document (n : Nat) : Builder (Option Node) := do
  match ← peek with
  | none => return none
  | some t =>
    let isExplicit := match t with
      | .documentStart | .versionDirective _ | .tagDirective .. | .otherDirective => true
      | _ => false
    let handles ← directives false [] n
    modify fun p => { p with handles := handles }
    if isExplicit then expect .documentStart
    let node ←
      match ← peek with
      | none | some .documentStart | some .documentEnd | some (.versionDirective _) | some (.tagDirective ..)
      | some .otherDirective => if isExplicit then pure nothing else refuse
      | _ => build true false n
    skipEnds n
    if (← peek).isSome then refuse
    return some node

def ofText (cs : List Char) : Except TreeError (Option Node) := do
  let ts ← tokens cs
  let (node, _) ← (document (4 * ts.length + 8)).run { tokens := ts }
  return node

end Node

end CommentGrade.Yaml
