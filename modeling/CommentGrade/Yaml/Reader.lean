import CommentGrade.Yaml.Binary
import CommentGrade.Yaml.Node
import CommentGrade.Yaml.Scalar

/-!
# Reading YAML

The value of a tree. A tag says what a node is; without one its form does. The entries of a merged mapping come
before the others, which may replace them.
-/
namespace CommentGrade.Yaml

/-- The start of the tags that the format defines itself. -/
def ownTag (name : String) : String := "tag:yaml.org,2002:" ++ name

def scalarTags : List (String × ScalarKind) :=
  [(ownTag "null", .null), (ownTag "bool", .bool), (ownTag "int", .int), (ownTag "float", .float),
    (ownTag "timestamp", .timestamp), (ownTag "binary", .binary), (ownTag "str", .str),
    (ownTag "merge", .merge), (ownTag "value", .value)]

/-- The kind of a scalar, if its tag is known. -/
def scalarKind? (tag : Option String) (text : String) (plain : Bool) : Option ScalarKind :=
  match tag with
  | some t => scalarTags.lookup t
  | none => some (if plain then kindOf text.toList else .str)

def scalarValue (kind : ScalarKind) (text : String) : Except ReadError Value :=
  let cs := text.toList
  match kind with
  | .null => .ok .null
  | .bool =>
    let word := String.ofList (Text.lower cs)
    match truthWords.lookup word with
    | some b => .ok (.bool b)
    | none => .error (.notTruthValue (Text.quoted word))
  | .int => (intOf cs).map .int
  | .float => (floatOf cs).map .float
  | .timestamp =>
    match timestamp? false cs with
    | some t => (momentOf t).map .moment
    | none => .error .notMoment
  | .binary => ((bytesOf cs).mapError .format).map .bytes
  | .str => .ok (.str text)
  | .merge | .value => .error (.format .malformed)

/-- Whether two keys are the same: numbers and truth values are compared by what they count. -/
def sameKey (a b : Value) : Bool :=
  let whole? : Value → Option Int
    | .int n => some n
    | .bool t => some (if t then 1 else 0)
    | _ => none
  match a, b with
  | .null, .null => true
  | .str s, .str t => s == t
  | .bytes s, .bytes t => s == t
  | .moment s, .moment t => s == t
  | .float x, .float y => x == y
  | .float x, v => (whole? v).any fun n => Number.Placed.compareInt x n == some .eq
  | v, .float x => (whole? v).any fun n => Number.Placed.compareInt x n == some .eq
  | v, w =>
    match whole? v, whole? w with
    | some m, some n => m == n
    | _, _ => false

/-- Puts an entry into a mapping: at the place of its key, else at the end. -/
def insertEntry (k v : Value) : List (Value × Value) → List (Value × Value)
  | [] => [(k, v)]
  | (l, w) :: es => if sameKey l k then (l, v) :: es else (l, w) :: insertEntry k v es

/-- Whether a value can be a key. -/
def isKey : Value → Bool
  | .list _ | .map _ | .set _ => false
  | _ => true

/-- A mapping of entries in order; a key that occurs again replaces the value. -/
def mappingOf (entries : List (Value × Value)) : Except FormatError (List (Value × Value)) :=
  entries.foldlM (fun es e => if isKey e.1 then .ok (insertEntry e.1 e.2 es) else .error .malformed) []

namespace Node

/-- The kind of scalar that a node is said to be, or is by its form. -/
def kind? : Node → Option ScalarKind
  | .scalar tag text plain => scalarKind? tag text plain
  | .sequence tag _ | .mapping tag _ => tag.bind fun t => scalarTags.lookup t

/-- Whether a key says that the value is to be merged. -/
def isMerge (n : Node) : Bool := n.kind? == some .merge

/-- Whether a key says that its value stands for the whole mapping. -/
def isDefault (n : Node) : Bool := n.kind? == some .value

/-- The node with another tag. -/
def withTag (n : Node) (tag : String) : Node :=
  match n with
  | .scalar _ text plain => .scalar (some tag) text plain
  | .sequence _ items => .sequence (some tag) items
  | .mapping _ es => .mapping (some tag) es

/-- A key; an equals sign as a key is a text. -/
def asKey (n : Node) : Node := if n.isDefault then n.withTag (ownTag "str") else n

mutual

/-- The text of a node that is said to be a scalar. In a mapping it is under the first key that is an equals sign. -/
def scalarText? : Node → Option String
  | .scalar _ text _ => some text
  | .sequence .. => none
  | .mapping _ es => defaultText? es

def defaultText? : List (Node × Node) → Option String
  | [] => none
  | (k, v) :: es => if isDefault k then scalarText? v else defaultText? es

end

mutual

/-- The entries of a mapping: those that are merged into it, then its own. -/
def flatten : List (Node × Node) → Except FormatError (List (Node × Node) × List (Node × Node))
  | [] => .ok ([], [])
  | (k, v) :: es => do
    if isMerge k then
      let merged ← mergedEntries v
      let (more, own) ← flatten es
      return (merged ++ more, own)
    else
      let (merged, own) ← flatten es
      return (merged, (k.asKey, v) :: own)

/-- The entries of a node that is merged: a mapping, or several, of which the earlier ones count more. -/
def mergedEntries : Node → Except FormatError (List (Node × Node))
  | .mapping _ es => do
    let (merged, own) ← flatten es
    return merged ++ own
  | .sequence _ items => mergedItems items
  | .scalar .. => .error .malformed

def mergedItems : List Node → Except FormatError (List (Node × Node))
  | [] => .ok []
  | .mapping _ es :: items => do
    let (merged, own) ← flatten es
    let later ← mergedItems items
    return later ++ merged ++ own
  | _ :: _ => .error .malformed

end

/-- The one entry of a mapping in an ordered list. -/
def onlyEntry : Node → Except FormatError (Node × Node)
  | .mapping _ [e] => .ok e
  | _ => .error .malformed

/-- The value of a node that is a scalar by its tag or its form. -/
def asScalar (n : Node) : Except ReadError Value :=
  match n.kind?, n.scalarText? with
  | some kind, some text => scalarValue kind text
  | _, _ => .error (.format .malformed)

/-- The value of a node. The number bounds the depth. -/
def toValue : Nat → Node → Except ReadError Value
  | 0, _ => .error (.format .malformed)
  | n + 1, node =>
    let entries (es : List (Node × Node)) : Except ReadError (List (Value × Value)) := do
      let (merged, own) ← (flatten es).mapError .format
      let vs ← (merged ++ own).mapM fun e => do return (← toValue n e.1, ← toValue n e.2)
      (mappingOf vs).mapError .format
    let pairs (items : List Node) : Except ReadError Value := do
      let es ← (items.mapM onlyEntry).mapError .format
      let vs ← es.mapM fun e => do return .tuple [← toValue n e.1, ← toValue n e.2]
      return .list vs
    match node with
    | .scalar .. => node.asScalar
    | .sequence tag items =>
      if tag = none ∨ tag = some (ownTag "seq") then do return .list (← items.mapM (toValue n))
      else if tag = some (ownTag "omap") ∨ tag = some (ownTag "pairs") then pairs items
      else .error (.format .malformed)
    | .mapping tag es =>
      if tag = none ∨ tag = some (ownTag "map") then do return .map (← entries es)
      else if tag = some (ownTag "set") then do return .set ((← entries es).map (·.1))
      else node.asScalar

end Node

/-- A number that bounds the depth of what a text describes. -/
def depthBound (cs : List Char) : Nat := 4 * cs.length + 8

/-- A whole document; one without content is null. -/
def read (cs : List Char) : Except ReadError Value := do
  match ← (Node.ofText cs).mapError .tree with
  | none => return .null
  | some node => node.toValue (depthBound cs)

/-- A reader of documents, whose errors are told apart as far as anyone asks. -/
def reader (cs : List Char) : Except DocumentError Value := (read cs).mapError ReadError.toDocumentError

end CommentGrade.Yaml
