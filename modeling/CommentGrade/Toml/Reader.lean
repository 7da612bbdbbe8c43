import CommentGrade.Toml.Scalar

/-!
# Reading TOML

A document is a sequence of statements, each of which puts something into a tree of tables: a key with its value, or
a header that says where the following keys go. What is said about a table is remembered: a table that has had
its header may not have another one, and an inline table or array may not be added to.
-/
namespace CommentGrade.Toml

abbrev Entries := List (Value × Value)

/-- What has been read so far: the tables, and what may no longer be done to them. -/
structure Tables where
  entries : Entries := []
  /-- Tables that have been declared. -/
  declared : List (List String) := []
  /-- Tables that count as declared from the next header on. -/
  pending : List (List String) := []
  /-- Inline values; nothing below them may change. -/
  frozen : List (List String) := []

/-- Whether something may no longer change: it is frozen or lies below what is. -/
def Tables.isFrozen (t : Tables) (path : List String) : Bool := t.frozen.any (·.isPrefixOf path)

def Tables.isDeclared (t : Tables) (path : List String) : Bool := t.declared.contains path

/-- The last of the items replaced. -/
def replaceLast (v : Value) : List Value → List Value
  | [] => []
  | [_] => [v]
  | w :: ws => w :: replaceLast v ws

/-- Changes the table at a path, which is made where it does not exist. A path may lead through the last table
of an array, if wanted; it may not lead through another value. -/
def change (throughArrays : Bool) : List String → (Entries → Option Entries) → Entries → Option Entries
  | [], f, es => f es
  | k :: ks, f, es =>
    match Value.lookup k es with
    | none => (change throughArrays ks f []).map fun sub => Value.put k (.map sub) es
    | some (.map sub) => (change throughArrays ks f sub).map fun sub => Value.put k (.map sub) es
    | some (.list vs) =>
      if throughArrays then
        match vs.getLast? with
        | some (.map sub) =>
          (change throughArrays ks f sub).map fun sub => Value.put k (.list (replaceLast (.map sub) vs)) es
        | _ => none
      else none
    | some _ => none

/-- Puts a value under a key that is not there yet. -/
def addNew (key : String) (v : Value) (es : Entries) : Option Entries :=
  match Value.lookup key es with
  | some _ => none
  | none => some (Value.put key v es)

/-- Adds an empty table to the array under a key. -/
def addTable (key : String) (es : Entries) : Option Entries :=
  match Value.lookup key es with
  | none => some (Value.put key (.list [.map []]) es)
  | some (.list vs) => some (Value.put key (.list (vs ++ [.map []])) es)
  | some _ => none

def isBare (c : Char) : Bool := c.isAlphanum || c == '-' || c == '_'

def keyPart (cs : List Char) : Except FormatError (String × List Char) :=
  match cs with
  | [] => .error .malformed
  | c :: _ =>
    if isBare c then .ok (String.ofList (cs.takeWhile isBare), cs.dropWhile isBare) else lineString cs

/-- A key: parts with points between them. The number bounds the parts. -/
def key : Nat → List Char → Except FormatError (List String × List Char)
  | 0, _ => .error .malformed
  | n + 1, cs => do
    let (part, rest) ← keyPart cs
    match skipSpaces rest with
    | '.' :: rest => do
      let (parts, rest) ← key n (skipSpaces rest)
      return (part :: parts, rest)
    | rest => return ([part], rest)

/-- What follows a comment, if one comes next; it ends before the line feed. -/
def skipComment (cs : List Char) : Except FormatError (List Char) :=
  match cs with
  | '#' :: rest =>
    if (rest.takeWhile (· != '\n')).any isForbidden then .error .malformed
    else .ok (rest.dropWhile (· != '\n'))
  | _ => .ok cs

/-- What follows blanks, line feeds and comments. The number bounds the comments. -/
def skipFiller : Nat → List Char → Except FormatError (List Char)
  | 0, cs => .ok cs
  | n + 1, cs =>
    match cs.dropWhile fun c => isSpace c || c == '\n' with
    | '#' :: rest => do skipFiller n (← skipComment ('#' :: rest))
    | rest => .ok rest

/-- Whether a value is an inline table or an array. -/
def isNested : Value → Bool
  | .map _ | .list _ => true
  | _ => false

/-- What an option of entries is as a result. -/
def orMalformed {α : Type} : Option α → Except FormatError α
  | some a => .ok a
  | none => .error .malformed

mutual

/-- A value. The number bounds the steps taken. -/
def value : Nat → List Char → Except FormatError (Value × List Char)
  | 0, _ => .error .malformed
  | n + 1, cs =>
    match cs with
    | '[' :: rest => do
      match ← skipFiller rest.length rest with
      | ']' :: rest => return (.list [], rest)
      | rest =>
        let (vs, rest) ← items n rest
        return (.list vs, rest)
    | '\x7b' :: rest =>
      match skipSpaces rest with
      | '\x7d' :: rest => .ok (.map [], rest)
      | rest => do
        let (t, rest) ← inlineEntries n {} rest
        return (.map t.entries, rest)
    | '"' :: _ | '\'' :: _ => do
      let (s, rest) ← string cs
      return (.str s, rest)
    | _ => bareScalar cs

/-- The items of an array up to its closing bracket; a comma may follow the last one. -/
def items : Nat → List Char → Except FormatError (List Value × List Char)
  | 0, _ => .error .malformed
  | n + 1, cs => do
    let (v, rest) ← value n cs
    match ← skipFiller rest.length rest with
    | ']' :: rest => return ([v], rest)
    | ',' :: rest =>
      match ← skipFiller rest.length rest with
      | ']' :: rest => return ([v], rest)
      | rest =>
        let (vs, rest) ← items n rest
        return (v :: vs, rest)
    | _ => .error .malformed

/-- A key, an equals sign and a value. -/
def pair : Nat → List Char → Except FormatError ((List String × Value) × List Char)
  | 0, _ => .error .malformed
  | n + 1, cs => do
    let (path, rest) ← key cs.length cs
    match rest with
    | '=' :: rest =>
      let (v, rest) ← value n (skipSpaces rest)
      return ((path, v), rest)
    | _ => .error .malformed

/-- The entries of an inline table up to its closing brace. -/
def inlineEntries : Nat → Tables → List Char → Except FormatError (Tables × List Char)
  | 0, _, _ => .error .malformed
  | n + 1, t, cs => do
    let ((path, v), rest) ← pair n cs
    if t.isFrozen path then .error .malformed
    else
      let es ← orMalformed (change false path.dropLast (addNew (path.getLast?.getD "") v) t.entries)
      let frozen := if isNested v then path :: t.frozen else t.frozen
      match skipSpaces rest with
      | '\x7d' :: rest => return ({ t with entries := es }, rest)
      | ',' :: rest => inlineEntries n { t with entries := es, frozen := frozen } (skipSpaces rest)
      | _ => .error .malformed

end

/-- The paths from a header to the tables that the points of a key lead through. -/
def stepsOf (header path : List String) : List (List String) :=
  (List.range (path.length - 1)).map fun i => header ++ path.take (i + 1)

/-- A key with its value, below a header. -/
def assignment (t : Tables) (header : List String) (cs : List Char) : Except FormatError (Tables × List Char) := do
  let ((path, v), rest) ← pair (cs.length + 1) cs
  let steps := stepsOf header path
  let parent := header ++ path.dropLast
  if steps.any t.isDeclared || t.isFrozen parent then .error .malformed
  else
    let es ← orMalformed (change true parent (addNew (path.getLast?.getD "") v) t.entries)
    return ({ t with
      entries := es
      pending := steps ++ t.pending
      frozen := if isNested v then (header ++ path) :: t.frozen else t.frozen }, rest)

/-- The header of a table, from after its bracket. -/
def tableHeader (t : Tables) (cs : List Char) : Except FormatError ((Tables × List String) × List Char) := do
  let cs := skipSpaces cs
  let (path, rest) ← key (cs.length + 1) cs
  if t.isDeclared path || t.isFrozen path then .error .malformed
  else
    let es ← orMalformed (change true path some t.entries)
    match rest with
    | ']' :: rest => return (({ t with entries := es, declared := path :: t.declared }, path), rest)
    | _ => .error .malformed

/-- The header of a table in an array, from after its two brackets. What was said about the tables of the one
before it no longer holds. -/
def arrayHeader (t : Tables) (cs : List Char) : Except FormatError ((Tables × List String) × List Char) := do
  let cs := skipSpaces cs
  let (path, rest) ← key (cs.length + 1) cs
  if t.isFrozen path then .error .malformed
  else
    let below (p : List String) : Bool := path.isPrefixOf p
    let es ← orMalformed (change true path.dropLast (addTable (path.getLast?.getD "")) t.entries)
    match rest with
    | ']' :: ']' :: rest =>
      return (({ t with
        entries := es
        declared := path :: t.declared.filter (!below ·)
        frozen := t.frozen.filter (!below ·) }, path), rest)
    | _ => .error .malformed

/-- The statements of a document, one to a line. The number bounds the lines. -/
def statements : Nat → Tables → List String → List Char → Except FormatError Tables
  | 0, _, _, _ => .error .malformed
  | n + 1, t, header, cs => do
    match skipSpaces cs with
    | [] => return t
    | '\n' :: rest => statements n t header rest
    | cs =>
      let ((t, header), rest) ← match cs with
        | '[' :: '[' :: rest =>
          arrayHeader { t with declared := t.pending ++ t.declared, pending := [] } rest
        | '[' :: rest =>
          tableHeader { t with declared := t.pending ++ t.declared, pending := [] } rest
        | '#' :: _ => pure ((t, header), cs)
        | _ => do
          let (t, rest) ← assignment t header cs
          pure ((t, header), rest)
      match ← skipComment (skipSpaces rest) with
      | [] => return t
      | '\n' :: rest => statements n t header rest
      | _ => .error .malformed

/-- Line ends of two characters as one. -/
def joinLineEnds : List Char → List Char
  | '\r' :: '\n' :: cs => '\n' :: joinLineEnds cs
  | c :: cs => c :: joinLineEnds cs
  | [] => []

/-- A whole document: a table. -/
def read (cs : List Char) : Except FormatError Value := do
  let cs := joinLineEnds cs
  let t ← statements (cs.length + 1) {} [] cs
  return .map t.entries

end CommentGrade.Toml
