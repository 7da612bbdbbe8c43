import CommentGrade.Value.Basic

/-!
# Writing JSON

Characters are written as themselves, except the quote, the backslash and the controls. A document is compact
or laid out, with an indent of two blanks for each level; empty lists and mappings stay on one line.
-/
namespace CommentGrade.Json

open Number

def escapeChar (c : Char) : List Char :=
  if c = '"' then ['\\', '"']
  else if c = '\\' then ['\\', '\\']
  else if c = '\n' then ['\\', 'n']
  else if c = '\r' then ['\\', 'r']
  else if c = '\t' then ['\\', 't']
  else if c = '\x08' then ['\\', 'b']
  else if c = '\x0c' then ['\\', 'f']
  else if c.toNat < 0x20 then '\\' :: 'u' :: Text.hex 4 c.toNat
  else [c]

def string (s : String) : String :=
  "\"" ++ String.ofList (s.toList.flatMap escapeChar) ++ "\""

/-- The text of a float: its shortest decimal, or one of the three names. -/
def number (x : Float) : String :=
  match Binary.ofFloat x with
  | .notANumber => "NaN"
  | .infinite negative => if negative then "-Infinity" else "Infinity"
  | .finite .. => floatText x

/-- How the parts of a document are set apart: the indent of a level, if there is one. -/
structure Format where
  indent : Option Nat
  afterColon : String

def compact : Format := ⟨none, ""⟩

def pretty : Format := ⟨some 2, " "⟩

/-- The start of a line at a depth, or nothing in a compact document. -/
def Format.newLine (f : Format) (depth : Nat) : String :=
  match f.indent with
  | none => ""
  | some n => "\n" ++ String.ofList (List.replicate (n * depth) ' ')

/-- Parts between brackets, each on its own line. -/
def Format.bracket (f : Format) (depth : Nat) (opening closing : String) (parts : List String) : String :=
  if parts.isEmpty then opening ++ closing
  else opening ++ f.newLine (depth + 1) ++ ("," ++ f.newLine (depth + 1)).intercalate parts ++
    f.newLine depth ++ closing

mutual

/-- The text of a value at a depth. Values that JSON lacks are written as strings. -/
def Format.render (f : Format) (depth : Nat) : Value → String
  | .null => "null"
  | .bool b => if b then "true" else "false"
  | .int n => toString n
  | .float x => number x
  | .str s => string s
  | .moment m => string m.text
  | .bytes bs => string (Value.quotedBytes bs)
  | .list vs => f.bracket depth "[" "]" (f.renderItems (depth + 1) vs)
  | .tuple vs => f.bracket depth "[" "]" (f.renderItems (depth + 1) vs)
  | .set vs => f.bracket depth "[" "]" (f.renderItems (depth + 1) vs)
  | .map es => f.bracket depth "\x7b" "\x7d" (f.renderEntries (depth + 1) es)

def Format.renderItems (f : Format) (depth : Nat) : List Value → List String
  | [] => []
  | v :: vs => f.render depth v :: f.renderItems depth vs

def Format.renderEntries (f : Format) (depth : Nat) : List (Value × Value) → List String
  | [] => []
  | (k, v) :: es => (string k.text ++ ":" ++ f.afterColon ++ f.render depth v) :: f.renderEntries depth es

end

/-- A document on one line, without blanks. -/
def line (v : Value) : String := compact.render 0 v

def document (v : Value) : String := pretty.render 0 v

end CommentGrade.Json
