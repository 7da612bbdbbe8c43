import CommentGrade.Number.Numeral
import CommentGrade.Number.Shortest
import CommentGrade.Text.Quoted
import CommentGrade.Value.Calendar

/-!
# Values

What a settings document holds, whatever format it is written in. The entries of a mapping keep the order
in which their keys first occur; a key that occurs again replaces the value.
-/
namespace CommentGrade

open Number

inductive Value where
  | null
  | bool (b : Bool)
  | int (n : Int)
  | float (x : Float)
  | str (s : String)
  | moment (m : Moment)
  | bytes (bs : List UInt8)
  | list (vs : List Value)
  | tuple (vs : List Value)
  | set (vs : List Value)
  | map (entries : List (Value × Value))

namespace Value

instance : Inhabited Value := ⟨.null⟩

def object (entries : List (String × Value)) : Value := .map (entries.map fun e => (.str e.1, e.2))

def boolText (b : Bool) : String := if b then "True" else "False"

def quotedBytes (bs : List UInt8) : String :=
  let cs := bs.map fun b => Char.ofNat b.toNat
  let q := Text.quoteFor cs
  let char (c : Char) : List Char :=
    if c.toNat < 0x80 then Text.quotedChar q c else '\\' :: 'x' :: Text.hex 2 c.toNat
  "b" ++ String.ofList (q :: cs.flatMap char ++ [q])

mutual

/-- The text of a value inside another one or in an error message: texts are quoted. -/
def quoted : Value → String
  | .null => "None"
  | .bool b => boolText b
  | .int n => toString n
  | .float x => floatText x
  | .str s => Text.quoted s
  | .moment m => m.constructorText
  | .bytes bs => quotedBytes bs
  | .list vs => "[" ++ ", ".intercalate (quotedItems vs) ++ "]"
  | .tuple [v] => "(" ++ quoted v ++ ",)"
  | .tuple vs => "(" ++ ", ".intercalate (quotedItems vs) ++ ")"
  | .set [] => "set()"
  | .set vs => "\x7b" ++ ", ".intercalate (quotedItems vs) ++ "\x7d"
  | .map entries => "\x7b" ++ ", ".intercalate (quotedEntries entries) ++ "\x7d"

def quotedItems : List Value → List String
  | [] => []
  | v :: vs => quoted v :: quotedItems vs

def quotedEntries : List (Value × Value) → List String
  | [] => []
  | (k, v) :: es => (quoted k ++ ": " ++ quoted v) :: quotedEntries es

end

mutual

/-- Whether a value holds an integer that has too many digits to be written. -/
def isTooLong : Value → Bool
  | .int n => Nat.pow 10 maxDigits ≤ n.natAbs
  | .list vs | .tuple vs | .set vs => anyTooLong vs
  | .map entries => anyEntryTooLong entries
  | _ => false

def anyTooLong : List Value → Bool
  | [] => false
  | v :: vs => isTooLong v || anyTooLong vs

def anyEntryTooLong : List (Value × Value) → Bool
  | [] => false
  | (k, v) :: es => isTooLong k || isTooLong v || anyEntryTooLong es

end

/-- The text of a value by itself: a text stands for itself, a moment for its ISO text. -/
def text : Value → String
  | .str s => s
  | .moment m => m.text
  | v => v.quoted

/-- The value of a text key in a mapping. -/
def lookup (key : String) : List (Value × Value) → Option Value
  | [] => none
  | (.str k, v) :: es => if k = key then some v else lookup key es
  | _ :: es => lookup key es

/-- Puts an entry under a text key into a mapping: at the place of its key, else at the end. -/
def put (key : String) (v : Value) : List (Value × Value) → List (Value × Value)
  | [] => [(.str key, v)]
  | (.str k, w) :: es => if k = key then (.str k, v) :: es else (.str k, w) :: put key v es
  | e :: es => e :: put key v es

/-- The value of a text key, if the value is a mapping that has it. -/
def get? (v : Value) (key : String) : Option Value :=
  match v with
  | .map es => lookup key es
  | _ => none

end Value

end CommentGrade
