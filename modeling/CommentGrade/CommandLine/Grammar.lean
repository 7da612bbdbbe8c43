import CommentGrade.Number.Numeral

/-!
# Command lines

A command line is a row of arguments. Options begin with a dash: a short one is a dash and a character and
may share its dash with others, a long one is two dashes and a name of which the beginning is enough if no other name
begins like it. A long option may take a value, either after an equals sign or as the next argument. Two dashes
alone end the options. The arguments that are no options stand together in one place.

Every argument is classified before any option takes effect, so an ambiguous name is found first. Then the
options take effect from left to right.
-/
namespace CommentGrade.CommandLine

inductive UsageError where
  | ambiguous (argument : String)
  | valueMissing (option : String)
  | valueUnwanted (text : String)
  | notInteger (option value : String)
  | unknown (arguments : List String)
  | nothingToDo
  deriving DecidableEq, Repr

/-- Why reading a command line stops: the user asks for help, or makes a mistake. -/
inductive Stop where
  | help
  | usage (e : UsageError)
  deriving DecidableEq, Repr

/-- What an option without a value does to what has been chosen. -/
inductive Switch (S : Type) where
  | help
  | set (f : S → S)

inductive Rule (S : Type) where
  | switch (s : Switch S)
  | value (take : String → S → Except UsageError S)

/-- The options that a program knows; the names of the long ones are without dashes. -/
structure Grammar (S : Type) where
  short : List (Char × Switch S)
  long : List (String × Rule S)

inductive Token (S : Type) where
  | word (text : String)
  | terminator
  | short (first : Switch S) (rest : List Char)
  | long (name : String) (rule : Rule S) (value : Option String)
  | unknown (text : String)

/-- Whether characters, all of them or all but a line feed at the end, are a decimal numeral without a sign. -/
def isNumeral (cs : List Char) : Bool :=
  let isDigit (c : Char) : Bool := (Text.digitValue? c).isSome
  let body := if cs.getLast? = some '\n' then cs.dropLast else cs
  match body.dropWhile isDigit with
  | [] => !body.isEmpty
  | '.' :: places => !places.isEmpty && places.all isDigit
  | _ :: _ => false

/-- An argument with a dash that is no option: a negative number and a text with a blank are words all the same. -/
def unmatched {S : Type} (cs : List Char) : Token S :=
  if isNumeral (cs.drop 1) || cs.contains ' ' then .word (String.ofList cs) else .unknown (String.ofList cs)

namespace Grammar

variable {S : Type}

/-- The long options that a name can stand for: the one that it spells, else all that begin like it. -/
def candidates (g : Grammar S) (name : List Char) : List (String × Rule S) :=
  match g.long.find? (fun o => o.1.toList == name) with
  | some o => [o]
  | none => g.long.filter fun o => name.isPrefixOf o.1.toList

/-- Classifies an argument that is not the end of the options. -/
def classify (g : Grammar S) (argument : String) : Except UsageError (Token S) :=
  match argument.toList with
  | '-' :: '-' :: body =>
    let value := match body.dropWhile (· != '=') with
      | [] => none
      | _ :: v => some (String.ofList v)
    match g.candidates (body.takeWhile (· != '=')) with
    | [] => .ok (unmatched ('-' :: '-' :: body))
    | [o] => .ok (.long ("--" ++ o.1) o.2 value)
    | _ :: _ :: _ => .error (.ambiguous argument)
  | '-' :: c :: cs =>
    match g.short.lookup c with
    | some s => .ok (.short s cs)
    | none => .ok (unmatched ('-' :: c :: cs))
  | _ => .ok (.word argument)

def tokens (g : Grammar S) : List String → Except UsageError (List (Token S))
  | [] => .ok []
  | a :: as =>
    if a = "--" then .ok (.terminator :: as.map .word)
    else do
      let t ← g.classify a
      let ts ← g.tokens as
      return t :: ts

/-- The short options that share a dash, and what is left from the first unknown one on. -/
def cluster (g : Grammar S) : List Char → Except UsageError (List (Switch S) × List Char)
  | [] => .ok ([], [])
  | c :: cs =>
    if c = '=' ∨ c = '-' then .error (.valueUnwanted (String.ofList (c :: cs)))
    else match g.short.lookup c with
      | none => .ok ([], c :: cs)
      | some s => do
        let (ss, rest) ← g.cluster cs
        return (s :: ss, rest)

end Grammar

/-- Whether the words have been reached: they stand together, so none may follow once they are over. -/
inductive Phase where
  | before
  | inside
  | over
  deriving DecidableEq, Repr

/-- How far a command line has been read. -/
structure Progress (S : Type) where
  chosen : S
  words : List String := []
  phase : Phase := .before
  refused : List String := []

namespace Progress

variable {S : Type}

def refuse (p : Progress S) (text : String) : Progress S := { p with refused := p.refused ++ [text] }

/-- An option ends the words. -/
def interrupt (p : Progress S) : Progress S :=
  match p.phase with
  | .before => p
  | .inside | .over => { p with phase := .over }

def takeWord (p : Progress S) (text : String) : Progress S :=
  match p.phase with
  | .before | .inside => { p with phase := .inside, words := p.words ++ [text] }
  | .over => p.refuse text

def takeTerminator (p : Progress S) : Progress S :=
  match p.phase with
  | .before | .inside => p
  | .over => p.refuse "--"

/-- Options without values take effect one after the other. -/
def throwAll (p : Progress S) : List (Switch S) → Except Stop (Progress S)
  | [] => .ok p
  | .help :: _ => .error .help
  | .set f :: ss => throwAll { p with chosen := f p.chosen } ss

/-- An option takes a value. -/
def giveValue (p : Progress S) (take : String → S → Except UsageError S) (value : String) :
    Except Stop (Progress S) :=
  match take value p.chosen with
  | .ok s => .ok { p with chosen := s }
  | .error e => .error (.usage e)

def read (g : Grammar S) (p : Progress S) : List (Token S) → Except Stop (Progress S)
  | [] => .ok p
  | .word text :: ts => read g (p.takeWord text) ts
  | .terminator :: ts => read g p.takeTerminator ts
  | .unknown text :: ts => read g (p.interrupt.refuse text) ts
  | .short first rest :: ts =>
    match g.cluster rest with
    | .error e => .error (.usage e)
    | .ok (ss, left) => do
      let p ← p.interrupt.throwAll (first :: ss)
      read g (if left.isEmpty then p else p.refuse (String.ofList ('-' :: left))) ts
  | .long _ (.switch _) (some value) :: _ => .error (.usage (.valueUnwanted value))
  | .long _ (.switch s) none :: ts => do
    let p ← p.interrupt.throwAll [s]
    read g p ts
  | .long _ (.value take) (some value) :: ts => do
    let p ← p.interrupt.giveValue take value
    read g p ts
  | .long _ (.value take) none :: .word value :: ts => do
    let p ← p.interrupt.giveValue take value
    read g p ts
  | .long name (.value _) none :: _ => .error (.usage (.valueMissing name))

end Progress

/-- What a command line chooses, starting from defaults, and its words, of which there is at least one. -/
def Grammar.parse {S : Type} (g : Grammar S) (defaults : S) (arguments : List String) :
    Except Stop (S × List String) :=
  match g.tokens arguments with
  | .error e => .error (.usage e)
  | .ok ts =>
    match Progress.read g { chosen := defaults } ts with
    | .error stop => .error stop
    | .ok p =>
      if p.words.isEmpty then .error (.usage .nothingToDo)
      else if p.refused.isEmpty then .ok (p.chosen, p.words)
      else .error (.usage (.unknown p.refused))

/-- An option with an integer as its value. -/
def integerRule {S : Type} (name : String) (set : Int → S → S) : Rule S :=
  .value fun value s =>
    match Number.readInt? value with
    | some n => .ok (set n s)
    | none => .error (.notInteger name value)

end CommentGrade.CommandLine
