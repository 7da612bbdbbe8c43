/-!
# Loggers

A logger has a name, and its name gives it a place: it is below the logger whose name is the longest of its stems, and
at the top if no stem is a logger. The stems of a name are the texts before its dots, looked for from the end; a dot
right before one that has been found is passed over. A logger is made when it is first asked for. Loggers that were made
before and have its name among their stems may then come below it.
-/
namespace CommentGrade

/-- What is left behind the dots of a name that is read backwards, from the first dot on. -/
def stemsFrom : List Char → List (List Char)
  | d :: c :: rest => if d = '.' then (c :: rest) :: stemsFrom rest else stemsFrom (c :: rest)
  | [_] | [] => []

/-- The stems of a name, the longest one first. -/
def stems (name : String) : List String :=
  (stemsFrom name.toList.reverse).map fun s => String.ofList s.reverse

structure Loggers where
  /-- The loggers, each with the one that it is below. -/
  places : List (String × Option String) := []
  /-- Names that are no loggers so far, each with a logger that was made below it. -/
  waiting : List (String × String) := []
  deriving DecidableEq, Repr

namespace Loggers

def has (ls : Loggers) (name : String) : Bool := (ls.places.lookup name).isSome

def parent? (ls : Loggers) (name : String) : Option String := (ls.places.lookup name).join

/-- The place of a logger when one with a new name is made: below it, if it was made below that name and is not below a
logger whose name goes on from it. -/
def placeBelow (ls : Loggers) (name : String) (place : String × Option String) : String × Option String :=
  if ls.waiting.contains (name, place.1) && !(place.2.any fun p => name.toList.isPrefixOf p.toList) then
    (place.1, some name)
  else place

/-- Makes the logger with a name, unless there is one. -/
def register (name : String) (ls : Loggers) : Loggers :=
  if ls.has name then ls
  else
    { places := (name, (stems name).find? ls.has) :: ls.places.map (ls.placeBelow name)
      waiting := ls.waiting.filter (·.1 != name) ++
        ((stems name).takeWhile fun s => !ls.has s).map fun s => (s, name) }

/-- Whether a logger is the one at the top or below it, over however many others. -/
def isUnder (ls : Loggers) (top name : String) : Bool :=
  if name = top then true
  else
    match ls.parent? name with
    | some p => if p.length < name.length then ls.isUnder top p else false
    | none => false
termination_by name.length

end Loggers

end CommentGrade
