import CommentGrade.Number.Measure
import CommentGrade.Number.Shortest
import CommentGrade.Text.Blank
import CommentGrade.Text.Position

/-!
# Reading time

The words of a text are counted once fragments of markup are removed: such a fragment begins with an angle bracket
and a blank and goes on to the last opening bracket before the next closing one. From the number of words
follows the time, first rounded to hundredths of a minute, then to seconds.
-/
namespace CommentGrade.ReadingTime

open Number

/-- The number of words read in a minute, unless said otherwise. -/
def usualSpeed : Int := 233

/-- The length of the text up to and including its last opening bracket; 0 if there is none. -/
def lastBracket (cs : List Char) : Nat := cs.length - (cs.reverse.takeWhile (· != '<')).length

/-- The length of the fragment that begins with an opening bracket and the given text, if there is one. It has
at least one character between the blank and its last bracket. -/
def fragmentRest? : List Char → Option Nat
  | ' ' :: cs =>
    let inside := cs.takeWhile (· != '>')
    let n := match inside with
      | [] => 0
      | _ :: tail => lastBracket tail
    if n = 0 then none else some (n + 2)
  | _ => none

/-- The text without its fragments; the number of characters of a fragment that are still to be dropped is
carried along. -/
def dropFragments : Nat → List Char → List Char
  | _, [] => []
  | n + 1, _ :: cs => dropFragments n cs
  | 0, c :: cs =>
    match if c = '<' then fragmentRest? cs else none with
    | some n => dropFragments n cs
    | none => c :: dropFragments 0 cs

def wordCount (cs : List Char) : Nat := (Text.words (dropFragments 0 cs)).length

/-- A speed that nobody reads at. -/
inductive Error where
  | speed
  | notFinite (e : NotFinite)
  deriving DecidableEq, Repr

def Error.message : Error → String
  | .speed => "wpm must be positive"
  | .notFinite e => e.message

/-- A time on a clock: minutes and seconds. -/
structure Clock where
  minutes : Int
  seconds : Int
  deriving DecidableEq, Repr

/-- Minutes and seconds with at least two digits each. -/
def Clock.text (c : Clock) : String :=
  zeroPad 2 (toString c.minutes) ++ ":" ++ zeroPad 2 (toString c.seconds)

section

variable {α : Type} [Add α] [Sub α] [Mul α] [Div α] [OfScientific α] [IntCast α] [Placed α]

/-- The nearest integer; a half goes up. -/
def roundHalfUp (x : α) : Except NotFinite Int := Placed.floor (x + 0.5)

/-- The time that a number of words takes at a speed above zero, in numbers of the type `α`. -/
def clock (α : Type) [Add α] [Sub α] [Mul α] [Div α] [OfScientific α] [IntCast α] [Placed α]
    (words speed : Int) : Except NotFinite Clock := do
  let hundredths ← roundHalfUp (((words : α) / (speed : α)) * 100.0)
  let estimate : α := (hundredths : α) / 100.0
  let minutes ← Placed.floor estimate
  let seconds ← roundHalfUp ((estimate - (minutes : α)) * 60.0)
  return ⟨minutes, seconds⟩

end

/-- The time it takes to read a text from an offset on. -/
def estimate (cs : List Char) (start speed : Int) : Except Error Clock :=
  if speed ≤ 0 then .error .speed
  else (clock Float (wordCount (cs.drop start.toNat)) speed).mapError .notFinite

end CommentGrade.ReadingTime
