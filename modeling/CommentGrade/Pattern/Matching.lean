import CommentGrade.Pattern.Basic
import CommentGrade.Text.Blank
import CommentGrade.Text.Case

/-!
# Matching

A pattern is matched by trying its ways in order and going back when what follows fails: the earlier alternative
first, one more repetition before none, or after it if the repetition is reluctant. What follows is a function
of the place reached, so `run` is defined by recursion on the pattern. A repetition ends with a turn that
consumes nothing; hence it has at most as many turns as characters are left.
-/
namespace CommentGrade

/-- A stretch of a text, from one offset up to another. -/
structure Span where
  start : Nat
  stop : Nat
  deriving DecidableEq, Repr

/-- A place in a text: the character before it, its offset, and the characters after it. -/
structure Cursor where
  before : Option Char
  offset : Nat
  rest : List Char
  deriving DecidableEq, Repr

def Cursor.atStart (cs : List Char) : Cursor := ⟨none, 0, cs⟩

/-- The spans of the groups passed so far, the latest first. -/
abbrev Captures := List (Nat × Span)

def CharSet.contains (caseless : Bool) (s : CharSet) (x : Char) : Bool :=
  match s with
  | .char c => if caseless then Text.caselessEq c x else c == x
  | .tab => x == '\t'
  | .blankOrTab => x == ' ' || x == '\t'
  | .space => Text.isBlank x
  | .any => true
  | .inLine => x != '\r' && x != '\n'

/-- Whether a line starts at a place. -/
def Cursor.atLineStart (everyLine : Bool) (at_ : Cursor) : Bool :=
  match at_.before with
  | none => true
  | some c => everyLine && c == '\n'

namespace Pattern

variable {α : Type}

/-- What follows a place. -/
abbrev Next (α : Type) := Cursor → Captures → Option α

/-- Up to `n` turns, the most turns first. -/
def greedy (turn : Cursor → Captures → Next α → Option α) : Nat → Cursor → Captures → Next α → Option α
  | 0, cur, caps, next => next cur caps
  | n + 1, cur, caps, next =>
    (turn cur caps fun cur' caps' =>
      if cur.offset < cur'.offset then greedy turn n cur' caps' next else none).or (next cur caps)

/-- Up to `n` turns, the fewest turns first. -/
def reluctant (turn : Cursor → Captures → Next α → Option α) : Nat → Cursor → Captures → Next α → Option α
  | 0, cur, caps, next => next cur caps
  | n + 1, cur, caps, next =>
    (next cur caps).or (turn cur caps fun cur' caps' =>
      if cur.offset < cur'.offset then reluctant turn n cur' caps' next else none)

/-- Matches a pattern at a place and goes on; the first way that succeeds counts. -/
def run (caseless everyLine : Bool) : Pattern → Cursor → Captures → Next α → Option α
  | .empty, cur, caps, next => next cur caps
  | .set s, cur, caps, next =>
    match cur.rest with
    | [] => none
    | c :: cs => if s.contains caseless c then next ⟨some c, cur.offset + 1, cs⟩ caps else none
  | .lineStart, cur, caps, next => if cur.atLineStart everyLine then next cur caps else none
  | .seq p q, cur, caps, next =>
    run caseless everyLine p cur caps fun cur' caps' => run caseless everyLine q cur' caps' next
  | .alt p q, cur, caps, next =>
    (run caseless everyLine p cur caps next).or (run caseless everyLine q cur caps next)
  | .group i p, cur, caps, next =>
    run caseless everyLine p cur caps fun cur' caps' =>
      next cur' ((i, ⟨cur.offset, cur'.offset⟩) :: caps')
  | .star p lazily, cur, caps, next =>
    if lazily then reluctant (run caseless everyLine p) cur.rest.length cur caps next
    else greedy (run caseless everyLine p) cur.rest.length cur caps next
  | .plus p, cur, caps, next =>
    run caseless everyLine p cur caps fun cur' caps' =>
      greedy (run caseless everyLine p) cur'.rest.length cur' caps' next

end Pattern

/-- A match: its place, and the places of its groups. -/
structure Match where
  span : Span
  captures : Captures
  deriving DecidableEq, Repr

/-- The place of a group; the whole match is group 0. A group that took no part has none. -/
def Match.group? (m : Match) (index : Nat) : Option Span :=
  if index = 0 then some m.span else m.captures.lookup index

namespace Expression

/-- The match that begins at a place, if there is one; it may be required not to be empty. -/
def matchAt? (e : Expression) (nonEmpty : Bool) (cur : Cursor) : Option Match :=
  e.pattern.run e.caseless e.everyLine cur [] fun cur' caps =>
    if nonEmpty && cur'.offset == cur.offset then none else some ⟨⟨cur.offset, cur'.offset⟩, caps⟩

/-- The matches that begin at a place: after an empty one there may be another one, which is not empty. -/
def matchesAt (e : Expression) (cur : Cursor) : List Match :=
  match e.matchAt? false cur with
  | none => []
  | some m => if m.span.stop = cur.offset then m :: (e.matchAt? true cur).toList else [m]

/-- The matches in the rest of a text, none of which begins before the offset `resume`. -/
def matchesFrom (e : Expression) (before : Option Char) (offset resume : Nat) : List Char → List Match
  | [] => if offset < resume then [] else e.matchesAt ⟨before, offset, []⟩
  | c :: cs =>
    if offset < resume then e.matchesFrom (some c) (offset + 1) resume cs
    else
      let here := e.matchesAt ⟨before, offset, c :: cs⟩
      let resume := (here.getLast?.map (·.span.stop)).getD resume
      here ++ e.matchesFrom (some c) (offset + 1) resume cs

/-- All matches in a text, from left to right, without overlap. -/
def matchesIn (e : Expression) (cs : List Char) : List Match := e.matchesFrom none 0 0 cs

end Expression

end CommentGrade
