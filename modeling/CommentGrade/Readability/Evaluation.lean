import CommentGrade.Readability.Outcome
import CommentGrade.Readability.Formulas
import CommentGrade.Readability.Stats

/-!
# Evaluating a text

A text is evaluated with a set of formulas. Blank texts have no metrics; texts without words have counts only.
Eight scores are grades, two of them by a table of thresholds; their median is the grade of the text.
-/
namespace CommentGrade.Readability

open Number

section Grades

variable {α : Type} [OfScientific α] [LE α] [DecidableLE α] [LT α] [DecidableLT α]

/-- The grade of a reading ease score. Scores outside the bands are the hardest. -/
def fleschGrade (score : α) : α :=
  let within (low high : α) : Bool := low ≤ score && score < high
  if within 90.0 100.0 then 5.0
  else if within 80.0 90.0 then 6.0
  else if within 70.0 80.0 then 7.0
  else if within 60.0 70.0 then 8.5
  else if within 50.0 60.0 then 11.0
  else if within 40.0 50.0 then 13.0
  else if within 30.0 40.0 then 15.0
  else 16.0

def daleChallGrade (score : α) : α :=
  if score ≤ 4.9 then 4.0
  else if score < 5.9 then 5.0
  else if score < 6.9 then 7.0
  else if score < 7.9 then 9.0
  else if score < 8.9 then 11.0
  else if score < 9.9 then 13.0
  else 16.0

end Grades

section Averages

variable {α : Type} [OfScientific α] [BEq α] [Div α]

/-- A quotient, 0 if the divisor is. -/
def ratio (n d : α) : α := if d == 0.0 then 0.0 else n / d

def averages (characters letters words syllables sentences : α) : Table α :=
  averageNames.zip
    [ratio words sentences, ratio syllables words, ratio characters words, ratio letters words,
      ratio sentences words]

end Averages

section Medians

variable {α : Type} [Add α] [Div α] [OfScientific α] [LE α] [DecidableLE α]

/-- Values in ascending order; equal ones keep their order. -/
def ascending (xs : List α) : List α := xs.mergeSort fun a b => decide (a ≤ b)

/-- The median of eight values: the mean of the fourth and the fifth. -/
def medianOfEight (xs : List α) : α :=
  match ascending xs with
  | [_, _, _, a, b, _, _, _] => (a + b) / 2.0
  | _ => 0.0

end Medians

variable {α : Type} [Add α] [Div α] [OfScientific α] [LE α] [DecidableLE α] [LT α] [DecidableLT α] [BEq α]
  [Measure α]

/-- The five counts of a text. -/
structure Counts (α : Type) where
  characters : α
  letters : α
  words : α
  syllables : α
  sentences : α

namespace Counts

def of (f : Formulas α) (cs : List Char) : Except Fault (Counts α) := do
  let characters ← (f.characters cs).settle
  let letters ← (f.letters cs).settle
  let words ← (f.words cs).settle
  let syllables ← (f.syllables cs).settle
  let sentences ← (f.sentences cs).settle
  return ⟨characters, letters, words, syllables, sentences⟩

def table (c : Counts α) : Table α :=
  countNames.zip [c.characters, c.letters, c.words, c.syllables, c.sentences]

def averages (c : Counts α) : Table α :=
  Readability.averages c.characters c.letters c.words c.syllables c.sentences

end Counts

/-- The scores of a text, with the grades that follow from them and their median. -/
def scoresOf (f : Formulas α) (cs : List Char) : Except Fault (Table α) := do
  let ease ← (f.fleschReadingEase cs).settle
  let kincaid ← (f.fleschKincaidGrade cs).settle
  let polysyllables ← (f.polysyllables cs).settle
  let smog ← (f.smogIndex cs).settle
  let coleman ← (f.colemanLiauIndex cs).settle
  let automated ← (f.automatedReadabilityIndex cs).settle
  let linsear ← (f.linsearWrite cs).settle
  let chall ← (f.daleChall cs).settle
  let fog ← (f.gunningFog cs).settle
  let lix ← (f.lix cs).settle
  let rix ← (f.rix cs).settle
  let median := medianOfEight
    [kincaid, fleschGrade ease, smog, coleman, automated, daleChallGrade chall, linsear, fog]
  return scoreNames.zip
    [ease, fleschGrade ease, kincaid, polysyllables, smog, coleman, automated, linsear, chall,
      daleChallGrade chall, fog, lix, rix, median]

def evaluateWith (f : Formulas α) (cs : List Char) : Except Fault (Stats α) :=
  if Text.isAllBlank cs then .ok .zero
  else do
    let counts ← Counts.of f cs
    if counts.words == 0.0 then return { (Stats.zero : Stats α) with counts := counts.table }
    else
      let scores ← scoresOf f cs
      return ⟨counts.table, counts.averages, scores⟩

def evaluate (cs : List Char) : Except Fault (Stats Float) := evaluateWith english cs

end CommentGrade.Readability
