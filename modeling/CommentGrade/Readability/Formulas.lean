import CommentGrade.Readability.Counting
import CommentGrade.Readability.Outcome

/-!
# Readability formulas

The formulas for English text. A quotient by zero has no value; some formulas are zero where one of their
quotients is.
-/
namespace CommentGrade.Readability

/-- The functions that a text is evaluated with: five counts and eleven scores. -/
structure Formulas (α : Type) where
  characters : List Char → Outcome α
  letters : List Char → Outcome α
  words : List Char → Outcome α
  syllables : List Char → Outcome α
  sentences : List Char → Outcome α
  fleschReadingEase : List Char → Outcome α
  fleschKincaidGrade : List Char → Outcome α
  polysyllables : List Char → Outcome α
  smogIndex : List Char → Outcome α
  colemanLiauIndex : List Char → Outcome α
  automatedReadabilityIndex : List Char → Outcome α
  linsearWrite : List Char → Outcome α
  daleChall : List Char → Outcome α
  gunningFog : List Char → Outcome α
  lix : List Char → Outcome α
  rix : List Char → Outcome α

namespace English

/-- The quotient of two counts, if it is defined. -/
def quotient (n d : Nat) : Option Float := if d = 0 then none else some (n.toFloat / d.toFloat)

def outcome (x : Option Float) : Outcome Float :=
  match x with
  | some x => .number x
  | none => .fault ⟨.zeroDivision, "division by zero"⟩

def wordsPerSentence (cs : List Char) : Option Float := quotient (wordCount cs) (sentenceCount cs)

def syllablesPerWord (cs : List Char) : Option Float := quotient (Readability.syllables cs) (wordCount cs)

/-- A function of two quotients, 0 where one of them is. -/
def ofTwo (x y : Option Float) (f : Float → Float → Float) : Option Float := do
  let x ← x
  let y ← y
  return if x == 0.0 || y == 0.0 then 0.0 else f x y

def fleschReadingEase (cs : List Char) : Option Float :=
  ofTwo (wordsPerSentence cs) (syllablesPerWord cs) fun wps spw => 206.835 - 1.015 * wps - 84.6 * spw

def fleschKincaidGrade (cs : List Char) : Option Float :=
  ofTwo (wordsPerSentence cs) (syllablesPerWord cs) fun wps spw => 0.39 * wps + 11.8 * spw - 15.59

def smogIndex (cs : List Char) : Option Float := do
  let perSentence ← quotient (polysyllableCount cs) (sentenceCount cs)
  return 1.043 * Float.pow (30.0 * perSentence) 0.5 + 3.1291

def colemanLiauIndex (cs : List Char) : Option Float := do
  let letters ← quotient (letterCount cs) (wordCount cs)
  let sentences ← quotient (sentenceCount cs) (wordCount cs)
  ofTwo (some (letters * 100.0)) (some (sentences * 100.0)) fun l s => 0.058 * l - 0.296 * s - 15.8

def automatedReadabilityIndex (cs : List Char) : Option Float :=
  ofTwo (quotient (characterCount cs) (tokenCount cs)) (wordsPerSentence cs) fun characters wps =>
    4.71 * characters + 0.5 * wps - 21.43

def daleChall (cs : List Char) : Option Float := do
  let percentage ← quotient (100 * difficultCount 0 cs) (wordCount cs)
  let wps ← wordsPerSentence cs
  let score := 0.1579 * percentage + 0.0496 * wps
  return if 5.0 < percentage then score + 3.6365 else score

def gunningFog (cs : List Char) : Option Float := do
  let wps ← wordsPerSentence cs
  let percentage ← quotient (100 * difficultCount 3 cs) (wordCount cs)
  return 0.4 * (wps + percentage)

def lix (cs : List Char) : Option Float := do
  let wps ← wordsPerSentence cs
  let percentage ← quotient (100 * longWordCount cs) (wordCount cs)
  return wps + percentage

def rix (cs : List Char) : Option Float := quotient (longWordCount cs) (sentenceCount cs)

/-- The first words of a text up to the given number: the words, and how many tokens they were taken from. -/
def firstWords : Nat → List (List Char) → List (List Char) × Nat
  | 0, _ => ([], 0)
  | _ + 1, [] => ([], 0)
  | n + 1, token :: tokens =>
    let word := dropPunctuation token
    let (ws, used) := if word.isEmpty then firstWords (n + 1) tokens else firstWords n tokens
    (if word.isEmpty then ws else word :: ws, used + 1)

/-- The words that the Linsear formula looks at, and how many tokens they were taken from. -/
def sample (cs : List Char) : List (List Char) × Nat :=
  let tokens := Text.words cs
  if 100 < tokens.length then firstWords 100 tokens else (plainWords cs, tokens.length)

def linsearWrite (cs : List Char) : Option Float := do
  let (ws, used) := sample cs
  let easy := (ws.filter fun w => 1 ≤ Readability.syllables w && Readability.syllables w < 3).length
  let hard := (ws.filter fun w => 3 ≤ Readability.syllables w).length
  let text := [' '].intercalate ((Text.words cs).take used)
  let n ← quotient (easy + 3 * hard) (sentenceCount text)
  let n := if n ≤ 20.0 then n - 2.0 else n
  return n / 2.0

end English

def english : Formulas Float where
  characters cs := .whole (characterCount cs)
  letters cs := .whole (letterCount cs)
  words cs := .whole (wordCount cs)
  syllables cs := .whole (syllables cs)
  sentences cs := .whole (sentenceCount cs)
  fleschReadingEase cs := English.outcome (English.fleschReadingEase cs)
  fleschKincaidGrade cs := English.outcome (English.fleschKincaidGrade cs)
  polysyllables cs := .whole (polysyllableCount cs)
  smogIndex cs := English.outcome (English.smogIndex cs)
  colemanLiauIndex cs := English.outcome (English.colemanLiauIndex cs)
  automatedReadabilityIndex cs := English.outcome (English.automatedReadabilityIndex cs)
  linsearWrite cs := English.outcome (English.linsearWrite cs)
  daleChall cs := English.outcome (English.daleChall cs)
  gunningFog cs := English.outcome (English.gunningFog cs)
  lix cs := English.outcome (English.lix cs)
  rix cs := English.outcome (English.rix cs)

end CommentGrade.Readability
