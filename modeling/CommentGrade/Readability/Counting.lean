import CommentGrade.Readability.Lexicon
import CommentGrade.Text.Blank
import CommentGrade.Text.Case
import CommentGrade.Text.Word

/-!
# Counting

The numbers that the readability formulas are made of: characters, words, syllables, sentences. Words are what
stands between white space once punctuation is removed.
-/
namespace CommentGrade.Readability

open Text

/-- What may follow an apostrophe that belongs to a word. -/
def contractions : List (List Char) :=
  [['t'], ['s'], ['d'], ['v', 'e'], ['l', 'l'], ['r', 'e']]

/-- The text without the apostrophes that do not start a contraction. -/
def dropQuotes : List Char → List Char
  | [] => []
  | c :: cs =>
    if c = '\'' ∧ !(contractions.any fun w => w.isPrefixOf cs) then dropQuotes cs else c :: dropQuotes cs

/-- The text without punctuation; apostrophes of contractions stay. -/
def dropPunctuation (cs : List Char) : List Char :=
  (dropQuotes cs).filter fun c => isWord c || isBlank c || c == '\''

/-- The text with nothing but word characters and white space. -/
def bare (cs : List Char) : List Char := cs.filter fun c => isWord c || isBlank c

/-- The words of a text without punctuation. -/
def plainWords (cs : List Char) : List (List Char) := words (dropPunctuation cs)

def sum (ns : List Nat) : Nat := ns.foldl (· + ·) 0

def syllables (cs : List Char) : Nat := sum ((words (lower (dropPunctuation cs))).map wordSyllables)

def characterCount (cs : List Char) : Nat := (cs.filter (!isBlank ·)).length

def letterCount (cs : List Char) : Nat := (cs.filter isWord).length

def wordCount (cs : List Char) : Nat := (plainWords cs).length

/-- The number of runs of characters that are not blank, punctuation included. -/
def tokenCount (cs : List Char) : Nat := (words cs).length

def isStop (c : Char) : Bool := c == '.' || c == '!' || c == '?'

/-- Whether a word begins or ends between two characters, of which either may be missing. -/
def atWordEdge (before after : Option Char) : Bool :=
  (before.map isWord).getD false != (after.map isWord).getD false

/-- The sentences of a text: each begins at the edge of a word and goes on through the next stops. The number
of characters that still belong to the sentence before is carried along. -/
def sentencesFrom : Option Char → Nat → List Char → List (List Char)
  | _, _, [] => []
  | _, skip + 1, c :: cs => sentencesFrom (some c) skip cs
  | before, 0, c :: cs =>
    if atWordEdge before (some c) && !isStop c then
      let body := (c :: cs).takeWhile (!isStop ·)
      let stops := ((c :: cs).dropWhile (!isStop ·)).takeWhile isStop
      let sentence := body ++ stops
      sentence :: sentencesFrom (some c) (sentence.length - 1) cs
    else sentencesFrom (some c) 0 cs

def sentences (cs : List Char) : List (List Char) := sentencesFrom none 0 cs

/-- The number of sentences of more than two words, at least one unless the text is empty. -/
def sentenceCount (cs : List Char) : Nat :=
  if cs.isEmpty then 0
  else max 1 ((sentences cs).filter fun s => 2 < (plainWords s).length).length

/-- The number of words of three or more syllables. -/
def polysyllableCount (cs : List Char) : Nat := ((plainWords cs).filter fun w => 3 ≤ syllables w).length

/-- The number of words that not every reader knows and that have at least so many syllables. -/
def difficultCount (least : Nat) (cs : List Char) : Nat :=
  ((plainWords cs).filter fun w => !isEasy (lower w) && least ≤ syllables (lower w)).length

/-- The number of words of more than six characters. -/
def longWordCount (cs : List Char) : Nat := ((words (bare cs)).filter fun w => 6 < w.length).length

end CommentGrade.Readability
