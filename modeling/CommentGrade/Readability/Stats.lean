/-!
# Tables of metrics

The metrics of a comment stand in three tables. A table lists names with their values; the tables of an evaluated
text have all names in a fixed order, others may lack names, and a missing name counts as 0.
-/
namespace CommentGrade.Readability

/-- Names with their values. -/
abbrev Table (α : Type) := List (String × α)

def countNames : List String :=
  ["char_count", "letter_count", "lexicon_count", "syllable_count", "sentence_count"]

def averageNames : List String :=
  ["avg_sentence_length", "avg_syllables_per_word", "avg_character_per_word", "avg_letter_per_word",
    "avg_sentence_per_word"]

def scoreNames : List String :=
  ["flesch_reading_ease", "flesch_reading_ease_grade", "flesch_kincaid_grade", "poly_syllable_count",
    "smog_index", "coleman_liau_index", "automated_readability_index", "linsear_write_formula",
    "dale_chall_readability_score", "dale_chall_grade", "gunning_fog", "lix", "rix", "text_median"]

/-- The scores that are grades, or were made grades. -/
def gradeNames : List String :=
  ["flesch_kincaid_grade", "flesch_reading_ease_grade", "smog_index", "coleman_liau_index",
    "automated_readability_index", "dale_chall_grade", "linsear_write_formula", "gunning_fog"]

/-- The three tables. -/
inductive MetricTable where
  | counts
  | averages
  | scores
  deriving DecidableEq, Repr

namespace MetricTable

def all : List MetricTable := [.counts, .averages, .scores]

def name : MetricTable → String
  | .counts => "counts"
  | .averages => "averages"
  | .scores => "scores"

def metrics : MetricTable → List String
  | .counts => countNames
  | .averages => averageNames
  | .scores => scoreNames

def ofName? (name : String) : Option MetricTable := all.find? (·.name == name)

/-- The text of the error that a table of this name does not exist. -/
def unknownMessage (name : String) : String := "unknown metric table: " ++ name

end MetricTable

variable {α : Type}

structure Stats (α : Type) where
  counts : Table α
  averages : Table α
  scores : Table α
  deriving DecidableEq, Repr

namespace Stats

/-- A table with the same value under all names. -/
def constant (names : List String) (x : α) : Table α := names.map (·, x)

def table (s : Stats α) : MetricTable → Table α
  | .counts => s.counts
  | .averages => s.averages
  | .scores => s.scores

variable [OfScientific α]

/-- The metrics of a text that has none. -/
def zero : Stats α where
  counts := constant countNames 0.0
  averages := constant averageNames 0.0
  scores := constant scoreNames 0.0

/-- The value of a metric; 0 if the table lacks it. -/
def value (s : Stats α) (t : MetricTable) (metric : String) : α := ((s.table t).lookup metric).getD 0.0

/-- The grade of a text: the median of its grades; 0 if the scores lack it. -/
def textMedian (s : Stats α) : α := (s.scores.lookup "text_median").getD 0.0

end Stats

end CommentGrade.Readability
