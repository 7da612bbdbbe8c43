import CommentGrade.Comment.Extraction
import CommentGrade.Document
import CommentGrade.Grade
import CommentGrade.Settings.Basic
import CommentGrade.Summary.Corpus

/-!
# Analysing a text

The comments of a text, the metrics of each, and their summary. The result depends on the text, its language
and the settings alone.
-/
namespace CommentGrade

open Readability

inductive AnalysisError where
  | fault (f : Fault)
  | summary (e : SummaryError)
  | notFinite (e : Number.NotFinite)
  deriving DecidableEq, Repr

structure Graded (α : Type) where
  comment : Comment
  stats : Stats α
  deriving DecidableEq, Repr

/-- What is known about a text. -/
structure Analysis (α : Type) where
  languageId : String
  profile : Profile
  file : Option String
  text : String
  graded : List (Graded α)
  summary : Summary α
  deriving DecidableEq, Repr

namespace Analysis

def profileOf (settings : Settings Bool) (languageId : String) : Profile :=
  Language.profileFor languageId settings.highlightPlainText

def scopeOf (settings : Settings Bool) : Comment.Scope where
  tags := settings.tags
  plainText := settings.highlightPlainText
  blocks := settings.multilineComments
  docBlocks := settings.useDocStyle

def commentsOf (settings : Settings Bool) (languageId : String) (cs : List Char) : List Comment :=
  let profile := profileOf settings languageId
  Comment.extract profile (Comment.Patterns.ofProfile profile (scopeOf settings)) cs

variable {α : Type}

def supported (a : Analysis α) : Bool := a.profile.supported

section Notes

variable [OfScientific α] [Number.Placed α]

/-- The notes on the lines of the graded comments. -/
def notesOf (graded : List (Graded α)) : Except Number.NotFinite (List LevelNote) :=
  match graded with
  | [] => .ok []
  | g :: gs => do
    let note ← LevelNote.of? g.comment.line g.stats
    let notes ← notesOf gs
    return note.toList ++ notes

def notes (a : Analysis α) : Except Number.NotFinite (List LevelNote) := notesOf a.graded

end Notes

variable [Add α] [Sub α] [Mul α] [Div α] [OfScientific α] [NatCast α] [LE α] [DecidableLE α] [LT α]
  [DecidableLT α] [BEq α] [Number.Measure α]

def grade (f : Formulas α) : List Comment → Except Fault (List (Graded α))
  | [] => .ok []
  | c :: cs => do
    let stats ← evaluateWith f c.text.toList
    let rest ← grade f cs
    return ⟨c, stats⟩ :: rest

/-- Analyses a text with a set of formulas. -/
def ofText (f : Formulas α) (settings : Settings Bool) (languageId : String) (file : Option String)
    (text : String) : Except AnalysisError (Analysis α) :=
  let profile := profileOf settings languageId
  if profile.supported then do
    let graded ← (grade f (commentsOf settings languageId text.toList)).mapError .fault
    let summary ← (Summary.make (graded.map (·.stats)) (graded.map (·.comment.kind))).mapError .summary
    return ⟨languageId, profile, file, text, graded, summary⟩
  else .ok ⟨languageId, profile, file, text, [], .empty⟩

/-- Analyses a document with a set of formulas. -/
def ofDocument (f : Formulas α) (settings : Settings Bool) (d : Document) : Except AnalysisError (Analysis α) :=
  ofText f settings d.languageId d.uri d.text

end Analysis

end CommentGrade
