import CommentGrade.Analysis.Text
import CommentGrade.Files.Reading
import CommentGrade.Files.Walk

/-!
# Analysing files

Each file is analysed by itself. A file of no known language or without readable text has no analysis; one whose
analysis fails is left out. The results have the order of the files, however the work is divided.
-/
namespace CommentGrade

open Readability

inductive FileOutcome (α : Type) where
  | unknownLanguage
  | unreadable
  | analysed (a : Analysis α)

namespace FileOutcome

variable {α : Type}

def analysis? : FileOutcome α → Option (Analysis α)
  | .analysed a => some a
  | .unknownLanguage | .unreadable => none

end FileOutcome

namespace Files

section Runs

variable {ε α : Type}

/-- The analysis of a file, if there is one and it has not failed. -/
def success? : Except ε (FileOutcome α) → Option (Analysis α)
  | .ok outcome => outcome.analysis?
  | .error _ => none

/-- The analyses of files one after the other. -/
def serial (run : String → Except ε (FileOutcome α)) (files : List String) : List (Analysis α) :=
  files.filterMap fun f => success? (run f)

/-- The analyses by path, in the order in which they are completed; the last one of a path counts. -/
def collect (run : String → Except ε (FileOutcome α)) :
    List String → List (String × Analysis α) → List (String × Analysis α)
  | [], done => done
  | f :: fs, done =>
    match success? (run f) with
    | some a => collect run fs ((f, a) :: done.filter (·.1 != f))
    | none => collect run fs done

/-- The analyses of files that are worked on at the same time and completed in some order. -/
def parallel (run : String → Except ε (FileOutcome α)) (files completed : List String) : List (Analysis α) :=
  let done := collect run completed []
  files.filterMap fun f => done.lookup f

/-- The analyses of files by a number of workers, which complete them in some order. With at most one worker the files
are done one after the other. -/
def analysesCompleting (run : String → Except ε (FileOutcome α)) (jobs : Int) (files completed : List String) :
    List (Analysis α) :=
  if 1 < jobs then parallel run files completed else serial run files

/-- The analyses of files by a number of workers, completed in the order of the files. -/
def analyses (run : String → Except ε (FileOutcome α)) (jobs : Int) (files : List String) : List (Analysis α) :=
  analysesCompleting run jobs files files

end Runs

variable {α : Type} [Add α] [Sub α] [Mul α] [Div α] [OfScientific α] [NatCast α] [LE α] [DecidableLE α] [LT α]
  [DecidableLT α] [BEq α] [Number.Measure α]

/-- The language of a file: the given one, unless it is missing or empty, else the one its name tells. -/
def languageOf (language : Option String) (path : String) : Option String :=
  (language.filter (· != "")).or (Language.ofPath? path)

def analyse (f : Formulas α) (disk : Disk) (settings : Settings Bool) (language : Option String)
    (path : String) : Except AnalysisError (FileOutcome α) :=
  match languageOf language path with
  | none => .ok .unknownLanguage
  | some id =>
    match readText? Encoding.sourceCandidates (disk.content? (Path.ofString path)) with
    | none => .ok .unreadable
    | some cs => (Analysis.ofText f settings id (some path) (String.ofList cs)).map .analysed

/-- The files that paths stand for; a given language makes all of them count. -/
def listed (disk : Disk) (language : Option String) (paths : List String) : List String :=
  (disk.filesOf language.isNone paths).map Path.text

end Files

end CommentGrade
