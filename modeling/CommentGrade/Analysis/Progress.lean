import CommentGrade.Analysis.Files
import CommentGrade.Log.Basic

/-!
# Progress messages

What is logged about each file while files are analysed.
-/
namespace CommentGrade

namespace FileOutcome

variable {α : Type}

/-- What there is to say about a file. -/
def message (path : String) : FileOutcome α → String
  | .unknownLanguage => "skip " ++ path ++ ": language could not be detected"
  | .unreadable => "skip " ++ path ++ ": not a decodable text file"
  | .analysed a =>
    if a.supported then
      path ++ ": " ++ toString a.graded.length ++ " comment(s) found (" ++ a.languageId ++ ")"
    else "unsupported language: " ++ a.languageId

def record (path : String) (outcome : FileOutcome α) : Record :=
  ⟨.debug, Log.originOf (some "pipeline"), outcome.message path⟩

end FileOutcome

namespace Files

variable {ε α : Type}

/-- The record about a file that has been worked on; a failure is one too. -/
def recordOf (run : String → Except ε (FileOutcome α)) (path : String) : Record :=
  match run path with
  | .ok outcome => outcome.record path
  | .error _ => ⟨.error, Log.originOf (some "pipeline"), "failed to analyze " ++ path⟩

def logProgress (run : String → Except ε (FileOutcome α)) (files : List String) (log : Log) : Log :=
  files.foldl (fun log path => log.write (recordOf run path)) log

def outcomes (run : String → Except ε (FileOutcome α)) (files : List String) :
    List (String × Except ε (FileOutcome α)) :=
  files.map fun f => (f, run f)

/-- What has come of a file, from a record of outcomes if it is there. -/
def outcomeAt (table : List (String × Except ε (FileOutcome α))) (run : String → Except ε (FileOutcome α))
    (path : String) : Except ε (FileOutcome α) :=
  match table.lookup path with
  | some outcome => outcome
  | none => run path

/-- Recalling an outcome is the same as working it out again. -/
theorem outcomeAt_outcomes (run : String → Except ε (FileOutcome α)) (files : List String) :
    outcomeAt (outcomes run files) run = run := by
  funext path
  induction files with
  | nil => rfl
  | cons f fs ih =>
    by_cases h : path = f
    · subst h
      simp [outcomeAt, outcomes]
    · have hf : (path == f) = false := beq_false_of_ne h
      simpa [outcomeAt, outcomes, List.lookup_cons, hf] using ih

end Files

end CommentGrade
