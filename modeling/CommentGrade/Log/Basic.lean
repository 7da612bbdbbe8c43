import CommentGrade.Log.Loggers
import CommentGrade.Log.Message

/-!
# The log

A log has a threshold and handlers, each of which writes to the console or appends to a file. Configuring it
puts new handlers in the place of the old ones, so a record is written once to each place however often the log has
been configured. A record comes to the handlers if the logger of its origin is below the main one. Any other logger, and
a log that was never configured, shows bare messages from the level of warnings on.
-/
namespace CommentGrade

inductive Level where
  | debug
  | info
  | warning
  | error
  | critical
  deriving DecidableEq, Repr

namespace Level

def number : Level → Nat
  | .debug => 10
  | .info => 20
  | .warning => 30
  | .error => 40
  | .critical => 50

def name : Level → String
  | .debug => "DEBUG"
  | .info => "INFO"
  | .warning => "WARNING"
  | .error => "ERROR"
  | .critical => "CRITICAL"

end Level

/-- Something to be logged: how much it matters, which part of the program says it, and what it says. -/
structure Record where
  level : Level
  origin : String
  message : String
  deriving DecidableEq, Repr

namespace Record

/-- The record as the console shows it. -/
def consoleText (r : Record) : String := "[textinfo] " ++ r.level.name ++ " " ++ r.message

/-- The record as a file shows it, after the time. -/
def fileText (r : Record) : String := r.level.name ++ " " ++ r.origin ++ ": " ++ r.message

end Record

inductive Sink where
  | console
  | file (name : String)
  deriving DecidableEq, Repr

/-- A place for the records from a level on. -/
structure Handler where
  sink : Sink
  level : Level
  deriving DecidableEq, Repr

/-- A log with all that it has written. -/
structure Log where
  threshold : Level := .warning
  /-- Whether records are handed on to the log of the host. -/
  propagates : Bool := true
  handlers : List Handler := []
  console : List String := []
  files : List (String × List String) := []
  loggers : Loggers := {}
  /-- What the loggers have said, since the log was configured, of whether they take records of a level. -/
  answers : List ((String × Level) × Bool) := []
  deriving DecidableEq, Repr

namespace Log

/-- The name of the logger with the handlers. -/
def mainName : String := "textinfo"

/-- The full name of a part of the program. -/
def originOf (part : Option String) : String :=
  match part with
  | none | some "" => mainName
  | some name => mainName ++ "." ++ name

/-- Appends lines to a file, which is made if there is none. -/
def appendTo (name : String) (lines : List String) : List (String × List String) → List (String × List String)
  | [] => [(name, lines)]
  | (n, old) :: fs => if n = name then (n, old ++ lines) :: fs else (n, old) :: appendTo name lines fs

/-- Makes the logger with a name, unless there is one. -/
def register (name : String) (l : Log) : Log := { l with loggers := l.loggers.register name }

/-- Sets the log up anew: one handler for the console, and one for a file if a file is named. A file that cannot be
opened leaves the log as if none were named. -/
def configure (verbose : Bool) (file : Option String) (l : Log) : Log :=
  let level := if verbose then .debug else .info
  { l.register mainName with
    threshold := level
    propagates := false
    handlers := ⟨.console, level⟩ :: (file.map fun name => (⟨.file name, level⟩ : Handler)).toList
    files := match file with
      | some name => appendTo name [] l.files
      | none => l.files
    answers := [] }

def emit (r : Record) (l : Log) (h : Handler) : Log :=
  if r.level.number < h.level.number then l
  else match h.sink with
    | .console => { l with console := l.console ++ [r.consoleText] }
    | .file name => { l with files := appendTo name [r.fileText] l.files }

/-- Whether the records of a logger come to the handlers. -/
def reaches (l : Log) (name : String) : Bool := l.loggers.isUnder mainName name

/-- The level from which on a logger takes records. -/
def thresholdOf (l : Log) (name : String) : Level := if l.reaches name then l.threshold else .warning

/-- Whether a logger takes records of a level. It keeps to what it has said before. -/
def ask (name : String) (level : Level) (l : Log) : Bool × Log :=
  match l.answers.lookup (name, level) with
  | some answer => (answer, l)
  | none =>
    let answer := decide ((l.thresholdOf name).number ≤ level.number)
    (answer, { l with answers := ((name, level), answer) :: l.answers })

/-- Hands a record to the handlers of its logger. Without any its bare message is shown if it is a warning at least. -/
def dispatch (r : Record) (l : Log) : Log :=
  match if l.reaches r.origin then l.handlers else [] with
  | [] => if r.level.number < Level.warning.number then l else { l with console := l.console ++ [r.message] }
  | hs => hs.foldl (emit r) l

def write (r : Record) (l : Log) : Log :=
  let (taken, l) := (l.register r.origin).ask r.origin r.level
  if taken then l.dispatch r else l

/-- Writes the message of a template and arguments. A template that does not go with its arguments has none. -/
def note (level : Level) (part : Option String) (template : String) (args : List Value) (l : Log) : Log :=
  match message? template args with
  | some m => l.write ⟨level, originOf part, m⟩
  | none => ((l.register (originOf part)).ask (originOf part) level).2

end Log

end CommentGrade
