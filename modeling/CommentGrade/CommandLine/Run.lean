import CommentGrade.Analysis.Progress
import CommentGrade.CommandLine.Options
import CommentGrade.Json.Writer
import CommentGrade.Language.Suggestion
import CommentGrade.Report.Structured
import CommentGrade.Report.Text
import CommentGrade.Settings.Loading
import CommentGrade.Yaml.Reader

/-!
# An analysis from the command line

The arguments and the files on a disk determine what is printed and with which code the program ends: 2 if the arguments
or the settings are unusable, 1 if a comment has a median above the limit, else 0.
-/
namespace CommentGrade.CommandLine

open Number Readability Report

/-- What a run of a program leaves behind: the code at its end, what it has printed, and its messages. -/
structure Output where
  code : Nat
  printed : String
  messages : List String
  deriving DecidableEq, Repr

/-- Why a run breaks off without a code. -/
inductive Crash where
  | settings (e : LoadError)
  | report (e : ReportError)
  deriving DecidableEq, Repr

def Crash.message : Crash → String
  | .settings e => e.message
  | .report e => e.message

/-- What a program needs besides its arguments and the files: formulas, the notation of numbers, the likeness of names,
and a reader of YAML. -/
structure Environment (α : Type) where
  formulas : Formulas α
  number : α → Float
  fixed : Nat → α → String
  likeness : String → String → α
  likenessThreshold : α
  yaml : DocumentReader

/-- English formulas and doubles. -/
def Environment.english : Environment Float where
  formulas := Readability.english
  number := id
  fixed := fixedText
  likeness := Language.similarity
  likenessThreshold := Language.suggestionThreshold
  yaml := Yaml.reader

def printedLines (lines : List String) : String := String.join (lines.map (· ++ "\n"))

/-- The place of a file on the disk. -/
def placeOf (disk : Disk) : Option String → String
  | none => "<memory>"
  | some path => disk.location (Path.ofString path)

def Options.overrides (o : Options) : Overrides Bool where
  multilineComments := o.multilineComments
  highlightPlainText := o.highlightPlainText
  useDocStyle := o.useDocStyle
  tags := o.tags.map fun tags => .list (tags.map .str)

/-- The settings of a run: the defaults, over them the settings file, over them the options. -/
def Options.settings (o : Options) (yaml : DocumentReader) (disk : Disk) : Except LoadError (Settings Bool) := do
  let base ← match o.settingsPath with
    | none | some "" => .ok (Settings.defaults id)
    | some path => Settings.load yaml id (Settings.defaults id) disk path
  (base.merged o.overrides).mapError .settings

/-- How settings that are not loaded end the run: with code 2 if the user is told why. -/
def settingsFailure (log : Log) (e : LoadError) : Except Crash Output :=
  if e.isForeseen then .ok ⟨2, "", log.console ++ ["Failed to load config"]⟩ else .error (.settings e)

def Options.view (o : Options) (s : Settings Bool) : View where
  notes := s.showNotes
  minGrade := o.minGrade
  readingTime := o.readingTime && s.estimatedReadingTime
  summary := o.summary

section Run

variable {α : Type} [LT α] [DecidableLT α] [LE α] [DecidableLE α]

/-- The language that is proposed in the place of one that is not supported. -/
def hint? (env : Environment α) (language : String) : Option String :=
  (Language.suggest? env.likeness env.likenessThreshold language).filter (· != language)

/-- The warning that the comments of a language are not known, if that is so. -/
def warning? (env : Environment α) (s : Settings Bool) (language : String) : Option Record :=
  if language = "" ∨ (Analysis.profileOf s language).supported then none
  else
    let hint := match hint? env language with
      | some id => " (did you mean '" ++ id ++ "'?)"
      | none => ""
    some ⟨.warning, Log.originOf (some "cli"),
      "language '" ++ language ++ "' is not supported" ++ hint ++ "; no comments will be reported"⟩

/-- Whether some comment has a median above a limit. -/
def exceeds [OfScientific α] [Placed α] (limit : Int) (as : List (Analysis α)) : Bool :=
  as.any fun a => a.graded.any fun g => Placed.above g.stats.textMedian limit

def exitCode [OfScientific α] [Placed α] (o : Options) (as : List (Analysis α)) : Nat :=
  match o.failAbove with
  | none => 0
  | some limit => if exceeds limit as then 1 else 0

/-- The entries of all analyses in a structured report. -/
def structuredReport [OfScientific α] [Placed α] (number : α → Value) :
    List (Analysis α) → Except NotFinite (List Value)
  | [] => .ok []
  | a :: as => do
    let entries ← a.entries number
    let rest ← structuredReport number as
    return .object entries :: rest

def report [OfScientific α] [Placed α] [BEq α] (env : Environment α) (disk : Disk) (o : Options) (s : Settings Bool)
    (as : List (Analysis α)) : Except ReportError String :=
  if o.structured then do
    let entries ← (structuredReport (fun x => .float (env.number x)) as).mapError .grade
    return Json.document (.list entries) ++ "\n"
  else (lines env.fixed (o.view s) (placeOf disk) as).map printedLines

variable [Add α] [Sub α] [Mul α] [Div α] [OfScientific α] [NatCast α] [BEq α] [Measure α] [Placed α]

/-- The analyses of the files that paths stand for, with what is logged about them. -/
def analysed (env : Environment α) (o : Options) (s : Settings Bool) (disk : Disk) (paths : List String)
    (log : Log) : List (Analysis α) × Log :=
  let files := Files.listed disk o.language paths
  let analyse := Files.analyse env.formulas disk s o.language
  let outcomes := Files.outcomes analyse files
  (Files.analyses (Files.outcomeAt outcomes analyse) o.jobs files,
    Files.logProgress (Files.outcomeAt outcomes analyse) files log)

def runWith (env : Environment α) (disk : Disk) (o : Options) (paths : List String) : Except Crash Output :=
  let log := Log.configure o.verbose none {}
  if o.listLanguages then .ok ⟨0, printedLines Language.supportedIds, log.console⟩
  else match o.settings env.yaml disk with
    | .error e => settingsFailure log e
    | .ok s => do
      let log := match o.language.bind (warning? env s) with
        | some r => log.write r
        | none => log
      let (as, log) := analysed env o s disk paths log
      let printed ← (report env disk o s as).mapError .report
      return ⟨exitCode o as, printed, log.console⟩

/-- A run. Help and mistakes in the arguments print nothing here: what is said about the use of the program is no part
of its results. -/
def run (env : Environment α) (disk : Disk) (arguments : List String) : Except Crash Output :=
  match Options.parse arguments with
  | .error .help => .ok ⟨0, "", []⟩
  | .error (.usage _) => .ok ⟨2, "", []⟩
  | .ok (o, paths) => runWith env disk o paths

end Run

end CommentGrade.CommandLine
