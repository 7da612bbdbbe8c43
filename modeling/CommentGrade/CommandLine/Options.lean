import CommentGrade.CommandLine.Grammar

/-!
# The options of an analysis

What can be chosen on the command line of an analysis, and what holds if nothing is chosen.
-/
namespace CommentGrade.CommandLine

/-- The choices of a command line. What is left open is for the settings to say. -/
structure Options where
  language : Option String := none
  settingsPath : Option String := none
  structured : Bool := false
  tags : Option (List String) := none
  multilineComments : Option Bool := none
  highlightPlainText : Option Bool := none
  useDocStyle : Option Bool := none
  summary : Bool := false
  readingTime : Bool := false
  minGrade : Int := 0
  failAbove : Option Int := none
  jobs : Int := 1
  listLanguages : Bool := false
  verbose : Bool := false
  deriving DecidableEq, Repr

namespace Options

/-- A tag is added to those that were given before. -/
def addTag (o : Options) (tag : String) : Options := { o with tags := some (o.tags.getD [] ++ [tag]) }

/-- Asks for help, or for the messages that are otherwise not shown. -/
def shortSwitches : List (Char × Switch Options) :=
  [('h', .help), ('v', .set fun o => { o with verbose := true })]

def setting (f : Options → Options) : Rule Options := .switch (.set f)

def text (f : String → Options → Options) : Rule Options := .value fun v o => .ok (f v o)

def grammar : Grammar Options where
  short := shortSwitches
  long := [
    ("help", .switch .help),
    ("language", text fun v o => { o with language := some v }),
    ("json", setting fun o => { o with structured := true }),
    ("config", text fun v o => { o with settingsPath := some v }),
    ("tag", text fun v o => o.addTag v),
    ("multiline", setting fun o => { o with multilineComments := some true }),
    ("no-multiline", setting fun o => { o with multilineComments := some false }),
    ("plaintext", setting fun o => { o with highlightPlainText := some true }),
    ("jsdoc", setting fun o => { o with useDocStyle := some true }),
    ("no-jsdoc", setting fun o => { o with useDocStyle := some false }),
    ("summary", setting fun o => { o with summary := true }),
    ("reading-time", setting fun o => { o with readingTime := true }),
    ("min-grade", integerRule "--min-grade" fun n o => { o with minGrade := n }),
    ("fail-above", integerRule "--fail-above" fun n o => { o with failAbove := some n }),
    ("jobs", integerRule "--jobs" fun n o => { o with jobs := n }),
    ("list-languages", setting fun o => { o with listLanguages := true }),
    ("verbose", setting fun o => { o with verbose := true })]

/-- The choices of a command line and the paths it names. -/
def parse (arguments : List String) : Except Stop (Options × List String) := grammar.parse {} arguments

end Options

end CommentGrade.CommandLine
