import CommentGrade.Comment.Patterns
import CommentGrade.Pattern.Matching
import CommentGrade.Text.Position

/-!
# Finding comments

A text is searched three times: for line comments, for blocks, for doc blocks. The results follow each other;
a place may be found more than once. What is found is what the delimiters say, also inside string literals.
-/
namespace CommentGrade

inductive CommentKind where
  | line
  | block
  | doc
  deriving DecidableEq, Repr

namespace CommentKind

def name : CommentKind → String
  | .line => "single_line"
  | .block => "block"
  | .doc => "doc_block"

def all : List CommentKind := [.line, .block, .doc]

def ofName? (name : String) : Option CommentKind := all.find? (·.name == name)

end CommentKind

/-- A comment found in a text: its place, the line it begins on, and what it says. -/
structure Comment where
  kind : CommentKind
  start : Nat
  stop : Nat
  line : Nat
  text : String
  deriving DecidableEq, Repr

namespace Comment

/-- The comment between two offsets, if there is anything between them. -/
def ofRange? (kind : CommentKind) (cs : List Char) (line start stop : Nat) : Option Comment :=
  if start < stop then some ⟨kind, start, stop, line, String.ofList (Text.between cs start stop)⟩ else none

/-- The line comment of a match: its last group. A comment at the start of the text may be no comment. -/
def ofLineMatch? (skipsFirstLine : Bool) (cs : List Char) (m : Match) : Option Comment :=
  let position := Text.positionAt cs m.span.start
  if skipsFirstLine ∧ position = ⟨0, 0⟩ then none
  else
    let length := ((m.group? 4).map fun s => s.stop - s.start).getD 0
    ofRange? .line cs position.line (m.span.stop - length) m.span.stop

/-- The block comment of a match: what is between opener and closer, on the line where the match begins. -/
def ofBlockMatch? (kind : CommentKind) (cs : List Char) (m : Match) : Option Comment :=
  match m.group? 3, m.group? 4 with
  | some body, some closer => ofRange? kind cs (Text.lineAt cs m.span.start) body.start closer.start
  | _, _ => none

def lineComments (skipsFirstLine : Bool) (e : Expression) (cs : List Char) : List Comment :=
  (e.matchesIn cs).filterMap (ofLineMatch? skipsFirstLine cs)

def blockComments (kind : CommentKind) (e : Expression) (cs : List Char) : List Comment :=
  (e.matchesIn cs).filterMap (ofBlockMatch? kind cs)

/-- The comments of a text: those of each kind in the order of the text. -/
def extract (profile : Profile) (patterns : Patterns) (cs : List Char) : List Comment :=
  if profile.supported then
    ((patterns.line.map (lineComments profile.skipsFirstLine · cs)).getD []) ++
      ((patterns.block.map (blockComments .block · cs)).getD []) ++
      ((patterns.doc.map (blockComments .doc · cs)).getD [])
  else []

end Comment

end CommentGrade
