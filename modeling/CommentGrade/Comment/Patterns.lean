import CommentGrade.Language.Profile
import CommentGrade.Pattern.Source

/-!
# The patterns of comments

The patterns that a profile's comments are found with. Their groups have fixed numbers. For line comments: 1 the
delimiter, or the start of the line in plain text; 2 blanks; 3 tags; 4 the comment. For blocks: 1 what the opener
stands after; 2 the opener; 3 the comment; 4 the closer.
-/
namespace CommentGrade.Comment

/-- What is looked for in a text, beyond what its profile says. -/
structure Scope where
  /-- Words that may stand right after a line delimiter and do not belong to the comment. -/
  tags : List String := []
  /-- Whether the lines of plain text count as comments. -/
  plainText : Bool := false
  blocks : Bool := true
  docBlocks : Bool := true
  deriving DecidableEq, Repr

/-- The tags that a pattern lists: no empty one, each at its first place. -/
def distinctTags (tags : List String) : List String := (tags.filter (· != "")).eraseDups

def escapedTags (tags : List String) : List String :=
  (distinctTags tags).map fun t => String.ofList (escaped t.toList)

open Pattern

/-- A blank or a tabulator, any number of times, in group 2. -/
def gap : Pattern := .star (.group 2 (.alt (.set (.char ' ')) (.set .tab))) false

/-- Any number of tags in group 3. -/
def tagClause (tags : List String) : Pattern :=
  match distinctTags tags with
  | [] => .group 3 .empty
  | ts => .star (.group 3 (oneOf (ts.map String.toList))) false

/-- The rest of a line in group 4. -/
def lineRest : Pattern := .group 4 (.star (.set .inLine) false)

/-- The start of a line with its indent. -/
def plainHead : List Pattern := [.group 1 .lineStart, .group 2 (.star (.set .blankOrTab) false)]

/-- A delimiter, which may be repeated, with the blanks after it. -/
def delimiterHead (delimiter : String) : List Pattern :=
  [.plus (.group 1 (literal delimiter.toList)), gap]

/-- The pattern of line comments. In plain text every line is one. -/
def linePattern? (profile : Profile) (tags : List String) (plainText : Bool) : Option Pattern :=
  let head? := if profile.plainText && plainText then some plainHead
    else match profile.lineDelimiter with
      | none => none
      | some d => if d = "" then none else some (delimiterHead d)
  head?.map fun head => inOrder (head ++ [tagClause tags, lineRest])

/-- The pattern of a block: an opener after the start of a line or a blank, then as little as possible up to
the closer. -/
def enclosed (opener : Pattern) (closing : String) : Pattern :=
  inOrder [.group 1 (.alt .lineStart (.set .blankOrTab)), .plus (.group 2 opener),
    .group 3 (.star (.set .any) true), .group 4 (literal closing.toList)]

/-- The pattern of block comments: white space follows each opening delimiter. -/
def blockPattern (d : Delimiters) : Pattern :=
  enclosed (inOrder [literal d.opening.toList, .set .space]) d.closing

def docPattern : Pattern := enclosed (literal "/**".toList) "*/"

/-- The expressions that find the comments of a text, one for each kind that is looked for. -/
structure Patterns where
  line : Option Expression := none
  block : Option Expression := none
  doc : Option Expression := none
  deriving DecidableEq, Repr

def Patterns.isEmpty (p : Patterns) : Bool := p.line.isNone && p.block.isNone && p.doc.isNone

/-- The expressions for a profile. Only line comments are found whatever the case of their letters. -/
def Patterns.ofProfile (profile : Profile) (scope : Scope) : Patterns :=
  if profile.supported then
    { line := (linePattern? profile scope.tags scope.plainText).map fun p =>
        ⟨p, true, profile.plainText && scope.plainText⟩
      block := if scope.blocks then profile.block.map fun d => ⟨blockPattern d, false, true⟩ else none
      doc := if profile.docBlocks && scope.docBlocks then some ⟨docPattern, false, true⟩ else none }
  else {}

end CommentGrade.Comment
