import CommentGrade.Yaml.Cursor

/-!
# Tokens of YAML

The scalars, indicators and directives of a text. Indentation becomes tokens too: a block collection begins where
its first entry is further right than what is around it, and ends where the text goes back to the left.
-/
namespace CommentGrade.Yaml

inductive Token where
  | versionDirective (major : Nat)
  | tagDirective (handle : String) (start : String)
  | otherDirective
  | documentStart
  | documentEnd
  | blockSequenceStart
  | blockMappingStart
  | blockEnd
  | flowSequenceStart
  | flowSequenceEnd
  | flowMappingStart
  | flowMappingEnd
  | blockEntry
  | flowEntry
  | key
  | value
  | alias (name : String)
  | anchor (name : String)
  /-- A tag: a handle, unless the tag is given in full, and what follows it. -/
  | tag (handle : Option String) (suffix : String)
  | scalar (text : String) (plain : Bool)
  deriving DecidableEq, Repr

def isNameChar (c : Char) : Bool := c.isAlphanum || c == '-' || c == '_'

def name (c : Cursor) : Except TreeError (String × Cursor) :=
  let (cs, after) := c.takeRun isNameChar
  if cs.isEmpty then .error .malformed else .ok (String.ofList cs, after)

/-- The name of an anchor or an alias, from its indicator on. -/
def anchorName (c : Cursor) : Except TreeError (String × Cursor) := do
  let (s, after) ← name c.next
  if atSpaceOrEnd after.peek || isOneOf ['?', ':', ',', ']', '\x7d', '%', '@', '\x60'] after.peek then
    return (s, after)
  else .error .malformed

/-! ## Tags and directives -/

def isUriChar (c : Char) : Bool :=
  c.isAlphanum || "-;/?:@&=+$,_.!~*'()[]%".toList.contains c

/-- The bytes of escapes, each a percent sign and two digits. -/
def uriEscapes : Nat → List Char → Except TreeError (List UInt8)
  | 0, _ => .error .malformed
  | n + 1, cs =>
    match cs with
    | '%' :: a :: b :: rest =>
      if Number.isDigitOf 16 a && Number.isDigitOf 16 b then do
        let bs ← uriEscapes n rest
        return UInt8.ofNat (Number.valueOf 16 [a, b]) :: bs
      else .error .malformed
    | '%' :: _ => .error .malformed
    | _ => .ok []

/-- What a row of URI characters says, with its escapes resolved. -/
def uriText : Nat → List Char → Except TreeError (List Char)
  | 0, _ => .ok []
  | n + 1, cs =>
    match cs with
    | [] => .ok []
    | '%' :: _ => do
      let bs ← uriEscapes (cs.length + 1) cs
      match String.fromUTF8? ⟨bs.toArray⟩ with
      | some s =>
        let rest ← uriText n (cs.drop (3 * bs.length))
        return s.toList ++ rest
      | none => .error .malformed
    | c :: cs => do
      let rest ← uriText n cs
      return c :: rest

def uri (c : Cursor) : Except TreeError (String × Cursor) := do
  let (cs, after) := c.takeRun isUriChar
  if cs.isEmpty then .error .malformed
  else
    let text ← uriText (cs.length + 1) cs
    return (String.ofList text, after)

/-- The handle of a tag: an exclamation mark, or a word between two of them. -/
def tagHandle (c : Cursor) : Except TreeError (String × Cursor) :=
  match c.rest with
  | '!' :: rest =>
    if rest.head? == some ' ' then .ok ("!", c.next)
    else
      let word := rest.takeWhile isNameChar
      match rest.drop word.length with
      | '!' :: _ => .ok (String.ofList ('!' :: word ++ ['!']), c.skip (word.length + 2))
      | _ => .error .malformed
  | _ => .error .malformed

/-- A tag, from its exclamation mark on. -/
def tag (c : Cursor) : Except TreeError (Token × Cursor) := do
  let (token, after) ←
    if c.peek 1 == some '<' then do
      let (s, after) ← uri (c.skip 2)
      if after.peek == some '>' then pure (Token.tag none s, after.next) else .error .malformed
    else if atSpaceOrEnd (c.peek 1) then pure (Token.tag none "!", c.next)
    else do
      let ahead := (c.rest.drop 1).takeWhile fun x => !(x == ' ' || isBreak x)
      let (handle, after) ← if ahead.contains '!' then tagHandle c else pure ("!", c.next)
      let (s, after) ← uri after
      pure (Token.tag (some handle) s, after)
  if atBlankOrEnd after.peek then return (token, after) else .error .malformed

def versionNumber (c : Cursor) : Except TreeError (Nat × Cursor) := do
  let (cs, after) := c.takeRun Char.isDigit
  if cs.isEmpty then .error .malformed
  else match Number.decimalValue cs with
    | .ok n => return (n, after)
    | .error e => .error (.tooLong e)

/-- A directive, from its percent sign on. -/
def directive (c : Cursor) : Except TreeError (Token × Cursor) := do
  let (word, c) ← name c.next
  if !atBlankOrEnd c.peek then .error .malformed
  else
    let (token, c) ←
      if word = "YAML" then do
        let (major, c) ← versionNumber (c.skipRun (· == ' '))
        if c.peek != some '.' then .error .malformed
        else
          let (_, c) ← versionNumber c.next
          if atBlankOrEnd c.peek then pure (Token.versionDirective major, c) else .error .malformed
      else if word = "TAG" then do
        let (handle, c) ← tagHandle (c.skipRun (· == ' '))
        if c.peek != some ' ' then .error .malformed
        else
          let (start, c) ← uri (c.skipRun (· == ' '))
          if atBlankOrEnd c.peek then pure (Token.tagDirective handle start, c) else .error .malformed
      else pure (Token.otherDirective, c.skipRun (!isBreak ·))
    return (token, ← c.ignoreLine)

/-! ## Scalars in quotes -/

/-- The character of an escape with one letter. -/
def shortEscape? : Char → Option Char
  | '0' => some '\x00'
  | 'a' => some '\x07'
  | 'b' => some '\x08'
  | 't' => some '\t'
  | '\t' => some '\t'
  | 'n' => some '\n'
  | 'v' => some '\x0b'
  | 'f' => some '\x0c'
  | 'r' => some '\r'
  | 'e' => some '\x1b'
  | ' ' => some ' '
  | '"' => some '"'
  | '\\' => some '\\'
  | '/' => some '/'
  | 'N' => some '\u0085'
  | '_' => some '\u00a0'
  | 'L' => some '\u2028'
  | 'P' => some '\u2029'
  | _ => none

/-- The number of hexadecimal digits after the letter of an escape. -/
def longEscape? : Char → Option Nat
  | 'x' => some 2
  | 'u' => some 4
  | 'U' => some 8
  | _ => none

/-- The line breaks between two lines of a scalar, with the blanks around them left out. The number bounds the
lines. -/
def breaksBetween : Nat → Cursor → Except TreeError (List Char × Cursor)
  | 0, c => .ok ([], c)
  | n + 1, c =>
    if c.atSeparator then .error .malformed
    else
      let c := c.skipRun fun x => x == ' ' || x == '\t'
      match c.lineBreak with
      | ([], _) => .ok ([], c)
      | (b, after) => do
        let (bs, c) ← breaksBetween n after
        return (b ++ bs, c)

/-- Blanks within a scalar in quotes: they stay as they are, unless they surround the end of a line. One line
break is a blank; several count one less. -/
def foldedSpaces (c : Cursor) : Except TreeError (List Char × Cursor) :=
  let (blanks, c) := c.takeRun fun x => x == ' ' || x == '\t'
  match c.peek with
  | none => .error .malformed
  | some x =>
    if isBreak x then do
      let (b, after) := c.lineBreak
      let (bs, c) ← breaksBetween (after.rest.length + 1) after
      if b != ['\n'] then return (b ++ bs, c)
      else if bs.isEmpty then return ([' '], c)
      else return (bs, c)
    else .ok (blanks, c)

/-- The characters of a scalar in quotes up to its closing quote. The number bounds the steps. -/
def quotedChars (double : Bool) : Nat → Cursor → Except TreeError (List Char × Cursor)
  | 0, _ => .error .malformed
  | n + 1, c =>
    let more (cs : List Char) (c : Cursor) : Except TreeError (List Char × Cursor) := do
      let (rest, c) ← quotedChars double n c
      return (cs ++ rest, c)
    match c.rest with
    | [] => .error .malformed
    | x :: rest =>
      if x = '\'' ∧ !double then
        if rest.head? == some '\'' then more ['\''] (c.skip 2) else .ok ([], c.next)
      else if x = '"' ∧ double then .ok ([], c.next)
      else if x = '\\' ∧ double then
        match rest with
        | [] => .error .malformed
        | e :: digits =>
          match shortEscape? e, longEscape? e with
          | some y, _ => more [y] (c.skip 2)
          | none, some width =>
            let ds := digits.take width
            if ds.length = width ∧ ds.all (Number.isDigitOf 16) then
              let code := Number.valueOf 16 ds
              if code < 0x110000 then more [Char.ofNat code] (c.skip (2 + width)) else .error (.codePoint code)
            else .error .malformed
          | none, none =>
            if isBreak e then do
              let after := c.next.lineBreak.2
              let (bs, c) ← breaksBetween (after.rest.length + 1) after
              more bs c
            else .error .malformed
      else if x == ' ' || x == '\t' || isBreak x then do
        let (cs, c) ← foldedSpaces c
        more cs c
      else more [x] c.next

/-- A scalar in quotes, from its opening quote on. -/
def quotedScalar (double : Bool) (c : Cursor) : Except TreeError (String × Cursor) := do
  let (cs, after) ← quotedChars double (c.rest.length + 1) c.next
  return (String.ofList cs, after)

/-! ## Block scalars -/

/-- What happens to the line breaks at the end of a block scalar. -/
inductive Chomping where
  | strip
  | clip
  | keep
  deriving DecidableEq, Repr

/-- The indicators after the first one of a block scalar: what happens at its end, and how far it is indented. -/
def blockIndicators (c : Cursor) : Except TreeError (Chomping × Option Nat × Cursor) := do
  let chomping? (c : Cursor) : Option (Chomping × Cursor) :=
    if c.peek == some '+' then some (.keep, c.next)
    else if c.peek == some '-' then some (.strip, c.next)
    else none
  let increment (c : Cursor) : Except TreeError (Option Nat × Cursor) :=
    match c.peek with
    | some x =>
      if x = '0' then .error .malformed
      else if x.isDigit then .ok (some (x.toNat - 0x30), c.next)
      else .ok (none, c)
    | none => .ok (none, c)
  let (chomping, width, after) ← match chomping? c with
    | some (k, c) => do
      let (width, c) ← increment c
      pure (k, width, c)
    | none => do
      let (width, c) ← increment c
      match width, chomping? c with
      | some _, some (k, c) => pure (k, width, c)
      | _, _ => pure (Chomping.clip, width, c)
  if atBlankOrEnd after.peek then return (chomping, width, after) else .error .malformed

/-- The empty lines at the start of a block scalar and the widest of the indents seen there. -/
def firstIndent : Nat → Nat → Cursor → List Char × Nat × Cursor
  | 0, widest, c => ([], widest, c)
  | n + 1, widest, c =>
    if c.peek == some ' ' then firstIndent n (max widest (c.column + 1)) c.next
    else
      match c.lineBreak with
      | ([], _) => ([], widest, c)
      | (b, after) =>
        let (bs, widest, c) := firstIndent n widest after
        (b ++ bs, widest, c)

/-- The empty lines of a block scalar before the next line with the given indent. -/
def emptyLines (indent : Nat) : Nat → Cursor → List Char × Cursor
  | 0, c => ([], c)
  | n + 1, c =>
    let blanks := min (c.run (· == ' ')) (indent - c.column)
    let c := c.skip blanks
    match c.lineBreak with
    | ([], _) => ([], c)
    | (b, after) =>
      let (bs, c) := emptyLines indent n after
      (b ++ bs, c)

/-- The lines of a block scalar, with the empty lines before the first of them; then the last line break, the
empty lines after it, and the place where the scalar ends. The number bounds the lines. -/
def blockLines (folded : Bool) (indent : Nat) : Nat → List Char → Cursor →
    List Char × List Char × List Char × Cursor
  | 0, _, c => ([], [], [], c)
  | n + 1, breaks, c =>
    if c.column ≠ indent ∨ c.peek = none then ([], [], breaks, c)
    else
      let startsWithText := !isOneOf [' ', '\t'] c.peek
      let (line, c) := c.takeRun (!isBreak ·)
      let (b, after) := c.lineBreak
      let (breaks', c) := emptyLines indent (after.rest.length + 1) after
      if c.column ≠ indent ∨ c.peek = none then (breaks ++ line, b, breaks', c)
      else
        let joint :=
          if folded && b == ['\n'] && startsWithText && !isOneOf [' ', '\t'] c.peek then
            if breaks'.isEmpty then [' '] else []
          else b
        let (rest, last, trailing, c) := blockLines folded indent n breaks' c
        (breaks ++ line ++ joint ++ rest, last, trailing, c)

/-- A block scalar, from its indicator on, inside a collection with the given indent. -/
def blockScalar (folded : Bool) (around : Int) (c : Cursor) : Except TreeError (String × Cursor) := do
  let (chomping, width, c) ← blockIndicators c.next
  let c ← c.ignoreLine
  let least := max 1 (around + 1).toNat
  let (breaks, indent, c) := match width with
    | none =>
      let (bs, widest, c) := firstIndent (c.rest.length + 1) 0 c
      (bs, max least widest, c)
    | some w =>
      let indent := least + w - 1
      let (bs, c) := emptyLines indent (c.rest.length + 1) c
      (bs, indent, c)
  let (text, last, trailing, c) := blockLines folded indent (c.rest.length + 1) breaks c
  let text := match chomping with
    | .strip => text
    | .clip => text ++ last
    | .keep => text ++ last ++ trailing
  return (String.ofList text, c)

/-! ## Plain scalars -/

/-- The characters of a plain scalar up to the next blank or indicator. -/
def plainChunk (inFlow : Bool) : List Char → List Char
  | [] => []
  | x :: rest =>
    let follows := atSpaceOrEnd rest.head? || (inFlow && isOneOf [',', '[', ']', '\x7b', '\x7d'] rest.head?)
    if atSpaceOrEnd (some x) || (x == ':' && follows) ||
        (inFlow && isOneOf [',', '?', '[', ']', '\x7b', '\x7d'] (some x)) then []
    else x :: plainChunk inFlow rest

/-- Empty lines and blanks after a line of a plain scalar; nothing if a separator stops it. -/
def plainBreaks? : Nat → Cursor → Option (List Char) × Cursor
  | 0, c => (some [], c)
  | n + 1, c =>
    if c.peek == some ' ' then plainBreaks? n c.next
    else
      match c.lineBreak with
      | ([], _) => (some [], c)
      | (b, after) =>
        if after.atSeparator then (none, after)
        else
          let (bs, c) := plainBreaks? n after
          (bs.map (b ++ ·), c)

/-- What stands between two parts of a plain scalar, whether a line ends there, and the place after it. -/
def plainSpaces (c : Cursor) : List Char × Bool × Cursor :=
  let (blanks, c) := c.takeRun (· == ' ')
  match c.lineBreak with
  | ([], _) => (blanks, false, c)
  | (b, after) =>
    if after.atSeparator then ([], true, after)
    else
      let (bs?, c) := plainBreaks? (after.rest.length + 1) after
      match bs? with
      | none => ([], true, c)
      | some bs =>
        if b != ['\n'] then (b ++ bs, true, c)
        else if bs.isEmpty then ([' '], true, c)
        else (bs, true, c)

/-- A plain scalar in parts; whether a line has ended after the last of them; and the place after it. The
number bounds the parts. -/
def plainParts (inFlow : Bool) (around : Int) : Nat → List Char → Bool → Cursor → List Char × Bool × Cursor
  | 0, _, ended, c => ([], ended, c)
  | n + 1, spaces, ended, c =>
    if c.peek == some '#' then ([], ended, c)
    else
      let chunk := plainChunk inFlow c.rest
      if chunk.isEmpty then ([], ended, c)
      else
        let (spaces', ended, c) := plainSpaces (c.skip chunk.length)
        if spaces'.isEmpty || c.peek == some '#' || (!inFlow && decide ((c.column : Int) < around + 1)) then
          (spaces ++ chunk, ended, c)
        else
          let (rest, ended', c) := plainParts inFlow around n spaces' ended c
          (spaces ++ chunk ++ rest, ended', c)

/-! ## The scanner -/

/-- A place where a key may have begun that is only known as one by the colon after it. -/
structure SimpleKey where
  /-- How many tokens come before it. -/
  position : Nat
  /-- Whether there must be a colon, because nothing else may begin here. -/
  required : Bool
  index : Nat
  line : Nat
  column : Nat
  deriving Repr

structure Scanner where
  cursor : Cursor
  /-- The number of flow collections around the place. -/
  flow : Nat := 0
  indent : Int := -1
  indents : List Int := []
  keyAllowed : Bool := true
  /-- Possible keys, by the number of flow collections around them. -/
  keys : List (Nat × SimpleKey) := []
  tokens : Array Token := #[]

namespace Scanner

def emit (s : Scanner) (t : Token) : Scanner := { s with tokens := s.tokens.push t }

/-- The place moved over so many characters that are a token. -/
def take (s : Scanner) (n : Nat) (t : Token) : Scanner := { s.emit t with cursor := s.cursor.skip n }

/-- The possible keys that are still possible: a key ends on its line and has at most 1024 characters. -/
def dropStaleKeys (s : Scanner) : Except TreeError Scanner :=
  let stale (k : SimpleKey) : Bool := k.line != s.cursor.line || 1024 < s.cursor.index - k.index
  if s.keys.any fun k => stale k.2 && k.2.required then .error .malformed
  else .ok { s with keys := s.keys.filter fun k => !stale k.2 }

/-- No key may have begun in the collection around the place. -/
def dropKey (s : Scanner) : Except TreeError Scanner :=
  match s.keys.lookup s.flow with
  | some k => if k.required then .error .malformed else .ok { s with keys := s.keys.filter (·.1 != s.flow) }
  | none => .ok s

/-- A key may begin here. -/
def saveKey (s : Scanner) : Except TreeError Scanner :=
  if s.keyAllowed then do
    let required := s.flow == 0 && s.indent == (s.cursor.column : Int)
    let s ← s.dropKey
    let k : SimpleKey := ⟨s.tokens.size, required, s.cursor.index, s.cursor.line, s.cursor.column⟩
    return { s with keys := (s.flow, k) :: s.keys }
  else .ok s

/-- Ends the block collections that are further right than a column. -/
def unwind (column : Int) : Nat → Scanner → Scanner
  | 0, s => s
  | n + 1, s =>
    if s.flow ≠ 0 ∨ s.indent ≤ column then s
    else unwind column n { s.emit .blockEnd with indent := s.indents.head?.getD (-1), indents := s.indents.tail }

def unwindTo (s : Scanner) (column : Int) : Scanner := unwind column (s.indents.length + 1) s

/-- Starts a block collection at a column, unless it has started there already. Its token goes to a position
among the tokens. -/
def indentAt (s : Scanner) (column : Nat) (position : Nat) (t : Token) : Scanner :=
  if s.indent < (column : Int) then
    { s with
      indents := s.indent :: s.indents
      indent := column
      tokens := ((s.tokens.toList.take position) ++ t :: s.tokens.toList.drop position).toArray }
  else s

/-- The place after blanks, comments and ends of lines. A key may begin on a new line. -/
def skipFiller : Nat → Scanner → Scanner
  | 0, s => s
  | n + 1, s =>
    let c := s.cursor.skipRun (· == ' ')
    let c := if c.peek == some '#' then c.skipRun (!isBreak ·) else c
    match c.lineBreak with
    | ([], _) => { s with cursor := c }
    | (_, after) => skipFiller n { s with cursor := after, keyAllowed := s.keyAllowed || s.flow == 0 }

/-- A directive or a separator of documents: all collections end before it. -/
def topLevel (s : Scanner) : Except TreeError Scanner := do
  let s ← (s.unwindTo (-1)).dropKey
  return { s with keyAllowed := false }

def blockEntry (s : Scanner) : Except TreeError Scanner :=
  if s.flow = 0 ∧ !s.keyAllowed then .error .malformed
  else do
    let s := if s.flow = 0 then s.indentAt s.cursor.column s.tokens.size .blockSequenceStart else s
    let s ← { s with keyAllowed := true }.dropKey
    return s.take 1 .blockEntry

def explicitKey (s : Scanner) : Except TreeError Scanner :=
  if s.flow = 0 ∧ !s.keyAllowed then .error .malformed
  else do
    let s := if s.flow = 0 then s.indentAt s.cursor.column s.tokens.size .blockMappingStart else s
    let s ← { s with keyAllowed := s.flow == 0 }.dropKey
    return s.take 1 .key

/-- The colon before a value. If a key may have begun before it, one has. -/
def value (s : Scanner) : Except TreeError Scanner :=
  match s.keys.lookup s.flow with
  | some k =>
    let tokens := (s.tokens.toList.take k.position ++ .key :: s.tokens.toList.drop k.position).toArray
    let s := { s with keys := s.keys.filter (·.1 != s.flow), tokens := tokens }
    let s := if s.flow = 0 then s.indentAt k.column k.position .blockMappingStart else s
    .ok ({ s with keyAllowed := false }.take 1 .value)
  | none =>
    if s.flow = 0 ∧ !s.keyAllowed then .error .malformed
    else do
      let s := if s.flow = 0 then s.indentAt s.cursor.column s.tokens.size .blockMappingStart else s
      let s ← { s with keyAllowed := s.flow == 0 }.dropKey
      return s.take 1 .value

def flowStart (s : Scanner) (t : Token) : Except TreeError Scanner := do
  let s ← s.saveKey
  return { s.take 1 t with flow := s.flow + 1, keyAllowed := true }

def flowEnd (s : Scanner) (t : Token) : Except TreeError Scanner :=
  if s.flow = 0 then .error .malformed
  else do
    let s ← s.dropKey
    return { s.take 1 t with flow := s.flow - 1, keyAllowed := false }

/-- A token that may begin a key, after which none may begin. -/
def node (s : Scanner) (read : Cursor → Except TreeError (Token × Cursor)) : Except TreeError Scanner := do
  let s ← s.saveKey
  let (t, c) ← read s.cursor
  return { s.emit t with cursor := c, keyAllowed := false }

/-- A block scalar. A key may begin after it. -/
def block (s : Scanner) (folded : Bool) : Except TreeError Scanner := do
  let s ← { s with keyAllowed := true }.dropKey
  let (text, c) ← blockScalar folded s.indent s.cursor
  return { s.emit (.scalar text false) with cursor := c }

/-- A plain scalar. A key may begin after it if its last line has ended. -/
def plain (s : Scanner) : Except TreeError Scanner := do
  let s ← s.saveKey
  let (text, ended, c) := plainParts (s.flow != 0) s.indent (s.cursor.rest.length + 1) [] false s.cursor
  return { s.emit (.scalar (String.ofList text) true) with cursor := c, keyAllowed := ended }

def plainBegins (s : Scanner) : Bool :=
  match s.cursor.peek with
  | none => false
  | some x =>
    let indicator := "-?:,[]\x7b\x7d#&*!|>'\"%@".toList.contains x || x == '\x60'
    (!atSpaceOrEnd (some x) && !indicator) ||
      (!atSpaceOrEnd (s.cursor.peek 1) && (x == '-' || (s.flow == 0 && (x == '?' || x == ':'))))

/-- The next token, at a place where one begins. -/
def fetch (s : Scanner) (x : Char) : Except TreeError Scanner :=
  let c := s.cursor
  let separator := c.column == 0 && c.atSeparator
  let alone := atSpaceOrEnd (c.peek 1)
  if x = '%' ∧ c.column = 0 then do
    let s ← s.topLevel
    let (t, c) ← directive s.cursor
    return { s.emit t with cursor := c }
  else if x = '-' ∧ separator then do return (← s.topLevel).take 3 .documentStart
  else if x = '.' ∧ separator then do return (← s.topLevel).take 3 .documentEnd
  else if x = '[' then s.flowStart .flowSequenceStart
  else if x = '\x7b' then s.flowStart .flowMappingStart
  else if x = ']' then s.flowEnd .flowSequenceEnd
  else if x = '\x7d' then s.flowEnd .flowMappingEnd
  else if x = ',' then do
    let s ← { s with keyAllowed := true }.dropKey
    return s.take 1 .flowEntry
  else if x = '-' ∧ alone then s.blockEntry
  else if x = '?' ∧ (s.flow ≠ 0 ∨ alone) then s.explicitKey
  else if x = ':' ∧ (s.flow ≠ 0 ∨ alone) then s.value
  else if x = '*' then s.node fun c => (anchorName c).map fun r => (.alias r.1, r.2)
  else if x = '&' then s.node fun c => (anchorName c).map fun r => (.anchor r.1, r.2)
  else if x = '!' then s.node tag
  else if x = '|' ∧ s.flow = 0 then s.block false
  else if x = '>' ∧ s.flow = 0 then s.block true
  else if x = '\'' then s.node fun c => (quotedScalar false c).map fun r => (.scalar r.1 false, r.2)
  else if x = '"' then s.node fun c => (quotedScalar true c).map fun r => (.scalar r.1 false, r.2)
  else if s.plainBegins then s.plain
  else .error .malformed

/-- All tokens from a place on. The number bounds the tokens. -/
def scan : Nat → Scanner → Except TreeError (List Token)
  | 0, _ => .error .malformed
  | n + 1, s => do
    let s := s.skipFiller (s.cursor.rest.length + 1)
    let s ← s.dropStaleKeys
    let s := s.unwindTo s.cursor.column
    match s.cursor.peek with
    | none =>
      let s ← (s.unwindTo (-1)).dropKey
      return s.tokens.toList
    | some x => do scan n (← s.fetch x)

end Scanner

/-- Whether a character may stand in a YAML text. -/
def isAllowed (c : Char) : Bool :=
  c == '\t' || c == '\n' || c == '\r' || (0x20 ≤ c.toNat && c.toNat ≤ 0x7e) || c.toNat == 0x85 ||
    (0xa0 ≤ c.toNat && c.toNat ≤ 0xd7ff) || (0xe000 ≤ c.toNat && c.toNat ≤ 0xfffd) || 0x10000 ≤ c.toNat

def tokens (cs : List Char) : Except TreeError (List Token) :=
  if cs.all isAllowed then
    let c : Cursor := { rest := cs }
    let c := if cs.head? == some '\ufeff' then c.next else c
    Scanner.scan (cs.length + 2) { cursor := c }
  else .error .malformed

end CommentGrade.Yaml
