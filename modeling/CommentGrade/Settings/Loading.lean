import CommentGrade.Decoding.Encoding
import CommentGrade.Files.Tree
import CommentGrade.Json.Reader
import CommentGrade.Language.Detection
import CommentGrade.Settings.Basic
import CommentGrade.Toml.Reader

/-!
# Loading settings

A settings file is TOML, YAML or JSON, by the ending of its name. In a TOML file the table of this program counts
if there is one, else the whole document. A document without content is an empty layer. How YAML is read is a parameter.
-/
namespace CommentGrade

inductive SettingsFormat where
  | toml
  | yaml
  | json
  deriving DecidableEq, Repr

/-- A reader of documents in some format. -/
abbrev DocumentReader := List Char → Except DocumentError Value

inductive LoadError where
  | missing (path : String)
  | undecodable
  | malformed (format : SettingsFormat)
  | tooLong (numeral : Number.TooLong)
  /-- An error that the reader of YAML has raised. -/
  | raised (family : ErrorFamily) (name message : String)
  | settings (e : SettingsError)
  deriving DecidableEq, Repr

def LoadError.ofFormat (format : SettingsFormat) : FormatError → LoadError
  | .malformed => .malformed format
  | .tooLong numeral => .tooLong numeral

def LoadError.ofDocument : DocumentError → LoadError
  | .malformed => .malformed .yaml
  | .raised family name message => .raised family name message

/-- What is said about a settings file that is not loaded. Of a document that breaks the rules of its format at most
the format is named. -/
def LoadError.message : LoadError → String
  | .missing path => path
  | .malformed .yaml => "Invalid YAML"
  | .undecodable | .malformed .json | .malformed .toml => ""
  | .tooLong numeral => numeral.message
  | .raised _ _ message => message
  | .settings e => e.message

/-- Whether a failure is one that the user is told about. Errors of a family of their own and a moment in the place of
tags are not foreseen. -/
def LoadError.isForeseen : LoadError → Bool
  | .raised .other _ _ => false
  | .settings (.notIterable _) => false
  | _ => true

namespace Settings

/-- The format of a file, by its name. -/
def formatOf (p : Path) : SettingsFormat :=
  let ending := Language.lowerText p.suffix
  if ending = ".toml" then .toml
  else if ending = ".yaml" ∨ ending = ".yml" then .yaml
  else .json

/-- The text of a settings file: TOML is always UTF-8, the others may be in other encodings and have marks in
front. -/
def decode? (format : SettingsFormat) (bs : List UInt8) : Option (List Char) :=
  match format with
  | .toml => Encoding.decode? .utf8 bs
  | .yaml | .json => (Encoding.firstFit? Encoding.settingsCandidates bs).map (·.dropWhile (· == '\ufeff'))

/-- The table of this program in a document, or else the document. -/
def ownTable (data : Value) : Value :=
  match (data.get? "tool").bind (·.get? "textinfo") with
  | some (.map es) => .map es
  | _ => data

def parse (yaml : DocumentReader) (format : SettingsFormat) (cs : List Char) : Except LoadError Value :=
  match format with
  | .toml => ((Toml.read cs).map ownTable).mapError (LoadError.ofFormat .toml)
  | .yaml => (yaml cs).mapError LoadError.ofDocument
  | .json => (Json.read (String.ofList cs)).mapError (LoadError.ofFormat .json)

/-- A document without content, as an empty layer. -/
def layerOf : Value → Value
  | .null => .map []
  | v => v

/-- Settings with the layer of a file put over them. -/
def load {F : Type} (yaml : DocumentReader) (flag : Bool → F) (base : Settings F) (disk : Disk) (path : String) :
    Except LoadError (Settings F) :=
  let p := Path.ofString path
  match disk.content? p with
  | none => .error (.missing path)
  | some bs =>
    match decode? (formatOf p) bs with
    | none => .error .undecodable
    | some cs =>
      match parse yaml (formatOf p) cs with
      | .error e => .error e
      | .ok data => (base.withLayer flag (layerOf data)).mapError .settings

end Settings

end CommentGrade
