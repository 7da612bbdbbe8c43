import CommentGrade.Value.Basic

/-!
# Settings

Five flags and a list of tags, with defaults. A layer is a mapping that sets some of them; overrides set
some of them too and come last. The flags of a layer must be truth values; overrides are taken as they are, so the
type of the flags is a parameter.
-/
namespace CommentGrade

structure Settings (F : Type) where
  multilineComments : F
  highlightPlainText : F
  useDocStyle : F
  tags : List String
  showNotes : F
  estimatedReadingTime : F
  deriving DecidableEq, Repr

inductive SettingsError where
  | notMapping
  | notBoolean (key quoted : String)
  | notIterable (type : String)
  /-- An integer with too many digits to be written. -/
  | tooLong
  | unknownOption (name : String)
  deriving DecidableEq, Repr

def SettingsError.message : SettingsError → String
  | .notMapping => "設定はキー/値のマッピングである必要があります"
  | .notBoolean key quoted => key ++ " は true/false で指定してください: " ++ quoted
  | .notIterable type => "'" ++ type ++ "' object is not iterable"
  | .tooLong =>
    "Exceeds the limit (4300 digits) for integer string conversion; use sys.set_int_max_str_digits() to increase the limit"
  | .unknownOption name => "Config.__init__() got an unexpected keyword argument '" ++ name ++ "'"

namespace Settings

/-- The tags of comments that are reminders, or marked. -/
def defaultTags : List String := ["TODO", "FIXME", "NOTE", "XXX", "!", "?", "*"]

/-- The settings that hold unless others are made, with truth values as flags of the type `F`. -/
def defaults {F : Type} (flag : Bool → F) : Settings F where
  multilineComments := flag true
  highlightPlainText := flag false
  useDocStyle := flag true
  tags := defaultTags
  showNotes := flag true
  estimatedReadingTime := flag true

/-- The type of a moment, as an error names it. -/
def momentType : Moment → String
  | .day _ => "datetime.date"
  | .clock _ => "datetime.time"
  | .instant .. => "datetime.datetime"

/-- The tags among the items of a list: all but null and the empty text. -/
def tagItems (vs : List Value) : List String :=
  (vs.filter fun v => match v with
    | .null => false
    | _ => true).map Value.text |>.filter (· != "")

/-- Texts of values, if the values can be written. -/
def ifWritable (vs : List Value) (texts : List String) : Except SettingsError (List String) :=
  if vs.any Value.isTooLong then .error .tooLong else .ok texts

/-- The tags that a value stands for: one for a text, a number or a truth value, several for a list. A moment
stands for none. -/
def tagsOf : Value → Except SettingsError (List String)
  | .null => .ok []
  | .list vs | .tuple vs | .set vs => ifWritable vs (tagItems vs)
  | .map es => ifWritable (es.map (·.1)) (tagItems (es.map (·.1)))
  | .bytes bs => .ok (bs.map fun b => toString b.toNat)
  | .moment m => .error (.notIterable (momentType m))
  | .bool b => .ok [Value.boolText b]
  | .int n => ifWritable [.int n] [(Value.int n).text]
  | .float x => .ok [(Value.float x).text]
  | .str s => .ok [s]

/-- The truth value under a key of a layer, if the key is there. -/
def flagOf (data : Value) (key : String) : Except SettingsError (Option Bool) :=
  match data.get? key with
  | none => .ok none
  | some (.bool b) => .ok (some b)
  | some v => .error (if v.isTooLong then .tooLong else .notBoolean key v.quoted)

/-- The tags of a layer, if it sets them. -/
def tagsIn (data : Value) : Except SettingsError (Option (List String)) :=
  match data.get? "tags" with
  | none => .ok none
  | some v => (tagsOf v).map some

/-- Settings with a layer put over them. Keys without a meaning are ignored. -/
def withLayer {F : Type} (flag : Bool → F) (s : Settings F) (data : Value) : Except SettingsError (Settings F) :=
  match data with
  | .map _ => do
    let multiline ← flagOf data "multilineComments"
    let plainText ← flagOf data "highlightPlainText"
    let docStyle ← flagOf data "useJSDocStyle"
    let notes ← flagOf data "showAnnotations"
    let readingTime ← flagOf data "estimatedReadingTime"
    let tags ← tagsIn data
    return {
      multilineComments := (multiline.map flag).getD s.multilineComments
      highlightPlainText := (plainText.map flag).getD s.highlightPlainText
      useDocStyle := (docStyle.map flag).getD s.useDocStyle
      tags := tags.getD s.tags
      showNotes := (notes.map flag).getD s.showNotes
      estimatedReadingTime := (readingTime.map flag).getD s.estimatedReadingTime }
  | _ => .error .notMapping

/-- The layer that says all there is to say about settings. -/
def toLayer {F : Type} (flag : F → Value) (s : Settings F) : Value :=
  .object [("multilineComments", flag s.multilineComments), ("highlightPlainText", flag s.highlightPlainText),
    ("useJSDocStyle", flag s.useDocStyle), ("showAnnotations", flag s.showNotes),
    ("estimatedReadingTime", flag s.estimatedReadingTime), ("tags", .list (s.tags.map .str))]

end Settings

/-- Settings made by a caller: what is missing is left as it is. -/
structure Overrides (F : Type) where
  multilineComments : Option F := none
  highlightPlainText : Option F := none
  useDocStyle : Option F := none
  tags : Option Value := none
  showNotes : Option F := none
  estimatedReadingTime : Option F := none

namespace Overrides

/-- One override among others, by the name of its option. -/
def put (o : Overrides Value) (name : String) (v : Value) : Except SettingsError (Overrides Value) :=
  match name with
  | "multiline_comments" => .ok { o with multilineComments := some v }
  | "highlight_plain_text" => .ok { o with highlightPlainText := some v }
  | "use_jsdoc_style" => .ok { o with useDocStyle := some v }
  | "tags" => .ok { o with tags := some v }
  | "show_annotations" => .ok { o with showNotes := some v }
  | "estimated_reading_time" => .ok { o with estimatedReadingTime := some v }
  | _ => .error (.unknownOption name)

/-- Overrides by the names of the options; those that are null are no overrides. -/
def ofEntries (entries : List (String × Value)) : Except SettingsError (Overrides Value) :=
  (entries.filter fun e => match e.2 with
    | .null => false
    | _ => true).foldlM (fun o e => o.put e.1 e.2) {}

end Overrides

def Settings.merged {F : Type} (s : Settings F) (o : Overrides F) : Except SettingsError (Settings F) := do
  let tags ← match o.tags with
    | none => pure s.tags
    | some v => Settings.tagsOf v
  return {
    multilineComments := o.multilineComments.getD s.multilineComments
    highlightPlainText := o.highlightPlainText.getD s.highlightPlainText
    useDocStyle := o.useDocStyle.getD s.useDocStyle
    tags := tags
    showNotes := o.showNotes.getD s.showNotes
    estimatedReadingTime := o.estimatedReadingTime.getD s.estimatedReadingTime }

end CommentGrade
