import CommentGrade.Number.Shortest

/-!
# Dates and times

The moments a settings document may hold, with their two texts: the ISO text, and the constructor text that an
error message shows.
-/
namespace CommentGrade

open Number

structure Date where
  year : Nat
  month : Nat
  day : Nat
  deriving DecidableEq, Repr

/-- A time of the day, to the microsecond. -/
structure ClockTime where
  hour : Nat
  minute : Nat
  second : Nat
  micro : Nat
  deriving DecidableEq, Repr

/-- A date, a time, or both; with both there may be an offset from universal time, in seconds. -/
inductive Moment where
  | day (date : Date)
  | clock (time : ClockTime)
  | instant (date : Date) (time : ClockTime) (offset : Option Int)
  deriving DecidableEq, Repr

def isLeapYear (year : Nat) : Bool := year % 4 == 0 && (year % 100 != 0 || year % 400 == 0)

def daysInMonth (year month : Nat) : Nat :=
  if month == 2 then (if isLeapYear year then 29 else 28)
  else if month == 4 || month == 6 || month == 9 || month == 11 then 30 else 31

/-- Why a date or a time does not exist. -/
inductive CalendarError where
  | year (year : Nat)
  | month
  | day
  | hour
  | minute
  | second
  /-- An offset from universal time of a day or more. -/
  | offset (seconds : Int)
  deriving DecidableEq, Repr

/-- A stretch of time as a constructor text: whole days, downwards, and the seconds left over. -/
def durationConstructor (seconds : Int) : String :=
  let days := seconds.fdiv 86400
  let rest := seconds.fmod 86400
  let arguments := (if days = 0 then [] else ["days=" ++ toString days]) ++
    (if rest = 0 then [] else ["seconds=" ++ toString rest])
  "datetime.timedelta(" ++ (if arguments.isEmpty then "0" else ", ".intercalate arguments) ++ ")"

def CalendarError.message : CalendarError → String
  | .year y => "year " ++ toString y ++ " is out of range"
  | .month => "month must be in 1..12"
  | .day => "day is out of range for month"
  | .hour => "hour must be in 0..23"
  | .minute => "minute must be in 0..59"
  | .second => "second must be in 0..59"
  | .offset s =>
    "offset must be a timedelta strictly between -timedelta(hours=24) and timedelta(hours=24), not " ++
      durationConstructor s

/-- The date with this year, month and day, if it exists. -/
def Date.make (year month day : Nat) : Except CalendarError Date :=
  if year < 1 ∨ 9999 < year then .error (.year year)
  else if month < 1 ∨ 12 < month then .error .month
  else if day < 1 ∨ daysInMonth year month < day then .error .day
  else .ok ⟨year, month, day⟩

/-- The time with these parts, if it exists. -/
def ClockTime.make (hour minute second micro : Nat) : Except CalendarError ClockTime :=
  if 23 < hour then .error .hour
  else if 59 < minute then .error .minute
  else if 59 < second then .error .second
  else .ok ⟨hour, minute, second, micro⟩

def Date.text (d : Date) : String :=
  zeroPad 4 (toString d.year) ++ "-" ++ zeroPad 2 (toString d.month) ++ "-" ++ zeroPad 2 (toString d.day)

def ClockTime.text (t : ClockTime) : String :=
  zeroPad 2 (toString t.hour) ++ ":" ++ zeroPad 2 (toString t.minute) ++ ":" ++ zeroPad 2 (toString t.second) ++
    (if t.micro == 0 then "" else "." ++ zeroPad 6 (toString t.micro))

/-- An offset in hours and minutes, and in seconds where these are not zero. -/
def offsetText (seconds : Int) : String :=
  let n := seconds.natAbs
  (if seconds < 0 then "-" else "+") ++ zeroPad 2 (toString (n / 3600)) ++ ":" ++
    zeroPad 2 (toString (n / 60 % 60)) ++ (if n % 60 == 0 then "" else ":" ++ zeroPad 2 (toString (n % 60)))

/-- The ISO text of a moment, with a blank between date and time. -/
def Moment.text : Moment → String
  | .day d => d.text
  | .clock t => t.text
  | .instant d t offset => d.text ++ " " ++ t.text ++ (offset.map offsetText).getD ""

/-- The parts of a time that its constructor text lists: seconds and microseconds only where needed. -/
def ClockTime.parts (t : ClockTime) : List Nat :=
  if t.micro != 0 then [t.hour, t.minute, t.second, t.micro]
  else if t.second != 0 then [t.hour, t.minute, t.second]
  else [t.hour, t.minute]

def argumentList (ns : List Nat) : String := ", ".intercalate (ns.map toString)

/-- An offset from universal time as a constructor text. -/
def offsetConstructor (seconds : Int) : String :=
  if seconds = 0 then "datetime.timezone.utc"
  else "datetime.timezone(" ++ durationConstructor seconds ++ ")"

def Moment.constructorText : Moment → String
  | .day d => "datetime.date(" ++ argumentList [d.year, d.month, d.day] ++ ")"
  | .clock t => "datetime.time(" ++ argumentList t.parts ++ ")"
  | .instant d t offset =>
    "datetime.datetime(" ++ argumentList (d.year :: d.month :: d.day :: t.parts) ++
      (match offset with
        | none => ""
        | some s => ", tzinfo=" ++ offsetConstructor s) ++ ")"

end CommentGrade
