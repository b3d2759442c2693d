/-!
Moments: calendar dates, times of day, and both together, with an offset from universal time or without.
-/

set_option autoImplicit false
set_option relaxedAutoImplicit false

namespace EditorTheme

structure Date where
  year : Nat
  month : Nat
  day : Nat
  deriving Repr, DecidableEq

structure TimeOfDay where
  hour : Nat
  minute : Nat
  second : Nat
  microsecond : Nat
  deriving Repr, DecidableEq

inductive Moment where
  | date (date : Date)
  | time (time : TimeOfDay)
  /-- The offset is in minutes east of universal time. -/
  | dateTime (date : Date) (time : TimeOfDay) (offset : Option Int)
  deriving Repr, DecidableEq

def isLeapYear (year : Nat) : Bool := year % 4 == 0 && (year % 100 != 0 || year % 400 == 0)

def daysInMonth (year month : Nat) : Nat :=
  match month with
  | 2 => if isLeapYear year then 29 else 28
  | 4 | 6 | 9 | 11 => 30
  | _ => 31

/-- Whether the date stands in the calendar, which begins with the year one. -/
def Date.isValid (d : Date) : Bool :=
  1 ≤ d.year && 1 ≤ d.month && d.month ≤ 12 && 1 ≤ d.day && d.day ≤ daysInMonth d.year d.month

def Date.numbers (d : Date) : List Nat := [d.year, d.month, d.day]

/-- The numbers of a time: the seconds and their fraction are left out where they are zero. -/
def TimeOfDay.numbers (t : TimeOfDay) : List Nat :=
  if t.microsecond ≠ 0 then [t.hour, t.minute, t.second, t.microsecond]
  else if t.second ≠ 0 then [t.hour, t.minute, t.second]
  else [t.hour, t.minute]

def callText (function : String) (arguments : List String) : String :=
  function ++ "(" ++ ", ".intercalate arguments ++ ")"

/-- An offset is written as whole days and the seconds that are left, zero parts left out. -/
def offsetText (minutes : Int) : String :=
  if minutes = 0 then "datetime.timezone.utc"
  else
    let seconds := minutes * 60
    let days := seconds.fdiv 86400
    let rest := seconds.fmod 86400
    let parts := (if days = 0 then [] else ["days=" ++ toString days]) ++
      (if rest = 0 then [] else ["seconds=" ++ toString rest])
    callText "datetime.timezone" [callText "datetime.timedelta" parts]

def Moment.text : Moment → String
  | .date d => callText "datetime.date" (d.numbers.map toString)
  | .time t => callText "datetime.time" (t.numbers.map toString)
  | .dateTime d t offset =>
    callText "datetime.datetime" ((d.numbers ++ t.numbers).map toString ++
      (offset.map fun minutes => "tzinfo=" ++ offsetText minutes).toList)

end EditorTheme
