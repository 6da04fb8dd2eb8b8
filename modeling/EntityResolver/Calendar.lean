import EntityResolver.Power
import EntityResolver.Text.Blank

/-!
Dates and local times of the proleptic Gregorian calendar: reading and printing.

Every number that is read may stand behind white space. A year has up to four digits, or any number
of them behind a sign; months, days and the parts of a time have one or two digits. Second 60 is a
leap second.
-/

set_option autoImplicit false

namespace EntityResolver.Calendar

structure Date where
  year : Int
  month : Nat
  day : Nat
  deriving DecidableEq, Repr

structure Time where
  hour : Nat
  minute : Nat
  second : Nat
  nanosecond : Nat
  deriving DecidableEq, Repr

structure DateTime where
  date : Date
  time : Time
  deriving DecidableEq, Repr

def isLeapYear (year : Int) : Bool :=
  year % 4 == 0 && (year % 100 != 0 || year % 400 == 0)

def daysInMonth (year : Int) (month : Nat) : Nat :=
  match month with
  | 2 => if isLeapYear year then 29 else 28
  | 4 | 6 | 9 | 11 => 30
  | _ => 31

def leastYear : Int := -262143

def greatestYear : Int := 262142

def Date.isValid (date : Date) : Bool :=
  decide (leastYear ≤ date.year) && decide (date.year ≤ greatestYear) &&
    decide (1 ≤ date.month) && decide (date.month ≤ 12) &&
    decide (1 ≤ date.day) && decide (date.day ≤ daysInMonth date.year date.month)

def Time.isValid (time : Time) : Bool :=
  decide (time.hour < 24) && decide (time.minute < 60) && decide (time.second ≤ 60) &&
    decide (time.nanosecond < 1000000000)

def readDigits? (width : Nat) (text : List Char) : Option (Nat × List Char) :=
  let digits := (text.take width).takeWhile Text.isAsciiDigit
  if digits.isEmpty then none else some (Text.numberOf 10 digits, text.drop digits.length)

def readNumber? (width : Nat) (text : List Char) : Option (Nat × List Char) :=
  readDigits? width (Text.trimStart text)

def readYear? (text : List Char) : Option (Int × List Char) :=
  match Text.trimStart text with
  | '-' :: rest => (readDigits? rest.length rest).map fun (year, rest) => (-(year : Int), rest)
  | '+' :: rest => (readDigits? rest.length rest).map fun (year, rest) => ((year : Int), rest)
  | rest => (readDigits? 4 rest).map fun (year, rest) => ((year : Int), rest)

def readMark? (mark : Char) : List Char → Option (List Char)
  | c :: rest => if c = mark then some rest else none
  | [] => none

def readDatePart? (text : List Char) : Option (Date × List Char) := do
  let (year, rest) ← readYear? text
  let (month, rest) ← readNumber? 2 (← readMark? '-' rest)
  let (day, rest) ← readNumber? 2 (← readMark? '-' rest)
  let date : Date := ⟨year, month, day⟩
  if date.isValid then pure (date, rest) else none

/-- The fraction of a second behind its point, in nanoseconds. From the tenth digit on digits do
not count. -/
def readFraction? (text : List Char) : Option (Nat × List Char) :=
  let digits := text.takeWhile Text.isAsciiDigit
  if digits.isEmpty then none
  else
    let counted := digits.take 9
    some (Text.numberOf 10 counted * tenTo (9 - counted.length), text.drop digits.length)

def readTimePart? (text : List Char) : Option (Time × List Char) := do
  let (hour, rest) ← readNumber? 2 text
  let (minute, rest) ← readNumber? 2 (← readMark? ':' rest)
  let (second, rest) ← readNumber? 2 (← readMark? ':' rest)
  let (nanosecond, rest) ← match rest with
    | '.' :: rest => readFraction? rest
    | rest => some (0, rest)
  let time : Time := ⟨hour, minute, second, nanosecond⟩
  if time.isValid then pure (time, rest) else none

/-- Reads a text that is a date `year-month-day`. -/
def Date.read? (text : String) : Option Date := do
  match ← readDatePart? text.toList with
  | (date, []) => pure date
  | _ => none

/-- Reads a text that is a date and a time with `separator`, if any, and white space between them.
White space around the text does not count. -/
def DateTime.readWith? (separator : Option Char) (text : String) : Option DateTime := do
  let (date, rest) ← readDatePart? (Text.trimChars text.toList)
  let rest ← match separator with
    | some mark => readMark? mark rest
    | none => some rest
  match ← readTimePart? rest with
  | (time, []) => pure ⟨date, time⟩
  | _ => none

/-- Reads a local time `year-month-day hour:minute:second`, with a fraction if there is one. -/
def DateTime.read? (text : String) : Option DateTime :=
  DateTime.readWith? none text

/-- A number with zeros in front, at least `width` digits. -/
def padded (width value : Nat) : String :=
  let digits := Nat.toDigits 10 value
  String.ofList (List.replicate (width - digits.length) '0' ++ digits)

/-- A year has four digits; outside of 0 to 9999 it has a sign and at least four digits. -/
def renderYear (year : Int) : String :=
  if year < 0 then "-" ++ padded 4 year.natAbs
  else if 9999 < year then "+" ++ padded 4 year.natAbs
  else padded 4 year.natAbs

def Date.render (date : Date) : String :=
  renderYear date.year ++ "-" ++ padded 2 date.month ++ "-" ++ padded 2 date.day

/-- A fraction has as few of 3, 6 or 9 digits as show it, and none when it is zero. -/
def renderFraction (nanosecond : Nat) : String :=
  if nanosecond = 0 then ""
  else if nanosecond % 1000000 = 0 then "." ++ padded 3 (nanosecond / 1000000)
  else if nanosecond % 1000 = 0 then "." ++ padded 6 (nanosecond / 1000)
  else "." ++ padded 9 nanosecond

def Time.render (time : Time) : String :=
  padded 2 time.hour ++ ":" ++ padded 2 time.minute ++ ":" ++ padded 2 time.second ++
    renderFraction time.nanosecond

def DateTime.renderWith (separator : String) (moment : DateTime) : String :=
  moment.date.render ++ separator ++ moment.time.render

def DateTime.render (moment : DateTime) : String :=
  moment.renderWith " "

end EntityResolver.Calendar
