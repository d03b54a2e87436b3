/-
Dates and times of day in a structured text.

`Timestamp.read?` reads the form, which is a date of three numbers and possibly
a time behind it; `Timestamp.problem?` refuses numbers that no calendar has.  A
checked timestamp has two texts, as every value has.  Two times of day with zones
are equal if they are the same instant; all other timestamps are equal only to
those with the same text.
-/
import TreeLint.Text.Radix
import TreeLint.Value
namespace TreeLint.Yaml

/-- A time of day. -/
structure TimeOfDay where
  hour : Nat
  minute : Nat
  second : Nat
  /-- The millionths of a second. -/
  micro : Nat
  /-- The minutes by which the time is ahead of the common one, if that is told. -/
  offset : Option Int
deriving DecidableEq, Repr

/-- A date, and possibly a time of day. -/
structure Timestamp where
  year : Nat
  month : Nat
  day : Nat
  time : Option TimeOfDay
deriving DecidableEq, Repr

namespace Timestamp

/-! ### Reading -/

/-- Reads from some to some more digits. -/
def readDigits? (least most : Nat) (s : List Char) : Option (Nat × List Char) :=
  let digits := (s.take most).takeWhile Char.isDigit
  if digits.length < least then none
  else (Text.ofRadix? 10 digits).map (fun n => (n, s.drop digits.length))

/-- Reads a character. -/
def readMark? (mark : Char) : List Char → Option (List Char)
  | c :: rest => if c == mark then some rest else none
  | [] => none

/-- Whether a character is a blank or a tab. -/
def isGap (c : Char) : Bool := c == ' ' || c == '\t'

/-- Reads the zone at the end of a time: a letter for the common time, or a sign, hours and
possibly minutes. -/
def readZone? (s : List Char) : Option (Option Int) :=
  if s.isEmpty then some none
  else match s.dropWhile isGap with
    | ['Z'] => some (some 0)
    | sign :: rest =>
      if sign == '+' || sign == '-' then do
        let (hours, rest) ← readDigits? 1 2 rest
        let (minutes, rest) ←
          if rest.isEmpty then some (0, rest) else (readMark? ':' rest).bind (readDigits? 2 2)
        let size : Int := hours * 60 + minutes
        if rest.isEmpty then some (some (if sign == '-' then -size else size)) else none
      else none
    | [] => none

/-- The millionths of a second that the digits behind the point stand for; digits beyond the sixth
are dropped. -/
def millionths (digits : List Char) : Nat :=
  let kept := digits.take 6
  (Text.ofRadix? 10 kept).getD 0 * Nat.pow 10 (6 - kept.length)

/-- Reads a time of day. -/
def readTime? (s : List Char) : Option TimeOfDay := do
  let (hour, s) ← readDigits? 1 2 s
  let (minute, s) ← (readMark? ':' s).bind (readDigits? 2 2)
  let (second, s) ← (readMark? ':' s).bind (readDigits? 2 2)
  let (digits, s) := match s with
    | '.' :: rest => (rest.takeWhile Char.isDigit, rest.dropWhile Char.isDigit)
    | rest => ([], rest)
  return ⟨hour, minute, second, millionths digits, ← readZone? s⟩

/-- Reads a date and possibly a time of day. -/
def read? (s : List Char) : Option Timestamp := do
  let (year, s) ← readDigits? 4 4 s
  let (month, s) ← (readMark? '-' s).bind (readDigits? 1 2)
  let (day, s) ← (readMark? '-' s).bind (readDigits? 1 2)
  match s with
  | [] => some ⟨year, month, day, none⟩
  | c :: rest =>
    if c == 'T' || c == 't' then (readTime? rest).map (fun t => ⟨year, month, day, some t⟩)
    else if isGap c then
      (readTime? (rest.dropWhile isGap)).map (fun t => ⟨year, month, day, some t⟩)
    else none

/-- Whether a plain scalar is a timestamp: without a time its numbers have all their digits. -/
def isForm (s : List Char) : Bool :=
  match read? s with
  | some t => t.time.isSome || s.length == 10
  | none => false

/-! ### Checks -/

/-- Whether a year has a day more than others. -/
def isLeap (year : Nat) : Bool := year % 4 == 0 && (year % 100 != 0 || year % 400 == 0)

/-- The number of days of a month. -/
def daysOf (year month : Nat) : Nat :=
  if month == 2 then (if isLeap year then 29 else 28)
  else if [4, 6, 9, 11].contains month then 30
  else 31

/-- The text of a stretch of minutes. -/
def stretchText (minutes : Int) : String :=
  let days := minutes.fdiv 1440
  let seconds := (minutes.fmod 1440) * 60
  let parts := (if days == 0 then [] else ["days=" ++ toString days]) ++
    (if seconds == 0 then [] else ["seconds=" ++ toString seconds])
  "datetime.timedelta(" ++
    (if parts.isEmpty then "0" else String.intercalate ", " parts) ++ ")"

/-- What is wrong with the zone of a timestamp. -/
def zoneProblem? (t : Timestamp) : Option String := do
  let offset ← (← t.time).offset
  if offset.natAbs < 1440 then none
  else some ("offset must be a timedelta strictly between -timedelta(hours=24) and " ++
    "timedelta(hours=24), not " ++ stretchText offset ++ ".")

/-- What is wrong with the numbers of a timestamp. -/
def problem? (t : Timestamp) : Option String :=
  match t.zoneProblem? with
  | some p => some p
  | none =>
    if t.year == 0 then some "year 0 is out of range"
    else if t.month < 1 || 12 < t.month then some "month must be in 1..12"
    else if t.day < 1 || daysOf t.year t.month < t.day then some "day is out of range for month"
    else match t.time with
      | none => none
      | some time =>
        if 23 < time.hour then some "hour must be in 0..23"
        else if 59 < time.minute then some "minute must be in 0..59"
        else if 59 < time.second then some "second must be in 0..59"
        else none

/-! ### Texts -/

/-- A number with zeros before it, up to a width. -/
def padded (width n : Nat) : String :=
  let digits := toString n
  "".pushn '0' (width - digits.length) ++ digits

/-- The text of a zone. -/
def zoneText (offset : Int) : String :=
  (if offset < 0 then "-" else "+") ++ padded 2 (offset.natAbs / 60) ++ ":" ++
    padded 2 (offset.natAbs % 60)

/-- The text of a time of day. -/
def timeText (t : TimeOfDay) : String :=
  padded 2 t.hour ++ ":" ++ padded 2 t.minute ++ ":" ++ padded 2 t.second ++
    (if t.micro == 0 then "" else "." ++ padded 6 t.micro) ++
    (match t.offset with
      | some offset => zoneText offset
      | none => "")

/-- The text of a timestamp by itself. -/
def text (t : Timestamp) : String :=
  padded 4 t.year ++ "-" ++ padded 2 t.month ++ "-" ++ padded 2 t.day ++
    (match t.time with
      | some time => " " ++ timeText time
      | none => "")

/-- The numbers of a time of day as they are listed: zeros at the end are left out. -/
def timeNumbers (t : TimeOfDay) : List Nat :=
  [t.hour, t.minute] ++
    (if t.micro != 0 then [t.second, t.micro]
      else if t.second != 0 then [t.second]
      else [])

/-- The text of a zone within the text of a timestamp. -/
def quotedZone (offset : Int) : String :=
  if offset == 0 then "tzinfo=datetime.timezone.utc"
  else "tzinfo=datetime.timezone(" ++ stretchText offset ++ ")"

/-- The text of a timestamp inside other values. -/
def quoted (t : Timestamp) : String :=
  let date := [t.year, t.month, t.day].map toString
  match t.time with
  | none => "datetime.date(" ++ String.intercalate ", " date ++ ")"
  | some time =>
    let zone := match time.offset with
      | some offset => [quotedZone offset]
      | none => []
    "datetime.datetime(" ++
      String.intercalate ", " (date ++ (timeNumbers time).map toString ++ zone) ++ ")"

/-! ### Instants -/

/-- The number of days before a year, from the first year on. -/
def daysBeforeYear (year : Nat) : Nat :=
  let past := year - 1
  past * 365 + past / 4 - past / 100 + past / 400

/-- The number of days of a year before a month. -/
def daysBeforeMonth (year : Nat) : Nat → Nat
  | 0 | 1 => 0
  | month + 1 => daysBeforeMonth year month + daysOf year month

/-- The millionths of a second from the first day on to a time of day in a zone. -/
def instant (t : Timestamp) (time : TimeOfDay) (offset : Int) : Int :=
  let days : Int := daysBeforeYear t.year + daysBeforeMonth t.year t.month + t.day
  let minutes : Int := days * 1440 + time.hour * 60 + time.minute - offset
  (minutes * 60 + time.second) * 1000000 + time.micro

/-- What equal timestamps have in common. -/
def key (t : Timestamp) : String :=
  match t.time with
  | some time =>
    match time.offset with
    | some offset => "instant " ++ toString (t.instant time offset)
    | none => t.quoted
  | none => t.quoted

/-- A timestamp as a value, if its numbers are right. -/
def value? (t : Timestamp) : Except String Value :=
  match t.problem? with
  | some p => .error p
  | none => .ok (.foreign ⟨.ok t.text, .ok t.quoted, t.key, true⟩)

end Timestamp

end TreeLint.Yaml
