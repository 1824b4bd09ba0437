import EditionMarket.Yaml.Fault

/-!
# Dates and times

A date is spelled by its year, month and day. A time of that date may follow, with a fraction of the
second and the time's distance from the one of Greenwich. `Moment.ofChars?` reads the spelling,
`Moment.fault?` says whether there is such a moment.
-/

namespace EditionMarket.Yaml

/-- A time of some day. -/
structure Clock where
  hour : Nat
  minute : Nat
  second : Nat
  microsecond : Nat
  /-- How many seconds it is ahead of the time of Greenwich, if that is said. -/
  offset : Option Int

/-- A date, or a time of it. -/
structure Moment where
  year : Nat
  month : Nat
  day : Nat
  clock : Option Clock

namespace Moment

/-! ## Spelling -/

/-- Reads a number of at least `least` and at most `most` digits. -/
def count? (least most : Nat) (cs : List Char) : Option (Nat × List Char) :=
  let digits := (cs.take most).takeWhile Char.isDigit
  if digits.length < least then none else some (Text.number 10 digits, cs.drop digits.length)

/-- Reads a mark, and a number after it. -/
def countAfter? (mark : Char) (least most : Nat) : List Char → Option (Nat × List Char)
  | c :: rest => if c = mark then count? least most rest else none
  | [] => none

/-- Drops the spaces at the start. -/
def dropSpaces (cs : List Char) : List Char := cs.dropWhile fun c => c = ' ' || c = '\t'

/-- Millionths of a second from the digits after the point. More than six digits are cut off. -/
def microseconds (digits : List Char) : Nat :=
  let kept := digits.take 6
  Text.number 10 kept * Nat.pow 10 (6 - kept.length)

/-- Reads the distance from Greenwich, which ends the spelling. -/
def offset? (cs : List Char) : Option (Option Int) :=
  match cs, dropSpaces cs with
  | [], _ => some none
  | _, ['Z'] => some (some 0)
  | _, sign :: rest => do
    let direction : Int ← if sign = '+' then some 1 else if sign = '-' then some (-1) else none
    let (hours, rest) ← count? 1 2 rest
    let (minutes, rest) ← if rest = [] then some (0, []) else countAfter? ':' 2 2 rest
    if rest = [] then some (some (direction * (hours * 3600 + minutes * 60))) else none
  | _, [] => none

/-- Reads the time after the date. -/
def clock? (cs : List Char) : Option Clock := do
  let (hour, rest) ← count? 1 2 cs
  let (minute, rest) ← countAfter? ':' 2 2 rest
  let (second, rest) ← countAfter? ':' 2 2 rest
  let (fraction, rest) := match rest with
    | '.' :: rest => (rest.takeWhile Char.isDigit, rest.dropWhile Char.isDigit)
    | rest => ([], rest)
  return ⟨hour, minute, second, microseconds fraction, ← offset? rest⟩

/-- Reads a moment. A date that stands alone has two digits for the month and for the day. -/
def ofChars? (cs : List Char) : Option Moment := do
  let (year, rest) ← count? 4 4 cs
  let (month, rest) ← countAfter? '-' 1 2 rest
  let (day, rest) ← countAfter? '-' 1 2 rest
  match rest with
  | [] => if cs.length = 10 then some ⟨year, month, day, none⟩ else none
  | c :: time =>
    if c = 'T' ∨ c = 't' then return ⟨year, month, day, some (← clock? time)⟩
    else if c = ' ' ∨ c = '\t' then return ⟨year, month, day, some (← clock? (dropSpaces time))⟩
    else none

/-! ## Existence -/

/-- The number of days in a month. Years that four divides are leap years, but centuries only if four
hundred divides them. -/
def daysOf (year month : Nat) : Nat :=
  if month = 2 then
    if year % 4 = 0 ∧ (year % 100 ≠ 0 ∨ year % 400 = 0) then 29 else 28
  else if month ∈ [4, 6, 9, 11] then 30 else 31

/-- Why there is no such moment, if there is none. -/
def fault? (moment : Moment) : Option Fault :=
  let offset := (moment.clock.bind Clock.offset).getD 0
  let inClock := fun (part : Clock → Nat) (below : Nat) => moment.clock.all (part · < below)
  if secondsOfDay ≤ offset.natAbs then some (.farOffset offset)
  else if moment.year = 0 then some (.noYear moment.year)
  else if moment.month = 0 ∨ 12 < moment.month then some .noMonth
  else if moment.day = 0 ∨ daysOf moment.year moment.month < moment.day then some .noDay
  else if !inClock Clock.hour 24 then some .noHour
  else if !inClock Clock.minute 60 then some .noMinute
  else if !inClock Clock.second 60 then some .noSecond
  else none

/-! ## Text -/

/-- How a distance from Greenwich is shown. -/
def zoneText (offset : Int) : String :=
  if offset = 0 then "datetime.timezone.utc" else s!"datetime.timezone({spanText offset})"

/-- How a moment is shown. Seconds, and fractions of them, only show where there are any. -/
def text (moment : Moment) : String :=
  let date := [toString moment.year, toString moment.month, toString moment.day]
  match moment.clock with
  | none => "datetime.date(" ++ ", ".intercalate date ++ ")"
  | some clock =>
    let small := if clock.microsecond ≠ 0 then [clock.second, clock.microsecond]
      else if clock.second ≠ 0 then [clock.second] else []
    let zone := clock.offset.elim [] fun offset => [s!"tzinfo={zoneText offset}"]
    let time := [toString clock.hour, toString clock.minute] ++ small.map toString
    "datetime.datetime(" ++ ", ".intercalate (date ++ time ++ zone) ++ ")"

end Moment

end EditionMarket.Yaml
