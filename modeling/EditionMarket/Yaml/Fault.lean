import EditionMarket.Text.Digits

/-!
# Why documents cannot be read

A document that breaks the rules of the language is malformed, and nothing more is said about it. A
scalar that is spelled like a number, a date or a character and yet stands for none has a message.
-/

namespace EditionMarket.Yaml

/-- Why a document cannot be read. -/
inductive Fault
  | malformed
  /-- A number to some base has no digits. -/
  | noDigits (base : Nat)
  /-- An integer has more digits than are read. -/
  | overlong (digits : Nat)
  /-- An escape stands for no character. -/
  | noCharacter
  | noYear (year : Nat)
  | noMonth
  | noDay
  | noHour
  | noMinute
  | noSecond
  /-- A time differs from the one of Greenwich by a day or more. -/
  | farOffset (seconds : Int)
deriving DecidableEq, Inhabited

/-- The seconds of a day. -/
def secondsOfDay : Nat := 86400

/-- A span of time as its days and the seconds of one more day. -/
def spanText (seconds : Int) : String :=
  let days := seconds / secondsOfDay
  let rest := seconds % secondsOfDay
  let parts := (if days = 0 then [] else [s!"days={days}"])
    ++ if rest = 0 then [] else [s!"seconds={rest}"]
  "datetime.timedelta(" ++ ", ".intercalate parts ++ ")"

/-- The message of a fault that has one. -/
def Fault.message? : Fault → Option String
  | malformed => none
  | noDigits base => some s!"invalid literal for int() with base {base}: ''"
  | overlong digits => some (Text.tooManyDigits digits)
  | noCharacter => some "chr() arg not in range(0x110000)"
  | noYear year => some s!"year {year} is out of range"
  | noMonth => some "month must be in 1..12"
  | noDay => some "day is out of range for month"
  | noHour => some "hour must be in 0..23"
  | noMinute => some "minute must be in 0..59"
  | noSecond => some "second must be in 0..59"
  | farOffset seconds =>
    some ("offset must be a timedelta strictly between -timedelta(hours=24) and timedelta(hours=24), "
      ++ s!"not {spanText seconds}.")

end EditionMarket.Yaml
