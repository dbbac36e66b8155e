import Blueprint.Json.Basic
import Blueprint.Text.Numeral

/-!
# Durations and dates

An amount of time is a whole number of one unit, below `2 ^ 64`. Its compact form puts the suffix of
the unit behind the number. A date is `today` or `now`, shifted by a duration or not.
-/

namespace Blueprint

inductive DurationUnit where
  | milliseconds | seconds | minutes | hours | days | weeks | years
  deriving DecidableEq

namespace DurationUnit

/-- The unit with the given suffix. Minutes have two. -/
def ofSuffix? : String → Option DurationUnit
  | "ms" => some .milliseconds
  | "s" => some .seconds
  | "m" | "min" => some .minutes
  | "h" => some .hours
  | "d" => some .days
  | "w" => some .weeks
  | "y" => some .years
  | _ => none

/-- The unit with the given name, in singular or plural, or with the given suffix. -/
def ofWord? : String → Option DurationUnit
  | "millisecond" | "milliseconds" => some .milliseconds
  | "second" | "seconds" => some .seconds
  | "minute" | "minutes" => some .minutes
  | "hour" | "hours" => some .hours
  | "day" | "days" => some .days
  | "week" | "weeks" => some .weeks
  | "year" | "years" => some .years
  | w => ofSuffix? w

/-- The suffix that the unit is written with. -/
def suffix : DurationUnit → String
  | milliseconds => "ms"
  | seconds => "s"
  | minutes => "m"
  | hours => "h"
  | days => "d"
  | weeks => "w"
  | years => "y"

/-- The length of one unit in milliseconds. A year has 365 days. -/
def length : DurationUnit → Nat
  | milliseconds => 1
  | seconds => 1000
  | minutes => 60000
  | hours => 3600000
  | days => 86400000
  | weeks => 7 * 86400000
  | years => 365 * 86400000

def spelling : DurationUnit → String
  | milliseconds => "milliseconds"
  | seconds => "seconds"
  | minutes => "minutes"
  | hours => "hours"
  | days => "days"
  | weeks => "weeks"
  | years => "years"

instance : Encode DurationUnit := ⟨fun u => .str u.spelling⟩

end DurationUnit

structure Duration where
  /-- Below `2 ^ 64` in every duration that is read. -/
  amount : Nat
  unit : DurationUnit
  deriving DecidableEq

namespace Duration

/-- The duration written compactly as digits and a suffix. -/
def parse? (text : String) : Option Duration := do
  let digits := text.toList.takeWhile Char.isDigit
  let suffix := text.toList.dropWhile Char.isDigit
  if suffix.isEmpty then none
  let amount ← Text.natural? Text.amountBound digits
  let unit ← DurationUnit.ofSuffix? (String.ofList suffix)
  some { amount, unit }

/-- The compact form. -/
def render (d : Duration) : String := toString d.amount ++ d.unit.suffix

/-- The length in milliseconds, or the greatest number below `2 ^ 64` if that is less. -/
def millis (d : Duration) : Nat := min (d.amount * d.unit.length) (Text.amountBound - 1)

instance : Encode Duration where
  encode d := .obj (Json.field "amount" d.amount ++ Json.field "unit" d.unit)

end Duration

inductive DateAnchor where
  | today | now
  deriving DecidableEq

namespace DateAnchor

def spelling : DateAnchor → String
  | today => "today"
  | now => "now"

instance : Encode DateAnchor := ⟨fun a => .str a.spelling⟩

end DateAnchor

/-- The direction in which a date is shifted. -/
inductive OffsetSign where
  | plus | minus
  deriving DecidableEq

namespace OffsetSign

def spelling : OffsetSign → String
  | plus => "plus"
  | minus => "minus"

def symbol : OffsetSign → String
  | plus => "+"
  | minus => "-"

instance : Encode OffsetSign := ⟨fun s => .str s.spelling⟩

end OffsetSign

/-- An anchor, shifted by a duration or not. -/
structure DateExpr where
  anchor : DateAnchor
  offset : Option (OffsetSign × Duration) := none
  deriving DecidableEq

namespace DateExpr

def render (d : DateExpr) : String :=
  d.anchor.spelling ++
    match d.offset with
    | some (sign, duration) => s!" {sign.symbol} {duration.render}"
    | none => ""

instance : Encode DateExpr where
  encode d :=
    .obj (Json.field "anchor" d.anchor ++
      Json.optional "offset" (d.offset.map fun (s, d) => Json.arr [encode s, encode d]))

end DateExpr

end Blueprint
