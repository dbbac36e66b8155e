import Blueprint.Toml.Decimal
import Blueprint.Toml.Reader

/-!
# Strings and plain values of TOML

A string stands between quotes: with double ones a backslash escapes, with single ones nothing does.
Tripled quotes let a string run over several lines. Numbers and moments in time are recognized and
kept as they are written.
-/

namespace Blueprint.Toml

open Reader

/-! ## Characters -/

def isBlank (c : Char) : Bool := c == ' ' || c == '\t'

/-- Whether the character may stand in a comment or a string. -/
def isPrintable (c : Char) : Bool := c == '\t' || (' ' ≤ c && c != '\x7f')

def isHexDigit (c : Char) : Bool := c.isDigit || ('a' ≤ c && c ≤ 'f') || ('A' ≤ c && c ≤ 'F')

def isOctalDigit (c : Char) : Bool := '0' ≤ c && c ≤ '7'

def isBinaryDigit (c : Char) : Bool := c == '0' || c == '1'

/-- The value of a digit in a base of at most sixteen. -/
def digitValue (c : Char) : Nat :=
  if c.isDigit then c.toNat - '0'.toNat else c.toLower.toNat - 'a'.toNat + 10

/-- The value of a list of digits, most significant first. -/
def digitsValue (base : Nat) (digits : List Char) : Nat :=
  digits.foldl (fun n c => base * n + digitValue c) 0

/-- Takes a line break, and says whether there was one. -/
def acceptNewline : Reader Bool := do
  if ← accept ['\r', '\n'] then return true else acceptChar '\n'

/-! ## Strings -/

/-- The character with the number that so many hexadecimal digits denote. -/
def codePoint (digits : Nat) : Reader Char := do
  let n := digitsValue 16 (← exactly digits isHexDigit)
  if h : n.isValidChar then return Char.ofNatAux n h else reject

/-- The character that an escape stands for, after the backslash. -/
def escaped : Reader Char := do
  match ← one fun _ => true with
  | 'b' => return '\x08'
  | 't' => return '\t'
  | 'n' => return '\n'
  | 'f' => return '\x0c'
  | 'r' => return '\r'
  | '"' => return '"'
  | '\\' => return '\\'
  | 'u' => codePoint 4
  | 'U' => codePoint 8
  | _ => reject

/-- A character of a string, which may be escaped between double quotes. -/
def stringChar (quote : Char) : Reader Char := do
  if quote == '"' then
    if ← acceptChar '\\' then escaped else one isPrintable
  else one isPrintable

/-- The rest of a string on one line, without its opening quote. -/
def shortString (quote : Char) : Reader String := do
  let chars ← repeated do
    if ← acceptChar quote then return none else return some (← stringChar quote)
  return String.ofList chars

/-- Takes blanks and line breaks. -/
def skipSpace : Reader Unit := do
  let _ ← repeated do
    let blanks ← takeWhile isBlank
    if ← acceptNewline then return some ()
    else if blanks.isEmpty then return none
    else return some ()

/-- Takes a backslash at the end of a line with all blanks and line breaks behind it. -/
def continuation : Reader Unit := do
  expect '\\'
  skipWhile isBlank
  if ← acceptNewline then skipSpace else reject

/-- A piece of a string over several lines. There is none at its closing quotes. -/
def longPiece? (quote : Char) : Reader (Option (List Char)) := do
  if ← accept [quote, quote, quote] then return none
  else if ← acceptNewline then return some ['\n']
  else if quote == '"' then
    (do continuation; return some []) <|> return some [← stringChar quote]
  else return some [← stringChar quote]

/-- The rest of a string over several lines, without its opening quotes. A line break behind those
is dropped. Of the quotes that stand together at its end, the last three close it. -/
def longString (quote : Char) : Reader String := do
  let _ ← acceptNewline
  let pieces ← repeated (longPiece? quote)
  let trailing ← takeWhile (· == quote)
  if trailing.length ≤ 2 then return String.ofList (pieces.flatten ++ trailing) else reject

/-- The rest of a string, without its opening quote. -/
def stringAfter (quote : Char) : Reader String := do
  if ← accept [quote, quote] then longString quote else shortString quote

/-! ## Numbers -/

/-- Digits, which underscores may separate. -/
def digits (isIn : Char → Bool) : Reader (List Char) := do
  let first ← one isIn
  let others ← repeated do
    if ← acceptChar '_' then return some (← one isIn)
    else match ← peek with
      | some c => if isIn c then return some (← one isIn) else return none
      | none => return none
  return first :: others

/-- Digits in decimal, without a zero in front of others. -/
def decimal : Reader (List Char) := do
  if ← acceptChar '0' then return ['0'] else digits Char.isDigit

/-- Takes a sign, if there is one, and says whether it was a minus. -/
def sign : Reader Bool := do
  if ← acceptChar '-' then return true
  else
    let _ ← acceptChar '+'
    return false

def exponent : Reader Int := do
  let _ ← one fun c => c == 'e' || c == 'E'
  let negative ← sign
  let n : Int := digitsValue 10 (← digits Char.isDigit)
  return if negative then -n else n

def fraction : Reader (List Char) := do
  expect '.'
  digits Char.isDigit

/-- What follows the digits before the point: more digits, an exponent or both. -/
def decimalAfter (whole : List Char) : Reader Decimal :=
  (do
    let part ← fraction
    let shift ← exponent <|> return 0
    return ⟨whole ++ part, shift - part.length⟩) <|>
  (do return ⟨whole, ← exponent⟩)

/-- A number that need not be whole. A negative one may be too large for double precision, a
positive one may not. -/
def float : Reader Unit := do
  let negative ← sign
  if ← accept "inf".toList then return ()
  else if ← accept "nan".toList then return ()
  else
    let d ← decimalAfter (← decimal)
    if d.overflows && !negative then reject

/-- A whole number that fits 64 bits. -/
def integer : Reader Unit := do
  let bounded (base bound : Nat) (digits : List Char) : Reader Unit :=
    if digitsValue base digits < bound then return () else reject
  if ← accept "0x".toList then bounded 16 Text.integerBound (← digits isHexDigit)
  else if ← accept "0o".toList then bounded 8 Text.integerBound (← digits isOctalDigit)
  else if ← accept "0b".toList then bounded 2 Text.integerBound (← digits isBinaryDigit)
  else
    let negative ← sign
    bounded 10 (if negative then Text.integerBound + 1 else Text.integerBound) (← decimal)

/-! ## Moments in time -/

/-- Two digits that denote a number in a range. -/
def twoDigits (low high : Nat) : Reader Unit := do
  let n := digitsValue 10 (← exactly 2 Char.isDigit)
  if low ≤ n && n ≤ high then return () else reject

/-- The number of days in a month of a year. -/
def daysIn (year month : Nat) : Nat :=
  if month == 2 then
    if year % 4 == 0 && (year % 100 != 0 || year % 400 == 0) then 29 else 28
  else if [4, 6, 9, 11].contains month then 30 else 31

def date : Reader Unit := do
  let year := digitsValue 10 (← exactly 4 Char.isDigit)
  expect '-'
  let month := digitsValue 10 (← exactly 2 Char.isDigit)
  expect '-'
  if 1 ≤ month && month ≤ 12 then twoDigits 1 (daysIn year month) else reject

def time : Reader Unit := do
  twoDigits 0 23
  expect ':'
  twoDigits 0 59
  expect ':'
  twoDigits 0 60
  attempt do
    expect '.'
    let _ ← one Char.isDigit
    skipWhile Char.isDigit

/-- The distance of a time from universal time. -/
def timeOffset : Reader Unit := do
  match ← one fun _ => true with
  | 'Z' | 'z' => return ()
  | '+' | '-' => do
    twoDigits 0 23
    expect ':'
    twoDigits 0 59
  | _ => reject

def moment : Reader Unit :=
  (do
    date
    attempt do
      let _ ← one fun c => c == 'T' || c == 't' || c == ' '
      time
      attempt timeOffset) <|> time

/-- A number or a moment in time. -/
def plainValue : Reader String := spelled (moment <|> float <|> integer)

end Blueprint.Toml
