import BoundedStore.Toml.Text

/-!
# Numbers

* `integer` : decimal with an optional sign, or hexadecimal, octal, binary without one; 64 bits with a sign;
* `float` : decimal with a fraction, an exponent or both, or `inf`, `nan`. A positive number that rounds to infinity in
  double precision is refused;
* `moment` : a date, a time, or both with an optional offset.

Underscores may stand between two digits.
-/

namespace BoundedStore.Toml
open Scan

/-! ## Digits -/

def isDigit (c : Char) : Bool := '0' ≤ c && c ≤ '9'

/-- Whether every underscore in a run of digits stands between two digits. -/
def wellSeparated : List Char → Bool
  | [] => false
  | [c] => c != '_'
  | c :: d :: rest => c != '_' && (if d == '_' then wellSeparated rest else wellSeparated (d :: rest))

/-- A run of digits, without its underscores. -/
def digitRun (accepts : Char → Bool) : Scan (List Char) := do
  let run ← span fun c => accepts c || c == '_'
  require (wellSeparated run)
  return run.filter (· != '_')

/-- A run of decimal digits with no needless zero in front. -/
def wholePart : Scan (List Char) := do
  let run ← digitRun isDigit
  require (run == ['0'] || run.head? != some '0')
  return run

/-- An optional sign; the answer tells whether it is a minus. -/
def sign : Scan Bool := do
  match ← peek with
  | some '-' =>
    exactly ['-']
    return true
  | some '+' =>
    exactly ['+']
    return false
  | _ => return false

/-! ## Integers -/

/-- The integer, if it fits into 64 bits with a sign. -/
def fitting (n : Int) : Scan Int := do
  require (-0x8000_0000_0000_0000 ≤ n && n < 0x8000_0000_0000_0000)
  return n

def integer : Scan Int := do
  if ← sees ['0', 'x'] then
    exactly ['0', 'x']
    fitting (digitsValue 16 (← digitRun isHexDigit))
  else if ← sees ['0', 'o'] then
    exactly ['0', 'o']
    fitting (digitsValue 8 (← digitRun fun c => '0' ≤ c && c ≤ '7'))
  else if ← sees ['0', 'b'] then
    exactly ['0', 'b']
    fitting (digitsValue 2 (← digitRun fun c => c == '0' || c == '1'))
  else
    let negative ← sign
    let n : Int := digitsValue 10 (← wholePart)
    fitting (if negative then -n else n)

/-! ## Floating-point numbers -/

/-- Half a unit above the largest double: from here on numbers round to infinity. -/
def infinityThreshold : Nat := 1 <<< 1024 - 1 <<< 970

/-- Whether the digits times ten to the power `exponent` round to infinity in double precision. -/
def roundsToInfinity (digits : List Char) (exponent : Int) : Bool :=
  let digits := digits.dropWhile (· == '0')
  let magnitude : Int := digits.length + exponent
  if digits.isEmpty || magnitude < 309 then false
  else if 310 < magnitude then true
  else
    let n := digitsValue 10 digits
    if 0 ≤ exponent then infinityThreshold ≤ n * Nat.pow 10 exponent.toNat
    else infinityThreshold * Nat.pow 10 (-exponent).toNat ≤ n

/-- The exponent of a number, with its mark. -/
def exponentPart : Scan Int := do
  let mark ← next
  require (mark == 'e' || mark == 'E')
  let negative ← sign
  let n : Int := digitsValue 10 (← digitRun isDigit)
  return if negative then -n else n

/-- The digits behind the point, with the point. -/
def fractionPart : Scan (List Char) := do
  exactly ['.']
  digitRun isDigit

def decimalFloat : Scan Unit := do
  let negative ← sign
  let whole ← wholePart
  let (fraction, exponent) ← (do
    if ← sees ['.'] then
      let fraction ← fractionPart
      match ← peek with
      | some 'e' | some 'E' => return (fraction, ← exponentPart)
      | _ => return (fraction, 0)
    else return (([] : List Char), ← exponentPart))
  require (negative || !roundsToInfinity (whole ++ fraction) (exponent - fraction.length))

def specialFloat : Scan Unit := do
  let _ ← sign
  exactly ['i', 'n', 'f'] <|> exactly ['n', 'a', 'n']

def float : Scan Unit := decimalFloat <|> specialFloat

/-! ## Dates and times -/

/-- A number of exactly `count` digits between two bounds. -/
def fixedDigits (count low high : Nat) : Scan Nat := do
  let digits := (← get).take count
  require (digits.length == count && digits.all isDigit)
  set ((← get).drop count)
  let n := digitsValue 10 digits
  require (low ≤ n && n ≤ high)
  return n

def isLeapYear (year : Nat) : Bool := year % 4 == 0 && (year % 100 != 0 || year % 400 == 0)

def daysInMonth (year month : Nat) : Nat :=
  if month == 2 then (if isLeapYear year then 29 else 28)
  else if month == 4 || month == 6 || month == 9 || month == 11 then 30
  else 31

def date : Scan Unit := do
  let year ← fixedDigits 4 0 9999
  exactly ['-']
  let month ← fixedDigits 2 1 12
  exactly ['-']
  let _ ← fixedDigits 2 1 (daysInMonth year month)

/-- A time of day; the second 60 is a leap second. -/
def time : Scan Unit := do
  let _ ← fixedDigits 2 0 23
  exactly [':']
  let _ ← fixedDigits 2 0 59
  exactly [':']
  let _ ← fixedDigits 2 0 60
  let _ ← attempt (do
    exactly ['.']
    let digits ← span isDigit
    require (digits != []))

def offset : Scan Unit := do
  match ← next with
  | 'Z' | 'z' => pure ()
  | '+' | '-' =>
    let _ ← fixedDigits 2 0 23
    exactly [':']
    let _ ← fixedDigits 2 0 59
  | _ => failure

/-- A date, a time, or a date with a time and perhaps an offset. -/
def moment : Scan Unit :=
  (do
    date
    let _ ← attempt (do
      let mark ← next
      require (mark == 'T' || mark == 't' || mark == ' ')
      time
      attempt offset)) <|> time

end BoundedStore.Toml
