/-
  Numerals: reading a number that must not exceed a limit.

  A numeral is an optional plus sign and at least one digit; letters count as digits from ten on, in
  either case.  Digits are taken from the left, and the FIRST fault is reported: a character that is
  no digit of the base, or a digit that lifts the value above the limit.  Leading zeros are digits
  like any others, so they never make a numeral too large.
-/

namespace Nes.Text

/-- Why a text is not a numeral. -/
inductive NumeralError where
  /-- The text is empty. -/
  | empty
  /-- A character is no digit of the base, or no digit follows the sign. -/
  | invalidDigit
  /-- The value exceeds the limit. -/
  | tooLarge
  deriving DecidableEq

/-- The wording of each fault. -/
def NumeralError.message : NumeralError → String
  | .empty => "cannot parse integer from empty string"
  | .invalidDigit => "invalid digit found in string"
  | .tooLarge => "number too large to fit in target type"

/-- The value of a digit below `base`. -/
def digitValue? (base : Nat) (c : Char) : Option Nat :=
  let value :=
    if '0' ≤ c ∧ c ≤ '9' then c.toNat - '0'.toNat
    else if 'a' ≤ c ∧ c ≤ 'z' then c.toNat - 'a'.toNat + 10
    else if 'A' ≤ c ∧ c ≤ 'Z' then c.toNat - 'A'.toNat + 10
    else base
  if value < base then some value else none

/-- Reads digits on top of the value `acc` of those already read. -/
def readDigits (base limit acc : Nat) : List Char → Except NumeralError Nat
  | [] => .ok acc
  | c :: rest =>
    match digitValue? base c with
    | none => .error .invalidDigit
    | some d =>
      if base * acc + d ≤ limit then readDigits base limit (base * acc + d) rest
      else .error .tooLarge

/-- Reads a numeral of at most `limit`. -/
def readNumeral (base limit : Nat) : List Char → Except NumeralError Nat
  | [] => .error .empty
  | ['+'] => .error .invalidDigit
  | '+' :: digits => readDigits base limit 0 digits
  | digits => readDigits base limit 0 digits

end Nes.Text
