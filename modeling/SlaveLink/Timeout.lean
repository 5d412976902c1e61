import SlaveLink.Bytes
import SlaveLink.Duration
import SlaveLink.Text.Blank
import SlaveLink.Text.Decimal

/-! # Timeouts as text
A timeout is a number of seconds, with the unit `s` or without one, or of milliseconds, with the
unit `ms`. It is never zero. -/

namespace SlaveLink

inductive TimeoutError where
  | empty
  | notANumber (text : String)
  | zero
deriving DecidableEq, Repr

def TimeoutError.message : TimeoutError → String
  | .empty => "timeout must not be empty"
  | .notANumber text => "invalid timeout value: " ++ text
  | .zero => "timeout must be greater than zero"

namespace Duration

/-- Takes the unit off the end. What is left is a number of spans that `ofCount` measures. -/
def splitUnit (text : List Char) : List Char × (Nat → Duration) :=
  match text.reverse with
  | 's' :: 'm' :: number => (number.reverse, ofMillis)
  | 's' :: number => (number.reverse, ofSecs)
  | _ => (text, ofSecs)

def ofTimeoutText (input : String) : Except TimeoutError Duration :=
  let text := Text.trim input.toList
  let (number, ofCount) := splitUnit text
  if text.isEmpty then .error .empty
  else match Text.natural? maxWord64 (String.ofList number) with
    | none => .error (.notANumber (String.ofList text))
    | some 0 => .error .zero
    | some n => .ok (ofCount n)

end Duration
end SlaveLink
