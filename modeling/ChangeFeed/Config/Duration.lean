import ChangeFeed.Text.Blank
import ChangeFeed.Text.Natural

/-!
# Durations — a number with a unit

A duration is a number of seconds, or of the unit behind it: `ms`, `s` or
`m`. The number is below 2^64, and so are the seconds of a number of
minutes. White space around it does not count.
-/

namespace ChangeFeed

/-- **A length of time**, to the nanosecond. -/
structure Duration where
  seconds : Nat
  nanoseconds : Nat
deriving Repr, DecidableEq

/-- The units of a duration; seconds may be left out. -/
inductive TimeUnit where
  | milliseconds
  | minutes
  | seconds
  | none
deriving Repr, DecidableEq

/-- Why a text writes no duration. -/
inductive DurationFault where
  | empty
  | invalid (unit : TimeUnit) (number : Text) (cause : NumeralFault)
  | tooManyMinutes (number : Text)
deriving Repr, DecidableEq

/-- The message for a text that writes no duration. -/
def DurationFault.message : DurationFault → Text
  | empty => "Empty duration string".toList
  | invalid unit number cause =>
    (match unit with
      | .milliseconds => "Invalid milliseconds value: ".toList
      | .minutes => "Invalid minutes value: ".toList
      | .seconds => "Invalid seconds value: ".toList
      | .none => "Invalid duration value: ".toList) ++ number ++ ": ".toList ++ cause.message
  | tooManyMinutes number => "Minutes value too large: ".toList ++ number

namespace Duration

/-- So many seconds. -/
def ofSeconds (n : Nat) : Duration := ⟨n, 0⟩

/-- So many milliseconds. -/
def ofMilliseconds (n : Nat) : Duration := ⟨n / 1000, n % 1000 * 1000000⟩

/-- The number and the unit that a text is made of. -/
def splitUnit (t : Text) : Text × TimeUnit :=
  match Text.stripEnd? "ms".toList t with
  | some number => (number, .milliseconds)
  | none => match Text.stripEnd? ['m'] t with
    | some number => (number, .minutes)
    | none => match Text.stripEnd? ['s'] t with
      | some number => (number, .seconds)
      | none => (t, .none)

/-- **Reads a duration.** -/
def parse (raw : Text) : Except DurationFault Duration :=
  let t := raw.trim
  if t.isEmpty then .error .empty
  else
    let (number, unit) := splitUnit t
    match Text.readNatural 10 wordBound number with
    | .error cause => .error (.invalid unit number cause)
    | .ok n =>
      match unit with
      | .milliseconds => .ok (ofMilliseconds n)
      | .minutes =>
        if n * 60 < wordBound then .ok (ofSeconds (n * 60)) else .error (.tooManyMinutes number)
      | .seconds | .none => .ok (ofSeconds n)

end Duration

end ChangeFeed
