import GuardedHttp.Duration
import GuardedHttp.Text.Blank
import GuardedHttp.Text.Quoted

/-!
# Durations written as spans

A duration is written as one or more spans such as `1h 30min` or `1.5s`: a number, with an optional
fraction, and a unit. `Duration.ofSpans` reads such a text in one pass over its characters: `Reading`
is what the reader remembers, `Reading.step` takes one character and `Reading.finish` the end of the
text. Blanks between the digits of a number are skipped, blanks end a unit, and a digit that follows a
unit starts the next span.

The arithmetic is that of 64-bit words: a number, a unit's multiple of it or a sum that does not fit is
`SpanError.overflow`. The fraction of a span must be a whole number of nanoseconds, or of seconds for
the units from hours up.
-/

namespace GuardedHttp

/-- Why a text is not a duration. -/
inductive SpanError where
  /-- The text has no characters but blanks. -/
  | empty
  /-- A character that cannot stand where it does, by its byte offset. -/
  | invalidCharacter (offset : Nat)
  /-- A number was expected from this byte offset on. -/
  | numberExpected (offset : Nat)
  /-- A number without a unit. -/
  | unitNeeded (value : Nat)
  /-- A unit that does not exist. -/
  | unknownUnit (unit : String)
  /-- A number that does not fit, or a fraction that is not whole in the finest step of its unit. -/
  | overflow
  /-- The second carried from a full subsecond part does not fit. This one is not reported as an error:
  it stops the program. -/
  | carryOverflow
deriving DecidableEq, Repr

/-- The text of a reason, as it is reported. -/
def SpanError.message : SpanError → String
  | .empty => "value was empty"
  | .invalidCharacter offset => s!"invalid character at {offset}"
  | .numberExpected offset => s!"expected number at {offset}"
  | .unitNeeded value => s!"time unit needed, for example {value}sec or {value}ms"
  | .unknownUnit unit =>
    "unknown time unit " ++ Text.quote unit
      ++ ", supported units: ns, us/µs, ms, sec, min, hours, days, weeks, months, years (and few variations)"
  | .overflow =>
    "number is too large or cannot be represented without a lack of precision (values below 1ns are not supported)"
  | .carryOverflow => "overflow in Duration::new"

/-- The reason stops the program instead of being reported. -/
def SpanError.fatal : SpanError → Bool
  | .carryOverflow => true
  | _ => false

namespace Duration

/-! ## Units -/

/-- The size of a unit, with the step to which its fractions are exact. -/
inductive SpanUnit where
  /-- A nanosecond, which has no fractions. -/
  | nanosecond
  /-- A unit of so many nanoseconds, below a second; fractions are exact to the nanosecond. -/
  | short (nanos : Nat)
  /-- A unit of so many seconds whose fractions are exact to the nanosecond. -/
  | medium (seconds : Nat)
  /-- A unit of so many seconds whose fractions are exact to the second. -/
  | long (seconds : Nat)
deriving DecidableEq

/-- The unit of a name. -/
def SpanUnit.ofName? (name : String) : Option SpanUnit :=
  if name ∈ ["nanos", "nsec", "ns"] then some .nanosecond
  else if name ∈ ["usec", "us", "µs"] then some (.short 1000)
  else if name ∈ ["millis", "msec", "ms"] then some (.short 1000000)
  else if name ∈ ["seconds", "second", "secs", "sec", "s"] then some (.medium 1)
  else if name ∈ ["minutes", "minute", "min", "mins", "m"] then some (.medium 60)
  else if name ∈ ["hours", "hour", "hr", "hrs", "h"] then some (.long 3600)
  else if name ∈ ["days", "day", "d"] then some (.long 86400)
  else if name ∈ ["weeks", "week", "wk", "wks", "w"] then some (.long 604800)
  else if name ∈ ["months", "month", "M"] then some (.long 2630016)
  else if name ∈ ["years", "year", "yr", "yrs", "y"] then some (.long 31557600)
  else none

/-! ## Arithmetic on 64-bit words -/

/-- The number, if it fits in 64 bits. -/
def word (n : Nat) : Except SpanError Nat :=
  if n < UInt64.size then .ok n else .error .overflow

/-- The quotient of a word-sized product, if it is whole. -/
def wholeShare (numerator size denominator : Nat) : Except SpanError Nat := do
  let product ← word (numerator * size)
  if product % denominator = 0 then .ok (product / denominator) else .error .overflow

/-- The fraction of a number: `numerator / denominator`, the denominator a power of ten. -/
structure Fraction where
  /-- The digits after the point. -/
  numerator : Nat
  /-- Ten to the number of digits after the point. -/
  denominator : Nat
deriving DecidableEq

/-- The whole seconds and the nanoseconds of `value` units. -/
def SpanUnit.whole (unit : SpanUnit) (value : Nat) : Except SpanError (Nat × Nat) :=
  match unit with
  | .nanosecond => .ok (0, value)
  | .short nanos => (word (value * nanos)).map (0, ·)
  | .medium seconds | .long seconds => (word (value * seconds)).map (·, 0)

/-- The whole seconds and the nanoseconds of a fraction of a unit. -/
def SpanUnit.part (unit : SpanUnit) (f : Fraction) : Except SpanError (Nat × Nat) :=
  match unit with
  | .nanosecond => .error .overflow
  | .short nanos => (wholeShare f.numerator nanos f.denominator).map (0, ·)
  | .medium seconds => (wholeShare f.numerator (seconds * nanosPerSecond) f.denominator).map (0, ·)
  | .long seconds => (wholeShare f.numerator seconds f.denominator).map (·, 0)

/-- A total with seconds and nanoseconds added. Nanoseconds above a full second are carried into the
seconds; a subsecond part of exactly one second is carried last, which is fatal when it does not fit. -/
def addParts (total : Duration) (seconds nanos : Nat) : Except SpanError Duration := do
  let subsecond ← word (total.subsecond + nanos)
  let (seconds, subsecond) ←
    if nanosPerSecond < subsecond then do
      let carried ← word (seconds + subsecond / nanosPerSecond)
      pure (carried, subsecond % nanosPerSecond)
    else pure (seconds, subsecond)
  let seconds ← word (total.seconds + seconds)
  match ofNanos? (seconds * nanosPerSecond + subsecond) with
  | some sum => .ok sum
  | none => .error .carryOverflow

/-- A total with a span added, first the whole units and then the fraction. -/
def addSpan (total : Duration) (value : Nat) (fraction : Option Fraction) (name : List Char) :
    Except SpanError Duration := do
  match SpanUnit.ofName? (String.ofList name) with
  | none =>
    if name.isEmpty then .error (.unitNeeded value)
    else .error (.unknownUnit (String.ofList name))
  | some unit =>
    let (seconds, nanos) ← unit.whole value
    let total ← total.addParts seconds nanos
    match fraction with
    | none => .ok total
    | some f =>
      let (seconds, nanos) ← unit.part f
      total.addParts seconds nanos

/-! ## The reader -/

/-- A letter of a unit's name. -/
def isUnitLetter (c : Char) : Bool :=
  ('a' ≤ c && c ≤ 'z') || ('A' ≤ c && c ≤ 'Z') || c == 'µ'

/-- What the reader of spans remembers between two characters. -/
inductive Reading where
  /-- A number is awaited from byte offset `since` on; `none` has been read before the first. -/
  | awaiting (total : Option Duration) (since : Nat)
  /-- The whole part of a number has been read so far. -/
  | whole (total : Duration) (value : Nat)
  /-- The fraction of a number has been read so far; no character of it was accepted when its point,
  at byte offset `point`, is still remembered. -/
  | part (total : Duration) (value : Nat) (fraction : Fraction) (point : Option Nat)
  /-- The letters of a unit have been read so far, last letter first. -/
  | unit (total : Duration) (value : Nat) (fraction : Option Fraction) (letters : List Char)

/-- A number with one more digit. -/
def addDigit (value : Nat) (digit : Char) : Except SpanError Nat :=
  word (value * 10 + (digit.toNat - '0'.toNat))

/-- A fraction with one more digit. -/
def Fraction.addDigit (f : Fraction) (digit : Char) : Except SpanError Fraction := do
  let denominator ← word (f.denominator * 10)
  let numerator ← Duration.addDigit f.numerator digit
  return ⟨numerator, denominator⟩

/-- The fraction of a number whose unit starts, or whose text ends, at a byte offset: it must have
digits. -/
def Fraction.checked (f : Fraction) (offset : Nat) (point : Option Nat) : Except SpanError Fraction :=
  if f.denominator = 1 then .error (.invalidCharacter (point.getD offset)) else .ok f

/-- The reader takes the character at a byte offset. -/
def Reading.step (offset : Nat) (c : Char) : Reading → Except SpanError Reading
  | .awaiting total since =>
    if c.isDigit then .ok (.whole (total.getD zero) (c.toNat - '0'.toNat))
    else if Text.isBlank c then .ok (.awaiting total since)
    else .error (.numberExpected since)
  | .whole total value =>
    if c.isDigit then do return .whole total (← addDigit value c)
    else if Text.isBlank c then .ok (.whole total value)
    else if isUnitLetter c then .ok (.unit total value none [c])
    else if c = '.' then .ok (.part total value ⟨0, 1⟩ (some offset))
    else .error (.invalidCharacter offset)
  | .part total value f point =>
    if c.isDigit then do return .part total value (← f.addDigit c) none
    else if Text.isBlank c then .ok (.part total value f none)
    else if isUnitLetter c then do return .unit total value (some (← f.checked offset point)) [c]
    else .error (.invalidCharacter (point.getD offset))
  | .unit total value f letters =>
    if c.isDigit then do
      let total ← total.addSpan value f letters.reverse
      return .whole total (c.toNat - '0'.toNat)
    else if Text.isBlank c then do
      let total ← total.addSpan value f letters.reverse
      return .awaiting (some total) (offset + c.utf8Size)
    else if isUnitLetter c then .ok (.unit total value f (c :: letters))
    else .error (.invalidCharacter offset)

/-- The duration that has been read when the text ends at a byte offset. -/
def Reading.finish (offset : Nat) : Reading → Except SpanError Duration
  | .awaiting none _ => .error .empty
  | .awaiting (some total) _ => .ok total
  | .whole total value => total.addSpan value none []
  | .part total value f point => do
    let f ← f.checked offset point
    total.addSpan value (some f) []
  | .unit total value f letters => total.addSpan value f letters.reverse

/-- The reader takes the rest of a text from a byte offset on. -/
def Reading.run (reading : Reading) (offset : Nat) : List Char → Except SpanError Duration
  | [] => reading.finish offset
  | c :: rest => do
    let reading ← reading.step offset c
    reading.run (offset + c.utf8Size) rest

/-- The duration that a text of spans denotes. A lone zero needs no unit. -/
def ofSpans (text : String) : Except SpanError Duration :=
  if text = "0" then .ok zero
  else (Reading.awaiting none 0).run 0 text.toList

end Duration

end GuardedHttp
