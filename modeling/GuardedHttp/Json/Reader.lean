import GuardedHttp.Json.Number
import GuardedHttp.Text.Utf8

/-!
# Reading JSON

A `Reader` takes its value from the front of the input and returns the rest, or the first fault it
meets. The primitives `nextElement`, `nextKey`, `colon`, `endArray` and `endObject` walk through arrays
and objects; `value` reads any value, to a bounded depth, and `skip` passes over one of any depth.
`readAll` reads a whole document: nothing but blanks may follow the value, and that is looked at last.
-/

namespace GuardedHttp.Json

open Text (Bytes)

/-- Takes a value from the front of the input. -/
abbrev Reader (α : Type) := Bytes → Except Fault (α × Bytes)

/-- The byte is one of the four blanks of JSON. -/
def isBlank (b : UInt8) : Bool :=
  b == byte ' ' || b == byte '\n' || b == byte '\t' || b == byte '\r'

/-- The input without the blanks at its front. -/
def skipBlanks (input : Bytes) : Bytes := input.dropWhile isBlank

/-! ## Literals and texts -/

/-- Passes over the given bytes. -/
def literal : (expected : Bytes) → Bytes → Except Fault Bytes
  | [], input => .ok input
  | _ :: _, [] => .error .truncated
  | e :: expected, b :: input => if b = e then literal expected input else .error .malformed

/-- The number that four hexadecimal digits denote. -/
def hexUnit? (a b c d : UInt8) : Option Nat :=
  Text.ofHex? ([a, b, c, d].map fun x => Char.ofNat x.toNat)

/-- The unit is the first half of a pair that stands for one character. -/
def isHighSurrogate (unit : Nat) : Bool := 0xD800 ≤ unit && unit < 0xDC00

/-- The unit is the second half of a pair that stands for one character. -/
def isLowSurrogate (unit : Nat) : Bool := 0xDC00 ≤ unit && unit < 0xE000

/-- The character of a pair of units. -/
def pairChar (high low : Nat) : Char :=
  Char.ofNat (0x10000 + (high - 0xD800) * 0x400 + (low - 0xDC00))

/-- What a backslash and one more character stand for. -/
def shortEscape? (b : UInt8) : Option UInt8 :=
  if b = byte '"' ∨ b = byte '\\' ∨ b = byte '/' then some b
  else if b = byte 'b' then some 0x08
  else if b = byte 'f' then some 0x0C
  else if b = byte 'n' then some 0x0A
  else if b = byte 'r' then some 0x0D
  else if b = byte 't' then some 0x09
  else none

/-- The bytes so far, last byte first, with a character added. -/
def pushChar (done : Bytes) (c : Char) : Bytes :=
  (String.utf8EncodeChar c).reverse ++ done

/-- Reads the bytes of a text up to its closing quote. Two escaped halves of a pair are one character;
a half that stands alone is malformed where the text is kept. -/
def textBytes (rules : Rules) : (done : Bytes) → Bytes → Except Fault (Bytes × Bytes)
  | _, [] => .error .truncated
  | done, b :: rest =>
    if b = byte '"' then .ok (done.reverse, rest)
    else if b < 0x20 then .error .malformed
    else if b ≠ byte '\\' then textBytes rules (b :: done) rest
    else match rest with
      | [] => .error .truncated
      | e :: rest =>
        if e ≠ byte 'u' then
          match shortEscape? e with
          | none => .error .malformed
          | some c => textBytes rules (c :: done) rest
        else match rest with
          | h₁ :: h₂ :: h₃ :: h₄ :: rest =>
            match hexUnit? h₁ h₂ h₃ h₄ with
            | none => .error .malformed
            | some unit =>
              if !rules.strict then textBytes rules done rest
              else if isLowSurrogate unit then .error .malformed
              else if !isHighSurrogate unit then textBytes rules (pushChar done (Char.ofNat unit)) rest
              else match rest with
                | [] => .error .truncated
                | [s] => if s = byte '\\' then .error .truncated else .error .malformed
                | s :: u :: rest =>
                  if s ≠ byte '\\' ∨ u ≠ byte 'u' then .error .malformed
                  else match rest with
                    | l₁ :: l₂ :: l₃ :: l₄ :: rest =>
                      match hexUnit? l₁ l₂ l₃ l₄ with
                      | none => .error .malformed
                      | some low =>
                        if isLowSurrogate low then
                          textBytes rules (pushChar done (pairChar unit low)) rest
                        else .error .malformed
                    | _ => .error .truncated
          | _ => .error .truncated

/-- Reads a text, its opening quote read already. A text that is kept must be made of characters. -/
def text (rules : Rules) : Reader String := fun input => do
  let (bytes, rest) ← textBytes rules [] input
  match Text.decode? bytes with
  | some s => return (s, rest)
  | none => if rules.strict then .error .malformed else return (Text.decodeLossy bytes, rest)

/-! ## Walking through arrays and objects -/

/-- Goes to the next element of an array: `none` at the closing bracket. -/
def nextElement (first : Bool) (input : Bytes) : Except Fault (Option Bytes) :=
  match skipBlanks input with
  | [] => .error .truncated
  | b :: rest =>
    if b = byte ']' then .ok none
    else if first then .ok (some (b :: rest))
    else if b ≠ byte ',' then .error .malformed
    else match skipBlanks rest with
      | [] => .error .truncated
      | c :: rest => if c = byte ']' then .error .malformed else .ok (some (c :: rest))

/-- Passes over the closing bracket of an array that has no more elements. -/
def endArray (input : Bytes) : Except Fault Bytes :=
  match skipBlanks input with
  | [] => .error .truncated
  | b :: rest => if b = byte ']' then .ok rest else .error .malformed

/-- Goes into the next key of an object, behind its opening quote: `none` at the closing brace. -/
def nextKey (first : Bool) (input : Bytes) : Except Fault (Option Bytes) := do
  match skipBlanks input with
  | [] => .error .truncated
  | b :: rest =>
    if b = byte '\x7d' then return none
    let next ←
      if first then pure (b :: rest)
      else if b = byte ',' then pure (skipBlanks rest)
      else .error .malformed
    match next with
    | [] => .error .truncated
    | c :: rest => if c = byte '"' then return some rest else .error .malformed

/-- Passes over the colon between a key and its value. -/
def colon (input : Bytes) : Except Fault Bytes :=
  match skipBlanks input with
  | [] => .error .truncated
  | b :: rest => if b = byte ':' then .ok rest else .error .malformed

/-- Passes over the closing brace of an object that has no more members. -/
def endObject (input : Bytes) : Except Fault Bytes :=
  match skipBlanks input with
  | [] => .error .truncated
  | b :: rest => if b = byte '\x7d' then .ok rest else .error .malformed

/-- Reads the elements of an array up to its closing bracket, at most `fuel` of them. Each takes a
byte at least, so the length of the input is fuel enough. -/
def elements {α : Type} (item : Reader α) : (fuel : Nat) → (first : Bool) → Reader (List α)
  | 0, _, _ => .error .malformed
  | fuel + 1, first, input => do
    match ← nextElement first input with
    | none => return ([], input)
    | some input =>
      let (x, rest) ← item input
      let (xs, rest) ← elements item fuel false rest
      return (x :: xs, rest)

/-- Reads an array whose opening bracket has been read. -/
def array {α : Type} (item : Reader α) : Reader (List α) := fun input => do
  let (xs, rest) ← elements item (input.length + 1) true input
  return (xs, ← endArray rest)

/-- Reads the members of an object up to its closing brace, at most `fuel` of them: `member` takes what
follows each key, the colon included, into the state. -/
def foldMembers {σ : Type} (rules : Rules) (member : σ → String → Bytes → Except Fault (σ × Bytes)) :
    (fuel : Nat) → (first : Bool) → σ → Reader σ
  | 0, _, _, _ => .error .malformed
  | fuel + 1, first, state, input => do
    match ← nextKey first input with
    | none => return (state, input)
    | some input =>
      let (key, rest) ← text rules input
      let (state, rest) ← member state key rest
      foldMembers rules member fuel false state rest

/-- Reads an object whose opening brace has been read. -/
def object {σ : Type} (rules : Rules) (member : σ → String → Bytes → Except Fault (σ × Bytes))
    (start : σ) : Reader σ := fun input => do
  let (state, rest) ← foldMembers rules member (input.length + 1) true start input
  return (state, ← endObject rest)

/-! ## Values -/

/-- Reads what is not an array or an object. -/
def scalar (rules : Rules) (b : UInt8) (rest : Bytes) : Except Fault (Found × Bytes) := do
  if b = byte 'n' then return (.null, ← literal [byte 'u', byte 'l', byte 'l'] rest)
  else if b = byte 't' then return (.bool true, ← literal [byte 'r', byte 'u', byte 'e'] rest)
  else if b = byte 'f' then
    return (.bool false, ← literal [byte 'a', byte 'l', byte 's', byte 'e'] rest)
  else if b = byte '"' then
    let (s, rest) ← text rules rest
    return (.string s, rest)
  else if b = byte '-' then
    let (n, rest) ← number rules true rest
    return (.number n, rest)
  else if isDigit b then
    let (n, rest) ← number rules false (b :: rest)
    return (.number n, rest)
  else .error .malformed

/-- What stands at the front of the input. Of an array or an object only the opening is read. -/
def found : Reader Found := fun input =>
  match skipBlanks input with
  | [] => .error .truncated
  | b :: rest =>
    if b = byte '[' then .ok (.array, rest)
    else if b = byte '\x7b' then .ok (.object, rest)
    else scalar .keeping b rest

/-- Reads a value in which at most `depth` arrays and objects are nested. -/
def value (rules : Rules) : (depth : Nat) → Reader Value
  | depth, input => do
    match skipBlanks input with
    | [] => .error .truncated
    | b :: rest =>
      if b = byte '[' then
        match depth with
        | 0 => .error .malformed
        | depth + 1 =>
          let (xs, rest) ← array (value rules depth) rest
          return (.array xs, rest)
      else if b = byte '\x7b' then
        match depth with
        | 0 => .error .malformed
        | depth + 1 =>
          let member (done : List (String × Value)) (key : String) (input : Bytes) := do
            let (v, rest) ← value rules depth (← colon input)
            return (Value.insertMember key v done, rest)
          let (members, rest) ← object rules member [] rest
          return (.object members, rest)
      else
        let (scalar, rest) ← scalar rules b rest
        match scalar with
        | .bool b => return (.bool b, rest)
        | .number n => return (.number n, rest)
        | .string s => return (.string s, rest)
        | _ => return (.null, rest)

/-- How many arrays and objects may be nested in a value that is kept. -/
def depthLimit : Nat := 127

/-- Reads any value. -/
def anyValue : Reader Value := value .keeping depthLimit

/-- Passes over any value, however deep. -/
def skip : Reader Unit := fun input => do
  let (_, rest) ← value .skipping input.length input
  return ((), rest)

/-- Reads a text where one must stand. -/
def expectText : Reader String := fun input => do
  match ← found input with
  | (.string s, rest) => return (s, rest)
  | (other, _) => .error (.mismatch (.wrongType other "a string"))

/-- Reads a natural below `bound` where one must stand; `expected` names the kind. -/
def expectNatural (bound : Nat) (expected : String) : Reader Nat := fun input => do
  match ← found input with
  | (.number (.natural n), rest) =>
    if n < bound then return (n, rest) else .error (.mismatch (.wrongValue (.natural n) expected))
  | (.number (.negative n), _) => .error (.mismatch (.wrongValue (.negative n) expected))
  | (other, _) => .error (.mismatch (.wrongType other expected))

/-- Reads a whole document: a value with nothing but blanks behind it. -/
def readAll {α : Type} (reader : Reader α) (input : Bytes) : Except Fault α := do
  let (x, rest) ← reader input
  if (skipBlanks rest).isEmpty then return x else .error .malformed

end GuardedHttp.Json
