import Workflow.Json.Basic

/-!
Reading JSON text. A step that succeeds returns what is left of the characters, a step that fails says why and
where, counted in bytes. Of a repeated name the last value stays. Integers keep their value while they fit 64
bits; other numbers are scaled from the digits that fit.
-/

namespace Workflow.Json

/-- Why a text is not JSON. -/
inductive Cause where
  | endInValue
  | endInList
  | endInObject
  | endInString
  | expectedValue
  | expectedIdent
  | expectedListEnd
  | expectedObjectEnd
  | expectedColon
  | keyNotString
  | trailingComma
  | trailingCharacters
  | invalidNumber
  | numberOutOfRange
  | invalidEscape
  | endOfHexEscape
  | loneSurrogate
  | controlCharacter
  | tooDeep
  deriving DecidableEq, Repr

def Cause.message : Cause → String
  | endInValue => "EOF while parsing a value"
  | endInList => "EOF while parsing a list"
  | endInObject => "EOF while parsing an object"
  | endInString => "EOF while parsing a string"
  | expectedValue => "expected value"
  | expectedIdent => "expected ident"
  | expectedListEnd => "expected `,` or `]`"
  | expectedObjectEnd => "expected `,` or `\x7d`"
  | expectedColon => "expected `:`"
  | keyNotString => "key must be a string"
  | trailingComma => "trailing comma"
  | trailingCharacters => "trailing characters"
  | invalidNumber => "invalid number"
  | numberOutOfRange => "number out of range"
  | invalidEscape => "invalid escape"
  | endOfHexEscape => "unexpected end of hex escape"
  | loneSurrogate => "lone leading surrogate in hex escape"
  | controlCharacter => "control character (\\u0000-\\u001F) found while parsing a string"
  | tooDeep => "recursion limit exceeded"

/-- A fault: its cause, what was left to read, and how many bytes of that belong to the place. -/
structure Fault where
  cause : Cause
  rest : List Char
  ahead : Nat
  deriving Repr

abbrev Step (α : Type) := List Char → Except Fault (α × List Char)

def failAt {α : Type} (cause : Cause) (rest : List Char) : Except Fault α :=
  .error ⟨cause, rest, 0⟩

def failNext {α : Type} (cause : Cause) (rest : List Char) : Except Fault α :=
  .error ⟨cause, rest, 1⟩

def isBlank (c : Char) : Bool := c = ' ' || c = '\n' || c = '\t' || c = '\r'

def skipBlanks (s : List Char) : List Char := s.dropWhile isBlank

/-! ### Numbers -/

def digitValue (c : Char) : Nat := c.toNat - 48

/-- Whether another digit still fits an unsigned 64-bit integer. -/
def fits (significand : Nat) (c : Char) : Bool := significand * 10 + digitValue c ≤ 0xffffffffffffffff

/-- Multiplies or divides by powers of ten, dividing by `10^308` as long as needed. -/
def scale (x : Float) (exponent : Int) : Nat → Option Float
  | 0 => some x
  | n + 1 =>
    if exponent.natAbs ≤ 308 then
      let power := Float.ofScientific 1 false exponent.natAbs
      if 0 ≤ exponent then
        let y := x * power
        if y.isFinite then some y else none
      else some (x / power)
    else if x == 0.0 then some x
    else if 0 ≤ exponent then none
    else scale (x / 1e308) (exponent + 308) n

def floatOfParts (negative : Bool) (significand : Nat) (exponent : Int) : Step Json := fun rest =>
  match scale (Float.ofNat significand) exponent (exponent.natAbs / 308 + 2) with
  | some x => .ok (.float (if negative then -x else x), rest)
  | none => failAt .numberOutOfRange rest

/-- Digits of an exponent after the first. The value stops growing at 31 bits. -/
def exponentDigits (negative below zero : Bool) (finish : Int → Step Json) (value : Nat) : Step Json
  | [] => finish value []
  | c :: rest =>
    if c.isDigit then
      if value * 10 + digitValue c < 0x80000000 then
        exponentDigits negative below zero finish (value * 10 + digitValue c) rest
      else if !zero && !below then failAt .numberOutOfRange rest
      else .ok (.float (if negative then -0.0 else 0.0), rest.dropWhile Char.isDigit)
    else finish value (c :: rest)

def unsignedExponent (negative below : Bool) (significand : Nat) (start : Int) : Step Json := fun s =>
  match s with
  | [] => failAt .endInValue []
  | c :: rest =>
    if c.isDigit then
      exponentDigits negative below (significand = 0)
        (fun e rest => floatOfParts negative significand (if below then start - e else start + e) rest)
        (digitValue c) rest
    else
      .error ⟨.invalidNumber, c :: rest, 1⟩

def exponentPart (negative : Bool) (significand : Nat) (start : Int) : Step Json := fun s =>
  match s.drop 1 with
  | '+' :: rest => unsignedExponent negative false significand start rest
  | '-' :: rest => unsignedExponent negative true significand start rest
  | rest => unsignedExponent negative false significand start rest

def afterFraction (negative : Bool) (significand : Nat) (exponent : Int) : Step Json := fun s =>
  match s with
  | 'e' :: _ | 'E' :: _ => exponentPart negative significand exponent s
  | _ => floatOfParts negative significand exponent s

/-- Digits of a fraction; those that no longer fit are skipped. -/
def fractionDigits (negative : Bool) (significand : Nat) (start : Int) (seen : Nat) : Step Json
  | [] => if seen = 0 then failNext .endInValue [] else floatOfParts negative significand (start - seen) []
  | c :: rest =>
    if c.isDigit then
      if fits significand c then
        fractionDigits negative (significand * 10 + digitValue c) start (seen + 1) rest
      else afterFraction negative significand (start - seen) ((c :: rest).dropWhile Char.isDigit)
    else if seen = 0 then failNext .invalidNumber (c :: rest)
    else afterFraction negative significand (start - seen) (c :: rest)

def longDigits (negative : Bool) (significand : Nat) (exponent : Int) : Step Json
  | [] => floatOfParts negative significand exponent []
  | '.' :: rest => fractionDigits negative significand exponent 0 rest
  | c :: rest =>
    if c.isDigit then longDigits negative significand (exponent + 1) rest
    else afterFraction negative significand exponent (c :: rest)

/-- The value of an integer that fits. A negative zero, and a negative integer below `-2^63`, is a
float. -/
def integerValue (negative : Bool) (significand : Nat) : Json :=
  if !negative then .int significand
  else if significand = 0 || 0x8000000000000000 < significand then .float (-(Float.ofNat significand))
  else .int (-significand)

def integerEnd (negative : Bool) (significand : Nat) : Step Json := fun s =>
  match s with
  | '.' :: rest => fractionDigits negative significand 0 0 rest
  | 'e' :: _ | 'E' :: _ => exponentPart negative significand 0 s
  | _ => .ok (integerValue negative significand, s)

def integerDigits (negative : Bool) (significand : Nat) : Step Json
  | [] => integerEnd negative significand []
  | c :: rest =>
    if c.isDigit then
      if fits significand c then integerDigits negative (significand * 10 + digitValue c) rest
      else longDigits negative significand 0 (c :: rest)
    else integerEnd negative significand (c :: rest)

def number (negative : Bool) : Step Json := fun s =>
  match s with
  | [] => failAt .endInValue []
  | '0' :: rest =>
    match rest with
    | c :: _ => if c.isDigit then failNext .invalidNumber rest else integerEnd negative 0 rest
    | [] => integerEnd negative 0 rest
  | c :: rest =>
    if c.isDigit then integerDigits negative (digitValue c) rest
    else .error ⟨.invalidNumber, c :: rest, 1⟩

/-! ### Strings -/

def hexValue (c : Char) : Option Nat :=
  if '0' ≤ c ∧ c ≤ '9' then some (c.toNat - 48)
  else if 'a' ≤ c ∧ c ≤ 'f' then some (c.toNat - 87)
  else if 'A' ≤ c ∧ c ≤ 'F' then some (c.toNat - 55)
  else none

def byteCount (s : List Char) : Nat := s.foldl (fun n c => n + c.utf8Size) 0

def hexDigits (value : Nat) : Nat → List Char → Option (Nat × List Char)
  | 0, s => some (value, s)
  | _ + 1, [] => none
  | n + 1, c :: rest =>
    match hexValue c with
    | some digit => hexDigits (value * 16 + digit) n rest
    | none => none

def hexFour : Step Nat := fun s =>
  match hexDigits 0 4 s with
  | some read => .ok read
  | none => if byteCount s < 4 then failAt .endInString [] else .error ⟨.invalidEscape, s, 4⟩

/-- An escaped code point, after the `u`. A leading surrogate needs a trailing one. -/
def hexEscape : Step Char := fun s => do
  let (n, rest) ← hexFour s
  if 0xDC00 ≤ n ∧ n ≤ 0xDFFF then failAt .loneSurrogate rest
  else if n < 0xD800 ∨ 0xDBFF < n then pure (Char.ofNat n, rest)
  else
    match rest with
    | [] => failAt .endInString []
    | '\\' :: rest =>
      match rest with
      | [] => failAt .endInString []
      | 'u' :: rest => do
        let (m, rest) ← hexFour rest
        if m < 0xDC00 ∨ 0xDFFF < m then failAt .loneSurrogate rest
        else pure (Char.ofNat ((n - 0xD800) * 0x400 + (m - 0xDC00) + 0x10000), rest)
      | _ => failNext .endOfHexEscape rest
    | _ => failNext .endOfHexEscape rest

def escape : Step Char := fun s =>
  match s with
  | [] => failAt .endInString []
  | '"' :: rest => .ok ('"', rest)
  | '\\' :: rest => .ok ('\\', rest)
  | '/' :: rest => .ok ('/', rest)
  | 'b' :: rest => .ok ('\x08', rest)
  | 'f' :: rest => .ok ('\x0c', rest)
  | 'n' :: rest => .ok ('\n', rest)
  | 'r' :: rest => .ok ('\r', rest)
  | 't' :: rest => .ok ('\t', rest)
  | 'u' :: rest => hexEscape rest
  | _ => failNext .invalidEscape s

/-- The rest of a string, after its opening quote. The length of the text bounds the rounds. -/
def stringBody (acc : List Char) : Nat → Step String
  | 0, s => failAt .endInString s
  | n + 1, s =>
    match s with
    | [] => failAt .endInString []
    | '"' :: rest => .ok (String.ofList acc.reverse, rest)
    | '\\' :: rest => do
      let (c, rest) ← escape rest
      stringBody (c :: acc) n rest
    | c :: rest =>
      if c.toNat < 32 then failNext .controlCharacter s else stringBody (c :: acc) n rest

def string : Step String := fun s => stringBody [] (s.length + 1) s

/-! ### Values -/

/-- The rest of a word whose first letter is read. -/
def word (expected : List Char) (v : Json) : Step Json := fun s =>
  match expected, s with
  | [], s => .ok (v, s)
  | _ :: _, [] => failAt .endInValue []
  | e :: es, c :: rest => if e = c then word es v rest else failNext .expectedIdent s

/-- How entries with commas between them are read: the bracket that closes them, the faults, and how an entry is
read and added. -/
structure Entries (ε σ : Type) where
  close : Char
  ended : Cause
  unexpected : Cause
  entry : Step ε
  add : σ → ε → σ

/-- The entries behind the first one, down to the closing bracket. -/
def moreEntries {ε σ : Type} (q : Entries ε σ) (acc : σ) : Nat → Step σ
  | 0, s => failNext q.ended s
  | n + 1, s =>
    match skipBlanks s with
    | [] => failNext q.ended []
    | c :: rest =>
      if c = q.close then .ok (acc, rest)
      else if c = ',' then
        match skipBlanks rest with
        | [] => failNext .endInValue []
        | d :: rest =>
          if d = q.close then failNext .trailingComma (d :: rest)
          else do
            let (e, rest) ← q.entry (d :: rest)
            moreEntries q (q.add acc e) n rest
      else failNext q.unexpected (c :: rest)

def entries {ε σ : Type} (q : Entries ε σ) (start : σ) : Step σ := fun s =>
  match skipBlanks s with
  | [] => failNext q.ended []
  | c :: rest =>
    if c = q.close then .ok (start, rest)
    else do
      let (e, rest) ← q.entry (c :: rest)
      moreEntries q (q.add start e) (rest.length + 1) rest

def items (value : Step Json) : Entries Json (List Json) where
  close := ']'
  ended := .endInList
  unexpected := .expectedListEnd
  entry := value
  add acc v := v :: acc

def field (value : Step Json) : Step (String × Json)
  | '"' :: rest => do
    let (name, rest) ← string rest
    match skipBlanks rest with
    | [] => failNext .endInObject []
    | ':' :: rest => do
      let (v, rest) ← value rest
      pure ((name, v), rest)
    | rest => failNext .expectedColon rest
  | s => failNext .keyNotString s

def fields (value : Step Json) : Entries (String × Json) (Table Json) where
  close := '\x7d'
  ended := .endInObject
  unexpected := .expectedObjectEnd
  entry := field value
  add acc f := acc.insert f.1 f.2

/-- A value whose lists and objects hold values read by `inner`; without it they are too deep. -/
def valueWith (inner : Option (Step Json)) : Step Json := fun s =>
  match skipBlanks s with
  | [] => failNext .endInValue []
  | 'n' :: rest => word ['u', 'l', 'l'] null rest
  | 't' :: rest => word ['r', 'u', 'e'] (bool true) rest
  | 'f' :: rest => word ['a', 'l', 's', 'e'] (bool false) rest
  | '-' :: rest => number true rest
  | '"' :: rest => do
    let (text, rest) ← string rest
    pure (str text, rest)
  | '[' :: rest =>
    match inner with
    | none => failNext .tooDeep ('[' :: rest)
    | some value => do
      let (vs, rest) ← entries (items value) [] rest
      pure (arr vs.reverse, rest)
  | '\x7b' :: rest =>
    match inner with
    | none => failNext .tooDeep ('\x7b' :: rest)
    | some value => do
      let (fs, rest) ← entries (fields value) [] rest
      pure (obj fs, rest)
  | c :: rest => if c.isDigit then number false (c :: rest) else failNext .expectedValue (c :: rest)

def value : Nat → Step Json
  | 0 => valueWith none
  | depth + 1 => valueWith (some (value depth))

/-- Lists and objects may lie this deep in each other. -/
def maxDepth : Nat := 127

def readChars (s : List Char) : Except Fault Json := do
  let (v, rest) ← value maxDepth s
  match skipBlanks rest with
  | [] => pure v
  | rest => failNext .trailingCharacters rest

/-- Line and column of a byte offset, columns counted in bytes from the last line break. -/
def place (line column : Nat) : Nat → List Char → Nat × Nat
  | 0, _ => (line, column)
  | _, [] => (line, column)
  | n + 1, c :: rest =>
    if c = '\n' then place (line + 1) 0 n rest
    else
      let taken := min c.utf8Size (n + 1)
      place line (column + taken) (n + 1 - taken) rest

/-- A cause with its line and column. -/
structure ReadError where
  cause : Cause
  line : Nat
  column : Nat
  deriving Repr

def ReadError.message (e : ReadError) : String :=
  e.cause.message ++ " at line " ++ toString e.line ++ " column " ++ toString e.column

def Fault.locate (s : List Char) (f : Fault) : ReadError :=
  let total := byteCount s
  let offset := min total (total - byteCount f.rest + f.ahead)
  let (line, column) := place 1 0 offset s
  ⟨f.cause, line, column⟩

def read (text : String) : Except ReadError Json :=
  match readChars text.toList with
  | .ok v => .ok v
  | .error f => .error (f.locate text.toList)

end Workflow.Json
