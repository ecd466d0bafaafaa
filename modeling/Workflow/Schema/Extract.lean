import Workflow.Json.Reader
import Workflow.Text.Blank
import Workflow.Text.Part

/-!
Finding the JSON value in a reply. A reply with one fenced block means the block; without fences it
means the whole text. When that does not read as a value, the part from the first opening bracket
to the last closing one of its kind is tried.
-/

namespace Workflow

/-- Why a reply is not a structured answer. -/
inductive SchemaError where
  | multipleFences (count : Nat)
  | invalidJson (reason : String)
  | invalid (reasons : List String)
  | uncompiled (schema reason : String)
  deriving DecidableEq, Repr

def SchemaError.message : SchemaError → String
  | multipleFences n => "expected one fenced code block, found " ++ toString n
  | invalidJson reason => "response is not valid JSON: " ++ reason
  | invalid reasons => "response does not match the schema: " ++ "; ".intercalate reasons
  | uncompiled schema reason => "schema '" ++ schema ++ "' could not be compiled: " ++ reason

namespace Reply

/-- Three backticks, which open and close a block. -/
def fence : List Char := [Char.ofNat 0x60, Char.ofNat 0x60, Char.ofNat 0x60]

def opens (c : Char) : Bool := c = '[' || c = '\x7b'

/-- The bodies among the pieces between fences: a fence that closed a block does not open the next. -/
def bodies : List (List Char) → List (List Char)
  | _ :: body :: after :: rest => body :: bodies (after :: rest)
  | _ => []

/-- The body without its first line, if that only names the language. -/
def dropInfo (body : List Char) : List Char :=
  match body.dropWhile (· ≠ '\n') with
  | [] => body
  | _ :: rest => if (body.takeWhile (· ≠ '\n')).any opens then body else rest

def blocks (text : List Char) : List (List Char) := (bodies (Text.pieces fence text)).map dropInfo

/-- The part of a text from its first opening bracket to the last closing one of that kind. -/
def embedded? (text : List Char) : Option (List Char) :=
  match text.dropWhile fun c => !opens c with
  | [] => none
  | c :: rest =>
    let closing := if c = '[' then ']' else '\x7d'
    let inner := Text.trimEnd (· ≠ closing) rest
    if inner.isEmpty then none else some (c :: inner)

/-- The text of a reply that should be a JSON value. -/
def candidate (text : List Char) : Except SchemaError (List Char) :=
  match blocks text with
  | [] => .ok (Text.trim text)
  | [block] => .ok (Text.trim block)
  | several => .error (.multipleFences several.length)

/-- The JSON value of a reply. The error is that of the first attempt. -/
def extract (text : String) : Except SchemaError Json := do
  let chosen ← candidate text.toList
  match Json.read (String.ofList chosen) with
  | .ok v => .ok v
  | .error e =>
    match (embedded? chosen).map fun inner => Json.read (String.ofList inner) with
    | some (.ok v) => .ok v
    | _ => .error (.invalidJson e.message)

end Reply

end Workflow
