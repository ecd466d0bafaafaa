import Workflow.Decimal.Shortest
import Workflow.Json.Basic

/-!
Text of JSON values: `render` writes no blanks at all, `pretty` puts each item on a line of its
own, two blanks deeper than its surroundings. Both write the fields of an object in the order in
which it lists them.
-/

namespace Workflow

/-- Floats are written with the fewest digits that read back, positionally from `0.00001` up to sixteen digits
before the point. -/
def Number.style : Decimal.Style := ⟨-5, 15, ".0", "+"⟩

def Number.render : Number → String
  | int n => toString n
  | float x => Decimal.render Number.style x

namespace Json

def hexDigit (n : Nat) : Char :=
  if n < 10 then Char.ofNat (48 + n) else Char.ofNat (87 + n)

def escapeChar (c : Char) : List Char :=
  match c with
  | '"' => ['\\', '"']
  | '\\' => ['\\', '\\']
  | '\n' => ['\\', 'n']
  | '\r' => ['\\', 'r']
  | '\t' => ['\\', 't']
  | '\x08' => ['\\', 'b']
  | '\x0c' => ['\\', 'f']
  | c =>
    if c.toNat < 32 then
      ['\\', 'u', '0', '0', hexDigit (c.toNat / 16), hexDigit (c.toNat % 16)]
    else [c]

def quote (s : String) : String :=
  String.ofList ('"' :: s.toList.flatMap escapeChar ++ ['"'])

mutual

def render : Json → String
  | null => "null"
  | bool true => "true"
  | bool false => "false"
  | num n => n.render
  | str s => quote s
  | arr items => "[" ++ ",".intercalate (renderItems items) ++ "]"
  | obj fields => "\x7b" ++ ",".intercalate (renderFields fields) ++ "\x7d"

def renderItems : List Json → List String
  | [] => []
  | v :: rest => v.render :: renderItems rest

def renderFields : List (String × Json) → List String
  | [] => []
  | (name, v) :: rest => (quote name ++ ":" ++ v.render) :: renderFields rest

end

def block (opening closing : String) (indent : String) (lines : List String) : String :=
  match lines with
  | [] => opening ++ closing
  | _ =>
    opening ++ "\n" ++ ",\n".intercalate (lines.map fun l => indent ++ "  " ++ l) ++ "\n" ++ indent
      ++ closing

mutual

/-- Indented text of a value that stands behind the given indentation. -/
def prettyAt (indent : String) : Json → String
  | arr items => block "[" "]" indent (prettyItems (indent ++ "  ") items)
  | obj fields => block "\x7b" "\x7d" indent (prettyFields (indent ++ "  ") fields)
  | null => "null"
  | bool true => "true"
  | bool false => "false"
  | num n => n.render
  | str s => quote s

def prettyItems (indent : String) : List Json → List String
  | [] => []
  | v :: rest => prettyAt indent v :: prettyItems indent rest

def prettyFields (indent : String) : List (String × Json) → List String
  | [] => []
  | (name, v) :: rest => (quote name ++ ": " ++ prettyAt indent v) :: prettyFields indent rest

end

def pretty (v : Json) : String := prettyAt "" v

end Json

end Workflow
