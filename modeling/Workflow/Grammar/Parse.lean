import Workflow.Grammar.Chart
import Workflow.Grammar.Rules
import Workflow.Token.Lexer
import Workflow.Token.Layout

/-!
From a source text to its derivation: tokens, layout, grammar. Each of the three can fail, and the
first failure is the answer.
-/

namespace Workflow

/-- Why a source has no derivation. -/
inductive ParseError where
  | lex (e : LexError)
  | layout (e : LayoutError)
  /-- A token that no rule can go on with, and what could have stood there. -/
  | unexpectedToken (found : Token) (expected : List String)
  /-- The text stops in the middle of something. -/
  | unexpectedEnd (place : Span) (expected : List String)
  deriving Repr

namespace ParseError

/-- The clause that lists what could have come. -/
def describeExpected : List String → String
  | [] => "expected nothing more"
  | [only] => "expected " ++ only
  | many => "expected one of " ++ ", ".intercalate many

def message : ParseError → String
  | lex e => e.message
  | layout e => e.message
  | unexpectedToken found expected =>
    "unexpected " ++ found.describe ++ ", " ++ describeExpected expected
  | unexpectedEnd _ expected => "unexpected end of input, " ++ describeExpected expected

def span : ParseError → Span
  | lex e => e.span
  | layout e => e.span
  | unexpectedToken found _ => found.span
  | unexpectedEnd place _ => place

end ParseError

def insertText (text : String) : List String → List String
  | [] => [text]
  | other :: rest =>
    if text < other then text :: other :: rest
    else if text = other then other :: rest
    else other :: insertText text rest

/-- The texts of terminals, in increasing order and without repetition. -/
def Terminal.describeAll (terminals : List Terminal) : List String :=
  terminals.foldl (fun texts t => insertText t.describe texts) []

namespace Tree

/-- The derivation of a source from its tokens. No tokens at all are an empty unit. -/
def ofTokens (source : String) (tokens : List Token) : Except ParseError Tree :=
  match tokens with
  | [] => .ok (.node .unit [] ⟨0, 0, 1, 1⟩)
  | _ =>
    match Chart.parse Grammar.rules .unit tokens with
    | .ok tree => .ok tree
    | .error ⟨expected, some t⟩ => .error (.unexpectedToken t (Terminal.describeAll expected))
    | .error ⟨expected, none⟩ =>
      .error (.unexpectedEnd (.here (Text.endOf source)) (Terminal.describeAll expected))

def ofSource (source : String) : Except ParseError Tree :=
  match Token.lex source with
  | .error e => .error (.lex e)
  | .ok raw =>
    match Token.layout source raw with
    | .error e => .error (.layout e)
    | .ok tokens => ofTokens source tokens

end Tree

end Workflow
