import Workflow.Text.Position

/-!
Tokens of a workflow source. Keywords are no kind of their own: a word is an identifier, and the
grammar decides where it acts as a keyword, so every word stays usable as a name.
-/

namespace Workflow

/-- Kinds of tokens. `indent` and `dedent` come from the layout of the lines. -/
inductive TokenKind where
  | ident
  | var
  | string
  | tripleString
  | int
  | float
  | arrow
  | eq
  | eqEq
  | notEq
  | lt
  | ltEq
  | gt
  | gtEq
  | tilde
  | plus
  | minus
  | question
  | colon
  | comma
  | dot
  | lParen
  | rParen
  | lBracket
  | rBracket
  | lBrace
  | rBrace
  | newline
  | indent
  | dedent
  deriving DecidableEq, Repr, Hashable

namespace TokenKind

def describe : TokenKind → String
  | ident => "identifier"
  | var => "variable"
  | string => "string literal"
  | tripleString => "triple-quoted string"
  | int => "integer"
  | float => "float"
  | arrow => "'->'"
  | eq => "'='"
  | eqEq => "'=='"
  | notEq => "'!='"
  | lt => "'<'"
  | ltEq => "'<='"
  | gt => "'>'"
  | gtEq => "'>='"
  | tilde => "'~'"
  | plus => "'+'"
  | minus => "'-'"
  | question => "'?'"
  | colon => "':'"
  | comma => "','"
  | dot => "'.'"
  | lParen => "'('"
  | rParen => "')'"
  | lBracket => "'['"
  | rBracket => "']'"
  | lBrace => "'\x7b'"
  | rBrace => "'\x7d'"
  | newline => "newline"
  | indent => "indented block"
  | dedent => "end of block"

/-- Opening brackets suspend layout until they are closed. -/
def opensGroup : TokenKind → Bool
  | lParen | lBracket | lBrace => true
  | _ => false

def closesGroup : TokenKind → Bool
  | rParen | rBracket | rBrace => true
  | _ => false

end TokenKind

/-- A token: its kind, its place, and the characters it was read from. -/
structure Token where
  kind : TokenKind
  span : Span
  text : String
  deriving DecidableEq, Repr

namespace Token

def synthetic (kind : TokenKind) (span : Span) : Token :=
  ⟨kind, ⟨span.start, span.start, span.line, span.column⟩, ""⟩

/-- How a token that was not expected is named in a message. -/
def describe (t : Token) : String :=
  match t.kind with
  | .ident => "'" ++ t.text ++ "'"
  | .var => "variable '" ++ t.text ++ "'"
  | kind => kind.describe

end Token

end Workflow
