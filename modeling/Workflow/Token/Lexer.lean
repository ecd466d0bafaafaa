import Workflow.Token.Basic

/-!
From characters to tokens. At each place the longest stretch that forms a token is taken; blanks and comments
are dropped, and characters that form no token are reported and skipped. A string that is never closed is one
error that covers all of its body that could be read.
-/

namespace Workflow

/-- Characters that form no token. -/
structure LexError where
  span : Span
  text : String
  deriving DecidableEq, Repr

def LexError.message (e : LexError) : String := "unexpected character(s) '" ++ e.text ++ "'"

namespace Lexer

/-- What a stretch of characters is. -/
inductive Class where
  | skipped
  | token (kind : TokenKind)
  | invalid
  deriving DecidableEq, Repr

def isBlank (c : Char) : Bool := c = ' ' || c = '\t' || c = '\x0c'

def isNameStart (c : Char) : Bool := c.isAlpha || c = '_'

def isNamePart (c : Char) : Bool := c.isAlphanum || c = '_'

/-- Number of characters at the front that pass a test. -/
def run (test : Char → Bool) (s : List Char) : Nat := (s.takeWhile test).length

/-- Whether a string body is closed, and how many characters it has with its closing quote. -/
def stringBody : List Char → Bool × Nat
  | [] => (false, 0)
  | '"' :: _ => (true, 1)
  | '\n' :: _ => (false, 0)
  | ['\\'] => (false, 0)
  | '\\' :: '\n' :: _ => (false, 0)
  | '\\' :: _ :: rest => let (closed, n) := stringBody rest; (closed, n + 2)
  | _ :: rest => let (closed, n) := stringBody rest; (closed, n + 1)

/-- Whether the body of a triple-quoted string is closed, and its length with the closing quotes. -/
def tripleBody : List Char → Bool × Nat
  | [] => (false, 0)
  | '"' :: '"' :: '"' :: _ => (true, 3)
  | '"' :: '"' :: _ :: rest => let (closed, n) := tripleBody rest; (closed, n + 3)
  | ['"', '"'] => (false, 0)
  | '"' :: _ :: rest => let (closed, n) := tripleBody rest; (closed, n + 2)
  | ['"'] => (false, 0)
  | _ :: rest => let (closed, n) := tripleBody rest; (closed, n + 1)

/-- What starts with a quote, and the number of characters behind the quote that belong to it. -/
def quoted : List Char → Class × Nat
  | '"' :: '"' :: rest =>
    let (closed, n) := tripleBody rest
    (if closed then .token .tripleString else .invalid, n + 2)
  | rest =>
    let (closed, n) := stringBody rest
    (if closed then .token .string else .invalid, n)

/-- What starts with a digit: a float has digits on both sides of its point. -/
def numeric (rest : List Char) : Class × Nat :=
  let whole := run Char.isDigit rest
  match rest.drop whole with
  | '.' :: behind =>
    let fraction := run Char.isDigit behind
    if fraction = 0 then (.token .int, whole) else (.token .float, whole + 1 + fraction)
  | _ => (.token .int, whole)

/-- What starts with a character, and the number of characters behind it that belong to it. -/
def classify (c : Char) (rest : List Char) : Class × Nat :=
  if isBlank c then (.skipped, run isBlank rest)
  else if isNameStart c then (.token .ident, run isNamePart rest)
  else if c.isDigit then numeric rest
  else
    match c, rest with
    | '#', _ => (.skipped, run (· ≠ '\n') rest)
    | '"', _ => quoted rest
    | '$', d :: _ => if isNameStart d then (.token .var, run isNamePart rest) else (.invalid, 0)
    | '\n', _ => (.token .newline, 0)
    | '\r', '\n' :: _ => (.token .newline, 1)
    | '-', '>' :: _ => (.token .arrow, 1)
    | '=', '=' :: _ => (.token .eqEq, 1)
    | '!', '=' :: _ => (.token .notEq, 1)
    | '<', '=' :: _ => (.token .ltEq, 1)
    | '>', '=' :: _ => (.token .gtEq, 1)
    | '-', _ => (.token .minus, 0)
    | '=', _ => (.token .eq, 0)
    | '<', _ => (.token .lt, 0)
    | '>', _ => (.token .gt, 0)
    | '~', _ => (.token .tilde, 0)
    | '+', _ => (.token .plus, 0)
    | '?', _ => (.token .question, 0)
    | ':', _ => (.token .colon, 0)
    | ',', _ => (.token .comma, 0)
    | '.', _ => (.token .dot, 0)
    | '(', _ => (.token .lParen, 0)
    | ')', _ => (.token .rParen, 0)
    | '[', _ => (.token .lBracket, 0)
    | ']', _ => (.token .rBracket, 0)
    | '\x7b', _ => (.token .lBrace, 0)
    | '\x7d', _ => (.token .rBrace, 0)
    | _, _ => (.invalid, 0)

def scanFrom (p : Cursor) (text : List Char) : List (Except LexError Token) :=
  match text with
  | [] => []
  | c :: rest =>
    let found := classify c rest
    let taken := c :: rest.take found.2
    let q := p.past taken
    let later := scanFrom q (rest.drop found.2)
    match found.1 with
    | .skipped => later
    | .token kind => .ok ⟨kind, .between p q, String.ofList taken⟩ :: later
    | .invalid => .error ⟨.between p q, String.ofList taken⟩ :: later
termination_by text.length
decreasing_by simp only [List.length_cons, List.length_drop]; omega

end Lexer

def Token.scan (source : String) : List (Except LexError Token) :=
  Lexer.scanFrom {} source.toList

def Token.lex (source : String) : Except LexError (List Token) := (Token.scan source).mapM id

end Workflow
