import Workflow.Token.Basic

/-!
Layout: the indentation of lines becomes tokens. A line that is wider than the block it follows opens a block, a
narrower line closes blocks until its width is that of an enclosing one. Inside brackets lines have no meaning.
-/

namespace Workflow

/-- Why the indentation of a line makes no sense. -/
inductive LayoutError where
  /-- The first line of the text is indented. -/
  | unexpectedIndent (span : Span)
  /-- A line is narrower than its block and as wide as no enclosing one. -/
  | mismatch (span : Span) (width : Nat)
  deriving DecidableEq, Repr

namespace LayoutError

def message : LayoutError → String
  | unexpectedIndent _ => "unexpected indentation"
  | mismatch _ width =>
    "unindent to column " ++ toString width ++ " does not match any outer indentation level"

def span : LayoutError → Span
  | unexpectedIndent span => span
  | mismatch span _ => span

end LayoutError

namespace Layout

/-- A tab leads to the next multiple of this width. -/
def tabWidth : Nat := 4

def width (blanks : List Char) : Nat :=
  blanks.foldl (fun w c =>
    if c = '\t' then (w / tabWidth + 1) * tabWidth else if c = ' ' then w + 1 else w) 0

/-- What is known between two tokens. -/
structure State where
  /-- Widths of the open blocks, the innermost first; the text itself has width zero. -/
  levels : List Nat := []
  /-- Number of open brackets. -/
  groups : Nat := 0
  /-- No token of the current line has been seen. -/
  fresh : Bool := true
  /-- Offset at which the current line starts. -/
  lineStart : Nat := 0
  /-- Some token has been written. -/
  started : Bool := false

def State.current (s : State) : Nat := s.levels.headD 0

/-- Block tokens in front of the first token of a line, and the blocks that are open behind them. -/
def open? (source : List Char) (s : State) (t : Token) : Except LayoutError (List Token × List Nat) :=
  let w := width ((Text.slice? source s.lineStart t.span.start).getD [])
  if s.current < w then
    if s.started then .ok ([.synthetic .indent t.span], w :: s.levels)
    else .error (.unexpectedIndent t.span)
  else if w < s.current then
    let kept := s.levels.dropWhile (w < ·)
    if kept.headD 0 = w then
      .ok (List.replicate (s.levels.length - kept.length) (.synthetic .dedent t.span), kept)
    else .error (.mismatch t.span w)
  else .ok ([], s.levels)

def groupsAfter (groups : Nat) (kind : TokenKind) : Nat :=
  if kind.opensGroup then groups + 1 else if kind.closesGroup then groups - 1 else groups

def arrange (source : List Char) (finish : Span) (s : State) : List Token → Except LayoutError (List Token)
  | [] =>
    let close := List.replicate s.levels.length (Token.synthetic .dedent finish)
    .ok (if s.fresh then close else .synthetic .newline finish :: close)
  | t :: rest =>
    if t.kind = .newline then
      if 0 < s.groups then arrange source finish s rest
      else if s.fresh then arrange source finish { s with lineStart := t.span.stop } rest
      else do
        let later ← arrange source finish { s with fresh := true, lineStart := t.span.stop } rest
        pure (t :: later)
    else if s.fresh && s.groups == 0 then do
      let (blocks, levels) ← open? source s t
      let later ← arrange source finish
        { s with levels, groups := groupsAfter s.groups t.kind, fresh := false, started := true } rest
      pure (blocks ++ t :: later)
    else do
      let later ← arrange source finish { s with groups := groupsAfter s.groups t.kind, started := true } rest
      pure (t :: later)

end Layout

def Token.layout (source : String) (tokens : List Token) : Except LayoutError (List Token) :=
  Layout.arrange source.toList (.here (Text.endOf source)) {} tokens

end Workflow
