import Workflow.Text.Blank
import Workflow.Text.Position

/-!
The texts that string tokens stand for. A string in single quotes may hold escapes; a string in
triple quotes is taken as it is, without the indentation that its lines have in common.
-/

namespace Workflow.Quoted

/-- A text without a leading and a trailing part, if it has both. -/
def strip (mark text : List Char) : Option (List Char) :=
  if mark.isPrefixOf text then
    let behind := text.drop mark.length
    if mark.isSuffixOf behind then some (behind.take (behind.length - mark.length)) else none
  else none

@[simp] theorem strip_append_append (mark body : List Char) : strip mark (mark ++ (body ++ mark)) = some body := by
  simp [strip]

/-- Replaces escapes by the characters they stand for; a backslash in front of any other character
stays. -/
def unescape : List Char → List Char
  | [] => []
  | '\\' :: 'n' :: rest => '\n' :: unescape rest
  | '\\' :: 't' :: rest => '\t' :: unescape rest
  | '\\' :: 'r' :: rest => '\r' :: unescape rest
  | '\\' :: '"' :: rest => '"' :: unescape rest
  | '\\' :: '\\' :: rest => '\\' :: unescape rest
  | '\\' :: c :: rest => '\\' :: c :: unescape rest
  | c :: rest => c :: unescape rest

def text (raw : String) : String :=
  String.ofList (unescape ((strip ['"'] raw.toList).getD raw.toList))

def dropBreak : List Char → List Char
  | '\r' :: '\n' :: rest => rest
  | '\n' :: rest => rest
  | s => s

/-- The lines of a block, the empty one behind a last line break included. -/
def blockLines (body : List Char) : List (List Char) :=
  Text.lines body ++ if body.getLast? = some '\n' then [[]] else []

def dropBlankEnd (lines : List (List Char)) : List (List Char) :=
  match lines.getLast? with
  | some last => if Text.isBlank last then lines.dropLast else lines
  | none => lines

/-- Bytes of white space at the front of a line. -/
def margin (line : List Char) : Nat := Text.byteLength (line.takeWhile Text.isSpace)

def commonMargin (lines : List (List Char)) : Nat :=
  (((lines.filter fun l => !Text.isBlank l).map margin).min?).getD 0

/-- A line without a margin. A line that is too short, or whose margin ends inside a character, becomes empty. -/
def cutMargin (margin : Nat) (line : List Char) : List Char :=
  Text.trimEnd (· = '\r') ((Text.dropBytes margin line).getD [])

/-- The text of a token in triple quotes, without the first line break, a blank last line and the margin that
all lines share. -/
def block (raw : String) : String :=
  let body := dropBreak ((strip ['"', '"', '"'] raw.toList).getD raw.toList)
  let lines := dropBlankEnd (blockLines body)
  let cut := lines.map (cutMargin (commonMargin lines))
  "\n".intercalate (cut.map String.ofList)

end Workflow.Quoted
