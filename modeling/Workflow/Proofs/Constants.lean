import Workflow.Program.OfTree
import Workflow.Proofs.Greedy

/-!
How constants are written. Every text has a spelling between quotes, in which five characters are escaped; it is one
token and stands for the text.
-/

namespace Workflow

open Computability

namespace Lexer

variable {c : Char} {taken rest : List Char} {kind : TokenKind}

lemma scanFrom_token (p : Cursor) (h : classify c (taken ++ rest) = (.token kind, taken.length)) :
    scanFrom p (c :: (taken ++ rest)) = .ok ⟨kind, .between p (p.past (c :: taken)), String.ofList (c :: taken)⟩ ::
        scanFrom (p.past (c :: taken)) rest := by
  rw [scanFrom, h]
  simp

lemma scanFrom_nil (p : Cursor) : scanFrom p [] = [] := by rw [scanFrom]

lemma scanFrom_feed (p : Cursor) (rest : List Char) : scanFrom p ('\n' :: rest) =
    .ok ⟨.newline, .between p (p.advance '\n'), "\n"⟩ :: scanFrom (p.advance '\n') rest :=
  scanFrom_token p (rfl : classify '\n' ([] ++ rest) = (.token .newline, [].length))

end Lexer

namespace Quoted

def escapeChar : Char → List Char
  | '\\' => ['\\', '\\']
  | '"' => ['\\', '"']
  | '\n' => ['\\', 'n']
  | '\r' => ['\\', 'r']
  | '\t' => ['\\', 't']
  | c => [c]

def escape (s : List Char) : List Char := s.flatMap escapeChar

/-- How a text is written as a string of a source. -/
def spelling (s : String) : String := String.ofList ('"' :: (escape s.toList ++ ['"']))

lemma escape_cons (c : Char) (s : List Char) : escape (c :: s) = escapeChar c ++ escape s := rfl

lemma unescape_escapeChar (c : Char) (rest : List Char) : unescape (escapeChar c ++ rest) = c :: unescape rest := by
  fun_cases escapeChar c
  case case6 =>
    -- no escape starts here, since the character is no backslash
    rw [List.singleton_append, unescape] <;> (intro; intros; contradiction)
  all_goals rfl

lemma unescape_escape (s : List Char) : unescape (escape s) = s := by
  induction s with
  | nil => rfl
  | cons c s ih => rw [escape_cons, unescape_escapeChar, ih]

lemma escapeChar_mem (c : Char) : escapeChar c ∈ Lexer.stringItem := by
  fun_cases escapeChar c
  case case6 => exact .inl ⟨c, by simp_all, rfl⟩
  all_goals exact .inr (Lexer.mem_sign_mul.2 ⟨_, ⟨_, by decide, rfl⟩, rfl⟩)

lemma escape_mem (s : List Char) : escape s ∈ Lexer.stringItem∗ := by
  induction s with
  | nil => exact Language.nil_mem_kstar _
  | cons c s ih => exact Lexer.append_mem_kstar (escapeChar_mem c) ih

lemma text_spelling (s : String) : Quoted.text (spelling s) = s := by
  have hstrip : strip ['"'] (spelling s).toList = some (escape s.toList) := by
    rw [spelling, String.toList_ofList]
    exact strip_append_append ['"'] _
  rw [Quoted.text, hstrip]
  simp [unescape_escape]

/-- Every text can be written in a source: with a line break behind it, its spelling is one string token that
stands for the text. -/
theorem lex_spelling (s : String) : ∃ t stop, Token.lex (spelling s ++ "\n") = .ok [t, stop] ∧
    t.kind = .string ∧ t.text = spelling s ∧ t.span = ⟨0, Text.byteLength (spelling s).toList, 1, 1⟩ ∧
    stop.kind = .newline ∧ stop.text = "\n" ∧ t.quotedText = s := by
  have hsource : (spelling s ++ "\n").toList = '"' :: ((escape s.toList ++ ['"']) ++ ['\n']) := by simp [spelling]
  have hclass : Lexer.classify '"' ((escape s.toList ++ ['"']) ++ ['\n']) =
      (.token .string, (escape s.toList ++ ['"']).length) := by
    rw [List.append_assoc, List.length_append]
    exact (Lexer.quoted_of_mem (escape_mem s.toList) ['\n']).resolve_right (by simp)
  rw [Token.lex, Token.scan, hsource, Lexer.scanFrom_token {} hclass, Lexer.scanFrom_feed, Lexer.scanFrom_nil]
  refine ⟨_, _, rfl, rfl, rfl, ?_, rfl, rfl, text_spelling s⟩
  simp [-Cursor.past_cons, Span.between, Cursor.offset_past, spelling]

end Quoted

end Workflow
