/-!
Places in a source text. Offsets count UTF-8 bytes from the start of the text, lines and columns
count from one, and columns count characters. A `Cursor` is a place reached by reading characters
one after the other; the position of an offset is that of the cursor that reaches it.
-/

namespace Workflow

/-- A place in a text: byte offset, line, and column in characters. -/
structure Cursor where
  offset : Nat := 0
  line : Nat := 1
  column : Nat := 1
  deriving DecidableEq, Repr

namespace Cursor

def advance (p : Cursor) (c : Char) : Cursor :=
  if c = '\n' then ⟨p.offset + 1, p.line + 1, 1⟩
  else ⟨p.offset + c.utf8Size, p.line, p.column + 1⟩

def past (p : Cursor) (text : List Char) : Cursor := text.foldl advance p

@[simp] theorem past_nil (p : Cursor) : p.past [] = p := rfl

@[simp] theorem past_cons (p : Cursor) (c : Char) (text : List Char) :
    p.past (c :: text) = (p.advance c).past text := rfl

theorem past_append (p : Cursor) (s t : List Char) : p.past (s ++ t) = (p.past s).past t := by
  simp [past, List.foldl_append]

end Cursor

/-- A stretch of source text, with the line and column of its start. -/
structure Span where
  start : Nat
  stop : Nat
  line : Nat
  column : Nat
  deriving DecidableEq, Repr, Inhabited

namespace Span

def between (p q : Cursor) : Span := ⟨p.offset, q.offset, p.line, p.column⟩

def here (p : Cursor) : Span := between p p

def merge (a b : Span) : Span :=
  let first := if b.start < a.start then b else a
  ⟨min a.start b.start, max a.stop b.stop, first.line, first.column⟩

def length (s : Span) : Nat := s.stop - s.start

def isEmpty (s : Span) : Bool := s.stop ≤ s.start

end Span

/-- A piece of a program together with the stretch of text it was read from. -/
structure Spanned (α : Type) where
  node : α
  span : Span
  deriving DecidableEq, Repr

namespace Text

def byteLength (text : List Char) : Nat := text.foldl (fun n c => n + c.utf8Size) 0

@[simp] theorem byteLength_nil : byteLength [] = 0 := rfl

@[simp] theorem byteLength_append (s t : List Char) : byteLength (s ++ t) = byteLength s + byteLength t := by
  have hfrom : ∀ (t : List Char) (n : Nat), t.foldl (fun n c => n + c.utf8Size) n = n + byteLength t := by
    intro t
    induction t with
    | nil => exact fun _ => rfl
    | cons c t ih =>
      intro n
      rw [byteLength, List.foldl_cons, List.foldl_cons, ih, ih (0 + _)]
      omega
  rw [byteLength, List.foldl_append, hfrom]
  rfl

@[simp] theorem byteLength_cons (c : Char) (s : List Char) : byteLength (c :: s) = c.utf8Size + byteLength s := by
  rw [← List.singleton_append, byteLength_append, byteLength, List.foldl_cons, List.foldl_nil, Nat.zero_add]

/-- Line and column of an offset, reading on from a place at or before it. Inside a character the column stays
at one. -/
def positionFrom (p : Cursor) (offset : Nat) : List Char → Nat × Nat
  | [] => (p.line, p.column)
  | c :: rest =>
    if offset ≤ p.offset then (p.line, p.column)
    else if offset < p.offset + c.utf8Size then (p.line, 1)
    else positionFrom (p.advance c) offset rest

def position (text : String) (offset : Nat) : Nat × Nat := positionFrom {} offset text.toList

/-- Number of lines; a text that ends in a line break has an empty last line. -/
def lineCount (text : String) : Nat := 1 + (text.toList.filter (· = '\n')).length

def endOf (text : String) : Cursor := ({} : Cursor).past text.toList

/-- What is left after a number of bytes, if a character starts there. -/
def dropBytes : Nat → List Char → Option (List Char)
  | 0, text => some text
  | _ + 1, [] => none
  | n + 1, c :: rest => if c.utf8Size ≤ n + 1 then dropBytes (n + 1 - c.utf8Size) rest else none

theorem dropBytes_eq_some_iff {n : Nat} {text rest : List Char} :
    dropBytes n text = some rest ↔ ∃ front, text = front ++ rest ∧ byteLength front = n := by
  fun_induction dropBytes n text with
  | case1 text =>
    constructor
    · rintro ⟨⟩
      exact ⟨[], rfl, rfl⟩
    · rintro ⟨front, rfl, hfront⟩
      cases front with
      | nil => rfl
      | cons c front =>
        have := c.utf8Size_pos
        rw [byteLength_cons] at hfront
        omega
  | case2 n =>
    constructor
    · nofun
    · rintro ⟨front, heq, hfront⟩
      have hnil := List.append_eq_nil_iff.1 heq.symm
      rw [hnil.1] at hfront
      cases hfront
  | case3 n c text hle ih =>
    rw [ih]
    constructor
    · rintro ⟨front, rfl, hfront⟩
      exact ⟨c :: front, rfl, by rw [byteLength_cons, hfront, Nat.add_sub_cancel' hle]⟩
    · rintro ⟨front, heq, hfront⟩
      cases front with
      | nil => cases hfront
      | cons d front =>
        cases heq
        rw [byteLength_cons] at hfront
        exact ⟨front, rfl, by omega⟩
  | case4 n c text hle =>
    constructor
    · nofun
    · rintro ⟨front, heq, hfront⟩
      cases front with
      | nil => cases hfront
      | cons d front =>
        cases heq
        rw [byteLength_cons] at hfront
        omega

/-- The first characters, as many as make up a number of bytes. -/
def takeBytes : Nat → List Char → Option (List Char)
  | 0, _ => some []
  | _ + 1, [] => none
  | n + 1, c :: rest =>
    if c.utf8Size ≤ n + 1 then (takeBytes (n + 1 - c.utf8Size) rest).map (c :: ·) else none

/-- The text between two offsets, if both are borders of characters in the right order. -/
def slice? (text : List Char) (start stop : Nat) : Option (List Char) :=
  if start ≤ stop then (dropBytes start text).bind (takeBytes (stop - start)) else none

end Text

namespace Cursor

theorem offset_past (p : Cursor) (text : List Char) : (p.past text).offset = p.offset + Text.byteLength text := by
  induction text generalizing p with
  | nil => rfl
  | cons c text ih =>
    have hadvance : (p.advance c).offset = p.offset + c.utf8Size := by
      unfold advance
      split
      · next hc => rw [hc]; rfl
      · rfl
    rw [past_cons, ih, hadvance, Text.byteLength_cons, Nat.add_assoc]

end Cursor

end Workflow
