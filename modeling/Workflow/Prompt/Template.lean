import Workflow.Value.Basic

/-!
Templates: texts with placeholders `$name` and `$name.a.b`. A placeholder is as long as it can be.
A template is a row of plain characters and placeholders; rendering puts the text of a value in
place of each placeholder that has one and leaves the others as they are.
-/

namespace Workflow

/-- A character of a template, or a placeholder in it. -/
inductive Piece where
  | char (c : Char)
  | placeholder (name : String) (path : List String)
  deriving DecidableEq, Repr

namespace Piece

def source : Piece → String
  | char c => String.singleton c
  | placeholder name path => "$" ++ ".".intercalate (name :: path)

def startsName (c : Char) : Bool := c.isAlpha || c = '_'

def inName (c : Char) : Bool := c.isAlphanum || c = '_'

def takeName? : List Char → Option (String × List Char)
  | [] => none
  | c :: rest =>
    if startsName c then some (String.ofList (c :: rest.takeWhile inName), rest.dropWhile inName) else none

theorem length_dropWhile_le {α : Type} (p : α → Bool) : ∀ l : List α, (l.dropWhile p).length ≤ l.length
  | [] => by simp
  | a :: l => by
    unfold List.dropWhile
    split
    · exact Nat.le_succ_of_le (length_dropWhile_le p l)
    · exact Nat.le_refl _

theorem takeName?_shorter : ∀ {text : List Char} {name : String} {rest : List Char},
    takeName? text = some (name, rest) → rest.length < text.length
  | [], _, _, h => by simp [takeName?] at h
  | c :: text, name, rest, h => by
    have kept : text.dropWhile inName = rest := by
      cases hc : startsName c <;> simp_all [takeName?]
    exact kept ▸ Nat.lt_succ_of_le (length_dropWhile_le inName text)

/-- The keys `.a.b…` a text begins with, and the text after them. -/
def takeKeys (text : List Char) : List String × { rest : List Char // rest.length ≤ text.length } :=
  match text with
  | '.' :: after =>
    match h : takeName? after with
    | some (key, rest) =>
      have shorter := takeName?_shorter h
      let (keys, last) := takeKeys rest
      (key :: keys, ⟨last.1, Nat.le_trans last.2 (Nat.le_succ_of_le (Nat.le_of_lt shorter))⟩)
    | none => ([], ⟨'.' :: after, Nat.le_refl _⟩)
  | other => ([], ⟨other, Nat.le_refl _⟩)
termination_by text.length
decreasing_by simp only [List.length_cons]; omega

def ofText (text : List Char) : List Piece :=
  match text with
  | [] => []
  | c :: after =>
    if c = '$' then
      match h : takeName? after with
      | some (name, rest) =>
        have := takeName?_shorter h
        let (keys, last) := takeKeys rest
        have := last.2
        placeholder name keys :: ofText last.1
      | none => char c :: ofText after
    else char c :: ofText after
termination_by text.length
decreasing_by all_goals simp only [List.length_cons]; omega

def value? (bindings : Table Json) : Piece → Option Json
  | char _ => none
  | placeholder name path => (bindings.get? name).bind fun v => v.property? path

/-- The text of the piece once values are put in. -/
def fill (bindings : Table Json) (p : Piece) : String :=
  match p.value? bindings with
  | some v => v.plainText
  | none => p.source

def isOpen (bindings : Table Json) : Piece → Bool
  | char _ => false
  | p => (p.value? bindings).isNone

end Piece

/-- A template with values put in. -/
structure Rendered where
  text : String
  /-- Number of placeholders that had a value. -/
  substitutions : Nat
  /-- Placeholders without a value, as they are written. -/
  unresolved : List String
  deriving Repr

namespace Template

def render (template : String) (bindings : Table Json) : Rendered :=
  let pieces := Piece.ofText template.toList
  { text := String.join (pieces.map (·.fill bindings))
    substitutions := (pieces.filter fun p => (p.value? bindings).isSome).length
    unresolved := (pieces.filter (·.isOpen bindings)).map (·.source) }

def mentions (template name : String) : Bool :=
  (Piece.ofText template.toList).any fun
    | .char _ => false
    | .placeholder n _ => n = name

end Template

end Workflow
