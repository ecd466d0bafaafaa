import Workflow.Pattern.Basic
import Workflow.Text.Case

/-!
What patterns match. The match that starts first wins, and of several ends the one that the pattern prefers: the
earlier alternative, the longer greedy repetition, the shorter lazy one. A repetition does not go on from a
place where it has been before, so an empty turn ends it.
-/

namespace Workflow.Pattern

/-- A class of characters. -/
inductive CharClass where
  | set (s : CharSet)
  | empty
  /-- Every character that differs only in case from one of the class. -/
  | folded (c : CharClass)
  | complement (c : CharClass)
  | union (left right : CharClass)
  | inter (left right : CharClass)
  | diff (left right : CharClass)
  | symmDiff (left right : CharClass)
  deriving Repr

def CharClass.contains : CharClass → Char → Bool
  | set s, c => s.contains c
  | empty, _ => false
  | folded k, c => (Text.caseOrbit c).any k.contains
  | complement k, c => !k.contains c
  | union k l, c => k.contains c || l.contains c
  | inter k l, c => k.contains c && l.contains c
  | diff k l, c => k.contains c && !l.contains c
  | symmDiff k l, c => k.contains c != l.contains c

/-- A condition on a place. -/
inductive Look where
  | textStart
  | textEnd
  | lineStart (crlf : Bool)
  | lineEnd (crlf : Bool)
  | boundary (word : CharClass)
  | notBoundary (word : CharClass)
  | wordStart (word : CharClass)
  | wordEnd (word : CharClass)
  | wordStartHalf (word : CharClass)
  | wordEndHalf (word : CharClass)
  deriving Repr

/-- A pattern in which all names and flags are resolved. -/
inductive Regex where
  | empty
  | chars (c : CharClass)
  | look (l : Look)
  | cat (left right : Regex)
  | alt (left right : Regex)
  | repetition (least : Nat) (most : Option Nat) (greedy : Bool) (body : Regex)
  deriving Repr

def charBefore? (text : Array Char) (p : Nat) : Option Char :=
  match p with
  | 0 => none
  | p + 1 => text[p]?

def Look.holds (text : Array Char) (p : Nat) : Look → Bool
  | textStart => p = 0
  | textEnd => p = text.size
  | lineStart false => p = 0 || charBefore? text p = some '\n'
  | lineStart true =>
    p = 0 || charBefore? text p = some '\n'
      || (charBefore? text p = some '\r' && text[p]? ≠ some '\n')
  | lineEnd false => p = text.size || text[p]? = some '\n'
  | lineEnd true =>
    p = text.size || text[p]? = some '\r'
      || (text[p]? = some '\n' && charBefore? text p ≠ some '\r')
  | boundary word => (charBefore? text p).any word.contains != (text[p]?).any word.contains
  | notBoundary word => (charBefore? text p).any word.contains == (text[p]?).any word.contains
  | wordStart word => !(charBefore? text p).any word.contains && (text[p]?).any word.contains
  | wordEnd word => (charBefore? text p).any word.contains && !(text[p]?).any word.contains
  | wordStartHalf word => !(charBefore? text p).any word.contains
  | wordEndHalf word => !(text[p]?).any word.contains

/-- Places in order of preference, while they are being found. -/
structure Trail where
  /-- Places that count as ends, the last one first. -/
  found : List Nat := []
  /-- The set of these places, as a number with one bit for each. -/
  ended : Nat := 0
  /-- Places where a repetition has been, as a number with one bit for each. -/
  visited : Nat := 0

namespace Trail

def note (t : Trail) (p : Nat) : Trail :=
  if t.ended.testBit p then t else { t with found := p :: t.found, ended := t.ended ||| (1 <<< p) }

/-- Notes that a repetition has been at a place. -/
def enter (t : Trail) (key : Nat) : Trail := { t with visited := t.visited ||| (1 <<< key) }

def ends (t : Trail) : List Nat := t.found.reverse

end Trail

/-- Places without repetitions; the first of equal places stays. -/
def distinct (places : List Nat) : List Nat := (places.foldl Trail.note {}).ends

def thenEach (next : Nat → List Nat) (places : List Nat) : List Nat :=
  distinct (places.flatMap next)

def turns (body : Nat → List Nat) : Nat → List Nat → List Nat
  | 0, places => places
  | _ + 1, [] => []
  | n + 1, places => turns body n (thenEach body places)

/-- One turn or more from a place. A turn that starts where one has started before adds nothing. -/
def oneOrMore (body : Nat → List Nat) (greedy : Bool) : Nat → Trail → Nat → Trail
  | 0, t, _ => t
  | n + 1, t, p =>
    if t.visited.testBit p then t
    else
      (body p).foldl (fun t e =>
        if greedy then (oneOrMore body greedy n t e).note e
        else oneOrMore body greedy n (t.note e) e) (t.enter p)

def atMost (body : Nat → List Nat) (greedy : Bool) (width : Nat) : Nat → Trail → Nat → Trail
  | 0, t, p => t.note p
  | n + 1, t, p =>
    if t.visited.testBit (n * width + p) then t
    else
      let t := t.enter (n * width + p)
      let t := if greedy then t else t.note p
      let t := (body p).foldl (atMost body greedy width n) t
      if greedy then t.note p else t

/-- The ends of a repetition that starts at a place of a text with a given length. -/
def repeated (length : Nat) (body : Nat → List Nat) (least : Nat) (most : Option Nat)
    (greedy : Bool) (p : Nat) : List Nat :=
  match least, most with
  | 0, none =>
    let start : Trail := if greedy then {} else ({} : Trail).note p
    let t := oneOrMore body greedy (length + 2) start p
    (t.note p).ends
  | n + 1, none =>
    thenEach (fun q => (oneOrMore body greedy (length + 2) {} q).ends) (turns body n [p])
  | n, some m =>
    thenEach (fun q => (atMost body greedy (length + 1) (m - n) {} q).ends) (turns body n [p])

def Regex.ends (text : Array Char) : Regex → Nat → List Nat
  | empty, p => [p]
  | chars k, p =>
    match text[p]? with
    | some c => if k.contains c then [p + 1] else []
    | none => []
  | look l, p => if l.holds text p then [p] else []
  | cat r s, p => thenEach (s.ends text) (r.ends text p)
  | alt r s, p => distinct (r.ends text p ++ s.ends text p)
  | repetition least most greedy body, p =>
    repeated text.size (body.ends text) least most greedy p

/-- The first match that starts at a place or behind it; the first argument counts the places. -/
def Regex.findFrom (r : Regex) (text : Array Char) : Nat → Nat → Option (Nat × Nat)
  | 0, _ => none
  | n + 1, p =>
    match r.ends text p with
    | e :: _ => some (p, e)
    | [] => r.findFrom text n (p + 1)

/-- The first match that starts at a place or behind it. -/
def Regex.find? (r : Regex) (text : Array Char) (start : Nat) : Option (Nat × Nat) :=
  r.findFrom text (text.size + 1 - start) start

def Regex.isMatch (r : Regex) (text : String) : Bool := (r.find? text.toList.toArray 0).isSome

/-- The matches from a place on, none of which overlap. An empty match does not stand right behind `last`, the
end of the match before. -/
def Regex.matchesFrom (r : Regex) (text : Array Char) : Nat → Option Nat → Nat → List (Nat × Nat)
  | 0, _, _ => []
  | n + 1, last, p =>
    match r.find? text p with
    | none => []
    | some (s, e) =>
      if s = e ∧ last = some e then r.matchesFrom text n none (p + 1)
      else (s, e) :: r.matchesFrom text n (some e) e

def Regex.matches (r : Regex) (text : Array Char) : List (Nat × Nat) :=
  r.matchesFrom text (2 * text.size + 2) none 0

def spliceFrom (text : Array Char) (mark : List Char) (p : Nat) : List (Nat × Nat) → List Char
  | [] => (text.extract p text.size).toList
  | (s, e) :: rest => (text.extract p s).toList ++ mark ++ spliceFrom text mark e rest

def Regex.replaceAll (r : Regex) (text replacement : String) : String :=
  let chars := text.toList.toArray
  String.ofList (spliceFrom chars replacement.toList 0 (r.matches chars))

end Workflow.Pattern
