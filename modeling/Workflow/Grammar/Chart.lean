import Std.Data.TreeSet
import Workflow.Grammar.Tree

/-!
Chart parsing. For each place between two tokens a column lists the items that are under way there: the trees of
the part of a rule that has been read, the symbols to come, and the place where the rule began. A column is
closed under prediction of rules and completion of finished items. No rule has an empty body, so an item that is
finished began at an earlier place.
-/

namespace Workflow

/-- A rule under way. -/
structure Item where
  /-- Number of the rule in the grammar. -/
  rule : Nat
  head : Nonterminal
  /-- Trees of the symbols that have been read, the last one first. -/
  done : List Tree
  todo : List Symbol
  /-- The place at which the rule began. -/
  origin : Nat

namespace Item

/-- Items with the same key differ at most in their trees. -/
def key (i : Item) : Nat × Nat × Nat := (i.rule, i.todo.length, i.origin)

def tree (i : Item) : Tree := .form i.head i.done.reverse

def advance (i : Item) (t : Tree) : Item := { i with done := t :: i.done, todo := i.todo.tail }

def awaits (phrase : Nonterminal) (i : Item) : Bool := i.todo.head? = some (.sub phrase)

def terminal? (i : Item) : Option Terminal :=
  match i.todo with
  | .terminal t :: _ => some t
  | _ => none

end Item

namespace Chart

def rulesOf (rules : List Rule) (phrase : Nonterminal) : List (Rule × Nat) :=
  rules.zipIdx.filter fun (r, _) => r.head = phrase

def predict (rules : List Rule) (place : Nat) (phrase : Nonterminal) : List Item :=
  (rulesOf rules phrase).map fun (r, n) => ⟨n, r.head, [], r.body, place⟩

def complete (columns : Array (List Item)) (i : Item) : List Item :=
  let tree := i.tree
  ((columns[i.origin]?).getD []).filterMap fun parent =>
    if parent.awaits i.head then some (parent.advance tree) else none

def consequences (rules : List Rule) (columns : Array (List Item)) (place : Nat) (i : Item) : List Item :=
  match i.todo with
  | [] => complete columns i
  | .sub phrase :: _ => predict rules place phrase
  | .terminal _ :: _ => []

/-- Keys go by their rule, then by what is left of it, then by the place of its beginning. -/
def keyOrder : Nat × Nat × Nat → Nat × Nat × Nat → Ordering := (@lexOrd _ _ _ lexOrd).compare

/-- A column under construction: its items, and their keys. -/
structure Column where
  items : List Item := []
  keys : Std.TreeSet (Nat × Nat × Nat) keyOrder := {}

/-- Puts an item into a column and the queue, unless the column has its like. -/
def Column.add (state : Column × List Item) (i : Item) : Column × List Item :=
  let (column, queue) := state
  if column.keys.contains i.key then state
  else (⟨i :: column.items, column.keys.insert i.key⟩, i :: queue)

/-- Closes a column, taking the items of the queue one by one. Each has a key of its own, which bounds the
rounds. -/
def close (rules : List Rule) (columns : Array (List Item)) (place : Nat) : Nat → Column → List Item → Column
  | 0, column, _ => column
  | _ + 1, column, [] => column
  | n + 1, column, i :: queue =>
    let (column, queue) :=
      (consequences rules columns place i).foldl Column.add (column, queue)
    close rules columns place n column queue

/-- Number of keys that a column at a place can have. -/
def keyCount (rules : List Rule) (place : Nat) : Nat :=
  rules.foldl (fun n r => n + (r.body.length + 1)) 0 * (place + 1)

def column (rules : List Rule) (columns : Array (List Item)) (place : Nat) (start : List Item) : List Item :=
  let (column, queue) := start.foldl Column.add ({}, [])
  (close rules columns place (keyCount rules place + 1) column queue).items

def scan (t : Token) (items : List Item) : List Item :=
  items.filterMap fun i =>
    match i.terminal? with
    | some terminal => if terminal.accepts t then some (i.advance (terminal.leaf t)) else none
    | none => none

/-- A text that is no sentence: the terminals that could have come next, and the token that came instead, if
any. -/
structure Stuck where
  expected : List Terminal
  found : Option Token

def expected (items : List Item) : List Terminal := items.filterMap Item.terminal?

def advance (rules : List Rule) (columns : Array (List Item)) (current : List Item) :
    List Token → Except Stuck (List Item)
  | [] => .ok current
  | t :: rest =>
    match scan t current with
    | [] => .error ⟨expected current, some t⟩
    | moved =>
      let columns := columns.push current
      advance rules columns (column rules columns columns.size moved) rest

def parse (rules : List Rule) (phrase : Nonterminal) (tokens : List Token) : Except Stuck Tree := do
  let last ← advance rules #[] (column rules #[] 0 (predict rules 0 phrase)) tokens
  match last.find? fun i => i.todo.isEmpty && i.head = phrase && i.origin = 0 with
  | some i => pure i.tree
  | none => .error ⟨expected last, none⟩

end Chart

end Workflow
