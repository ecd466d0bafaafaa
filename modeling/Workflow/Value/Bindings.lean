import Workflow.Value.Basic

/-!
Variables of one invocation. Locals hide globals, and writing always goes to the locals: a global
that is changed in part is copied first, and the copy stays even when the change then fails.
-/

namespace Workflow

/-- Variables of an invocation and the globals behind them. -/
structure Bindings where
  locals : Table Json := []
  globals : Table Json := []

namespace Bindings

def get? (b : Bindings) (name : String) : Option Json :=
  match b.locals.get? name with
  | some v => some v
  | none => b.globals.get? name

def contains (b : Bindings) (name : String) : Bool := (b.get? name).isSome

def get (b : Bindings) (name : String) : Except ValueError Json :=
  match b.get? name with
  | some v => .ok v
  | none => .error (.undefined name)

def getPath (b : Bindings) (name : String) (path : List String) : Except ValueError Json := do
  Json.lookup ("$" ++ name) (← b.get name) path

def set (b : Bindings) (name : String) (v : Json) : Bindings := { b with locals := b.locals.insert name v }

def erase (b : Bindings) (name : String) : Bindings := { b with locals := b.locals.erase name }

/-- Changes the local value of a variable, which starts as a copy of the global one. -/
def change (b : Bindings) (name : String) (f : Json → Except ValueError Json) : Bindings × Except ValueError Unit :=
  match b.get? name with
  | none => (b, .error (.undefined name))
  | some v => match f v with
    | .ok new => (b.set name new, .ok ())
    | .error e => (b.set name v, .error e)

def setPath (b : Bindings) (name : String) (path : List String) (v : Json) : Bindings × Except ValueError Unit :=
  if path.isEmpty then (b.set name v, .ok ())
  else b.change name fun root => Json.assign ("$" ++ name) v root path

/-- Appends to a list; a variable without a value becomes a list of one item. -/
def push (b : Bindings) (name : String) (v : Json) : Bindings × Except ValueError Unit :=
  if b.contains name then
    b.change name fun
      | .arr items => .ok (.arr (items ++ [v]))
      | other => .error (.typeMismatch ("$" ++ name) "a list" other.typeName)
  else (b.set name (.arr [v]), .ok ())

def visible (b : Bindings) : Table Json := b.globals.override b.locals

end Bindings

end Workflow
