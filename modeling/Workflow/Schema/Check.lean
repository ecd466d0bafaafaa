import Workflow.Listing.Spec
import Workflow.Schema.Extract

/-!
Structured answers against a schema: the schema in the words of JSON Schema, the shape that is shown
to a model, and the violations of a value in a fixed order: those of the fields by name, then the
required fields that are missing, in the order of their declaration.
-/

namespace Workflow

/-- What is wrong at some place of a value. -/
inductive Misfit where
  | type (value : Json) (expected : String)
  | alternative (value : Json)
  | missing (name : String)

def Misfit.message : Misfit → String
  | type value expected => value.render ++ " is not of type \"" ++ expected ++ "\""
  | alternative value => value.render ++ " is not valid under any of the schemas listed in the 'anyOf' keyword"
  | missing name => (Json.str name).render ++ " is a required property"

/-- A violation of a schema, with the keys that lead to its place. -/
structure Violation where
  place : List String
  misfit : Misfit

namespace Violation

/-- A key of a pointer, in which `~` and `/` are written `~0` and `~1`. -/
def escapeKey (key : String) : String :=
  String.ofList (key.toList.flatMap fun c => if c = '~' then ['~', '0'] else if c = '/' then ['~', '1'] else [c])

def pointer (place : List String) : String := String.join (place.map fun key => "/" ++ escapeKey key)

def message (v : Violation) : String :=
  if v.place.isEmpty then v.misfit.message else pointer v.place ++ ": " ++ v.misfit.message

end Violation

/-- Whether a number is whole. A float other than zero is `±mantissa · 2^exponent`. -/
def Number.isWhole : Number → Bool
  | int _ => true
  | float x =>
    match x.toModel.unpack with
    | .zero _ => true
    | .finite _ mantissa exponent _ => 0 ≤ exponent || mantissa % Nat.pow 2 (-exponent).toNat = 0
    | .infinity _ | .notANumber => false

namespace FieldType

def schemaName : FieldType → String
  | string => "string"
  | int => "integer"
  | float => "number"
  | bool => "boolean"
  | list _ => "array"

def schema : FieldType → Json
  | list element => .obj [("items", element.schema), ("type", .str "array")]
  | t => .obj [("type", .str t.schemaName)]

def fits : FieldType → Json → Bool
  | string, .str _ => true
  | int, .num n => n.isWhole
  | float, .num _ => true
  | bool, .bool _ => true
  | list _, .arr _ => true
  | _, _ => false

def accepts : FieldType → Json → Bool
  | list element, .arr items => items.all element.accepts
  | list _, _ => false
  | t, v => t.fits v

def violations (place : List String) : FieldType → Json → List Violation
  | list element, .arr items =>
    items.zipIdx.flatMap fun (v, i) => violations (place ++ [toString i]) element v
  | t, v => if t.fits v then [] else [⟨place, .type v t.schemaName⟩]

end FieldType

namespace SchemaField

def schema (f : SchemaField) : Json :=
  if f.optional then .obj [("anyOf", .arr [f.type.schema, .obj [("type", .str "null")]])] else f.type.schema

def shape (f : SchemaField) : Json :=
  .str (f.type.display ++ if f.optional then " (optional)" else "")

def violations (f : SchemaField) (v : Json) : List Violation :=
  if f.optional then
    match v with
    | .null => []
    | v => if f.type.accepts v then [] else [⟨[f.name], .alternative v⟩]
  else f.type.violations [f.name] v

end SchemaField

namespace SchemaSpec

/-- The fields by name; of two fields with one name the later one counts. -/
def fieldTable (s : SchemaSpec) : Table SchemaField := Table.ofList (s.fields.map fun f => (f.name, f))

/-- The names of the fields that have to be there. -/
def required (s : SchemaSpec) : List String := (s.fields.filter fun f => !f.optional).map (·.name)

def jsonSchema (s : SchemaSpec) : Json :=
  .obj [("properties", .obj (s.fieldTable.map fun (name, f) => (name, f.schema))),
    ("required", .strs s.required), ("type", .str "object")]

def instruction (s : SchemaSpec) : String :=
  "Respond with a single JSON object of this shape (fields marked optional may be omitted):\n"
    ++ (Json.obj (s.fieldTable.map fun (name, f) => (name, f.shape))).pretty

/-- A schema that asks for one field twice cannot be used. -/
def usable (s : SchemaSpec) : Except SchemaError Unit :=
  if s.required.Nodup then .ok ()
  else .error (.uncompiled s.name ((Json.strs s.required).render ++ " has non-unique elements"))

def violations (s : SchemaSpec) : Json → List Violation
  | .obj fields =>
    (s.fieldTable.flatMap fun (name, f) =>
      match Table.get? fields name with
      | some v => f.violations v
      | none => [])
    ++ (s.required.filter fun name => !Table.contains fields name).map fun name => ⟨[], .missing name⟩
  | v => [⟨[], .type v "object"⟩]

def validate (s : SchemaSpec) (v : Json) : Except SchemaError Json :=
  match s.violations v with
  | [] => .ok v
  | found => .error (.invalid (found.map Violation.message))

def parse (s : SchemaSpec) (text : String) : Except SchemaError Json := do
  s.validate (← Reply.extract text)

end SchemaSpec

end Workflow
