import Workflow.Pattern.Regex
import Workflow.Text.Script

/-!
Character properties by name. Case, blanks, hyphens and underscores in a name do not count, nor
does a leading `is`. A name alone is looked up among the yes-or-no properties, then among the
general categories, then among the scripts.
-/

namespace Workflow.Pattern

def plainName (name : String) : String :=
  let lower := name.toList.map Char.toLower
  let strip := "is".toList.isPrefixOf lower && lower.length ≥ 2
  let kept := ((if strip then lower.drop 2 else lower).filter fun c =>
    c ≠ ' ' && c ≠ '_' && c ≠ '-' && c.toNat < 0x80)
  -- the category `C` stays itself behind `is`
  if strip && kept = ['c'] then "isc" else String.ofList kept

/-- Names of the general categories, each with the short names of the categories it covers. -/
def categoryNames : List (List String × List String) := [(["lu", "uppercaseletter"], ["Lu"]),
  (["ll", "lowercaseletter"], ["Ll"]),
  (["lt", "titlecaseletter"], ["Lt"]),
  (["lc", "casedletter"], ["Lu", "Ll", "Lt"]),
  (["lm", "modifierletter"], ["Lm"]),
  (["lo", "otherletter"], ["Lo"]),
  (["l", "letter"], ["Lu", "Ll", "Lt", "Lm", "Lo"]),
  (["mn", "nonspacingmark"], ["Mn"]),
  (["mc", "spacingmark"], ["Mc"]),
  (["me", "enclosingmark"], ["Me"]),
  (["m", "mark", "combiningmark"], ["Mn", "Mc", "Me"]),
  (["nd", "decimalnumber", "digit"], ["Nd"]),
  (["nl", "letternumber"], ["Nl"]),
  (["no", "othernumber"], ["No"]),
  (["n", "number"], ["Nd", "Nl", "No"]),
  (["pc", "connectorpunctuation"], ["Pc"]),
  (["pd", "dashpunctuation"], ["Pd"]),
  (["ps", "openpunctuation"], ["Ps"]),
  (["pe", "closepunctuation"], ["Pe"]),
  (["pi", "initialpunctuation"], ["Pi"]),
  (["pf", "finalpunctuation"], ["Pf"]),
  (["po", "otherpunctuation"], ["Po"]),
  (["p", "punctuation", "punct"], ["Pc", "Pd", "Ps", "Pe", "Pi", "Pf", "Po"]),
  (["sm", "mathsymbol"], ["Sm"]),
  (["sc", "currencysymbol"], ["Sc"]),
  (["sk", "modifiersymbol"], ["Sk"]),
  (["so", "othersymbol"], ["So"]),
  (["s", "symbol"], ["Sm", "Sc", "Sk", "So"]),
  (["zs", "spaceseparator"], ["Zs"]),
  (["zl", "lineseparator"], ["Zl"]),
  (["zp", "paragraphseparator"], ["Zp"]),
  (["z", "separator"], ["Zs", "Zl", "Zp"]),
  (["cc", "control", "cntrl"], ["Cc"]),
  (["cf", "format"], ["Cf"]),
  (["co", "privateuse"], ["Co"])]

def categoryClass (codes : List String) : CharClass :=
  codes.foldr (fun code k =>
    match Text.categories.find? (·.1 = code) with
    | some (_, s) => .union (.set s) k
    | none => k) .empty

def assigned : CharClass := categoryClass (Text.categories.map (·.1))

/-- A general category, or a set that is looked up beside the categories. -/
def category? (name : String) : Option CharClass :=
  match name with
  | "any" => some (.complement .empty)
  | "assigned" => some assigned
  | "ascii" => some (.set (.range 0 0x7f))
  | "cn" | "unassigned" => some (.complement assigned)
  | "c" | "other" => some (.union (.complement assigned) (categoryClass ["Cc", "Cf", "Co"]))
  | "cs" | "surrogate" => some .empty
  | name => (categoryNames.find? (·.1.contains name)).map fun entry => categoryClass entry.2

def script? (name : String) : Option CharClass :=
  (Text.scripts.find? (·.names.contains name)).map fun s => .set s.set

def spaceSet : CharSet :=
  ⟨[(9, 13), (32, 32), (0x85, 0x85), (0xa0, 0xa0), (0x1680, 0x1680), (0x2000, 0x200a),
    (0x2028, 0x2029), (0x202f, 0x202f), (0x205f, 0x205f), (0x3000, 0x3000)]⟩

/-- Characters of words: letters, marks, digits, connectors, and joiners. -/
def wordClass : CharClass :=
  .union (.set Text.alphabetic) (.union (categoryClass ["Mn", "Mc", "Me", "Nd", "Pc"])
    (.set (.range 0x200c 0x200d)))

def flagProperty? : String → Option CharClass
  | "alphabetic" | "alpha" => some (.set Text.alphabetic)
  | "lowercase" | "lower" => some (.set Text.lowercase)
  | "uppercase" | "upper" => some (.set Text.uppercase)
  | "cased" => some (.set Text.cased)
  | "caseignorable" | "ci" => some (.set Text.caseIgnorable)
  | "whitespace" | "wspace" | "space" => some (.set spaceSet)
  | "asciihexdigit" | "ahex" => some (.set ⟨[(0x30, 0x39), (0x41, 0x46), (0x61, 0x66)]⟩)
  | "hexdigit" | "hex" => some (.set ⟨[(0x30, 0x39), (0x41, 0x46), (0x61, 0x66),
      (0xff10, 0xff19), (0xff21, 0xff26), (0xff41, 0xff46)]⟩)
  | _ => none

def Property.charClass : Property → Except Fault CharClass
  | .named name =>
    let name := plainName name
    match flagProperty? name with
    | some k => .ok k
    | none =>
      match category? name with
      | some k => .ok k
      | none =>
        match script? name with
        | some k => .ok k
        | none => .error .propertyNotFound
  | .valued name value negated =>
    let found := match plainName name with
      | "generalcategory" | "gc" => some (category? (plainName value))
      | "script" | "sc" => some (script? (plainName value))
      | _ => none
    match found with
    | none => .error .propertyNotFound
    | some none => .error .propertyValueNotFound
    | some (some k) => .ok (if negated then .complement k else k)

end Workflow.Pattern
