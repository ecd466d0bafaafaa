import Workflow.Schema.Check
import Workflow.Proofs.Sorted
import Mathlib

/-!
Which values a schema accepts: objects that have all fields but optional ones, each of its type. The document in
JSON Schema that is made of the schema says the same by its keywords.
-/

namespace Workflow

open List Table

variable {t : FieldType} {f : SchemaField} {v : Json}

/-! ### Whole numbers -/

def Number.value? : Number → Option ℚ
  | int n => some n
  | float x =>
    match x.toModel.unpack with
    | .zero _ => some 0
    | .finite sign mantissa exponent _ => some (sign.apply mantissa * 2 ^ exponent)
    | .infinity _ | .notANumber => none

lemma whole_iff (a : ℤ) (n : ℕ) : (∃ k : ℤ, (a : ℚ) * (2 ^ n)⁻¹ = k) ↔ a.natAbs % 2 ^ n = 0 := by
  rw [← Nat.dvd_iff_mod_eq_zero, ← Int.natCast_dvd]
  refine exists_congr fun k => ?_
  rw [← div_eq_mul_inv, div_eq_iff (pow_ne_zero n two_ne_zero), mul_comm]
  norm_cast

lemma Number.isWhole_iff : ∀ {n : Number}, n.isWhole = true ↔ ∃ k : ℤ, n.value? = some (k : ℚ)
  | int n => by simp [isWhole, value?]
  | float x => by
    cases hx : x.toModel.unpack with
    | zero sign => exact iff_of_true (by simp [isWhole, hx]) ⟨0, by simp [value?, hx]⟩
    | finite sign m e hm =>
      have habs : (sign.apply m).natAbs = m := by cases sign <;> simp [Float.Model.UnpackedFloat.Sign.apply]
      rcases e with e | e
      · exact iff_of_true (by simp [isWhole, hx]) ⟨sign.apply m * 2 ^ e, by simp [value?, hx]⟩
      · have hwhole := whole_iff (sign.apply m) (e + 1)
        rw [habs] at hwhole
        simp [isWhole, value?, hx, hwhole]
    | _ => simp [isWhole, value?, hx]

/-! ### Documents -/

def Json.HasType : Json → String → Prop
  | null, name => name = "null"
  | bool _, name => name = "boolean"
  | num n, name => name = "number" ∨ name = "integer" ∧ ∃ k : ℤ, n.value? = some (k : ℚ)
  | str _, name => name = "string"
  | arr _, name => name = "array"
  | obj _, name => name = "object"

mutual

def Json.Meets : Json → Json → Prop
  | obj keywords, v => MeetsAll keywords v
  | _, _ => True

def Json.MeetsAll : List (String × Json) → Json → Prop
  | [], _ => True
  | (word, d) :: rest, v => (match word, d, v with
    | "type", str name, v => v.HasType name
    | "items", d, arr items => ∀ x ∈ items, Meets d x
    | "anyOf", arr docs, v => MeetsSome docs v
    | "properties", obj docs, obj fields => MeetsFields docs fields
    | "required", arr names, obj fields => ∀ name, str name ∈ names → contains fields name = true
    | _, _, _ => True) ∧ MeetsAll rest v

def Json.MeetsSome : List Json → Json → Prop
  | [], _ => False
  | d :: rest, v => Meets d v ∨ MeetsSome rest v

def Json.MeetsFields : List (String × Json) → List (String × Json) → Prop
  | [], _ => True
  | (name, d) :: rest, fields => (∀ v ∈ get? fields name, Meets d v) ∧ MeetsFields rest fields

end

lemma Json.meetsFields_iff {fields docs : List (String × Json)} :
    MeetsFields docs fields ↔ ∀ e ∈ docs, ∀ v ∈ get? fields e.1, Meets e.2 v := by
  induction docs with
  | nil => simp [MeetsFields]
  | cons e rest ih => rw [MeetsFields, ih, forall_mem_cons]

/-! ### Fields -/

def FieldType.Holds : FieldType → Json → Prop
  | string, v => ∃ s, v = .str s
  | int, v => ∃ n, ∃ k : ℤ, v = .num n ∧ n.value? = some (k : ℚ)
  | float, v => ∃ n, v = .num n
  | bool, v => ∃ b, v = .bool b
  | list element, v => ∃ items, v = .arr items ∧ ∀ x ∈ items, element.Holds x

lemma FieldType.accepts_iff : t.accepts v = true ↔ t.Holds v := by
  induction t generalizing v with
  | list element ih => cases v <;> simp [accepts, Holds, ih]
  | _ => cases v <;> simp [accepts, fits, Holds, Number.isWhole_iff]

lemma FieldType.violations_iff : t.violations place v = [] ↔ t.Holds v := by
  induction t generalizing v place with
  | list element ih =>
    cases v with
    | arr items =>
      have hitems : (∀ x ∈ items, element.Holds x) ↔ ∀ e ∈ items.zipIdx, element.Holds e.1 := by
        rw [← forall_mem_map (f := Prod.fst) (P := element.Holds), zipIdx_map_fst]
      simp only [violations, flatMap_eq_nil_iff, ih]
      simpa [Holds] using hitems.symm
    | _ => simp [violations, fits, Holds]
  | int =>
    cases v with
    | num n => cases h : n.isWhole <;> simp [violations, fits, Holds, ← Number.isWhole_iff, h]
    | _ => simp [violations, fits, Holds]
  | _ => cases v <;> simp [violations, fits, Holds]

lemma FieldType.meets_iff : t.schema.Meets v ↔ t.Holds v := by
  induction t generalizing v with
  | list element ih => cases v <;> simp [schema, Json.Meets, Json.MeetsAll, Json.HasType, Holds, ih]
  | _ => cases v <;> simp [schema, schemaName, Json.Meets, Json.MeetsAll, Json.HasType, Holds]

def SchemaField.Admits (f : SchemaField) (v : Json) : Prop := f.type.Holds v ∨ f.optional = true ∧ v = .null

lemma SchemaField.violations_iff : f.violations v = [] ↔ f.Admits v := by
  unfold violations Admits
  split_ifs with hoptional
  · cases v <;> simp [hoptional, FieldType.accepts_iff]
  · simp [hoptional, FieldType.violations_iff]

lemma SchemaField.meets_iff : f.schema.Meets v ↔ f.Admits v := by
  unfold schema Admits
  split_ifs with hoptional
  · cases v <;> simp [hoptional, Json.Meets, Json.MeetsAll, Json.MeetsSome, Json.HasType, FieldType.meets_iff]
  · simp [hoptional, FieldType.meets_iff]

/-! ### Schemas -/

lemma Table.foldl_insert_perm {α : Type} : ∀ {entries : List (String × α)} {t : Table α},
    (entries.map (·.1) ++ t.names).Nodup →
    (entries.foldl (fun t e => t.insert e.1 e.2) t).Perm (entries ++ t)
  | [], t, _ => .refl t
  | e :: rest, t, h => by
    obtain ⟨hnot, -⟩ := nodup_cons.1 h
    have hperm : (t.insert e.1 e.2).Perm (e :: t) := insert_perm fun ht => hnot (mem_append_right _ ht)
    have hnames : (rest.map (·.1) ++ (t.insert e.1 e.2).names).Nodup :=
      (((hperm.map _).append_left _).trans perm_middle).nodup_iff.2 h
    exact (foldl_insert_perm hnames).trans ((hperm.append_left rest).trans perm_middle)

namespace SchemaSpec

variable {s : SchemaSpec}

def Conforms (s : SchemaSpec) (v : Json) : Prop := ∃ fields, v = .obj fields ∧ ∀ f ∈ s.fields,
  match get? fields f.name with
  | some w => f.Admits w
  | none => f.optional = true

lemma conforms_obj {fields : List (String × Json)} : s.Conforms (.obj fields) ↔
    (∀ f ∈ s.fields, ∀ v ∈ get? fields f.name, f.Admits v) ∧
    ∀ name ∈ s.required, contains fields name = true := by
  have hfield (f : SchemaField) : (match get? fields f.name with
      | some w => f.Admits w
      | none => f.optional = true) ↔ (∀ v ∈ get? fields f.name, f.Admits v) ∧
      (f.optional = false → contains fields f.name = true) := by
    unfold Table.contains
    cases get? fields f.name <;> simp
  rw [required, forall_mem_map]
  simp [Conforms, hfield, forall_and]

lemma forall_mem_fieldTable (h : (s.fields.map (·.name)).Nodup) {p : String × SchemaField → Prop} :
    (∀ e ∈ s.fieldTable, p e) ↔ ∀ f ∈ s.fields, p (f.name, f) := by
  have hperm : s.fieldTable.Perm (s.fields.map fun f => (f.name, f)) := by
    rw [fieldTable, ofList]
    simpa using foldl_insert_perm (t := []) (by simpa [names, Function.comp_def] using h)
  simp [hperm.mem_iff]

lemma violations_iff (h : (s.fields.map (·.name)).Nodup) : s.violations v = [] ↔ s.Conforms v := by
  cases v with
  | obj fields =>
    rw [violations, conforms_obj, append_eq_nil_iff, flatMap_eq_nil_iff, forall_mem_fieldTable h]
    refine and_congr (forall₂_congr fun f _ => ?_) (by simp)
    dsimp only
    cases get? fields f.name <;> simp [SchemaField.violations_iff]
  | _ => simp [violations, Conforms]

lemma meets_iff (h : (s.fields.map (·.name)).Nodup) : s.jsonSchema.Meets v ↔ s.Conforms v := by
  cases v with
  | obj fields =>
    have hfields := forall_mem_fieldTable h (p := fun e => ∀ v ∈ get? fields e.1, e.2.Admits v)
    simp only [conforms_obj, ← hfields, jsonSchema, Json.Meets, Json.MeetsAll, Json.meetsFields_iff,
      forall_mem_map, SchemaField.meets_iff, Json.strs]
    simp [Json.HasType]
  | _ => simp [jsonSchema, Json.Meets, Json.MeetsAll, Json.HasType, Conforms]

/-- A schema whose fields have different names can be used, and a value passes if and only if it is an object
with all fields of their types, but for optional ones that are missing or null. -/
theorem validate_iff_conforms (s : SchemaSpec) (hnames : (s.fields.map (·.name)).Nodup) (v : Json) :
    s.usable = .ok () ∧ (s.validate v = .ok v ↔ s.Conforms v) ∧ (s.jsonSchema.Meets v ↔ s.Conforms v) := by
  refine ⟨if_pos (hnames.sublist (List.filter_sublist.map _)), ?_, meets_iff hnames⟩
  rw [← violations_iff hnames, validate]
  split <;> simp_all

/-- A list of lists of whole numbers, one of them a float, beside a note that is null and a field of no schema. -/
theorem validate_iff_conforms_rows :
    let s : SchemaSpec := ⟨"Rows", [⟨"rows", .list (.list .int), false⟩, ⟨"note", .string, true⟩]⟩
    let v := Json.obj [("extra", .int 1), ("note", .null), ("rows", .arr [.arr [.int 3, .num (.float 2.0)], .arr []])]
    (s.fields.map (·.name)).Nodup ∧ s.validate v = .ok v ∧ s.Conforms v ∧ s.jsonSchema.Meets v := by
  intro s v
  have hnames : (s.fields.map (·.name)).Nodup := by decide
  have hvalid : s.validate v = .ok v := rfl
  obtain ⟨-, hvalidate, hmeets⟩ := validate_iff_conforms s hnames v
  exact ⟨hnames, hvalid, hvalidate.1 hvalid, hmeets.2 (hvalidate.1 hvalid)⟩

end SchemaSpec

end Workflow
