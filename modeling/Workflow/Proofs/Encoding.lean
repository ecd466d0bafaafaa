import Workflow.Proofs.Sorted
import Workflow.Proofs.Written
import Workflow.Unit.Assemble
import Mathlib.Data.List.Nodup

/-!
Listings through JSON. What is encoded and read again is the listing that was there, but for a case of a match
whose pattern is `null`: it is read as a case without a pattern. So a listing survives just if it has no such
case.
-/

namespace Workflow

open List Json EscalationCondition TimeoutPolicy Line Option

variable {v : Json} {name : String} {α : Type} {o : Op}

/-! ### Fields -/

namespace Json

/-- The fields of an object as written; one that is `none` was left out. -/
def Has (v : Json) : List (String × Option Json) → Prop
  | [] => True
  | (name, w) :: rest => v.field? name = w ∧ v.Has rest

lemma has_of_forall : ∀ {fields}, (∀ name w, (name, w) ∈ fields → v.field? name = w) → v.Has fields
  | [], _ => trivial
  | (name, w) :: _, h =>
    ⟨h name w mem_cons_self, has_of_forall fun other u hu => h other u (mem_cons_of_mem _ hu)⟩

lemma field?_obj {fields : List (String × Json)} (hnodup : (fields.map (·.1)).Nodup) :
    (obj fields).field? name = some w ↔ (name, w) ∈ fields := by
  rw [field?, map_eq_some_iff]
  constructor
  · rintro ⟨f, hf, rfl⟩
    have hname : f.1 = name := by simpa using List.find?_some hf
    exact hname ▸ mem_reverse.1 (List.mem_of_find?_eq_some hf)
  · intro hmem
    have hsome : (fields.reverse.find? fun f => f.1 = name).isSome = true :=
      List.find?_isSome.2 ⟨(name, w), mem_reverse.2 hmem, by simp⟩
    obtain ⟨f, hf⟩ := isSome_iff_exists.1 hsome
    have hname : f.1 = name := by simpa using List.find?_some hf
    have hf' : f ∈ fields := mem_reverse.1 (List.mem_of_find?_eq_some hf)
    exact ⟨f, hf, congrArg Prod.snd (inj_on_of_nodup_map hnodup hf' hmem hname)⟩

lemma has_record {fields : List (String × Option Json)} (hnodup : (fields.map (·.1)).Nodup) :
    (record fields).Has fields := by
  have hsub : ((fields.filterMap fun f => f.2.map fun v => (f.1, v)).map (·.1)).Sublist (fields.map (·.1)) := by
    clear hnodup
    induction fields with
    | nil => exact .slnil
    | cons f rest ih =>
      rcases f with ⟨name, _ | w⟩
      · exact ih.cons name
      · exact ih.cons_cons name
  refine has_of_forall fun name w hf => Option.ext fun v => ?_
  rw [record, field?_obj (hnodup.sublist hsub)]
  simp only [mem_filterMap, map_eq_some_iff, Prod.mk.injEq]
  constructor
  · rintro ⟨g, hg, u, hu, hname, rfl⟩
    have hsame := inj_on_of_nodup_map hnodup hf hg hname.symm
    rw [← hu, ← hsame]
  · rintro rfl
    exact ⟨(name, some v), hf, v, rfl, rfl, rfl⟩

lemma fieldString?_of_field (h : v.field? name = some (str s)) : v.fieldString? name = some s := by
  rw [fieldString?, h]
  rfl

lemma given?_of_field (hnull : ∀ a, encode a ≠ null)
    (h : v.field? name = some (orNull encode a) ∨ v.field? name = a.map encode) : v.given? name = a.map encode := by
  cases a with
  | none => rcases h with h | h <;> rw [given?, h] <;> rfl
  | some a =>
    have h : v.field? name = some (encode a) := h.elim id id
    rw [given?, h]
    split
    · next heq => exact absurd (Option.some.inj heq) (hnull a)
    · rfl

lemma str_ne_null (s : String) : str s ≠ .null := Json.noConfusion

lemma fieldStringOrNone?_of_field {s : Option String}
    (h : v.field? name = some (orNull str s) ∨ v.field? name = s.map str) : v.fieldStringOrNone? name = some s := by
  rw [fieldStringOrNone?, given?_of_field str_ne_null h]
  cases s <;> rfl

lemma strings?_strs (names : List String) : (strs names).strings? = some names := by
  rw [strings?, strs, items?]
  induction names with
  | nil => rfl
  | cons s rest ih => simp_all [string?]

lemma fieldStringsOrNil?_of_field {names : List String} (h : v.field? name = nonempty names) :
    v.fieldStringsOrNil? name = some names := by
  rw [fieldStringsOrNil?, given?, h]
  cases names with
  | nil => rfl
  | cons s rest => exact strings?_strs (s :: rest)

lemma nat?_nat (h : n ≤ durationLimit) : (nat n).nat? = some n := by
  have hle : (n : Int) ≤ Number.maxUnsigned := by
    simp only [durationLimit, Number.maxUnsigned] at h ⊢
    omega
  rw [nat, int, nat?, Number.unsigned?, if_pos ⟨Int.natCast_nonneg n, hle⟩, Int.toNat_natCast]

@[simp] lemma unattach_child? (v : Json) (name : String) : (v.child? name).unattach = v.field? name := by
  cases v with
  | obj fields =>
    unfold child? field?
    dsimp only
    split
    · next f h => simp only [h]; rfl
    · next h => simp only [h]; rfl
  | _ => rfl

@[simp] lemma unattach_children (items : List Json) : (items.attach.map fun w => (⟨w.1, sizeOf_mem_items w.2⟩ :
      { w : Json // sizeOf w < sizeOf (arr items) })).unattach = items := by
  rw [List.unattach, List.map_map]
  exact attach_map_subtype_val items

end Json

lemma ofName?_of_mem {all : List α} {name : α → String} (hinj : (all.map name).Nodup) (hmem : a ∈ all) :
    ofName? all name (.str (name a)) = some a := by
  have hsome : (all.find? fun b => name b = name a).isSome = true :=
    List.find?_isSome.2 ⟨a, hmem, by simp⟩
  obtain ⟨b, hb⟩ := isSome_iff_exists.1 hsome
  have hname : name b = name a := by simpa using List.find?_some hb
  rw [ofName?, string?, bind_some, hb, inj_on_of_nodup_map hinj (List.mem_of_find?_eq_some hb) hmem hname]

lemma ToolKind.ofJson?_name (k : ToolKind) : ToolKind.ofJson? (.str k.name) = some k :=
  ofName?_of_mem (by decide) (by cases k <;> decide)

lemma Backoff.ofJson?_name (b : Backoff) : Backoff.ofJson? (.str b.name) = some b :=
  ofName?_of_mem (by decide) (by cases b <;> decide)

lemma EscalationOp.ofJson?_name (op : EscalationOp) : EscalationOp.ofJson? (.str op.name) = some op :=
  ofName?_of_mem (by decide) (by cases op <;> decide)

lemma HandlerEvent.ofJson?_name (e : HandlerEvent) : HandlerEvent.ofJson? (.str e.name) = some e :=
  ofName?_of_mem (by decide) (by cases e <;> decide)

lemma GuardKind.ofJson?_name (k : GuardKind) : GuardKind.ofJson? (.str k.name) = some k :=
  ofName?_of_mem (by decide) (by cases k <;> decide)

lemma BinOp.ofJson?_name (op : BinOp) : BinOp.ofJson? (.str op.name) = some op :=
  ofName?_of_mem (by decide) (by cases op <;> decide)

/-! ### Terms -/

namespace Term

open Json

def entryOfJson? (v : Json) : Option (String × Term) :=
  v.items?.bind fun
    | [key, value] => key.string?.bind fun key => (ofJson? value).bind fun value => some (key, value)
    | _ => none

lemma ofJson?_list {items : List Json} (hkind : v.field? "kind" = some (.str "list"))
    (hitems : v.field? "items" = some (.arr items)) : ofJson? v = (items.mapM ofJson?).map list := by
  rw [ofJson?]
  simp only [fieldString?, hkind, string?, bind_some, bind_eq_bind, children?,
    Option.pure_def, mapM_subtype, bind_subtype, unattach_child?, hitems,
    unattach_children, map_eq_bind, Function.comp_def]

lemma ofJson?_map {entries : List Json} (hkind : v.field? "kind" = some (.str "map"))
    (hentries : v.field? "entries" = some (.arr entries)) :
    ofJson? v = (entries.mapM entryOfJson?).map map := by
  rw [ofJson?]
  simp only [fieldString?, hkind, string?, bind_some, bind_eq_bind, children?,
    Option.pure_def, mapM_subtype, bind_subtype, unattach_child?, hentries,
    unattach_children, map_eq_bind, Function.comp_def]
  congr 2
  funext entry
  rw [entryOfJson?]
  cases entry with
  | arr items => rcases items with _ | ⟨_, _ | ⟨_, _ | _⟩⟩ <;> rfl
  | _ => rfl

mutual

theorem ofJson?_toJson : ∀ t : Term, ofJson? t.toJson = some t
  | list items => by
    rw [toJson, ofJson?_list rfl rfl, mapM_itemsJson items]
    rfl
  | map entries => by
    rw [toJson, ofJson?_map rfl rfl, mapM_entriesJson entries]
    rfl
  | literal .. | var .. | path .. | binary .. | not .. | filter .. => by
    rw [toJson, ofJson?]
    simp [fieldString?, field?, string?, ofJson?_toJson, BinOp.ofJson?_name, strings?_strs]

theorem mapM_itemsJson : ∀ items : List Term, (itemsJson items).mapM ofJson? = some items
  | [] => rfl
  | t :: rest => by
    rw [itemsJson, mapM_cons, ofJson?_toJson t, mapM_itemsJson rest]
    rfl

theorem mapM_entriesJson : ∀ entries : List (String × Term), (entriesJson entries).mapM entryOfJson? = some entries
  | [] => rfl
  | (key, t) :: rest => by
    have hentry : entryOfJson? (.arr [.str key, t.toJson]) = some (key, t) := by
      rw [entryOfJson?]
      simp only [items?, bind_some, string?, ofJson?_toJson t]
    rw [entriesJson, mapM_cons, hentry, mapM_entriesJson rest]
    rfl

end

lemma listOfJson?_items (items : List Term) : listOfJson? (.arr (itemsJson items)) = some items :=
  mapM_itemsJson items

lemma toJson_ne_null (t : Term) : t.toJson ≠ .null := by cases t <;> simp [toJson]

lemma escalateJson_ne_null (e : EscalateAction Term) : escalateJson e ≠ .null := by
  cases e <;> simp [escalateJson]

lemma escalateOfJson?_escalateJson (e : EscalateAction Term) : escalateOfJson? (escalateJson e) = some e := by
  cases e <;> simp [escalateJson, escalateOfJson?, fieldString?, field?, string?, ofJson?_toJson]

end Term

lemma Json.mapM_map {all : List α} (h : ∀ a ∈ all, decode (encode a) = some (f a)) :
    (all.map encode).mapM decode = some (all.map f) := by
  induction all with
  | nil => rfl
  | cons a rest ih =>
    rw [forall_mem_cons] at h
    rw [map_cons, mapM_cons, h.1, ih h.2]
    rfl

/-! ### Registrations -/

lemma FieldType.ofJson?_toJson : ∀ t : FieldType, FieldType.ofJson? t.toJson = some t
  | list element => by rw [toJson, ofJson?, ofJson?_toJson element]; rfl
  | string | int | float | bool => rfl

lemma SchemaField.ofJson?_toJson (f : SchemaField) : SchemaField.ofJson? f.toJson = some f := by
  simp [SchemaField.ofJson?, SchemaField.toJson, fieldString?, field?, string?, bool?, FieldType.ofJson?_toJson]

lemma EscalationCondition.ofJson?_toJson (c : EscalationCondition) : ofJson? c.toJson = some c := by
  simp [ofJson?, toJson, fieldString?, field?, string?, EscalationOp.ofJson?_name]

lemma ParallelCall.ofJson?_toJson (c : ParallelCall) : ParallelCall.ofJson? c.toJson = some c := by
  have htarget : c.toJson.field? "target" = some (orNull .str c.target) := rfl
  rw [ParallelCall.ofJson?, fieldStringOrNone?_of_field (.inl htarget)]
  simp [toJson, fieldString?, field?, string?, Term.listOfJson?_items]

section

open Json

lemma ModelSpec.ofJson?_of_has {m : ModelSpec} (hsorted : m.params.names.Pairwise (· < ·))
    (h : v.Has m.fields) : ModelSpec.ofJson? v = some m := by
  obtain ⟨hname, hmodel, hparams, -⟩ := h
  have hgiven : ((v.given? "params").bind fields?).getD [] = m.params := by
    rw [given?, hparams]
    cases hm : m.params <;> rfl
  simp only [ModelSpec.ofJson?, fieldString?_of_field hname, fieldString?_of_field hmodel, hgiven,
    Table.ofList_of_pairwise hsorted, bind_eq_bind, bind_some]
  rfl

lemma SchemaSpec.ofJson?_of_has {s : SchemaSpec} (h : v.Has s.fieldsJson) : SchemaSpec.ofJson? v = some s := by
  obtain ⟨hname, hfields, -⟩ := h
  simp only [SchemaSpec.ofJson?, fieldString?_of_field hname, hfields, items?, bind_some,
    bind_eq_bind, mapM_map fun f _ => SchemaField.ofJson?_toJson f, List.map_id']
  rfl

lemma ToolSpec.ofJson?_of_has {t : ToolSpec} (h : v.Has t.fields) : ToolSpec.ofJson? v = some t := by
  obtain ⟨hname, hkind, htarget, -⟩ := h
  rw [ToolSpec.ofJson?, fieldString?_of_field hname, hkind, fieldString?_of_field htarget, bind_some,
    ToolKind.ofJson?_name]
  rfl

lemma RetryPolicy.ofJson?_of_has {r : RetryPolicy} (hattempts : r.attempts ≤ durationLimit)
    (h : v.Has r.fields) : RetryPolicy.ofJson? v = some r := by
  obtain ⟨hname, hcount, hbackoff, -⟩ := h
  rw [RetryPolicy.ofJson?, fieldString?_of_field hname, hcount, hbackoff, bind_some,
    nat?_nat hattempts, bind_some, Backoff.ofJson?_name]
  rfl

lemma TimeoutPolicy.ofJson?_of_has {t : TimeoutPolicy} (hseconds : t.seconds ≤ durationLimit)
    (h : v.Has t.fields) : ofJson? v = some t := by
  obtain ⟨hname, hlimit, -⟩ := h
  rw [ofJson?, fieldString?_of_field hname, hlimit, bind_some, nat?_nat hseconds]
  rfl

lemma GuardrailSpec.ofJson?_of_has {g : GuardrailSpec} (h : v.Has g.fields) : GuardrailSpec.ofJson? v = some g := by
  obtain ⟨hname, hpattern, -⟩ := h
  rw [GuardrailSpec.ofJson?, fieldString?_of_field hname, fieldString?_of_field hpattern]
  rfl

lemma PromptSpec.ofJson?_of_has {p : PromptSpec} (h : v.Has p.fields) : PromptSpec.ofJson? v = some p := by
  obtain ⟨hname, htemplate, hmodel, hexpecting, hescalate, -⟩ := h
  rw [PromptSpec.ofJson?, fieldString?_of_field hname, fieldString?_of_field htemplate,
    fieldStringOrNone?_of_field (.inr hmodel), fieldStringOrNone?_of_field (.inr hexpecting),
    given?_of_field (fun _ => Json.noConfusion) (.inr hescalate)]
  rcases p with ⟨name, template, model, expecting, _ | c⟩
  · rfl
  · simp [ofJson?_toJson]

lemma AgentSpec.ofJson?_of_has {a : AgentSpec} (h : v.Has a.fields) : AgentSpec.ofJson? v = some a := by
  obtain ⟨hname, hinstruction, htools, hdescription, hretry, htimeout, hdelegate, huses, -⟩ := h
  rw [AgentSpec.ofJson?, fieldString?_of_field hname, fieldString?_of_field hinstruction,
    fieldStringsOrNil?_of_field htools, fieldStringOrNone?_of_field (.inr hdescription),
    fieldStringOrNone?_of_field (.inr hretry), fieldStringOrNone?_of_field (.inr htimeout),
    fieldStringsOrNil?_of_field hdelegate, fieldStringsOrNil?_of_field huses]
  rfl

end

/-! ### Operations -/

namespace Op

open Json

/-- A case for `null` becomes the case for all other values. -/
def forgetNull : Op → Op
  | arm (some .null) => arm none
  | o => o

/-- The numbers of an operation fit their types, and parameters are a table. -/
def Fits : Op → Prop
  | model m => m.params.names.Pairwise (· < ·)
  | retry r => r.attempts ≤ countLimit
  | timeout t => t.seconds ≤ durationLimit
  | loop (some max) => max ≤ countLimit
  | _ => True

lemma nodup_parts (o : Op) : (("op", some (.str o.parts.1)) :: o.parts.2).map (·.1) |>.Nodup := by
  cases o <;> simp [parts, ModelSpec.fields, SchemaSpec.fieldsJson, ToolSpec.fields, RetryPolicy.fields,
    TimeoutPolicy.fields, GuardrailSpec.fields, PromptSpec.fields, AgentSpec.fields]

lemma has_toJson (o : Op) : o.toJson.fieldString? "op" = some o.parts.1 ∧ o.toJson.Has o.parts.2 := by
  obtain ⟨hop, h⟩ := has_record (nodup_parts o)
  exact ⟨fieldString?_of_field hop, h⟩

lemma escalateField?_of_field (h : v.field? "on_escalate" = some (orNull Term.escalateJson e)) :
    escalateField? v = some e := by
  rw [escalateField?, given?_of_field Term.escalateJson_ne_null (.inl h)]
  cases e with
  | none => rfl
  | some e => simp [Term.escalateOfJson?_escalateJson]

lemma termField?_of_field {t : Term} (h : v.field? name = some t.toJson) : termField? v name = some t := by
  rw [termField?, h]
  exact Term.ofJson?_toJson t

lemma termsField?_of_field {items : List Term} (h : v.field? name = some (.arr (Term.itemsJson items))) :
    termsField? v name = some items := by
  rw [termsField?, h]
  exact Term.listOfJson?_items items

lemma statementOfJson?_of_has (hstatement : (o.isHeader || o.isRegistration) = false) (h : v.Has o.parts.2) :
    statementOfJson? v o.parts.1 = some o := by
  cases o with
  | assign target value =>
    obtain ⟨htarget, hvalue, -⟩ := h
    rw [parts, statementOfJson?, fieldString?_of_field htarget, termField?_of_field hvalue]
    rfl
  | setPath target path value =>
    obtain ⟨htarget, hpath, hvalue, -⟩ := h
    rw [parts, statementOfJson?, fieldString?_of_field htarget, hpath, bind_some, strings?_strs,
      termField?_of_field hvalue]
    rfl
  | runAgent target name args onEscalate =>
    obtain ⟨htarget, hname, hargs, hescalate, -⟩ := h
    rw [parts, statementOfJson?, fieldString?_of_field hname, termsField?_of_field hargs,
      fieldStringOrNone?_of_field (.inl htarget), escalateField?_of_field hescalate]
    rfl
  | callPrompt target name args override onEscalate =>
    obtain ⟨htarget, hname, hargs, hmodel, hescalate, -⟩ := h
    rw [parts, statementOfJson?, fieldString?_of_field hname, termsField?_of_field hargs,
      fieldStringOrNone?_of_field (.inl htarget), fieldStringOrNone?_of_field (.inl hmodel),
      escalateField?_of_field hescalate]
    rfl
  | runFlow target name args =>
    obtain ⟨htarget, hname, hargs, -⟩ := h
    rw [parts, statementOfJson?, fieldString?_of_field hname, termsField?_of_field hargs,
      fieldStringOrNone?_of_field (.inl htarget)]
    rfl
  | parallel calls =>
    obtain ⟨hcalls, -⟩ := h
    have hread := mapM_map fun c (_ : c ∈ calls) => c.ofJson?_toJson
    rw [parts, statementOfJson?, hcalls, bind_some, items?, bind_eq_bind, bind_some, hread, List.map_id']
    rfl
  | ret value | log message =>
    rw [parts, statementOfJson?, termField?_of_field h.1]
    rfl
  | abort message =>
    rw [parts, statementOfJson?, given?_of_field Term.toJson_ne_null (.inl h.1)]
    cases message with
    | none => rfl
    | some message => exact congrArg (Option.map _) (Term.ofJson?_toJson message)
  | push value target =>
    obtain ⟨hvalue, htarget, -⟩ := h
    rw [parts, statementOfJson?, fieldString?_of_field htarget, termField?_of_field hvalue]
    rfl
  | guard kind name message =>
    obtain ⟨hkind, hname, hmessage, -⟩ := h
    rw [parts, statementOfJson?, hkind, bind_some, GuardKind.ofJson?_name,
      fieldString?_of_field hname, fieldStringOrNone?_of_field (.inl hmessage)]
    rfl
  | «continue» => rfl
  | _ => cases hstatement

lemma ofJson?_toJson (hfits : o.Fits) : ofJson? o.toJson = some o.forgetNull := by
  obtain ⟨hop, h⟩ := has_toJson o
  generalize o.toJson = v at hop h
  rw [ofJson?, hop, bind_eq_bind, bind_some]
  cases o with
  | model m => exact congrArg (Option.map _) (ModelSpec.ofJson?_of_has hfits h)
  | schema s => exact congrArg (Option.map _) (SchemaSpec.ofJson?_of_has h)
  | tool t => exact congrArg (Option.map _) (ToolSpec.ofJson?_of_has h)
  | retry r =>
    have hattempts : r.attempts ≤ durationLimit := Nat.le_trans hfits (by decide)
    exact congrArg (Option.map _) (RetryPolicy.ofJson?_of_has hattempts h)
  | timeout t => exact congrArg (Option.map _) (ofJson?_of_has hfits h)
  | guardrail g => exact congrArg (Option.map _) (GuardrailSpec.ofJson?_of_has h)
  | prompt p => exact congrArg (Option.map _) (PromptSpec.ofJson?_of_has h)
  | agent a => exact congrArg (Option.map _) (AgentSpec.ofJson?_of_has h)
  | flow name params =>
    obtain ⟨hname, hparams, -⟩ := h
    simp only [parts, fieldString?_of_field hname, hparams, bind_some, strings?_strs]
    rfl
  | handler event =>
    simp only [parts, h.1, bind_some, HandlerEvent.ofJson?_name]
    rfl
  | loop max =>
    simp only [parts, given?_of_field (fun _ => Json.noConfusion) (.inl h.1)]
    cases max with
    | none => rfl
    | some max =>
      have hmax : max ≤ durationLimit := Nat.le_trans hfits (by decide)
      exact congrArg (fun n => some (loop n)) (nat?_nat hmax)
  | forEach var iterable =>
    obtain ⟨hvar, hiterable, -⟩ := h
    simp only [parts, fieldString?_of_field hvar, termField?_of_field hiterable]
    rfl
  | branch condition | select subject => exact congrArg (Option.map _) (termField?_of_field h.1)
  | arm pattern =>
    simp only [parts, given?, h.1]
    rcases pattern with _ | (_ | _) <;> rfl
  | otherwise | onFailure => rfl
  | _ => exact statementOfJson?_of_has rfl h

lemma parts_forgetNull (o : Op) : o.forgetNull.parts = o.parts := by
  unfold forgetNull
  split <;> rfl

lemma forgetNull_eq_self : o.forgetNull = o ↔ o ≠ arm (some .null) := by
  unfold forgetNull
  split
  · simp
  · next hne => simpa using hne

end Op

/-! ### Listings -/

namespace Line

/-- The case for `null` of a line becomes the case for all other values. -/
def forgetNull (l : Line) : Line :=
  match l.content with
  | .op o => { l with content := .op o.forgetNull }
  | .comment _ => l

def MatchesNull (l : Line) : Prop := l.content = .op (.arm (some .null))

/-- The depth of a line fits its type, and so do the numbers of an operation. -/
def Fits (l : Line) : Prop := l.depth ≤ durationLimit ∧ ∀ o, l.content = .op o → o.Fits

lemma ofJson?_toJson {l : Line} (hfits : l.Fits) : ofJson? l.toJson = some l.forgetNull := by
  obtain ⟨hdepth, hop⟩ := hfits
  rcases l with ⟨depth, o | text⟩
  · simp [ofJson?, toJson, forgetNull, field?, fieldString?, string?, nat?_nat hdepth, Op.ofJson?_toJson (hop o rfl)]
  · simp [ofJson?, toJson, forgetNull, field?, fieldString?, string?, nat?_nat hdepth]

lemma toJson_forgetNull (l : Line) : l.forgetNull.toJson = l.toJson := by
  rcases l with ⟨depth, o | text⟩
  · simp only [forgetNull, toJson, Op.toJson, Op.parts_forgetNull]
  · rfl

lemma forgetNull_eq_self {l : Line} : l.forgetNull = l ↔ ¬ l.MatchesNull := by
  rcases l with ⟨depth, o | text⟩
  · simp [forgetNull, MatchesNull, Op.forgetNull_eq_self]
  · simp [forgetNull, MatchesNull]

end Line

namespace Listing

lemma ofJson?_toJson {lines : Listing} (hfits : ∀ l ∈ lines, l.Fits) :
    ofJson? lines.toJson = some (lines.map Line.forgetNull) :=
  mapM_map fun l hl => Line.ofJson?_toJson (hfits l hl)

lemma toJson_forgetNull (lines : Listing) : toJson (lines.map forgetNull) = lines.toJson := by
  rw [toJson, toJson, List.map_map]
  exact congrArg (fun items => obj [("lines", .arr items)])
    (map_congr_left fun l _ => l.toJson_forgetNull)

lemma map_forgetNull_eq_self {lines : Listing} : lines.map forgetNull = lines ↔ ∀ l ∈ lines, ¬ l.MatchesNull := by
  calc lines.map forgetNull = lines ↔ lines.map forgetNull = lines.map id := by rw [List.map_id]
    _ ↔ ∀ l ∈ lines, l.forgetNull = l := map_inj_left
    _ ↔ ∀ l ∈ lines, ¬ l.MatchesNull := forall₂_congr fun _ _ => forgetNull_eq_self

/-- A listing is read as it was written just if no case of a match is for `null`; such a case is read as the
case for all other values. Listings with the same encoding differ in such cases only. What is read as it was
written assembles to the same unit. -/
theorem read_back_iff_no_null_case (lines : Listing) (hfits : ∀ l ∈ lines, l.Fits) :
    ofJson? lines.toJson = some (lines.map forgetNull) ∧
      (ofJson? lines.toJson = some lines ↔ ∀ l ∈ lines, ¬ l.MatchesNull) ∧
      (∀ other : Listing, (∀ l ∈ other, l.Fits) →
        (lines.toJson = other.toJson ↔ lines.map forgetNull = other.map forgetNull)) ∧
      ((∀ l ∈ lines, ¬ l.MatchesNull) → ∀ hash map, (ofJson? lines.toJson).map (CompiledUnit.assemble hash · map) =
          some (CompiledUnit.assemble hash lines map)) := by
  have hread := ofJson?_toJson hfits
  have hback : ofJson? lines.toJson = some lines ↔ ∀ l ∈ lines, ¬ l.MatchesNull := by
    rw [hread, Option.some_inj, map_forgetNull_eq_self]
  refine ⟨hread, hback, fun other hother => ⟨fun hjson => ?_, fun hforget => ?_⟩, fun hnull hash map => ?_⟩
  · rw [hjson, ofJson?_toJson hother, Option.some_inj] at hread
    exact hread.symm
  · rw [← toJson_forgetNull lines, hforget, toJson_forgetNull]
  · rw [hback.2 hnull, Option.map_some]

/-- A listing with most kinds of fields: some left out, some `null`, a table and numbers. -/
def sample : Listing :=
  [⟨0, .comment "main:1"⟩,
    ⟨0, .op (.model ⟨"small", "provider/small", [("max_tokens", .nat 100), ("stop", .null)]⟩)⟩,
    ⟨0, .op (.prompt ⟨"ask", "Say \x7bword\x7d", none, some "Answer", some ⟨.similar, "human"⟩⟩)⟩,
    ⟨0, .op (.agent ⟨"helper", "ask", [], none, some "often", none, ["other"], []⟩)⟩,
    ⟨0, .op (.flow "run" ["x", "y"])⟩,
    ⟨1, .op (.loop (some 3))⟩,
    ⟨2, .op (.select (.path "x" ["kind"]))⟩,
    ⟨3, .op (.arm (some (.str "null")))⟩,
    ⟨4, .op (.runAgent none "helper" [.literal .null, .map [("a b", .not (.var "y"))]]
      (some (.ret (.list []))))⟩,
    ⟨3, .op (.arm none)⟩,
    ⟨4, .op (.abort none)⟩]

theorem read_back_iff_no_null_case_sample : (∀ l ∈ sample, l.Fits) ∧ ofJson? sample.toJson = some sample := by
  have hparams : ["max_tokens", "stop"].Pairwise (· < ·) := by decide
  have hfits : ∀ l ∈ sample, l.Fits := by
    refine forall_mem_cons.2 ⟨⟨by decide, nofun⟩, forall_mem_cons.2 ⟨⟨by decide, ?_⟩, ?_⟩⟩
    · rintro _ ⟨⟩
      exact hparams
    · simp [Line.Fits, Op.Fits, durationLimit, countLimit]
  have hnull : ∀ l ∈ sample, ¬ l.MatchesNull := by simp [sample, Line.MatchesNull]
  exact ⟨hfits, (read_back_iff_no_null_case sample hfits).2.1.2 hnull⟩

def firstCase (pattern : Option Json) : Listing :=
  [⟨0, .op (.flow "f" [])⟩, ⟨1, .op (.select (.var "input"))⟩, ⟨2, .op (.arm pattern)⟩,
    ⟨3, .op (.log (.literal (.nat 1)))⟩, ⟨2, .op (.arm none)⟩, ⟨3, .op (.log (.literal (.nat 2)))⟩]

/-- A match that starts with a case for `null` is read as one that starts with a case for everything. -/
theorem null_case_read_as_rest : ofJson? (toJson (firstCase (some .null))) = some (firstCase none) ∧
      render (firstCase (some .null)) true =
        "flow f():\n  match $input:\n    when null:\n      log 1\n    otherwise:\n      log 2\n" ∧
      render (firstCase none) true =
        "flow f():\n  match $input:\n    otherwise:\n      log 1\n    otherwise:\n      log 2\n" := by
  refine ⟨ofJson?_toJson ?_, by decide +kernel, by decide +kernel⟩
  simp [firstCase, Line.Fits, Op.Fits, durationLimit]

end Listing

end Workflow
