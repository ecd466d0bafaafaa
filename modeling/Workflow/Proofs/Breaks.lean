import Workflow.Listing.Basic
import Workflow.Text.Lines
import Mathlib.Logic.Basic

/-!
Line feeds in the texts of operations. Strings are quoted and numbers have none, but names and the keys of maps
are shown as they are. So an operation is shown with a line feed just if one of these has one.
-/

namespace Workflow

open List Text

/-! ### Values -/

@[simp] lemma Text.feed_mem_intercalate {α : Type} {mark : List Char} (hmark : '\n' ∉ mark)
    (text : α → List Char) : ∀ all : List α,
    '\n' ∈ mark.intercalate (all.map text) ↔ ∃ a ∈ all, '\n' ∈ text a
  | [] => by simp
  | [a] => by simp
  | a :: b :: rest => by
    have ih := feed_mem_intercalate hmark text (b :: rest)
    rw [map_cons] at ih
    rw [map_cons, map_cons, intercalate_cons_cons, mem_append, mem_append, ih]
    simp [hmark]

lemma Text.feed_mem_foldl {α : Type} (add : String → α → String) (Fed : α → Prop)
    (hadd : ∀ text a, '\n' ∈ (add text a).toList ↔ '\n' ∈ text.toList ∨ Fed a) (all : List α) :
    ∀ text, '\n' ∈ (all.foldl add text).toList ↔ '\n' ∈ text.toList ∨ ∃ a ∈ all, Fed a := by
  induction all with
  | nil => simp
  | cons a rest ih =>
    intro text
    rw [foldl_cons, ih, hadd]
    simp [or_assoc]

lemma Text.feed_not_mem_toDigits (n : Nat) : '\n' ∉ Nat.toDigits 10 n := fun h =>
  absurd (Nat.isDigit_of_mem_toDigits (by decide) (by decide) h) (by decide)

lemma Text.feed_not_mem_nat (n : Nat) : '\n' ∉ (toString n).toList := by
  rw [Nat.toString_eq_repr, Nat.toList_repr]
  exact feed_not_mem_toDigits n

lemma Text.feed_not_mem_int (n : Int) : '\n' ∉ (toString n).toList := by
  rw [Int.toString_eq_repr, Int.repr_eq_if]
  split <;> simp [feed_not_mem_toDigits]

namespace Decimal

lemma feed_not_mem_trimZeros (h : '\n' ∉ digits) : '\n' ∉ trimZeros digits := by
  unfold trimZeros
  split
  · decide
  · intro hmem
    rw [mem_reverse] at hmem
    exact h (mem_reverse.1 ((dropWhile_sublist _).mem hmem))

lemma feed_not_mem_shortest (bits : UInt64) : '\n' ∉ (shortest bits).digits := by
  unfold shortest
  dsimp only
  split
  · decide
  · cases hfound : ((List.range 18).drop 1).findSome? (withDigits (Binary.ofBits bits)
        (Ratio.scale2 (Binary.ofBits bits).mantissa (Binary.ofBits bits).exponent).log10) with
    | none => simp
    | some s =>
      obtain ⟨count, -, hs⟩ := List.exists_of_findSome?_eq_some hfound
      obtain ⟨n, -, rfl⟩ := Option.map_eq_some_iff.1 hs
      exact feed_not_mem_trimZeros (feed_not_mem_toDigits n)

lemma feed_not_mem_scientific (style : Style) (hwhole : '\n' ∉ style.whole.toList)
    (hplus : '\n' ∉ style.plus.toList) {s : Scientific} (hdigits : '\n' ∉ s.digits) :
    '\n' ∉ (s.render style).toList := by
  have htake : ∀ n, '\n' ∉ s.digits.take n := fun n h => hdigits (mem_of_mem_take h)
  have hdrop : ∀ n, '\n' ∉ s.digits.drop n := fun n h => hdigits (mem_of_mem_drop h)
  unfold Scientific.render
  dsimp only
  split
  · split
    · simp [hdigits]
    · split
      · simp [hdigits, hwhole]
      · simp [htake, hdrop]
  · have hsign : '\n' ∉ (if s.exponent < 0 then "-" else style.plus).toList := by
      split
      · decide
      · exact hplus
    simp only [String.toList_append, mem_append, not_or]
    refine ⟨⟨⟨?_, by decide⟩, hsign⟩, feed_not_mem_nat _⟩
    -- The first digit, with the others behind a point if there are any.
    split <;> simp_all

lemma feed_not_mem_render (x : Float) : '\n' ∉ (render Number.style x).toList := by
  have hdigits := feed_not_mem_scientific Number.style (by decide) (by decide)
    (feed_not_mem_shortest (x.toBits % 0x8000000000000000))
  unfold render
  dsimp only
  split <;> simpa using hdigits

end Decimal

namespace Json

lemma feed_not_mem_number (n : Number) : '\n' ∉ n.render.toList := by
  cases n with
  | int n => exact feed_not_mem_int n
  | float x => exact Decimal.feed_not_mem_render x

lemma feed_ne_hexDigit (h : n < 16) : '\n' ≠ hexDigit n := by
  have hall : ∀ n < 16, '\n' ≠ hexDigit n := by decide
  exact hall n h

lemma feed_not_mem_escapeChar (c : Char) : '\n' ∉ escapeChar c := by
  unfold escapeChar
  split
  all_goals try decide
  next hfeed _ _ _ _ =>
  split
  · have hhigh := feed_ne_hexDigit (n := c.toNat / 16) (by omega)
    have hlow := feed_ne_hexDigit (n := c.toNat % 16) (by omega)
    simp [hhigh, hlow]
  · simp [Ne.symm hfeed]

@[simp] lemma feed_not_mem_quote (s : String) : '\n' ∉ (quote s).toList := by
  simp [quote, feed_not_mem_escapeChar]

mutual

theorem feed_not_mem_render : ∀ v : Json, '\n' ∉ v.render.toList
  | null | bool true | bool false => by decide
  | num n => feed_not_mem_number n
  | str s => feed_not_mem_quote s
  | arr items => by
    have hitems := feed_not_mem_renderItems items
    simpa [render] using hitems
  | obj fields => by
    have hfields := feed_not_mem_renderFields fields
    simpa [render] using hfields

theorem feed_not_mem_renderItems (items : List Json) : ∀ s ∈ renderItems items, '\n' ∉ s.toList := by
  cases items with
  | nil => simp [renderItems]
  | cons v rest => exact forall_mem_cons.2 ⟨feed_not_mem_render v, feed_not_mem_renderItems rest⟩

theorem feed_not_mem_renderFields : ∀ fields : List (String × Json), ∀ s ∈ renderFields fields, '\n' ∉ s.toList
  | [] => by simp [renderFields]
  | (name, v) :: rest => by
    refine forall_mem_cons.2 ⟨?_, feed_not_mem_renderFields rest⟩
    simp [feed_not_mem_render v]

end

end Json

/-! ### Terms -/

namespace Term

mutual

def names : Term → List String
  | literal _ => []
  | var name => [name]
  | path name keys => name :: keys
  | list items => itemNames items
  | map entries => entryNames entries
  | binary _ left right => left.names ++ right.names
  | not operand => operand.names
  | filter items keys _ value => items.names ++ keys ++ value.names

def itemNames : List Term → List String
  | [] => []
  | t :: rest => t.names ++ itemNames rest

def entryNames : List (String × Term) → List String
  | [] => []
  | (_, t) :: rest => t.names ++ entryNames rest

end

mutual

def keys : Term → List String
  | literal _ | var _ | path _ _ => []
  | list items => itemKeys items
  | map entries => entryKeys entries
  | binary _ left right => left.keys ++ right.keys
  | not operand => operand.keys
  | filter items _ _ value => items.keys ++ value.keys

def itemKeys : List Term → List String
  | [] => []
  | t :: rest => t.keys ++ itemKeys rest

/-- The keys of a map and of the maps in its values. -/
def entryKeys : List (String × Term) → List String
  | [] => []
  | (key, t) :: rest => key :: t.keys ++ entryKeys rest

end

lemma feed_not_mem_symbol (op : BinOp) : '\n' ∉ op.symbol.toList := by cases op <;> decide

mutual

theorem feed_mem_display : ∀ t : Term, '\n' ∈ t.display.toList ↔
    (∃ s ∈ t.names, '\n' ∈ s.toList) ∨ ∃ s ∈ t.keys, '\n' ∈ s.toList
  | literal .. | var .. | path .. | list .. | map .. => by
    simp [display, names, keys, joined, Json.feed_not_mem_render, feed_mem_displayItems, feed_mem_displayEntries]
  | not operand => by simp [display, names, keys, feed_mem_display operand]
  | binary _ left right | filter left _ _ right => by
    simp [display, names, keys, joined, feed_not_mem_symbol, feed_mem_display left, feed_mem_display right,
      or_and_right, exists_or, or_assoc, or_left_comm]

theorem feed_mem_displayItems : ∀ items : List Term, (∃ s ∈ displayItems items, '\n' ∈ s.toList) ↔
    (∃ s ∈ itemNames items, '\n' ∈ s.toList) ∨ ∃ s ∈ itemKeys items, '\n' ∈ s.toList
  | [] => by simp [displayItems, itemNames, itemKeys]
  | t :: rest => by
    simp [displayItems, itemNames, itemKeys, feed_mem_display t, feed_mem_displayItems rest, or_and_right,
      exists_or, or_assoc, or_left_comm]

theorem feed_mem_displayEntries : ∀ entries : List (String × Term), (∃ s ∈ displayEntries entries, '\n' ∈ s.toList) ↔
      (∃ s ∈ entryNames entries, '\n' ∈ s.toList) ∨ ∃ s ∈ entryKeys entries, '\n' ∈ s.toList
  | [] => by simp [displayEntries, entryNames, entryKeys]
  | (key, t) :: rest => by
    simp [displayEntries, entryNames, entryKeys, feed_mem_display t, feed_mem_displayEntries rest,
      or_and_right, exists_or, or_assoc, or_left_comm]

end

end Term

/-! ### Operations -/

def EscalateAction.value? {ε : Type} : EscalateAction ε → Option ε
  | ret value => some value
  | .continue | abort => none

namespace Op

def terms : Op → List Term
  | forEach _ t | branch t | select t | assign _ t | setPath _ _ t | ret t | push t _ | log t => [t]
  | runAgent _ _ args onEscalate | callPrompt _ _ args _ onEscalate =>
    args ++ (onEscalate.bind EscalateAction.value?).toList
  | runFlow _ _ args => args
  | parallel calls => calls.flatMap (·.args)
  | abort message => message.toList
  | _ => []

/-- The names that an operation shows besides those in its terms. -/
def labels : Op → List String
  | model m => m.name :: m.params.names
  | schema s => s.name :: s.fields.map (·.name)
  | tool t => [t.name]
  | retry r => [r.name]
  | timeout t => [t.name]
  | guardrail g => [g.name]
  | prompt p => p.name :: p.model.toList ++ p.expecting.toList
  | agent a => a.name :: a.instruction :: a.tools ++ a.delegate ++ a.uses ++ a.retry.toList ++ a.timeout.toList
  | flow name params => name :: params
  | forEach name _ | assign name _ | push _ name | guard _ name _ => [name]
  | setPath name path _ => name :: path
  | runAgent target .. | callPrompt target .. | runFlow target .. => target.toList
  | parallel calls => calls.filterMap (·.target)
  | _ => []

def names (o : Op) : List String := o.labels ++ o.terms.flatMap Term.names

def keys (o : Op) : List String := o.terms.flatMap Term.keys

lemma feed_mem_displayArgs (args : List Term) :
    '\n' ∈ (displayArgs args).toList ↔ ∃ t ∈ args, '\n' ∈ t.display.toList := by
  have h := feed_mem_foldl (fun text arg => text ++ ", " ++ arg.display)
    (fun t : Term => '\n' ∈ t.display.toList) (by simp) args ""
  simpa [displayArgs] using h

lemma feed_mem_displayEscalate (onEscalate : Option (EscalateAction Term)) :
    '\n' ∈ (displayEscalate onEscalate).toList ↔
      ∃ t ∈ onEscalate.bind EscalateAction.value?, '\n' ∈ t.display.toList := by
  unfold displayEscalate
  split <;> simp [EscalateAction.value?]

lemma feed_mem_displayTarget (target : Option String) :
    '\n' ∈ (displayTarget target).toList ↔ ∃ s ∈ target, '\n' ∈ s.toList := by
  cases target <;> simp [displayTarget]

lemma feed_mem_setting {label : String} (hlabel : '\n' ∉ label.toList) (value : Option String) :
    '\n' ∈ (setting label value).toList ↔ ∃ s ∈ value, '\n' ∈ s.toList := by
  cases value <;> simp [setting, hlabel]

lemma feed_mem_listSetting {label : String} (hlabel : '\n' ∉ label.toList) (names : List String) :
    '\n' ∈ (listSetting label names).toList ↔ ∃ s ∈ names, '\n' ∈ s.toList := by
  cases names with
  | nil => simp [listSetting]
  | cons s rest => simp [listSetting, hlabel, -map_cons]

lemma feed_mem_displayCall (c : ParallelCall) : '\n' ∈ (displayCall c).toList ↔
      (∃ s ∈ c.target, '\n' ∈ s.toList) ∨ ∃ t ∈ c.args, '\n' ∈ t.display.toList := by
  rcases c with ⟨name, args, _ | target⟩ <;> simp [displayCall, or_comm]

lemma feed_not_mem_fieldType : ∀ t : FieldType, '\n' ∉ t.display.toList
  | .string | .int | .float | .bool => by decide
  | .list element => by simp [FieldType.display, feed_not_mem_fieldType element]

lemma feed_mem_schemaField (f : SchemaField) : '\n' ∈ f.display.toList ↔ '\n' ∈ f.name.toList := by
  rcases f with ⟨name, type, _ | _⟩ <;> simp [SchemaField.display, feed_not_mem_fieldType]

lemma feed_mem_display_parts (o : Op) : '\n' ∈ o.display.toList ↔
    (∃ s ∈ o.labels, '\n' ∈ s.toList) ∨ ∃ t ∈ o.terms, '\n' ∈ t.display.toList := by
  unfold display
  cases o with
  | model m =>
    have hparams := feed_mem_foldl (fun text e => text ++ " " ++ e.1 ++ "=" ++ e.2.render)
      (fun e : String × Json => '\n' ∈ e.1.toList) (by simp [Json.feed_not_mem_render]) m.params
      ("model " ++ m.name ++ " " ++ Json.quote m.model)
    refine hparams.trans ?_
    simp [labels, terms, Table.names]
  | tool t =>
    have hkind : '\n' ∉ t.kind.name.toList := by cases t.kind <;> decide
    simp [labels, terms, hkind]
  | retry r =>
    have hbackoff : '\n' ∉ r.backoff.name.toList := by cases r.backoff <;> decide
    simp [labels, terms, hbackoff, feed_not_mem_toDigits]
  | prompt p =>
    have hop : ∀ op : EscalationOp, '\n' ∉ op.symbol.toList := fun op => by cases op <;> decide
    simp [labels, terms, feed_mem_setting, hop, or_and_right, exists_or]
  | loop max => cases max <;> simp [labels, terms, feed_not_mem_toDigits]
  | handler event =>
    have hevent : '\n' ∉ event.name.toList := by cases event <;> decide
    simp [labels, terms, hevent]
  | arm pattern => cases pattern <;> simp [labels, terms, Json.feed_not_mem_render]
  | guard kind name message =>
    have hkind : '\n' ∉ kind.name.toList := by cases kind <;> decide
    cases message <;> simp [labels, terms, hkind]
  | callPrompt target name args override onEscalate =>
    cases override <;> simp [labels, terms, feed_mem_displayTarget, feed_mem_displayArgs,
      feed_mem_displayEscalate, or_and_right, exists_or]
  | parallel calls =>
    have hcalls : '\n' ∈ ("parallel [" ++ ", ".intercalate (calls.map displayCall) ++ "]").toList ↔
        ∃ c ∈ calls, '\n' ∈ (displayCall c).toList := by simp
    refine hcalls.trans ?_
    simp only [feed_mem_displayCall, labels, terms, mem_filterMap, mem_flatMap]
    constructor
    · rintro ⟨c, hc, ⟨s, hs, hfeed⟩ | ⟨t, ht, hfeed⟩⟩
      · exact .inl ⟨s, ⟨c, hc, hs⟩, hfeed⟩
      · exact .inr ⟨t, ⟨c, hc, ht⟩, hfeed⟩
    · rintro (⟨s, ⟨c, hc, hs⟩, hfeed⟩ | ⟨t, ⟨c, hc, ht⟩, hfeed⟩)
      · exact ⟨c, hc, .inl ⟨s, hs, hfeed⟩⟩
      · exact ⟨c, hc, .inr ⟨t, ht, hfeed⟩⟩
  | abort message => cases message <;> simp [labels, terms]
  | push value target => simp [labels, terms, or_comm]
  | _ => simp [labels, terms, feed_mem_schemaField, feed_not_mem_toDigits, feed_mem_setting, feed_mem_listSetting,
      feed_mem_displayTarget, feed_mem_displayArgs, feed_mem_displayEscalate, or_and_right, exists_or, or_assoc]

lemma feed_mem_display (o : Op) : '\n' ∈ o.display.toList ↔
    (∃ s ∈ o.names, '\n' ∈ s.toList) ∨ ∃ s ∈ o.keys, '\n' ∈ s.toList := by
  rw [feed_mem_display_parts]
  simp only [Term.feed_mem_display, names, keys, mem_append, mem_flatMap]
  constructor
  · rintro (⟨s, hs, hfeed⟩ | ⟨t, ht, ⟨s, hs, hfeed⟩ | ⟨s, hs, hfeed⟩⟩)
    · exact .inl ⟨s, .inl hs, hfeed⟩
    · exact .inl ⟨s, .inr ⟨t, ht, hs⟩, hfeed⟩
    · exact .inr ⟨s, ⟨t, ht, hs⟩, hfeed⟩
  · rintro (⟨s, hs | ⟨t, ht, hs⟩, hfeed⟩ | ⟨s, ⟨t, ht, hs⟩, hfeed⟩)
    · exact .inl ⟨s, hs, hfeed⟩
    · exact .inr ⟨t, ht, .inl ⟨s, hs, hfeed⟩⟩
    · exact .inr ⟨t, ht, .inr ⟨s, hs, hfeed⟩⟩

end Op

/-! ### Lines -/

namespace Text

lemma splitFeeds_cons_of_ne (hc : c ≠ '\n') {lines : List (List Char)} (h : splitFeeds text = line :: lines) :
    splitFeeds (c :: text) = (c :: line) :: lines := by
  rw [splitFeeds.eq_3 c text hc, h]

lemma splitFeeds_append_feed (hline : '\n' ∉ line) (rest : List Char) :
    splitFeeds (line ++ '\n' :: rest) = line :: splitFeeds rest := by
  induction line with
  | nil => rfl
  | cons c line ih =>
    rw [mem_cons, not_or] at hline
    exact splitFeeds_cons_of_ne (Ne.symm hline.1) (ih hline.2)

lemma length_splitFeeds (text : List Char) : (splitFeeds text).length = text.count '\n' + 1 := by
  fun_induction splitFeeds text with
  | case1 => rfl
  | case2 rest ih => simp [ih]
  | case3 c rest hc hnil ih => simp [hnil] at ih
  | case4 c rest hc line lines hsplit ih =>
    rw [hsplit] at ih
    rw [count_cons_of_ne hc]
    exact ih

lemma length_le_count_feeds (lines : List (List Char)) : lines.length ≤ (lines.flatMap (· ++ ['\n'])).count '\n' := by
  induction lines with
  | nil => exact Nat.le_refl 0
  | cons l rest ih =>
    rw [flatMap_cons, count_append, count_append, count_singleton_self, length_cons]
    omega

/-- A text that ends each of some lines with a line feed has just these lines if and only if none of them has
one. -/
lemma splitFeeds_flatMap_iff (lines : List (List Char)) :
    splitFeeds (lines.flatMap (· ++ ['\n'])) = lines ++ [[]] ↔ ∀ l ∈ lines, '\n' ∉ l := by
  constructor
  · intro h
    have hlength := congrArg List.length h
    rw [length_splitFeeds, length_append, length_singleton] at hlength
    replace hlength : (lines.flatMap (· ++ ['\n'])).count '\n' = lines.length := by omega
    clear h
    induction lines with
    | nil => simp
    | cons l rest ih =>
      have hle := length_le_count_feeds rest
      rw [flatMap_cons, count_append, count_append, count_singleton_self, length_cons] at hlength
      have hcount : l.count '\n' = 0 := by omega
      exact forall_mem_cons.2 ⟨count_eq_zero.1 hcount, ih (by omega)⟩
  · intro h
    induction lines with
    | nil => rfl
    | cons l rest ih =>
      rw [forall_mem_cons] at h
      rw [flatMap_cons, append_assoc, singleton_append, splitFeeds_append_feed h.1, ih h.2]
      rfl

end Text

end Workflow
