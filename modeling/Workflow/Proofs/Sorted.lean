import Mathlib.Tactic.Lemma
import Workflow.Grammar.Parse
import Workflow.Table

/-!
Names in increasing order. A text that is put into an increasing list is there afterwards, the list is
still increasing and has nothing else that is new. The names of a table are such a list.
-/

namespace Workflow

open List

lemma mem_insertText {text x : String} {texts : List String} : x ∈ insertText text texts ↔ x = text ∨ x ∈ texts := by
  induction texts with
  | nil => simp [insertText]
  | cons other rest ih =>
    unfold insertText
    split
    · simp
    · split
      · next heq => simp [heq]
      · rw [mem_cons, ih, mem_cons]
        exact or_left_comm

lemma pairwise_insertText {texts : List String} (h : texts.Pairwise (· < ·)) :
    (insertText text texts).Pairwise (· < ·) := by
  induction texts with
  | nil => simp [insertText]
  | cons other rest ih =>
    obtain ⟨hother, hrest⟩ := pairwise_cons.1 h
    unfold insertText
    split
    · next hlt =>
      refine pairwise_cons.2 ⟨fun x hx => ?_, h⟩
      rcases mem_cons.1 hx with rfl | hx
      · exact hlt
      · exact String.lt_trans hlt (hother x hx)
    · next hnot =>
      split
      · exact h
      · next hne =>
        refine pairwise_cons.2 ⟨fun x hx => ?_, ih hrest⟩
        rcases mem_insertText.1 hx with rfl | hx
        · exact Std.lt_of_le_of_ne (String.not_lt.1 hnot) (Ne.symm hne)
        · exact hother x hx

lemma Table.names_insert {α : Type} (name : String) (a : α) : ∀ t : Table α,
    (t.insert name a).names = insertText name t.names
  | [] => rfl
  | (k, v) :: rest => by
    have ih := names_insert name a rest
    unfold Table.insert
    simp only [names, map_cons, insertText, eq_comm (a := name) (b := k)] at ih ⊢
    split
    · rfl
    · split
      · next heq => rw [map_cons, heq]
      · rw [map_cons, ih]

lemma Table.insert_perm {α : Type} {name : String} {a : α} : ∀ {t : Table α}, name ∉ t.names →
    (t.insert name a).Perm ((name, a) :: t)
  | [], _ => .refl _
  | (k, v) :: rest, h => by
    simp only [Table.names, map_cons, mem_cons, not_or] at h
    unfold Table.insert
    rw [if_neg (Ne.symm h.1)]
    split
    · exact .refl _
    · exact ((insert_perm h.2).cons _).trans (.swap ..)

lemma Table.names_ofList {α : Type} {entries : List (String × α)} {s : String}
    (h : s ∈ (ofList entries).names) : s ∈ entries.map (·.1) := by
  suffices hfold : ∀ t : Table α, s ∈ (entries.foldl (fun t e => t.insert e.1 e.2) t).names →
      s ∈ t.names ∨ s ∈ entries.map (·.1) from (hfold [] h).resolve_left not_mem_nil
  clear h
  induction entries with
  | nil => exact fun _ => .inl
  | cons e rest ih =>
    intro t h
    rcases ih _ h with h | h
    · rw [names_insert, mem_insertText] at h
      rcases h with rfl | h
      · exact .inr mem_cons_self
      · exact .inl h
    · exact .inr (.tail _ h)

lemma Table.insert_of_forall_lt {α : Type} (a : α) : ∀ {t : Table α},
    (∀ k ∈ t.names, k < name) → t.insert name a = t ++ [(name, a)]
  | [], _ => rfl
  | (k, v) :: rest, h => by
    rw [names, map_cons, forall_mem_cons] at h
    have hne : k ≠ name := fun heq => String.lt_irrefl name (heq ▸ h.1)
    rw [insert, if_neg (String.lt_asymm h.1), if_neg hne, insert_of_forall_lt a h.2]
    rfl

lemma Table.ofList_of_pairwise {α : Type} {t : Table α} (h : t.names.Pairwise (· < ·)) : ofList t = t := by
  suffices hfold : ∀ (rest before : Table α), (before ++ rest : Table α).names.Pairwise (· < ·) →
      rest.foldl (fun t e => t.insert e.1 e.2) before = before ++ rest from hfold t [] h
  intro rest
  induction rest with
  | nil => exact fun before _ => (append_nil before).symm
  | cons e rest ih =>
    intro before hsorted
    have hlast : ∀ k ∈ before.names, k < e.1 := by
      simp only [names, map_append, map_cons, pairwise_append] at hsorted
      exact fun k hk => hsorted.2.2 k hk e.1 mem_cons_self
    rw [append_cons] at hsorted
    rw [foldl_cons, insert_of_forall_lt e.2 hlast, ih (before ++ [e]) hsorted]
    exact (append_cons before e rest).symm

end Workflow
