import Workflow.Proofs.Derivation

/-!
Prefixes of sentences. A reader of a grammar has tokens behind it and symbols ahead of it. The terminals that
can come first behind some tokens are those that the grammar asks for there. Where every rule derives something,
whatever has been read is the start of a sentence.
-/

namespace Workflow

open List

variable {symbols todo : List Symbol} {before : List Token}

/-- Behind some tokens, some symbols are to come. -/
inductive Awaits (rules : List Rule) (phrase : Nonterminal) : List Token → List Symbol → Prop where
  | start : Awaits rules phrase [] [.sub phrase]
  | expand {before : List Token} {r : Rule} {rest : List Symbol} (known : r ∈ rules)
      (ahead : Awaits rules phrase before (.sub r.head :: rest)) :
      Awaits rules phrase before (r.body ++ rest)
  | read {before : List Token} {t : Terminal} {token : Token} {rest : List Symbol}
      (ahead : Awaits rules phrase before (.terminal t :: rest)) (accepted : t.accepts token = true) :
      Awaits rules phrase (before ++ [token]) rest

def Asks (rules : List Rule) (phrase : Nonterminal) (before : List Token) (t : Terminal) : Prop :=
  ∃ rest, Awaits rules phrase before (.terminal t :: rest)

def Begins (rules : List Rule) (phrase : Nonterminal) (tokens : List Token) : Prop :=
  ∃ more, Derives rules (.sub phrase) (tokens ++ more)

section

variable {rules : List Rule} {phrase : Nonterminal} {token : Token} {others : List Symbol}
  {known : List Nonterminal} {w : List Token}

/-! ### Derivations of several symbols -/

lemma derivesAll_append (h : DerivesAll rules symbols u) (h' : DerivesAll rules others v) :
    DerivesAll rules (symbols ++ others) (u ++ v) := by
  induction symbols generalizing u with
  | nil =>
    cases h
    exact h'
  | cons s symbols ih =>
    cases h with
    | cons first rest =>
      rw [append_assoc]
      exact .cons first (ih rest)

lemma exists_of_derivesAll_append (h : DerivesAll rules (symbols ++ others) w) :
    ∃ u v, w = u ++ v ∧ DerivesAll rules symbols u ∧ DerivesAll rules others v := by
  induction symbols generalizing w with
  | nil => exact ⟨[], w, rfl, .nil, h⟩
  | cons s symbols ih =>
    rcases h with _ | ⟨first, rest⟩
    obtain ⟨u, v, rfl, hsymbols, hothers⟩ := ih rest
    exact ⟨_ ++ u, v, (append_assoc ..).symm, .cons first hsymbols, hothers⟩

/-! ### Reading -/

mutual

theorem Derives.awaits {before : List Token} : ∀ {s u rest},
    Derives rules s u → Awaits rules phrase before (s :: rest) → Awaits rules phrase (before ++ u) rest
  | _, _, _, .terminal accepted, h => h.read accepted
  | _, _, _, .phrase known body, h => body.awaits (h.expand known)

theorem DerivesAll.awaits {before : List Token} :
    ∀ {symbols u rest}, DerivesAll rules symbols u → Awaits rules phrase before (symbols ++ rest) →
    Awaits rules phrase (before ++ u) rest
  | _, _, _, .nil, h => by rwa [append_nil]
  | _, _, _, .cons first others, h => by
    rw [← append_assoc]
    exact others.awaits (first.awaits h)

end

mutual

theorem Derives.asks {before u' u'' : List Token} : ∀ {s u rest}, Derives rules s u → u = u' ++ token :: u'' →
    Awaits rules phrase before (s :: rest) → ∃ t, Asks rules phrase (before ++ u') t ∧ t.accepts token = true
  | _, _, rest, .terminal (t := t) accepted, hu, h => by
    obtain ⟨rfl, rfl, -⟩ : u' = [] ∧ _ = token ∧ u'' = [] := by
      cases u' with
      | nil => simpa using hu
      | cons x u' => simp at hu
    rw [append_nil]
    exact ⟨t, ⟨rest, h⟩, accepted⟩
  | _, _, _, .phrase known body, hu, h => body.asks hu (h.expand known)

theorem DerivesAll.asks {before u' u'' : List Token} :
    ∀ {symbols u rest}, DerivesAll rules symbols u → u = u' ++ token :: u'' →
    Awaits rules phrase before (symbols ++ rest) → ∃ t, Asks rules phrase (before ++ u') t ∧ t.accepts token = true
  | _, _, _, .nil, hu, _ => by simp at hu
  | _, _, _, .cons (u := v) first others, hu, h => by
    -- the token belongs to the first symbol or to those behind it
    rcases append_eq_append_iff.1 hu with ⟨w, rfl, hothers⟩ | ⟨w, hfirst, htail⟩
    · rw [← append_assoc]
      exact others.asks hothers (first.awaits h)
    · cases w with
      | nil =>
        rw [append_nil] at hfirst
        subst hfirst
        have hothers : _ = [] ++ token :: u'' := htail.symm
        simpa using others.asks hothers (first.awaits h)
      | cons x w =>
        obtain ⟨rfl, -⟩ := List.cons.inj htail
        exact first.asks hfirst h

end

lemma asks_of_begins (h : Begins rules phrase (before ++ [token])) :
    ∃ t, Asks rules phrase before t ∧ t.accepts token = true := by
  obtain ⟨more, h⟩ := h
  exact h.asks (by rw [append_assoc]; rfl) .start

/-! ### Sentences that begin so -/

lemma Awaits.derives (h : Awaits rules phrase before todo) (hw : DerivesAll rules todo w) :
    Derives rules (.sub phrase) (before ++ w) := by
  induction h generalizing w with
  | start =>
    rcases hw with _ | ⟨first, rest⟩
    cases rest
    simpa using first
  | expand known _ ih =>
    obtain ⟨u, v, rfl, hbody, hrest⟩ := exists_of_derivesAll_append hw
    exact ih (.cons (.phrase known hbody) hrest)
  | read _ accepted ih =>
    rw [append_assoc]
    exact ih (.cons (.terminal accepted) hw)

def Productive (rules : List Rule) : Prop := ∀ r ∈ rules, ∃ w, DerivesAll rules r.body w

lemma Awaits.productive (hrules : Productive rules) (hphrase : ∃ r ∈ rules, r.head = phrase)
    (h : Awaits rules phrase before todo) : ∃ w, DerivesAll rules todo w := by
  induction h with
  | start =>
    obtain ⟨r, hr, rfl⟩ := hphrase
    obtain ⟨w, hw⟩ := hrules r hr
    exact ⟨w ++ [], .cons (.phrase hr hw) .nil⟩
  | expand known _ ih =>
    obtain ⟨w, hw⟩ := ih
    rcases hw with _ | ⟨_, hrest⟩
    obtain ⟨u, hbody⟩ := hrules _ known
    exact ⟨_, derivesAll_append hbody hrest⟩
  | read _ _ ih =>
    obtain ⟨w, hw⟩ := ih
    rcases hw with _ | ⟨_, hrest⟩
    exact ⟨_, hrest⟩

lemma Awaits.begins (hrules : Productive rules) (hphrase : ∃ r ∈ rules, r.head = phrase)
    (h : Awaits rules phrase before todo) : Begins rules phrase before := by
  obtain ⟨w, hw⟩ := h.productive hrules hphrase
  exact ⟨w, h.derives hw⟩

lemma Asks.begins (hrules : Productive rules) (hphrase : ∃ r ∈ rules, r.head = phrase)
    (h : Asks rules phrase before t) (accepted : t.accepts token = true) :
    Begins rules phrase (before ++ [token]) := by
  obtain ⟨rest, h⟩ := h
  exact (h.read accepted).begins hrules hphrase

/-! ### Rules that derive something -/

def Terminal.sample : Terminal → Token
  | kind k => ⟨k, default, ""⟩
  | word text => ⟨.ident, default, text⟩

lemma Terminal.accepts_sample (t : Terminal) : t.accepts t.sample = true := by
  cases t <;> simp [Terminal.accepts, Terminal.sample]

namespace Grammar

def isFormed (known : List Nonterminal) : Symbol → Bool
  | .terminal _ => true
  | .sub p => known.contains p

/-- Phrases that derive something, given others that do: one way through the rules, the last one
first. -/
def formed (known : List Nonterminal) : List Rule → List Nonterminal
  | [] => known
  | r :: rest =>
    let known := formed known rest
    if r.body.all (isFormed known) && !known.contains r.head then r.head :: known else known

lemma exists_derivesAll (hknown : ∀ p ∈ known, ∃ w, Derives rules (.sub p) w)
    (h : symbols.all (isFormed known) = true) : ∃ w, DerivesAll rules symbols w := by
  induction symbols with
  | nil => exact ⟨[], .nil⟩
  | cons s symbols ih =>
    rw [all_cons, Bool.and_eq_true] at h
    obtain ⟨w, hw⟩ := ih h.2
    cases s with
    | terminal t => exact ⟨_, .cons (.terminal t.accepts_sample) hw⟩
    | sub p =>
      obtain ⟨u, hu⟩ := hknown p (contains_iff_mem.1 h.1)
      exact ⟨_, .cons hu hw⟩

lemma exists_derives (hknown : ∀ p ∈ known, ∃ w, Derives rules (.sub p) w) :
    ∀ {part}, part ⊆ rules → ∀ p ∈ formed known part, ∃ w, Derives rules (.sub p) w := by
  intro part
  induction part with
  | nil => exact fun _ => hknown
  | cons r rest ih =>
    intro hpart p hp
    have hrest := ih (subset_of_cons_subset hpart)
    rw [formed] at hp
    split at hp
    · next hformed =>
      rw [Bool.and_eq_true] at hformed
      rcases mem_cons.1 hp with rfl | hp
      · obtain ⟨w, hw⟩ := exists_derivesAll hrest hformed.1
        exact ⟨w, .phrase (hpart mem_cons_self) hw⟩
      · exact hrest p hp
    · exact hrest p hp

end Grammar

end

namespace Grammar

lemma productive : Productive rules := by
  have hformed : (rules.all fun r => r.body.all (isFormed (formed (formed [] rules) rules))) = true := by
    decide +kernel
  have hnone : ∀ p ∈ ([] : List Nonterminal), ∃ w, Derives rules (.sub p) w :=
    nofun
  have honce := exists_derives hnone (List.Subset.refl rules)
  have htwice := exists_derives honce (List.Subset.refl rules)
  intro r hr
  exact exists_derivesAll htwice (all_eq_true.1 hformed r hr)

lemma exists_unit : ∃ r ∈ rules, r.head = .unit := ⟨⟨.unit, [.sub .items]⟩, by decide, rfl⟩

end Grammar

end Workflow
