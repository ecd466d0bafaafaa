import Mathlib.Data.List.Induction
import Workflow.Proofs.Chart
import Workflow.Proofs.Separation

/-!
A grammar that some guide fits is unambiguous: tokens have at most one derivation from a phrase. Two trees that
spell one symbol are compared from the left, by the size of a tree: a tree is grown from a base by links, and
where two rules part, the guide tells them apart by the first symbols that they do not share.

Main statement: the rules of the language have such a guide, so the tree of a source does not depend on the
order in which rules are tried.
-/

namespace Workflow

open List Chart

variable {phrase : Nonterminal} {tokens v w : List Token} {symbols : List Symbol} {trees : List Tree}

/-! ### Trees of symbols -/

namespace Tree

/-- A tree spells a symbol, and its nodes span what is below them. -/
structure Reads (rules : List Rule) (s : Symbol) (t : Tree) : Prop where
  spells : t.Spells rules s
  formed : t.Formed

/-- The phrase that grows from a base by links, each of which starts with what has grown so far. -/
def grow (phrase : Nonterminal) (base : List Tree) (links : List (List Tree)) : Tree :=
  links.foldl (fun t link => form phrase (t :: link)) (form phrase base)

variable {rules : List Rule}

lemma forall₂_reads_iff : List.Forall₂ (Reads rules) symbols trees ↔
      SpellsAll rules symbols trees ∧ ∀ t ∈ trees, t.Formed := by
  rw [spellsAll_iff]
  induction symbols generalizing trees with
  | nil => cases trees <;> simp
  | cons s symbols ih =>
    cases trees with
    | nil => simp
    | cons t trees =>
      simp only [forall₂_cons, ih, forall_mem_cons]
      exact ⟨fun ⟨h, hrest, hformed⟩ => ⟨⟨h.spells, hrest⟩, h.formed, hformed⟩,
        fun ⟨⟨h, hrest⟩, hfirst, hformed⟩ => ⟨⟨h, hfirst⟩, hrest, hformed⟩⟩

lemma derivesAll_of_reads (h : List.Forall₂ (Reads rules) symbols trees) :
    DerivesAll rules symbols (tokensOf trees) :=
  derivesAll_of_forall₂ (h.imp fun _ _ h => derives_of_spells _ h.spells)

lemma Reads.eq_leaf {terminal : Terminal} {t : Tree} (h : t.Reads rules (.terminal terminal)) :
    ∃ token, t = terminal.leaf token := by
  obtain ⟨token, ht, -⟩ := spells_terminal.1 h.spells
  exact ⟨token, ht⟩

lemma Reads.eq_form {t : Tree} (h : t.Reads rules (.sub phrase)) :
    ∃ body children, ⟨phrase, body⟩ ∈ rules ∧ List.Forall₂ (Reads rules) body children ∧ t = form phrase children := by
  match t, h with
  | node head children span, ⟨hspells, hformed⟩ =>
    obtain ⟨rfl, r, hr, rfl, hbody⟩ := hspells
    obtain ⟨rfl, hchildren⟩ := hformed
    exact ⟨r.body, children, hr, forall₂_reads_iff.2 ⟨hbody, formedAll_iff.1 hchildren⟩, rfl⟩

lemma sizeOf_lt_form (h : t ∈ children) : sizeOf t < sizeOf (form phrase children) := by
  have := sizeOf_lt_of_mem h
  simp only [form, node.sizeOf_spec]
  omega

lemma grow_concat (phrase : Nonterminal) (base : List Tree) (links : List (List Tree)) (link : List Tree) :
    grow phrase base (links ++ [link]) = form phrase (grow phrase base links :: link) := by
  simp [grow]

lemma tokens_grow (phrase : Nonterminal) (base : List Tree) (links : List (List Tree)) :
    (grow phrase base links).tokens = tokensOf base ++ links.flatMap tokensOf := by
  induction links using List.reverseRecOn with
  | nil => simp [grow]
  | append_singleton links link ih => simp [grow_concat, tokensOf, ih]

/-- A tree of a phrase has a base and links that are rules of the phrase, and all that they hold is
smaller than the tree. -/
lemma Reads.exists_grow {t : Tree} (h : t.Reads rules (.sub phrase)) : ∃ base links, t = grow phrase base links ∧
      (∃ body ∈ Rule.bases rules phrase, List.Forall₂ (Reads rules) body base) ∧
      (∀ link ∈ links, ∃ body ∈ Rule.links rules phrase, List.Forall₂ (Reads rules) body link) ∧
      (∀ u ∈ base, sizeOf u < sizeOf t) ∧ ∀ link ∈ links, ∀ u ∈ link, sizeOf u < sizeOf t := by
  obtain ⟨body, children, hbody, hchildren, rfl⟩ := h.eq_form
  by_cases hhead : body.head? = some (.sub phrase)
  · obtain ⟨rest, rfl⟩ := List.head?_eq_some_iff.1 hhead
    obtain ⟨t, link, ht, hlink, rfl⟩ := forall₂_cons_left_iff.1 hchildren
    have hlt : sizeOf t < sizeOf (form phrase (t :: link)) := sizeOf_lt_form mem_cons_self
    obtain ⟨base, links, rfl, hbase, hlinks, hsmall, hsmalls⟩ := ht.exists_grow
    refine ⟨base, links ++ [link], (grow_concat ..).symm, hbase, ?_, ?_, ?_⟩
    · rw [forall_mem_append, forall_mem_singleton]
      exact ⟨hlinks, rest, Rule.mem_links.2 hbody, hlink⟩
    · exact fun u hu => Nat.lt_trans (hsmall u hu) hlt
    · rw [forall_mem_append, forall_mem_singleton]
      exact ⟨fun l hl u hu => Nat.lt_trans (hsmalls l hl u hu) hlt, fun u hu => sizeOf_lt_form (.tail _ hu)⟩
  · exact ⟨children, [], rfl, ⟨body, Rule.mem_bases.2 ⟨hbody, hhead⟩, hchildren⟩, by simp,
      fun u hu => sizeOf_lt_form hu, by simp⟩
termination_by sizeOf t

end Tree

/-! ### One reading -/

namespace Guide

open Workflow.Tree

variable (g : Guide) (rules : List Rule)

/-- Tokens come behind a phrase as the guide says. -/
def Follows (phrase : Nonterminal) (tokens : List Token) : Prop :=
  ∃ known ∈ g.behind phrase, StartsWith rules known tokens

/-- Tokens come behind the base or a link of a phrase. -/
def Beyond (phrase : Nonterminal) (tokens : List Token) : Prop :=
  ∃ more ∈ g.beyond rules phrase, StartsWith rules more tokens

/-- Tokens come behind a symbol as the guide says; anything may come behind a terminal. -/
def Trails (s : Symbol) (tokens : List Token) : Prop :=
  ∀ phrase, s = .sub phrase → g.Follows rules phrase tokens

/-- All that reads a symbol where some tree does is that tree, with the same tokens behind it. -/
def ReadsOnce (t : Tree) : Prop :=
  ∀ {s : Symbol} {u : Tree} {v w : List Token}, t.Reads rules s → u.Reads rules s →
    g.Trails rules s v → g.Trails rules s w → t.tokens ++ v = u.tokens ++ w → t = u ∧ v = w

variable {g rules}

lemma Follows.beyond (h : g.Follows rules phrase v) : g.Beyond rules phrase v := by
  obtain ⟨known, hknown, hstarts⟩ := h
  exact ⟨known, mem_append_left _ hknown, hstarts⟩

lemma beyond_of_link {body : List Symbol} {link : List Tree}
    (hbody : body ∈ Rule.links rules phrase) (hlink : List.Forall₂ (Reads rules) body link)
    (v : List Token) : g.Beyond rules phrase (tokensOf link ++ v) :=
  ⟨body, mem_append_right _ hbody, .of_derivesAll (derivesAll_of_reads hlink) v⟩

lemma trails_of_leads (hleads : g.leads rules phrase (s :: rest) = true) (hrest : DerivesAll rules rest u)
    (hv : g.Beyond rules phrase v) : g.Trails rules s (u ++ v) := by
  rintro inner rfl
  simp only [leads, Bool.and_eq_true, all_eq_true, any_eq_true, isPrefixOf_iff_prefix] at hleads
  -- the rest of the rule comes first, and what is beyond the phrase only behind all of it
  have hfollow : ∃ follow ∈ (if rest = [] then g.beyond rules phrase else [rest]),
      StartsWith rules follow (u ++ v) := by
    split
    case isTrue hnil =>
      subst hnil
      cases hrest
      exact hv
    case isFalse => exact ⟨rest, mem_singleton_self rest, .of_derivesAll hrest v⟩
  obtain ⟨follow, hmem, hstarts⟩ := hfollow
  obtain ⟨known, hknown, hbefore⟩ := hleads.1 follow hmem
  exact ⟨known, hknown, hstarts.of_longer hbefore⟩

lemma leads_tail (h : g.leads rules phrase (s :: rest) = true) : g.leads rules phrase rest = true := by
  cases s with
  | terminal t => exact h
  | sub inner => exact (Bool.and_eq_true_iff.1 h).2

lemma rests_self : ∀ symbols : List Symbol, rests symbols symbols = ([], [])
  | [] => rfl
  | s :: symbols => by rw [rests, if_pos rfl, rests_self symbols]

/-- Two readings agree along the symbols that their rules have in common, and what is left reads the symbols
behind those. -/
lemma rests_read (honce : ∀ t ∈ trees, g.ReadsOnce rules t) (htrees : List.Forall₂ (Reads rules) symbols trees)
    (hmore : List.Forall₂ (Reads rules) others more) (hleads : g.leads rules phrase symbols = true)
    (hleads' : g.leads rules phrase others = true) (hv : g.Beyond rules phrase v) (hw : g.Beyond rules phrase w)
    (heq : tokensOf trees ++ v = tokensOf more ++ w) :
    ∃ trees' more', List.Forall₂ (Reads rules) (rests symbols others).1 trees' ∧
      List.Forall₂ (Reads rules) (rests symbols others).2 more' ∧
      tokensOf trees' ++ v = tokensOf more' ++ w ∧ (symbols = others → trees = more) := by
  induction htrees generalizing others more with
  | nil =>
    refine ⟨[], more, .nil, by simpa [rests] using hmore, heq, ?_⟩
    rintro rfl
    exact (forall₂_nil_left_iff.1 hmore).symm
  | @cons s t symbols trees ht htrees ih =>
    cases hmore with
    | nil => exact ⟨t :: trees, [], .cons ht htrees, .nil, heq, by simp⟩
    | @cons s' u others more hu hmore =>
      by_cases hs : s = s'
      · subst hs
        simp only [tokensOf, append_assoc] at heq
        have hrest := trails_of_leads hleads (derivesAll_of_reads htrees) hv
        have hrest' := trails_of_leads hleads' (derivesAll_of_reads hmore) hw
        obtain ⟨rfl, htail⟩ := honce t mem_cons_self ht hu hrest hrest' heq
        obtain ⟨trees', more', htrees', hmore', heq', hsame⟩ :=
          ih (fun t ht => honce t (.tail _ ht)) hmore (leads_tail hleads) (leads_tail hleads') htail
        rw [rests, if_pos rfl]
        exact ⟨trees', more', htrees', hmore', heq', by simpa using hsame⟩
      · rw [rests, if_neg hs]
        exact ⟨t :: trees, u :: more, .cons ht htrees, .cons hu hmore, heq, by simp [hs]⟩

lemma Sorts.reads_once {bodies : List (List Symbol)} (hsorts : g.Sorts rules phrase bodies)
    {others : List Symbol} {more : List Tree} (hsymbols : symbols ∈ bodies) (hothers : others ∈ bodies)
    (honce : ∀ t ∈ trees, g.ReadsOnce rules t) (htrees : List.Forall₂ (Reads rules) symbols trees)
    (hmore : List.Forall₂ (Reads rules) others more) (hleads : g.leads rules phrase symbols = true)
    (hleads' : g.leads rules phrase others = true) (hv : g.Beyond rules phrase v) (hw : g.Beyond rules phrase w)
    (heq : tokensOf trees ++ v = tokensOf more ++ w) : trees = more ∧ v = w := by
  obtain ⟨trees', more', htrees', hmore', heq', hsame⟩ :=
    rests_read honce htrees hmore hleads hleads' hv hw heq
  by_cases hbody : symbols = others
  · subst hbody
    rw [rests_self] at htrees' hmore'
    cases htrees'
    cases hmore'
    exact ⟨hsame rfl, heq'⟩
  · exfalso
    have hderives := derivesAll_of_reads htrees'
    have hderives' := derivesAll_of_reads hmore'
    rcases hsorts _ hsymbols _ hothers hbody with hapart | hapart
    · exact hapart _ (.of_derivesAll hderives v) (heq' ▸ .of_derivesAll hderives' w)
    · obtain ⟨a, ha, hstarts⟩ := hv
      obtain ⟨b, hb, hstarts'⟩ := hw
      exact hapart a ha b hb _ (.append hderives hstarts) (heq' ▸ .append hderives' hstarts')

lemma beyond_of_links {links : List (List Tree)}
    (hlinks : ∀ link ∈ links, ∃ body ∈ Rule.links rules phrase, List.Forall₂ (Reads rules) body link)
    (hv : g.Follows rules phrase v) : g.Beyond rules phrase (links.flatMap tokensOf ++ v) := by
  cases links with
  | nil => exact hv.beyond
  | cons link links =>
    obtain ⟨body, hbody, hlink⟩ := hlinks link mem_cons_self
    rw [flatMap_cons, append_assoc]
    exact beyond_of_link hbody hlink _

lemma Fits.not_link (hfits : g.Fits rules)
    (hlink : ∃ body ∈ Rule.links rules phrase, List.Forall₂ (Reads rules) body link) (hv : g.Follows rules phrase v) :
    v ≠ tokensOf link ++ w := by
  rintro rfl
  obtain ⟨body, hbody, hreads⟩ := hlink
  obtain ⟨known, hknown, hstarts⟩ := hv
  exact hfits.stops phrase body hbody known hknown _ (.of_derivesAll (derivesAll_of_reads hreads) w) hstarts

lemma Fits.links_once (hfits : g.Fits rules) {links others : List (List Tree)}
    (honce : ∀ link ∈ links, ∀ t ∈ link, g.ReadsOnce rules t)
    (hlinks : ∀ link ∈ links, ∃ body ∈ Rule.links rules phrase, List.Forall₂ (Reads rules) body link)
    (hothers : ∀ link ∈ others, ∃ body ∈ Rule.links rules phrase, List.Forall₂ (Reads rules) body link)
    (hv : g.Follows rules phrase v) (hw : g.Follows rules phrase w)
    (heq : links.flatMap tokensOf ++ v = others.flatMap tokensOf ++ w) : links = others ∧ v = w := by
  induction links generalizing others with
  | nil =>
    cases others with
    | nil => exact ⟨rfl, heq⟩
    | cons other others =>
      rw [flatMap_cons, append_assoc] at heq
      exact absurd heq (hfits.not_link (hothers other mem_cons_self) hv)
  | cons link links ih =>
    cases others with
    | nil =>
      rw [flatMap_cons, append_assoc] at heq
      exact absurd heq.symm (hfits.not_link (hlinks link mem_cons_self) hw)
    | cons other others =>
      rw [forall_mem_cons] at honce hlinks hothers
      obtain ⟨body, hbody, hlink⟩ := hlinks.1
      obtain ⟨body', hbody', hother⟩ := hothers.1
      simp only [flatMap_cons, append_assoc] at heq
      obtain ⟨rfl, htail⟩ := (hfits.links phrase).reads_once hbody hbody' honce.1 hlink hother
        (hfits.leads phrase _ (mem_append_right _ hbody))
        (hfits.leads phrase _ (mem_append_right _ hbody'))
        (beyond_of_links hlinks.2 hv) (beyond_of_links hothers.2 hw) heq
      obtain ⟨rfl, rfl⟩ := ih honce.2 hlinks.2 hothers.2 htail
      exact ⟨rfl, rfl⟩

lemma Fits.reads_once (hfits : g.Fits rules) (t : Tree) : g.ReadsOnce rules t := by
  intro s u v w ht hu hv hw heq
  cases s with
  | terminal terminal =>
    obtain ⟨token, rfl⟩ := ht.eq_leaf
    obtain ⟨token', rfl⟩ := hu.eq_leaf
    simp only [tokens_leaf, singleton_append] at heq
    obtain ⟨rfl, rfl⟩ := List.cons.inj heq
    exact ⟨rfl, rfl⟩
  | sub phrase =>
    obtain ⟨base, links, hgrow, ⟨body, hbody, hbase⟩, hlinks, hsmall, hsmalls⟩ := ht.exists_grow
    obtain ⟨base', links', hgrow', ⟨body', hbody', hbase'⟩, hlinks', -, -⟩ := hu.exists_grow
    simp only [hgrow, hgrow', tokens_grow, append_assoc] at heq
    obtain ⟨rfl, htail⟩ := (hfits.bases phrase).reads_once hbody hbody' (fun t ht => hfits.reads_once t) hbase hbase'
      (hfits.leads phrase _ (mem_append_left _ hbody))
      (hfits.leads phrase _ (mem_append_left _ hbody'))
      (beyond_of_links hlinks (hv phrase rfl)) (beyond_of_links hlinks' (hw phrase rfl)) heq
    obtain ⟨rfl, rfl⟩ := hfits.links_once (fun link hlink t ht => hfits.reads_once t) hlinks
      hlinks' (hv phrase rfl) (hw phrase rfl) htail
    exact ⟨hgrow.trans hgrow'.symm, rfl⟩
termination_by sizeOf t
decreasing_by
  · exact hsmall t ht
  · exact hsmalls link hlink t ht

lemma Fits.derivation_unique (hfits : g.Fits rules) {behind : Token}
    (hbehind : g.Follows rules phrase [behind]) {t u : Tree} (ht : t.IsDerivation rules phrase tokens)
    (hu : u.IsDerivation rules phrase tokens) : t = u := by
  have htrails : g.Trails rules (.sub phrase) [behind] := by
    rintro _ ⟨rfl⟩
    exact hbehind
  exact (hfits.reads_once t ⟨ht.spells, ht.formed⟩ ⟨hu.spells, hu.formed⟩ htrails htrails
    (by rw [ht.tokens, hu.tokens])).1

end Guide

namespace Tree

variable {rules others : List Rule}

lemma Spells.mono (h : ∀ r ∈ rules, r ∈ others) (t : Tree) (ht : t.Spells rules s) : t.Spells others s := by
  refine Spells.induction (motive := fun s t => t.Spells others s) spells_leaf ?_ t ht
  exact fun known body => ⟨rfl, _, h _ known, rfl, spellsAll_iff.2 body⟩

lemma IsDerivation.mono (h : ∀ r ∈ rules, r ∈ others) {t : Tree} (ht : t.IsDerivation rules phrase tokens) :
    t.IsDerivation others phrase tokens :=
  ⟨Spells.mono h t ht.spells, ht.formed, ht.tokens⟩

lemma IsDerivation.derives {t : Tree} (h : t.IsDerivation rules phrase tokens) : Derives rules (.sub phrase) tokens :=
  h.tokens ▸ derives_of_spells t h.spells

end Tree

/-! ### The guide of the language -/

namespace Grammar

/-- The terminals that a phrase can start with, as far as some steps into its rules show. -/
def first : Nat → Nonterminal → List Terminal
  | 0, _ => []
  | n + 1, phrase => (Rule.bases rules phrase).flatMap fun
    | .terminal t :: _ => [t]
    | .sub inner :: _ => first n inner
    | [] => []

section

open Workflow.Symbol

/-- What comes behind a phrase that does not show its own end; a dedent stands for what comes behind all of a
unit. -/
def behind : Nonterminal → List (List Symbol)
  | .unit | .items | .modelProps | .fields | .agentProps | .stmts | .arms => [[kind .dedent]]
  | .item | .promptDef => [[kind .dedent], [sub .item]]
  | .typeTag | .nameList | .escalateHandler | .escalateAction => [[kind .newline]]
  | .baseType => [[kind .newline], [kind .question], [kind .rBracket]]
  | .promptHead | .promptMods | .params => [[kind .colon]]
  | .invocation => [[kind .newline], [sub .escalateHandler]]
  | .args => [[kind .newline], [sub .escalateHandler], [sub .modelOverride]]
  | .elems => [[kind .rBracket], [kind .comma, kind .rBracket]]
  | .entries => [[kind .rBrace], [kind .comma, kind .rBrace]]
  | .entry => [[kind .rBrace], [kind .comma]]
  | .expr | .orExpr => ends
  | .andExpr => [word "or"] :: ends
  | .notExpr | .cmpExpr => [word "and"] :: [word "or"] :: ends
  | .addExpr => [sub .cmpOp] :: [word "and"] :: [word "or"] :: ends
  | .atom | .varRef | .filterExpr => operandEnds
  | .propPath => [kind .eq] :: operandEnds
  | .implicitProp => [[sub .cmpOp]]
  | _ => [[]]
where
  ends : List (List Symbol) := [[kind .newline], [sub .escalateHandler], [sub .modelOverride],
    [sub .doBlock], [word "do"], [word "to"], [kind .rParen], [kind .rBracket], [kind .rBrace],
    [kind .comma]]
  operandEnds : List (List Symbol) := [kind .plus] :: [kind .minus] :: [word "where"] ::
    [sub .cmpOp] :: [word "and"] :: [word "or"] :: ends

end

/-- What a reader of the language knows in advance. No phrase is more than nine steps from a terminal. -/
def guide : Guide := ⟨first 9, behind⟩

set_option maxRecDepth 10000 in
lemma guide_fits : guide.Fits rules :=
  -- six steps of comparison tell all rules apart
  Guide.fits_sound (show guide.fits rules 6 = true by decide +kernel)

lemma follows_unit : guide.Follows rules .unit [Terminal.sample (.kind .dedent)] :=
  ⟨_, mem_singleton_self _, .of_derivesAll (.cons (.terminal (Terminal.accepts_sample _)) .nil) []⟩

lemma isDerivation_unique {t u : Tree} (ht : t.IsDerivation rules .unit tokens)
    (hu : u.IsDerivation rules .unit tokens) : t = u :=
  guide_fits.derivation_unique follows_unit ht hu

lemma parse_eq_ok_iff {others : List Rule} (hperm : others.Perm rules) :
    parse others .unit tokens = .ok t ↔ t.IsDerivation rules .unit tokens := by
  have hsound : ∀ {u : Tree}, parse others .unit tokens = .ok u → u.IsDerivation rules .unit tokens :=
    fun h => (parse_sound h).mono fun r => hperm.mem_iff.1
  refine ⟨hsound, fun ht => ?_⟩
  have hderives := (ht.mono fun r => hperm.mem_iff.2).derives
  obtain ⟨u, hu⟩ := parse_complete (fun r hr => body_ne_nil r (hperm.mem_iff.1 hr)) hderives
  rwa [isDerivation_unique ht (hsound hu)]

/-- The grammar is unambiguous, words that are also names included: tokens have at most one derivation tree. So
parsing gives the derivation there is, in whatever order the rules are tried. -/
theorem unambiguous (tokens : List Token) :
    (∀ t u : Tree, t.IsDerivation rules .unit tokens → u.IsDerivation rules .unit tokens → t = u) ∧
    (∀ others : List Rule, others.Perm rules → ∀ t,
      parse others .unit tokens = .ok t ↔ t.IsDerivation rules .unit tokens) ∧
    ∀ source : String, tokens ≠ [] → ∀ t, Tree.ofTokens source tokens = .ok t ↔ t.IsDerivation rules .unit tokens := by
  refine ⟨fun t u => isDerivation_unique, fun others hperm t => parse_eq_ok_iff hperm, ?_⟩
  intro source hne t
  rw [Tree.ofTokens_eq_ok source hne, parse_eq_ok_iff (List.Perm.refl _)]

def modelNamedModel : List Token :=
  [.word "model", .word "model", .kind .eq, .kind .string, .kind .newline].map Terminal.sample

theorem unambiguous_modelNamedModel : ∃ t : Tree, t.IsDerivation rules .unit modelNamedModel ∧
      ∀ u : Tree, u.IsDerivation rules .unit modelNamedModel → u = t := by
  have hok : (parse rules .unit modelNamedModel).isOk = true := by decide +kernel
  match hparse : parse rules .unit modelNamedModel with
  | .ok t =>
    have ht := ((unambiguous modelNamedModel).2.1 rules (.refl _) t).1 hparse
    exact ⟨t, ht, fun u hu => (unambiguous modelNamedModel).1 u t hu ht⟩
  | .error _ =>
    rw [hparse] at hok
    cases hok

end Grammar

end Workflow
