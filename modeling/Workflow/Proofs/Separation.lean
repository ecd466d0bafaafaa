import Workflow.Proofs.Prefixes

/-!
Telling the readings of a grammar apart by what lies ahead. A guide knows which terminals a phrase can start
with, and what comes behind a phrase. It fits a grammar when at every point where two rules of a phrase part,
what comes next tells which of the two it is. A rule that starts with its own phrase is taken as a link that
adds its further symbols to a phrase that has been read. Whether a guide fits can be computed.
-/

namespace Workflow

open List Rule

/-! ### What tokens start with -/

/-- Whether one token may be what both terminals ask for. -/
def Terminal.meets : Terminal → Terminal → Bool
  | kind k, kind l => k = l
  | kind k, word _ => k = .ident
  | word _, kind k => k = .ident
  | word a, word b => a = b

lemma Terminal.meets_of_accepts {t u : Terminal} (ht : t.accepts token = true) (hu : u.accepts token = true) :
    t.meets u = true := by
  cases t <;> cases u <;> simp_all [accepts, meets]

def StartsWith (rules : List Rule) (symbols : List Symbol) (tokens : List Token) : Prop :=
  ∃ u v, DerivesAll rules symbols u ∧ tokens = u ++ v

def Apart (rules : List Rule) (symbols others : List Symbol) : Prop :=
  ∀ tokens, StartsWith rules symbols tokens → ¬ StartsWith rules others tokens

namespace StartsWith

variable {rules : List Rule} {symbols others : List Symbol} {tokens u : List Token}

lemma of_derivesAll (h : DerivesAll rules symbols u) (v : List Token) : StartsWith rules symbols (u ++ v) :=
  ⟨u, v, h, rfl⟩

lemma of_longer (h : StartsWith rules symbols tokens) (hbefore : others <+: symbols) :
    StartsWith rules others tokens := by
  obtain ⟨x, y, hderives, rfl⟩ := h
  obtain ⟨rest, rfl⟩ := hbefore
  obtain ⟨x, z, rfl, hothers, -⟩ := exists_of_derivesAll_append hderives
  exact ⟨x, z ++ y, hothers, append_assoc ..⟩

lemma append (h : DerivesAll rules symbols u) (hrest : StartsWith rules others tokens) :
    StartsWith rules (symbols ++ others) (u ++ tokens) := by
  obtain ⟨x, y, hderives, rfl⟩ := hrest
  exact ⟨u ++ x, y, derivesAll_append h hderives, (append_assoc ..).symm⟩

lemma cons_inv (h : StartsWith rules (s :: symbols) tokens) :
    ∃ u rest, tokens = u ++ rest ∧ Derives rules s u ∧ StartsWith rules symbols rest := by
  obtain ⟨x, y, _ | ⟨hfirst, hothers⟩, rfl⟩ := h
  exact ⟨_, _, append_assoc .., hfirst, .of_derivesAll hothers y⟩

lemma expand (h : StartsWith rules (.sub phrase :: symbols) tokens) :
    ∃ body, ⟨phrase, body⟩ ∈ rules ∧ StartsWith rules (body ++ symbols) tokens := by
  obtain ⟨u, rest, rfl, _ | ⟨known, body⟩, hrest⟩ := h.cons_inv
  exact ⟨_, known, .append body hrest⟩

end StartsWith

/-! ### The rules of a phrase -/

namespace Rule

def bodies (rules : List Rule) (phrase : Nonterminal) : List (List Symbol) :=
  rules.filterMap fun r => if r.head = phrase then some r.body else none

/-- The bodies that do not start with the phrase itself. -/
def bases (rules : List Rule) (phrase : Nonterminal) : List (List Symbol) :=
  (bodies rules phrase).filter fun body => body.head? ≠ some (.sub phrase)

/-- What the other bodies add to the phrase that they start with. -/
def links (rules : List Rule) (phrase : Nonterminal) : List (List Symbol) :=
  (bodies rules phrase).filterMap fun body =>
    if body.head? = some (.sub phrase) then some body.tail else none

variable {rules : List Rule} {phrase : Nonterminal}

lemma mem_bodies {body : List Symbol} : body ∈ bodies rules phrase ↔ ⟨phrase, body⟩ ∈ rules := by
  simp only [bodies, mem_filterMap, Option.ite_none_right_eq_some, Option.some.injEq]
  constructor
  · rintro ⟨r, hr, rfl, rfl⟩
    exact hr
  · exact fun h => ⟨_, h, rfl, rfl⟩

lemma mem_bases {body : List Symbol} : body ∈ bases rules phrase ↔
    ⟨phrase, body⟩ ∈ rules ∧ body.head? ≠ some (.sub phrase) := by
  simp [bases, mem_bodies]

lemma mem_links : link ∈ links rules phrase ↔ ⟨phrase, .sub phrase :: link⟩ ∈ rules := by
  simp only [links, mem_filterMap, mem_bodies, Option.ite_none_right_eq_some, Option.some.injEq]
  constructor
  · rintro ⟨_ | ⟨s, rest⟩, hbody, hhead, rfl⟩
    · simp at hhead
    · obtain rfl : s = .sub phrase := by simpa using hhead
      exact hbody
  · exact fun h => ⟨_, h, rfl, rfl⟩

end Rule

/-! ### Guides -/

/-- What a reader knows of a grammar in advance: the terminals that a phrase can start with, and what comes
behind a phrase. -/
structure Guide where
  first : Nonterminal → List Terminal
  behind : Nonterminal → List (List Symbol)

namespace Guide

variable (g : Guide) (rules : List Rule)

def starts : Symbol → List Terminal
  | .terminal t => [t]
  | .sub phrase => g.first phrase

/-- Whether no token is a start of both symbols. -/
def differ (s t : Symbol) : Bool := (g.starts s).all fun a => (g.starts t).all fun b => !a.meets b

/-- Whether some steps of comparison show that symbols are apart: a step compares what the first symbols start
with, and reads a token or opens a phrase. -/
def apart : Nat → List Symbol → List Symbol → Bool
  | n + 1, s :: ss, t :: ts => g.differ s t || match s, t with
    | .terminal _, .terminal _ => apart n ss ts
    | .sub phrase, t => (bodies rules phrase).all fun body => apart n (body ++ ss) (t :: ts)
    | s, .sub phrase => (bodies rules phrase).all fun body => apart n (s :: ss) (body ++ ts)
  | _, _, _ => false

/-- What can come behind the base of a phrase or behind one of its links. -/
def beyond (phrase : Nonterminal) : List (List Symbol) := g.behind phrase ++ links rules phrase

/-- Whether each phrase among the symbols of a rule has behind it what the guide says. -/
def leads (phrase : Nonterminal) : List Symbol → Bool
  | [] => true
  | .terminal _ :: rest => leads phrase rest
  | .sub inner :: rest =>
    ((if rest = [] then g.beyond rules phrase else [rest]).all fun follow =>
      (g.behind inner).any fun known => known.isPrefixOf follow) && leads phrase rest

/-- What is left of two runs of symbols behind all that they have in common. -/
def rests : List Symbol → List Symbol → List Symbol × List Symbol
  | s :: ss, t :: ts => if s = t then rests ss ts else (s :: ss, t :: ts)
  | ss, ts => (ss, ts)

/-- Whether two ends of rules of a phrase can be told apart, alone or with what is beyond. -/
def parts (steps : Nat) (phrase : Nonterminal) (symbols others : List Symbol) : Bool :=
  g.apart rules steps symbols others || (g.beyond rules phrase).all fun a => (g.beyond rules phrase).all fun b =>
      g.apart rules steps (symbols ++ a) (others ++ b)

/-- Whether each two of some bodies of a phrase can be told apart. -/
def sorts (steps : Nat) (phrase : Nonterminal) (bodies : List (List Symbol)) : Bool :=
  bodies.all fun a => bodies.all fun b =>
    a = b || g.parts rules steps phrase (rests a b).1 (rests a b).2

/-- Whether the guide fits the rules of one phrase. -/
def fitsAt (steps : Nat) (phrase : Nonterminal) : Bool :=
  (bodies rules phrase).all (fun body =>
    body.head?.any fun s => (g.starts s).all fun t => t ∈ g.first phrase) &&
  (bases rules phrase ++ links rules phrase).all (g.leads rules phrase) &&
  g.sorts rules steps phrase (bases rules phrase) &&
  g.sorts rules steps phrase (links rules phrase) &&
  (links rules phrase).all fun link =>
    (g.behind phrase).all fun follow => g.apart rules steps link follow

def fits (steps : Nat) : Bool :=
  (rules.map head).eraseDups.all fun phrase => g.fitsAt rules steps phrase

/-- Two ends of rules of a phrase can be told apart. -/
def Parts (phrase : Nonterminal) (symbols others : List Symbol) : Prop :=
  Apart rules symbols others ∨
    ∀ a ∈ g.beyond rules phrase, ∀ b ∈ g.beyond rules phrase, Apart rules (symbols ++ a) (others ++ b)

/-- Each two of some bodies of a phrase can be told apart. -/
def Sorts (phrase : Nonterminal) (bodies : List (List Symbol)) : Prop :=
  ∀ a ∈ bodies, ∀ b ∈ bodies, a ≠ b → g.Parts rules phrase (rests a b).1 (rests a b).2

def Opens : Prop :=
  ∀ r ∈ rules, ∃ s rest, r.body = s :: rest ∧ ∀ t ∈ g.starts s, t ∈ g.first r.head

/-- The guide fits the rules. -/
structure Fits : Prop where
  opens : g.Opens rules
  leads : ∀ phrase, ∀ body ∈ bases rules phrase ++ links rules phrase, g.leads rules phrase body = true
  bases : ∀ phrase, g.Sorts rules phrase (bases rules phrase)
  links : ∀ phrase, g.Sorts rules phrase (links rules phrase)
  stops : ∀ phrase, ∀ link ∈ Rule.links rules phrase, ∀ follow ∈ g.behind phrase, Apart rules link follow

variable {g rules}

/-! ### The check is sound -/

mutual

theorem starts_of_derives (hopens : g.Opens rules) : ∀ {s u}, Derives rules s u →
    ∃ token rest, u = token :: rest ∧ ∃ t ∈ g.starts s, t.accepts token = true
  | _, _, .terminal (t := t) accepted => ⟨_, [], rfl, t, mem_singleton_self t, accepted⟩
  | _, _, .phrase known body => by
    obtain ⟨s, rest, hbody, hfirst⟩ := hopens _ known
    obtain ⟨token, more, rfl, t, ht, accepted⟩ := starts_of_derivesAll hopens body s (by simp [hbody])
    exact ⟨token, more, rfl, t, hfirst t ht, accepted⟩

theorem starts_of_derivesAll (hopens : g.Opens rules) : ∀ {symbols u}, DerivesAll rules symbols u → ∀ s ∈ symbols.head?,
    ∃ token rest, u = token :: rest ∧ ∃ t ∈ g.starts s, t.accepts token = true
  | _, _, .nil, _, hs => by simp at hs
  | _, _, .cons first _, _, hs => by
    obtain ⟨token, rest, rfl, ht⟩ := starts_of_derives hopens first
    obtain rfl := Option.some.inj hs
    exact ⟨token, rest ++ _, rfl, ht⟩

end

lemma exists_start (hopens : g.Opens rules) (h : StartsWith rules (s :: symbols) tokens) :
    ∃ token rest, tokens = token :: rest ∧ ∃ t ∈ g.starts s, t.accepts token = true := by
  obtain ⟨u, v, hderives, rfl⟩ := h
  obtain ⟨token, rest, rfl, ht⟩ := starts_of_derivesAll hopens hderives s rfl
  exact ⟨token, rest ++ v, rfl, ht⟩

lemma apart_of_differ (hopens : g.Opens rules) (h : g.differ s t = true) (ss ts : List Symbol) :
    Apart rules (s :: ss) (t :: ts) := by
  intro tokens hs ht
  obtain ⟨token, rest, rfl, a, ha, haccepts⟩ := exists_start hopens hs
  obtain ⟨token', rest', heq, b, hb, hbaccepts⟩ := exists_start hopens ht
  obtain ⟨rfl, rfl⟩ := List.cons.inj heq
  simp only [differ, all_eq_true, Bool.not_eq_true'] at h
  exact absurd (Terminal.meets_of_accepts haccepts hbaccepts) (by simp [h a ha b hb])

lemma apart_sound (hopens : g.Opens rules) : ∀ {steps symbols others},
    g.apart rules steps symbols others = true → Apart rules symbols others
  | 0, _, _, h | _ + 1, [], _, h | _ + 1, _ :: _, [], h => by simp [apart] at h
  | n + 1, s :: ss, t :: ts, h => by
    simp only [apart, Bool.or_eq_true] at h
    rcases h with h | h
    · exact apart_of_differ hopens h ss ts
    · split at h
      · -- both read a token, of which there is one
        intro tokens hs ht
        obtain ⟨_, rest, rfl, ⟨-⟩, hrest⟩ := hs.cons_inv
        obtain ⟨_, rest', heq, ⟨-⟩, hrest'⟩ := ht.cons_inv
        obtain ⟨rfl, rfl⟩ := List.cons.inj heq
        exact apart_sound hopens h _ hrest hrest'
      · intro tokens hs ht
        obtain ⟨body, hbody, hstarts⟩ := hs.expand
        exact apart_sound hopens (all_eq_true.1 h body (mem_bodies.2 hbody)) _ hstarts ht
      · intro tokens hs ht
        obtain ⟨body, hbody, hstarts⟩ := ht.expand
        exact apart_sound hopens (all_eq_true.1 h body (mem_bodies.2 hbody)) _ hs hstarts

lemma sorts_sound (hopens : g.Opens rules) {bodies : List (List Symbol)}
    (h : g.sorts rules steps phrase bodies = true) : g.Sorts rules phrase bodies := by
  intro a ha b hb hne
  simp only [sorts, all_eq_true, Bool.or_eq_true, decide_eq_true_eq] at h
  have hparts := (h a ha b hb).resolve_left hne
  simp only [parts, Bool.or_eq_true, all_eq_true] at hparts
  rcases hparts with hparts | hparts
  · exact .inl (apart_sound hopens hparts)
  · exact .inr fun x hx y hy => apart_sound hopens (hparts x hx y hy)

lemma fits_sound (h : g.fits rules steps = true) : g.Fits rules := by
  have hat : ∀ phrase body, ⟨phrase, body⟩ ∈ rules → g.fitsAt rules steps phrase = true := by
    intro phrase body hbody
    refine all_eq_true.1 h phrase ?_
    rw [mem_eraseDups]
    exact mem_map.2 ⟨_, hbody, rfl⟩
  simp only [fitsAt, Bool.and_eq_true, all_eq_true] at hat
  have hopens : g.Opens rules := by
    intro r hr
    have hstarts := (hat _ _ hr).1.1.1.1 r.body (Rule.mem_bodies.2 hr)
    obtain ⟨s, hs, hfirst⟩ := (Option.any_eq_true _ _).1 hstarts
    obtain ⟨rest, hbody⟩ := List.head?_eq_some_iff.1 hs
    exact ⟨s, rest, hbody, by simpa using hfirst⟩
  refine ⟨hopens, ?_, ?_, ?_, ?_⟩
  · intro phrase body hbody
    have hknown : ∃ body, ⟨phrase, body⟩ ∈ rules := by
      rcases mem_append.1 hbody with hbody | hbody
      · exact ⟨_, (Rule.mem_bases.1 hbody).1⟩
      · exact ⟨_, Rule.mem_links.1 hbody⟩
    obtain ⟨other, hknown⟩ := hknown
    exact (hat _ _ hknown).1.1.1.2 body hbody
  · intro phrase a ha
    exact sorts_sound hopens (hat _ _ (Rule.mem_bases.1 ha).1).1.1.2 a ha
  · intro phrase a ha
    exact sorts_sound hopens (hat _ _ (Rule.mem_links.1 ha)).1.2 a ha
  · intro phrase link hlink follow hfollow
    exact apart_sound hopens ((hat _ _ (Rule.mem_links.1 hlink)).2 link hlink follow hfollow)

end Guide

end Workflow
