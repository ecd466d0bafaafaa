import Mathlib.Data.Prod.Lex
import Mathlib.Order.Monotone.Defs
import Workflow.Diagnostic
import Workflow.Proofs.Definitions
import Workflow.Proofs.Offside

/-!
Lines and columns as offsets. The position of an offset grows with it, from one character to the next. Tokens
stand one behind the other, block tokens included, and a node of a derivation goes from its first token to its last
one. So the nodes of a derivation are nested like their spans, and diagnostics in the order of their positions are
in the order of the text.
-/

namespace Workflow

open List Text

/-! ### Positions -/

/-- A character of a text starts at an offset, or the text ends there. -/
def Text.IsBorder (text : String) (offset : Nat) : Prop := ∃ front, front <+: text.toList ∧ byteLength front = offset

namespace Cursor

def place (p : Cursor) : Nat × Nat := (p.line, p.column)

lemma offset_advance (p : Cursor) (c : Char) : (p.advance c).offset = p.offset + c.utf8Size := by
  simpa using p.offset_past [c]

lemma place_lt_advance (p : Cursor) (c : Char) : toLex p.place < toLex (p.advance c).place := by
  unfold advance
  split <;> simp [place, Prod.Lex.toLex_lt_toLex]

lemma place_lt_past : ∀ {text : List Char} (p : Cursor), text ≠ [] → toLex p.place < toLex (p.past text).place
  | [c], p, _ => p.place_lt_advance c
  | c :: d :: text, p, _ => (p.place_lt_advance c).trans (place_lt_past (p.advance c) (cons_ne_nil d text))

end Cursor

namespace Text

lemma positionFrom_append (p : Cursor) (front rest : List Char) :
    positionFrom p (p.offset + byteLength front) (front ++ rest) = (p.past front).place := by
  induction front generalizing p with
  | nil => cases rest <;> simp [positionFrom, Cursor.place]
  | cons c front ih =>
    have hsize := c.utf8Size_pos
    rw [cons_append, positionFrom, byteLength_cons, if_neg (by omega), if_neg (by omega), ← Nat.add_assoc,
      ← p.offset_advance c, ih, Cursor.past_cons]

lemma position_of_front (h : source.toList = front ++ rest) :
    position source (byteLength front) = (({} : Cursor).past front).place := by
  rw [position, h]
  simpa using positionFrom_append {} front rest

lemma strictMonoOn_position (source : String) :
    StrictMonoOn (fun n => toLex (position source n)) {n | IsBorder source n} := by
  rintro _ ⟨front, ⟨rest, h⟩, rfl⟩ _ ⟨front', ⟨rest', h'⟩, rfl⟩ hlt
  have hfront : front <+: front' := by
    rcases prefix_or_prefix_of_prefix ⟨rest, h⟩ ⟨rest', h'⟩ with hprefix | ⟨more, rfl⟩
    · exact hprefix
    · rw [byteLength_append] at hlt
      omega
  obtain ⟨more, rfl⟩ := hfront
  have hmore : more ≠ [] := by
    rintro rfl
    simp at hlt
  dsimp only
  rw [position_of_front h.symm, position_of_front h'.symm, Cursor.past_append]
  exact Cursor.place_lt_past _ hmore

end Text

/-! ### Tokens one behind the other -/

/-- A stretch of a text has its ends at characters, and the position of its start. -/
structure Span.Placed (source : String) (s : Span) : Prop where
  start : IsBorder source s.start
  stop : IsBorder source s.stop
  ordered : s.start ≤ s.stop
  place : (s.line, s.column) = position source s.start

lemma Span.placed_between (h : source.toList = front ++ (taken ++ rest)) :
    (between (({} : Cursor).past front) (({} : Cursor).past (front ++ taken))).Placed source where
  start := ⟨front, ⟨_, h.symm⟩, by simp [between, Cursor.offset_past]⟩
  stop := ⟨front ++ taken, ⟨rest, by rw [h, append_assoc]⟩, by simp [between, Cursor.offset_past]⟩
  ordered := by simp [between, Cursor.offset_past]
  place := by
    have hposition := position_of_front h
    simpa [between, Cursor.offset_past, Cursor.place] using hposition.symm

lemma Span.Placed.here {s : Span} (h : s.Placed source) : Placed source ⟨s.start, s.start, s.line, s.column⟩ :=
  ⟨h.start, h.start, Nat.le_refl _, h.place⟩

/-- Tokens of a source one behind the other, from an offset on. -/
structure Along (source : String) (offset : Nat) (tokens : List Token) : Prop where
  apart : tokens.Pairwise fun a b => a.span.stop ≤ b.span.start
  placed : ∀ t ∈ tokens, t.span.Placed source
  behind : ∀ t ∈ tokens, offset ≤ t.span.start

lemma Layout.blocks_of_open? (h : open? source s t = .ok (marks, levels)) :
    ∃ n kind, marks = replicate n (.synthetic kind t.span) := by
  unfold open? at h
  dsimp only at h
  split at h
  · split at h <;> cases h
    exact ⟨1, _, rfl⟩
  · split at h
    · split at h <;> cases h
      exact ⟨_, _, rfl⟩
    · cases h
      exact ⟨0, .indent, rfl⟩

lemma Lexer.placed_scanFrom {source : String} (text : List Char) {front : List Char} (h : source.toList = front ++ text) :
    ∀ x ∈ scanFrom (({} : Cursor).past front) text, (place x).Placed source := by
  match text with
  | [] =>
    rw [scanFrom]
    exact forall_mem_nil _
  | c :: rest =>
    rw [scanFrom]
    generalize classify c rest = found
    have htaken : source.toList = front ++ ((c :: rest.take found.2) ++ rest.drop found.2) := by
      rw [h, cons_append, take_append_drop]
    have hplaced := Span.placed_between htaken
    have hlater := placed_scanFrom (rest.drop found.2) (htaken.trans (append_assoc ..).symm)
    rw [Cursor.past_append] at hplaced hlater
    rcases found with ⟨- | kind | -, n⟩
    · exact hlater
    · exact forall_mem_cons.2 ⟨hplaced, hlater⟩
    · exact forall_mem_cons.2 ⟨hplaced, hlater⟩
termination_by text.length
decreasing_by simp only [length_cons, length_drop]; omega

namespace Along

lemma nil (source : String) (offset : Nat) : Along source offset [] := ⟨.nil, forall_mem_nil _, forall_mem_nil _⟩

lemma cons_iff : Along source offset (t :: rest) ↔
    offset ≤ t.span.start ∧ t.span.Placed source ∧ Along source t.span.stop rest := by
  constructor
  · rintro ⟨hapart, hplaced, hbehind⟩
    obtain ⟨ht, hrest⟩ := pairwise_cons.1 hapart
    exact ⟨hbehind t mem_cons_self, hplaced t mem_cons_self, hrest, fun u hu => hplaced u (.tail _ hu), ht⟩
  · rintro ⟨hle, ht, hrest⟩
    refine ⟨pairwise_cons.2 ⟨hrest.behind, hrest.apart⟩, forall_mem_cons.2 ⟨ht, hrest.placed⟩, ?_⟩
    exact forall_mem_cons.2 ⟨hle, fun u hu => hle.trans (ht.ordered.trans (hrest.behind u hu))⟩

lemma mono (h : Along source n tokens) (hle : m ≤ n) : Along source m tokens :=
  { h with behind := fun t ht => hle.trans (h.behind t ht) }

lemma lex (h : Token.lex source = .ok tokens) : Along source 0 tokens := by
  have hscan := Token.scan_eq h
  have hplaced : ∀ x ∈ Token.scan source, (Lexer.place x).Placed source :=
    Lexer.placed_scanFrom source.toList (nil_append _).symm
  have hcut : Lexer.Cut (byteLength []) source.toList (Token.scan source) := Lexer.cut_scanFrom {} source.toList
  have hapart := (hcut.placed (nil_append _).symm).2
  rw [hscan, pairwise_map] at hapart
  exact ⟨hapart, fun t ht => hplaced (.ok t) (hscan ▸ mem_map_of_mem ht), fun _ _ => Nat.zero_le _⟩

lemma blocks (hplaced : s.Placed source) (hle : offset ≤ s.start) (hrest : Along source s.start rest) (kind : TokenKind) :
    ∀ n, Along source offset (replicate n (.synthetic kind s) ++ rest)
  | 0 => hrest.mono hle
  | n + 1 => cons_iff.2 ⟨hle, hplaced.here, blocks hplaced (Nat.le_refl _) hrest kind n⟩

lemma arrange {source : String} {tokens : List Token} : ∀ {s : Layout.State} {offset : Nat} {out : List Token},
    offset ≤ byteLength source.toList → Along source offset tokens →
    Layout.arrange source.toList (.here (endOf source)) s tokens = .ok out → Along source offset out := by
  have hend : (endOf source).offset = byteLength source.toList := by simp [endOf, Cursor.offset_past]
  induction tokens with
  | nil =>
    intro s offset out hoffset _ hout
    have hplaced : (Span.here (endOf source)).Placed source := by
      have hwhole : source.toList = source.toList ++ ([] ++ []) := by simp
      have hbetween := Span.placed_between hwhole
      rwa [append_nil] at hbetween
    have hle : offset ≤ (Span.here (endOf source)).start := hoffset.trans_eq hend.symm
    have hclose := blocks hplaced (Nat.le_refl _) (nil source _) .dedent s.levels.length
    rw [append_nil] at hclose
    rw [Layout.arrange] at hout
    cases hout
    split
    · exact hclose.mono hle
    · exact cons_iff.2 ⟨hle, hplaced.here, hclose⟩
  | cons t rest ih =>
    intro s offset out hoffset htokens hout
    obtain ⟨hle, hplaced, hrest⟩ := cons_iff.1 htokens
    have hstop : t.span.stop ≤ byteLength source.toList := by
      obtain ⟨front, ⟨behind, h⟩, heq⟩ := hplaced.stop
      rw [← heq, ← h, byteLength_append]
      exact Nat.le_add_right _ _
    have hskip : Along source t.span.stop out → Along source offset out := fun h =>
      h.mono (hle.trans hplaced.ordered)
    rw [Layout.arrange] at hout
    split at hout
    · split at hout
      · exact hskip (ih hstop hrest hout)
      · split at hout
        · exact hskip (ih hstop hrest hout)
        · obtain ⟨later, hlater, hout⟩ := Except.bind_eq_ok.1 hout
          cases hout
          exact cons_iff.2 ⟨hle, hplaced, ih hstop hrest hlater⟩
    · split at hout
      · obtain ⟨⟨marks, levels⟩, hopen, hout⟩ := Except.bind_eq_ok.1 hout
        obtain ⟨later, hlater, hout⟩ := Except.bind_eq_ok.1 hout
        cases hout
        obtain ⟨n, kind, rfl⟩ := Layout.blocks_of_open? hopen
        exact blocks hplaced hle (cons_iff.2 ⟨Nat.le_refl _, hplaced, ih hstop hrest hlater⟩) kind n
      · obtain ⟨later, hlater, hout⟩ := Except.bind_eq_ok.1 hout
        cases hout
        exact cons_iff.2 ⟨hle, hplaced, ih hstop hrest hlater⟩

lemma layout (hraw : Token.lex source = .ok raw) (htokens : Token.layout source raw = .ok tokens) :
    Along source 0 tokens :=
  arrange (Nat.zero_le _) (lex hraw) htokens

lemma start_le {tokens : List Token} (h : Along source offset tokens) (ha : a ∈ tokens.head?) (ht : t ∈ tokens) :
    a.span.start ≤ t.span.start := by
  obtain ⟨rest, rfl⟩ := head?_eq_some_iff.1 ha
  rcases mem_cons.1 ht with rfl | ht
  · exact Nat.le_refl _
  · exact (h.placed a mem_cons_self).ordered.trans (rel_of_pairwise_cons h.apart ht)

lemma le_stop {tokens : List Token} (h : Along source offset tokens) (hb : b ∈ tokens.getLast?) (ht : t ∈ tokens) :
    t.span.stop ≤ b.span.stop := by
  obtain ⟨front, rfl⟩ := getLast?_eq_some_iff.1 hb
  rcases mem_append.1 ht with ht | ht
  · exact ((pairwise_append.1 h.apart).2.2 t ht b mem_cons_self).trans (h.placed b (by simp)).ordered
  · rw [mem_singleton.1 ht]

end Along

/-! ### Nodes around their tokens -/

lemma forall_of_forall₂ {α β : Type} {p : β → Prop} {as : List α} {bs : List β} (h : Forall₂ (fun _ b => p b) as bs) :
    ∀ b ∈ bs, p b := by
  induction h with
  | nil => exact forall_mem_nil _
  | cons first _ ih => exact forall_mem_cons.2 ⟨first, ih⟩

namespace Tree

def children : Tree → List Tree
  | node _ children _ => children
  | _ => []

/-- A tree has itself and all that its children have. -/
inductive Has : Tree → Tree → Prop where
  | self {t} : Has t t
  | inside {t c u} (child : c ∈ t.children) (has : Has c u) : Has t u

/-- A node goes from its first token to the end of its last one, is placed where it starts, and has its children
inside of it, one behind the other. -/
structure Sits (source : String) (t : Tree) : Prop where
  first : ∀ token ∈ t.tokens.head?, t.span.start = token.span.start
  last : ∀ token ∈ t.tokens.getLast?, t.span.stop = token.span.stop
  place : (t.span.line, t.span.column) = position source t.span.start
  within : ∀ c ∈ t.children, t.span.start ≤ c.span.start ∧ c.span.stop ≤ t.span.stop
  apart : t.children.Pairwise fun c d => c.span.stop ≤ d.span.start

lemma tokensOf_eq (trees : List Tree) : tokensOf trees = trees.flatMap tokens := by
  induction trees with
  | nil => rfl
  | cons t rest ih => rw [tokensOf, ih, flatMap_cons]

lemma sits_leaf (t : Terminal) (h : Along source 0 [token]) : (t.leaf token).Sits source := by
  have hplaced := h.placed token mem_cons_self
  cases t <;>
    exact ⟨by simp [Terminal.leaf, tokens, span], by simp [Terminal.leaf, tokens, span], hplaced.place, forall_mem_nil _, .nil⟩

lemma Sits.ends (h : Sits source t) (hne : t.tokens ≠ []) :
    (∃ a ∈ t.tokens, t.span.start = a.span.start) ∧ ∃ b ∈ t.tokens, t.span.stop = b.span.stop :=
  ⟨⟨_, head_mem hne, h.first _ (head?_eq_some_head hne)⟩, _, getLast_mem hne, h.last _ (getLast?_eq_some_getLast hne)⟩

lemma spanOf_eq {trees : List Tree} (hne : trees ≠ []) : spanOf trees = ⟨(trees.head hne).span.start,
    max (trees.getLast hne).span.stop (trees.head hne).span.start, (trees.head hne).span.line,
      (trees.head hne).span.column⟩ := by
  obtain ⟨c, rest, rfl⟩ := exists_cons_of_ne_nil hne
  simp only [spanOf, getLast?_eq_some_getLast hne, head_cons]

/-- A node sits on its tokens if its children do. -/
lemma sits_form {trees : List Tree} (hne : trees ≠ []) (hsits : ∀ t ∈ trees, t.Sits source ∧ t.tokens ≠ [])
    (h : Along source 0 (tokensOf trees)) (phrase : Nonterminal) : (form phrase trees).Sits source := by
  obtain ⟨hc, hcTokens⟩ := hsits _ (head_mem hne)
  obtain ⟨hd, hdTokens⟩ := hsits _ (getLast_mem hne)
  have hhead : (tokensOf trees).head? = (trees.head hne).tokens.head? := by
    rw [← head?_append_of_ne_nil _ hcTokens, ← tokensOf, cons_head_tail]
  have hlast : (tokensOf trees).getLast? = (trees.getLast hne).tokens.getLast? := by
    rw [← getLast?_append_of_ne_nil _ hdTokens, ← tokensOf_concat, dropLast_append_getLast]
  obtain ⟨a, ha⟩ : ∃ a, (tokensOf trees).head? = some a := ⟨_, hhead ▸ head?_eq_some_head hcTokens⟩
  obtain ⟨b, hb⟩ : ∃ b, (tokensOf trees).getLast? = some b := ⟨_, hlast ▸ getLast?_eq_some_getLast hdTokens⟩
  have hspan : (form phrase trees).span =
      ⟨a.span.start, b.span.stop, (trees.head hne).span.line, (trees.head hne).span.column⟩ := by
    have hbMem := mem_of_getLast? hb
    rw [form, span, spanOf_eq hne, hc.first a (hhead ▸ ha), hd.last b (hlast ▸ hb),
      Nat.max_eq_left ((h.start_le ha hbMem).trans (h.placed b hbMem).ordered)]
  refine ⟨fun token htoken => ?_, fun token htoken => ?_, ?_, fun t ht => ?_, ?_⟩
  · rw [hspan, Option.some.inj (ha.symm.trans htoken)]
  · rw [hspan, Option.some.inj (hb.symm.trans htoken)]
  · rw [hspan, ← hc.first a (hhead ▸ ha)]
    exact hc.place
  · obtain ⟨⟨first, hfirst, hstart⟩, final, hfinal, hstop⟩ := (hsits t ht).1.ends (hsits t ht).2
    rw [hspan, hstart, hstop]
    exact ⟨h.start_le ha (mem_tokensOf ht hfirst), h.le_stop hb (mem_tokensOf ht hfinal)⟩
  · have hapart := h.apart
    rw [tokensOf_eq, pairwise_flatMap] at hapart
    refine hapart.2.imp_of_mem fun {t u} ht hu htu => ?_
    obtain ⟨-, final, hfinal, hstop⟩ := (hsits t ht).1.ends (hsits t ht).2
    obtain ⟨⟨first, hfirst, hstart⟩, -⟩ := (hsits u hu).1.ends (hsits u hu).2
    rw [hstart, hstop]
    exact htu final hfinal first hfirst

lemma along_of_mem {trees : List Tree} (h : Along source 0 (tokensOf trees)) (ht : t ∈ trees) : Along source 0 t.tokens := by
  have hapart := h.apart
  rw [tokensOf_eq, pairwise_flatMap] at hapart
  exact ⟨hapart.1 t ht, fun _ htoken => h.placed _ (mem_tokensOf ht htoken), fun _ _ => Nat.zero_le _⟩

lemma sits_of_spells {rules : List Rule} (nonempty : ∀ r ∈ rules, r.body ≠ []) (t : Tree) (h : t.Spells rules s) :
    t.Formed → Along source 0 t.tokens → ∀ u, t.Has u → u.Sits source ∧ u.tokens ≠ [] := by
  refine Spells.induction (motive := fun _ t => t.Formed → Along source 0 t.tokens → ∀ u, t.Has u →
    u.Sits source ∧ u.tokens ≠ []) ?_ ?_ t h
  · intro t token _ _ halong u hu
    have hchildren : (t.leaf token).children = [] := by cases t <;> rfl
    cases hu with
    | self => exact ⟨sits_leaf t (tokens_leaf t token ▸ halong), by simp⟩
    | inside child => simp [hchildren] at child
  · rintro r trees _ known body ⟨rfl, hformed⟩ halong
    have hbelow : ∀ c ∈ trees, ∀ u, c.Has u → u.Sits source ∧ u.tokens ≠ [] := fun c hc =>
      forall_of_forall₂ body c hc (formedAll_iff.1 hformed c hc) (along_of_mem halong hc)
    have hne : trees ≠ [] := by
      rintro rfl
      exact nonempty r known (forall₂_nil_right_iff.1 body)
    intro u hu
    cases hu with
    | self =>
      have htokens := (hbelow _ (head_mem hne) _ .self).2
      exact ⟨sits_form hne (fun c hc => hbelow c hc c .self) halong r.head,
        ne_nil_of_mem (mem_tokensOf (head_mem hne) (head_mem htokens))⟩
    | inside child has => exact hbelow _ child u has

end Tree

/-! ### Diagnostics -/

/-- Order by offset, errors before warnings at the same offset. -/
def Diagnostic.byOffset (a b : Nat × Diagnostic) : Bool :=
  a.1 < b.1 || a.1 = b.1 && (a.2.severity = .error || b.2.severity = .warning)

lemma Diagnostic.byOffset_eq_before (source : String) (a b : Nat × Diagnostic)
    (ha : IsBorder source a.1 ∧ position source a.1 = (a.2.line, a.2.column))
    (hb : IsBorder source b.1 ∧ position source b.1 = (b.2.line, b.2.column)) : byOffset a b = before a.2 b.2 := by
  have hlt := (strictMonoOn_position source).lt_iff_lt ha.1 hb.1
  have hgt := (strictMonoOn_position source).lt_iff_lt hb.1 ha.1
  rw [ha.2, hb.2, Prod.Lex.toLex_lt_toLex] at hlt hgt
  dsimp only at hlt hgt
  unfold byOffset before
  rcases Nat.lt_trichotomy a.1 b.1 with h | h | h
  · have hplace := hlt.2 h
    grind
  · grind
  · have hplace := hgt.2 h
    grind

/-- The position of an offset grows with the offset, from one character to the next. In a derivation, each node
goes from its first token to the end of its last one, has the position of its start, and has its children inside,
one behind the other. So diagnostics sorted by their positions are sorted by offset. -/
theorem position_keeps_order (source : String) :
    StrictMonoOn (fun n => toLex (position source n)) {n | IsBorder source n} ∧
    Set.InjOn (position source) {n | IsBorder source n} ∧
    (∀ t, Tree.ofSource source = .ok t → ∀ u, t.Has u → u.Sits source ∧
      (u.tokens = [] → t = .node .unit [] ⟨0, 0, 1, 1⟩)) ∧
    ∀ ds : List (Nat × Diagnostic),
      (∀ d ∈ ds, IsBorder source d.1 ∧ position source d.1 = (d.2.line, d.2.column)) →
      Diagnostic.sort (ds.map Prod.snd) = (ds.mergeSort Diagnostic.byOffset).map Prod.snd := by
  have hmono := strictMonoOn_position source
  refine ⟨hmono, fun a ha b hb heq => hmono.injOn ha hb (congrArg toLex heq), fun t ht => ?_, fun ds hds => ?_⟩
  · obtain ⟨raw, tokens, hraw, htokens, htree⟩ := Tree.ofSource_eq_ok ht
    cases tokens with
    | nil =>
      cases htree
      intro u hu
      cases hu with
      | self => exact ⟨⟨nofun, nofun, (position_of_front (nil_append _).symm).symm, nofun, .nil⟩, fun _ => rfl⟩
      | inside child => cases child
    | cons first rest =>
      have hderivation := Chart.parse_sound ((Tree.ofTokens_eq_ok _ (cons_ne_nil _ _) _).1 htree)
      have halong := Along.layout hraw htokens
      rw [← hderivation.tokens] at halong
      intro u hu
      have hsits := Tree.sits_of_spells Grammar.body_ne_nil t hderivation.spells hderivation.formed halong u hu
      exact ⟨hsits.1, fun h => absurd h hsits.2⟩
  · exact (map_mergeSort fun a ha b hb => Diagnostic.byOffset_eq_before source a b (hds a ha) (hds b hb)).symm

end Workflow
