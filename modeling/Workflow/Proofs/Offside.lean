import Mathlib.Data.Finset.Card
import Mathlib.Data.Finset.Range
import Mathlib.Data.List.Basic
import Workflow.Proofs.Blocks
import Workflow.Proofs.Greedy

/-!
The offside rule. Tokens are cut into logical lines at the line breaks outside of brackets. A width encloses
what comes behind some lines if it is zero, or the width of a line behind which no line was narrower. A line may
stand behind others if it is not narrower than the last of them, or if its width is one that encloses it.

Layout keeps to this rule: its stack has exactly the widths that enclose the next line, and as many block tokens
are open at a line as there are enclosing widths that are smaller.
-/

namespace Workflow

open List Token

variable {rest : List Char} {k : TokenKind} {source : String} {l : Line} {v w : Nat}

namespace TokenKind

def isBlock (k : TokenKind) : Bool := k = .indent || k = .dedent

end TokenKind

namespace Layout

/-! ### Logical lines -/

/-- The tokens between two line breaks: the offset at which they start, and the line break behind them. -/
structure Row where
  start : Nat
  tokens : List Token
  stop : Token

/-- A row with a token. -/
structure Line where
  start : Nat
  first : Token
  rest : List Token
  stop : Token

def Row.line? (r : Row) : Option Line :=
  match r.tokens with
  | [] => none
  | t :: rest => some ⟨r.start, t, rest, r.stop⟩

def consToken (t : Token) : List Row → List Row
  | [] => []
  | r :: rows => { r with tokens := t :: r.tokens } :: rows

/-- The rows of some tokens, from an offset and a number of open brackets on. A line break outside of brackets
ends a row. -/
def rows (finish : Span) : Nat → Nat → List Token → List Row
  | start, _, [] => [⟨start, [], .synthetic .newline finish⟩]
  | start, groups, t :: rest =>
    if t.kind = .newline then
      if groups = 0 then ⟨start, [], t⟩ :: rows finish t.span.stop 0 rest
      else rows finish start groups rest
    else consToken t (rows finish start (groupsAfter groups t.kind) rest)

def lines (source : String) (tokens : List Token) : List Line :=
  (rows (.here (Text.endOf source)) 0 0 tokens).filterMap Row.line?

namespace Line

def tokens (l : Line) : List Token := l.first :: l.rest

def width (source : List Char) (l : Line) : Nat :=
  Layout.width ((Text.slice? source l.start l.first.span.start).getD [])

end Line

lemma exists_rows (finish : Span) : ∀ (start groups : Nat) (tokens : List Token),
    ∃ r more, rows finish start groups tokens = r :: more ∧ r.start = start
  | start, _, [] => ⟨_, _, rfl, rfl⟩
  | start, groups, t :: rest => by
    unfold rows
    split
    · split
      · exact ⟨_, _, rfl, rfl⟩
      · exact exists_rows finish start groups rest
    · obtain ⟨r, more, hrows, hstart⟩ := exists_rows finish start (groupsAfter groups t.kind) rest
      rw [hrows]
      exact ⟨_, more, rfl, hstart⟩

/-! ### Layout line by line -/

/-- The tokens of some lines, with block tokens in front of them, behind blocks of some widths. -/
def arrangeLines (source : List Char) (finish : Span) (levels : List Nat) (started : Bool) :
    List Line → Except LayoutError (List Token)
  | [] => .ok (List.replicate levels.length (.synthetic .dedent finish))
  | l :: more => do
    let (blocks, levels) ← open? source { levels, lineStart := l.start, started } l.first
    let later ← arrangeLines source finish levels true more
    pure (blocks ++ l.tokens ++ l.stop :: later)

/-- Layout token by token is layout line by line: at the start of a line, and inside of one, where the
rest of the line comes first. -/
lemma arrange_eq (source : List Char) (finish : Span) : ∀ (tokens : List Token) (s : State),
    (s.fresh = true → s.groups = 0 → arrange source finish s tokens = arrangeLines source finish s.levels s.started
        ((rows finish s.lineStart 0 tokens).filterMap Row.line?)) ∧
    (s.fresh = false → s.started = true → ∀ r more,
      rows finish s.lineStart s.groups tokens = r :: more → arrange source finish s tokens =
        (arrangeLines source finish s.levels true (more.filterMap Row.line?)).map
          fun later => r.tokens ++ r.stop :: later)
  | [], s => by
    refine ⟨fun hfresh hgroups => ?_, fun hfresh hstarted r more hrows => ?_⟩
    · rw [arrange, if_pos hfresh]
      rfl
    · obtain ⟨rfl, rfl⟩ := List.cons.inj hrows
      rw [arrange, hfresh]
      rfl
  | t :: rest, ⟨levels, groups, fresh, lineStart, started⟩ => by
    have ih := arrange_eq source finish rest
    constructor
    · rintro rfl rfl
      by_cases hkind : t.kind = .newline
      · simp only [arrange, rows, hkind, if_true, lt_irrefl, if_false]
        exact (ih { levels, lineStart := t.span.stop, started }).1 rfl rfl
      · obtain ⟨r, more, hrows, hstart⟩ := exists_rows finish lineStart (groupsAfter 0 t.kind) rest
        have hinside := fun levels => (ih ⟨levels, groupsAfter 0 t.kind, false, lineStart, true⟩).2 rfl rfl r more hrows
        simp only [arrange, rows, hkind, if_false, hrows, consToken, hinside, filterMap_cons,
          Row.line?, arrangeLines, hstart]
        rw [if_pos (by rfl)]
        cases open? source { levels, lineStart, started } t with
        | error e => rfl
        | ok opened =>
          simp only [bind, Except.bind]
          cases arrangeLines source finish opened.2 true (more.filterMap Row.line?) with
          | error e => rfl
          | ok later => simp [Except.map, pure, Except.pure, Line.tokens]
    · rintro rfl rfl r more hrows
      by_cases hkind : t.kind = .newline
      · rw [rows, if_pos hkind] at hrows
        rw [arrange, if_pos hkind]
        by_cases hgroups : groups = 0
        · subst hgroups
          obtain ⟨rfl, rfl⟩ := List.cons.inj hrows
          rw [if_neg (lt_irrefl 0), if_neg Bool.false_ne_true,
            (ih { levels, lineStart := t.span.stop, started := true }).1 rfl rfl]
          rfl
        · rw [if_neg hgroups] at hrows
          rw [if_pos (Nat.pos_of_ne_zero hgroups)]
          exact (ih _).2 rfl rfl r more hrows
      · rw [rows, if_neg hkind] at hrows
        obtain ⟨r', more', hrows', -⟩ := exists_rows finish lineStart (groupsAfter groups t.kind) rest
        rw [hrows', consToken] at hrows
        obtain ⟨rfl, rfl⟩ := List.cons.inj hrows
        rw [arrange, if_neg hkind]
        simp only [Bool.false_and, Bool.false_eq_true, if_false]
        rw [(ih ⟨levels, groupsAfter groups t.kind, false, lineStart, true⟩).2 rfl rfl r' more' hrows']
        cases arrangeLines source finish levels true (more'.filterMap Row.line?) <;> rfl

lemma layout_eq (source : String) (tokens : List Token) : layout source tokens =
    arrangeLines source.toList (.here (Text.endOf source)) [] false (lines source tokens) :=
  (arrange_eq source.toList _ tokens {}).1 rfl rfl

/-! ### Widths that enclose a line -/

/-- Behind lines of some widths, zero encloses the next line, and so does the width of a line if none behind it
is narrower. -/
def Encloses (before : List Nat) (v : Nat) : Prop :=
  v = 0 ∨ ∃ block ∈ before.tails, block.head? = some v ∧ ∀ w ∈ block, v ≤ w

instance (before : List Nat) (v : Nat) : Decidable (Encloses before v) :=
  inferInstanceAs (Decidable (_ ∨ _))

/-- The first line has no indentation, and a line that is narrower than the last one has a width that encloses
it. -/
structure Fits (before : List Nat) (w : Nat) : Prop where
  first : before = [] → w = 0
  narrower : w < before.getLastD 0 → Encloses before w

lemma encloses_nil : Encloses [] v ↔ v = 0 := by
  simp [Encloses]

lemma encloses_concat : Encloses (before ++ [w]) v ↔ v = w ∨ v < w ∧ Encloses before v := by
  constructor
  · rintro (rfl | ⟨block, hblock, hhead, hle⟩)
    · rcases Nat.eq_zero_or_pos w with rfl | hw
      · exact .inl rfl
      · exact .inr ⟨hw, .inl rfl⟩
    · rcases suffix_concat_iff.1 ((mem_tails _ _).1 hblock) with rfl | ⟨inner, rfl, hinner⟩
      · cases hhead
      · cases inner with
        | nil =>
          cases hhead
          exact .inl rfl
        | cons u inner =>
          cases hhead
          rcases (hle w (by simp)).eq_or_lt with heq | hlt
          · exact .inl heq
          · refine .inr ⟨hlt, .inr ⟨_, (mem_tails _ _).2 hinner, rfl, fun x hx => hle x ?_⟩⟩
            exact mem_append_left _ hx
  · rintro (rfl | ⟨hlt, rfl | ⟨block, hblock, hhead, hle⟩⟩)
    · exact .inr ⟨[v], (mem_tails _ _).2 (suffix_append _ _), rfl, by simp⟩
    · exact .inl rfl
    · have hsuffix : block ++ [w] <:+ before ++ [w] :=
        suffix_concat_iff.2 (.inr ⟨block, rfl, (mem_tails _ _).1 hblock⟩)
      exact .inr ⟨block ++ [w], (mem_tails _ _).2 hsuffix, by simp [hhead],
        forall_mem_append.2 ⟨hle, forall_mem_singleton.2 hlt.le⟩⟩

lemma Encloses.le_last (h : Encloses before v) : v ≤ before.getLastD 0 := by
  rcases eq_nil_or_concat before with rfl | ⟨front, w, rfl⟩
  · exact (encloses_nil.1 h).le
  · rw [concat_eq_append] at h ⊢
    rw [getLastD_concat]
    rcases encloses_concat.1 h with rfl | ⟨hlt, -⟩
    · exact le_rfl
    · exact hlt.le

lemma encloses_last (before : List Nat) : Encloses before (before.getLastD 0) := by
  rcases eq_nil_or_concat before with rfl | ⟨front, w, rfl⟩
  · exact encloses_nil.2 rfl
  · rw [concat_eq_append, getLastD_concat]
    exact encloses_concat.2 (.inl rfl)

lemma Encloses.fits {before : List Nat} (h : Encloses before w) : Fits before w :=
  ⟨fun hnil => encloses_nil.1 (hnil ▸ h), fun _ => h⟩

/-- How many of the widths that enclose a line are smaller than its own. -/
def depth (before : List Nat) (w : Nat) : Nat := ((Finset.range w).filter (Encloses before)).card

/-! ### The stack of widths -/

/-- A stack has the widths that enclose the next line, the largest first; zero is always there and left
out. -/
structure Stacked (before levels : List Nat) : Prop where
  sorted : (levels ++ [0]).Pairwise (· > ·)
  mem_iff : ∀ v, v ∈ levels ++ [0] ↔ Encloses before v

namespace Stacked

variable {before levels : List Nat}

lemma nil : Stacked [] [] := ⟨by simp, by simp [encloses_nil]⟩

lemma headD_eq (h : Stacked before levels) : levels.headD 0 = before.getLastD 0 := by
  have hlast := (h.mem_iff _).2 (encloses_last before)
  have htop := (h.mem_iff (levels.headD 0)).1 (by cases levels <;> simp)
  refine le_antisymm htop.le_last ?_
  cases levels with
  | nil => simpa using hlast
  | cons top rest =>
    rcases mem_cons.1 hlast with heq | hmem
    · exact heq.le
    · exact (rel_of_pairwise_cons h.sorted hmem).le

lemma push (h : Stacked before levels) (hw : levels.headD 0 < w) : Stacked (before ++ [w]) (w :: levels) := by
  rw [h.headD_eq] at hw
  have hlt : ∀ v ∈ levels ++ [0], v < w := fun v hv => lt_of_le_of_lt ((h.mem_iff v).1 hv).le_last hw
  refine ⟨pairwise_cons.2 ⟨hlt, h.sorted⟩, fun v => ?_⟩
  rw [encloses_concat, ← h.mem_iff, cons_append, mem_cons]
  exact or_congr_right ⟨fun hv => ⟨hlt v hv, hv⟩, And.right⟩

lemma mem_dropWhile : ∀ {levels : List Nat}, levels.Pairwise (· > ·) →
    (v ∈ levels.dropWhile (w < ·) ↔ v ∈ levels ∧ v ≤ w)
  | [], _ => by simp
  | top :: rest, h => by
    obtain ⟨htop, hrest⟩ := pairwise_cons.1 h
    by_cases hw : w < top
    · rw [dropWhile_cons_of_pos (by simpa using hw), mem_dropWhile hrest, mem_cons]
      exact and_congr_left fun hv => ⟨.inr, fun hmem => hmem.resolve_left (by omega)⟩
    · rw [dropWhile_cons_of_neg (by simpa using hw)]
      refine ⟨fun hv => ⟨hv, ?_⟩, And.left⟩
      rcases mem_cons.1 hv with rfl | hv
      · omega
      · have := htop v hv
        omega

lemma pop (h : Stacked before levels) (hw : Encloses before w) :
    Stacked (before ++ [w]) (levels.dropWhile (w < ·)) := by
  refine ⟨h.sorted.sublist ((dropWhile_sublist _).append_right _), fun v => ?_⟩
  have hv := h.mem_iff v
  rw [mem_append, mem_singleton] at hv
  rw [mem_append, mem_dropWhile (pairwise_append.1 h.sorted).1, mem_singleton, encloses_concat, ← hv]
  rw [← h.mem_iff, mem_append, mem_singleton] at hw
  constructor
  · rintro (⟨hmem, hle⟩ | rfl)
    · exact hle.eq_or_lt.imp_right fun hlt => ⟨hlt, .inl hmem⟩
    · exact (Nat.zero_le w).eq_or_lt.imp_right fun hlt => ⟨hlt, .inr rfl⟩
  · rintro (rfl | ⟨hlt, hmem | rfl⟩)
    · exact hw.imp_left fun hmem => ⟨hmem, le_rfl⟩
    · exact .inl ⟨hmem, hlt.le⟩
    · exact .inr rfl

lemma length_eq (h : Stacked (before ++ [w]) levels) : levels.length = depth before w := by
  have hset : (levels ++ [0]).toFinset = insert w ((Finset.range w).filter (Encloses before)) := by
    ext v
    rw [mem_toFinset, h.mem_iff, encloses_concat, Finset.mem_insert, Finset.mem_filter, Finset.mem_range]
  have hcard := toFinset_card_of_nodup (h.sorted.imp ne_of_gt)
  rw [hset, Finset.card_insert_of_notMem (by simp), length_append, length_singleton] at hcard
  exact (Nat.succ.inj hcard).symm

end Stacked

/-! ### Open blocks -/

/-- How many blocks are open behind a token, if so many are open in front of it and it closes none that is not
open. -/
def blocksAfter : Nat → TokenKind → Option Nat
  | n, .indent => some (n + 1)
  | 0, .dedent => none
  | n + 1, .dedent => some n
  | n, _ => some n

/-- How many blocks are open behind some tokens. -/
def depthAfter (n : Nat) (ts : List Token) : Option Nat := ts.foldlM (fun n t => blocksAfter n t.kind) n

lemma depthAfter_append (n : Nat) (ts us : List Token) :
    depthAfter n (ts ++ us) = (depthAfter n ts).bind fun m => depthAfter m us :=
  foldlM_append

lemma depthAfter_filter (n : Nat) : ∀ ts : List Token, depthAfter n (ts.filter (·.kind.isBlock)) = depthAfter n ts
  | [] => rfl
  | t :: ts => by
    rw [filter_cons, depthAfter, depthAfter, foldlM_cons]
    split
    · rw [foldlM_cons]
      exact congrArg _ (funext fun m => depthAfter_filter m ts)
    · next hplain =>
      have hstep : blocksAfter n t.kind = some n := by
        cases hkind : t.kind <;> simp [hkind, TokenKind.isBlock] at hplain <;> rfl
      rw [hstep]
      exact depthAfter_filter n ts

lemma depthAfter_dedents (span : Span) (n : Nat) : ∀ k : Nat,
    depthAfter (n + k) (List.replicate k (.synthetic .dedent span)) = some n
  | 0 => rfl
  | k + 1 => depthAfter_dedents span n k

/-! ### One line -/

/-- What is wrong with the first token of a line that does not fit. -/
inductive Offends (before : List Nat) (w : Nat) (first : Token) : LayoutError → Prop where
  | indented (start : before = []) (wide : w ≠ 0) : Offends before w first (.unexpectedIndent first.span)
  | mismatch (narrow : w < before.getLastD 0) (unknown : ¬ Encloses before w) :
      Offends before w first (.mismatch first.span w)

lemma Offends.not_fits {first : Token} (h : Offends before w first e) : ¬ Fits before w := by
  rintro ⟨hfirst, hnarrow⟩
  cases h with
  | indented hstart hwide => exact hwide (hfirst hstart)
  | mismatch hlt hunknown => exact hunknown (hnarrow hlt)

/-- What opening a line comes to, behind lines of some widths. -/
inductive Opens (before levels : List Nat) (w : Nat) (first : Token) :
    Except LayoutError (List Token × List Nat) → Prop where
  | fits {blocks} {inner} (fits : Fits before w)
      (stacked : Stacked (before ++ [w]) inner) (marks : ∀ t ∈ blocks, t.kind.isBlock = true)
      (opened : depthAfter levels.length blocks = some inner.length) :
      Opens before levels w first (.ok (blocks, inner))
  | offends {e} (offends : Offends before w first e) : Opens before levels w first (.error e)

lemma Stacked.headD_dropWhile {before levels : List Nat} (h : Stacked before levels) :
    (levels.dropWhile (w < ·)).headD 0 = w ↔ Encloses before w := by
  constructor
  · intro hhead
    cases hkept : levels.dropWhile (w < ·) with
    | nil =>
      rw [hkept] at hhead
      exact .inl hhead.symm
    | cons top rest =>
      rw [hkept] at hhead
      have hmem : top ∈ levels := (dropWhile_sublist _).subset (hkept ▸ mem_cons_self)
      rw [← hhead]
      exact (h.mem_iff top).1 (mem_append_left _ hmem)
  · intro hw
    rw [(h.pop hw).headD_eq, getLastD_concat]

lemma opens_open? {source : List Char} {before : List Nat} {s : State} (h : Stacked before s.levels)
    (hstarted : s.started = true ↔ before ≠ []) (first : Token) :
    Opens before s.levels (width ((Text.slice? source s.lineStart first.span.start).getD [])) first
      (open? source s first) := by
  unfold open?
  generalize width ((Text.slice? source s.lineStart first.span.start).getD []) = w
  have htop : s.current = before.getLastD 0 := h.headD_eq
  dsimp only
  split
  · next hwide =>
    split
    · next hstart =>
      refine .fits ⟨fun hnil => absurd hnil (hstarted.1 hstart), fun hlt => ?_⟩ (h.push hwide) ?_ rfl
      · omega
      · simp [synthetic, TokenKind.isBlock]
    · next hstart =>
      refine .offends (.indented ?_ (by omega))
      exact not_not.1 fun hne => hstart (hstarted.2 hne)
  · split
    · next hnarrow =>
      split
      · next hkept =>
        have hencl := h.headD_dropWhile.1 hkept
        refine .fits hencl.fits (h.pop hencl) ?_ ?_
        · intro t ht
          rw [eq_of_mem_replicate ht]
          rfl
        · have hle := (dropWhile_sublist (w < ·) (l := s.levels)).length_le
          have hcount := depthAfter_dedents first.span (s.levels.dropWhile (w < ·)).length
            (s.levels.length - (s.levels.dropWhile (w < ·)).length)
          rwa [Nat.add_sub_cancel' hle] at hcount
      · next hkept => exact .offends (.mismatch (htop ▸ hnarrow) fun hencl => hkept (h.headD_dropWhile.2 hencl))
    · have heq : w = s.current := by omega
      have hencl : Encloses before w := by
        rw [heq, htop]
        exact encloses_last before
      have hkept : s.levels.dropWhile (w < ·) = s.levels := by
        rw [heq, State.current]
        cases s.levels <;> simp
      have hstacked := h.pop hencl
      rw [hkept] at hstacked
      exact .fits hencl.fits hstacked (by simp) rfl

/-! ### All lines -/

lemma forall_cut_cons {α : Type} {a : α} {as : List α} {P : List α → α → Prop} :
    (∀ front b back, a :: as = front ++ b :: back → P front b) ↔
      P [] a ∧ ∀ front b back, as = front ++ b :: back → P (a :: front) b := by
  refine ⟨fun h => ⟨h [] a as rfl, fun front b back heq => h (a :: front) b back (heq ▸ rfl)⟩, ?_⟩
  rintro ⟨hfirst, hrest⟩ (_ | ⟨c, front⟩) b back heq
  · cases heq
    exact hfirst
  · cases heq
    exact hrest front b back rfl

def weave : List (List Token) → List Line → List Token
  | m :: marks, l :: more => m ++ l.tokens ++ l.stop :: weave marks more
  | _, _ => []

/-- Lines fit behind lines of some widths, and the tokens between them open and close blocks as the offside rule
says. -/
structure Laid (source : List Char) (before : List Nat) (n : Nat) (ls : List Line)
    (marks : List (List Token)) (closing : List Token) : Prop where
  length_eq : marks.length = ls.length
  opening : ∀ m ∈ marks, ∀ t ∈ m, t.kind.isBlock = true
  closes : ∀ t ∈ closing, t.kind = .dedent
  fits : ∀ front l back, ls = front ++ l :: back → Fits (before ++ front.map (·.width source)) (l.width source)
  depth : ∀ front l back, ls = front ++ l :: back → depthAfter n (marks.take (front.length + 1)).flatten =
      some (depth (before ++ front.map (·.width source)) (l.width source))
  balanced : depthAfter n (marks.flatten ++ closing) = some 0

namespace Laid

variable {source : List Char} {before : List Nat} {n : Nat} {finish : Span}

lemma nil (source : List Char) (before : List Nat) (n : Nat) (finish : Span) :
    Laid source before n [] [] (List.replicate n (.synthetic .dedent finish)) where
  length_eq := rfl
  opening := by simp
  closes t ht := by
    rw [eq_of_mem_replicate ht]
    rfl
  fits front l back h := by simp at h
  depth front l back h := by simp at h
  balanced := by simpa using depthAfter_dedents finish 0 n

lemma cons {ls : List Line} {inner : List Nat} {blocks closing : List Token} {marks : List (List Token)}
    (fits : Fits before (l.width source)) (stacked : Stacked (before ++ [l.width source]) inner)
    (hblocks : ∀ t ∈ blocks, t.kind.isBlock = true) (opened : depthAfter n blocks = some inner.length)
    (h : Laid source (before ++ [l.width source]) inner.length ls marks closing) :
    Laid source before n (l :: ls) (blocks :: marks) closing where
  length_eq := congrArg Nat.succ h.length_eq
  opening := forall_mem_cons.2 ⟨hblocks, h.opening⟩
  closes := h.closes
  fits := forall_cut_cons.2 ⟨by simpa using fits, by simpa using h.fits⟩
  depth := by
    refine forall_cut_cons.2 ⟨by simpa [stacked.length_eq] using opened, fun front l' back hsplit => ?_⟩
    rw [length_cons, take_succ_cons, flatten_cons, depthAfter_append, opened]
    simpa using h.depth front l' back hsplit
  balanced := by
    rw [flatten_cons, append_assoc, depthAfter_append, opened]
    exact h.balanced

end Laid

/-- What layout of lines comes to. -/
inductive Arranges (source : List Char) (before : List Nat) (n : Nat) (ls : List Line) :
    Except LayoutError (List Token) → Prop where
  | laid {marks} {closing} (laid : Laid source before n ls marks closing) :
      Arranges source before n ls (.ok (weave marks ls ++ closing))
  | offends {front back} {l} {e} (split : ls = front ++ l :: back)
      (fits : ∀ inner l' back', front = inner ++ l' :: back' →
        Fits (before ++ inner.map (·.width source)) (l'.width source))
      (offends : Offends (before ++ front.map (·.width source)) (l.width source) l.first e) :
      Arranges source before n ls (.error e)

lemma arranges_arrangeLines (source : List Char) (finish : Span) : ∀ (ls : List Line)
    {before levels started}, Stacked before levels → (started = true ↔ before ≠ []) →
    Arranges source before levels.length ls (arrangeLines source finish levels started ls)
  | [], before, levels, _, _, _ => .laid (.nil source before levels.length finish)
  | l :: ls, before, levels, started, hstacked, hstarted => by
    have hopens : Opens before levels (l.width source) l.first
        (open? source { levels, lineStart := l.start, started } l.first) :=
      @opens_open? source before { levels, lineStart := l.start, started } hstacked hstarted l.first
    rw [arrangeLines]
    generalize open? source { levels, lineStart := l.start, started } l.first = r at hopens ⊢
    cases hopens with
    | offends hoffends =>
      have hsplit : l :: ls = [] ++ l :: ls := rfl
      refine .offends hsplit (by simp) ?_
      simpa using hoffends
    | @fits blocks inner hfits hinner hmarks hopened =>
      have hrest : Arranges source _ inner.length ls (arrangeLines source finish inner true ls) :=
        arranges_arrangeLines source finish ls hinner (by simp)
      simp only [bind, Except.bind]
      generalize arrangeLines source finish inner true ls = r at hrest ⊢
      cases hrest with
      | @laid marks closing hlaid =>
        have heq : blocks ++ l.tokens ++ l.stop :: (weave marks ls ++ closing) =
            weave (blocks :: marks) (l :: ls) ++ closing := by simp [weave]
        simp only [pure, Except.pure, heq]
        exact .laid (hlaid.cons hfits hinner hmarks hopened)
      | @offends front back l' e hsplit hfront hoffends =>
        have hlonger : l :: ls = (l :: front) ++ l' :: back := congrArg (l :: ·) hsplit
        refine .offends hlonger ?_ (by simpa using hoffends)
        exact forall_cut_cons.2 ⟨by simpa using hfits, by simpa using hfront⟩

/-! ### Tokens of lines -/

lemma mem_rows (finish : Span) : ∀ {start groups tokens r}, r ∈ rows finish start groups tokens →
    r.stop.kind = .newline ∧ ∀ t ∈ r.tokens, t ∈ tokens ∧ t.kind ≠ .newline
  | _, _, [], r, h => by
    rw [rows, mem_singleton] at h
    subst h
    exact ⟨rfl, by simp⟩
  | start, groups, t :: rest, r, h => by
    have hwiden : ∀ {r : Row}, (r.stop.kind = .newline ∧ ∀ u ∈ r.tokens, u ∈ rest ∧ u.kind ≠ .newline) →
        r.stop.kind = .newline ∧ ∀ u ∈ r.tokens, u ∈ t :: rest ∧ u.kind ≠ .newline :=
      fun hr => ⟨hr.1, fun u hu => ⟨.tail _ (hr.2 u hu).1, (hr.2 u hu).2⟩⟩
    unfold rows at h
    split at h
    · next hkind =>
      split at h
      · rcases mem_cons.1 h with rfl | h
        · exact ⟨hkind, by simp⟩
        · exact hwiden (mem_rows finish h)
      · exact hwiden (mem_rows finish h)
    · next hkind =>
      obtain ⟨first, more, hrows, -⟩ := exists_rows finish start (groupsAfter groups t.kind) rest
      rw [hrows, consToken] at h
      rcases mem_cons.1 h with rfl | h
      · have hfirst := hwiden (mem_rows finish (hrows ▸ mem_cons_self))
        exact ⟨hfirst.1, forall_mem_cons.2 ⟨⟨.head _, hkind⟩, hfirst.2⟩⟩
      · exact hwiden (mem_rows finish (hrows ▸ mem_cons_of_mem _ h))

lemma mem_lines {tokens : List Token} (h : l ∈ lines source tokens) :
    l.stop.kind = .newline ∧ ∀ t ∈ l.tokens, t ∈ tokens ∧ t.kind ≠ .newline := by
  obtain ⟨r, hr, hline⟩ := mem_filterMap.1 h
  obtain ⟨hstop, htokens⟩ := mem_rows _ hr
  unfold Row.line? at hline
  split at hline
  · cases hline
  · next t rest heq =>
    cases hline
    exact ⟨hstop, fun u hu => htokens u (heq ▸ hu)⟩

end Layout

lemma eq_map_of_mapM_id {α ε : Type} : ∀ {rs : List (Except ε α)} {as}, rs.mapM id = .ok as → rs = as.map .ok
  | [], _, h => by
    cases h
    rfl
  | r :: rs, as, h => by
    rw [mapM_cons] at h
    obtain ⟨first, hfirst, h⟩ := Except.bind_eq_ok.1 h
    obtain ⟨later, hlater, h⟩ := Except.bind_eq_ok.1 h
    cases h
    rw [map_cons, ← eq_map_of_mapM_id hlater]
    exact congrArg (· :: rs) hfirst

lemma Token.scan_eq (h : Token.lex source = .ok tokens) : Token.scan source = tokens.map .ok := eq_map_of_mapM_id h

lemma Token.mem_pattern_of_lex {tokens : List Token} (h : Token.lex source = .ok tokens) :
    ∀ t ∈ tokens, t.text.toList ∈ t.kind.pattern := fun _ ht =>
  mem_pattern_of_scan (scan_eq h ▸ mem_map_of_mem ht)

lemma TokenKind.isBlock_of_mem {kind : TokenKind} (h : s ∈ kind.pattern) : kind.isBlock = false := by
  cases kind with
  | indent | dedent => cases h
  | _ => rfl

namespace Layout

/-! ### Block tokens aside -/

/-- Some lines have no tokens that open or close blocks. -/
def Plain (ls : List Line) : Prop :=
  ∀ l ∈ ls, l.stop.kind = .newline ∧ ∀ t ∈ l.tokens, t.kind ≠ .newline ∧ t.kind.isBlock = false

lemma plain_lines {tokens : List Token} (h : lex source = .ok tokens) : Plain (lines source tokens) := fun _ hl =>
  ⟨(mem_lines hl).1, fun t ht => ⟨((mem_lines hl).2 t ht).2,
    -- Characters form no block tokens.
    TokenKind.isBlock_of_mem (mem_pattern_of_lex h t ((mem_lines hl).2 t ht).1)⟩⟩

lemma filter_weave : ∀ {marks : List (List Token)} {ls : List Line}, marks.length = ls.length →
    (∀ m ∈ marks, ∀ t ∈ m, t.kind.isBlock = true) → Plain ls →
    (weave marks ls).filter (!·.kind.isBlock) = (ls.flatMap fun l => l.tokens ++ [l.stop]) ∧
      (weave marks ls).filter (·.kind.isBlock) = marks.flatten
  | [], [], _, _, _ => ⟨rfl, rfl⟩
  | [], _ :: _, hlength, _, _ | _ :: _, [], hlength, _, _ => absurd hlength (by simp)
  | m :: marks, l :: ls, hlength, hmarks, hplain => by
    obtain ⟨hfirst, hrest⟩ := forall_mem_cons.1 hmarks
    obtain ⟨⟨hstop, htokens⟩, hplain⟩ := forall_mem_cons.1 hplain
    obtain ⟨hlines, hblocks⟩ := filter_weave (Nat.succ.inj hlength) hrest hplain
    have hline : ∀ t ∈ l.tokens ++ [l.stop], t.kind.isBlock = false := by
      refine forall_mem_append.2 ⟨fun t ht => (htokens t ht).2, forall_mem_singleton.2 ?_⟩
      rw [hstop]
      rfl
    have hweave : weave (m :: marks) (l :: ls) = m ++ ((l.tokens ++ [l.stop]) ++ weave marks ls) := by
      simp [weave]
    rw [hweave]
    constructor
    · rw [filter_append, filter_append (l.tokens ++ _), hlines, filter_eq_nil_iff.2 (by simpa using hfirst),
        filter_eq_self.2 (by simpa using hline)]
      rfl
    · rw [filter_append, filter_append (l.tokens ++ _), hblocks, filter_eq_self.2 hfirst,
        filter_eq_nil_iff.2 (by simpa using hline)]
      rfl

lemma filter_out (hlaid : Laid source.toList [] 0 ls marks closing) (hplain : Plain ls) :
    (weave marks ls ++ closing).filter (!·.kind.isBlock) = ls.flatMap fun l => l.tokens ++ [l.stop] := by
  have hclosing : ∀ t ∈ closing, ¬ (!t.kind.isBlock) = true := by
    intro t ht
    simp [hlaid.closes t ht, TokenKind.isBlock]
  rw [filter_append, (filter_weave hlaid.length_eq hlaid.opening hplain).1, filter_eq_nil_iff.2 hclosing, append_nil]

lemma arranges_layout (source : String) (tokens : List Token) :
    Arranges source.toList [] 0 (lines source tokens) (layout source tokens) := by
  rw [layout_eq]
  exact arranges_arrangeLines source.toList _ _ .nil (by simp)

lemma mem_of_layout {tokens out : List Token} (h : lex source = .ok tokens) (hout : layout source tokens = .ok out)
    (ht : t ∈ out) : t ∈ tokens ∨ t.kind = .newline ∨ t.kind.isBlock = true := by
  have harranges := arranges_layout source tokens
  rw [hout] at harranges
  cases hblock : t.kind.isBlock with
  | true => exact .inr (.inr rfl)
  | false =>
    cases harranges with
    | laid hlaid =>
      have hmem := mem_filter_of_mem (p := (!·.kind.isBlock)) ht (by rw [hblock]; rfl)
      rw [filter_out hlaid (plain_lines h)] at hmem
      obtain ⟨l, hl, hmem⟩ := mem_flatMap.1 hmem
      rcases mem_append.1 hmem with hmem | hmem
      · exact .inl ((mem_lines hl).2 t hmem).1
      · exact .inr (.inl (mem_singleton.1 hmem ▸ (mem_lines hl).1))

end Layout

open Layout

/-- Layout implements the offside rule. It succeeds iff the first line has no indentation and each line that is
narrower than the one before it has a width that encloses it. The block tokens then are balanced, and at each
line as many blocks are open as there are smaller widths that enclose it. Otherwise the error is about the first
line that does not fit. -/
theorem Token.layout_offside {source : String} {tokens : List Token} (h : lex source = .ok tokens) :
    let ls := lines source tokens
    let width := Line.width source.toList
    ((∃ out, layout source tokens = .ok out) ↔ (∀ l ∈ ls.head?, width l = 0) ∧
      ∀ front l back, ls = front ++ l :: back → width l < (front.map width).getLastD 0 →
        Encloses (front.map width) (width l)) ∧
    (∀ out, layout source tokens = .ok out → out.filter (!·.kind.isBlock) = (ls.flatMap fun l => l.tokens ++ [l.stop]) ∧
      (∀ l ∈ ls, l.stop.kind = .newline ∧ ∀ t ∈ l.tokens, t.kind ≠ .newline ∧ t.kind.isBlock = false) ∧
      depthAfter 0 out = some 0 ∧
      ∃ marks closing, out = weave marks ls ++ closing ∧ marks.length = ls.length ∧
        (∀ m ∈ marks, ∀ t ∈ m, t.kind.isBlock = true) ∧ (∀ t ∈ closing, t.kind = .dedent) ∧
        ∀ front l back, ls = front ++ l :: back → depthAfter 0 (marks.take (front.length + 1)).flatten =
            some (depth (front.map width) (width l))) ∧
    ∀ e, layout source tokens = .error e → ∃ front l back, ls = front ++ l :: back ∧
      (∀ inner l' back', front = inner ++ l' :: back' → Fits (inner.map width) (width l')) ∧
      (front = [] ∧ width l ≠ 0 ∧ e = .unexpectedIndent l.first.span ∨
        width l < (front.map width).getLastD 0 ∧ ¬ Encloses (front.map width) (width l) ∧
          e = .mismatch l.first.span (width l)) := by
  intro ls width
  have hplain : Plain ls := plain_lines h
  have harranges : Arranges source.toList [] 0 ls (layout source tokens) := arranges_layout source tokens
  generalize layout source tokens = r at harranges
  cases harranges with
  | @laid marks closing hlaid =>
    refine ⟨⟨fun _ => ⟨fun l hl => ?_, fun front l back hsplit => ?_⟩, fun _ => ⟨_, rfl⟩⟩, ?_, by simp⟩
    · obtain ⟨back, hsplit⟩ := List.head?_eq_some_iff.1 hl
      exact (hlaid.fits [] l back hsplit).first rfl
    · exact (hlaid.fits front l back hsplit).narrower
    · rintro out ⟨⟩
      refine ⟨?_, hplain, ?_, _, _, rfl, hlaid.length_eq, hlaid.opening, hlaid.closes, hlaid.depth⟩
      · exact filter_out hlaid hplain
      · rw [depthAfter_append, ← depthAfter_filter, (filter_weave hlaid.length_eq hlaid.opening hplain).2,
          ← depthAfter_append]
        exact hlaid.balanced
  | @offends front back l e hsplit hfits hoffends =>
    refine ⟨⟨by simp, fun hrule => ?_⟩, by simp, ?_⟩
    · refine absurd ⟨fun hnil => ?_, hrule.2 front l back hsplit⟩ hoffends.not_fits
      obtain rfl : front = [] := map_eq_nil_iff.1 hnil
      exact hrule.1 l (hsplit ▸ rfl)
    · rintro _ ⟨⟩
      refine ⟨front, l, back, hsplit, hfits, ?_⟩
      cases hoffends with
      | indented hstart hwide => exact .inl ⟨map_eq_nil_iff.1 hstart, hwide, rfl⟩
      | mismatch hnarrow hunknown => exact .inr ⟨hnarrow, hunknown, rfl⟩

/-- A source with a block in a block, both of which the last line closes. Brackets go over a line break. -/
def nestedSource : String := "a:\n  b\n\n    c(\n d)\ne"

lemma lex_nested : ∃ tokens out, lex nestedSource = .ok tokens ∧
    (lines nestedSource tokens).map (Line.width nestedSource.toList) = [0, 2, 4, 0] ∧
    layout nestedSource tokens = .ok out := by
  have hrun : (match lex nestedSource with
      | .ok tokens => decide ((lines nestedSource tokens).map (Line.width nestedSource.toList) = [0, 2, 4, 0])
        && (layout nestedSource tokens).isOk
      | .error _ => false) = true := by decide +kernel
  split at hrun
  · next tokens htokens =>
    obtain ⟨hwidths, hok⟩ := Bool.and_eq_true_iff.1 hrun
    cases hout : layout nestedSource tokens with
    | ok out => exact ⟨tokens, out, htokens, of_decide_eq_true hwidths, hout⟩
    | error e => simp [hout, Except.isOk, Except.toBool] at hok
  · cases hrun

theorem Token.layout_offside_nested : ∃ tokens out, lex nestedSource = .ok tokens ∧
    (lines nestedSource tokens).map (Line.width nestedSource.toList) = [0, 2, 4, 0] ∧
    layout nestedSource tokens = .ok out ∧ depthAfter 0 out = some 0 ∧
    out.filter (!·.kind.isBlock) = (lines nestedSource tokens).flatMap fun l => l.tokens ++ [l.stop] := by
  obtain ⟨tokens, out, htokens, hwidths, hout⟩ := lex_nested
  obtain ⟨hlines, -, hbalanced, -⟩ := (layout_offside htokens).2.1 out hout
  exact ⟨tokens, out, htokens, hwidths, hout, hbalanced, hlines⟩

end Workflow
