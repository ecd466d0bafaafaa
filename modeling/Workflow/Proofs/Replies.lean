import Workflow.Schema.Extract
import Workflow.Proofs.Values
import Mathlib

/-!
A reply that is JSON by itself is read as what it is, unless a block is fenced in it: no step of the reader
takes white space for what it asks for, so it stops where the white space at the end begins.
-/

namespace Workflow

open List Text Json

variable {c : Char} {α : Type} {b s : List Char} {v : Json}

namespace Json

def Space (b : List Char) : Prop := ∀ c ∈ b, isSpace c = true

/-- Two readings agree, one of a text and one with white space behind it: both fail, or they find one value and
leave one end of the text. -/
inductive Agrees {α : Type} (s b : List Char) : Except Fault (α × List Char) → Except Fault (α × List Char) → Prop
  | failed (e e' : Fault) : Agrees s b (.error e) (.error e')
  | found (v : α) {r : List Char} (h : r <:+ s) : Agrees s b (.ok (v, r)) (.ok (v, r ++ b))

/-- A step stops at white space: what it reads does not depend on white space at the end of the text. -/
def Stops {α : Type} (f : Step α) : Prop := ∀ s b, Space b → Agrees s b (f s) (f (s ++ b))

namespace Agrees

variable {β : Type} {s' : List Char} {x y : Except Fault (α × List Char)}

lemma weaken (h : Agrees s b x y) (hs : s <:+ s') : Agrees s' b x y := by
  cases h with
  | failed e e' => exact .failed e e'
  | found v hr => exact .found v (hr.trans hs)

lemma behind (h : Agrees s b x y) (hs : c :: s <:+ s') : Agrees s' b x y :=
  h.weaken ((suffix_cons c s).trans hs)

lemma cons (h : Agrees s b x y) (c : Char) : Agrees (c :: s) b x y := h.behind suffix_rfl

@[simp] lemma errors (e e' : Fault) : @Agrees α s b (.error e) (.error e') := .failed e e'

lemma here (v : α) (s b : List Char) : Agrees s b (.ok (v, s)) (.ok (v, s ++ b)) := .found v suffix_rfl

lemma bind {f g : α × List Char → Except Fault (β × List Char)} (h : Agrees s b x y)
    (hf : ∀ v r, r <:+ s → Agrees r b (f (v, r)) (g (v, r ++ b))) : Agrees s b (x >>= f) (y >>= g) := by
  cases h with
  | failed e e' => exact .failed e e'
  | found v hr => exact (hf v _ hr).weaken hr

end Agrees

@[simp] lemma failAt_eq (cause : Cause) (rest : List Char) : @failAt α cause rest = .error ⟨cause, rest, 0⟩ := rfl

@[simp] lemma failNext_eq (cause : Cause) (rest : List Char) : @failNext α cause rest = .error ⟨cause, rest, 1⟩ := rfl

@[simp] lemma error_bind {β : Type} (e : Fault) (f : α → Except Fault β) : (.error e >>= f) = .error e := rfl

lemma isSpace_of_isDigit (h : c.isDigit = true) : isSpace c = false := by
  simp only [Char.isDigit, Bool.and_eq_true, decide_eq_true_eq] at h
  obtain ⟨h1, h2⟩ := h
  have hlow : 48 ≤ c.toNat := h1
  have hhigh : c.toNat ≤ 57 := h2
  simp [isSpace]
  omega

lemma Space.isDigit (hb : Space b) (hc : c ∈ b) : c.isDigit = false := by
  cases h : c.isDigit with
  | false => rfl
  | true => exact absurd (hb c hc) (by simp [isSpace_of_isDigit h])

lemma Space.ne (hb : Space (c :: b)) (hd : isSpace d = false) : c ≠ d := by
  rintro rfl
  simp [hb c mem_cons_self] at hd

lemma Space.start (hb : Space b) :
    b = [] ∨ ∃ c rest, b = c :: rest ∧ c.isDigit = false ∧ c ≠ '.' ∧ c ≠ 'e' ∧ c ≠ 'E' ∧ c ≠ '+' ∧ c ≠ '-' ∧
      c ≠ '0' ∧ c ≠ '"' ∧ c ≠ '\\' ∧ c ≠ '/' ∧ c ≠ 'b' ∧ c ≠ 'f' ∧ c ≠ 'n' ∧ c ≠ 'r' ∧ c ≠ 't' ∧ c ≠ 'u' ∧ c ≠
      '[' ∧ c ≠ ']' ∧ c ≠ '\x7b' ∧ c ≠ '\x7d' ∧ c ≠ ',' ∧ c ≠ ':' := by
  cases b with
  | nil => exact .inl rfl
  | cons c b =>
    have hspace := hb c mem_cons_self
    refine .inr ⟨c, b, rfl, hb.isDigit mem_cons_self, ?_⟩
    and_intros <;> rintro rfl <;> exact absurd hspace (by decide)

/-! ### Numbers -/

lemma stops_floatOfParts (negative : Bool) (significand : Nat) (exponent : Int) :
    Stops (floatOfParts negative significand exponent) := by
  intro s b _
  unfold floatOfParts
  split
  · exact .here ..
  · exact .failed ..

lemma dropWhile_isDigit (hb : Space b) (s : List Char) :
    (s ++ b).dropWhile Char.isDigit = s.dropWhile Char.isDigit ++ b := by
  rw [dropWhile_append]
  split
  · next hempty =>
    rw [isEmpty_iff.1 hempty]
    rcases hb.start with rfl | ⟨c, b, rfl, hc⟩ <;> simp [*]
  · rfl

lemma stops_exponentDigits (negative below zero : Bool) (hfinish : ∀ e, Stops (finish e)) (value : Nat) :
    Stops (exponentDigits negative below zero finish value) := by
  intro s b hb
  fun_induction exponentDigits negative below zero finish value s with
  | case1 value =>
    have hend := hfinish value [] b hb
    rcases hb.start with rfl | ⟨c, b, rfl, hc⟩ <;> simpa [exponentDigits, *] using hend
  | case2 value c rest hdigit hsmall ih => simpa [exponentDigits, hdigit, hsmall] using ih.cons c
  | case3 value c rest hdigit hsmall hrange => simp [exponentDigits, hdigit, hsmall, hrange]
  | case4 value c rest hdigit hsmall hrange =>
    simp only [cons_append, exponentDigits, hdigit, hsmall, hrange, if_true, if_false, dropWhile_isDigit hb]
    exact .found _ ((dropWhile_suffix _).trans (suffix_cons c rest))
  | case5 value c rest hdigit => simpa [exponentDigits, hdigit] using hfinish value (c :: rest) b hb

lemma stops_unsignedExponent (negative below : Bool) (significand : Nat) (start : Int) :
    Stops (unsignedExponent negative below significand start) := by
  intro s b hb
  cases s with
  | nil => rcases hb.start with rfl | ⟨c, b, rfl, hc⟩ <;> simp [unsignedExponent, *]
  | cons c s =>
    by_cases hdigit : c.isDigit = true
    · have hdigits := stops_exponentDigits negative below (significand = 0) (fun e =>
        stops_floatOfParts negative significand (if below then start - e else start + e)) (digitValue c) s b hb
      simpa [unsignedExponent, hdigit] using hdigits.cons c
    · simp [unsignedExponent, hdigit]

lemma stops_exponentPart (negative : Bool) (significand : Nat) (start : Int) (letter : Char) :
    Stops fun s => exponentPart negative significand start (letter :: s) := by
  have hexponent := fun below => stops_unsignedExponent negative below significand start
  intro s b hb
  cases s with
  | nil =>
    have hplain := hexponent false [] b hb
    rcases hb.start with rfl | ⟨c, b, rfl, hc⟩ <;> simpa [exponentPart, *] using hplain
  | cons c s =>
    by_cases hplus : c = '+'
    · simpa [exponentPart, hplus] using (hexponent false s b hb).cons c
    · by_cases hminus : c = '-'
      · simpa [exponentPart, hminus] using (hexponent true s b hb).cons c
      · simpa [exponentPart, hplus, hminus] using hexponent false (c :: s) b hb

lemma stops_afterFraction (negative : Bool) (significand : Nat) (exponent : Int) :
    Stops (afterFraction negative significand exponent) := by
  have hpart := stops_exponentPart negative significand exponent
  have hfloat := stops_floatOfParts negative significand exponent
  intro s b hb
  cases s with
  | nil =>
    have hplain := hfloat [] b hb
    rcases hb.start with rfl | ⟨c, b, rfl, hc⟩ <;> simpa [afterFraction, *] using hplain
  | cons c s =>
    by_cases hc : c = 'e' ∨ c = 'E'
    · rcases hc with rfl | rfl <;> exact (hpart _ s b hb).cons _
    · rw [not_or] at hc
      simpa [afterFraction, hc] using hfloat (c :: s) b hb

lemma stops_fractionDigits (negative : Bool) (significand : Nat) (start : Int) (seen : Nat) :
    Stops (fractionDigits negative significand start seen) := by
  intro s b hb
  fun_induction fractionDigits negative significand start seen s with
  | case1 => rcases hb.start with rfl | ⟨c, b, rfl, hc⟩ <;> simp [fractionDigits, *]
  | case2 significand seen hseen =>
    have hfloat := stops_floatOfParts negative significand (start - seen) [] b hb
    rcases hb.start with rfl | ⟨c, b, rfl, hc⟩ <;> simpa [fractionDigits, afterFraction, *] using hfloat
  | case3 significand seen c rest hdigit hfits ih => simpa [fractionDigits, hdigit, hfits] using ih.cons c
  | case4 significand seen c rest hdigit hfits =>
    have hafter := stops_afterFraction negative significand (start - seen) ((c :: rest).dropWhile Char.isDigit) b hb
    rw [← dropWhile_isDigit hb] at hafter
    simpa [fractionDigits, hdigit, hfits] using hafter.weaken (dropWhile_suffix _)
  | case5 significand c rest hdigit => simp [fractionDigits, hdigit]
  | case6 significand seen c rest hdigit hseen =>
    simpa [fractionDigits, hdigit, hseen] using stops_afterFraction _ _ _ (c :: rest) b hb

lemma stops_longDigits (negative : Bool) (significand : Nat) (exponent : Int) :
    Stops (longDigits negative significand exponent) := by
  intro s b hb
  fun_induction longDigits negative significand exponent s with
  | case1 exponent =>
    have hfloat := stops_floatOfParts negative significand exponent [] b hb
    rcases hb.start with rfl | ⟨c, b, rfl, hc⟩ <;> simpa [longDigits, afterFraction, *] using hfloat
  | case2 exponent rest => exact (stops_fractionDigits _ _ _ _ rest b hb).cons _
  | case3 exponent c rest hpoint hdigit ih => simpa [longDigits, hpoint, hdigit] using ih.cons c
  | case4 exponent c rest hpoint hdigit =>
    simpa [longDigits, hpoint, hdigit] using stops_afterFraction _ _ _ (c :: rest) b hb

lemma stops_integerEnd (negative : Bool) (significand : Nat) : Stops (integerEnd negative significand) := by
  intro s b hb
  have hplain := Agrees.here (integerValue negative significand) s b
  cases s with
  | nil => rcases hb.start with rfl | ⟨c, b, rfl, hc⟩ <;> simpa [integerEnd, *] using hplain
  | cons c s =>
    by_cases hpoint : c = '.'
    · subst hpoint
      exact (stops_fractionDigits _ _ _ _ s b hb).cons _
    · by_cases he : c = 'e' ∨ c = 'E'
      · rcases he with rfl | rfl <;> exact (stops_exponentPart _ _ _ _ s b hb).cons _
      · rw [not_or] at he
        simpa [integerEnd, hpoint, he] using hplain

lemma stops_integerDigits (negative : Bool) (significand : Nat) : Stops (integerDigits negative significand) := by
  intro s b hb
  fun_induction integerDigits negative significand s with
  | case1 significand =>
    have hend := stops_integerEnd negative significand [] b hb
    rcases hb.start with rfl | ⟨c, b, rfl, hc⟩ <;> simpa [integerDigits, *] using hend
  | case2 significand c rest hdigit hfits ih => simpa [integerDigits, hdigit, hfits] using ih.cons c
  | case3 significand c rest hdigit hfits =>
    simpa [integerDigits, hdigit, hfits] using stops_longDigits _ _ _ (c :: rest) b hb
  | case4 significand c rest hdigit =>
    simpa [integerDigits, hdigit] using stops_integerEnd _ _ (c :: rest) b hb

lemma stops_number (negative : Bool) : Stops (number negative) := by
  intro s b hb
  fun_cases number negative s with
  | case1 => rcases hb.start with rfl | ⟨c, b, rfl, hc⟩ <;> simp [number, *]
  | case2 c rest hdigit => simp [number, hdigit]
  | case3 c rest hdigit => simpa [number, hdigit] using (stops_integerEnd _ _ (c :: rest) b hb).cons '0'
  | case4 =>
    have hend := (stops_integerEnd negative 0 [] b hb).cons '0'
    rcases hb.start with rfl | ⟨c, b, rfl, hc⟩ <;> simpa [number, *] using hend
  | case5 c rest hzero hdigit =>
    simpa [number, hzero, hdigit] using (stops_integerDigits _ _ rest b hb).cons c
  | case6 c rest hzero hdigit => simp [number, hdigit]

/-! ### Strings -/

lemma isSpace_of_hexValue (h : hexValue c = some n) : isSpace c = false := by
  have hrange : 48 ≤ c.toNat ∧ c.toNat ≤ 102 := by
    unfold hexValue at h
    split_ifs at h with hdigit hlower hupper
    · exact ⟨hdigit.1, Nat.le_trans hdigit.2 (by decide)⟩
    · exact ⟨Nat.le_trans (by decide) hlower.1, hlower.2⟩
    · exact ⟨Nat.le_trans (by decide) hupper.1, Nat.le_trans hupper.2 (by decide)⟩
  simp [isSpace]
  omega

lemma hexDigits_append (hb : Space b) (value n : Nat) (s : List Char) :
    hexDigits value n (s ++ b) = (hexDigits value n s).map (fun p => (p.1, p.2 ++ b)) ∧
      ∀ p ∈ hexDigits value n s, p.2 <:+ s := by
  fun_induction hexDigits value n s with
  | case1 value s => simp [hexDigits]
  | case2 value n =>
    cases b with
    | nil => simp [hexDigits]
    | cons c b =>
      have hnone : hexValue c = none := by
        cases h : hexValue c with
        | none => rfl
        | some digit => simpa [isSpace_of_hexValue h] using hb c mem_cons_self
      simp [hexDigits, hnone]
  | case3 value n c rest digit hdigit ih =>
    refine ⟨by simpa [hexDigits, hdigit] using ih.1, fun p hp => ?_⟩
    exact (ih.2 p hp).trans (suffix_cons c rest)
  | case4 value n c rest hnone => simp [hexDigits, hnone]

lemma stops_hexFour : Stops hexFour := by
  intro s b hb
  obtain ⟨happend, hsuffix⟩ := hexDigits_append hb 0 4 s
  unfold hexFour
  rw [happend]
  cases hread : hexDigits 0 4 s with
  | none => split_ifs <;> exact .failed ..
  | some p => exact .found p.1 (hsuffix p hread)

lemma stops_hexEscape : Stops hexEscape := by
  intro s b hb
  refine (stops_hexFour s b hb).bind fun n s _ => ?_
  dsimp only
  split_ifs
  · exact .failed ..
  · exact .here ..
  -- the second half of a pair
  rcases s with _ | ⟨c, s⟩
  · rcases hb.start with rfl | ⟨c, b, rfl, hc⟩ <;> simp_all
  · by_cases hslash : c = '\\'
    · subst hslash
      rcases s with _ | ⟨d, s⟩
      · rcases hb.start with rfl | ⟨c, b, rfl, hc⟩ <;> simp_all
      · by_cases hu : d = 'u'
        · subst hu
          refine (((stops_hexFour s b hb).bind fun m s _ => ?_).cons 'u').cons _
          dsimp only
          split_ifs
          · exact .failed ..
          · exact .here ..
        · simp [hu]
    · simp [hslash]

lemma stops_escape : Stops escape := by
  intro s b hb
  fun_cases escape s with
  | case1 => rcases hb.start with rfl | ⟨c, b, rfl, hc⟩ <;> simp_all [escape]
  | case10 rest => exact (stops_hexEscape rest b hb).cons _
  | case11 s => cases s <;> simp_all [escape]
  | _ rest => exact (Agrees.here _ rest b).cons _

lemma stringBody_space : ∀ {b}, Space b → ∀ (acc : List Char) (n : Nat), ∃ e, stringBody acc n b = .error e
  | _, _, _, 0 => ⟨_, rfl⟩
  | [], _, _, n + 1 => ⟨_, rfl⟩
  | c :: b, hb, acc, n + 1 => by
    obtain ⟨e, he⟩ := stringBody_space (fun d hd => hb d (mem_cons_of_mem c hd)) (c :: acc) n
    obtain ⟨_, _, heq, hc⟩ := hb.start.resolve_left (cons_ne_nil c b)
    obtain ⟨rfl, rfl⟩ := List.cons.inj heq
    by_cases hcontrol : c.toNat < 32 <;> simp [stringBody, *]

lemma stops_stringBody (hb : Space b) : ∀ (n m : Nat) (acc s : List Char), s.length < m →
    s.length + b.length < n → Agrees s b (stringBody acc m s) (stringBody acc n (s ++ b))
  | n + 1, m + 1, acc, s, hm, hn => by
    rcases s with _ | ⟨c, s⟩
    · obtain ⟨e, he⟩ := stringBody_space hb acc (n + 1)
      rw [nil_append, he]
      exact .failed ..
    · rw [length_cons] at hm hn
      by_cases hquote : c = '"'
      · simpa [stringBody, hquote] using (Agrees.here _ s b).cons c
      · by_cases hslash : c = '\\'
        · subst hslash
          refine ((stops_escape s b hb).bind fun d r hr => ?_).cons _
          have hlength := hr.length_le
          exact stops_stringBody hb n m (d :: acc) r (by omega) (by omega)
        · by_cases hcontrol : c.toNat < 32
          · simp [stringBody, hcontrol]
          · simpa [stringBody, hquote, hslash, hcontrol] using
              (stops_stringBody hb n m (c :: acc) s (by omega) (by omega)).cons c

lemma stops_string : Stops string := by
  intro s b hb
  refine stops_stringBody hb _ _ [] s (Nat.lt_succ_self _) ?_
  rw [length_append]
  exact Nat.lt_succ_self _

/-! ### Values -/

lemma stops_word (v : Json) : ∀ expected : List Char, (∀ e ∈ expected, isSpace e = false) → Stops (word expected v)
  | [], _, s, b, _ => .here v s b
  | e :: expected, hexpected, [], [], hb => .failed ..
  | e :: expected, hexpected, [], c :: b, hb => by
    have hc : e ≠ c := (hb.ne (hexpected e mem_cons_self)).symm
    simp [word, hc]
  | e :: expected, hexpected, c :: s, b, hb => by
    have hrest := stops_word v expected (fun e he => hexpected e (.tail _ he)) s b hb
    by_cases hc : e = c
    · simpa [word, hc] using hrest.cons c
    · simp [word, hc]

lemma skipBlanks_append (s : List Char) (hb : Space b) :
    (∃ c s', skipBlanks s = c :: s' ∧ skipBlanks (s ++ b) = c :: (s' ++ b) ∧ c :: s' <:+ s) ∨
      skipBlanks s = [] ∧ Space (skipBlanks (s ++ b)) := by
  unfold skipBlanks
  rw [dropWhile_append]
  cases hs : s.dropWhile isBlank with
  | nil => exact .inr ⟨rfl, fun c hc => hb c ((dropWhile_suffix _).subset hc)⟩
  | cons c s' => exact .inl ⟨c, s', rfl, rfl, hs ▸ dropWhile_suffix _⟩

lemma Stops.space (hf : Stops f) (hnil : ∃ e, f [] = .error e) (hb : Space b) : ∃ e, f b = .error e := by
  have h := hf [] b hb
  obtain ⟨e, he⟩ := hnil
  rw [he, nil_append] at h
  generalize f b = y at h
  cases h
  exact ⟨_, rfl⟩

section Entries

variable {ε σ : Type} {q : Entries ε σ} (hclose : isSpace q.close = false) (hentry : Stops q.entry)
  (hnil : ∃ e, q.entry [] = .error e) (hb : Space b)

include hclose hentry hnil hb

lemma agrees_moreEntries : ∀ (n m : Nat) (acc : σ) (s : List Char), s.length < m →
    s.length + b.length < n → Agrees s b (moreEntries q acc m s) (moreEntries q acc n (s ++ b))
  | n + 1, m + 1, acc, s, hm, hn => by
    rcases skipBlanks_append s hb with ⟨c, s', hs, ht, hsuffix⟩ | ⟨hs, hspace⟩
    · have hshort : s'.length < s.length := hsuffix.length_le
      by_cases hc : c = q.close
      · simpa [moreEntries, *] using (Agrees.here acc s' b).behind hsuffix
      by_cases hcomma : c = ','
      · subst hcomma
        rcases skipBlanks_append s' hb with ⟨d, u, hs', ht', hsuffix'⟩ | ⟨hs', hspace⟩
        · by_cases hd : d = q.close
          · simp [moreEntries, *]
          have hmore := (hentry (d :: u) b hb).bind (f := fun p => moreEntries q (q.add acc p.1) m p.2)
            (g := fun p => moreEntries q (q.add acc p.1) n p.2) fun v r hr => by
              have hlength := (hr.trans hsuffix').length_le
              exact agrees_moreEntries n m (q.add acc v) r (by omega) (by omega)
          simpa [moreEntries, *] using (hmore.weaken hsuffix').behind hsuffix
        · obtain ⟨e, he⟩ := hentry.space hnil hspace
          cases ht' : skipBlanks (s' ++ b) with
          | nil => simp [moreEntries, *]
          | cons d rest =>
            rw [ht'] at he hspace
            simp [moreEntries, *, hspace.ne hclose]
      · simp [moreEntries, *]
    · cases ht : skipBlanks (s ++ b) with
      | nil => simp [moreEntries, *]
      | cons c rest =>
        rw [ht] at hspace
        simp [moreEntries, *, hspace.ne hclose, hspace.ne (d := ',') (by decide)]

lemma agrees_entries (start : σ) (s : List Char) : Agrees s b (entries q start s) (entries q start (s ++ b)) := by
  rcases skipBlanks_append s hb with ⟨c, s', hs, ht, hsuffix⟩ | ⟨hs, hspace⟩
  · by_cases hc : c = q.close
    · simpa [entries, *] using (Agrees.here start s' b).behind hsuffix
    have hmore := (hentry (c :: s') b hb).bind (f := fun p => moreEntries q (q.add start p.1) (p.2.length + 1) p.2)
      (g := fun p => moreEntries q (q.add start p.1) (p.2.length + 1) p.2) fun v r _ =>
        agrees_moreEntries hclose hentry hnil hb _ _ _ r (Nat.lt_succ_self _) (by rw [length_append]; omega)
    simpa [entries, *] using hmore.weaken hsuffix
  · obtain ⟨e, he⟩ := hentry.space hnil hspace
    cases ht : skipBlanks (s ++ b) with
    | nil => simp [entries, *]
    | cons c rest =>
      rw [ht] at he hspace
      simp [entries, *, hspace.ne hclose]

end Entries

lemma stops_field {value : Step Json} (hvalue : Stops value) : Stops (field value) := by
  intro s b hb
  rcases s with _ | ⟨c, s⟩
  · rcases hb.start with rfl | ⟨c, b, rfl, hc⟩ <;> simp [field, *]
  by_cases hquote : c = '"'
  · subst hquote
    refine ((stops_string s b hb).bind fun name s _ => ?_).cons _
    rcases skipBlanks_append s hb with ⟨c, s', hs, ht, hsuffix⟩ | ⟨hs, hspace⟩
    · by_cases hcolon : c = ':'
      · subst hcolon
        simp only [hs, ht]
        exact ((hvalue s' b hb).bind fun v r _ => .here (name, v) r b).behind hsuffix
      · simp [*]
    · rcases hspace.start with ht | ⟨c, rest, ht, hc⟩ <;> simp [*]
  · simp [field, hquote]

lemma stops_valueWith {inner : Option (Step Json)}
    (hinner : ∀ value ∈ inner, Stops value ∧ ∃ e, value [] = .error e) : Stops (valueWith inner) := by
  intro s b hb
  rcases skipBlanks_append s hb with ⟨c, s', hs, ht, hsuffix⟩ | ⟨hs, hspace⟩
  · refine Agrees.weaken ?_ hsuffix
    unfold valueWith
    rw [hs, ht]
    split
    case h_1 heq => cases heq
    all_goals
      rename c :: s' = _ => heq
      obtain ⟨rfl, rfl⟩ := List.cons.inj heq
    · exact (stops_word _ _ (by simp [isSpace]) s' b hb).cons _
    · exact (stops_word _ _ (by simp [isSpace]) s' b hb).cons _
    · exact (stops_word _ _ (by simp [isSpace]) s' b hb).cons _
    · exact (stops_number true s' b hb).cons _
    · exact ((stops_string s' b hb).bind fun text r _ => .here (str text) r b).cons _
    · cases inner with
      | none => exact .failed ..
      | some value =>
        obtain ⟨hvalue, hnil⟩ := hinner value rfl
        exact ((agrees_entries rfl hvalue hnil hb [] s').bind fun vs r _ => .here (arr vs.reverse) r b).cons _
    · cases inner with
      | none => exact .failed ..
      | some value =>
        obtain ⟨hvalue, hnil⟩ := hinner value rfl
        exact ((agrees_entries rfl (stops_field hvalue) ⟨_, rfl⟩ hb [] s').bind fun fs r _ =>
          .here (obj fs) r b).cons _
    · next hn ht hf hminus hquote hlist hobj =>
      by_cases hdigit : c.isDigit = true
      · simpa [*] using stops_number false (c :: s') b hb
      · simp [*]
  · rcases hspace.start with ht | ⟨c, rest, ht, hc⟩ <;> simp [valueWith, *]

lemma value_eq : ∀ depth : Nat, ∃ inner, value depth = valueWith inner
  | 0 => ⟨none, rfl⟩
  | depth + 1 => ⟨some (value depth), rfl⟩

lemma stops_value : ∀ depth : Nat, Stops (value depth)
  | 0 => stops_valueWith nofun
  | depth + 1 => by
    refine stops_valueWith fun _ h => ?_
    obtain rfl := Option.some.inj h
    obtain ⟨inner, hvalue⟩ := value_eq depth
    exact ⟨stops_value depth, by rw [hvalue]; exact ⟨_, rfl⟩⟩

lemma value_starts (h : value depth s = .ok p) : ∃ c rest, skipBlanks s = c :: rest ∧ isSpace c = false := by
  obtain ⟨inner, hvalue⟩ := value_eq depth
  rw [hvalue] at h
  cases hs : skipBlanks s with
  | nil => simp [valueWith, hs] at h
  | cons c rest =>
    refine ⟨c, rest, rfl, ?_⟩
    by_contra hc
    have hspace : Space [c] := by simpa [Space] using hc
    obtain ⟨_, _, heq, hstart⟩ := hspace.start.resolve_left (cons_ne_nil c [])
    cases heq
    simp [valueWith, hs, hstart] at h

lemma value_skipBlanks (depth : Nat) (s : List Char) : value depth (skipBlanks s) = value depth s := by
  obtain ⟨inner, hvalue⟩ := value_eq depth
  simp [hvalue, valueWith, skipBlanks, dropWhile_idempotent]

lemma readChars_eq_ok : readChars s = .ok v ↔ ∃ r, value maxDepth s = .ok (v, r) ∧ skipBlanks r = [] := by
  constructor
  · intro h
    obtain ⟨⟨w, r⟩, hread, h⟩ := Except.bind_eq_ok.1 h
    dsimp only at h
    split at h
    · next hr =>
      cases h
      exact ⟨r, hread, hr⟩
    · cases h
  · rintro ⟨r, hread, hr⟩
    simp [readChars, hread, hr, bind, Except.bind, pure, Except.pure]

lemma read_eq_ok : read text = .ok v ↔ readChars text.toList = .ok v := by
  unfold read
  cases readChars text.toList <;> simp

lemma isSpace_of_isBlank (h : isBlank c = true) : isSpace c = true := by
  simp only [isBlank, Bool.or_eq_true, decide_eq_true_eq] at h
  rcases h with ((rfl | rfl) | rfl) | rfl <;> decide

lemma readChars_trim (h : readChars s = .ok v) : readChars (trim s) = .ok v := by
  obtain ⟨r, hread, hr⟩ := readChars_eq_ok.1 h
  -- in front of the value there are only blanks
  have hfront : s.dropWhile isSpace = skipBlanks s := by
    obtain ⟨c, rest, hskip, hc⟩ := value_starts hread
    have hs : s = s.takeWhile isBlank ++ c :: rest := by
      rw [← hskip]
      exact takeWhile_append_dropWhile.symm
    have hblank : ∀ d ∈ s.takeWhile isBlank, isSpace d = true :=
      fun d hd => isSpace_of_isBlank (mem_takeWhile_imp hd)
    rw [hskip, hs, dropWhile_append_of_pos hblank]
    simp [hc]
  have htail : Space ((skipBlanks s).rtakeWhile isSpace) := fun c hc => mem_rtakeWhile_imp hc
  have hsplit : trim s ++ (skipBlanks s).rtakeWhile isSpace = skipBlanks s := by
    rw [trim, hfront]
    exact rdropWhile_append_rtakeWhile
  have hagrees := stops_value maxDepth (trim s) _ htail
  rw [hsplit, value_skipBlanks, hread] at hagrees
  generalize hx : value maxDepth (trim s) = x at hagrees
  cases hagrees
  refine readChars_eq_ok.2 ⟨_, hx, ?_⟩
  rw [skipBlanks, dropWhile_eq_nil_iff] at hr ⊢
  exact fun c hc => hr c (mem_append_left _ hc)

end Json

/-! ### Fences -/

namespace Text

lemma prefix_of_startsWith : ∀ {text start}, startsWith text start = true → start <+: text
  | _, [], _ => nil_prefix
  | c :: text, d :: start, h => by
    simp only [startsWith, Bool.and_eq_true, decide_eq_true_eq] at h
    obtain ⟨rfl, h⟩ := h
    exact cons_prefix_cons.2 ⟨rfl, prefix_of_startsWith h⟩

lemma piecesFrom_eq_cons (hpart : part ≠ []) (h : piecesFrom part skip text = p :: q :: rest) : ∃ skip' text',
      text.drop skip = p ++ part ++ text'.drop skip' ∧ piecesFrom part skip' text' = q :: rest := by
  fun_induction piecesFrom part skip text generalizing p with
  | case1 => cases h
  | case2 skip c text ih => exact ih h
  | case3 c text hstart ih =>
    obtain ⟨rfl, hrest⟩ := List.cons.inj h
    refine ⟨part.length - 1, text, ?_, hrest⟩
    obtain ⟨tail, htail⟩ := prefix_of_startsWith hstart
    cases part with
    | nil => exact absurd rfl hpart
    | cons d part =>
      obtain ⟨rfl, rfl⟩ := List.cons.inj htail
      simp
  | case4 c text hstart ih =>
    cases hpieces : piecesFrom part 0 text with
    | nil => simp [hpieces, consFirst] at h
    | cons p' pieces =>
      rw [hpieces] at h ih
      obtain ⟨rfl, rfl⟩ := List.cons.inj h
      obtain ⟨skip', text', htext, hrest⟩ := ih rfl
      exact ⟨skip', text', by simpa using htext, hrest⟩

end Text

namespace Reply

lemma exists_fences (h : blocks text ≠ []) : ∃ a b c, text = a ++ fence ++ b ++ fence ++ c := by
  have hbodies : bodies (pieces fence text) ≠ [] := fun hnil => h (by rw [blocks, hnil]; rfl)
  unfold bodies at hbodies
  split at hbodies
  · next p body after rest hpieces =>
    have hfence : fence ≠ [] := by decide
    obtain ⟨skip, text', htext, hpieces⟩ := piecesFrom_eq_cons hfence hpieces
    obtain ⟨skip', text'', htext', -⟩ := piecesFrom_eq_cons hfence hpieces
    refine ⟨p, body, text''.drop skip', ?_⟩
    rw [drop_zero] at htext
    simpa [htext'] using htext
  · exact absurd rfl hbodies

/-- A reply that is JSON by itself, and in which no block is fenced, is read as it is. -/
theorem extract_of_read {text : String} {v : Json} (hread : read text = .ok v)
    (hfences : ¬ ∃ a b c, text.toList = a ++ fence ++ b ++ fence ++ c) : extract text = .ok v := by
  have hblocks : blocks text.toList = [] := by
    by_contra hsome
    exact hfences (exists_fences hsome)
  have htrim := readChars_trim (read_eq_ok.1 hread)
  have hchosen : candidate text.toList = .ok (trim text.toList) := by rw [candidate, hblocks]
  have hvalue : read (String.ofList (trim text.toList)) = .ok v := by
    rw [read_eq_ok, String.toList_ofList]
    exact htrim
  unfold extract
  rw [hchosen]
  dsimp only [bind, Except.bind]
  rw [hvalue]

/-- One fence in a string does no harm, nor do brackets and white space. -/
theorem extract_of_read_one_fence :
    read " \x7b\"code\": \"```rust [1\x7d\"\x7d\n" = .ok (.obj [("code", .str "```rust [1\x7d")]) ∧
    extract " \x7b\"code\": \"```rust [1\x7d\"\x7d\n" = .ok (.obj [("code", .str "```rust [1\x7d")]) := by
  have hread : read " \x7b\"code\": \"```rust [1\x7d\"\x7d\n" =
      .ok (.obj [("code", .str "```rust [1\x7d")]) := by cbv
  refine ⟨hread, extract_of_read hread ?_⟩
  rintro ⟨a, b, c, h⟩
  have hcount := congrArg (List.count (Char.ofNat 0x60)) h
  have hthree : List.count (Char.ofNat 0x60) " \x7b\"code\": \"```rust [1\x7d\"\x7d\n".toList = 3 := by cbv
  have hfence : List.count (Char.ofNat 0x60) fence = 3 := by decide
  rw [hthree] at hcount
  simp only [List.count_append, hfence] at hcount
  omega

/-- A block inside a string is taken for the answer. -/
theorem extract_inside_string :
    read "[\"```1```\"]" = .ok (.arr [.str "```1```"]) ∧ extract "[\"```1```\"]" = .ok (.int 1) := by
  constructor <;> cbv

end Reply

end Workflow
