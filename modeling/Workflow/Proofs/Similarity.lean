import Workflow.Text.Normal
import Mathlib

/-!
The normal form of a normal form. Lower case is taken after the characters that count are picked, so a second
pass finds what it would drop only in the dotted capital I, whose lower case has a combining dot.
-/

namespace Workflow

open List

namespace CharSet

variable {n : Nat} {p : Nat × Nat} {rs others : List (Nat × Nat)}

def Within (rs : List (Nat × Nat)) (n : Nat) : Prop := ∃ p ∈ rs, p.1 ≤ n ∧ n ≤ p.2

lemma mergeRanges_perm : ∀ rs others : List (Nat × Nat), (mergeRanges rs others).Perm (rs ++ others)
  | [], others => .refl _
  | r :: rest, others => by
    have hrest := (mergeRanges_perm rest (others.dropWhile (·.1 < r.1))).cons r
    have hperm := hrest.append_left (others.takeWhile (·.1 < r.1))
    refine hperm.trans (perm_append_comm.trans ?_)
    rw [cons_append, append_assoc, cons_append]
    refine .cons r (.append_left rest ?_)
    exact perm_append_comm.trans (by rw [takeWhile_append_dropWhile])

lemma mem_mergeRanges : p ∈ mergeRanges rs others ↔ p ∈ rs ∨ p ∈ others := by
  rw [(mergeRanges_perm rs others).mem_iff, mem_append]

lemma mem_unions : ∀ {sets}, p ∈ (unions sets).ranges ↔ ∃ s ∈ sets, p ∈ s.ranges
  | [] => by simp [unions]
  | s :: sets => by
    have hrest : p ∈ (sets.foldr union ⟨[]⟩).ranges ↔ _ := mem_unions
    simp [unions, union, mem_mergeRanges, hrest]

lemma rangesContain_of_within (horder : rs.Pairwise (·.1 ≤ ·.1)) (h : Within rs n) : rangesContain rs n = true := by
  obtain ⟨p, hp, hfirst, hlast⟩ := h
  induction rs with
  | nil => cases hp
  | cons q rest ih =>
    obtain ⟨hq, hrest⟩ := pairwise_cons.1 horder
    rcases mem_cons.1 hp with rfl | hp
    · simp [rangesContain, hlast, Nat.not_lt.2 hfirst]
    · have hstart := (hq p hp).trans hfirst
      simp [rangesContain, ih hrest hp, Nat.not_lt.2 hstart]

lemma Run.within_ranges {r : Run} (hfirst : r.first ≤ n) (hlast : n ≤ r.last)
    (hstep : (n - r.first) % r.step = 0) : Within r.ranges n := by
  unfold ranges
  split
  · exact ⟨_, mem_singleton_self _, hfirst, hlast⟩
  · have hn : r.first + (n - r.first) / r.step * r.step = n := by
      rw [Nat.div_mul_cancel (Nat.dvd_of_mod_eq_zero hstep)]
      omega
    refine ⟨_, mem_map.2 ⟨(n - r.first) / r.step, mem_range.2 ?_, rfl⟩, hn.le, hn.ge⟩
    exact Nat.lt_succ_of_le (Nat.div_le_div_right (by omega))

/-- Ranges that hold others, in one pass over both. -/
def covers : List (Nat × Nat) → List (Nat × Nat) → Bool
  | [], others => others.isEmpty
  | r :: rest, others => covers rest (others.dropWhile fun p => r.1 ≤ p.1 && p.2 ≤ r.2)

lemma within_of_covers (h : covers rs others = true) (hn : Within others n) : Within rs n := by
  obtain ⟨p, hp, hfirst, hlast⟩ := hn
  induction rs generalizing others with
  | nil => simp [isEmpty_iff.1 h] at hp
  | cons r rest ih =>
    rw [← takeWhile_append_dropWhile (l := others) (p := fun p => r.1 ≤ p.1 && p.2 ≤ r.2)] at hp
    rcases mem_append.1 hp with hp | hp
    · have hin := mem_takeWhile_imp hp
      simp only [Bool.and_eq_true, decide_eq_true_eq] at hin
      exact ⟨r, .head _, hin.1.trans hfirst, hlast.trans hin.2⟩
    · obtain ⟨q, hq, hin⟩ := ih h hp
      exact ⟨q, .tail _ hq, hin⟩

def before (p q : Nat × Nat) : Bool := p.1 ≤ p.2 && p.2 < q.1

/-- Ranges each of which stands in a relation to the next one. -/
def chained (r : Nat × Nat → Nat × Nat → Bool) : List (Nat × Nat) → Bool
  | p :: q :: rest => r p q && chained r (q :: rest)
  | _ => true

lemma pairwise_of_chained (htrans : ∀ p q t, r p q = true → r q t = true → r p t = true) :
    ∀ {rs}, chained r rs = true → rs.Pairwise (r · ·)
  | [], _ => .nil
  | [p], _ => pairwise_singleton _ p
  | p :: q :: rest, h => by
    rw [chained, Bool.and_eq_true] at h
    have hrest := pairwise_of_chained htrans h.2
    refine hrest.cons fun t ht => ?_
    rcases mem_cons.1 ht with rfl | ht
    · exact h.1
    · exact htrans _ _ _ h.1 ((pairwise_cons.1 hrest).1 t ht)

lemma not_within_of_chained (h : chained before (mergeRanges rs others) = true) (hn : Within rs n) :
    ¬ Within others n := by
  rintro ⟨q, hq, hq'⟩
  obtain ⟨p, hp, hp'⟩ := hn
  have hapart : (mergeRanges rs others).Pairwise fun p q => p.2 < q.1 ∨ q.2 < p.1 := by
    refine (pairwise_of_chained (fun p q t hpq hqt => ?_) h).imp fun hbefore => ?_
    all_goals simp only [before, Bool.and_eq_true, decide_eq_true_eq] at *
    all_goals omega
  rw [(mergeRanges_perm rs others).pairwise_iff Or.symm, pairwise_append] at hapart
  have := hapart.2.2 p hp q hq
  omega

end CharSet

namespace Text

open CharSet

variable {c d : Char} {s : List Char}

lemma toList_of_eq (h : text = String.ofList s) : text.toList = s := by
  rw [h, String.toList_ofList]

/-! ### Letters -/

def CaseRun.images (r : CaseRun) : Run := ⟨r.image, r.image + (r.last - r.first), r.step⟩

/-- The tables of letters: images are letters of lower case and characters, letters of lower case are no letters
with an image, the dotted capital I is neither, and the capital sigma and the letters up to Z have images. -/
lemma lowerRuns_known : (covers lowercase.ranges
      (unions (.range 0x3c2 0x3c2 :: lowerRuns.map fun r => ⟨r.images.ranges⟩)).ranges = true ∧
    ∀ r ∈ lowerRuns, r.images.last < 0xd800 ∨ 0xdfff < r.image ∧ r.images.last < 0x110000) ∧
    chained before (mergeRanges lowercase.ranges
      (mergeRanges [(0x130, 0x130)] (lowerRuns.flatMap fun r => r.ranges))) = true ∧
    lowerRuns.findSome? (·.map? 'Σ'.toNat) = some 0x3c3 ∧
    ∀ k < 26, lowerRuns.findSome? (·.map? (0x41 + k)) = some (0x61 + k) := by
  simp only [lowercase, categoryLl, ofLines, lowerRuns, CaseRun.ofLines, flatMap_cons, flatMap_nil]
  repeat rw [toList_of_eq rfl]
  decide +kernel

/-- The ranges of the alphabet are in order. The dotted capital I counts, and so does the letter of its lower
case, but not the dot. -/
lemma alphabetic_known : chained (·.1 ≤ ·.1) alphabetic.ranges = true ∧
    isAlphanumeric (Char.ofNat 0x307) = false ∧ isAlphanumeric 'İ' = true ∧ isAlphanumeric 'i' = true := by
  simp only [isAlphanumeric, alphabetic, cased, lowercase, uppercase, categoryLu, categoryLl, categoryLt, categoryLm,
    categoryLo, categoryNl, categoryNd, categoryNo, ofLines, flatMap_cons, flatMap_nil]
  repeat rw [toList_of_eq rfl]
  decide +kernel

/-- A letter of lower case, where the tables say so. -/
def IsLower (c : Char) : Prop := Within lowercase.ranges c.toNat

/-- A character that counts and is its own lower case. -/
structure Settled (c : Char) : Prop where
  kept : (isAlphanumeric c || isSpace c) = true
  lower : lowerChar c = [c]
  plain : c ≠ 'Σ'

lemma lowerChar_cases (c : Char) : lowerChar c = [c] ∨ c = 'İ' ∨
    ∃ n, lowerRuns.findSome? (·.map? c.toNat) = some n ∧ lowerChar c = [Char.ofNat n] := by
  unfold lowerChar
  split_ifs with hdotted hascii
  · exact .inr (.inl (Char.toNat_inj.1 hdotted))
  · by_cases hupper : c.val ≥ 'A'.val ∧ c.val ≤ 'Z'.val
    · obtain ⟨k, hk⟩ : ∃ k, c.toNat = 0x41 + k := Nat.exists_eq_add_of_le hupper.1
      have hhigh : c.toNat ≤ 0x5a := hupper.2
      have hsmall : k < 26 := by omega
      have htable : ∀ k < 26, (Char.ofNat (0x41 + k)).toLower = Char.ofNat (0x61 + k) := by decide
      have hlower := htable k hsmall
      rw [← hk, Char.ofNat_toNat] at hlower
      exact .inr (.inr ⟨_, hk ▸ lowerRuns_known.2.2.2 k hsmall, by rw [hlower]⟩)
    · exact .inl (by rw [Char.toLower, dif_neg hupper])
  · cases hmap : lowerRuns.findSome? (·.map? c.toNat) with
    | none => exact .inl rfl
    | some n => exact .inr (.inr ⟨n, rfl, rfl⟩)

lemma CaseRun.within_of_map? {r : CaseRun} (h : r.map? n = some m) : Within r.ranges n ∧
    Within r.images.ranges m ∧ r.image ≤ m ∧ m ≤ r.images.last := by
  unfold map? at h
  split_ifs at h with hin
  cases h
  refine ⟨Run.within_ranges hin.1 hin.2.1 hin.2.2, Run.within_ranges ?_ ?_ ?_, ?_, ?_⟩ <;> simp [images] <;> omega

lemma isLower_of_map (h : lowerRuns.findSome? (·.map? c.toNat) = some n) : ¬ IsLower c ∧ IsLower (Char.ofNat n) := by
  obtain ⟨r, hr, hmap⟩ := exists_of_findSome?_eq_some h
  obtain ⟨⟨p, hp, hc⟩, ⟨q, hq, hn⟩, hlow, hhigh⟩ := CaseRun.within_of_map? hmap
  constructor
  · intro hlower
    refine not_within_of_chained lowerRuns_known.2.1 hlower ⟨p, mem_mergeRanges.2 (.inr ?_), hc⟩
    exact mem_flatMap.2 ⟨r, hr, hp⟩
  · have hvalid : n.isValidChar := by
      have := lowerRuns_known.1.2 r hr
      unfold Nat.isValidChar
      omega
    have hchar : (Char.ofNat n).toNat = n := by
      rw [Char.ofNat, dif_pos hvalid]
      rfl
    rw [IsLower, hchar]
    refine within_of_covers lowerRuns_known.1.1 ⟨q, mem_unions.2 ⟨⟨r.images.ranges⟩, .tail _ ?_, hq⟩, hn⟩
    exact mem_map.2 ⟨r, hr, rfl⟩

lemma settled_of_isLower (h : IsLower c) : Settled c where
  kept := by
    have halphabetic : Within alphabetic.ranges c.toNat := by
      obtain ⟨p, hp, hn⟩ := h
      exact ⟨p, by simp [alphabetic, cased, mem_unions, hp], hn⟩
    have horder := (pairwise_of_chained (by simp; omega) alphabetic_known.1).imp of_decide_eq_true
    simp [isAlphanumeric, CharSet.contains, rangesContain_of_within horder halphabetic]
  lower := by
    rcases lowerChar_cases c with hself | rfl | ⟨n, hmap, -⟩
    · exact hself
    · exact absurd ⟨(0x130, 0x130), by simp [mem_mergeRanges], by decide, by decide⟩
        (not_within_of_chained lowerRuns_known.2.1 h)
    · exact absurd h (isLower_of_map hmap).1
  plain := by
    rintro rfl
    exact (isLower_of_map lowerRuns_known.2.2.1).1 h

lemma settled_of_mem_lowerChar (hkept : (isAlphanumeric c || isSpace c) = true) (hplain : c ≠ 'Σ')
    (hd : d ∈ lowerChar c) : Settled d ∨ c = 'İ' ∧ d = Char.ofNat 0x307 := by
  rcases lowerChar_cases c with hself | rfl | ⟨n, hmap, himage⟩
  · rw [hself, mem_singleton] at hd
    exact .inl (hd ▸ ⟨hkept, hself, hplain⟩)
  · have hi : IsLower 'i' := (isLower_of_map (c := 'I') (lowerRuns_known.2.2.2 8 (by decide))).2
    rcases mem_cons.1 hd with rfl | hd
    · exact .inl (settled_of_isLower hi)
    · exact .inr ⟨rfl, mem_singleton.1 hd⟩
  · rw [himage, mem_singleton] at hd
    exact .inl (hd ▸ settled_of_isLower (isLower_of_map hmap).2)

lemma not_settled_dotted : ¬ Settled 'İ' := fun h => absurd h.lower (by decide)

lemma not_settled_dot : ¬ Settled (Char.ofNat 0x307) := fun h => by
  have hspace : isSpace (Char.ofNat 0x307) = false := by decide
  simpa [alphabetic_known.2, hspace] using h.kept

/-! ### Texts -/

lemma settled_of_mem_lowerFrom (hkept : ∀ c ∈ s, (isAlphanumeric c || isSpace c) = true)
    {before : List Char} (hd : d ∈ lowerFrom before s) : Settled d ∨ 'İ' ∈ s ∧ d = Char.ofNat 0x307 := by
  induction s generalizing before with
  | nil => cases hd
  | cons c rest ih =>
    obtain ⟨hc, hrest⟩ := forall_mem_cons.1 hkept
    rcases mem_append.1 hd with hd | hd
    · split at hd
      · rw [mem_singleton] at hd
        refine .inl (settled_of_isLower ?_)
        split at hd
        · have hfinal : (0x3c2, 0x3c2) ∈ (range 0x3c2 0x3c2).ranges := mem_singleton_self _
          exact hd ▸ within_of_covers lowerRuns_known.1.1 ⟨_, mem_unions.2 ⟨_, .head _, hfinal⟩, by decide, by decide⟩
        · exact hd ▸ (isLower_of_map lowerRuns_known.2.2.1).2
      · next hplain =>
        rcases settled_of_mem_lowerChar hc hplain hd with hsettled | ⟨rfl, hdot⟩
        · exact .inl hsettled
        · exact .inr ⟨.head _, hdot⟩
    · exact (ih hrest hd).imp_right fun h => ⟨.tail c h.1, h.2⟩

lemma lowerFrom_of_settled (hs : ∀ c ∈ s, Settled c) (before : List Char) : lowerFrom before s = s := by
  induction s generalizing before with
  | nil => rfl
  | cons c rest ih =>
    obtain ⟨hc, hrest⟩ := forall_mem_cons.1 hs
    rw [lowerFrom, if_neg hc.plain, hc.lower, ih hrest]
    rfl

lemma dot_mem_lowerFrom (hs : 'İ' ∈ s) (before : List Char) : Char.ofNat 0x307 ∈ lowerFrom before s := by
  induction s generalizing before with
  | nil => cases hs
  | cons c rest ih =>
    rcases mem_cons.1 hs with rfl | hs
    · exact mem_append_left _ (.tail 'i' mem_cons_self)
    · exact mem_append_right _ (ih hs _)

/-- A list of words: none is empty, and there are no blanks in them. -/
def Words (ws : List (List Char)) : Prop := ∀ w ∈ ws, w ≠ [] ∧ ∀ c ∈ w, isSpace c = false

lemma words_blank (hc : isSpace c = true) (s : List Char) : words (c :: s) = words s := by
  rw [words.eq_def]
  exact if_pos hc

lemma words_cons (hc : isSpace c = false) (s : List Char) : words (c :: s) = [c] :: words s ∨
    ∃ w ws, words s = w :: ws ∧ words (c :: s) = (c :: w) :: ws := by
  rw [words.eq_def]
  dsimp only
  rw [if_neg (by simp [hc])]
  split
  · next hwords =>
    split_ifs
    · exact .inl (by rw [hwords])
    · exact .inr ⟨_, _, hwords, rfl⟩
  · exact .inl rfl

lemma words_words : ∀ s : List Char, Words (words s)
  | [] => nofun
  | c :: s => by
    have ih := words_words s
    cases hc : isSpace c with
    | true => rwa [words_blank hc]
    | false =>
      rcases words_cons hc s with hwords | ⟨w, ws, hs, hwords⟩
      · rw [hwords]
        exact forall_mem_cons.2 ⟨⟨by simp, by simpa using hc⟩, ih⟩
      · rw [hs] at ih
        rw [hwords]
        obtain ⟨hw, hws⟩ := forall_mem_cons.1 ih
        exact forall_mem_cons.2 ⟨⟨by simp, forall_mem_cons.2 ⟨hc, hw.2⟩⟩, hws⟩

lemma mem_words (hd : isSpace d = false) : ∀ s : List Char, (∃ w ∈ words s, d ∈ w) ↔ d ∈ s
  | [] => by simp [words.eq_def]
  | c :: s => by
    rw [mem_cons, ← mem_words hd s]
    cases hc : isSpace c with
    | true =>
      have hne : d ≠ c := by rintro rfl; simp [hc] at hd
      simp [words_blank hc, hne]
    | false => rcases words_cons hc s with hwords | ⟨w, ws, hs, hwords⟩ <;> simp [*, or_assoc]

lemma words_append (hw : w ≠ []) (hblank : ∀ c ∈ w, isSpace c = false) (hs : ∀ c ∈ s.head?, isSpace c = true) :
    words (w ++ s) = w :: words s := by
  induction w with
  | nil => exact absurd rfl hw
  | cons c w ih =>
    obtain ⟨hc, hblank⟩ := forall_mem_cons.1 hblank
    rw [cons_append, words.eq_def]
    dsimp only
    rw [if_neg (by simp [hc])]
    rcases w with _ | ⟨d, w⟩
    · rcases s with _ | ⟨e, s⟩
      · rfl
      · cases hwords : words (e :: s) <;> simp [hwords, hs e rfl]
    · rw [ih (cons_ne_nil d w) hblank]
      simp [(forall_mem_cons.1 hblank).1]

lemma words_intercalate : ∀ {ws}, Words ws → words ([' '].intercalate ws) = ws
  | [], _ => rfl
  | [w], h => by
    obtain ⟨hw, hblank⟩ := h w mem_cons_self
    simpa [words.eq_def []] using words_append (s := []) hw hblank nofun
  | w :: w' :: ws, h => by
    obtain ⟨⟨hw, hblank⟩, hrest⟩ := forall_mem_cons.1 h
    rw [intercalate_cons_cons, append_assoc, words_append hw hblank (by simp; decide)]
    rw [singleton_append, words_blank (by decide), words_intercalate hrest]

lemma mem_intercalate (hc : c ≠ ' ') : ∀ {ws}, c ∈ [' '].intercalate ws ↔ ∃ w ∈ ws, c ∈ w
  | [] => by simp
  | [w] => by simp
  | w :: w' :: ws => by
    rw [intercalate_cons_cons, mem_append, mem_intercalate hc]
    simp [hc]

lemma toList_normalize (text : String) : (normalize text).toList =
    [' '].intercalate (words (lower (text.toList.filter fun c => isAlphanumeric c || isSpace c))) := by
  simp [normalize, String.toList_intercalate]

lemma settled_of_mem_normalize (hc : c ∈ (normalize text).toList) :
    Settled c ∨ 'İ' ∈ text.toList ∧ c = Char.ofNat 0x307 := by
  by_cases hblank : c = ' '
  · exact .inl (hblank ▸ ⟨Bool.or_eq_true_iff.2 (.inr rfl), rfl, by decide⟩)
  rw [toList_normalize, mem_intercalate hblank] at hc
  obtain ⟨w, hw, hc⟩ := hc
  have hspace := (words_words _ w hw).2 c hc
  have hlower := (mem_words hspace _).1 ⟨w, hw, hc⟩
  refine (settled_of_mem_lowerFrom ?_ hlower).imp_right fun h => ⟨(mem_filter.1 h.1).1, h.2⟩
  exact fun c hc => (mem_filter.1 hc).2

lemma dot_mem_normalize : Char.ofNat 0x307 ∈ (normalize text).toList ↔ 'İ' ∈ text.toList := by
  constructor
  · intro h
    exact ((settled_of_mem_normalize h).resolve_left not_settled_dot).1
  · intro h
    rw [toList_normalize, mem_intercalate (by decide), mem_words (by decide)]
    refine dot_mem_lowerFrom (mem_filter.2 ⟨h, ?_⟩) []
    simp [alphabetic_known.2]

lemma normalize_of_settled (h : ∀ c ∈ (normalize text).toList, Settled c) :
    normalize (normalize text) = normalize text := by
  apply String.toList_inj.1
  rw [toList_normalize, filter_eq_self.2 fun c hc => (h c hc).kept, lower, lowerFrom_of_settled h,
    toList_normalize, words_intercalate (words_words _)]

/-- A normal form is its own normal form, and similar to just the same texts, if and only if the text had no
dotted capital I. -/
theorem normalize_normalize_iff (text : String) : (normalize (normalize text) = normalize text ↔ 'İ' ∉ text.toList) ∧
    (similar text (normalize text) = true ↔ 'İ' ∉ text.toList) ∧
    ((∀ other, similar other (normalize text) = similar other text) ↔ 'İ' ∉ text.toList) := by
  have hnormal : normalize (normalize text) = normalize text ↔ 'İ' ∉ text.toList := by
    constructor
    · intro h hdotted
      have hdot := dot_mem_normalize.2 hdotted
      rw [← h, dot_mem_normalize] at hdot
      rcases settled_of_mem_normalize hdot with hsettled | ⟨-, heq⟩
      · exact not_settled_dotted hsettled
      · exact absurd heq (by decide)
    · intro h
      exact normalize_of_settled fun c hc => (settled_of_mem_normalize hc).resolve_right fun hdot => h hdot.1
  refine ⟨hnormal, ?_, ?_⟩
  · rw [similar, beq_iff_eq, eq_comm, hnormal]
  · rw [← hnormal]
    constructor
    · intro h
      have hself := h text
      rw [similar, similar, beq_self_eq_true, beq_iff_eq] at hself
      exact hself.symm
    · intro h other
      rw [similar, similar, h]

/-- The dot is left behind by the first pass and dropped by the second. -/
theorem normalize_dotted : normalize "İ" = "i̇" ∧ normalize (normalize "İ") = "i" := by
  obtain ⟨-, hdot, hdotted, hi⟩ := alphabetic_known
  have hspace : isSpace (Char.ofNat 0x307) = false := by decide
  have htext : "i̇".toList = ['i', Char.ofNat 0x307] := toList_of_eq rfl
  have hfirst : normalize "İ" = "i̇" := by
    rw [← String.toList_inj, toList_normalize, toList_of_eq (s := ['İ']) rfl, htext]
    simp only [List.filter_cons, List.filter_nil, hdotted, Bool.true_or, if_true]
    decide +kernel
  refine ⟨hfirst, ?_⟩
  rw [hfirst, ← String.toList_inj, toList_normalize, htext, toList_of_eq (s := ['i']) rfl]
  simp only [List.filter_cons, List.filter_nil, hdot, hspace, hi, Bool.true_or, Bool.or_false, if_true]
  decide +kernel

end Text

end Workflow
