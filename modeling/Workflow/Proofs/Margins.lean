import Mathlib.Data.List.Forall2
import Mathlib.Data.List.TakeWhile
import Workflow.Program.OfTree
import Workflow.Proofs.Offside
import Workflow.Proofs.Breaks

/-!
Margins of texts in triple quotes. A margin is counted in bytes, and every line loses as many: white space, if a
character starts behind them, and all that it has if none does.

Main statement: the lines of a text that are not blank are kept, in order and without their common margin, if
and only if the margin ends inside a character of none of them.
-/

namespace Workflow

open List

namespace Text

/-! ### Lines -/

/-- A text without the carriage returns at its end. -/
abbrev bare (line : List Char) : List Char := trimEnd (· = '\r') line

/-- The lines of a text that are not blank, without the carriage returns at their ends. -/
def contentLines (text : List Char) : List (List Char) := ((splitFeeds text).map bare).filter fun l => !isBlank l

lemma trimEnd_append (s : List Char) (h : ∃ c ∈ t, test c = false) : trimEnd test (s ++ t) = s ++ trimEnd test t := by
  obtain ⟨c, hc, htest⟩ := h
  have hrest : t.reverse.dropWhile test ≠ [] := by
    intro hnil
    have := dropWhile_eq_nil_iff.1 hnil c (mem_reverse.2 hc)
    rw [htest] at this
    cases this
  rw [trimEnd, reverse_append, dropWhile_append, if_neg (by simpa using hrest), reverse_append, reverse_reverse,
    trimEnd]

lemma bare_append_return (line : List Char) : bare (line ++ ['\r']) = bare line := by
  simp [trimEnd]

lemma exists_returns (line : List Char) : ∃ back, line = bare line ++ back ∧ ∀ c ∈ back, c = '\r' := by
  refine ⟨(line.reverse.takeWhile (· = '\r')).reverse, ?_, fun c hc => ?_⟩
  · rw [bare, trimEnd, ← reverse_append, takeWhile_append_dropWhile, reverse_reverse]
  · simpa using mem_takeWhile_imp (mem_reverse.1 hc)

lemma bare_dropReturn (line : List Char) : bare (dropReturn line) = bare line := by
  unfold dropReturn
  split
  · next h =>
    obtain ⟨front, rfl⟩ := getLast?_eq_some_iff.1 h
    rw [dropLast_concat, bare_append_return]
  · rfl

lemma feed_mem_bare : '\n' ∈ bare line ↔ '\n' ∈ line := by
  obtain ⟨back, hline, hback⟩ := exists_returns line
  conv_rhs => rw [hline, mem_append]
  exact ⟨.inl, fun h => h.resolve_right fun hmem => absurd (hback _ hmem) (by decide)⟩

lemma isBlank_bare (line : List Char) : isBlank (bare line) = isBlank line := by
  obtain ⟨back, hline, hback⟩ := exists_returns line
  have hspace : back.all isSpace = true := all_eq_true.2 fun c hc => hback c hc ▸ rfl
  conv_rhs => rw [hline]
  rw [isBlank, isBlank, all_append, hspace, Bool.and_true]

lemma isBlank_eq_false_iff : isBlank line = false ↔ ∃ c ∈ line, isSpace c = false := by
  simp [isBlank, all_eq_false]

lemma splitFeeds_ne_nil (text : List Char) : splitFeeds text ≠ [] := by
  intro h
  have := length_splitFeeds text
  rw [h] at this
  simp at this

lemma feed_not_mem_of_splitFeeds {text : List Char} : ∀ line ∈ splitFeeds text, '\n' ∉ line := by
  fun_induction splitFeeds text with
  | case1 => simp
  | case2 rest ih => simpa using ih
  | case3 c rest hc hnil ih => simpa using Ne.symm hc
  | case4 c rest hc line lines hsplit ih =>
    rw [hsplit, forall_mem_cons] at ih
    exact forall_mem_cons.2 ⟨fun h => (mem_cons.1 h).elim (fun h => hc h.symm) ih.1, ih.2⟩

lemma splitFeeds_of_not_mem (h : '\n' ∉ line) : splitFeeds line = [line] := by
  induction line with
  | nil => rfl
  | cons c line ih =>
    rw [mem_cons, not_or] at h
    exact splitFeeds_cons_of_ne (Ne.symm h.1) (ih h.2)

lemma splitFeeds_intercalate {lines : List (List Char)} (hne : lines ≠ []) (h : ∀ l ∈ lines, '\n' ∉ l) :
    splitFeeds (['\n'].intercalate lines) = lines := by
  induction lines with
  | nil => exact absurd rfl hne
  | cons line lines ih =>
    rw [forall_mem_cons] at h
    cases lines with
    | nil => simpa [intercalate] using splitFeeds_of_not_mem h.1
    | cons next lines =>
      rw [intercalate_cons_cons, append_assoc, singleton_append, splitFeeds_append_feed h.1, ih (cons_ne_nil _ _) h.2]

lemma getLast?_splitFeeds {text : List Char} :
    (splitFeeds text).getLast? = some [] ↔ text.getLast? = some '\n' ∨ text = [] := by
  fun_induction splitFeeds text with
  | case1 => simp
  | case2 rest ih =>
    obtain ⟨line, lines, hsplit⟩ := exists_cons_of_ne_nil (splitFeeds_ne_nil rest)
    rw [hsplit, getLast?_cons_cons, ← hsplit, ih]
    cases rest <;> simp [getLast?_cons_cons]
  | case3 c rest hc hnil ih => exact absurd hnil (splitFeeds_ne_nil rest)
  | case4 c rest hc line lines hsplit ih =>
    have hcount := length_splitFeeds rest
    rw [hsplit] at ih hcount
    cases lines with
    | nil =>
      have hfeed : '\n' ∉ rest := count_eq_zero.1 (by simpa using hcount.symm)
      constructor
      · simp
      · rintro (hlast | hnil)
        · rcases mem_cons.1 (mem_of_getLast? hlast) with heq | hmem
          · exact absurd heq.symm hc
          · exact absurd hmem hfeed
        · cases hnil
    | cons next lines =>
      cases rest with
      | nil => cases hsplit
      | cons d rest =>
      rw [getLast?_cons_cons] at ih ⊢
      rw [ih, getLast?_cons_cons]
      simp

end Text

namespace Quoted

open Text


lemma bare_blockLines (h : body ≠ []) : (blockLines body).map bare = (splitFeeds body).map bare := by
  obtain ⟨front, last, hpieces⟩ := eq_nil_or_concat (splitFeeds body) |>.resolve_left (splitFeeds_ne_nil body)
  have hlast : last = [] ↔ body.getLast? = some '\n' := by
    have := @getLast?_splitFeeds body
    simpa [hpieces, h] using this
  by_cases hnil : last = []
  · subst hnil
    have hbreak := hlast.1 rfl
    have hfront : front ≠ [] := by
      rintro rfl
      have hcount := length_splitFeeds body
      rw [hpieces] at hcount
      exact absurd (mem_of_getLast? hbreak) (count_eq_zero.1 (by simpa using hcount.symm))
    obtain ⟨others, line, rfl⟩ := (eq_nil_or_concat front).resolve_left hfront
    simp [blockLines, Text.lines, hpieces, hbreak, bare_dropReturn]
  · simp [blockLines, Text.lines, hpieces, hnil, mt hlast.2 hnil, bare_dropReturn]

lemma filter_dropBlankEnd (lines : List (List Char)) :
    (dropBlankEnd lines).filter (fun l => !isBlank l) = lines.filter fun l => !isBlank l := by
  unfold dropBlankEnd
  split
  · next last hlast =>
    obtain ⟨front, rfl⟩ := getLast?_eq_some_iff.1 hlast
    split
    · next hblank => simp [hblank]
    · rfl
  · rfl

lemma contentLines_dropBreak (body : List Char) : contentLines (dropBreak body) = contentLines body := by
  unfold dropBreak
  split
  · next rest =>
    have hsplit : splitFeeds ('\r' :: '\n' :: rest) = ['\r'] :: splitFeeds rest := rfl
    simp [contentLines, hsplit, trimEnd, isBlank]
  · next rest =>
    have hsplit : splitFeeds ('\n' :: rest) = [] :: splitFeeds rest := rfl
    simp [contentLines, hsplit, trimEnd, isBlank]
  · rfl

lemma contentLines_eq (body : List Char) :
    ((dropBlankEnd (blockLines body)).filter fun l => !isBlank l).map bare = contentLines body := by
  have hcomp : (fun l => !isBlank l) = (fun l => !isBlank l) ∘ bare := funext fun l => by simp [isBlank_bare]
  rw [filter_dropBlankEnd, contentLines]
  rcases eq_or_ne body [] with rfl | hne
  · rfl
  · rw [← bare_blockLines hne, filter_map, ← hcomp]

/-! ### Margins -/

lemma prefix_of_byteLength_le {s t text : List Char} (hs : s <+: text) (ht : t <+: text)
    (hle : byteLength s ≤ byteLength t) : s <+: t := by
  rcases prefix_or_prefix_of_prefix hs ht with h | ⟨rest, rfl⟩
  · exact h
  · cases rest with
    | nil => rw [append_nil]
    | cons c rest =>
      have hpos := c.utf8Size_pos
      rw [byteLength_append, byteLength_cons] at hle
      omega

lemma margin_bare (h : isBlank line = false) : margin (bare line) = margin line := by
  obtain ⟨back, hline, -⟩ := exists_returns line
  obtain ⟨c, hc, hspace⟩ := isBlank_eq_false_iff.1 (isBlank_bare line ▸ h)
  have hshort : ((bare line).takeWhile isSpace).length ≠ (bare line).length := by
    intro hall
    have heq := ( takeWhile_prefix isSpace).eq_of_length hall
    have := mem_takeWhile_imp (heq.symm ▸ hc)
    rw [hspace] at this
    cases this
  conv_rhs => rw [hline]
  rw [margin, margin, takeWhile_append, if_neg hshort]

/-- A character of a line starts, or the line ends, behind so many bytes. -/
def BorderAt (width : Nat) (line : List Char) : Prop := ∃ front, front <+: line ∧ byteLength front = width

/-- A line loses a margin of so many bytes: white space, and nothing else. -/
def Outdents (width : Nat) (line rest : List Char) : Prop :=
  ∃ front, line = front ++ rest ∧ (∀ c ∈ front, isSpace c = true) ∧ byteLength front = width

lemma Outdents.borderAt (h : Outdents width line rest) : BorderAt width line := by
  obtain ⟨front, rfl, -, hwidth⟩ := h
  exact ⟨front, prefix_append .., hwidth⟩

lemma borderAt_of_bare (h : BorderAt width (bare line)) : BorderAt width line := by
  obtain ⟨front, hfront, hwidth⟩ := h
  obtain ⟨back, hline, -⟩ := exists_returns line
  exact ⟨front, hfront.trans ⟨back, hline.symm⟩, hwidth⟩

lemma outdents_cutMargin (hline : isBlank line = false) (hwidth : width ≤ margin line) :
    Outdents width (bare line) (cutMargin width line) ∨ cutMargin width line = [] ∧ ¬BorderAt width (bare line) := by
  obtain ⟨c, hc, hspace⟩ := isBlank_eq_false_iff.1 hline
  unfold cutMargin
  cases hdrop : dropBytes width line with
  | none =>
    refine .inr ⟨rfl, fun hborder => ?_⟩
    obtain ⟨front, ⟨rest, hrest⟩, hfront⟩ := borderAt_of_bare hborder
    rw [dropBytes_eq_some_iff.2 ⟨front, hrest.symm, hfront⟩] at hdrop
    cases hdrop
  | some rest =>
    obtain ⟨front, rfl, rfl⟩ := dropBytes_eq_some_iff.1 hdrop
    have hfront : front <+: (front ++ rest).takeWhile isSpace :=
      prefix_of_byteLength_le (prefix_append ..) ( takeWhile_prefix _) hwidth
    have hblank : ∀ d ∈ front, isSpace d = true := fun d hd => mem_takeWhile_imp (hfront.subset hd)
    have hrest : c ∈ rest := by
      refine (mem_append.1 hc).resolve_left fun hmem => ?_
      rw [hblank c hmem] at hspace
      cases hspace
    have hreturn : decide (c = '\r') = false := by
      refine decide_eq_false ?_
      rintro rfl
      cases hspace
    exact .inl ⟨front, trimEnd_append front ⟨c, hrest, hreturn⟩, hblank, rfl⟩

lemma commonMargin_le {lines : List (List Char)} (hmem : line ∈ lines) (hline : isBlank line = false) :
    commonMargin lines ≤ margin line :=
  min?_getD_le_of_mem (mem_map_of_mem (mem_filter.2 ⟨hmem, by simp [hline]⟩))

/-- The margin that lines have in common depends on those that are not blank, and not on the carriage returns at
their ends. -/
lemma commonMargin_bare (lines : List (List Char)) :
    commonMargin ((lines.filter fun l => !isBlank l).map bare) = commonMargin lines := by
  have hcomp : (fun l => !isBlank l) ∘ bare = fun l => !isBlank l := funext fun l => by simp [isBlank_bare]
  have hmargin : ∀ l ∈ lines.filter fun l => !isBlank l, (margin ∘ bare) l = margin l :=
    fun l hl => margin_bare (by simpa using (mem_filter.1 hl).2)
  rw [commonMargin, filter_map, map_map, hcomp, filter_filter, commonMargin]
  simp only [Bool.and_self]
  rw [map_congr_left hmargin]

/-! ### Blocks -/

lemma dropBlankEnd_sublist (lines : List (List Char)) : dropBlankEnd lines <+ lines := by
  unfold dropBlankEnd
  split
  · split
    · exact dropLast_sublist lines
    · exact .refl lines
  · exact .refl lines

lemma feed_not_mem_blockLines : ∀ line ∈ blockLines body, '\n' ∉ line := by
  intro line hline hfeed
  rcases eq_or_ne body [] with rfl | hne
  · cases hline
  · have hmem := mem_map_of_mem (f := bare) hline
    rw [bare_blockLines hne] at hmem
    obtain ⟨piece, hpiece, heq⟩ := mem_map.1 hmem
    exact feed_not_mem_of_splitFeeds piece hpiece (feed_mem_bare.1 (heq ▸ feed_mem_bare.2 hfeed))

lemma feed_not_mem_cutMargin (width : Nat) (h : '\n' ∉ line) : '\n' ∉ cutMargin width line := by
  unfold cutMargin
  rw [feed_mem_bare]
  cases hdrop : dropBytes width line with
  | none => simp
  | some rest =>
    obtain ⟨front, rfl, -⟩ := dropBytes_eq_some_iff.1 hdrop
    exact fun hmem => h (mem_append_right front hmem)

def bodyLines (body : List Char) : List (List Char) := dropBlankEnd (blockLines (dropBreak body))

def bodyMargin (body : List Char) : Nat := commonMargin (contentLines body)

lemma contentLines_eq_map (body : List Char) :
    contentLines body = ((bodyLines body).filter fun l => !isBlank l).map bare := by
  rw [bodyLines, contentLines_eq, contentLines_dropBreak]

lemma splitFeeds_block {raw : String} (hraw : raw.toList = ['"', '"', '"'] ++ (body ++ ['"', '"', '"']))
    (hne : bodyLines body ≠ []) :
    splitFeeds (block raw).toList = (bodyLines body).map (cutMargin (commonMargin (bodyLines body))) := by
  have hblock : (block raw).toList =
      ['\n'].intercalate ((bodyLines body).map (cutMargin (commonMargin (bodyLines body)))) := by
    rw [block, hraw, strip_append_append, Option.getD_some, String.toList_intercalate, map_map]
    simp [bodyLines]
  rw [hblock]
  refine splitFeeds_intercalate (by simpa using hne) (forall_mem_map.2 fun line hline => ?_)
  exact feed_not_mem_cutMargin _ (feed_not_mem_blockLines line ((dropBlankEnd_sublist _).subset hline))

/-- Each line of a body that is not blank has its line in the block, without the common margin, or is lost if
the margin ends inside one of its characters. -/
lemma exists_outdents {raw : String} (hraw : raw.toList = ['"', '"', '"'] ++ (body ++ ['"', '"', '"'])) :
    ∃ kept, kept <+ splitFeeds (block raw).toList ∧ Forall₂ (fun line rest => Outdents (bodyMargin body) line rest ∨
        rest = [] ∧ ¬BorderAt (bodyMargin body) line) (contentLines body) kept := by
  refine ⟨((bodyLines body).filter fun l => !isBlank l).map (cutMargin (commonMargin (bodyLines body))), ?_, ?_⟩
  · rcases eq_or_ne (bodyLines body) [] with hnil | hne
    · rw [hnil]
      exact nil_sublist _
    · rw [splitFeeds_block hraw hne]
      exact filter_sublist.map _
  · rw [bodyMargin, contentLines_eq_map, commonMargin_bare, forall₂_map_left_iff, forall₂_map_right_iff, forall₂_same]
    intro line hline
    obtain ⟨hmem, hblank⟩ := mem_filter.1 hline
    have hblank : isBlank line = false := by simpa using hblank
    exact outdents_cutMargin hblank (commonMargin_le hmem hblank)

end Quoted

/-! ### Tokens in triple quotes -/

namespace Quoted

open Text

/-- A text in triple quotes keeps each line of its body that is not blank, in order and without the white space
of the common margin, if and only if in each of them a character starts behind that margin. -/
theorem block_outdents {source : String} {t : Token} (ht : .ok t ∈ Token.scan source) (hkind : t.kind = .tripleString) :
    ∃ body kept, t.text.toList = ['"', '"', '"'] ++ (body ++ ['"', '"', '"']) ∧
      kept <+ splitFeeds t.quotedText.toList ∧
      Forall₂ (fun line rest => Outdents (bodyMargin body) line rest ∨
        rest = [] ∧ ¬BorderAt (bodyMargin body) line) (contentLines body) kept ∧
      (Forall₂ (Outdents (bodyMargin body)) (contentLines body) kept ↔
        ∀ line ∈ contentLines body, BorderAt (bodyMargin body) line) := by
  obtain ⟨body, hbody⟩ : ∃ body, t.text.toList = ['"', '"', '"'] ++ (body ++ ['"', '"', '"']) := by
    have hmem := Token.mem_pattern_of_scan ht
    rw [hkind] at hmem
    obtain ⟨_, hrest, htext⟩ := Lexer.mem_sign_mul.1 hmem
    obtain ⟨body, -, _, rfl, rfl⟩ := Language.mem_mul.1 hrest
    exact ⟨body, htext⟩
  obtain ⟨kept, hkept, hlines⟩ := exists_outdents hbody
  have hquoted : t.quotedText = block t.text := by rw [Token.quotedText, hkind]
  refine ⟨body, kept, hbody, hquoted ▸ hkept, hlines, fun hclean => ?_, fun hborder => ?_⟩
  · exact (forall₂_and_left _ _).1 (hclean.imp fun _ _ h => ⟨h.borderAt, h⟩) |>.1
  · refine ((forall₂_and_left _ _).2 ⟨hborder, hlines⟩).imp fun line rest h => ?_
    exact h.2.resolve_right fun hlost => hlost.2 h.1

/-- Blanks and tabs make up the margins, and carriage returns stand at some ends of lines. -/
theorem block_outdents_mixed : ∃ t kept, .ok t ∈ Token.scan "\"\"\"\r\n\t one\r\n\n  \u00e9\n  \"\"\"" ∧
    t.kind = .tripleString ∧ kept <+ splitFeeds t.quotedText.toList ∧
    Forall₂ (Outdents 2) ["\t one".toList, "  \u00e9".toList] kept := by
  have hscan : Token.scan "\"\"\"\r\n\t one\r\n\n  \u00e9\n  \"\"\"" = [.ok ⟨.tripleString, ⟨0, 23, 1, 1⟩,
      "\"\"\"\r\n\t one\r\n\n  \u00e9\n  \"\"\""⟩] := by decide +kernel
  have hmem := hscan ▸ mem_singleton_self _
  obtain ⟨body, kept, hbody, hkept, -, hclean⟩ := block_outdents hmem rfl
  obtain rfl : body = "\r\n\t one\r\n\n  \u00e9\n  ".toList := append_cancel_right (append_cancel_left hbody.symm)
  refine ⟨_, kept, hmem, rfl, hkept, hclean.2 (forall_mem_cons.2 ⟨?_, forall_mem_singleton.2 ?_⟩)⟩
  · exact ⟨"\t ".toList, by decide, rfl⟩
  · exact ⟨"  ".toList, by decide, rfl⟩

/-- The margin of one blank ends inside the wide blank of the second line, so that its text is lost. -/
theorem block_loses : ∃ t, Token.scan "\"\"\"\n a\n\u3000b\n\"\"\"" = [.ok t] ∧ t.kind = .tripleString ∧
    t.quotedText = "a\n" ∧ ∀ width kept, kept <+ splitFeeds t.quotedText.toList →
      ¬Forall₂ (Outdents width) [" a".toList, "\u3000b".toList] kept := by
  refine ⟨⟨.tripleString, ⟨0, 15, 1, 1⟩, "\"\"\"\n a\n\u3000b\n\"\"\""⟩, by decide +kernel, rfl,
    by decide +kernel, fun width kept hkept hclean => ?_⟩
  have hlines : splitFeeds (block "\"\"\"\n a\n\u3000b\n\"\"\"").toList = [['a'], []] := by decide +kernel
  have hlength : kept.length = 2 := hclean.length_eq.symm
  obtain rfl : kept = [['a'], []] := (hkept.eq_of_length (hlength.trans (congrArg length hlines).symm)).trans hlines
  cases hclean with
  | cons _ hrest =>
    cases hrest with
    | cons hlost _ =>
      obtain ⟨front, hfront, hblank, -⟩ := hlost
      exact absurd (hblank 'b' (by rw [append_nil] at hfront; simp [← hfront])) (by decide)

end Quoted

end Workflow
