import Workflow.Proofs.Replies

/-!
One block between fences. The pieces of a text are found from the left, so a fence is found where it stands if
none is complete before its last character.
-/

namespace Workflow

open List Text Json

variable {v : Json}

namespace Text

variable {part before rest text : List Char}

lemma startsWith_iff : startsWith text start = true ↔ start <+: text := by
  refine ⟨prefix_of_startsWith, ?_⟩
  rintro ⟨tail, rfl⟩
  induction start with
  | nil => cases tail <;> rfl
  | cons d start ih => simp [startsWith, ih]

lemma pieces_of_not_infix (h : ¬ part <:+: text) : pieces part text = [text] := by
  induction text with
  | nil => rfl
  | cons c text ih =>
    have hstart : startsWith (c :: text) part = false := by
      rw [← Bool.not_eq_true, startsWith_iff]
      exact fun hpre => h hpre.isInfix
    have hrest := ih fun hin => h (hin.trans (suffix_cons c text).isInfix)
    rw [pieces] at hrest ⊢
    simp [piecesFrom, hstart, hrest, consFirst]

lemma piecesFrom_append (part passed rest : List Char) :
    piecesFrom part passed.length (passed ++ rest) = pieces part rest := by
  induction passed with
  | nil => rfl
  | cons c passed ih =>
    rw [length_cons, cons_append, piecesFrom]
    exact ih

lemma pieces_append (hpart : part ≠ []) (h : ¬ part <:+: before ++ part.dropLast) (rest : List Char) :
    pieces part (before ++ part ++ rest) = before :: pieces part rest := by
  induction before with
  | nil =>
    obtain ⟨c, tail, rfl⟩ := exists_cons_of_ne_nil hpart
    have hstart : startsWith (c :: (tail ++ rest)) (c :: tail) = true := startsWith_iff.2 ⟨rest, rfl⟩
    rw [nil_append, cons_append, pieces, piecesFrom, if_pos hstart, length_cons, Nat.add_sub_cancel, piecesFrom_append]
  | cons c before ih =>
    have hstart : startsWith (c :: (before ++ part ++ rest)) part = false := by
      rw [← Bool.not_eq_true, startsWith_iff]
      intro hpre
      have hshort : c :: (before ++ part.dropLast) <+: c :: (before ++ part ++ rest) := by
        refine (prefix_cons_inj c).2 (List.IsPrefix.trans ?_ (prefix_append _ rest))
        exact (prefix_append_right_inj before).2 ( dropLast_prefix part)
      have hlength : part.length ≤ (c :: (before ++ part.dropLast)).length := by
        rw [length_cons, length_append, length_dropLast]
        omega
      exact h (prefix_of_prefix_length_le hpre hshort hlength).isInfix
    have hrest := ih fun hin => h (hin.trans (suffix_cons c _).isInfix)
    rw [pieces] at hrest ⊢
    simp only [cons_append, piecesFrom, hstart, hrest, consFirst, Bool.false_eq_true, if_false]

lemma infix_of_append_cons (hc : c ∉ part) : ∀ {left}, part <:+: left ++ c :: right → part <:+: left ∨ part <:+: right
  | [], h => by
    rcases infix_cons_iff.1 h with hpre | hin
    · rcases prefix_cons_iff.1 hpre with rfl | ⟨t, rfl, -⟩
      · exact .inl nil_infix
      · exact absurd mem_cons_self hc
    · exact .inr hin
  | d :: left, h => by
    rcases infix_cons_iff.1 h with hpre | hin
    · have hleft : d :: left <+: d :: (left ++ c :: right) := prefix_append (d :: left) (c :: right)
      have hbehind : d :: left ++ [c] <+: d :: (left ++ c :: right) := ⟨right, by simp⟩
      rcases Nat.lt_or_ge (d :: left).length part.length with hlong | hshort
      · have hcovers : d :: left ++ [c] <+: part :=
          prefix_of_prefix_length_le hbehind hpre (by simpa [Nat.succ_le_iff] using hlong)
        exact absurd (hcovers.subset (by simp)) hc
      · exact .inl (prefix_of_prefix_length_le hpre hleft hshort).isInfix
    · rcases infix_of_append_cons hc hin with hleft | hright
      · exact .inl (hleft.trans (suffix_cons d left).isInfix)
      · exact .inr hright

end Text

namespace Json

lemma readChars_append (h : readChars s = .ok v) (hb : ∀ c ∈ b, isBlank c = true) : readChars (s ++ b) = .ok v := by
  obtain ⟨r, hread, hr⟩ := readChars_eq_ok.1 h
  have hagrees := stops_value maxDepth s b fun c hc => isSpace_of_isBlank (hb c hc)
  rw [hread] at hagrees
  generalize hx : value maxDepth (s ++ b) = x at hagrees
  cases hagrees
  refine readChars_eq_ok.2 ⟨r ++ b, hx, ?_⟩
  rw [skipBlanks, dropWhile_eq_nil_iff] at hr ⊢
  exact forall_mem_append.2 ⟨hr, hb⟩

end Json

namespace Reply

variable {before info body : List Char}

lemma fence_eq : fence = List.replicate 3 (Char.ofNat 0x60) := rfl

lemma eq_of_suffix_concat (h : [c] <:+ text ++ [d]) : c = d := by
  obtain ⟨t, ht⟩ := h
  simpa using (append_inj' ht rfl).2

lemma not_infix_append (h : ¬ fence <:+: before) (hlast : ¬ [Char.ofNat 0x60] <:+ before) :
    ¬ fence <:+: before ++ fence.dropLast := by
  rcases eq_nil_or_concat' before with rfl | ⟨front, c, rfl⟩
  · exact fun hin => absurd hin.length_le (by decide)
  · have hc : c ∉ fence := by
      intro hmem
      rw [fence_eq] at hmem
      rw [eq_of_mem_replicate hmem] at hlast
      exact hlast (suffix_append _ _)
    intro hin
    rw [append_assoc] at hin
    rcases infix_of_append_cons hc hin with hfront | hticks
    · exact h (hfront.trans (prefix_append _ _).isInfix)
    · exact absurd hticks.length_le (by decide)

lemma exists_ticks (before : List Char) : ∃ front n,
    before = front ++ List.replicate n (Char.ofNat 0x60) ∧ ¬ [Char.ofNat 0x60] <:+ front := by
  induction before using List.reverseRecOn with
  | nil => exact ⟨[], 0, rfl, by simp⟩
  | append_singleton before c ih =>
    by_cases hc : c = Char.ofNat 0x60
    · obtain ⟨front, n, rfl, hfront⟩ := ih
      exact ⟨front, n + 1, by rw [hc, replicate_succ', append_assoc], hfront⟩
    · exact ⟨before ++ [c], 0, by simp, fun hsuffix => hc (eq_of_suffix_concat hsuffix).symm⟩

lemma dropInfo_line (hinfo : ∀ c ∈ info, c ≠ '\n' ∧ opens c = false) (body : List Char) :
    dropInfo (info ++ '\n' :: body) = body := by
  have hline : ∀ c ∈ info, decide (c ≠ '\n') = true := fun c hc => decide_eq_true (hinfo c hc).1
  have hopens : info.any opens = false := by
    rw [any_eq_false]
    intro c hc
    simp [(hinfo c hc).2]
  rw [dropInfo, dropWhile_append_of_pos hline, takeWhile_append_of_pos hline]
  simp [hopens]

lemma not_infix_ticks (hbefore : ¬ fence <:+: before ++ List.replicate n (Char.ofNat 0x60))
    (hinfo : Char.ofNat 0x60 ∉ info) : ¬ fence <:+: List.replicate n (Char.ofNat 0x60) ++ info := by
  have hfew : n < 3 := by
    by_contra hmany
    have hticks : fence <:+ List.replicate n (Char.ofNat 0x60) := by
      rw [fence_eq, ← Nat.sub_add_cancel (Nat.le_of_not_lt hmany), ← replicate_append_replicate]
      exact suffix_append _ _
    exact hbefore (hticks.trans (suffix_append before _)).isInfix
  intro hin
  have hcount := hin.count_le (Char.ofNat 0x60)
  rw [fence_eq, count_append, count_replicate_self, count_replicate_self, count_eq_zero.2 hinfo] at hcount
  omega

lemma not_infix_block (hline : ¬ fence <:+: line) (hbody : ¬ fence <:+: body) :
    ¬ fence <:+: line ++ '\n' :: (body ++ ['\n']) ++ fence.dropLast := by
  have hbreak : '\n' ∉ fence := by decide
  refine not_infix_append (fun hin => ?_) (fun hsuffix => ?_)
  · rcases infix_of_append_cons hbreak hin with h | h
    · exact hline h
    · rcases infix_of_append_cons hbreak h with h | h
      · exact hbody h
      · exact absurd (infix_nil.1 h) (by decide)
  · rw [← cons_append, ← append_assoc] at hsuffix
    exact absurd (eq_of_suffix_concat hsuffix) (by decide)

lemma blocks_one {after : List Char} (hbefore : ¬ fence <:+: before)
    (hinfo : ∀ c ∈ info, c ≠ '\n' ∧ c ≠ Char.ofNat 0x60 ∧ opens c = false) (hbody : ¬ fence <:+: body)
    (hafter : ¬ fence <:+: after) :
    blocks (before ++ fence ++ (info ++ '\n' :: (body ++ '\n' :: (fence ++ after)))) = [body ++ ['\n']] := by
  obtain ⟨front, n, rfl, hfront⟩ := exists_ticks before
  -- the backticks in front of the opening fence can as well stand behind it
  let line := List.replicate n (Char.ofNat 0x60) ++ info
  have hmoved : front ++ List.replicate n (Char.ofNat 0x60) ++ fence
      ++ (info ++ '\n' :: (body ++ '\n' :: (fence ++ after)))
      = front ++ fence ++ ((line ++ '\n' :: (body ++ ['\n'])) ++ fence ++ after) := by
    have hswap : List.replicate n (Char.ofNat 0x60) ++ fence = fence ++ List.replicate n (Char.ofNat 0x60) := by
      rw [fence_eq, replicate_append_replicate, replicate_append_replicate, Nat.add_comm]
    rw [append_assoc front, hswap]
    simp [line]
  have hpieces : pieces fence (front ++ fence ++ ((line ++ '\n' :: (body ++ ['\n'])) ++ fence ++ after)) =
      [front, line ++ '\n' :: (body ++ ['\n']), after] := by
    have hnonempty : fence ≠ [] := by decide
    have hopen := not_infix_append (fun h => hbefore (h.trans (prefix_append front _).isInfix)) hfront
    have hline := not_infix_ticks hbefore fun hmem => (hinfo _ hmem).2.1 rfl
    rw [pieces_append hnonempty hopen, pieces_append hnonempty (not_infix_block hline hbody),
      pieces_of_not_infix hafter]
  have hdropped : dropInfo (line ++ '\n' :: (body ++ ['\n'])) = body ++ ['\n'] := by
    refine dropInfo_line (fun c hc => ?_) _
    rcases mem_append.1 hc with hc | hc
    · rw [eq_of_mem_replicate hc]
      decide
    · exact ⟨(hinfo c hc).1, (hinfo c hc).2.2⟩
  rw [blocks, hmoved, hpieces]
  simp [bodies, hdropped]

/-- A reply with JSON in one fenced block is read as that JSON, whatever stands around the block. -/
theorem extract_fenced {before info body after : String} {v : Json} (hbefore : ¬ fence <:+: before.toList)
    (hinfo : ∀ c ∈ info.toList, c ≠ '\n' ∧ c ≠ Char.ofNat 0x60 ∧ opens c = false)
    (hbody : ¬ fence <:+: body.toList) (hread : read body = .ok v) (hafter : ¬ fence <:+: after.toList) :
    extract (before ++ "```" ++ info ++ "\n" ++ body ++ "\n```" ++ after) = .ok v := by
  have htext : (before ++ "```" ++ info ++ "\n" ++ body ++ "\n```" ++ after).toList = before.toList ++ fence
      ++ (info.toList ++ '\n' :: (body.toList ++ '\n' :: (fence ++ after.toList))) := by
    have hopening : "```".toList = fence := rfl
    have hclosing : "\n```".toList = '\n' :: fence := rfl
    have hnewline : "\n".toList = ['\n'] := rfl
    simp [String.toList_append, hopening, hclosing, hnewline]
  have hchosen : candidate (before ++ "```" ++ info ++ "\n" ++ body ++ "\n```" ++ after).toList =
      .ok (trim (body.toList ++ ['\n'])) := by
    rw [candidate, htext, blocks_one hbefore hinfo hbody hafter]
  have hvalue : read (String.ofList (trim (body.toList ++ ['\n']))) = .ok v := by
    rw [read_eq_ok, String.toList_ofList]
    exact Json.readChars_trim (Json.readChars_append (Json.read_eq_ok.1 hread) (by simp [Json.isBlank]))
  unfold extract
  rw [hchosen]
  dsimp only [bind, Except.bind]
  rw [hvalue]

/-- Brackets and backticks stand in the prose, some of them right before the opening fence. -/
theorem extract_fenced_prose : read "\x7b\"code\": \"a``b\"\x7d" = .ok (.obj [("code", .str "a``b")]) ∧
    extract ("Not \x7b1], but `[`: ``" ++ "```" ++ "json" ++ "\n" ++ "\x7b\"code\": \"a``b\"\x7d" ++ "\n```"
      ++ "` and no \x7d]") = .ok (.obj [("code", .str "a``b")]) := by
  have hread : read "\x7b\"code\": \"a``b\"\x7d" = .ok (.obj [("code", .str "a``b")]) := by cbv
  exact ⟨hread, extract_fenced (by decide +kernel) (by simp [opens]) (by decide +kernel) hread (by decide +kernel)⟩

end Reply

end Workflow
