import Mathlib.Computability.Language
import Workflow.Token.Lexer

/-!
How a source is cut into tokens. The text of every kind of token is a regular language. A token is the longest
stretch at its place that is in one of these languages, and between tokens and errors there are only blanks and
comments.
-/

namespace Workflow

open List Computability Language

variable {c : Char} {q rest behind : List Char} {kind : TokenKind} {test : Char → Bool}

/-! ### Patterns -/

namespace Lexer

def oneOf (test : Char → Bool) : Language Char := {s | ∃ c, test c = true ∧ s = [c]}

def sign (text : List Char) : Language Char := {text}

def nameText : Language Char := oneOf isNameStart * (oneOf isNamePart)∗

def digits : Language Char := oneOf Char.isDigit * (oneOf Char.isDigit)∗

/-- A character of a string, or one behind a backslash. -/
def stringItem : Language Char :=
  oneOf (fun c => c ≠ '"' ∧ c ≠ '\\' ∧ c ≠ '\n') + sign ['\\'] * oneOf (· ≠ '\n')

/-- A character that is no quote, behind two quotes at most. -/
def tripleItem : Language Char :=
  oneOf (· ≠ '"') + sign ['"'] * oneOf (· ≠ '"') + sign ['"', '"'] * oneOf (· ≠ '"')

/-- Blanks, or a comment. -/
def skipped : Language Char := oneOf isBlank * (oneOf isBlank)∗ + sign ['#'] * (oneOf (· ≠ '\n'))∗

end Lexer

open Lexer

/-- The texts of the tokens of a kind. Layout tokens have none. -/
def TokenKind.pattern : TokenKind → Language Char
  | ident => nameText
  | var => sign ['$'] * nameText
  | string => sign ['"'] * (stringItem∗ * sign ['"'])
  | tripleString => sign ['"', '"', '"'] * (tripleItem∗ * sign ['"', '"', '"'])
  | int => digits
  | float => digits * (sign ['.'] * digits)
  | arrow => sign ['-', '>']
  | eq => sign ['=']
  | eqEq => sign ['=', '=']
  | notEq => sign ['!', '=']
  | lt => sign ['<']
  | ltEq => sign ['<', '=']
  | gt => sign ['>']
  | gtEq => sign ['>', '=']
  | tilde => sign ['~']
  | plus => sign ['+']
  | minus => sign ['-']
  | question => sign ['?']
  | colon => sign [':']
  | comma => sign [',']
  | dot => sign ['.']
  | lParen => sign ['(']
  | rParen => sign [')']
  | lBracket => sign ['[']
  | rBracket => sign [']']
  | lBrace => sign ['\x7b']
  | rBrace => sign ['\x7d']
  | newline => sign ['\n'] + sign ['\r', '\n']
  | indent | dedent => 0

namespace Lexer

lemma mem_sign : q ∈ sign text ↔ q = text := .rfl

lemma append_mem_kstar {L : Language Char} {a b : List Char} (ha : a ∈ L) (hb : b ∈ L∗) : a ++ b ∈ L∗ := by
  obtain ⟨parts, rfl, hparts⟩ := mem_kstar.1 hb
  exact mem_kstar.2 ⟨a :: parts, rfl, forall_mem_cons.2 ⟨ha, hparts⟩⟩

lemma mem_kstar_oneOf : q ∈ (oneOf test)∗ ↔ ∀ c ∈ q, test c = true := by
  constructor
  · intro h c hc
    obtain ⟨parts, rfl, hparts⟩ := mem_kstar.1 h
    obtain ⟨part, hpart, hc⟩ := mem_flatten.1 hc
    obtain ⟨d, hd, rfl⟩ := hparts part hpart
    rwa [mem_singleton.1 hc]
  · intro h
    induction q with
    | nil => exact nil_mem_kstar _
    | cons c q ih =>
      obtain ⟨hc, hq⟩ := forall_mem_cons.1 h
      exact append_mem_kstar (a := [c]) ⟨c, hc, rfl⟩ (ih hq)

lemma mem_oneOf_mul : q ∈ oneOf test * L ↔ ∃ c s, q = c :: s ∧ test c = true ∧ s ∈ L := by
  rw [mem_mul]
  constructor
  · rintro ⟨_, ⟨c, hc, rfl⟩, s, hs, rfl⟩
    exact ⟨c, s, rfl, hc, hs⟩
  · rintro ⟨c, s, rfl, hc, hs⟩
    exact ⟨[c], ⟨c, hc, rfl⟩, s, hs, rfl⟩

lemma mem_sign_mul : q ∈ sign text * L ↔ ∃ s ∈ L, q = text ++ s := by
  rw [mem_mul]
  constructor
  · rintro ⟨_, rfl, s, hs, rfl⟩
    exact ⟨s, hs, rfl⟩
  · rintro ⟨s, hs, rfl⟩
    exact ⟨_, rfl, s, hs, rfl⟩

/-! ### Runs of characters -/

lemma run_append (h : ∀ c ∈ q, test c = true) : run test (q ++ behind) = q.length + run test behind := by
  rw [run, takeWhile_append_of_pos h, length_append, run]

lemma take_run (test : Char → Bool) (s : List Char) : s.take (run test s) = s.takeWhile test :=
  (prefix_iff_eq_take.1 ( takeWhile_prefix test)).symm

lemma mem_of_mem_take_run (h : c ∈ rest.take (run test rest)) : test c = true := by
  rw [take_run] at h
  exact all_eq_true.1 all_takeWhile c h

/-! ### Strings -/

/-- A body is read item by item, until its closing sign comes. -/
structure Reads (item : Language Char) (close : List Char) (body : List Char → Bool × Nat) : Prop where
  closed : ∀ s, body (close ++ s) = (true, close.length)
  more : ∀ a ∈ item, ∀ s, body (a ++ s) = ((body s).1, (body s).2 + a.length)
  cases : ∀ s n, body s = (true, n) → (∃ t, s = close ++ t ∧ n = close.length) ∨
    ∃ a ∈ item, a ≠ [] ∧ ∃ t m, s = a ++ t ∧ body t = (true, m) ∧ n = m + a.length

namespace Reads

variable {item : Language Char} {close : List Char} {body : List Char → Bool × Nat}

lemma of_mem (h : Reads item close body) (hq : q ∈ item∗) (behind : List Char) :
    body (q ++ (close ++ behind)) = (true, q.length + close.length) := by
  obtain ⟨parts, rfl, hparts⟩ := mem_kstar.1 hq
  clear hq
  induction parts with
  | nil => exact (h.closed behind).trans (by simp)
  | cons a parts ih =>
    obtain ⟨ha, hparts⟩ := forall_mem_cons.1 hparts
    rw [flatten_cons, append_assoc, h.more a ha, ih hparts, length_append]
    exact congrArg (Prod.mk true) (by omega)

lemma exists_mem (h : Reads item close body) {s : List Char} {n : Nat} (hs : body s = (true, n)) :
    n ≤ s.length ∧ ∃ q ∈ item∗, s.take n = q ++ close := by
  rcases h.cases s n hs with ⟨t, rfl, rfl⟩ | ⟨a, ha, hne, t, m, heq, ht, rfl⟩
  · exact ⟨by simp, [], nil_mem_kstar _, take_left⟩
  · have hpos := length_pos_of_ne_nil hne
    have hlength : s.length = a.length + t.length := by rw [heq, length_append]
    obtain ⟨hm, q, hq, htake⟩ := h.exists_mem ht
    refine ⟨by omega, a ++ q, append_mem_kstar ha hq, ?_⟩
    rw [heq, Nat.add_comm, take_length_add_append, htake, append_assoc]
termination_by s.length

end Reads

lemma reads_stringBody : Reads stringItem ['"'] stringBody where
  closed _ := rfl
  more a ha s := by
    rcases ha with ⟨c, hc, rfl⟩ | ha
    · rw [singleton_append, stringBody] <;> simp_all
    · obtain ⟨_, ⟨c, hc, rfl⟩, rfl⟩ := mem_sign_mul.1 ha
      change stringBody ('\\' :: c :: s) = _
      rw [stringBody] <;> simp_all
  cases s n h := by
    revert h
    fun_cases stringBody s <;> rintro ⟨⟩
    case case2 t => exact .inl ⟨t, rfl, rfl⟩
    case case6 c t hc m hbody =>
      exact .inr ⟨['\\', c], .inr (mem_sign_mul.2 ⟨[c], ⟨c, by simpa using hc, rfl⟩, rfl⟩), nofun, t, m, rfl,
        hbody, rfl⟩
    case case7 c t hquote hfeed hlast hfeed' hslash m hbody =>
      refine .inr ⟨[c], .inl ⟨c, ?_, rfl⟩, nofun, t, m, rfl, hbody, rfl⟩
      have hne : c ≠ '\\' := by
        rintro rfl
        cases t with
        | nil => exact hlast rfl rfl
        | cons d t => exact hslash d t rfl rfl
      simpa using ⟨hquote, hne, hfeed⟩

lemma reads_tripleBody : Reads tripleItem ['"', '"', '"'] tripleBody where
  closed _ := rfl
  more a ha s := by
    rcases ha with (⟨c, hc, rfl⟩ | ha) | ha
    · rw [singleton_append, tripleBody] <;> simp_all
    · obtain ⟨_, ⟨c, hc, rfl⟩, rfl⟩ := mem_sign_mul.1 ha
      change tripleBody ('"' :: c :: s) = _
      rw [tripleBody] <;> simp_all
    · obtain ⟨_, ⟨c, hc, rfl⟩, rfl⟩ := mem_sign_mul.1 ha
      change tripleBody ('"' :: '"' :: c :: s) = _
      rw [tripleBody] <;> simp_all
  cases s n h := by
    have hne {c : Char} {t : List Char} (hmore : ∀ d u, c = '"' → t = d :: u → False)
        (hnone : c = '"' → t = [] → False) : decide (c ≠ '"') = true := by
      refine decide_eq_true fun hc => ?_
      cases t with
      | nil => exact hnone hc rfl
      | cons d t => exact hmore d t hc rfl
    revert h
    fun_cases tripleBody s <;> rintro ⟨⟩
    case case2 t => exact .inl ⟨t, rfl, rfl⟩
    case case3 c t hc m hbody =>
      exact .inr ⟨['"', '"', c], .inr (mem_sign_mul.2 ⟨[c], ⟨c, by simpa using hc, rfl⟩, rfl⟩), nofun, t, m, rfl,
        hbody, rfl⟩
    case case5 c t _ hmore hnone m hbody =>
      exact .inr ⟨['"', c], .inl (.inr (mem_sign_mul.2 ⟨[c], ⟨c, hne hmore hnone, rfl⟩, rfl⟩)), nofun, t, m, rfl,
        hbody, rfl⟩
    case case7 c t _ _ _ hmore hnone m hbody =>
      exact .inr ⟨[c], .inl (.inl ⟨c, hne hmore hnone, rfl⟩), nofun, t, m, rfl, hbody, rfl⟩

/-! ### What is found at a place -/

lemma isNamePart_of_start (h : isNameStart c = true) : isNamePart c = true := by
  simp only [isNameStart, isNamePart, Char.isAlphanum, Bool.or_eq_true] at h ⊢
  exact h.imp_left .inl

lemma isNamePart_of_mem (h : q ∈ nameText) : ∀ c ∈ q, isNamePart c = true := by
  obtain ⟨c, s, rfl, hc, hs⟩ := mem_oneOf_mul.1 h
  exact forall_mem_cons.2 ⟨isNamePart_of_start hc, mem_kstar_oneOf.1 hs⟩

/-- What is found is a token of a kind that ends here, or something that is longer. It is an error only if three
quotes are never closed. -/
def Reaches (kind : TokenKind) (c : Char) (q behind : List Char) : Prop :=
  classify c (q ++ behind) = (.token kind, q.length) ∨ q.length < (classify c (q ++ behind)).2 ∧
    ((classify c (q ++ behind)).1 = .invalid → c :: q = ['"', '"'] ∧ ['"'] <+: behind)

lemma reaches_of_token (h : classify c (q ++ behind) = (.token other, q.length + n)) (hkind : n = 0 → other = kind) :
    Reaches kind c q behind := by
  cases n with
  | zero => exact .inl (hkind rfl ▸ h)
  | succ n =>
    rw [Reaches, h]
    exact .inr ⟨by dsimp only; omega, nofun⟩

lemma classify_name (h : isNameStart c = true) (rest : List Char) :
    classify c rest = (.token .ident, run isNamePart rest) := by
  have hblank : isBlank c = false := by
    simp only [isBlank, Bool.or_eq_false_iff, decide_eq_false_iff_not]
    refine ⟨⟨?_, ?_⟩, ?_⟩ <;> rintro rfl <;> cases h
  simp [classify, hblank, h]

lemma classify_digit (h : c.isDigit = true) (rest : List Char) : classify c rest = numeric rest := by
  have hrange : 48 ≤ c.toNat ∧ c.toNat ≤ 57 := by simpa [Char.isDigit, UInt32.le_iff_toNat_le] using h
  have hblank : isBlank c = false := by
    simp only [isBlank, Bool.or_eq_false_iff, decide_eq_false_iff_not]
    refine ⟨⟨?_, ?_⟩, ?_⟩ <;> rintro rfl <;> cases h
  have hname : isNameStart c = false := by
    have hne : c ≠ '_' := by rintro rfl; cases h
    have hletter : c.isAlpha = (decide (65 ≤ c.val ∧ c.val ≤ 90) || 97 ≤ c.val && c.val ≤ 122) := rfl
    simp [isNameStart, hletter, hne, UInt32.le_iff_toNat_le]
    omega
  simp [classify, hblank, hname, h]

lemma numeric_append (h : ∀ c ∈ q, c.isDigit = true) (behind : List Char) :
    ∃ n other, numeric (q ++ behind) = (.token other, q.length + n) ∧ (n = 0 → other = .int) := by
  have hdrop : (q ++ behind).drop (q.length + run Char.isDigit behind) = behind.drop (run Char.isDigit behind) := by
    simp
  unfold numeric
  dsimp only
  rw [run_append h, hdrop]
  split
  · next more _ =>
    split
    · exact ⟨_, _, rfl, fun _ => rfl⟩
    · exact ⟨run Char.isDigit behind + 1 + run Char.isDigit more, .float, by simp only [Nat.add_assoc],
        fun h => by omega⟩
  · exact ⟨_, _, rfl, fun _ => rfl⟩

lemma numeric_point (hq : ∀ c ∈ q, c.isDigit = true) (hc : c.isDigit = true) (hs : ∀ c ∈ s, c.isDigit = true)
    (behind : List Char) : numeric (q ++ '.' :: c :: s ++ behind) =
      (.token .float, (q ++ '.' :: c :: s).length + run Char.isDigit behind) := by
  have hall : ∀ d ∈ c :: s, d.isDigit = true := forall_mem_cons.2 ⟨hc, hs⟩
  have hpoint : run Char.isDigit ('.' :: (c :: s ++ behind)) = 0 := rfl
  unfold numeric
  dsimp only
  rw [append_assoc, cons_append, run_append hq, hpoint, Nat.add_zero, drop_left]
  change (if run Char.isDigit (c :: s ++ behind) = 0 then _ else _) = _
  rw [run_append hall, if_neg (by simp)]
  simp
  omega

lemma quoted_of_mem (h : q ∈ stringItem∗) (behind : List Char) :
    quoted (q ++ '"' :: behind) = (.token .string, q.length + 1) ∨ q = [] ∧ ['"'] <+: behind := by
  have hbody : stringBody (q ++ '"' :: behind) = (true, q.length + 1) := reads_stringBody.of_mem h behind
  by_cases hopen : ∃ rest, q ++ '"' :: behind = '"' :: '"' :: rest
  · obtain ⟨rest, hrest⟩ := hopen
    rw [hrest, stringBody, Prod.mk.injEq] at hbody
    obtain rfl : q = [] := length_eq_zero_iff.1 (by omega)
    exact .inr ⟨rfl, rest, (List.cons.inj hrest).2.symm⟩
  · refine .inl ?_
    rw [quoted, hbody]
    · rfl
    · exact fun rest hrest => hopen ⟨rest, hrest⟩

lemma reaches_of_mem (h : q ∈ kind.pattern) (behind : List Char) : ∃ c s, q = c :: s ∧ Reaches kind c s behind := by
  cases kind with
  | ident =>
    obtain ⟨c, s, rfl, hc, hs⟩ := mem_oneOf_mul.1 h
    refine ⟨c, s, rfl, reaches_of_token (n := run isNamePart behind) ?_ fun _ => rfl⟩
    rw [classify_name hc, run_append (mem_kstar_oneOf.1 hs)]
  | var =>
    obtain ⟨_, hs, rfl⟩ := mem_sign_mul.1 h
    have hall := isNamePart_of_mem hs
    obtain ⟨c, s, rfl, hc, -⟩ := mem_oneOf_mul.1 hs
    refine ⟨'$', c :: s, rfl, reaches_of_token (n := run isNamePart behind) ?_ fun _ => rfl⟩
    rw [← run_append hall]
    exact if_pos hc
  | string =>
    obtain ⟨_, hs, rfl⟩ := mem_sign_mul.1 h
    obtain ⟨body, hbody, _, rfl, rfl⟩ := mem_mul.1 hs
    refine ⟨'"', body ++ ['"'], rfl, ?_⟩
    have hquoted : classify '"' (body ++ ['"'] ++ behind) = quoted (body ++ '"' :: behind) := by
      rw [append_assoc]
      rfl
    rcases quoted_of_mem hbody behind with h | ⟨rfl, hbehind⟩
    · exact .inl (by rw [hquoted, h, length_append]; rfl)
    · obtain ⟨rest, rfl⟩ := hbehind
      refine .inr ⟨?_, fun _ => ⟨rfl, _, rfl⟩⟩
      rw [hquoted]
      exact Nat.le_add_left 2 _
  | tripleString =>
    obtain ⟨_, hs, rfl⟩ := mem_sign_mul.1 h
    obtain ⟨body, hbody, _, rfl, rfl⟩ := mem_mul.1 hs
    refine ⟨'"', '"' :: '"' :: (body ++ ['"', '"', '"']), rfl, .inl ?_⟩
    change quoted ('"' :: '"' :: (body ++ ['"', '"', '"'] ++ behind)) = _
    rw [append_assoc, quoted, reads_tripleBody.of_mem hbody behind]
    simp
  | int =>
    obtain ⟨c, s, rfl, hc, hs⟩ := mem_oneOf_mul.1 h
    obtain ⟨n, other, hnumeric, hother⟩ := numeric_append (mem_kstar_oneOf.1 hs) behind
    exact ⟨c, s, rfl, reaches_of_token ((classify_digit hc _).trans hnumeric) hother⟩
  | float =>
    obtain ⟨_, hwhole, _, hpoint, rfl⟩ := mem_mul.1 h
    obtain ⟨c, s, rfl, hc, hs⟩ := mem_oneOf_mul.1 hwhole
    obtain ⟨_, hfraction, rfl⟩ := mem_sign_mul.1 hpoint
    obtain ⟨d, u, rfl, hd, hu⟩ := mem_oneOf_mul.1 hfraction
    refine ⟨c, s ++ '.' :: d :: u, rfl, reaches_of_token (n := run Char.isDigit behind) ?_ fun _ => rfl⟩
    rw [classify_digit hc]
    exact numeric_point (mem_kstar_oneOf.1 hs) hd (mem_kstar_oneOf.1 hu) behind
  | newline =>
    rcases h with rfl | rfl
    · exact ⟨_, _, rfl, .inl rfl⟩
    · exact ⟨_, _, rfl, .inl rfl⟩
  | minus | eq | lt | gt =>
    obtain rfl := mem_sign.1 h
    refine ⟨_, _, rfl, ?_⟩
    rcases behind with _ | ⟨d, behind⟩
    · exact .inl rfl
    by_cases hd : d = '=' ∨ d = '>'
    · rcases hd with rfl | rfl <;> first | exact .inl rfl | exact .inr ⟨Nat.one_pos, nofun⟩
    · rw [not_or] at hd
      exact .inl (by simp [classify, isBlank, isNameStart, hd])
  | indent | dedent => cases h
  | _ =>
    obtain rfl := mem_sign.1 h
    exact ⟨_, _, rfl, .inl rfl⟩

lemma run_le (test : Char → Bool) (s : List Char) : run test s ≤ s.length :=
  (takeWhile_sublist test).length_le

lemma take_run_mem_kstar (test : Char → Bool) (s : List Char) : s.take (run test s) ∈ (oneOf test)∗ :=
  mem_kstar_oneOf.2 fun _ => mem_of_mem_take_run

lemma take_run_mem (hstart : start c = true) (hpart : test c = true) :
    (c :: s).take (run test (c :: s)) ∈ oneOf start * (oneOf test)∗ := by
  rw [take_run, takeWhile_cons_of_pos hpart, ← take_run]
  exact mem_oneOf_mul.2 ⟨c, _, rfl, hstart, take_run_mem_kstar test s⟩

lemma mem_of_numeric (hc : c.isDigit = true) (h : (numeric rest).1 = .token kind) :
    (numeric rest).2 ≤ rest.length ∧ c :: rest.take (numeric rest).2 ∈ kind.pattern := by
  have hwhole : c :: rest.take (run Char.isDigit rest) ∈ digits :=
    mem_oneOf_mul.2 ⟨c, _, rfl, hc, take_run_mem_kstar _ rest⟩
  unfold numeric at h ⊢
  dsimp only at h ⊢
  split at h
  · next behind hbehind =>
    split_ifs at h ⊢ with hnone
    · cases h
      exact ⟨run_le _ _, hwhole⟩
    · cases h
      have hrest := take_append_drop (run Char.isDigit rest) rest
      have hlength : (rest.take (run Char.isDigit rest)).length = run Char.isDigit rest :=
        length_take_of_le (run_le _ _)
      generalize rest.take (run Char.isDigit rest) = whole at *
      rw [hbehind] at hrest
      subst hrest
      rw [← hlength, Nat.add_assoc, take_length_add_append, Nat.add_comm 1, take_succ_cons]
      refine ⟨?_, append_mem_mul hwhole (mem_sign_mul.2 ⟨_, ?_, rfl⟩)⟩
      · simpa using run_le Char.isDigit behind
      · cases behind with
        | nil => exact absurd rfl hnone
        | cons d behind =>
          cases hd : d.isDigit with
          | false => exact absurd (by simp [run, hd]) hnone
          | true => exact take_run_mem hd hd
  · cases h
    exact ⟨run_le _ _, hwhole⟩

lemma mem_of_quoted (h : (quoted rest).1 = .token kind) :
    (quoted rest).2 ≤ rest.length ∧ '"' :: rest.take (quoted rest).2 ∈ kind.pattern := by
  unfold quoted at h ⊢
  split at h
  · next rest =>
    rcases hbody : tripleBody rest with ⟨closed, n⟩
    rw [hbody] at h
    cases closed <;> cases h
    obtain ⟨hle, body, hitems, htake⟩ := reads_tripleBody.exists_mem hbody
    dsimp only
    rw [take_succ_cons, take_succ_cons, htake]
    exact ⟨by simpa using hle, mem_sign_mul.2 ⟨_, append_mem_mul hitems rfl, rfl⟩⟩
  · rcases hbody : stringBody rest with ⟨closed, n⟩
    rw [hbody] at h
    cases closed <;> cases h
    obtain ⟨hle, body, hitems, htake⟩ := reads_stringBody.exists_mem hbody
    dsimp only
    rw [htake]
    exact ⟨hle, mem_sign_mul.2 ⟨_, append_mem_mul hitems rfl, rfl⟩⟩

lemma mem_of_classify (h : (classify c rest).1 = .token kind) :
    (classify c rest).2 ≤ rest.length ∧ c :: rest.take (classify c rest).2 ∈ kind.pattern := by
  unfold classify at h ⊢
  split_ifs at h ⊢ with hblank hstart hdigit
  · cases h
    exact ⟨run_le _ _, mem_oneOf_mul.2 ⟨c, _, rfl, hstart, take_run_mem_kstar _ rest⟩⟩
  · exact mem_of_numeric hdigit h
  · split at h
    case h_2 => exact mem_of_quoted h
    case h_3 =>
      split_ifs at h ⊢ with hstart
      cases h
      exact ⟨run_le _ _, mem_sign_mul.2 ⟨_, take_run_mem hstart (isNamePart_of_start hstart), rfl⟩⟩
    case h_4 =>
      cases h
      exact ⟨Nat.zero_le _, .inl rfl⟩
    case h_5 =>
      cases h
      exact ⟨Nat.succ_le_succ (Nat.zero_le _), .inr rfl⟩
    all_goals
      cases h <;>
      first | exact ⟨Nat.zero_le _, rfl⟩ | exact ⟨Nat.succ_le_succ (Nat.zero_le _), rfl⟩

lemma mem_of_skipped (h : (classify c rest).1 = .skipped) : c :: rest.take (classify c rest).2 ∈ skipped := by
  unfold classify at h ⊢
  split_ifs at h ⊢ with hblank hstart hdigit
  · exact .inl (mem_oneOf_mul.2 ⟨c, _, rfl, hblank, take_run_mem_kstar _ rest⟩)
  · unfold numeric at h
    dsimp only at h
    split at h
    · split_ifs at h
    · cases h
  · split at h
    case h_1 => exact .inr (mem_sign_mul.2 ⟨_, take_run_mem_kstar _ rest, rfl⟩)
    case h_2 =>
      unfold quoted at h
      split at h <;> dsimp only at h <;> split_ifs at h
    case h_3 => split_ifs at h
    all_goals cases h

/-! ### Tokens and errors of a source -/

def place : Except LexError Token → Span
  | .ok t => t.span
  | .error e => e.span

def textOf : Except LexError Token → String
  | .ok t => t.text
  | .error e => e.text

/-- A token is the longest stretch at its place that is in a pattern, and it is in no other pattern. An error
stands where no pattern fits, or where three quotes are never closed, of which the first two would be a string. -/
def Greedy (found behind : List Char) : Except LexError Token → Prop
  | .ok t => found ∈ t.kind.pattern ∧ ∀ kind : TokenKind, ∀ s ∈ kind.pattern, s <+: found ++ behind →
      s.length < found.length ∨ s = found ∧ kind = t.kind
  | .error _ => ∀ kind : TokenKind, ∀ s ∈ kind.pattern, s <+: found ++ behind →
      s = ['"', '"'] ∧ ['"', '"', '"'] <+: found ++ behind

/-- A text from an offset on is cut into these tokens and errors, with blanks and comments around them. -/
def Cut (start : Nat) (text : List Char) : List (Except LexError Token) → Prop
  | [] => text ∈ skipped∗
  | x :: xs => ∃ gap found behind, text = gap ++ (found ++ behind) ∧ gap ∈ skipped∗ ∧ found ≠ [] ∧
      textOf x = String.ofList found ∧ Greedy found behind x ∧ (place x).start = start + Text.byteLength gap ∧
      (place x).stop = (place x).start + Text.byteLength found ∧ Cut (place x).stop behind xs

variable {xs : List (Except LexError Token)} {start : Nat} {text : List Char}

lemma Cut.skip (hq : q ∈ skipped) (h : Cut (start + Text.byteLength q) text xs) : Cut start (q ++ text) xs := by
  cases xs with
  | nil => exact append_mem_kstar hq h
  | cons x xs =>
    obtain ⟨gap, found, behind, rfl, hgap, hfound, htext, hgreedy, hstart, hrest⟩ := h
    refine ⟨q ++ gap, found, behind, by rw [append_assoc], append_mem_kstar hq hgap, hfound, htext, hgreedy, ?_, hrest⟩
    rw [hstart, Text.byteLength_append, Nat.add_assoc]

lemma greedy_token (span : Span) (value : String) (h : (classify c rest).1 = .token kind) :
    Greedy (c :: rest.take (classify c rest).2) (rest.drop (classify c rest).2) (.ok ⟨kind, span, value⟩) := by
  refine ⟨(mem_of_classify h).2, fun other s hs hs' => ?_⟩
  rw [cons_append, take_append_drop] at hs'
  obtain ⟨behind, hbehind⟩ := hs'
  obtain ⟨d, q, rfl, hreaches⟩ := reaches_of_mem hs behind
  obtain ⟨rfl, rfl⟩ : d = c ∧ q ++ behind = rest := List.cons.inj hbehind
  rcases hreaches with heq | ⟨hlt, -⟩
  · rw [heq] at h ⊢
    cases h
    exact .inr ⟨by rw [take_left], rfl⟩
  · rw [length_cons, length_cons, length_take_of_le (mem_of_classify h).1]
    exact .inl (Nat.succ_lt_succ hlt)

lemma greedy_error (e : LexError) (h : (classify c rest).1 = .invalid) :
    Greedy (c :: rest.take (classify c rest).2) (rest.drop (classify c rest).2) (.error e) := by
  intro other s hs hs'
  rw [cons_append, take_append_drop] at hs' ⊢
  obtain ⟨behind, hbehind⟩ := hs'
  obtain ⟨d, q, rfl, hreaches⟩ := reaches_of_mem hs behind
  obtain ⟨rfl, rfl⟩ : d = c ∧ q ++ behind = rest := List.cons.inj hbehind
  rcases hreaches with heq | ⟨-, hopen⟩
  · rw [heq] at h
    cases h
  · obtain ⟨hquotes, more, rfl⟩ := hopen h
    cases hquotes
    exact ⟨rfl, more, rfl⟩

lemma cut_scanFrom (p : Cursor) (text : List Char) : Cut p.offset text (scanFrom p text) := by
  fun_induction scanFrom p text with
  | case1 => exact nil_mem_kstar _
  | case2 p c rest found taken q later hfound ih =>
    rw [p.offset_past taken] at ih
    have hcut := ih.skip (mem_of_skipped hfound)
    rwa [cons_append, take_append_drop] at hcut
  | case3 p c rest found taken q later kind hfound ih =>
    refine ⟨[], taken, rest.drop found.2, ?_, nil_mem_kstar _, cons_ne_nil _ _, rfl,
      greedy_token _ _ hfound, rfl, p.offset_past taken, ih⟩
    rw [nil_append, cons_append, take_append_drop]
  | case4 p c rest found taken q later hfound ih =>
    refine ⟨[], taken, rest.drop found.2, ?_, nil_mem_kstar _, cons_ne_nil _ _, rfl,
      greedy_error _ hfound, rfl, p.offset_past taken, ih⟩
    rw [nil_append, cons_append, take_append_drop]

lemma Cut.mem_pattern : ∀ {xs start text},
    Cut start text xs → ∀ t : Token, .ok t ∈ xs → t.text.toList ∈ t.kind.pattern
  | x :: xs, _, _, h, t, ht => by
    obtain ⟨_, found, _, _, -, -, htext, hgreedy, -, -, hrest⟩ := h
    rcases mem_cons.1 ht with rfl | ht
    · rw [show t.text = _ from htext, String.toList_ofList]
      exact hgreedy.1
    · exact hrest.mem_pattern t ht

end Lexer

lemma Token.mem_pattern_of_scan (ht : .ok t ∈ scan source) : t.text.toList ∈ t.kind.pattern :=
  (cut_scanFrom {} source.toList).mem_pattern t ht

lemma Text.takeBytes_append (s t : List Char) : takeBytes (byteLength s) (s ++ t) = some s := by
  induction s with
  | nil => rw [byteLength_nil, takeBytes]
  | cons c s ih =>
    have hpos := c.utf8Size_pos
    obtain ⟨n, hn⟩ : ∃ n, c.utf8Size + byteLength s = n + 1 := ⟨c.utf8Size + byteLength s - 1, by omega⟩
    rw [byteLength_cons, hn, cons_append, takeBytes, if_pos (by omega), ← hn, Nat.add_sub_cancel_left, ih]
    rfl

lemma Text.slice?_append (front s t : List Char) :
    slice? (front ++ (s ++ t)) (byteLength front) (byteLength front + byteLength s) = some s := by
  rw [slice?, if_pos (Nat.le_add_right _ _), dropBytes_eq_some_iff.2 ⟨front, rfl, rfl⟩, Nat.add_sub_cancel_left]
  exact takeBytes_append s t

namespace Lexer

lemma Cut.placed : ∀ {xs front text}, Cut (Text.byteLength front) text xs → source = front ++ text →
    (∀ x ∈ xs, Text.byteLength front ≤ (place x).start ∧ (place x).start < (place x).stop ∧
      Text.slice? source (place x).start (place x).stop = some (textOf x).toList) ∧
    xs.Pairwise fun x y => (place x).stop ≤ (place y).start
  | [], _, _, _, _ => ⟨nofun, .nil⟩
  | x :: xs, front, _, h, hsource => by
    obtain ⟨gap, found, behind, rfl, -, hfound, htext, -, hstart, hstop, hrest⟩ := h
    have hpos : 0 < Text.byteLength found := by
      obtain ⟨c, s, rfl⟩ := exists_cons_of_ne_nil hfound
      rw [Text.byteLength_cons]
      exact Nat.add_pos_left c.utf8Size_pos _
    rw [← append_assoc] at hsource
    have hslice := Text.slice?_append (front ++ gap) found behind
    rw [Text.byteLength_append, ← hstart, ← hstop, ← hsource] at hslice
    have hstop' : (place x).stop = Text.byteLength (front ++ gap ++ found) := by
      rw [hstop, hstart, Text.byteLength_append, Text.byteLength_append]
    rw [hstop'] at hrest
    obtain ⟨hlater, hordered⟩ := hrest.placed (hsource.trans (append_assoc _ found behind).symm)
    rw [← hstop'] at hlater
    refine ⟨forall_mem_cons.2 ⟨⟨by omega, by omega, ?_⟩, fun y hy => ⟨?_, (hlater y hy).2⟩⟩,
      pairwise_cons.2 ⟨fun y hy => (hlater y hy).1, hordered⟩⟩
    · rw [hslice, htext, String.toList_ofList]
    · have hle := (hlater y hy).1
      omega

end Lexer

/-- Lexing loses nothing and takes as much as it can. -/
theorem Token.scan_greedy (source : String) : Cut 0 source.toList (scan source) ∧
    (∀ x ∈ scan source, (place x).start < (place x).stop ∧
      Text.slice? source.toList (place x).start (place x).stop = some (textOf x).toList) ∧
    (scan source).Pairwise fun x y => (place x).stop ≤ (place y).start := by
  have hcut : Cut (Text.byteLength []) source.toList (scan source) := cut_scanFrom {} source.toList
  obtain ⟨hplaced, hordered⟩ := hcut.placed (nil_append _).symm
  exact ⟨hcut, fun x hx => (hplaced x hx).2, hordered⟩

end Workflow
