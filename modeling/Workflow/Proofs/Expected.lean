import Workflow.Proofs.Chart
import Workflow.Proofs.Prefixes
import Workflow.Proofs.Sorted

/-!
Syntax errors are exact. The terminals that the items of a column wait for are those that the grammar asks for
behind the tokens of the column: prediction, scanning and completion bring in nothing else, and every move of a
reader has its counterpart in the chart. A parse that stops therefore stops at the first token with which no
sentence goes on.
-/

namespace Workflow

open List Grammar Terminal Workflow.Tree

namespace Chart

variable {rules : List Rule} {phrase : Nonterminal} {tokens : List Token} {cols : List (List Item)}

namespace IsChart

/-! ### What items wait for is to come -/

/-- What holds of the rules of the phrase, and is kept by the three moves of the parser, holds of all
items. -/
lemma induction {Q : Nat → Item → Prop} (h : IsChart rules phrase tokens cols)
    (start : ∀ {n r}, rules[n]? = some r → r.head = phrase → Q 0 ⟨n, r.head, [], r.body, 0⟩)
    (predicted : ∀ {k n r rest} {i : Item}, Q k i → i.todo = .sub r.head :: rest →
      rules[n]? = some r → Q k ⟨n, r.head, [], r.body, k⟩)
    (scanned : ∀ {k t token rest} {i : Item}, tokens[k]? = some token → Q k i →
      i.todo = .terminal t :: rest → t.accepts token = true → Q (k + 1) (i.advance (t.leaf token)))
    (completed : ∀ {k rest} {i parent : Item}, i.Sound rules (tokens.take k) → i.todo = [] →
      i.origin < k → Q i.origin parent → parent.todo = .sub i.head :: rest →
      Q k (parent.advance i.tree)) (k : Nat) :
    ∀ c, cols[k]? = some c → ∀ i ∈ c, Q k i := by
  induction k using Nat.strongRecOn with
  | ind k ih =>
    intro c hc
    obtain ⟨hk, items, hitems, rfl⟩ := h.column_eq hc
    have hlength : (tokens.take k).length = k := by rw [length_take]; omega
    have hbefore : ∀ n d, ((cols.take k).toArray)[n]? = some d → n < k ∧ cols[n]? = some d := by
      intro n d hd
      rw [List.getElem?_toArray, List.getElem?_take] at hd
      split at hd
      · next hn => exact ⟨hn, hd⟩
      · cases hd
    have hstart : ∀ i ∈ items, i.Sound rules (tokens.take k) ∧ Q k i := by
      refine fun i hi => ⟨start_sound hitems (fun n _ => h.sound n) i hi, ?_⟩
      rcases hitems with ⟨rfl, rfl⟩ | ⟨n, t, d, rfl, ht, hd, rfl⟩
      · obtain ⟨n, r, hn, hr, rfl⟩ := mem_predict.1 hi
        exact start hn hr
      · obtain ⟨j, hj, terminal, rest, htodo, ha, rfl⟩ := mem_scan.1 hi
        exact scanned ht (ih n (Nat.lt_succ_self n) d hd j hj) htodo ha
    have hsound : ∀ i : Item, i.Sound rules (tokens.take k) →
        ∀ j ∈ consequences rules (cols.take k).toArray k i, j.Sound rules (tokens.take k) := by
      intro i hi
      have hcolumns : ∀ n d, ((cols.take k).toArray)[n]? = some d →
          ∀ i ∈ d, Item.Sound rules ((tokens.take k).take n) i := by
        intro n d hd
        obtain ⟨hn, hd⟩ := hbefore n d hd
        rw [take_take, Nat.min_eq_left (Nat.le_of_lt hn)]
        exact h.sound n d hd
      have hnext := consequences_sound hcolumns hi
      rwa [hlength] at hnext
    have hnext : ∀ i, i.Sound rules (tokens.take k) ∧ Q k i →
        ∀ j ∈ consequences rules (cols.take k).toArray k i, j.Sound rules (tokens.take k) ∧ Q k j := by
      refine fun i hi j hj => ⟨hsound i hi.1 j hj, ?_⟩
      match htodo : i.todo with
      | [] =>
        simp only [consequences, htodo] at hj
        obtain ⟨d, hd, parent, hparent, rest, hrest, rfl⟩ := mem_complete.1 hj
        obtain ⟨hn, hd⟩ := hbefore _ d hd
        exact completed hi.1 htodo hn (ih _ hn d hd parent hparent) hrest
      | .sub p :: rest =>
        simp only [consequences, htodo] at hj
        obtain ⟨n, r, hn, rfl, rfl⟩ := mem_predict.1 hj
        exact predicted hi.2 htodo hn
      | .terminal _ :: _ => simp [consequences, htodo] at hj
    have hkey : ∀ i, i.Sound rules (tokens.take k) ∧ Q k i → i.key ∈ keys k 0 rules :=
      fun i hi => hlength ▸ hi.1.key_mem
    exact fun i hi => ((column_closed hstart hnext hkey).1 i hi).2

lemma awaits (h : IsChart rules phrase tokens cols) (hc : cols[k]? = some c) (hi : i ∈ c) :
    ∃ rest, Awaits rules phrase (tokens.take k) (i.todo ++ rest) := by
  refine h.induction (Q := fun k i => ∃ rest, Awaits rules phrase (tokens.take k) (i.todo ++ rest))
    ?_ ?_ ?_ ?_ k c hc i hi
  · rintro n r hn rfl
    exact ⟨[], .expand (mem_of_getElem? hn) .start⟩
  · rintro k n r rest i ⟨more, hmore⟩ htodo hn
    rw [htodo] at hmore
    exact ⟨rest ++ more, hmore.expand (mem_of_getElem? hn)⟩
  · rintro k t token rest i ht ⟨more, hmore⟩ htodo ha
    rw [htodo] at hmore
    rw [take_add_one, ht, Item.advance, htodo]
    exact ⟨more, hmore.read ha⟩
  · rintro k rest i parent hsound htodo hlt ⟨more, hmore⟩ hrest
    rw [hrest] at hmore
    have hderives := derives_of_spells i.tree (hsound.tree_spells htodo)
    have hall := hderives.awaits hmore
    -- the tokens up to the origin and those of the finished item are all that has been read
    rw [Item.tree, tokens_form, hsound.tokens] at hall
    have htake : tokens.take i.origin = (tokens.take k).take i.origin := by
      rw [take_take, Nat.min_eq_left (Nat.le_of_lt hlt)]
    rw [htake, take_append_drop] at hall
    rw [Item.advance, hrest]
    exact ⟨more, hall⟩

/-! ### What is to come has items that wait for it -/

/-- At a place a phrase is wanted, by the parse itself or by a rule under way, and behind it some
symbols. -/
inductive Wants (rules : List Rule) (phrase : Nonterminal) (cols : List (List Item)) :
    Nat → Nonterminal → List Symbol → Prop where
  | start : Wants rules phrase cols 0 phrase []
  | under {k m o} {r} {head} {rest more} (known : rules[m]? = some r) (item : Has cols k m (.sub head :: rest) o)
      (outer : Wants rules phrase cols o r.head more) : Wants rules phrase cols k head (rest ++ more)

/-- Some symbols are to come for a rule under way and those that want its phrase. -/
def Pending (rules : List Rule) (phrase : Nonterminal) (cols : List (List Item)) (k : Nat)
    (todo : List Symbol) : Prop :=
  ∃ m r rest o more, rules[m]? = some r ∧ Has cols k m rest o ∧
    Wants rules phrase cols o r.head more ∧ todo = rest ++ more

/-- A rule under way waits for the first symbol that is to come. Rules above it that have come to their
end are completed. -/
lemma Pending.first (h : IsChart rules phrase tokens cols) (nonempty : ∀ r ∈ rules, r.body ≠ [])
    (hpending : Pending rules phrase cols k (s :: todo)) :
    ∃ m r rest o more, rules[m]? = some r ∧ Has cols k m (s :: rest) o ∧
      Wants rules phrase cols o r.head more ∧ todo = rest ++ more := by
  obtain ⟨m, r, rest, o, more, hm, hhas, hwants, htodo⟩ := hpending
  generalize hhead : r.head = head at hwants
  induction hwants generalizing m r rest with
  | start =>
    rw [append_nil] at htodo
    subst htodo
    exact ⟨m, r, todo, 0, [], hm, hhas, hhead ▸ .start, (append_nil todo).symm⟩
  | @under o m' o' r' head rest' more' known item outer ih =>
    cases rest with
    | nil =>
      have hitem := h.has_completed nonempty hm (hhead ▸ item) hhas
      exact ih m' r' rest' known hitem htodo rfl
    | cons s' rest =>
      obtain ⟨rfl, rfl⟩ := List.cons.inj htodo
      exact ⟨m, r, rest, o, rest' ++ more', hm, hhas, hhead ▸ .under known item outer, rfl⟩

lemma pending_of_awaits (h : IsChart rules phrase tokens cols) (nonempty : ∀ r ∈ rules, r.body ≠ [])
    (hawaits : Awaits rules phrase before todo) (hbefore : before <+: tokens) :
    (before = [] ∧ todo = [.sub phrase]) ∨ Pending rules phrase cols before.length todo := by
  induction hawaits with
  | start => exact .inl ⟨rfl, rfl⟩
  | @expand before r rest known _ ih =>
    obtain ⟨n, hn⟩ := List.getElem?_of_mem known
    right
    rcases ih hbefore with ⟨rfl, htodo⟩ | hpending
    · obtain ⟨hhead, rfl⟩ := List.cons.inj htodo
      cases hhead
      exact ⟨n, r, r.body, 0, [], hn, h.has_start hn rfl, .start, rfl⟩
    · obtain ⟨m, r', rest', o, more, hm, hhas, hwants, rfl⟩ := hpending.first h nonempty
      exact ⟨n, r, r.body, _, rest' ++ more, hn, h.has_predicted hn hhas, .under hm hhas hwants, rfl⟩
  | @read before t token rest _ accepted ih =>
    obtain ⟨after, rfl⟩ := hbefore
    right
    have htoken : (before ++ [token] ++ after)[before.length]? = some token := by simp
    rcases ih ⟨[token] ++ after, by simp⟩ with ⟨-, htodo⟩ | hpending
    · cases (List.cons.inj htodo).1
    · obtain ⟨m, r', rest', o, more, hm, hhas, hwants, rfl⟩ := hpending.first h nonempty
      rw [length_append, length_singleton]
      exact ⟨m, r', rest', o, more, hm, h.has_scanned htoken accepted hhas, hwants, rfl⟩

lemma mem_expected (h : IsChart rules phrase tokens cols) (nonempty : ∀ r ∈ rules, r.body ≠ [])
    {k : Nat} {c : List Item} (hc : cols[k]? = some c) {t : Terminal} :
    t ∈ expected c ↔ Asks rules phrase (tokens.take k) t := by
  have hk := (h.column_eq hc).1
  constructor
  · intro ht
    obtain ⟨i, hi, hterminal⟩ := mem_filterMap.1 ht
    obtain ⟨more, hmore⟩ := h.awaits hc hi
    unfold Item.terminal? at hterminal
    split at hterminal
    · next rest htodo =>
      cases hterminal
      rw [htodo] at hmore
      exact ⟨rest ++ more, hmore⟩
    · cases hterminal
  · rintro ⟨rest, hrest⟩
    have hbefore : tokens.take k <+: tokens := take_prefix k tokens
    rcases h.pending_of_awaits nonempty hrest hbefore with ⟨-, htodo⟩ | hpending
    · cases (List.cons.inj htodo).1
    · obtain ⟨m, r, rest', o, more, -, ⟨d, hd, i, hi, -, htodo, -⟩, -, -⟩ := hpending.first h nonempty
      rw [length_take, Nat.min_eq_left hk, hc] at hd
      cases hd
      exact mem_filterMap.2 ⟨i, hi, by rw [Item.terminal?, htodo]⟩

end IsChart

/-! ### Where a parse stops -/

def Moves (tokens : List Token) (cols : List (List Item)) (k : Nat) : Prop :=
  ∀ j < k, ∀ t c, tokens[j]? = some t → cols[j]? = some c → scan t c ≠ []

lemma advance_cases (tokens : List Token) (columns : Array (List Item)) (current : List Item) :
    (∃ last, advance rules columns current tokens = .ok last ∧
      (trail rules columns current tokens)[tokens.length]? = some last ∧
      Moves tokens (trail rules columns current tokens) tokens.length) ∨
    ∃ k t c, tokens[k]? = some t ∧ (trail rules columns current tokens)[k]? = some c ∧ scan t c = [] ∧
      advance rules columns current tokens = .error ⟨expected c, some t⟩ ∧
      Moves tokens (trail rules columns current tokens) k := by
  induction tokens generalizing columns current with
  | nil => exact .inl ⟨current, rfl, rfl, fun j hj => absurd hj (Nat.not_lt_zero j)⟩
  | cons t rest ih =>
    cases hscan : scan t current with
    | nil =>
      refine .inr ⟨0, t, current, rfl, rfl, hscan, by simp only [advance, hscan], ?_⟩
      exact fun j hj => absurd hj (Nat.not_lt_zero j)
    | cons i moved =>
      have hmoves : ∀ {k}, Moves rest (trail rules (columns.push current) (column rules
          (columns.push current) (columns.push current).size (i :: moved)) rest) k →
          Moves (t :: rest) (trail rules columns current (t :: rest)) (k + 1) := by
        intro k hmoves j hj u c hu hc
        rw [trail, hscan] at hc
        cases j with
        | zero =>
          cases hu
          cases hc
          rw [hscan]
          exact cons_ne_nil i moved
        | succ j => exact hmoves j (Nat.lt_of_succ_lt_succ hj) u c hu hc
      simp only [advance, hscan]
      have htrail : trail rules columns current (t :: rest) = current :: trail rules
          (columns.push current) (column rules (columns.push current) (columns.push current).size
            (i :: moved)) rest := by rw [trail, hscan]
      rcases ih (columns.push current) (column rules (columns.push current) (columns.push current).size
        (i :: moved)) with ⟨last, hok, hlast, hall⟩ | ⟨k, u, c, hu, hc, hempty, herror, hall⟩
      · exact .inl ⟨last, hok, by rw [htrail]; exact hlast, hmoves hall⟩
      · exact .inr ⟨k + 1, u, c, hu, by rw [htrail]; exact hc, hempty, herror, hmoves hall⟩

lemma IsChart.begins (h : IsChart rules phrase tokens cols) (hrules : Productive rules)
    (hphrase : ∃ r ∈ rules, r.head = phrase) {k : Nat} (hk : k ≤ tokens.length)
    (hmoves : Moves tokens cols k) : Begins rules phrase (tokens.take k) := by
  cases k with
  | zero => exact Awaits.start.begins hrules hphrase
  | succ j =>
    have ht : tokens[j]? = some tokens[j] := List.getElem?_eq_getElem hk
    obtain ⟨c, hc⟩ := h.exists_column (Nat.le_of_succ_le hk)
    obtain ⟨moved, hmoved⟩ := exists_mem_of_ne_nil _ (hmoves j (Nat.lt_succ_self j) _ c ht hc)
    obtain ⟨i, hi, t, rest, htodo, ha, -⟩ := mem_scan.1 hmoved
    obtain ⟨more, hmore⟩ := h.awaits hc hi
    rw [htodo] at hmore
    rw [take_add_one, ht]
    exact (hmore.read ha).begins hrules hphrase

/-- What a parse that fails has read is the start of a sentence, and it tells the terminals that the grammar
asks for next. It stops at a token with which no sentence goes on, or at the end. -/
lemma parse_eq_error (nonempty : ∀ r ∈ rules, r.body ≠ []) (hrules : Productive rules)
    (hphrase : ∃ r ∈ rules, r.head = phrase) {stuck : Stuck}
    (h : parse rules phrase tokens = .error stuck) :
    ∃ before, Begins rules phrase before ∧ (∀ t, t ∈ stuck.expected ↔ Asks rules phrase before t) ∧
      ((∃ token after, stuck.found = some token ∧ tokens = before ++ token :: after ∧
        ¬ Begins rules phrase (before ++ [token])) ∨
      (stuck.found = none ∧ before = tokens ∧ ¬ Derives rules (.sub phrase) tokens)) := by
  have hchart : IsChart rules phrase tokens _ := isChart_trail
  have hnone : ¬ Derives rules (.sub phrase) tokens := by
    intro hderives
    obtain ⟨tree, htree⟩ := parse_complete nonempty hderives
    cases htree.symm.trans h
  rcases @advance_cases rules tokens #[] (column rules #[] 0 (predict rules 0 phrase)) with
    ⟨last, hok, hlast, hmoves⟩ | ⟨k, token, c, htoken, hc, hempty, herror, hmoves⟩
  · have hbegins := hchart.begins hrules hphrase .refl hmoves
    have hexpected := fun t => @IsChart.mem_expected _ _ _ _ hchart nonempty _ _ hlast t
    rw [take_length] at hbegins hexpected
    rw [parse, hok] at h
    simp only [bind, Except.bind] at h
    split at h
    · cases h
    · cases h
      exact ⟨tokens, hbegins, hexpected, .inr ⟨rfl, rfl, hnone⟩⟩
  · have hlt := (List.getElem?_eq_some_iff.1 htoken).1
    have hexpected := fun t => @IsChart.mem_expected _ _ _ _ hchart nonempty _ _ hc t
    rw [parse, herror] at h
    cases h
    refine ⟨tokens.take k, hchart.begins hrules hphrase (Nat.le_of_lt hlt) hmoves, hexpected,
      .inl ⟨token, tokens.drop (k + 1), rfl, ?_, fun hbegins => ?_⟩⟩
    · obtain ⟨-, rfl⟩ := List.getElem?_eq_some_iff.1 htoken
      rw [getElem_cons_drop, take_append_drop]
    · -- a terminal that accepted the token would have moved an item on
      obtain ⟨t, hasks, haccepts⟩ := asks_of_begins hbegins
      obtain ⟨i, hi, hterminal⟩ := mem_filterMap.1 ((hexpected t).2 hasks)
      have hmoved : i.advance (t.leaf token) ∈ scan token c :=
        mem_filterMap.2 ⟨i, hi, by simp [hterminal, haccepts]⟩
      rw [hempty] at hmoved
      cases hmoved

end Chart

/-! ### Texts of terminals -/

lemma Terminal.describeAll_spec (terminals : List Terminal) : (describeAll terminals).Pairwise (· < ·) ∧
      ∀ text, text ∈ describeAll terminals ↔ ∃ t ∈ terminals, t.describe = text := by
  have hfold : ∀ (ts : List Terminal) (texts : List String), texts.Pairwise (· < ·) →
      (ts.foldl (fun texts t => insertText t.describe texts) texts).Pairwise (· < ·) ∧
        ∀ text, text ∈ ts.foldl (fun texts t => insertText t.describe texts) texts ↔
          text ∈ texts ∨ ∃ t ∈ ts, t.describe = text := by
    intro ts
    induction ts with
    | nil => exact fun texts h => ⟨h, by simp⟩
    | cons t ts ih =>
      intro texts h
      obtain ⟨hsorted, hmem⟩ := ih (insertText t.describe texts) (pairwise_insertText h)
      refine ⟨hsorted, fun text => ?_⟩
      rw [foldl_cons, hmem, mem_insertText, exists_mem_cons_iff]
      tauto
  obtain ⟨hsorted, hmem⟩ := hfold terminals [] List.Pairwise.nil
  exact ⟨hsorted, fun text => by rw [describeAll, hmem]; simp⟩

/-! ### Errors of texts -/

/-- A list tells what the grammar asks for behind some tokens: the texts of these terminals, in order and each
once. The tokens that they accept are those that go on with a sentence. -/
structure Foretells (before : List Token) (expected : List String) : Prop where
  sorted : expected.Pairwise (· < ·)
  texts : ∀ text, text ∈ expected ↔ ∃ t : Terminal, t.describe = text ∧ Asks rules .unit before t
  tokens : ∀ token, Begins rules .unit (before ++ [token]) ↔ ∃ t, Asks rules .unit before t ∧ t.accepts token = true

lemma foretells_describeAll (h : ∀ t, t ∈ terminals ↔ Asks rules .unit before t) :
    Foretells before (describeAll terminals) := by
  obtain ⟨hsorted, hmem⟩ := describeAll_spec terminals
  refine ⟨hsorted, fun text => ?_, fun token => ⟨asks_of_begins, ?_⟩⟩
  · rw [hmem]
    simp only [h, and_comm]
  · rintro ⟨t, hasks, haccepts⟩
    exact hasks.begins productive exists_unit haccepts

/-- Tokens that have no derivation fail at the first token with which no sentence goes on, or else at their end,
where they are the start of a sentence. The error tells what the grammar asks for there. -/
theorem Tree.ofTokens_error_exact {source : String} {tokens : List Token} {e : ParseError}
    (h : ofTokens source tokens = .error e) :
    (∃ before found after expected, tokens = before ++ found :: after ∧
      e = .unexpectedToken found expected ∧ Begins rules .unit before ∧
      ¬ Begins rules .unit (before ++ [found]) ∧ Foretells before expected) ∨
    ∃ expected, e = .unexpectedEnd (.here (Text.endOf source)) expected ∧
      (∃ more, more ≠ [] ∧ Derives rules (.sub .unit) (tokens ++ more)) ∧
      ¬ Derives rules (.sub .unit) tokens ∧ Foretells tokens expected := by
  unfold ofTokens at h
  split at h
  · cases h
  · split at h
    · cases h
    · next expected token hparse =>
      obtain ⟨before, hbegins, hexpected, hstop⟩ :=
        Chart.parse_eq_error body_ne_nil productive exists_unit hparse
      rcases hstop with ⟨found, after, hfound, htokens, hnot⟩ | ⟨hfound, -⟩
      · cases hfound
        cases h
        exact .inl ⟨before, _, after, _, htokens, rfl, hbegins, hnot, foretells_describeAll hexpected⟩
      · cases hfound
    · next expected hparse =>
      obtain ⟨before, ⟨more, hmore⟩, hexpected, hstop⟩ :=
        Chart.parse_eq_error body_ne_nil productive exists_unit hparse
      rcases hstop with ⟨found, after, hfound, -⟩ | ⟨-, rfl, hnot⟩
      · cases hfound
      · cases h
        refine .inr ⟨_, rfl, ⟨more, ?_, hmore⟩, hnot, foretells_describeAll hexpected⟩
        rintro rfl
        rw [append_nil] at hmore
        exact hnot hmore

/-! ### A model without a name -/

def modelHead (name : Token) : List Token := [sample (.word "model"), name]

def Tree.stop? (tokens : List Token) : Option (Token × List String) :=
  match ofTokens "" tokens with
  | .error (.unexpectedToken found expected) => some (found, expected)
  | _ => none

lemma Tree.ofTokens_of_stop? {tokens : List Token} {expected : List String}
    (h : stop? tokens = some (found, expected)) : ofTokens "" tokens = .error (.unexpectedToken found expected) := by
  unfold stop? at h
  split at h
  · next heq =>
    cases h
    exact heq
  · cases h

lemma ofTokens_nameless : ofTokens "" (modelHead (sample (.kind .eq)))
    = .error (.unexpectedToken (sample (.kind .eq)) ["identifier"]) :=
  ofTokens_of_stop? (by decide +kernel)

theorem Tree.ofTokens_error_exact_nameless : ∃ e, ofTokens "" (modelHead (sample (.kind .eq))) = .error e ∧
      ((∃ before found after expected, modelHead (sample (.kind .eq)) = before ++ found :: after ∧
        e = .unexpectedToken found expected ∧ Begins rules .unit before ∧
        ¬ Begins rules .unit (before ++ [found]) ∧ Foretells before expected) ∨
      ∃ expected, e = .unexpectedEnd (.here (Text.endOf "")) expected ∧
        (∃ more, more ≠ [] ∧ Derives rules (.sub .unit) (modelHead (sample (.kind .eq)) ++ more)) ∧
        ¬ Derives rules (.sub .unit) (modelHead (sample (.kind .eq))) ∧
        Foretells (modelHead (sample (.kind .eq))) expected) :=
  ⟨_, ofTokens_nameless, ofTokens_error_exact ofTokens_nameless⟩

lemma derives_of_isOk {tokens : List Token} (h : (Chart.parse rules .unit tokens).isOk = true) :
    Derives rules (.sub .unit) tokens := by
  match hparse : Chart.parse rules .unit tokens with
  | .ok tree =>
    obtain ⟨hspells, -, rfl⟩ := Chart.parse_sound hparse
    exact derives_of_spells tree hspells
  | .error _ =>
    rw [hparse] at h
    cases h

/-- Words are no kind of token: behind `model`, the word `flow` is a name and goes on with a sentence, and the
terminal that a flow begins with accepts it. But only the identifier is expected. -/
theorem Tree.expected_leaves_out_word : ∃ expected, ofTokens "" (modelHead (sample (.kind .eq)))
      = .error (.unexpectedToken (sample (.kind .eq)) expected) ∧
    (word "flow").accepts (sample (.word "flow")) = true ∧
    Begins rules .unit (modelHead (sample (.word "flow"))) ∧
    (word "flow").describe ∉ expected := by
  refine ⟨_, ofTokens_nameless, accepts_sample _, ⟨[.kind .eq, .kind .string,
    .kind .newline].map sample, derives_of_isOk ?_⟩, ?_⟩ <;> decide +kernel

end Workflow
