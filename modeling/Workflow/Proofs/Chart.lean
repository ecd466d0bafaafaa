import Mathlib.Data.List.Perm.Subperm
import Workflow.Proofs.Derivation

/-!
Chart parsing finds exactly the derivations.

A column is closed: since its items have different keys, of which there are only so many, the queue of `close`
is empty before the rounds are used up. A chart is sound: the trees of an item spell what has been read of its
rule. A chart is complete, by induction on the derivation: where an item waits for symbols that derive the
tokens that follow, the item that has read them stands in the column behind the tokens.
-/

namespace Workflow

open List Item Workflow.Tree Chart Option

variable {start : List Item} {r : Rule} {n k o : Nat} {rest : List Symbol} {j : Item}

namespace Chart

/-! ### Columns are closed -/

def HasKey (items : List Item) (key : Nat × Nat × Nat) : Prop := ∃ i ∈ items, i.key = key

instance : Std.TransCmp keyOrder :=
  inferInstanceAs (Std.TransCmp (@lexOrd Nat (Nat × Nat) _ lexOrd).compare)

instance : Std.LawfulEqCmp keyOrder :=
  inferInstanceAs (Std.LawfulEqCmp (@lexOrd Nat (Nat × Nat) _ lexOrd).compare)

/-- A column whose keys are those of its items, no two of which have one key. -/
structure Column.Exact (c : Column) : Prop where
  keys : ∀ key, c.keys.contains key = true ↔ HasKey c.items key
  nodup : (c.items.map key).Nodup

lemma Column.exact_empty : Column.Exact {} where
  keys key := by simp [HasKey]
  nodup := nodup_nil

lemma Column.add_cases {c : Column} (hc : c.Exact) (queue : List Item) (i : Item) :
    (HasKey c.items i.key ∧ Column.add (c, queue) i = (c, queue)) ∨
    ∃ c', Column.add (c, queue) i = (c', i :: queue) ∧ c'.items = i :: c.items ∧ c'.Exact := by
  by_cases h : c.keys.contains i.key = true
  · exact .inl ⟨(hc.keys _).1 h, by simp [Column.add, h]⟩
  · refine .inr ⟨⟨i :: c.items, c.keys.insert i.key⟩, by simp [Column.add, h], rfl, ?_, ?_⟩
    · intro key
      rw [Std.TreeSet.contains_insert]
      simp only [HasKey, mem_cons, exists_eq_or_imp, Bool.or_eq_true, beq_iff_eq, Std.LawfulEqCmp.compare_eq_iff_eq]
      rw [hc.keys key]
      exact Iff.rfl
    · refine nodup_cons.2 ⟨fun hmem => h ((hc.keys _).2 ?_), hc.nodup⟩
      obtain ⟨j, hj, hkey⟩ := mem_map.1 hmem
      exact ⟨j, hj, hkey⟩

lemma Column.foldl_add : ∀ (js : List Item) {c : Column}, c.Exact → ∀ (queue : List Item),
    ∃ (c' : Column) (new : List Item), js.foldl Column.add (c, queue) = (c', new ++ queue) ∧
      c'.items = new ++ c.items ∧ c'.Exact ∧ (∀ j ∈ new, j ∈ js) ∧ ∀ j ∈ js, HasKey c'.items j.key
  | [], c, hc, queue => ⟨c, [], rfl, rfl, hc, by simp, by simp⟩
  | j :: js, c, hc, queue => by
    rw [foldl_cons]
    rcases Column.add_cases hc queue j with ⟨hkey, h⟩ | ⟨c₁, h, hitems, hc₁⟩
    · obtain ⟨c', new, hfold, hall, hexact, hnew, hkeys⟩ := Column.foldl_add js hc queue
      obtain ⟨i, hi, hik⟩ := hkey
      exact ⟨c', new, by rw [h, hfold], hall, hexact, fun k hk => .tail _ (hnew k hk),
        forall_mem_cons.2 ⟨⟨i, hall ▸ mem_append_right _ hi, hik⟩, hkeys⟩⟩
    · obtain ⟨c', new, hfold, hall, hexact, hnew, hkeys⟩ := Column.foldl_add js hc₁ (j :: queue)
      exact ⟨c', new ++ [j], by rw [h, hfold]; simp, by rw [hall, hitems]; simp, hexact,
        forall_mem_append.2 ⟨fun k hk => .tail _ (hnew k hk), forall_mem_singleton.2 mem_cons_self⟩,
        forall_mem_cons.2 ⟨⟨j, by rw [hall, hitems]; simp, rfl⟩, hkeys⟩⟩

section

variable {rules : List Rule} {columns : Array (List Item)} {place : Nat} {P : Item → Prop}

/-- The consequences of an item have their like among some items. -/
def Covered (rules : List Rule) (columns : Array (List Item)) (place : Nat) (items : List Item) (i : Item) : Prop :=
  ∀ j ∈ consequences rules columns place i, HasKey items j.key

/-- Closing ends with a column that is closed, if as many rounds are left as there are items in the queue and
missing keys. -/
lemma close_closed (hnext : ∀ i, P i → ∀ j ∈ consequences rules columns place i, P j)
    (hmost : ∀ items : List Item, (items.map key).Nodup → (∀ i ∈ items, P i) → items.length ≤ most) :
    ∀ (n : Nat) (c : Column) (queue : List Item), c.Exact → (∀ i ∈ c.items, P i) → (∀ i ∈ queue, i ∈ c.items) →
      (∀ i ∈ c.items, i ∈ queue ∨ Covered rules columns place c.items i) →
      queue.length + most ≤ n + c.items.length →
      (∀ i ∈ (close rules columns place n c queue).items, P i) ∧
      (∀ i ∈ c.items, i ∈ (close rules columns place n c queue).items) ∧
      ∀ i ∈ (close rules columns place n c queue).items,
        Covered rules columns place (close rules columns place n c queue).items i
  | n, c, [], _, hP, _, hcov, _ => by
    have h : close rules columns place n c [] = c := by cases n <;> rfl
    rw [h]
    exact ⟨hP, fun i hi => hi, fun i hi => (hcov i hi).resolve_left (by simp)⟩
  | 0, c, i :: queue, hc, hP, _, _, hlen => by
    -- no round is left, but an item with a key of its own still waits
    have := hmost c.items hc.nodup hP
    simp only [length_cons] at hlen
    omega
  | n + 1, c, i :: queue, hc, hP, hq, hcov, hlen => by
    obtain ⟨c', new, hfold, hall, hc', hnew, hkeys⟩ :=
      Column.foldl_add (consequences rules columns place i) hc queue
    have hstep : close rules columns place (n + 1) c (i :: queue)
        = close rules columns place n c' (new ++ queue) := by simp only [close, hfold]
    have hsub : ∀ j ∈ c.items, j ∈ c'.items := fun j hj => by
      rw [hall]; exact mem_append_right _ hj
    have hi : i ∈ c.items := hq i (.head _)
    have hP' : ∀ j ∈ c'.items, P j := by
      rw [hall]
      exact forall_mem_append.2 ⟨fun j hj => hnext i (hP i hi) j (hnew j hj), hP⟩
    have hq' : ∀ j ∈ new ++ queue, j ∈ c'.items :=
      forall_mem_append.2 ⟨fun j hj => hall ▸ mem_append_left _ hj, fun j hj => hsub j (hq j (.tail _ hj))⟩
    have hcov' : ∀ j ∈ c'.items, j ∈ new ++ queue ∨ Covered rules columns place c'.items j := by
      intro j hj
      rw [hall] at hj
      rcases mem_append.1 hj with hj | hj
      · exact .inl (mem_append_left _ hj)
      · rcases hcov j hj with hjq | hjc
        · rcases mem_cons.1 hjq with rfl | hjq
          · exact .inr hkeys
          · exact .inl (mem_append_right _ hjq)
        · refine .inr fun k hk => ?_
          obtain ⟨l, hl, hlk⟩ := hjc k hk
          exact ⟨l, hsub l hl, hlk⟩
    have hlen' : (new ++ queue).length + most ≤ n + c'.items.length := by
      rw [hall]
      simp only [length_append, length_cons] at hlen ⊢
      omega
    rw [hstep]
    obtain ⟨h₁, h₂, h₃⟩ := close_closed hnext hmost n c' (new ++ queue) hc' hP' hq' hcov' hlen'
    exact ⟨h₁, fun j hj => h₂ j (hsub j hj), h₃⟩

/-- All keys that items at a place can have, with the rules numbered from a number on. -/
def keys (place : Nat) : Nat → List Rule → List (Nat × Nat × Nat)
  | _, [] => []
  | n, r :: rules =>
    ((List.range (r.body.length + 1)).flatMap fun l =>
      (List.range (place + 1)).map fun o => (n, l, o)) ++ keys place (n + 1) rules

lemma foldl_sizes : ∀ (rules : List Rule) (m : Nat), rules.foldl (fun n r => n + (r.body.length + 1)) m
      = m + rules.foldl (fun n r => n + (r.body.length + 1)) 0
  | [], _ => rfl
  | r :: rules, m => by
    rw [foldl_cons, foldl_cons, foldl_sizes rules, foldl_sizes rules (0 + _)]
    omega

lemma length_keys (place : Nat) : ∀ (n : Nat) (rules : List Rule), (keys place n rules).length = keyCount rules place
  | _, [] => by simp [keys, keyCount]
  | n, r :: rules => by
    have hfirst : ((List.range (r.body.length + 1)).flatMap fun l =>
        (List.range (place + 1)).map fun o => (n, l, o)).length
        = (r.body.length + 1) * (place + 1) := by
      simp [length_flatMap]
    rw [keys, length_append, hfirst, length_keys place (n + 1) rules, keyCount, keyCount,
      foldl_cons, foldl_sizes rules (0 + _), Nat.zero_add, ← Nat.add_mul]

lemma mem_keys : ∀ {rules n m l o r},
    rules[m]? = some r → l ≤ r.body.length → o ≤ place → (n + m, l, o) ∈ keys place n rules
  | s :: rules, n, 0, l, o, r, h, hl, ho => by
    obtain rfl : s = r := by simpa using h
    refine mem_append_left _ (mem_flatMap.2 ⟨l, mem_range.2 (by omega), ?_⟩)
    exact mem_map.2 ⟨o, mem_range.2 (by omega), rfl⟩
  | s :: rules, n, m + 1, l, o, r, h, hl, ho => by
    have hrest : (n + 1 + m, l, o) ∈ keys place (n + 1) rules := mem_keys (by simpa using h) hl ho
    rw [Nat.add_right_comm] at hrest
    exact mem_append_right _ hrest
  | [], _, _, _, _, _, h, _, _ => by simp at h

/-- All items of a column are as its rules keep them, it has the like of each item it starts from, and it is
closed. -/
lemma column_closed (hstart : ∀ i ∈ start, P i) (hnext : ∀ i, P i → ∀ j ∈ consequences rules columns place i, P j)
    (hkey : ∀ i, P i → i.key ∈ keys place 0 rules) :
    (∀ i ∈ column rules columns place start, P i) ∧
    (∀ i ∈ start, HasKey (column rules columns place start) i.key) ∧
    ∀ i ∈ column rules columns place start, Covered rules columns place (column rules columns place start) i := by
  obtain ⟨c, new, hfold, hall, hc, hnew, hkeys⟩ := Column.foldl_add start Column.exact_empty []
  have hitems : c.items = new := by simpa using hall
  have hcolumn : column rules columns place start
      = (close rules columns place (keyCount rules place + 1) c new).items := by
    simp only [column, hfold, append_nil]
  have hmost : ∀ items : List Item, (items.map key).Nodup → (∀ i ∈ items, P i) →
      items.length ≤ keyCount rules place := by
    intro items hnodup hP
    have hsub : items.map key ⊆ keys place 0 rules := by
      intro key hmem
      obtain ⟨i, hi, rfl⟩ := mem_map.1 hmem
      exact hkey i (hP i hi)
    have hle := (subperm_of_subset hnodup hsub).length_le
    rwa [length_map, length_keys] at hle
  obtain ⟨h₁, h₂, h₃⟩ := close_closed hnext hmost (keyCount rules place + 1) c new hc
    (fun i hi => hstart i (hnew i (hitems ▸ hi))) (fun i hi => hitems ▸ hi)
    (fun i hi => .inl (hitems ▸ hi)) (by rw [hitems]; omega)
  rw [hcolumn]
  refine ⟨h₁, fun i hi => ?_, h₃⟩
  obtain ⟨j, hj, hjk⟩ := hkeys i hi
  exact ⟨j, h₂ j hj, hjk⟩

end

end Chart

/-! ### Charts are sound -/

/-- What an item knows behind some tokens: its trees spell what has been read of its rule, and have the tokens
since the rule began. -/
structure Item.Sound (rules : List Rule) (read : List Token) (i : Item) : Prop where
  spells : ∃ r past, rules[i.rule]? = some r ∧ r.head = i.head ∧ r.body = past ++ i.todo ∧
    Tree.SpellsAll rules past i.done.reverse
  origin : i.origin ≤ read.length
  tokens : tokensOf i.done.reverse = read.drop i.origin
  formed : ∀ t ∈ i.done, t.Formed

namespace Item.Sound

variable {rules : List Rule} {read : List Token} {i : Item}

lemma key_mem (hi : i.Sound rules read) : i.key ∈ keys read.length 0 rules := by
  obtain ⟨r, past, hr, -, hbody, -⟩ := hi.spells
  have hkey := mem_keys (n := 0) (l := i.todo.length) hr (by simp [hbody]) hi.origin
  rwa [Nat.zero_add] at hkey

lemma todo_eq (hi : i.Sound rules read) (hj : j.Sound rules read) (h : i.key = j.key) :
    i.rule = j.rule ∧ i.todo = j.todo ∧ i.origin = j.origin := by
  obtain ⟨hrule, hlength, horigin⟩ : i.rule = j.rule ∧ i.todo.length = j.todo.length ∧
      i.origin = j.origin := by simpa [key] using h
  obtain ⟨r, past, hr, -, hbody, -⟩ := hi.spells
  obtain ⟨r', past', hr', -, hbody', -⟩ := hj.spells
  rw [hrule, hr', some.injEq] at hr
  rw [← hr, hbody'] at hbody
  exact ⟨hrule, (append_inj_right' hbody hlength.symm).symm, horigin⟩

lemma predicted (hr : rules[n]? = some r) : Item.Sound rules read ⟨n, r.head, [], r.body, read.length⟩ where
  spells := ⟨r, [], hr, rfl, rfl, trivial⟩
  origin := .refl
  tokens := by simp [tokensOf]
  formed := by simp

lemma advanced {before : List Token} (hi : i.Sound rules before) (htodo : i.todo = s :: rest) (hs : t.Spells rules s)
    (hformed : t.Formed) (hread : before ++ t.tokens = read) : (i.advance t).Sound rules read where
  spells := by
    obtain ⟨r, past, hr, hhead, hbody, hspells⟩ := hi.spells
    refine ⟨r, past ++ [s], hr, hhead, ?_, ?_⟩
    · simp [advance, hbody, htodo]
    · simpa [advance] using spellsAll_concat hspells hs
  origin := by
    rw [← hread, length_append]
    exact Nat.le_add_right_of_le hi.origin
  tokens := by
    rw [advance, reverse_cons, tokensOf_concat, hi.tokens, ← hread, drop_append_of_le_length hi.origin]
  formed := forall_mem_cons.2 ⟨hformed, hi.formed⟩

lemma scanned (hi : i.Sound rules read) (htodo : i.todo = .terminal t :: rest) (h : t.accepts token = true) :
    (i.advance (t.leaf token)).Sound rules (read ++ [token]) :=
  hi.advanced htodo (spells_leaf h) (formed_leaf t token) (by rw [tokens_leaf])

lemma tree_spells (hi : i.Sound rules read) (htodo : i.todo = []) : i.tree.Spells rules (.sub i.head) := by
  obtain ⟨r, past, hr, hhead, hbody, hspells⟩ := hi.spells
  rw [htodo, append_nil] at hbody
  rw [tree, ← hhead]
  exact spells_form (mem_of_getElem? hr) (hbody ▸ hspells)

lemma tree_formed (hi : i.Sound rules read) : i.tree.Formed :=
  formed_form fun t ht => hi.formed t (mem_reverse.1 ht)

lemma completed {parent : Item} (hi : i.Sound rules read) (hdone : i.todo = [])
    (hp : parent.Sound rules (read.take i.origin)) (htodo : parent.todo = .sub i.head :: rest) :
    (parent.advance i.tree).Sound rules read := by
  refine hp.advanced htodo (hi.tree_spells hdone) hi.tree_formed ?_
  rw [tree, tokens_form, hi.tokens, take_append_drop]

lemma origin_lt (nonempty : ∀ r ∈ rules, r.body ≠ []) (hi : i.Sound rules read)
    (htodo : i.todo = []) : i.origin < read.length := by
  have hderives := derives_of_spells i.tree (hi.tree_spells htodo)
  have hne := hderives.ne_nil nonempty
  rw [tree, tokens_form, hi.tokens] at hne
  exact Nat.lt_of_not_le fun h => hne (drop_eq_nil_of_le h)

end Item.Sound

namespace Chart

variable {columns : Array (List Item)} {i : Item} {c : List Item} {tree : Tree}

/-- All columns that tokens lead through; behind a token that nothing can go on with they are
empty. -/
def trail (rules : List Rule) (columns : Array (List Item)) (current : List Item) : List Token → List (List Item)
  | [] => [current]
  | t :: rest =>
    current :: trail rules (columns.push current)
      (column rules (columns.push current) (columns.push current).size (scan t current)) rest

/-- The columns of some tokens, each made from those before it. -/
structure IsChart (rules : List Rule) (phrase : Nonterminal) (tokens : List Token)
    (cols : List (List Item)) : Prop where
  length : cols.length = tokens.length + 1
  first : cols[0]? = some (column rules #[] 0 (predict rules 0 phrase))
  next : ∀ {k : Nat} {t : Token} {c : List Item}, tokens[k]? = some t → cols[k]? = some c →
    cols[k + 1]? = some (column rules (cols.take (k + 1)).toArray (k + 1) (scan t c))

variable {rules : List Rule} {phrase : Nonterminal} {tokens : List Token} {cols : List (List Item)}

lemma column_nil (columns : Array (List Item)) (place : Nat) : column rules columns place [] = [] := by
  simp [column, close]

lemma length_trail : ∀ (tokens : List Token) (columns : Array (List Item)) (current : List Item),
    (trail rules columns current tokens).length = tokens.length + 1
  | [], _, _ => rfl
  | _ :: rest, _, _ => by simp [trail, length_trail rest]

lemma trail_head (tokens : List Token) (columns : Array (List Item)) (current : List Item) :
    (trail rules columns current tokens)[0]? = some current := by
  cases tokens <;> rfl

lemma trail_next : ∀ (tokens : List Token) (columns : Array (List Item)) (current : List Item)
    {k t c}, tokens[k]? = some t → (trail rules columns current tokens)[k]? = some c →
    (trail rules columns current tokens)[k + 1]? = some (column rules
      (columns.toList ++ (trail rules columns current tokens).take (k + 1)).toArray
      (columns.size + (k + 1)) (scan t c))
  | [], _, _, _, _, _, ht, _ => by simp at ht
  | t :: rest, columns, current, 0, u, c, ht, hc => by
    obtain rfl : t = u := by simpa using ht
    obtain rfl : current = c := by simpa [trail] using hc
    have hpush : (columns.toList ++ [current]).toArray = columns.push current :=
      Array.toList_inj.1 (by simp)
    simp [trail, trail_head, hpush]
  | t :: rest, columns, current, k + 1, u, c, ht, hc => by
    have ih := trail_next rest (columns.push current) (column rules (columns.push current)
      (columns.push current).size (scan t current)) (k := k) (t := u) (c := c) (by simpa using ht)
      (by simpa [trail] using hc)
    simp only [trail, List.getElem?_cons_succ, take_succ_cons]
    rw [ih]
    simp only [Array.toList_push, Array.size_push, append_assoc, singleton_append]
    rw [Nat.add_right_comm columns.size 1, Nat.add_assoc columns.size (k + 1)]

lemma getLast?_trail (t : Token) (rest : List Token) (columns : Array (List Item)) (current : List Item) :
    (trail rules columns current (t :: rest)).getLast? = (trail rules (columns.push current)
      (column rules (columns.push current) (columns.push current).size (scan t current)) rest).getLast? := by
  cases rest <;> rfl

lemma getLast?_trail_nil : ∀ (tokens : List Token) (columns : Array (List Item)),
    (trail rules columns [] tokens).getLast? = some []
  | [], _ => rfl
  | t :: rest, columns => by
    rw [getLast?_trail, scan, filterMap_nil, column_nil]
    exact getLast?_trail_nil rest (columns.push [])

lemma advance_eq : ∀ (tokens : List Token) (columns : Array (List Item)) (current : List Item),
    (∃ last, advance rules columns current tokens = .ok last ∧
      (trail rules columns current tokens).getLast? = some last) ∨
    (∃ stuck, advance rules columns current tokens = .error stuck) ∧
      (trail rules columns current tokens).getLast? = some []
  | [], _, current => .inl ⟨current, rfl, rfl⟩
  | t :: rest, columns, current => by
    rw [getLast?_trail]
    cases hscan : scan t current with
    | nil =>
      refine .inr ⟨⟨⟨expected current, some t⟩, by simp only [advance, hscan]⟩, ?_⟩
      rw [column_nil]
      exact getLast?_trail_nil rest (columns.push current)
    | cons i moved =>
      have hstep : advance rules columns current (t :: rest) = advance rules (columns.push current)
          (column rules (columns.push current) (columns.push current).size (i :: moved)) rest := by
        simp only [advance, hscan]
      rw [hstep]
      exact advance_eq rest _ _

/-! What the three moves of the parser bring in. -/

lemma mem_predict : j ∈ predict rules place phrase ↔ ∃ (n : Nat) (r : Rule), rules[n]? = some r ∧ r.head = phrase ∧
      j = ⟨n, r.head, [], r.body, place⟩ := by
  simp only [predict, rulesOf, List.mem_map, mem_filter, decide_eq_true_eq]
  constructor
  · rintro ⟨⟨r, n⟩, ⟨hmem, hr⟩, rfl⟩
    exact ⟨n, r, mk_mem_zipIdx_iff_getElem?.1 hmem, hr, rfl⟩
  · rintro ⟨n, r, hn, hr, rfl⟩
    exact ⟨(r, n), ⟨mk_mem_zipIdx_iff_getElem?.2 hn, hr⟩, rfl⟩

lemma mem_complete : j ∈ complete columns i ↔ ∃ c, columns[i.origin]? = some c ∧ ∃ parent ∈ c, ∃ rest,
      parent.todo = .sub i.head :: rest ∧ j = parent.advance i.tree := by
  simp only [complete, mem_filterMap]
  constructor
  · rintro ⟨parent, hmem, h⟩
    cases hc : columns[i.origin]? with
    | none => simp [hc] at hmem
    | some c =>
      rw [hc, getD_some] at hmem
      by_cases ha : parent.awaits i.head = true
      · rw [if_pos ha, some.injEq] at h
        obtain ⟨rest, hrest⟩ := List.head?_eq_some_iff.1 (by simpa [awaits] using ha)
        exact ⟨c, rfl, parent, hmem, rest, hrest, h.symm⟩
      · simp [ha] at h
  · rintro ⟨c, hc, parent, hmem, rest, htodo, rfl⟩
    exact ⟨parent, by simpa [hc] using hmem, by simp [awaits, htodo]⟩

lemma mem_scan : j ∈ scan t items ↔ ∃ i ∈ items, ∃ terminal rest, i.todo = .terminal terminal :: rest ∧
      terminal.accepts t = true ∧ j = i.advance (terminal.leaf t) := by
  simp only [scan, mem_filterMap]
  constructor
  · rintro ⟨i, hi, h⟩
    match htodo : i.todo with
    | [] | .sub _ :: _ => simp [terminal?, htodo] at h
    | .terminal terminal :: rest =>
      by_cases ha : terminal.accepts t = true
      · exact ⟨i, hi, terminal, rest, htodo, ha, by simpa [terminal?, htodo, ha] using h.symm⟩
      · simp [terminal?, htodo, ha] at h
  · rintro ⟨i, hi, terminal, rest, htodo, ha, rfl⟩
    exact ⟨i, hi, by simp [terminal?, htodo, ha]⟩

lemma consequences_sound {read : List Token}
    (hcolumns : ∀ (n : Nat) (c : List Item), columns[n]? = some c → ∀ i ∈ c, i.Sound rules (read.take n))
    (hi : i.Sound rules read) : ∀ j ∈ consequences rules columns read.length i, j.Sound rules read := by
  intro j hj
  match htodo : i.todo with
  | [] =>
    simp only [consequences, htodo] at hj
    obtain ⟨c, hc, parent, hmem, rest, hparent, rfl⟩ := mem_complete.1 hj
    exact hi.completed htodo (hcolumns _ c hc parent hmem) hparent
  | .sub p :: rest =>
    simp only [consequences, htodo] at hj
    obtain ⟨n, r, hn, rfl, rfl⟩ := mem_predict.1 hj
    exact .predicted hn
  | .terminal _ :: _ => simp [consequences, htodo] at hj

/-- A column of a chart, made from some start, is sound and closed when the columns before it and
the start are sound. -/
lemma column_spec (hk : k ≤ tokens.length)
    (hbefore : ∀ n < k, ∀ c, cols[n]? = some c → ∀ i ∈ c, i.Sound rules (tokens.take n))
    (hstart : ∀ i ∈ start, i.Sound rules (tokens.take k)) :
    (∀ i ∈ column rules (cols.take k).toArray k start, i.Sound rules (tokens.take k)) ∧
    (∀ i ∈ start, HasKey (column rules (cols.take k).toArray k start) i.key) ∧
    ∀ i ∈ column rules (cols.take k).toArray k start, Covered rules (cols.take k).toArray k
      (column rules (cols.take k).toArray k start) i := by
  have hlength : (tokens.take k).length = k := by rw [length_take]; omega
  refine column_closed hstart (fun i hi => ?_) (fun i hi => ?_)
  · have hcolumns : ∀ (n : Nat) (c : List Item), ((cols.take k).toArray)[n]? = some c →
        ∀ i ∈ c, i.Sound rules ((tokens.take k).take n) := by
      intro n c hc
      rw [List.getElem?_toArray, List.getElem?_take] at hc
      split at hc
      · next hn =>
        rw [take_take, Nat.min_eq_left (Nat.le_of_lt hn)]
        exact hbefore n hn c hc
      · simp at hc
    have hsound := consequences_sound hcolumns hi
    rwa [hlength] at hsound
  · have hkey := hi.key_mem
    rwa [hlength] at hkey

namespace IsChart

/-- The start of a column: what the phrase predicts, or what the last token moves on. -/
def IsStart (rules : List Rule) (phrase : Nonterminal) (tokens : List Token)
    (cols : List (List Item)) (k : Nat) (start : List Item) : Prop :=
  (k = 0 ∧ start = predict rules 0 phrase) ∨
  ∃ n t c, k = n + 1 ∧ tokens[n]? = some t ∧ cols[n]? = some c ∧ start = scan t c

lemma IsStart.unique : IsStart rules phrase tokens cols k start → IsStart rules phrase tokens cols k other →
    start = other := by
  rintro (⟨rfl, rfl⟩ | ⟨n, t, c, rfl, ht, hc, rfl⟩) (⟨hk, rfl⟩ | ⟨m, u, d, hk, hu, hd, rfl⟩)
  · rfl
  · exact absurd hk (Nat.succ_ne_zero m).symm
  · exact absurd hk (Nat.succ_ne_zero n)
  · obtain rfl : n = m := Nat.succ.inj hk
    rw [ht, some.injEq] at hu
    rw [hc, some.injEq] at hd
    rw [hu, hd]

lemma column_eq (h : IsChart rules phrase tokens cols) : ∀ {k c},
    cols[k]? = some c → k ≤ tokens.length ∧ ∃ start, IsStart rules phrase tokens cols k start ∧
      c = column rules (cols.take k).toArray k start
  | 0, c, hc => by
    rw [h.first, some.injEq] at hc
    exact ⟨Nat.zero_le _, _, .inl ⟨rfl, rfl⟩, by simpa using hc.symm⟩
  | k + 1, c, hc => by
    have hk : k + 1 < tokens.length + 1 := h.length ▸ (List.getElem?_eq_some_iff.1 hc).1
    obtain ⟨t, ht⟩ : ∃ t, tokens[k]? = some t := ⟨_, List.getElem?_eq_getElem (by omega)⟩
    obtain ⟨b, hb⟩ : ∃ b, cols[k]? = some b :=
      ⟨_, List.getElem?_eq_getElem (by rw [h.length]; omega)⟩
    rw [h.next ht hb, some.injEq] at hc
    exact ⟨by omega, _, .inr ⟨k, t, b, rfl, ht, hb, rfl⟩, hc.symm⟩

lemma start_sound (hstart : IsStart rules phrase tokens cols k start)
    (hbefore : ∀ n < k, ∀ c, cols[n]? = some c → ∀ i ∈ c, i.Sound rules (tokens.take n)) :
    ∀ i ∈ start, i.Sound rules (tokens.take k) := by
  rcases hstart with ⟨rfl, rfl⟩ | ⟨n, t, c, rfl, ht, hc, rfl⟩
  · intro i hi
    obtain ⟨m, r, hm, rfl, rfl⟩ := mem_predict.1 hi
    exact .predicted hm
  · intro i hi
    obtain ⟨j, hj, terminal, rest, htodo, ha, rfl⟩ := mem_scan.1 hi
    have htake : tokens.take (n + 1) = tokens.take n ++ [t] := by
      rw [take_add_one, ht]; rfl
    rw [htake]
    exact (hbefore n (Nat.lt_succ_self n) c hc j hj).scanned htodo ha

section

variable (h : IsChart rules phrase tokens cols)

include h

lemma sound (k : Nat) : ∀ c, cols[k]? = some c → ∀ i ∈ c, i.Sound rules (tokens.take k) := by
  induction k using Nat.strongRecOn with
  | ind k ih =>
    intro c hc
    obtain ⟨hk, start, hstart, rfl⟩ := h.column_eq hc
    exact (column_spec hk ih (start_sound hstart ih)).1

lemma closed (hc : cols[k]? = some c) :
    (∀ start, IsStart rules phrase tokens cols k start → ∀ i ∈ start, HasKey c i.key) ∧
    ∀ i ∈ c, Covered rules (cols.take k).toArray k c i := by
  obtain ⟨hk, start, hstart, rfl⟩ := h.column_eq hc
  have hspec := column_spec hk (fun n _ => h.sound n) (start_sound hstart fun n _ => h.sound n)
  refine ⟨fun other hother => ?_, hspec.2.2⟩
  rw [hother.unique hstart]
  exact hspec.2.1

/-! ### Charts are complete -/

/-- An item of a rule that waits for some symbols, begun at a place, stands in a column. -/
def Has (cols : List (List Item)) (k rule : Nat) (todo : List Symbol) (origin : Nat) : Prop :=
  ∃ c, cols[k]? = some c ∧ ∃ i ∈ c, i.rule = rule ∧ i.todo = todo ∧ i.origin = origin

lemma has_of_key (hc : cols[k]? = some c)
    (hj : j.Sound rules (tokens.take k)) (hkey : HasKey c j.key) : Has cols k j.rule j.todo j.origin := by
  obtain ⟨i, hi, hik⟩ := hkey
  exact ⟨c, hc, i, hi, (h.sound k c hc i hi).todo_eq hj hik⟩

lemma exists_column (hk : k ≤ tokens.length) : ∃ c, cols[k]? = some c :=
  ⟨_, List.getElem?_eq_getElem (by rw [h.length]; omega)⟩

lemma has_start (hn : rules[n]? = some r) (hr : r.head = phrase) : Has cols 0 n r.body 0 := by
  obtain ⟨c, hc⟩ := h.exists_column (Nat.zero_le _)
  have hmem : (⟨n, r.head, [], r.body, 0⟩ : Item) ∈ predict rules 0 phrase :=
    mem_predict.2 ⟨n, r, hn, hr, rfl⟩
  exact h.has_of_key hc (.predicted hn) ((h.closed hc).1 _ (.inl ⟨rfl, rfl⟩) _ hmem)

lemma has_predicted (hm : rules[m]? = some r) (hi : Has cols k n (.sub r.head :: rest) o) :
    Has cols k m r.body k := by
  obtain ⟨c, hc, i, hi, -, htodo, -⟩ := hi
  have hk := (h.column_eq hc).1
  have hj : (⟨m, r.head, [], r.body, k⟩ : Item) ∈ consequences rules (cols.take k).toArray k i := by
    simp only [consequences, htodo]
    exact mem_predict.2 ⟨m, r, hm, rfl, rfl⟩
  have hsound : Item.Sound rules (tokens.take k) ⟨m, r.head, [], r.body, k⟩ := by
    have hlength : (tokens.take k).length = k := by rw [length_take]; omega
    have hpredicted : Item.Sound rules (tokens.take k) ⟨m, r.head, [], r.body, (tokens.take k).length⟩ := .predicted hm
    rwa [hlength] at hpredicted
  exact h.has_of_key hc hsound ((h.closed hc).2 i hi _ hj)

lemma has_scanned {t : Terminal} (ht : tokens[k]? = some token) (ha : t.accepts token = true)
    (hi : Has cols k n (.terminal t :: rest) o) : Has cols (k + 1) n rest o := by
  obtain ⟨c, hc, i, hi, rfl, htodo, rfl⟩ := hi
  obtain ⟨d, hd⟩ := h.exists_column (k := k + 1) (List.getElem?_eq_some_iff.1 ht).1
  have htake : tokens.take (k + 1) = tokens.take k ++ [token] := by
    rw [take_add_one, ht]; rfl
  have hsound := (h.sound k c hc i hi).scanned htodo ha
  rw [← htake] at hsound
  have hmem : i.advance (t.leaf token) ∈ scan token c := mem_scan.2 ⟨i, hi, t, rest, htodo, ha, rfl⟩
  have hkey := (h.closed hd).1 _ (.inr ⟨k, token, c, rfl, ht, hc, rfl⟩) _ hmem
  have hhas := h.has_of_key hd hsound hkey
  simpa [Item.advance, htodo] using hhas

lemma has_completed (nonempty : ∀ r ∈ rules, r.body ≠ []) (hm : rules[m]? = some r)
    (hp : Has cols k n (.sub r.head :: rest) o) (hi : Has cols l m [] k) : Has cols l n rest o := by
  obtain ⟨c, hc, parent, hparent, rfl, hptodo, rfl⟩ := hp
  obtain ⟨d, hd, i, hi, rfl, htodo, rfl⟩ := hi
  have hsound := h.sound l d hd i hi
  obtain ⟨r', _, hr', hhead, -, -⟩ := hsound.spells
  obtain rfl : r = r' := by simpa [hm] using hr'
  have hlt : i.origin < l := Nat.lt_of_lt_of_le (hsound.origin_lt nonempty htodo)
    (by rw [length_take]; exact Nat.min_le_left _ _)
  have htake : (tokens.take l).take i.origin = tokens.take i.origin := by
    rw [take_take, Nat.min_eq_left (Nat.le_of_lt hlt)]
  rw [hhead] at hptodo
  have hj : parent.advance i.tree ∈ consequences rules (cols.take l).toArray l i := by
    simp only [consequences, htodo]
    refine mem_complete.2 ⟨c, ?_, parent, hparent, rest, hptodo, rfl⟩
    rw [List.getElem?_toArray, List.getElem?_take_of_lt hlt, hc]
  have hadvance := hsound.completed htodo (htake ▸ h.sound _ c hc parent hparent) hptodo
  have hhas := h.has_of_key hd hadvance ((h.closed hd).2 i hi _ hj)
  simpa [Item.advance, hptodo] using hhas

end

mutual

theorem has_of_derives (h : IsChart rules phrase tokens cols) (nonempty : ∀ r ∈ rules, r.body ≠ []) :
    ∀ {s u}, Derives rules s u → ∀ {k n o rest after}, tokens.drop k = u ++ after →
    Has cols k n (s :: rest) o → Has cols (k + u.length) n rest o
  | _, _, @Derives.terminal _ _ token ha, k, n, o, rest, after, htokens, hi => by
    refine h.has_scanned ?_ ha hi
    have hk : (tokens.drop k)[0]? = some token := by rw [htokens]; rfl
    simpa using hk
  | _, u, .phrase (r := r) known body, k, n, o, rest, after, htokens, hi => by
    obtain ⟨m, hm⟩ := List.getElem?_of_mem known
    have hbody : Has cols (k + u.length) m [] k := has_of_derivesAll h nonempty body htokens
      (by simpa using h.has_predicted hm hi)
    exact h.has_completed nonempty hm hi hbody

theorem has_of_derivesAll (h : IsChart rules phrase tokens cols) (nonempty : ∀ r ∈ rules, r.body ≠ []) :
    ∀ {symbols u}, DerivesAll rules symbols u → ∀ {k n o rest after}, tokens.drop k = u ++ after →
    Has cols k n (symbols ++ rest) o → Has cols (k + u.length) n rest o
  | _, _, .nil, _, _, _, _, _, _, hi => hi
  | _, _, .cons (u := u) (v := v) first others, k, n, o, rest, after, htokens, hi => by
    have hfirst := has_of_derives h nonempty first (by rw [htokens, append_assoc]) hi
    have hdrop : tokens.drop (k + u.length) = v ++ after := by
      rw [← drop_drop, htokens, append_assoc, drop_left]
    have hothers := has_of_derivesAll h nonempty others hdrop hfirst
    rwa [length_append, ← Nat.add_assoc]

end

end IsChart

/-! ### Parsing -/

lemma isChart_trail : IsChart rules phrase tokens
    (trail rules #[] (column rules #[] 0 (predict rules 0 phrase)) tokens) where
  length := length_trail _ _ _
  first := trail_head _ _ _
  next ht hc := by simpa using trail_next tokens #[] _ ht hc

def isWhole (phrase : Nonterminal) (i : Item) : Bool :=
  i.todo.isEmpty && i.head = phrase && i.origin = 0

lemma parse_eq_ok : parse rules phrase tokens = .ok tree ↔
    ∃ last i, (trail rules #[] (column rules #[] 0 (predict rules 0 phrase)) tokens).getLast?
      = some last ∧ last.find? (isWhole phrase) = some i ∧ i.tree = tree := by
  have hparse : parse rules phrase tokens =
      (advance rules #[] (column rules #[] 0 (predict rules 0 phrase)) tokens).bind fun last =>
        (last.find? (isWhole phrase)).elim (.error ⟨expected last, none⟩) fun i => .ok i.tree := by
    refine congrArg _ (funext fun last => ?_)
    unfold isWhole
    cases last.find? fun i => i.todo.isEmpty && i.head = phrase && i.origin = 0 <;> rfl
  rcases @advance_eq rules tokens #[] (column rules #[] 0 (predict rules 0 phrase)) with
    ⟨last, hok, hlast⟩ | ⟨⟨stuck, herror⟩, hlast⟩
  · rw [hparse, hok, hlast, Except.bind]
    cases hfind : last.find? (isWhole phrase) with
    | none => simp [hfind]
    | some i => simp [hfind]
  · rw [hparse, herror, hlast, Except.bind]
    simp

lemma parse_sound (h : parse rules phrase tokens = .ok tree) : tree.IsDerivation rules phrase tokens := by
  obtain ⟨last, i, hlast, hfind, rfl⟩ := parse_eq_ok.1 h
  have hwhole := List.find?_some hfind
  simp only [isWhole, List.isEmpty_iff, Bool.and_eq_true, decide_eq_true_eq] at hwhole
  obtain ⟨⟨htodo, rfl⟩, horigin⟩ := hwhole
  rw [List.getLast?_eq_getElem?, length_trail, Nat.add_sub_cancel] at hlast
  have hi := isChart_trail.sound _ last hlast i (List.mem_of_find?_eq_some hfind)
  rw [List.take_length] at hi
  refine ⟨hi.tree_spells htodo, hi.tree_formed, ?_⟩
  rw [tree, tokens_form, hi.tokens, horigin, drop_zero]

lemma parse_complete (nonempty : ∀ r ∈ rules, r.body ≠ [])
    (h : Derives rules (.sub phrase) tokens) : ∃ tree, parse rules phrase tokens = .ok tree := by
  cases h with
  | @phrase r _ known body =>
    obtain ⟨n, hn⟩ := List.getElem?_of_mem known
    have hchart : IsChart rules r.head tokens _ := isChart_trail
    have hstart := hchart.has_start hn rfl
    rw [← append_nil r.body] at hstart
    obtain ⟨last, hlast, i, hi, rfl, htodo, horigin⟩ :=
      hchart.has_of_derivesAll nonempty body (append_nil _).symm hstart
    have hsound := hchart.sound _ last hlast i hi
    obtain ⟨r', _, hr', hhead, -, -⟩ := hsound.spells
    obtain rfl : r = r' := by simpa [hn] using hr'
    have hwhole : isWhole r.head i = true := by simp [isWhole, htodo, horigin, hhead]
    obtain ⟨j, hj⟩ := isSome_iff_exists.1 (List.find?_isSome.2 ⟨i, hi, hwhole⟩)
    refine ⟨j.tree, parse_eq_ok.2 ⟨last, j, ?_, hj, rfl⟩⟩
    rw [List.getLast?_eq_getElem?, length_trail, Nat.add_sub_cancel, ← hlast, Nat.zero_add]

end Chart

namespace Grammar

lemma body_ne_nil : ∀ r ∈ rules, r.body ≠ [] := by
  simp only [rules, unitRules, definitionRules, statementRules, expressionRules]
  decide +kernel

end Grammar

lemma Tree.ofTokens_eq_ok (source : String) {tokens : List Token} (h : tokens ≠ []) (tree : Tree) :
    ofTokens source tokens = .ok tree ↔ parse Grammar.rules .unit tokens = .ok tree := by
  cases tokens with
  | nil => contradiction
  | cons t rest =>
    simp only [ofTokens]
    split <;> simp_all

end Workflow
