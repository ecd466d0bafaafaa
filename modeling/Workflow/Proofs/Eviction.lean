import Mathlib.Data.List.Dedup
import Mathlib.Data.List.Perm.Subperm
import Workflow.Proofs.Sessions

/-!
What a session drops. A source that is compiled takes the first place, and the oldest entry goes when there is
no room; a source that is found stays where it is, so a session is a queue. The place is taken before the source
is compiled, so a source that does not compile drops the oldest entry as well.
-/

namespace Workflow

open List Digest Session

/-- A queue of at most `c` digests, the latest first, after a request for one. -/
def Session.enqueue (c : Nat) (keys : List String) (key : String) : List String :=
  if key ∈ keys then keys else (key :: keys).take c

namespace Session

variable {s : Session} {files : Files} {source name key : String}

def keys (s : Session) : List String := s.entries.map (·.1)

/-- No digest has two entries, and there is room for all of them. -/
structure Tidy (s : Session) : Prop where
  nodup : s.keys.Nodup
  bounded : s.keys.length ≤ s.capacity

lemma capacity_pos (s : Session) : 0 < s.capacity := by
  rw [capacity]
  omega

lemma keys_put (s : Session) (key : String) :
    (s.put key none).keys = (key :: s.keys.filter (· ≠ key)).take s.capacity := by
  simp only [keys, put, map_take, map_cons, filter_map]
  rfl

lemma keys_fill (s : Session) (files : Files) (key source name : String) :
    (s.fill files key source name).1.keys = s.keys := by
  unfold fill
  dsimp only
  split
  · rfl
  · simp only [keys, fillEntry, map_map]
    refine map_congr_left fun e _ => ?_
    by_cases he : e.1 = key <;> simp [he]

lemma entries_fill (h : Workflow.compile s.config files source name = .ok c) :
    (s.fill files key source name).1.entries =
      s.entries.map fun e => if e.1 = key then (key, some ⟨s.units, c⟩) else e := by
  simp [fill, fillEntry, h]

lemma Tidy.put (h : s.Tidy) (key : String) : (s.put key none).Tidy where
  nodup := by
    rw [keys_put]
    refine Nodup.sublist (take_sublist _ _) (nodup_cons.2 ⟨?_, h.nodup.filter _⟩)
    simp
  bounded := by
    rw [keys_put]
    exact length_take_le _ _

lemma Tidy.fill (h : s.Tidy) : (s.fill files key source name).1.Tidy := by
  have hcapacity : (s.fill files key source name).1.capacity = s.capacity := by
    rw [capacity, capacity, fill_config]
  exact ⟨(keys_fill ..).symm ▸ h.nodup, (keys_fill ..).symm ▸ hcapacity ▸ h.bounded⟩

lemma Tidy.compile (h : s.Tidy) : (s.compile files source name).1.Tidy := by
  rcases s.compile_cases files source name with ⟨_, _, _, heq⟩ | ⟨_, t, ⟨_, rfl⟩ | rfl, heq⟩ <;> rw [heq]
  · exact ⟨h.nodup, h.bounded⟩
  · exact h.fill
  · exact (h.put _).fill

lemma capacity_compile (s : Session) (files : Files) (source name : String) :
    (s.compile files source name).1.capacity = s.capacity := by
  rw [capacity, capacity, compile_config]

/-! ### Requests that succeed -/

/-- Every entry has a unit, and one without imports. -/
structure Settled (s : Session) : Prop extends Tidy s where
  filled : ∀ e ∈ s.entries, ∃ cached, e.2 = some cached
  alone : s.All fun _ cached => cached.compiled.importPaths = [] ∧ cached.compiled.imports = []

lemma Settled.isSome_unit? (h : s.Settled) : (s.unit? source).isSome ↔ ofText source ∈ s.keys := by
  rw [unit?, keys, mem_map]
  constructor
  · intro hsome
    obtain ⟨cached, hunit⟩ := Option.isSome_iff_exists.1 hsome
    obtain ⟨e, hfind, -⟩ := Option.bind_eq_some_iff.1 hunit
    exact ⟨e, mem_of_find?_eq_some hfind, by simpa using find?_some hfind⟩
  · rintro ⟨e, he, hkey⟩
    have hfound : (s.entries.find? (·.1 = ofText source)).isSome :=
      find?_isSome.2 ⟨e, he, decide_eq_true hkey⟩
    obtain ⟨e', hfind⟩ := Option.isSome_iff_exists.1 hfound
    obtain ⟨cached, hcached⟩ := h.filled e' (mem_of_find?_eq_some hfind)
    simp [hfind, hcached]

lemma isFresh_alone {c : Compiled} (h : c.importPaths = [] ∧ c.imports = []) : isFresh files name c = true := by
  simp [isFresh, h.1, h.2]

/-- A source that compiles and imports nothing. -/
def Compiles (config : CompilerConfig) (files : Files) (source name : String) : Prop :=
  ∃ c, Workflow.compile config files source name = .ok c ∧ c.importPaths = []

lemma imports_of_alone {config : CompilerConfig} (h : Workflow.compile config files source name = .ok c)
    (hpaths : c.importPaths = []) : c.imports = [] := by
  obtain ⟨root, loaded, hroot, hloaded, -, -, himports⟩ := loaded_of_compile h
  rw [himports, load_of_alone h hpaths hroot hloaded]

/-- A request for a source that is there changes nothing but the count of hits; any other source takes
the first place. -/
lemma Settled.compile (h : s.Settled) (hcompiles : Compiles s.config files source name) :
    (s.compile files source name).1.Settled ∧
      (s.compile files source name).1.keys = enqueue s.capacity s.keys (ofText source) := by
  obtain ⟨c, hc, hpaths⟩ := hcompiles
  rcases s.compile_cases files source name with ⟨cached, hunit, _, heq⟩ | ⟨hstale, t, ⟨hempty, rfl⟩ | rfl, heq⟩
  · have hkept : ofText source ∈ s.keys := h.isSome_unit?.1 (hunit ▸ rfl)
    rw [heq, enqueue, if_pos hkept]
    exact ⟨⟨⟨h.nodup, h.bounded⟩, h.filled, h.alone⟩, rfl⟩
  · obtain ⟨_, hfilled⟩ := h.filled _ hempty
    cases hfilled
  · have hnew : ofText source ∉ s.keys := fun hkept => by
      obtain ⟨cached, hunit⟩ := Option.isSome_iff_exists.1 (h.isSome_unit?.2 hkept)
      exact absurd (isFresh_alone (h.alone.unit? hunit)) (Bool.eq_false_iff.1 (hstale cached hunit))
    have htidy : (s.compile files source name).1.Tidy := h.toTidy.compile
    have hrest : s.keys.filter (· ≠ ofText source) = s.keys :=
      filter_eq_self.2 fun k hk => decide_eq_true fun hkey : k = ofText source => hnew (hkey ▸ hk)
    refine ⟨⟨htidy, ?_, h.alone.compile fun cached hcached => ?_⟩, ?_⟩
    · intro e he
      rw [heq, entries_fill (s := s.put (ofText source) none) hc] at he
      obtain ⟨e', he', rfl⟩ := mem_map.1 he
      split
      · exact ⟨_, rfl⟩
      · next hother =>
        rcases mem_cons.1 (mem_of_mem_take he') with rfl | hold
        · exact absurd rfl hother
        · exact h.filled _ (mem_of_mem_filter hold)
    · cases hc.symm.trans hcached
      exact ⟨hpaths, imports_of_alone hc hpaths⟩
    · rw [heq, keys_fill, keys_put, hrest, enqueue, if_neg hnew]

/-- A session after requests for sources under names. -/
def serve (files : Files) (s : Session) (requests : List (String × String)) : Session :=
  requests.foldl (fun s r => (s.compile files r.1 r.2).1) s

lemma Settled.serve : ∀ (requests : List (String × String)) {s : Session}, s.Settled →
    (∀ r ∈ requests, Compiles s.config files r.1 r.2) → (serve files s requests).Settled ∧
      (serve files s requests).keys = (requests.map (ofText ·.1)).foldl (enqueue s.capacity) s.keys
  | [], _, h, _ => ⟨h, rfl⟩
  | r :: requests, s, h, hcompiles => by
    obtain ⟨hnext, hkeys⟩ := h.compile (hcompiles r mem_cons_self)
    obtain ⟨hlast, hqueue⟩ := Settled.serve requests hnext fun r' hr' => by
      rw [compile_config]
      exact hcompiles r' (.tail _ hr')
    refine ⟨hlast, hqueue.trans ?_⟩
    rw [hkeys, capacity_compile, map_cons, foldl_cons]

lemma settled_new (config : CompilerConfig) : Settled { config := config } :=
  ⟨⟨nodup_nil, Nat.zero_le _⟩, nofun, nofun⟩

/-- Nothing leaves a queue that has room for all that is asked for. -/
lemma mem_foldl_enqueue {all : List String} (hroom : all.length ≤ c) : ∀ (asked keys : List String),
    keys.Nodup → keys ⊆ all → asked ⊆ all →
      (asked.foldl (enqueue c) keys).Nodup ∧ ∀ k, k ∈ asked.foldl (enqueue c) keys ↔ k ∈ asked ∨ k ∈ keys
  | [], keys, hnodup, _, _ => ⟨hnodup, by simp⟩
  | key :: asked, keys, hnodup, hkeys, hasked => by
    obtain ⟨hkey, hasked⟩ := cons_subset.1 hasked
    rw [foldl_cons, enqueue]
    split
    · next hkept =>
      obtain ⟨hn, hmem⟩ := mem_foldl_enqueue hroom asked keys hnodup hkeys hasked
      refine ⟨hn, fun k => (hmem k).trans ⟨?_, ?_⟩⟩
      · exact fun h => h.imp_left (.tail _)
      · rintro (h | h)
        · rcases mem_cons.1 h with rfl | h
          · exact .inr hkept
          · exact .inl h
        · exact .inr h
    · next hnew =>
      have hnodup' : (key :: keys).Nodup := nodup_cons.2 ⟨hnew, hnodup⟩
      have hfits := ((subperm_of_subset hnodup' (cons_subset.2 ⟨hkey, hkeys⟩)).length_le).trans hroom
      rw [take_of_length_le hfits]
      obtain ⟨hn, hmem⟩ := mem_foldl_enqueue hroom asked (key :: keys) hnodup' (cons_subset.2 ⟨hkey, hkeys⟩) hasked
      exact ⟨hn, fun k => by rw [hmem k, mem_cons, mem_cons]; tauto⟩

lemma foldl_enqueue_perm {asked : List String} (hroom : asked.dedup.length ≤ c) :
    asked.foldl (enqueue c) [] ~ asked.dedup.reverse.take c := by
  obtain ⟨hnodup, hmem⟩ := mem_foldl_enqueue hroom asked [] nodup_nil (nil_subset _) fun k hk => mem_dedup.2 hk
  rw [take_of_length_le (length_reverse.trans_le hroom)]
  refine (perm_ext_iff_of_nodup hnodup (nodup_reverse.2 (nodup_dedup _))).2 fun k => (hmem k).trans ?_
  simp

/-- A session over sources without imports is a queue: a source that is found keeps its place. As long as there
is room for all sources asked for, this makes no difference. -/
theorem serve_queues {config : CompilerConfig} {requests : List (String × String)}
    (h : ∀ r ∈ requests, Compiles config files r.1 r.2) :
    (serve files { config := config } requests).keys =
        (requests.map (ofText ·.1)).foldl (enqueue (max config.cacheCapacity 1)) [] ∧
      (∀ source, ((serve files { config := config } requests).unit? source).isSome ↔
        ofText source ∈ (serve files { config := config } requests).keys) ∧
      ((requests.map (ofText ·.1)).dedup.length ≤ max config.cacheCapacity 1 →
        (serve files { config := config } requests).keys ~
          (requests.map (ofText ·.1)).dedup.reverse.take (max config.cacheCapacity 1)) := by
  obtain ⟨hsettled, hkeys⟩ := (settled_new config).serve requests h
  exact ⟨hkeys, fun source => hsettled.isSome_unit?, fun hroom => hkeys ▸ foldl_enqueue_perm hroom⟩

lemma compiles_blank (config : CompilerConfig) (hsource : source ∈ ["", "\n", "\n\n"]) :
    Compiles config [] source "main" := by
  have hblank : ∀ source ∈ ["", "\n", "\n\n"], Program.compilesTo [] source "main"
      (fun root _ _ => (Loaded.importPaths root).isEmpty) = true := by decide +kernel
  obtain ⟨root, loaded, c, hroot, hloaded, hc, hpaths⟩ := Program.exists_of_compilesTo (hblank source hsource)
  obtain ⟨-, u, -, hu⟩ := compile_of_clean hroot hloaded (noErrors_of_compile hroot hloaded hc) config
  exact ⟨_, hu, by rw [isEmpty_iff.1 hpaths]; rfl⟩

/-- Three sources, the first of which is asked for again before the last. -/
def blankRequests : List (String × String) := [("", "main"), ("\n", "main"), ("", "main"), ("\n\n", "main")]

lemma compiles_blankRequests (config : CompilerConfig) : ∀ r ∈ blankRequests, Compiles config [] r.1 r.2 := by
  simp only [blankRequests, forall_mem_cons]
  simp [compiles_blank]

theorem serve_queues_blank : (∀ r ∈ blankRequests, Compiles { cacheCapacity := 3 } [] r.1 r.2) ∧
    (blankRequests.map (ofText ·.1)).dedup.length ≤ 3 ∧
    (serve [] { config := { cacheCapacity := 3 } } blankRequests).keys ~
      (blankRequests.map (ofText ·.1)).dedup.reverse.take 3 := by
  have hroom : (blankRequests.map (ofText ·.1)).dedup.length ≤ 3 := by decide +kernel
  have hcompiles := compiles_blankRequests { cacheCapacity := 3 }
  exact ⟨hcompiles, hroom, (serve_queues hcompiles).2.2 hroom⟩

/-- With room for two, the source that was asked for last but one is gone. -/
theorem serve_forgets : (∀ r ∈ blankRequests, Compiles { cacheCapacity := 2 } [] r.1 r.2) ∧
    ¬ (serve [] { config := { cacheCapacity := 2 } } blankRequests).keys ~
      (blankRequests.map (ofText ·.1)).dedup.reverse.take 2 := by
  have hcompiles := compiles_blankRequests { cacheCapacity := 2 }
  refine ⟨hcompiles, ?_⟩
  rw [((settled_new _).serve blankRequests hcompiles).2]
  decide +kernel

/-! ### Requests that fail -/

/-- A request that fails makes place for its source, unless there is an empty one already. -/
lemma compile_failed (h : (s.compile files source name).2 = .error e) :
    (∀ cached, s.unit? source = some cached → isFresh files name cached.compiled = false) ∧
      (s.compile files source name).1.registry = s.registry ∧
      ((ofText source, none) ∈ s.entries ∧ (s.compile files source name).1.entries = s.entries ∨
        (s.compile files source name).1.entries = (s.put (ofText source) none).entries) := by
  have hfill : ∀ t : Session, (t.fill files (ofText source) source name).2 = .error e →
      (t.fill files (ofText source) source name).1.registry = t.registry ∧
      (t.fill files (ofText source) source name).1.entries = t.entries := by
    intro t ht
    unfold fill at ht ⊢
    dsimp only at ht ⊢
    split at ht
    · exact ⟨rfl, rfl⟩
    · cases ht
  rcases s.compile_cases files source name with ⟨_, _, _, heq⟩ | ⟨hstale, t, ⟨hempty, rfl⟩ | rfl, heq⟩
  · rw [heq] at h
    cases h
  · rw [heq] at h ⊢
    exact ⟨hstale, (hfill _ h).1, .inl ⟨hempty, (hfill _ h).2⟩⟩
  · rw [heq] at h ⊢
    exact ⟨hstale, (hfill _ h).1, .inr (hfill _ h).2⟩

lemma unit?_of_empty (h : s.Tidy) (hempty : (ofText source, none) ∈ s.entries) : s.unit? source = none := by
  refine Option.eq_none_iff_forall_ne_some.2 fun cached hunit => ?_
  obtain ⟨e, hfind, he⟩ := Option.bind_eq_some_iff.1 hunit
  have hkey : e.1 = ofText source := by simpa using find?_some hfind
  rw [inj_on_of_nodup_map h.nodup (mem_of_find?_eq_some hfind) hempty hkey] at he
  cases he

lemma mem_put (s : Session) (key : String) : (key, none) ∈ (s.put key none).entries := by
  obtain ⟨n, hn⟩ := Nat.exists_eq_succ_of_ne_zero s.capacity_pos.ne'
  rw [put, hn, take_succ_cons]
  exact mem_cons_self

lemma entries_put_of_room (h : s.Tidy) (hroom : key ∈ s.keys ∨ s.entries.length < s.capacity) :
    (s.put key none).entries = (key, none) :: s.entries.filter (·.1 ≠ key) := by
  refine take_of_length_le ?_
  have hbounded : s.entries.length ≤ s.capacity := by simpa [keys] using h.bounded
  rw [length_cons]
  rcases hroom with hkey | hroom
  · obtain ⟨e, he, rfl⟩ := mem_map.1 hkey
    have := (length_filter_lt_length_iff_exists (p := fun e' => decide (e'.1 ≠ e.1))).2 ⟨e, he, by simp⟩
    omega
  · have := length_filter_le (fun e => decide (e.1 ≠ key)) s.entries
    omega

lemma entries_put_of_full (h : s.Tidy) (hentries : s.entries = first ++ [last]) (hkey : key ∉ s.keys)
    (hfull : s.capacity ≤ s.entries.length) : (s.put key none).entries = (key, none) :: first := by
  have hrest : s.entries.filter (·.1 ≠ key) = s.entries :=
    filter_eq_self.2 fun e he => decide_eq_true fun h : e.1 = key => hkey (h ▸ mem_map_of_mem he)
  have hlength : s.capacity = first.length + 1 := by
    have hbounded := h.bounded
    simp only [keys, hentries, length_map, length_append, length_singleton] at hbounded hfull
    omega
  rw [put, hrest, hlength, hentries, take_succ_cons, take_left]

/-- Making place leaves all other units there, unless the entry that has to go for it has one. -/
lemma unit?_put_iff (h : s.Tidy) (hdigests : s.All fun key _ => ∃ text, ofText text = key) :
    (∀ other, ofText other ≠ ofText source → (s.put (ofText source) none).unit? other = s.unit? other) ↔
      ofText source ∈ s.keys ∨ s.entries.length < s.capacity ∨ ∃ key, s.entries.getLast? = some (key, none) := by
  by_cases hroom : ofText source ∈ s.keys ∨ s.entries.length < s.capacity
  · refine iff_of_true (fun other hother => ?_) (hroom.imp_right .inl)
    rw [unit?, entries_put_of_room h hroom, find?_cons_of_neg (by simpa using Ne.symm hother), find?_filter, unit?]
    congr 2
    funext e
    by_cases he : e.1 = ofText other <;> simp [he, hother]
  obtain ⟨hkey, hfull⟩ := not_or.1 hroom
  rw [not_lt] at hfull
  obtain hnil | ⟨first, ⟨k, entry⟩, hentries⟩ := eq_nil_or_concat' s.entries
  · rw [hnil] at hfull
    exact absurd s.capacity_pos (Nat.not_lt.2 hfull)
  have hlast : s.entries.getLast? = some (k, entry) := by rw [hentries, getLast?_concat]
  have hput := entries_put_of_full h hentries hkey hfull
  have hunits : ∀ other, ofText other ≠ ofText source →
      (s.put (ofText source) none).unit? other = (first.find? (·.1 = ofText other)).bind (·.2) := by
    intro other hother
    rw [unit?, hput, find?_cons_of_neg (by simpa using Ne.symm hother)]
  cases entry with
  | none =>
    refine iff_of_true (fun other hother => ?_) (.inr (.inr ⟨k, hlast⟩))
    rw [hunits other hother, unit?, hentries, find?_append]
    cases first.find? (·.1 = ofText other) with
    | some e => rfl
    | none => by_cases hk : k = ofText other <;> simp [hk]
  | some cached =>
    have hmem : (k, some cached) ∈ s.entries := hentries ▸ mem_append_right _ mem_cons_self
    -- the unit that goes is one of a text, which is no longer found
    obtain ⟨text, rfl⟩ := hdigests k cached hmem
    have hother : ofText text ≠ ofText source := fun heq => hkey (heq ▸ mem_map_of_mem hmem)
    have hgone : first.find? (·.1 = ofText text) = none := by
      have hnodup := h.nodup
      rw [keys, hentries, map_append, nodup_append] at hnodup
      refine find?_eq_none.2 fun e he heq => ?_
      exact hnodup.2.2 _ (mem_map_of_mem he) _ mem_cons_self (of_decide_eq_true heq)
    refine iff_of_false (fun hall => ?_) ?_
    · have hlost := hall text hother
      rw [hunits text hother, unit?, hentries, find?_append, hgone] at hlost
      simp at hlost
    · simp [hkey, Nat.not_lt.2 hfull, hlast]

end Session

namespace Desk

variable {config : CompilerConfig} {registry : Registry} {files : Files} {actions : List Action} {d : Desk}

lemma tidy_act (h : d.session.Tidy) (a : Action) : (d.act a).session.Tidy := by
  cases a with
  | put file text | validate source name => exact h
  | compile source name => exact h.compile
  | clear => exact ⟨nodup_nil, Nat.zero_le _⟩

lemma tidy_after (config : CompilerConfig) (registry : Registry) (files : Files) (actions : List Action) :
    ((start config registry files).after actions).session.Tidy := by
  refine foldlRecOn actions act (motive := fun d => d.session.Tidy) ?_ fun d hd a _ => tidy_act hd a
  exact ⟨nodup_nil, Nat.zero_le _⟩

/-- A request that fails leaves the registry as it was and has no unit for its source, which had no fresh one.
All other units stay exactly if the source had an entry, there was room for one more, or the oldest entry had no
unit. -/
theorem failure_drops (hdesk : (start config registry files).after actions = d) {source name : String}
    {e : CompileError} (hfail : (d.session.compile d.files source name).2 = .error e) :
    (d.act (.compile source name)).session.registry = d.session.registry ∧
      (∀ cached, d.session.unit? source = some cached → isFresh d.files name cached.compiled = false) ∧
      (d.act (.compile source name)).session.unit? source = none ∧
      ((∀ other, ofText other ≠ ofText source →
          (d.act (.compile source name)).session.unit? other = d.session.unit? other) ↔
        ofText source ∈ d.session.keys ∨ d.session.entries.length < d.session.capacity ∨
          ∃ key, d.session.entries.getLast? = some (key, none)) := by
  obtain ⟨hstale, hregistry, hentries⟩ := compile_failed hfail
  have htidy : d.session.Tidy := hdesk ▸ tidy_after config registry files actions
  have hdigests : d.session.All fun key _ => ∃ text, ofText text = key := fun key cached hmem => by
    obtain ⟨-, text, -, htext, -⟩ := (hdesk ▸ sound_of_texts config registry files (Subset.refl actions)).units
      key cached hmem
    exact ⟨text, htext⟩
  have hunit : ∀ {t : Session}, (d.act (.compile source name)).session.entries = t.entries → ∀ other,
      (d.act (.compile source name)).session.unit? other = t.unit? other := fun h other => by
    rw [unit?, h, unit?]
  refine ⟨hregistry, hstale, unit?_of_empty (tidy_act htidy _) ?_, ?_⟩
  · rcases hentries with ⟨hempty, heq⟩ | heq
    · exact heq ▸ hempty
    · exact heq ▸ mem_put ..
  · rcases hentries with ⟨hempty, heq⟩ | heq
    · exact iff_of_true (fun other _ => hunit heq other) (.inl (mem_map_of_mem hempty))
    · simp only [hunit heq]
      exact unit?_put_iff htidy hdigests

/-- A session that has compiled the empty source. -/
def blankDesk (config : CompilerConfig) : Desk := (start config [] []).after [.compile "" "main"]

lemma entries_blankDesk (config : CompilerConfig) : ∃ c,
    (blankDesk config).session.entries = [(ofText "", some ⟨0, c⟩)] ∧ c.importPaths = [] ∧ c.imports = [] := by
  obtain ⟨c, hc, hpaths⟩ := compiles_blank config mem_cons_self
  exact ⟨c, entries_new hc, hpaths, imports_of_alone hc hpaths⟩

lemma capacity_blankDesk (config : CompilerConfig) :
    (blankDesk config).session.capacity = max config.cacheCapacity 1 :=
  capacity_compile ..

lemma keys_differ : ofText "" ≠ ofText "?" := by decide +kernel

lemma fails_blankDesk (config : CompilerConfig) :
    ∃ e, ((blankDesk config).session.compile (blankDesk config).files "?" "main").2 = .error e := by
  obtain ⟨c, hentries, -⟩ := entries_blankDesk config
  have hparse : (Program.ofSource "?" "main").isOk = false := by decide +kernel
  cases hfail : ((blankDesk config).session.compile (blankDesk config).files "?" "main").2 with
  | error e => exact ⟨e, rfl⟩
  | ok cached =>
    have hcompile : ((blankDesk config).session.compile (blankDesk config).files "?" "main").2.map
        Cached.compiled = compile (blankDesk config).session.config (blankDesk config).files "?" "main" :=
      compile_of_stale fun cached h => by simp [unit?, hentries, keys_differ] at h
    rw [hfail] at hcompile
    obtain ⟨root, -, hroot, -⟩ := exists_of_compile hcompile.symm
    rw [hroot] at hparse
    cases hparse

theorem failure_drops_none : ∃ cached e, (start {} [] []).after [.compile "" "main"] = blankDesk {} ∧
    (blankDesk {}).session.unit? "" = some cached ∧
    ((blankDesk {}).session.compile (blankDesk {}).files "?" "main").2 = .error e ∧
    ((blankDesk {}).act (.compile "?" "main")).session.registry = (blankDesk {}).session.registry ∧
    ((blankDesk {}).act (.compile "?" "main")).session.unit? "" = some cached := by
  obtain ⟨c, hentries, -⟩ := entries_blankDesk {}
  obtain ⟨e, hfail⟩ := fails_blankDesk {}
  have hunit : (blankDesk {}).session.unit? "" = some ⟨0, c⟩ := by simp [unit?, hentries]
  have hroom : (blankDesk {}).session.entries.length < (blankDesk {}).session.capacity := by
    rw [hentries, length_singleton, capacity_blankDesk]
    decide
  obtain ⟨hregistry, -, -, hunits⟩ := failure_drops (rfl : _ = blankDesk {}) hfail
  exact ⟨⟨0, c⟩, e, rfl, hunit, hfail, hregistry, (hunits.2 (.inr (.inl hroom)) "" keys_differ).trans hunit⟩

/-- With room for one, a source that does not compile drops the unit of another. -/
theorem failure_loses : ∃ cached e, (blankDesk { cacheCapacity := 1 }).session.unit? "" = some cached ∧
    isFresh (blankDesk { cacheCapacity := 1 }).files "main" cached.compiled = true ∧
    ((blankDesk { cacheCapacity := 1 }).session.compile (blankDesk { cacheCapacity := 1 }).files "?" "main").2 =
      .error e ∧
    ((blankDesk { cacheCapacity := 1 }).act (.compile "?" "main")).session.unit? "" = none := by
  obtain ⟨c, hentries, halone⟩ := entries_blankDesk { cacheCapacity := 1 }
  obtain ⟨e, hfail⟩ := fails_blankDesk { cacheCapacity := 1 }
  refine ⟨⟨0, c⟩, e, by simp [unit?, hentries], isFresh_alone halone, hfail, ?_⟩
  obtain ⟨-, -, ⟨hempty, -⟩ | hput⟩ := compile_failed hfail
  · simp [hentries] at hempty
  · rw [session_compile, unit?, hput, put, capacity_blankDesk, max_self, take_succ_cons, take_zero]
    simp [keys_differ.symm]

end Desk
end Workflow
