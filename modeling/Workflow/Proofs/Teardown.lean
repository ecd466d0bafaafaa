import Workflow.Proofs.Compilation
import Workflow.Proofs.Notes
import Workflow.Proofs.Sequel

/-!
The end of a run. A run whose start handlers succeed tears down each hierarchy that it has laid out, once and
after all other events, whether its entry succeeds or not. A run that fails in a start handler leaves open what
the handler has laid out. `Running.Closing` says of the tasks of a machine that all is quiet until the first of
them notes the teardown.
-/

namespace Workflow

open List Hierarchy Context

/-! ### Kinds of tasks -/

def Process.closing (o : Outcome) : Process Outcome := .tell [.teardown] fun _ => .done o

/-- Under its time limits a process tells notes of a kind, and then comes to the teardown. -/
def Limit.Closing (N : Note → Prop) : List Limit → Process Outcome → Prop
  | [], q => ∃ p : Process Outcome, p.Tells N ∧ q = p.bind .closing
  | l :: rest, q => q.Tells N ∧ ∀ o, Closing N rest (l.next o)

namespace Running

open Machine (told)

variable {N : Note → Prop} {t : Running}

/-- A task tells notes of a kind, also when its time limits are over. Only the first task has no parent. -/
structure Tells (N : Note → Prop) (t : Running) : Prop where
  first : t.parent = none → t.id = 0
  process : t.process.Tells N
  limits : ∀ l ∈ t.limits, ∀ o, (l.next o).Tells N

/-- The first task is on the way to the teardown, and the others tell notes of a kind. -/
def Closing (N : Note → Prop) (t : Running) : Prop :=
  match t.parent with
  | none => Limit.Closing N t.limits t.process
  | some _ => t.Tells N

lemma outlasts_tells : Outlasts (Tells N) := by
  rintro id parent l rest p ⟨hfirst, -, hlimits⟩
  obtain ⟨hl, hrest⟩ := forall_mem_cons.1 hlimits
  exact ⟨hfirst, hl none, hrest⟩

lemma Tells.onward (h : t.Tells N) : t.Onward (Tells N) := by
  obtain ⟨id, parent, limits, process⟩ := t
  obtain ⟨hfirst, hprocess, hlimits⟩ := h
  cases process with
  | done o =>
    rintro l rest rfl
    obtain ⟨hl, hrest⟩ := forall_mem_cons.1 hlimits
    exact ⟨hfirst, hl _, hrest⟩
  | stuck => trivial
  | tell notes next => exact ⟨hfirst, hprocess.2, hlimits⟩
  | ask request next => exact fun reply => ⟨hfirst, hprocess reply, hlimits⟩
  | sleep time next => exact ⟨hfirst, hprocess, hlimits⟩
  | within limit body next => exact fun _ => ⟨hfirst, hprocess.1, forall_mem_cons.2 ⟨hprocess.2, hlimits⟩⟩
  | parallel count branch next =>
    exact ⟨fun i id => ⟨nofun, hprocess.1 i, nofun⟩, fun r => ⟨hfirst, hprocess.2 r, hlimits⟩⟩

lemma told_of_tells (h : t.process.Tells N) : ∀ n ∈ told t, N n := by
  obtain ⟨id, parent, limits, process⟩ := t
  cases process with
  | tell notes next => exact h.1
  | _ => exact nofun

lemma outlasts_closing : Outlasts (Closing N) := by
  intro id parent l rest p h
  cases parent with
  | none => exact h.2 none
  | some up => exact outlasts_tells h

lemma Closing.onward (h : t.Closing N) : (t.Onward (Closing N) ∧ ∀ n ∈ told t, N n) ∨
    ∃ o, t.parent = none ∧ t.limits = [] ∧ t.process = .closing o := by
  obtain ⟨id, parent, limits, process⟩ := t
  cases parent with
  | some up =>
    have honward := Tells.onward h
    refine .inl ⟨?_, told_of_tells h.process⟩
    cases process <;> exact honward
  | none =>
    cases limits with
    | nil =>
      obtain ⟨p, hp, rfl⟩ : ∃ p : Process Outcome, p.Tells N ∧ process = p.bind .closing := h
      cases p with
      | done o => exact .inr ⟨o, rfl, rfl, rfl⟩
      | stuck => exact .inl ⟨trivial, nofun⟩
      | tell notes next => exact .inl ⟨⟨_, hp.2, rfl⟩, hp.1⟩
      | ask request next => exact .inl ⟨fun reply => ⟨_, hp reply, rfl⟩, nofun⟩
      | sleep time next => exact .inl ⟨⟨next (), hp, rfl⟩, nofun⟩
      | within limit body next => exact .inl ⟨fun _ => ⟨hp.1, fun o => ⟨_, hp.2 o, rfl⟩⟩, nofun⟩
      | parallel count branch next =>
        exact .inl ⟨⟨fun i id => ⟨nofun, hp.1 i, nofun⟩, fun r => ⟨_, hp.2 r, rfl⟩⟩, nofun⟩
    | cons l rest =>
      obtain ⟨hprocess, hnext⟩ : process.Tells N ∧ ∀ o, Limit.Closing N rest (l.next o) := h
      refine .inl ⟨?_, told_of_tells hprocess⟩
      cases process with
      | done o =>
        rintro l rest ⟨rfl, rfl⟩
        exact hnext _
      | stuck => trivial
      | tell notes next => exact ⟨hprocess.2, hnext⟩
      | ask request next => exact fun reply => ⟨hprocess reply, hnext⟩
      | sleep time next => exact ⟨hprocess, hnext⟩
      | within limit body next => exact fun _ => ⟨hprocess.1, fun o => ⟨hprocess.2 o, hnext⟩⟩
      | parallel count branch next =>
        exact ⟨fun i id => ⟨nofun, hprocess.1 i, nofun⟩, fun r => ⟨hprocess.2 r, hnext⟩⟩

end Running

/-! ### The teardown of a machine -/

namespace Machine

variable {σ : Type} {m : Machine σ} {c : Client σ} {N : Note → Prop}

/-- A machine whose notes are all of a kind, and its tasks of another. -/
def Opened (N : Note → Prop) (K : Running → Prop) (m : Machine σ) : Prop :=
  (∀ n ∈ m.notes, N n) ∧ m.Every K

/-- A machine after the teardown: it was noted last, and the first task is at its end. -/
def Closed (N : Note → Prop) (m : Machine σ) : Prop :=
  (∃ notes, m.notes = .teardown :: notes ∧ ∀ n ∈ notes, N n) ∧ (m.result.isSome ∨ m.ended?.isSome)

lemma Opened.step {K : Running → Prop} (h : m.Opened N K) (hlate : Running.Outlasts K)
    (ht : ∀ t ∈ m.running, t.Onward K ∧ ∀ n ∈ told t, N n) : (m.step c).Opened N K := by
  obtain ⟨hnotes, hevery⟩ := h
  refine ⟨fun n hn => ?_, hevery.step hlate c fun t hrunning => (ht t hrunning).1⟩
  rw [notes_step, mem_append, mem_reverse] at hn
  rcases hn with hn | hn
  · cases hrunning : m.running with
    | none =>
      rw [hrunning] at hn
      cases hn
    | some t =>
      rw [hrunning] at hn
      exact (ht t hrunning).2 n hn
  · exact hnotes n hn

lemma Opened.run (fuel : Nat) (h : m.Opened N (Running.Tells N)) : (run c fuel m).Opened N (Running.Tells N) := by
  refine run_keeps (fun m h _ => h.step Running.outlasts_tells fun t ht => ?_) fuel h
  have htells := h.2.running t ht
  exact ⟨htells.onward, Running.told_of_tells htells.process⟩

lemma Opened.close (h : m.Opened N (Running.Closing N)) :
    (m.step c).Opened N (Running.Closing N) ∨ (m.step c).Closed N := by
  cases hrunning : m.running with
  | none => exact .inl (h.step Running.outlasts_closing fun t ht => nomatch hrunning.symm.trans ht)
  | some t =>
    rcases (h.2.running t hrunning).onward with honward | ⟨o, hparent, hlimits, hprocess⟩
    · refine .inl (h.step Running.outlasts_closing fun u hu => ?_)
      cases hrunning.symm.trans hu
      exact honward
    · obtain ⟨id, parent, limits, process⟩ := t
      obtain rfl : parent = none := hparent
      obtain rfl : limits = [] := hlimits
      obtain rfl : process = _ := hprocess
      have hlast : (m.step c).running = some ⟨id, none, [], .done o⟩ := by
        rw [Machine.step, hrunning]
        rfl
      refine .inr ⟨⟨m.notes, ?_, h.1⟩, .inr ?_⟩
      · rw [notes_step, hrunning]
        rfl
      · rw [ended?, hlast]
        rfl

lemma Closed.step (h : m.Closed N) (hover : m.isOver = false) : (m.step c).Closed N := by
  obtain ⟨⟨notes, hnotes, hkind⟩, hresult | hended⟩ := h
  · rw [isOver, hresult] at hover
    cases hover
  · obtain ⟨o, ho⟩ := Option.isSome_iff_exists.1 hended
    have hlog := @log_step_of_ended σ m c o ho
    refine ⟨⟨notes, (congrArg Prod.fst hlog).trans hnotes, hkind⟩, .inl ?_⟩
    rw [show (m.step c).result = some o from congrArg Prod.snd hlog]
    rfl

lemma opened_or_closed_run (fuel : Nat) (h : m.Opened N (Running.Closing N) ∨ m.Closed N) :
    (run c fuel m).Opened N (Running.Closing N) ∨ (run c fuel m).Closed N :=
  run_keeps (P := fun m => m.Opened N (Running.Closing N) ∨ m.Closed N)
    (fun _ h hover => h.elim Opened.close fun h => .inr (h.step hover)) fuel h

/-- A process that tells notes of a kind, and then another on the way to the teardown, or nothing if it fails. -/
lemma teardown_of_run {p : Process Outcome} {k : Outcome → Process Outcome} (hp : p.Tells N)
    (herror : ∀ e, k (.error e) = .done (.error e)) (hok : ∀ a, Limit.Closing N [] (k (.ok a)))
    {client : σ} {fuel : Nat} {outcome : Outcome}
    (h : (run c fuel (start client (p.bind k))).result = some outcome) :
    ∃ notes, (∀ n ∈ notes, N n) ∧ ((∃ a, (run c fuel (start client p)).result = some (.ok a) ∧
          (run c fuel (start client (p.bind k))).notes.reverse = notes ++ [.teardown]) ∨
        ∃ e, (run c fuel (start client p)).result = some (.error e) ∧ outcome = .error e ∧
          (run c fuel (start client (p.bind k))).notes.reverse = notes) := by
  have hstart : start client (p.bind k) = (start client p).prolong k := rfl
  rw [hstart] at h ⊢
  rcases run_prolong k c fuel (show (start client p).result = none from rfl) with
    hnone | ⟨used, left, o, hended, hover, halone, hrun⟩
  · cases hnone.symm.trans h
  · have hopening : (start client p).Opened N (Running.Tells N) := ⟨nofun, every_start client ⟨fun _ => rfl, hp, nofun⟩⟩
    obtain ⟨hnotes, hevery⟩ := hopening.run (c := c) used
    rw [hrun] at h ⊢
    rw [halone]
    generalize run c used (start client p) = m at *
    have hresult : m.result = none := by
      unfold isOver at hover
      exact Option.not_isSome_iff_eq_none.1 (Bool.eq_false_iff.1 (Bool.or_eq_false_iff.1 hover).1)
    have hdone := congrArg Prod.snd (@log_run_of_ended σ m c o left hover hended)
    cases o with
    | error e =>
      obtain ⟨id, -, hprolonged⟩ := running_prolong k hended
      have hlast : (m.prolong k).ended? = some (.error e) := by
        unfold ended?
        rw [hprolonged, herror]
      have hlog := @log_run_of_ended σ (m.prolong k) c _ left hover hlast
      refine ⟨m.notes.reverse, fun n hn => hnotes n (mem_reverse.1 hn),
        .inr ⟨e, hdone, ?_, congrArg (List.reverse ·.1) hlog⟩⟩
      exact Option.some.inj (h.symm.trans (congrArg Prod.snd hlog))
    | ok a =>
      have hopened : (m.prolong k).Opened N (Running.Closing N) := by
        refine ⟨hnotes, hevery.prolong k hresult hended (fun _ ht => ht.first) (fun t id hid ht => ?_) (hok a)⟩
        rwa [Running.Closing, hid]
      rcases opened_or_closed_run (c := c) (left + 1) (.inl hopened) with
        ⟨-, hevery⟩ | ⟨⟨notes, hnotes, hkind⟩, -⟩
      · obtain ⟨_, p, -, hdone⟩ := hevery.result outcome h
        cases p <;> cases hdone
      · refine ⟨notes.reverse, fun n hn => hkind n (mem_reverse.1 hn), .inl ⟨a, hdone, ?_⟩⟩
        rw [hnotes, reverse_cons]

end Machine

/-! ### Runs -/

namespace Context

/-- The start handlers of a run on their own. Their answer is what they set. -/
def opening (c : Context) (fuel : Nat) (args : List Json) : Act Answer := do
  let globals ← c.start fuel (flowInput args)
  pure { value := .obj globals, text := "" }

def afterStart (c : Context) (fuel : Nat) (entry : Entry) (args : List Json) : Outcome → Process Outcome
  | .ok ⟨.obj globals, _, _⟩ => (enter { c with globals := globals } fuel args entry).run >>= Process.closing
  | .ok _ => .stuck
  | .error e => .done (.error e)

lemma process_eq (c : Context) (fuel : Nat) (entry : Entry) (args : List Json) :
    (c.process fuel entry args).run = (c.opening fuel args).run.bind (c.afterStart fuel entry args) := by
  refine Eq.trans ?_ (Process.bind_assoc (c.start fuel (flowInput args)).run _ _).symm
  refine congrArg (Process.bind (c.start fuel (flowInput args)).run) (funext fun r => ?_)
  cases r <;> rfl

lemma closing_afterStart (c : Context) (fuel : Nat) (entry : Entry) (args : List Json) (a : Answer) :
    Limit.Closing (Note.Ordinary c.unit.agents) [] (c.afterStart fuel entry args (.ok a)) := by
  obtain ⟨value, text, escalated⟩ := a
  cases value with
  | obj globals => exact ⟨_, quiet_enter { c with globals := globals } fuel args entry, rfl⟩
  | _ => exact ⟨.stuck, trivial, rfl⟩

/-- What the start handlers of a run come to on their own. -/
def opens {σ : Type} (c : Context) (client : Client σ) (state : σ) (fuel : Nat) (args : List Json) : Option Outcome :=
  (Machine.run client fuel (Machine.start state (c.opening fuel args).run)).result

end Context

/-! ### Events -/

def Note.event? : Note → Option Event
  | event e => some e
  | _ => none

/-- The agents whose hierarchies are laid out, those in a table and those of some notes. -/
def Note.laidOut (known : Table Unit) : List Note → Table Unit
  | [] => known
  | .built agent :: rest => laidOut (known.insert agent ()) rest
  | _ :: rest => laidOut known rest

lemma Note.mem_laidOut : ∀ {notes known},
    agent ∈ (laidOut known notes).names ↔ agent ∈ known.names ∨ .built agent ∈ notes
  | [], known => by simp [laidOut]
  | .built other :: rest, known => by
    rw [laidOut, mem_laidOut, Table.names_insert, mem_insertText, mem_cons, Note.built.injEq, or_assoc, or_left_comm]
  | .event e :: rest, known | .teardown :: rest, known | .failed _ _ :: rest, known
  | .recovered _ :: rest, known => by simp [laidOut, mem_laidOut]

lemma Note.pairwise_laidOut : ∀ (notes : List Note) {known : Table Unit},
    known.names.Pairwise (· < ·) → (laidOut known notes).names.Pairwise (· < ·)
  | [], _, h => h
  | .built agent :: rest, known, h => by
    refine pairwise_laidOut rest ?_
    rw [Table.names_insert]
    exact pairwise_insertText h
  | .event _ :: rest, _, h | .teardown :: rest, _, h | .failed _ _ :: rest, _, h | .recovered _ :: rest, _, h =>
    pairwise_laidOut rest h

def Hierarchy.farewell (h : Hierarchy) : List Event :=
  (h.closings false).map fun x => .agentClosed x.agent x.asTool

namespace Context

def notes {σ : Type} (c : Context) (client : Client σ) (state : σ) (fuel : Nat) (entry : Entry)
    (args : List Json) : List Note :=
  (Machine.run client fuel (Machine.start state (c.process fuel entry args).run)).notes.reverse

/-- The hierarchies that a run lays out, each once and in the order of their agents. -/
structure LaysOut (c : Context) (notes : List Note) (trees : Table Hierarchy) : Prop where
  increasing : trees.names.Pairwise (· < ·)
  built : ∀ agent, agent ∈ trees.names ↔ .built agent ∈ notes
  tree : ∀ {agent h}, (agent, h) ∈ trees → build? c.unit.agents agent = some h

lemma events_append (c : Context) {agents : Table AgentSpec} {rest : List Note} :
    ∀ {notes built}, (∀ n ∈ notes, n.Ordinary agents) → c.events built (notes ++ rest) =
      notes.filterMap Note.event? ++ c.events (Note.laidOut built notes) rest
  | [], _, _ => rfl
  | n :: notes, built, h => by
    have ih := fun t => @events_append c agents rest notes t fun n hn => h n (.tail _ hn)
    cases n with
    | event e => exact congrArg (e :: ·) (ih built)
    | built agent => exact ih (built.insert agent ())
    | teardown => exact (h .teardown mem_cons_self).elim
    | failed line fault | recovered flow => exact ih built

def treesOf (c : Context) (names : List String) : Table Hierarchy :=
  names.filterMap fun agent => (build? c.unit.agents agent).map (agent, ·)

lemma events_teardown (c : Context) (built : Table Unit) :
    c.events built [.teardown] = (c.treesOf built.names).flatMap fun x => x.2.farewell := by
  have htrees : (c.treesOf built.names).map Prod.snd = built.names.filterMap (build? c.unit.agents) := by
    unfold treesOf
    rw [map_filterMap]
    refine congrArg (List.filterMap · built.names) (funext fun agent => ?_)
    rw [Option.map_map]
    exact Option.map_id'
  rw [← flatMap_map, htrees]
  exact append_nil _

lemma names_treesOf (c : Context) : ∀ {names}, (∀ agent ∈ names, ∃ h, build? c.unit.agents agent = some h) →
    (c.treesOf names).names = names
  | [], _ => rfl
  | agent :: rest, h => by
    obtain ⟨tree, htree⟩ := h agent mem_cons_self
    have ih := @names_treesOf c rest fun other hother => h other (.tail _ hother)
    rw [treesOf, filterMap_cons, htree]
    exact congrArg (agent :: ·) ih

lemma laysOut_of_ordinary (c : Context) {notes : List Note} (h : ∀ n ∈ notes, n.Ordinary c.unit.agents) :
    c.LaysOut notes (c.treesOf (Note.laidOut [] notes).names) := by
  have hnames : (c.treesOf (Note.laidOut [] notes).names).names = (Note.laidOut [] notes).names :=
    c.names_treesOf fun agent hagent => h _ ((Note.mem_laidOut.1 hagent).resolve_left nofun)
  refine ⟨?_, fun agent => ?_, fun {agent tree} hmem => ?_⟩
  · rw [hnames]
    exact Note.pairwise_laidOut notes .nil
  · rw [hnames, Note.mem_laidOut]
    exact or_iff_right nofun
  · obtain ⟨_, -, hmem⟩ := mem_filterMap.1 hmem
    obtain ⟨h, hbuild, heq⟩ := Option.map_eq_some_iff.1 hmem
    cases heq
    exact hbuild

/-- A run whose start handlers succeed tears down each hierarchy that it has laid out, once and after all other
events, whatever it comes to. A run whose start handlers fail ends with their error, and tears nothing down. -/
theorem run_tears_down {σ : Type} (c : Context) (client : Client σ) (state : σ) (fuel : Nat)
    (entry : Entry) (args : List Json) {outcome : Outcome}
    (h : (c.run client state fuel entry args).outcome = some outcome) :
    ∃ told trees, (∀ e ∈ told, Event.isClosing e = false) ∧ c.LaysOut (c.notes client state fuel entry args) trees ∧
      ((∃ a, c.opens client state fuel args = some (.ok a) ∧
          (c.run client state fuel entry args).events = told ++ trees.flatMap fun x => x.2.farewell) ∨
        ∃ e, c.opens client state fuel args = some (.error e) ∧ outcome = .error e ∧
          (c.run client state fuel entry args).events = told) := by
  have hopening : (c.opening fuel args).run.Tells (Note.Ordinary c.unit.agents) :=
    (c.quiet_start fuel (flowInput args)).bind fun _ => Act.quiet_pure _
  have hfailed : ∀ e, c.afterStart fuel entry args (.error e) = .done (.error e) := fun _ => rfl
  have hevents : (c.run client state fuel entry args).events = c.events [] (c.notes client state fuel entry args) := rfl
  rw [hevents]
  unfold run at h
  unfold notes
  rw [process_eq] at h ⊢
  obtain ⟨notes, hordinary, hnotes⟩ := Machine.teardown_of_run hopening hfailed (c.closing_afterStart fuel entry args) h
  have htold : ∀ e ∈ notes.filterMap Note.event?, e.isClosing = false := by
    intro e he
    obtain ⟨n, hn, heq⟩ := mem_filterMap.1 he
    cases n with
    | event e' =>
      cases heq
      exact hordinary _ hn
    | _ => cases heq
  have hlays := c.laysOut_of_ordinary hordinary
  refine ⟨notes.filterMap Note.event?, c.treesOf (Note.laidOut [] notes).names, htold, ?_⟩
  rcases hnotes with ⟨a, ha, hnotes⟩ | ⟨e, he, houtcome, hnotes⟩
  · rw [hnotes, c.events_append hordinary, events_teardown]
    refine ⟨⟨hlays.increasing, fun agent => ?_, hlays.tree⟩, .inl ⟨a, ha, rfl⟩⟩
    rw [hlays.built, mem_append]
    exact (or_iff_left (by simp)).symm
  · rw [hnotes]
    refine ⟨hlays, .inr ⟨e, he, houtcome, ?_⟩⟩
    have happend := @events_append c c.unit.agents [] notes [] hordinary
    rwa [append_nil, events, append_nil] at happend

end Context

/-! ### Runs that end in a start handler -/

/-- Whether a source compiles to a unit that can be made ready to run, in a context of some kind. -/
def Program.preparesTo (files : Files) (source name : String) (p : Context → Bool) : Bool :=
  compilesTo files source name fun _ _ c => (ofUnit c.unit {} {} []).toOption.any p

lemma Program.exists_of_preparesTo {source name : String} (h : preparesTo files source name p = true) : ∃ compiled c,
    compile {} files source name = .ok compiled ∧ ofUnit compiled.unit {} {} [] = .ok c ∧ p c = true := by
  obtain ⟨_, _, compiled, -, -, hcompiled, h⟩ := exists_of_compilesTo h
  obtain ⟨c, hc, hp⟩ := Except.of_any h
  exact ⟨compiled, c, hcompiled, hc, hp⟩

/-- A client that always gives the same answer, at once. -/
def Client.steady : Client Unit := ⟨fun _ _ => ((), 0, .ok { content := "done" })⟩

/-- Whether a note is that the hierarchy of an agent is laid out. -/
def Note.isBuilt (agent : String) : Note → Bool
  | built name => name = agent
  | _ => false

lemma Note.mem_of_isBuilt {notes : List Note} (h : notes.any (isBuilt agent) = true) : .built agent ∈ notes := by
  obtain ⟨n, hn, h⟩ := any_eq_true.1 h
  cases n with
  | built name => exact of_decide_eq_true h ▸ hn
  | _ => cases h

def warmSource : String :=
  "prompt p: \"x\"\nagent a:\n  instruction p\non start do\n  run agent a\nend\n"

/-- A start handler that runs an agent and gives up. -/
def quitSource : String :=
  "prompt p: \"x\"\nagent a:\n  instruction p\non start do\n  run agent a\n  abort\nend\n"

/-- An agent that the start handler and then the run itself lays out is closed once, at the end. -/
theorem Context.run_tears_down_start : ∃ compiled c answer a, compile {} [] warmSource "main.wv" = .ok compiled ∧
    ofUnit compiled.unit {} {} [] = .ok c ∧
    (c.run .steady () 40 (.agent "a") []).outcome = some (.ok answer) ∧
    .built "a" ∈ c.notes .steady () 40 (.agent "a") [] ∧
    c.opens .steady () 40 [] = some (.ok a) ∧
    ∃ told trees, (∀ e ∈ told, Event.isClosing e = false) ∧ c.LaysOut (c.notes .steady () 40 (.agent "a") []) trees ∧
      (c.run .steady () 40 (.agent "a") []).events = told ++ trees.flatMap fun x => x.2.farewell := by
  have hrun : Program.preparesTo [] warmSource "main.wv" (fun c =>
      (c.run .steady () 40 (.agent "a") []).outcome.any Except.isOk
      && (c.notes .steady () 40 (.agent "a") []).any (Note.isBuilt "a")) = true := by
    decide +kernel
  obtain ⟨compiled, c, hcompiled, hc, hrun⟩ := Program.exists_of_preparesTo hrun
  rw [Bool.and_eq_true, Option.any_eq_true] at hrun
  obtain ⟨⟨outcome, houtcome, hok⟩, hbuilt⟩ := hrun
  obtain ⟨told, trees, htold, hlays, hevents⟩ :=
    c.run_tears_down .steady () 40 (.agent "a") [] houtcome
  cases outcome with
  | error e => cases hok
  | ok answer =>
    rcases hevents with ⟨a, ha, hevents⟩ | ⟨e, -, he, -⟩
    · exact ⟨compiled, c, answer, a, hcompiled, hc, houtcome, Note.mem_of_isBuilt hbuilt, ha, told, trees,
        htold, hlays, hevents⟩
    · cases he

/-- An agent that a start handler lays out is not closed when the handler fails. -/
theorem Context.run_leaves_open : ∃ compiled c e h, compile {} [] quitSource "main.wv" = .ok compiled ∧
    ofUnit compiled.unit {} {} [] = .ok c ∧
    (c.run .steady () 40 (.agent "a") []).outcome = some (.error e) ∧
    .built "a" ∈ c.notes .steady () 40 (.agent "a") [] ∧
    build? c.unit.agents "a" = some h ∧ h.closings false = [⟨"a", false⟩] ∧
    ∀ e ∈ (c.run .steady () 40 (.agent "a") []).events, e.isClosing = false := by
  have hrun : Program.preparesTo [] quitSource "main.wv" (fun c =>
      ((c.run .steady () 40 (.agent "a") []).outcome.any fun o => !o.isOk)
      && (c.notes .steady () 40 (.agent "a") []).any (Note.isBuilt "a")
      && (build? c.unit.agents "a").any (fun h => h.closings false = [⟨"a", false⟩])
      && (c.run .steady () 40 (.agent "a") []).events.all fun e => !e.isClosing) = true := by
    decide +kernel
  obtain ⟨compiled, c, hcompiled, hc, hrun⟩ := Program.exists_of_preparesTo hrun
  simp only [Bool.and_eq_true, Option.any_eq_true, all_eq_true, Bool.not_eq_true', decide_eq_true_eq] at hrun
  obtain ⟨⟨⟨⟨outcome, houtcome, hfailed⟩, hbuilt⟩, ⟨h, hh, hclosings⟩⟩, hevents⟩ := hrun
  cases outcome with
  | ok answer => cases hfailed
  | error e =>
    exact ⟨compiled, c, e, h, hcompiled, hc, houtcome, Note.mem_of_isBuilt hbuilt, hh, hclosings, hevents⟩

end Workflow
