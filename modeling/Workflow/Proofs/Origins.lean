import Workflow.Proofs.Requests
import Workflow.Proofs.Teardown

/-!
Where errors come from. A statement that fails notes that down, the innermost one first and then those around
it. So the notes of a course that ends in an error end in failures with one fault, and the error names the first
of them, whose own execution raised it. An error without such failures names no statement.
-/

namespace Workflow

open List Context Act Note Exec Option
open Process (course_done)

variable {e : RunError} {fuel : Nat}

/-! ### Failures at the end of notes -/

namespace Note

def isFailure : Note → Bool
  | failed _ _ => true
  | _ => false

/-- Notes that do not end in the failure of a statement. -/
def Calm (notes : List Note) : Prop := ∀ n ∈ notes.getLast?, n.isFailure = false

/-- Notes that end in failures with one fault: that of a statement inside which none fails, and then those
around it. -/
def BlamedOn (i : Instr) (fault : RunFault) (notes : List Note) : Prop :=
  ∃ (before : List Note) (around : List Instr), Calm before ∧
    notes = before ++ .failed i fault :: around.map (failed · fault)

variable {told rest : List Note} {i : Instr} {fault : RunFault}

lemma calm_nil : Calm [] := nofun

lemma calm_concat (told : List Note) {n : Note} (h : n.isFailure = false) : Calm (told ++ [n]) := by
  intro m hm
  rw [List.getLast?_concat, mem_some_iff] at hm
  exact hm ▸ h

lemma Calm.append (htold : Calm told) (hrest : Calm rest) : Calm (told ++ rest) := by
  intro n hn
  rw [List.getLast?_append, mem_def, or_eq_some_iff] at hn
  rcases hn with hn | ⟨-, hn⟩
  · exact hrest n hn
  · exact htold n hn

lemma calm_flatten {parts : List (List Note)} (h : ∀ part ∈ parts, Calm part) : Calm parts.flatten := by
  induction parts with
  | nil => exact calm_nil
  | cons part parts ih =>
    rw [flatten_cons]
    exact (h part mem_cons_self).append (ih fun other hother => h other (mem_cons_of_mem _ hother))

lemma BlamedOn.append (htold : Calm told) (h : BlamedOn i fault rest) : BlamedOn i fault (told ++ rest) := by
  obtain ⟨before, around, hbefore, rfl⟩ := h
  exact ⟨told ++ before, around, htold.append hbefore, (append_assoc ..).symm⟩

lemma BlamedOn.outward (h : BlamedOn i fault told) (outer : Instr) :
    BlamedOn i fault (told ++ [.failed outer fault]) := by
  obtain ⟨before, around, hbefore, rfl⟩ := h
  refine ⟨before, around ++ [outer], hbefore, ?_⟩
  rw [map_append, append_assoc, cons_append]
  rfl

end Note

open Note (Calm BlamedOn)

/-! ### Attributed errors -/

namespace Context

variable {α β : Type} {c : Context} {told rest : List Note}

/-- An error names the innermost of the statements whose failures the notes end in, and none if there are no
such failures. -/
def Attributed (c : Context) (notes : List Note) : Except RunError α → Prop
  | .ok _ => Calm notes
  | .error e => Calm notes ∧ e.site = none ∨ ∃ i, BlamedOn i e.fault notes ∧ e.site = some (c.site i.line)

lemma Attributed.append {r : Except RunError α} (htold : Calm told) (h : c.Attributed rest r) :
    c.Attributed (told ++ rest) r := by
  cases r with
  | ok a => exact htold.append h
  | error e =>
    rcases h with ⟨hrest, hsite⟩ | ⟨i, hblamed, hsite⟩
    · exact .inl ⟨htold.append hrest, hsite⟩
    · exact .inr ⟨i, hblamed.append htold, hsite⟩

lemma Attributed.located (i : Instr) (h : c.Attributed told (.error e : Except RunError α)) :
    c.Attributed (told ++ [.failed i e.fault]) (.error (e.located (c.site i.line)) : Except RunError β) := by
  obtain ⟨fault, site⟩ := e
  rcases h with ⟨hcalm, rfl⟩ | ⟨j, hblamed, rfl⟩
  · exact .inr ⟨i, ⟨told, [], hcalm, rfl⟩, rfl⟩
  · exact .inr ⟨j, hblamed.outward i, rfl⟩

lemma Attributed.of_error (h : c.Attributed told (.error e : Except RunError α)) :
    c.Attributed told (.error e : Except RunError β) := h

end Context

/-- All errors of a process are attributed to statements. -/
def Act.Attributes {α : Type} (c : Context) (x : Act α) : Prop :=
  ∀ {notes r}, x.run.Course notes r → c.Attributed notes r

/-- All errors of a process in a frame are attributed to statements. -/
def Exec.Attributes {α : Type} (c : Context) (x : Exec α) : Prop :=
  ∀ {frame notes r frame'}, (x.run.run frame).Course notes (r, frame') → c.Attributed notes r

namespace Act

variable {α β : Type} {c : Context}

lemma attributes_pure (a : α) : Attributes c (pure a) := by
  intro notes r h
  obtain ⟨rfl, rfl⟩ := course_done.1 h
  exact calm_nil

lemma attributes_fail (fault : RunFault) : Attributes c (fail fault : Act α) := by
  intro notes r h
  obtain ⟨rfl, rfl⟩ := course_done.1 h
  exact .inl ⟨calm_nil, rfl⟩

lemma attributes_lift {p : Process α} (h : ∀ {notes a}, p.Course notes a → Calm notes) : Attributes c (liftM p) := by
  intro notes r hcourse
  obtain ⟨a, rfl, ha⟩ := course_lift hcourse
  exact h ha

lemma attributes_note {n : Note} (h : n.isFailure = false) : Attributes c (liftM (Process.note n)) := by
  refine attributes_lift fun {notes a} hcourse => ?_
  rw [Process.course_note.1 hcourse]
  exact calm_concat [] h

lemma Attributes.bind (hx : Attributes c x) (hk : ∀ a, Attributes c (k a)) : Attributes c (x >>= k) := by
  intro notes r h
  rcases course_bind h with ⟨told, rest, a, rfl, ha, hrest⟩ | ⟨e, rfl, he⟩
  · exact (hk a hrest).append (hx ha)
  · exact (hx he).of_error

lemma Attributes.limited (h : Attributes c body) (agent : String) (limit : Duration) :
    Attributes c (limited agent (some limit) body) := by
  intro notes r hcourse
  rcases hcourse with _ | _ | _ | _ | ⟨inside, after⟩ | after
  · obtain ⟨rfl, rfl⟩ := course_done.1 after
    rw [append_nil]
    exact h inside
  · obtain ⟨rfl, rfl⟩ := course_done.1 after
    exact .inl ⟨calm_nil, rfl⟩

end Act

namespace Exec

variable {α β : Type} {c : Context} {x : Exec α}

lemma Instant.attributes (h : x.Instant) : Attributes c x := by
  intro frame notes r frame' hcourse
  obtain ⟨r', after, hdone, hsite⟩ := h frame
  rw [hdone] at hcourse
  obtain ⟨rfl, heq⟩ := course_done.1 hcourse
  cases heq
  cases r with
  | ok a => exact calm_nil
  | error e => exact .inl ⟨calm_nil, hsite e rfl⟩

lemma attributes_lift {p : Process α} (h : ∀ {notes a}, p.Course notes a → Calm notes) : Attributes c (liftM p) := by
  intro frame notes r frame' hcourse
  obtain ⟨a, rfl, -, ha⟩ := course_lift hcourse
  exact h ha

lemma Attributes.bind (hx : Attributes c x) (hk : ∀ a, Attributes c (k a)) : Attributes c (x >>= k) := by
  intro frame notes r frame' h
  rcases course_bind h with ⟨told, rest, a, mid, rfl, ha, hrest⟩ | ⟨e, rfl, he⟩
  · exact (hk a hrest).append (hx ha)
  · exact (hx he).of_error

lemma Attributes.located (h : Attributes c x) (i : Instr) : Attributes c (located i (c.site i.line) x) := by
  intro frame notes r frame' hcourse
  rcases course_located hcourse with ⟨a, rfl, ha⟩ | ⟨told, e, rfl, rfl, he⟩
  · exact h ha
  · exact (h he).located i

lemma Attributes.lastly {last : Exec Unit} (hx : Attributes c x) (hlast : last.Succeeds) :
    Attributes c (lastly x last) := by
  intro frame notes r frame' h
  rcases course_bind h with ⟨told, rest, a, mid, rfl, hcatch, hrest⟩ | ⟨e, rfl, hcatch⟩
  · obtain ⟨⟨⟩, _, hdone⟩ := hlast mid
    rw [run_bind_ok hdone] at hrest
    obtain ⟨rfl, heq⟩ := course_done.1 hrest
    cases heq
    rw [append_nil]
    rcases course_tryCatch hcatch with ⟨_, heq, hok⟩ | ⟨told, rest, e, mid, rfl, -, hthrow⟩
    · cases heq
      exact hx hok
    · obtain ⟨⟨⟩, _, hdone⟩ := hlast mid
      rw [run_bind_ok hdone] at hthrow
      cases (course_done.1 hthrow).2
  · rcases course_tryCatch hcatch with ⟨_, heq, -⟩ | ⟨told, rest, e', mid, rfl, hfailed, hthrow⟩
    · cases heq
    · obtain ⟨⟨⟩, _, hdone⟩ := hlast mid
      rw [run_bind_ok hdone] at hthrow
      obtain ⟨rfl, heq⟩ := course_done.1 hthrow
      cases heq
      rw [append_nil]
      exact hx hfailed

lemma attributes_branches {ps : List (Process Outcome)} {k : Except RunError (List Answer) → Exec α}
    (hps : ∀ p ∈ ps, Act.Attributes c (ExceptT.mk p)) (hk : ∀ answers, Attributes c (k (.ok answers)))
    (hthrow : ∀ e, k (.error e) = throw e) :
    Attributes c ((liftM (Process.branches ps) : Exec (Except RunError (List Answer))) >>= k) := by
  intro frame notes r frame' h
  rcases course_bind h with ⟨told, rest, joined, mid, rfl, hlift, hrest⟩ | ⟨e, -, hlift⟩
  · obtain ⟨_, heq, -, hbranches⟩ := course_lift hlift
    cases heq
    cases hbranches with
    | joined answers parts inside after =>
      obtain ⟨rfl, rfl⟩ := course_done.1 after
      refine (hk _ hrest).append ((calm_flatten fun part hpart => ?_).append calm_nil)
      obtain ⟨i, rfl⟩ := mem_ofFn.1 hpart
      exact hps _ (get_mem ps i) (inside i)
    | failed i inside after =>
      obtain ⟨rfl, rfl⟩ := course_done.1 after
      rw [hthrow] at hrest
      obtain ⟨rfl, heq⟩ := course_done.1 hrest
      cases heq
      rw [append_nil, append_nil]
      exact (hps _ (get_mem ps i) inside).of_error
  · obtain ⟨_, heq, -⟩ := course_lift hlift
    cases heq

lemma attributes_block (frame : Frame) (hx : Attributes c x) (hk : ∀ a frame, Act.Attributes c (k (.ok a, frame)))
    (hthrow : ∀ e frame, k (.error e, frame) = throw e) :
    Act.Attributes c ((liftM (x.run.run frame) : Act (Except RunError α × Frame)) >>= k) := by
  intro notes r h
  obtain ⟨told, rest, ⟨r', mid⟩, rfl, hcourse, hrest⟩ := course_lift_bind.1 h
  cases r' with
  | ok a => exact (hk a mid hrest).append (hx hcourse)
  | error e =>
    rw [hthrow] at hrest
    obtain ⟨rfl, rfl⟩ := course_done.1 hrest
    rw [append_nil]
    exact (hx hcourse).of_error

end Exec

namespace Context

variable {c : Context}

lemma attributes_runBody {s : Scene} {calls : Calls} {f : FlowUnit} (args : List Json)
    (hbody : Exec.Attributes c (s.execBlock calls bound f.body))
    (hfailure : ∀ block ∈ f.onFailure, Exec.Attributes c (s.execBlock calls bound block)) :
    Act.Attributes c (s.runBody calls bound f args) := by
  intro notes r h
  obtain ⟨told, rest, ⟨outcome, frame⟩, rfl, hcourse, hrest⟩ := course_lift_bind.1 h
  cases outcome with
  | ok control => exact (attributes_pure _ hrest).append (hbody hcourse)
  | error e =>
    dsimp only at hrest
    split at hrest
    · next block hblock _ =>
      obtain ⟨more, rfl, hmore⟩ := course_note.1 hrest
      rw [append_cons]
      refine Attributed.append (calm_concat told rfl) ?_
      refine attributes_block (frame.failed e) (hfailure block hblock) (fun _ _ => ?_) (fun _ _ => ?_) hmore
      · exact attributes_pure _
      · rfl
    · obtain ⟨rfl, rfl⟩ := course_done.1 hrest
      rw [append_nil]
      exact (hbody hcourse).of_error

lemma attribute_rules (c : Context) : Rules c (Act.Attributes c) (Exec.Attributes c) where
  value := attributes_pure
  fault := attributes_fail
  stuck := nofun
  chain := Act.Attributes.bind
  event _ := attributes_note rfl
  built _ := attributes_note rfl
  request r := by
    refine attributes_lift fun {notes a} h => ?_
    rcases h with _ | _ | ⟨reply, after⟩
    rw [(course_done.1 after).1]
    exact calm_nil
  wait time := by
    refine attributes_lift fun {notes a} h => ?_
    rcases h with _ | _ | _ | after
    rw [(course_done.1 after).1]
    exact calm_nil
  limited agent limit _ h := h.limited agent limit
  instant := Exec.Instant.attributes
  next := Exec.Attributes.bind
  report _ := attributes_lift fun h => Process.course_note.1 h ▸ calm_concat [] rfl
  pause := by
    refine attributes_lift fun {notes a} h => ?_
    rcases h with _ | after
    rw [(course_done.1 after).1]
    exact calm_nil
  call hx _ _ _ _ h := hx (course_ofAct h)
  located i h := h.located i
  lastly := Exec.Attributes.lastly
  branches := attributes_branches
  block := attributes_block
  body args _ := attributes_runBody args

end Context

/-! ### Statements and flows -/

lemma RunError.site_located (e : RunError) (s : Site) : (e.located s).site ≠ none := by
  obtain ⟨fault, _ | site⟩ := e <;> exact some_ne_none _

namespace Context

variable {c : Context} {calls : Calls} {bound : Nat}

/-- What a statement does on its own. A branch may have an alternative behind it. -/
def Does (c : Context) (calls : Calls) (bound : Nat) (i : Instr) (x : Exec Control) : Prop :=
  x = c.execInstr calls bound i ∨ ∃ condition other, i.op = .branch condition ∧ x = (do
    if (← eval condition).truthy then c.execBlock calls bound i.body
    else c.execBlock calls bound other)

lemma execBlock_located (c : Context) (calls : Calls) (bound : Nat) (i : Instr) (rest : List Instr) :
    ∃ x tail, c.Does calls bound i x ∧ tail.length ≤ rest.length ∧ c.execBlock calls bound (i :: rest) = (do
        match ← located i (c.site i.line) x with
        | .next => c.execBlock calls bound tail
        | control => pure control) := by
  by_cases hpair : ∃ condition line other others, i.op = .branch condition ∧ rest = .mk line .otherwise other :: others
  · obtain ⟨condition, elseLine, other, others, hop, rfl⟩ := hpair
    obtain ⟨line, op, body⟩ := i
    obtain rfl : op = .branch condition := hop
    refine ⟨_, others, .inr ⟨condition, other, rfl, rfl⟩, Nat.le_succ _, ?_⟩
    rw [execBlock]
    rfl
  · refine ⟨_, rest, .inl rfl, .refl, execBlock_step ?_⟩
    exact fun condition line other others hop hrest => hpair ⟨condition, line, other, others, hop, hrest⟩

lemma site_of_execBlock : ∀ (is : List Instr) {frame frame' notes e},
    ((c.execBlock calls bound is).run.run frame).Course notes (.error e, frame') → e.site ≠ none
  | [], _, _, _, _, h => by
    rw [execBlock] at h
    cases (course_done.1 h).2
  | i :: rest, _, _, _, _, h => by
    obtain ⟨x, tail, -, hlength, hblock⟩ := execBlock_located c calls bound i rest
    rw [hblock] at h
    rcases course_bind h with ⟨_, _, control, _, rfl, -, hrest⟩ | ⟨e, heq, hfirst⟩
    · cases control with
      | next => exact site_of_execBlock tail hrest
      | _ => cases (course_done.1 hrest).2
    · cases heq
      rcases course_located hfirst with ⟨_, heq, -⟩ | ⟨_, e, -, heq, -⟩
      · cases heq
      · cases heq
        exact e.site_located _
termination_by is => is.length
decreasing_by exact Nat.lt_succ_of_le hlength

lemma site_of_start {notes : List Note} (h : (c.start fuel input).run.Course notes (.error e)) : e.site ≠ none := by
  unfold start at h
  split at h
  · cases (course_done.1 h).2
  · obtain ⟨_, _, ⟨outcome, _⟩, rfl, hcourse, hrest⟩ := course_lift_bind.1 h
    cases outcome with
    | ok control => cases (course_done.1 hrest).2
    | error e =>
      cases (course_done.1 hrest).2
      exact site_of_execBlock _ hcourse

end Context

namespace Scene

variable {s : Scene} {calls : Calls} {bound : Nat} {name : String} {f : FlowUnit} {args : List Json} {notes : List Note}

lemma runFlow_eq (hf : s.unit.flows.get? name = some f) (hargs : f.params.length = args.length ∨ f.params = []) :
    s.runFlow calls bound name args = (do
      Process.emit (.flowStarted name)
      let value ← s.runBody calls bound f args
      Process.emit (.flowFinished name value)
      pure value) := by
  have hentry : ofExcept (entry "flow" s.unit.flows name) = pure f := by
    rw [entry, hf]
    rfl
  have hfits : ¬ (!f.params.isEmpty && decide (f.params.length ≠ args.length)) = true := by
    rcases hargs with h | h <;> simp [h]
  unfold runFlow
  rw [hentry, pure_bind, if_neg hfits]

lemma site_of_runBody (h : (s.runBody calls bound f args).run.Course notes (.error e)) : e.site ≠ none := by
  obtain ⟨_, _, ⟨outcome, frame⟩, rfl, hbody, hrest⟩ := course_lift_bind.1 h
  cases outcome with
  | ok control => cases (course_done.1 hrest).2
  | error e' =>
    dsimp only at hrest
    split at hrest
    · obtain ⟨_, rfl, hblock⟩ := course_note.1 hrest
      obtain ⟨_, _, ⟨outcome, _⟩, rfl, hcourse, hrest⟩ := course_lift_bind.1 hblock
      cases outcome with
      | ok control => cases (course_done.1 hrest).2
      | error e =>
        cases (course_done.1 hrest).2
        exact site_of_execBlock _ hcourse
    · cases (course_done.1 hrest).2
      exact site_of_execBlock _ hbody

lemma site_of_callFlow (hf : s.unit.flows.get? name = some f) (hargs : f.params.length = args.length ∨ f.params = [])
    (h : (s.callFlow fuel name args).run.Course notes (.error e)) : e.site ≠ none := by
  cases fuel with
  | zero =>
    rw [callFlow] at h
    cases h
  | succ fuel =>
    rw [callFlow, runFlow_eq hf hargs] at h
    obtain ⟨_, rfl, hrest⟩ := course_note.1 h
    rcases course_bind hrest with ⟨_, _, _, rfl, -, hfinish⟩ | ⟨_, heq, hbody⟩
    · obtain ⟨_, rfl, hpure⟩ := course_note.1 hfinish
      cases (course_done.1 hpure).2
    · cases heq
      exact site_of_runBody hbody

end Scene

namespace Context

variable {c : Context} {notes : List Note}

lemma site_of_registry (h : c.registry = []) (line : Nat) : c.site line = ⟨line, c.unit.sourceMap.lookup line⟩ := by
  unfold site
  rw [h]
  rfl

lemma course_process {entry : Entry} (h : (c.process fuel entry args).run.Course notes (.error e)) :
    (c.start fuel (flowInput args)).run.Course notes (.error e) ∨
      ∃ opening told globals, notes = opening ++ told ++ [.teardown] ∧
        (c.start fuel (flowInput args)).run.Course opening (.ok globals) ∧
        (enter { c with globals := globals } fuel args entry).run.Course told (.error e) := by
  rcases course_bind h with ⟨opening, rest, globals, rfl, hstart, hrest⟩ | ⟨_, heq, hstart⟩
  · obtain ⟨told, more, outcome, rfl, henter, hclose⟩ := Process.Course.of_bind hrest
    rcases hclose with _ | hdone
    obtain ⟨rfl, rfl⟩ := course_done.1 hdone
    exact .inr ⟨opening, told, globals, (append_assoc ..).symm, hstart, henter⟩
  · cases heq
    exact .inl hstart

lemma Attributed.blamed {α : Type} (h : c.Attributed notes (.error e : Except RunError α))
    (hsite : e.site ≠ none) : ∃ i, BlamedOn i e.fault notes ∧ e.site = some (c.site i.line) :=
  h.resolve_left fun hnone => hsite hnone.2

/-- All errors of a flow that is called rightly are located once: at the line of the statement that they are
blamed on, and where the source map has that line. The run has noted down everything of a course that leads
there, and each statement of a block runs at its own site. -/
theorem flow_error_located (c : Context) (hregistry : c.registry = []) {name : String} {f : FlowUnit}
    {args : List Json} (hf : c.unit.flows.get? name = some f)
    (hargs : f.params.length = args.length ∨ f.params = []) (fuel : Nat) :
    (∀ {notes e}, (c.process fuel (.flow name) args).run.Course notes (.error e) →
      ∃ told i, (notes = told ∨ notes = told ++ [.teardown]) ∧ BlamedOn i e.fault told ∧
        e.site = some ⟨i.line, c.unit.sourceMap.lookup i.line⟩) ∧
    (∀ {σ : Type} (client : Client σ) (state : σ) {e},
      (c.run client state fuel (.flow name) args).outcome = some (.error e) →
      ∃ notes, (c.process fuel (.flow name) args).run.Course notes (.error e) ∧
        ∀ n ∈ notes, n ∈ c.notes client state fuel (.flow name) args) ∧
    ∀ calls bound i rest, ∃ x tail, c.Does calls bound i x ∧ c.execBlock calls bound (i :: rest) = (do
        match ← located i (c.site i.line) x with
        | .next => c.execBlock calls bound tail
        | control => pure control) := by
  refine ⟨fun {notes e} hcourse => ?_, fun client state e hrun => ?_, fun calls bound i rest => ?_⟩
  · rcases course_process hcourse with hstart | ⟨opening, told, globals, rfl, hstart, henter⟩
    · have hattributed := c.attribute_rules.start fuel _ hstart
      obtain ⟨i, hblamed, hsite⟩ := hattributed.blamed (site_of_start hstart)
      rw [site_of_registry hregistry] at hsite
      exact ⟨notes, i, .inl rfl, hblamed, hsite⟩
    · have hscene : Rules (Scene.toContext { c with globals := globals }) (Act.Attributes c)
        (Exec.Attributes c) := c.attribute_rules
      have hopening : Calm opening := c.attribute_rules.start fuel _ hstart
      have hattributed := (hscene.enter fuel args (.flow name) henter).append hopening
      have hnamed : e.site ≠ none := by
        rcases course_bind henter with ⟨_, _, _, rfl, -, hpure⟩ | ⟨_, heq, hflow⟩
        · cases (course_done.1 hpure).2
        · cases heq
          exact Scene.site_of_callFlow hf hargs hflow
      obtain ⟨i, hblamed, hsite⟩ := hattributed.blamed hnamed
      rw [site_of_registry hregistry] at hsite
      exact ⟨opening ++ told, i, .inr rfl, hblamed, hsite⟩
  · obtain ⟨notes, hcourse, hnotes⟩ := Machine.ends_of_run hrun
    exact ⟨notes, hcourse, fun n hn => mem_reverse.2 (hnotes n hn)⟩
  · obtain ⟨x, tail, hdoes, -, hblock⟩ := execBlock_located c calls bound i rest
    exact ⟨x, tail, hdoes, hblock⟩

end Context

/-- A flow that calls another inside a branch, and that one takes a field of nothing. -/
def nestedUnit : CompiledUnit where
  flows := [
    ("f", { name := "f", params := [], line := 3,
            body := [.mk 4 (.branch (.literal (.bool true))) [.mk 5 (.runFlow none "g" []) []]] }),
    ("g", { name := "g", params := [], line := 1, body := [.mk 2 (.ret (.path "input" ["k"])) []] })]
  hash := ""
  listing := default
  sourceMap := ⟨"unit", "main.wv", [⟨1, 1, 1, none⟩, ⟨2, 2, 3, none⟩, ⟨5, 6, 5, none⟩]⟩

/-- The error of the outer flow is located in the inner one. -/
theorem Context.flow_error_located_nested : ∃ f e notes told i, nestedUnit.flows.get? "f" = some f ∧ f.params = [] ∧
    (run { unit := nestedUnit } .steady () 40 (.flow "f") []).outcome = some (.error e) ∧
    (process { unit := nestedUnit } 40 (.flow "f") []).run.Course notes (.error e) ∧
    BlamedOn i e.fault told ∧ (notes = told ∨ notes = told ++ [.teardown]) ∧
    e.site = some ⟨i.line, some ⟨"main.wv", 2, 3⟩⟩ := by
  have hrun : (run { unit := nestedUnit } .steady () 40 (.flow "f") []).outcome.any (fun
      | .error e => e.place? = some ⟨"main.wv", 2, 3⟩
      | .ok _ => false) = true := by
    decide +kernel
  obtain ⟨outcome, houtcome, hplace⟩ := (any_eq_true _ _).1 hrun
  cases outcome with
  | ok answer => cases hplace
  | error e =>
    have hf : nestedUnit.flows.get? "f" = some _ := rfl
    obtain ⟨hlocated, hnoted, -⟩ := flow_error_located { unit := nestedUnit } rfl hf (.inr rfl) 40
    obtain ⟨notes, hcourse, -⟩ := hnoted .steady () houtcome
    obtain ⟨told, i, hnotes, hblamed, hsite⟩ := hlocated hcourse
    have hsource : nestedUnit.sourceMap.lookup i.line = some ⟨"main.wv", 2, 3⟩ := by
      rw [← of_decide_eq_true hplace, RunError.place?, hsite]
      rfl
    rw [hsource] at hsite
    exact ⟨_, e, notes, told, i, hf, rfl, houtcome, hcourse, hblamed, hnotes, hsite⟩

end Workflow
