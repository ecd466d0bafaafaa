import Workflow.Proofs.Conversations
import Workflow.Proofs.Notes
import Workflow.Proofs.Requests

/-!
Whose instructions a run sends. Every request of a run is the question of a prompt, which has no instructions,
or is made in a turn of an agent's conversation. That is kept when processes are put together.
-/

namespace Workflow

open List Process

/-! ### Properties of all that is asked -/

def Process.Asks {α : Type} (C : List Exchange → Prop) (p : Process α) : Prop :=
  ∀ asked r, p.Trail asked r → C asked

/-- A property of what is asked that is kept when more is asked before, after or in between. -/
structure Mergeable (C : List Exchange → Prop) : Prop where
  nil : C []
  append : ∀ {xs ys}, C xs → C ys → C (xs ++ ys)
  interleaves : ∀ {count : Nat} {parts : Fin count → List Exchange} {whole}, (∀ i, C (parts i)) →
    Interleaves parts whole → C whole

namespace Mergeable

variable {α β : Type} {C : List Exchange → Prop} (h : Mergeable C)

include h

lemma asks_done (a : α) : (done a).Asks C := by
  intro asked r htrail
  rw [(trail_done htrail).1]
  exact h.nil

lemma asks_bind {p : Process α} {f : α → Process β} (hp : p.Asks C) (hf : ∀ a, (f a).Asks C) : (p >>= f).Asks C := by
  intro asked r htrail
  rcases htrail.of_bind with ⟨-, hopen⟩ | ⟨first, rest, a, rfl, hfirst, hrest⟩
  · exact hp _ _ hopen
  · exact h.append (hp _ _ hfirst) (hf a _ _ hrest)

lemma asks_tell (notes : List Note) : (tell notes .done).Asks C := by
  intro asked r htrail
  rcases htrail with _ | _ | after
  · exact h.nil
  · exact h.asks_done _ _ _ after

lemma asks_within {limit : Duration} {body : Process Outcome} (hbody : body.Asks C) :
    (within limit body .done).Asks C := by
  intro asked r htrail
  cases htrail with
  | here => exact h.nil
  | inside within => exact hbody _ _ within
  | inTime within after | late within after => exact h.append (hbody _ _ within) (h.asks_done _ _ _ after)

lemma asks_branches {ps : List (Process Outcome)} (hps : ∀ p ∈ ps, p.Asks C) : (branches ps).Asks C := by
  have hget : ∀ i, (ps.get i).Asks C := fun i => hps _ (get_mem ps i)
  intro asked r htrail
  cases htrail with
  | here => exact h.nil
  | beside within order => exact h.interleaves (fun i => hget i _ _ (within i)) order
  | joined _ within order after | failed _ _ within order after =>
    exact h.append (h.interleaves (fun i => hget i _ _ (within i)) order) (h.asks_done _ _ _ after)

lemma closed (agents : Table AgentSpec) : Process.Closed agents (Process.Asks C) where
  done := h.asks_done
  stuck asked r htrail := by
    cases htrail
    exact h.nil
  bind := h.asks_bind
  note _ := h.asks_tell _
  pause := h.asks_tell _
  wait time asked r htrail := by
    rcases htrail with _ | _ | _ | _ | _ | after
    · exact h.nil
    · exact h.asks_done _ _ _ after
  within := h.asks_within
  branches := h.asks_branches

lemma composable (c : Context) : Composable c (fun x => x.run.Asks C) (fun x => ∀ frame, (x.run.run frame).Asks C) :=
  (h.closed c.unit.agents).composable

lemma asks_process {c : Context} (ha : Answering c fun x => x.run.Asks C) (fuel : Nat) (entry : Entry)
    (args : List Json) : (c.process fuel entry args).run.Asks C := by
  refine (h.composable c).chain ((h.composable c).start ha fuel _) fun globals => ?_
  have hanswering : Answering (Scene.toContext { c with globals := globals }) fun x => x.run.Asks C := ha
  refine h.asks_bind ((h.composable _).enter hanswering fuel args entry) fun outcome => ?_
  exact h.asks_bind (h.asks_tell _) fun _ => h.asks_done _

end Mergeable

/-! ### Requests of runs -/

namespace Context

variable {c : Context} {guard : Guard} {bindings : Table Json} {asked : List Exchange}

/-- A request is accounted for: it has no instructions, or an agent of the unit makes it in a turn of its
conversation, and all that is asked in this conversation is there. -/
def Accounts (c : Context) (whole : List Exchange) (x : Exchange) : Prop :=
  (∀ m ∈ x.request.messages, m.role ≠ .system) ∨
    ∃ name guard bindings h start s input first before turns, c.unit.agents.get? name = some h.spec ∧
      c.Talk guard bindings h start s input first before turns ∧
      (before ++ turns.flatMap Turn.exchanges).Sublist whole ∧ ∃ t ∈ turns, x ∈ t.tries

lemma Accounts.mono (h : c.Accounts whole x) (hsublist : whole.Sublist whole') : c.Accounts whole' x := by
  rcases h with hplain | ⟨name, guard, bindings, tree, start, s, input, first, before, turns, hname, htalk, hall, hx⟩
  · exact .inl hplain
  · exact .inr ⟨name, guard, bindings, tree, start, s, input, first, before, turns, hname, htalk,
      hall.trans hsublist, hx⟩

def Accounted (c : Context) (asked : List Exchange) : Prop := ∀ x ∈ asked, c.Accounts asked x

lemma accounted_of_parts {whole : List Exchange} (h : ∀ x ∈ whole, c.Accounts whole x ∨
    ∃ part : List Exchange, c.Accounted part ∧ part.Sublist whole ∧ x ∈ part) : c.Accounted whole := by
  intro x hx
  rcases h x hx with haccounts | ⟨part, hpart, hsublist, hmem⟩
  · exact haccounts
  · exact (hpart x hmem).mono hsublist

lemma accounted_mergeable (c : Context) : Mergeable c.Accounted where
  nil := nofun
  append {xs ys} hxs hys := by
    refine accounted_of_parts fun x hx => .inr ?_
    rcases mem_append.1 hx with hx | hx
    · exact ⟨xs, hxs, sublist_append_left xs ys, hx⟩
    · exact ⟨ys, hys, sublist_append_right xs ys, hx⟩
  interleaves hparts order := by
    refine accounted_of_parts fun x hx => .inr ?_
    obtain ⟨i, hi⟩ := order.exists_mem hx
    exact ⟨_, hparts i, order.sublist i, hi⟩

lemma sublist_flatMap {α : Type} {f : α → List Exchange} {a : α} {as : List α} (h : a ∈ as) :
    (f a).Sublist (as.flatMap f) := by
  rw [flatMap_def]
  exact sublist_flatten_of_mem (mem_map_of_mem h)

lemma accounted_callPrompt (hguard : ∀ event text, (guard event text).run.Asks c.Accounted) (name : String)
    (args : List Json) (model : Option String) (bindings : Table Json) :
    (c.callPrompt guard name args model bindings).run.Asks c.Accounted := by
  intro asked r htrail
  rcases callPrompt_attempts htrail with ⟨rfl, -⟩ | ⟨p, m, schema, attempts, -, -, hattempts⟩
  · exact c.accounted_mergeable.nil
  rw [hattempts.asked_eq]
  refine accounted_of_parts fun x hx => ?_
  obtain ⟨a, ha, hx⟩ := mem_flatMap.1 hx
  rcases mem_cons.1 hx with rfl | hmeanwhile
  · obtain ⟨more, hmore, hroles⟩ := hattempts.continues a ha
    refine .inl (.inl ?_)
    rw [hmore]
    exact forall_mem_append.2 ⟨forall_mem_singleton.2 nofun, hroles⟩
  · refine .inr ⟨a.meanwhile, ?_, ?_, hmeanwhile⟩
    · have hhandled := hattempts.handled a ha
      unfold Attempt.Handled at hhandled
      split at hhandled
      · exact hguard _ _ _ _ hhandled
      · rw [hhandled.1]
        exact c.accounted_mergeable.nil
    · have hattempt : a.meanwhile.Sublist a.exchanges := sublist_cons_self ..
      exact hattempt.trans (sublist_flatMap ha)

mutual

theorem accounted_invoke (hguard : ∀ event text, (guard event text).run.Asks c.Accounted) (bindings : Table Json) :
    ∀ h : Hierarchy, h.All (fun spec => ∃ name, c.unit.agents.get? name = some spec) →
    ∀ start, (c.invoke guard bindings h start).run.Asks c.Accounted
  | .node spec delegates tools, hall, start => by
    have hrules := c.accounted_mergeable.composable c
    have hdelegates := accounted_invokes hguard bindings delegates hall.2.1
    have htools := accounted_invokes hguard bindings tools hall.2.2
    intro asked r htrail
    rcases invoke_talk htrail with ⟨r, hopen⟩ | ⟨s, input, first, before, turns, rfl, htalk⟩
    · exact hrules.talking.openWith (fun event text _ => hguard event text) start _ _ hopen
    refine accounted_of_parts fun x hx => ?_
    rcases mem_append.1 hx with hbefore | hturns
    · refine .inr ⟨before, ?_, sublist_append_left .., hbefore⟩
      exact hrules.talking.openWith (fun event text _ => hguard event text) start _ _ htalk.opened
    obtain ⟨t, ht, hx⟩ := mem_flatMap.1 hturns
    rcases mem_append.1 hx with htries | hmeanwhile
    · obtain ⟨name, hname⟩ := hall.1
      exact .inl (.inr ⟨name, guard, bindings, .node spec delegates tools, start, s, input, first, before, turns,
        hname, htalk, .refl _, t, ht, htries⟩)
    · refine .inr ⟨t.meanwhile, ?_, ?_, hmeanwhile⟩
      · rcases htalk.meanwhile t ht with hnone | ⟨reply, -, hfollows⟩
        · rw [hnone]
          exact c.accounted_mergeable.nil
        · cases hfollows with
          | tool action trail =>
            refine hrules.talking.callTool (fun event text _ => hguard event text)
              (fun {tool run} hrun start => ?_) _ _ _ _ trail
            rw [htalk.speaks.tool] at hrun
            obtain ⟨d, hd, -, rfl⟩ := mem_of_invokeNamed hrun
            exact htools d hd start
          | delegate action known trail => exact hdelegates _ known _ _ _ trail
          | output action trail => exact hguard _ _ _ _ trail
      · have hturn : t.meanwhile.Sublist t.exchanges := sublist_append_right ..
        exact (hturn.trans (sublist_flatMap ht)).trans (sublist_append_right ..)

theorem accounted_invokes (hguard : ∀ event text, (guard event text).run.Asks c.Accounted) (bindings : Table Json) :
    ∀ hs : List Hierarchy, Hierarchy.AllOf (fun spec => ∃ name, c.unit.agents.get? name = some spec) hs →
    ∀ h ∈ hs, ∀ start, (c.invoke guard bindings h start).run.Asks c.Accounted
  | [], _, _, hmem, _ => nomatch hmem
  | first :: rest, hall, h, hmem, start => by
    rcases mem_cons.1 hmem with heq | hrest
    · rw [heq]
      exact accounted_invoke hguard bindings first hall.1 start
    · exact accounted_invokes hguard bindings rest hall.2 h hrest start

end

lemma accounted_answering (c : Context) : Answering c (fun x => x.run.Asks c.Accounted) where
  agent hguard name args bindings := by
    have hrules := c.accounted_mergeable.composable c
    unfold runAgent
    split
    · exact hrules.fault _
    · next tree hbuild =>
      refine hrules.chain (hrules.built hbuild) fun _ => ?_
      exact accounted_invoke hguard bindings _ (Hierarchy.all_of_build hbuild) _
  prompt := accounted_callPrompt

lemma request_of_transfer (hinvoke : (c.invoke guard bindings h (.transfer messages)).run.Trail asked r) :
    ∀ x ∈ asked.head?, ∃ s, c.Speaks guard bindings h s ∧ x.request = request s.model
      (s.instructions bindings (lastInput messages) :: messages.filter (·.role ≠ .system)) s.tools := by
  intro x hx
  rcases invoke_talk hinvoke with ⟨r, hopen⟩ | ⟨s, input, first, before, turns, rfl, htalk⟩
  · rw [(Act.trail_pure hopen).1] at hx
    cases hx
  obtain ⟨rfl, hr | hr⟩ := Act.trail_pure htalk.opened
  · cases hr
  cases hr
  cases turns with
  | nil => cases hx
  | cons t rest =>
    obtain ⟨hbegun, hown⟩ := htalk.own t mem_cons_self
    obtain ⟨y, tries, htries⟩ := exists_cons_of_ne_nil hbegun
    rw [nil_append, flatMap_cons, Turn.exchanges, htries] at hx
    cases hx
    refine ⟨s, htalk.speaks, ?_⟩
    rw [hown x (htries ▸ .head _), htalk.begins t rfl]

/-- Whose instructions are sent. An agent asks its model turn by turn, with its own instructions in front, no
others, and all that was said before. An agent that takes over starts with its own instructions and all messages
it gets but those of the agent before. All requests of a run are of this kind, or have no instructions. -/
theorem conversations_instructed (c : Context) :
    (∀ {guard bindings h start asked r}, (c.invoke guard bindings h start).run.Trail asked r →
      (∃ r, (openWith guard start).run.Trail asked r) ∨ ∃ s input first before turns,
        asked = before ++ turns.flatMap Turn.exchanges ∧ c.Talk guard bindings h start s input first before turns) ∧
    (∀ {guard bindings h messages asked r}, (c.invoke guard bindings h (.transfer messages)).run.Trail asked r →
      ∀ x ∈ asked.head?, ∃ s, c.Speaks guard bindings h s ∧ x.request = request s.model
        (s.instructions bindings (lastInput messages) :: messages.filter (·.role ≠ .system)) s.tools) ∧
    (∀ {fuel entry args asked r}, (c.process fuel entry args).run.Trail asked r → c.Accounted asked) ∧
    ∀ {σ : Type} (client : Client σ) (state : σ) (fuel : Nat) (entry : Entry) (args : List Json),
      ∃ asked, asked.map (·.request) = (c.run client state fuel entry args).requests ∧
        (c.process fuel entry args).run.Trail asked (c.run client state fuel entry args).outcome ∧
        c.Accounted asked := by
  have haccounted := c.accounted_mergeable.asks_process c.accounted_answering
  refine ⟨invoke_talk, request_of_transfer, fun htrail => haccounted _ _ _ _ _ htrail, ?_⟩
  intro σ client state fuel entry args
  obtain ⟨asked, hasked, htrail⟩ := Machine.trail_of_run client state fuel (c.process fuel entry args).run
  exact ⟨asked, hasked, htrail, haccounted fuel entry args _ _ htrail⟩

end Context

def relayUnit : CompiledUnit where
  prompts := [("lead", { name := "lead", template := "You lead." }),
    ("write", { name := "write", template := "You write." })]
  agents := [("lead", { name := "lead", instruction := "lead", delegate := ["writer"] }),
    ("writer", { name := "writer", instruction := "write" })]
  hash := ""
  listing := default
  sourceMap := ⟨"unit", "main.wv", []⟩

def writerTree : Hierarchy := .node { name := "writer", instruction := "write" } [] []

/-- The second request has the instructions of the agent that takes over, and what was said before. -/
theorem Context.conversations_instructed_relay : ∃ x y s,
    (process { unit := relayUnit } 1 (.agent "lead") [.str "hi"]).run.Trail [x, y] none ∧
    Context.Accounted { unit := relayUnit } [x, y] ∧
    (invoke { unit := relayUnit } .idle [] writerTree (.transfer x.request.messages)).run.Trail [y] none ∧
    Context.Speaks { unit := relayUnit } .idle [] writerTree s ∧
    x.request.messages = [.system "You lead.", .user "hi"] ∧
    y.request.messages = [s.instructions [] "hi", .user "hi"] := by
  have hrun : ∃ x y, (process { unit := relayUnit } 1 (.agent "lead") [.str "hi"]).run.Trail [x, y] none ∧
      (invoke { unit := relayUnit } .idle [] writerTree (.transfer x.request.messages)).run.Trail [y] none ∧
      x.request.messages = [.system "You lead.", .user "hi"] :=
    ⟨_, _, .tell (.tell (.ask (.ok { content := "", action := some (.transfer "writer") })
      (.tell (.tell .waits)))), .tell .waits, by decide +kernel⟩
  obtain ⟨x, y, hrun, hinvoke, hx⟩ := hrun
  obtain ⟨-, htransfer, haccounted, -⟩ := Context.conversations_instructed { unit := relayUnit }
  obtain ⟨s, hs, hy⟩ := htransfer hinvoke y rfl
  refine ⟨x, y, s, hrun, haccounted hrun, hinvoke, hs, hx, ?_⟩
  rw [hy, hx]
  rfl

end Workflow
