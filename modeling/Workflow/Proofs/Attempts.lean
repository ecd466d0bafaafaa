import Workflow.Proofs.Trails
import Workflow.Run.Prompt

/-!
The attempts of a prompt. `Context.askFrom_step` says what one attempt can do, and `Context.askFrom_attempts`
what follows for a call: there are no more attempts than the settings allow, each sends the messages of the one
before and two more, and a call fails for its schema only after the last attempt.
-/

namespace Workflow

open List Act

variable {r : Option (Except RunError Reply)} {asked : List Exchange} {fault : RunFault}

/-! ### Asking a model -/

/-- What is asked until a model has answered: one request again and again, and the answer to the last one
counts. -/
structure Tried (request : Request) (asked : List Exchange) (r : Option (Except RunError Reply)) : Prop where
  own : ∀ x ∈ asked, x.request = request
  answered : ∀ reply, r = some (.ok reply) → asked.getLast? = some ⟨request, some (.ok reply)⟩
  failed : ∀ e, r = some (.error e) →
    ∃ error, e.fault = .model error ∧ asked.getLast? = some ⟨request, some (.error error)⟩

namespace Tried

variable {request : Request}

lemma nothing : Tried request [] none := ⟨nofun, nofun, nofun⟩

lemma once {reply : Option (Except ModelError Reply)}
    (answered : ∀ answer, r = some (.ok answer) → reply = some (.ok answer))
    (failed : ∀ e, r = some (.error e) → ∃ error, e.fault = .model error ∧ reply = some (.error error)) :
    Tried request [⟨request, reply⟩] r := by
  refine ⟨fun x hx => ?_, fun answer hr => ?_, fun e hr => ?_⟩
  · rw [mem_singleton.1 hx]
  · rw [answered answer hr, List.getLast?_singleton]
  · obtain ⟨error, hfault, hreply⟩ := failed e hr
    exact ⟨error, hfault, by rw [hreply, List.getLast?_singleton]⟩

lemma again (reply : Except ModelError Reply) (h : Tried request asked r) :
    Tried request (⟨request, some reply⟩ :: asked) r := by
  have hlast : ∀ {x : Exchange}, asked.getLast? = some x → (⟨request, some reply⟩ :: asked).getLast? = some x := by
    intro x hx
    rw [List.getLast?_cons, hx]
    rfl
  refine ⟨forall_mem_cons.2 ⟨rfl, h.own⟩, fun answer hr => ?_, fun e hr => ?_⟩
  · exact hlast (h.answered answer hr)
  · obtain ⟨error, hfault, herror⟩ := h.failed e hr
    exact ⟨error, hfault, hlast herror⟩

end Tried

namespace Context

variable {request : Request}

lemma complete_once (c : Context) (h : (c.complete none request).run.Trail asked r) :
    (asked = [] ∧ r = none) ∨ ∃ reply, asked = [⟨request, reply⟩] ∧
      (∀ answer, r = some (.ok answer) → reply = some (.ok answer)) ∧
      ∀ e, r = some (.error e) → ∃ error, e.fault = .model error ∧ reply = some (.error error) := by
  rcases h with _ | _ | _ | _ | ⟨reply, after⟩
  · exact .inl ⟨rfl, rfl⟩
  · exact .inr ⟨none, rfl, nofun, nofun⟩
  · refine .inr ⟨some reply, ?_⟩
    cases reply with
    | ok answer =>
      obtain ⟨rfl, rfl | rfl⟩ := Process.trail_done after
      · exact ⟨rfl, nofun, nofun⟩
      · exact ⟨rfl, fun _ hr => by cases hr; rfl, nofun⟩
    | error error =>
      obtain ⟨rfl, rfl | rfl⟩ := Process.trail_done after
      · exact ⟨rfl, nofun, nofun⟩
      · exact ⟨rfl, nofun, fun _ hr => by cases hr; exact ⟨error, rfl, rfl⟩⟩

lemma tried_once (c : Context) (h : (c.complete none request).run.Trail asked r) : Tried request asked r := by
  rcases c.complete_once h with ⟨rfl, rfl⟩ | ⟨reply, rfl, hanswered, hfailed⟩
  · exact .nothing
  · exact .once hanswered hfailed

lemma completeFrom_tried (c : Context) (policy : RetryPolicy) (request : Request) (left : Nat) :
    ∀ {attempt asked r}, (c.completeFrom policy request attempt left).run.Trail asked r → Tried request asked r := by
  induction left with
  | zero => exact c.tried_once
  | succ left ih =>
    intro attempt asked r h
    rcases h with _ | _ | _ | _ | ⟨reply, after⟩
    · exact .nothing
    · exact .once nofun nofun
    · cases reply with
      | ok answer =>
        obtain ⟨rfl, rfl | rfl⟩ := Process.trail_done after
        · exact .once nofun nofun
        · exact .once (fun _ hr => by cases hr; rfl) nofun
      | error error =>
        rcases after with _ | _ | _ | _ | _ | after
        · exact .once nofun nofun
        · exact (ih after).again _

lemma complete_tried (c : Context) (h : (c.complete policy request).run.Trail asked r) : Tried request asked r := by
  cases policy with
  | none => exact c.tried_once h
  | some p =>
    have htries : (c.completeFrom p request 1 (p.attempts - 1)).run.Trail asked r := h
    exact c.completeFrom_tried p request _ htries

end Context

/-! ### Messages -/

/-- Messages go on with some more, none of which has instructions. -/
def Continues (messages messages' : List Message) : Prop :=
  ∃ more, messages' = messages ++ more ∧ ∀ m ∈ more, m.role ≠ .system

namespace Continues

variable {messages messages' messages'' : List Message}

lemma refl (messages : List Message) : Continues messages messages :=
  ⟨[], (append_nil messages).symm, nofun⟩

lemma trans (h : Continues messages messages') (h' : Continues messages' messages'') :
    Continues messages messages'' := by
  obtain ⟨more, rfl, hmore⟩ := h
  obtain ⟨others, rfl, hothers⟩ := h'
  exact ⟨more ++ others, append_assoc .., forall_mem_append.2 ⟨hmore, hothers⟩⟩

lemma starts (h : Continues messages messages') : messages <+: messages' := by
  obtain ⟨more, rfl, -⟩ := h
  exact prefix_append messages more

lemma sent_back (messages : List Message) (text feedback : String) :
    Continues messages (messages ++ [.assistant text, .user feedback]) :=
  ⟨_, rfl, forall_mem_cons.2 ⟨nofun, forall_mem_singleton.2 nofun⟩⟩

end Continues

/-! ### Attempts -/

/-- One attempt at a prompt: what the model is asked, what comes back, what the output handler asks meanwhile,
and what it makes of it. -/
structure Attempt where
  request : Request
  reply : Option (Except ModelError Reply)
  meanwhile : List Exchange
  judged : Option (Except RunError Guarded)

namespace Attempt

def exchanges (a : Attempt) : List Exchange := ⟨a.request, a.reply⟩ :: a.meanwhile

/-- The output handler gets the answer; without one there is nothing to judge. -/
def Handled (guard : Guard) (a : Attempt) : Prop :=
  match a.reply with
  | some (.ok reply) => (guard .output reply.content).run.Trail a.meanwhile a.judged
  | _ => a.meanwhile = [] ∧ a.judged = none

lemma handled_open (guard : Guard) (request : Request) (reply : Option (Except ModelError Reply)) :
    Handled guard ⟨request, reply, [], none⟩ := by
  rcases reply with _ | error | reply
  · exact ⟨rfl, rfl⟩
  · exact ⟨rfl, rfl⟩
  · exact .here

/-- How a call may end with an attempt: it stops there, it fails, or the answer is taken. -/
inductive Ends (schema : Option SchemaSpec) (a : Attempt) : Option Outcome → Prop where
  | stops : Ends schema a none
  | model {e} (error : ModelError) (fault : e.fault = .model error) : Ends schema a (some (.error e))
  | handler {e} (judged : a.judged = some (.error e)) : Ends schema a (some (.error e))
  | taken {guarded} {answer} (judged : a.judged = some (.ok guarded))
      (text : answer.text = guarded.text) (value : Context.valueOf schema answer.text = .ok answer.value) :
      Ends schema a (some (.ok answer))

end Attempt

namespace Context

variable {c : Context} {guard : Guard} {p : PromptSpec} {m : ModelSpec} {schema : Option SchemaSpec}
  {attempt left : Nat} {reason : String} {messages : List Message} {r : Option Outcome}

lemma trail_escalates {β : Type} {source text : String} {k : Bool → Act β} {r : Option (Except RunError β)}
    (h : ((liftM (escalates p source text) : Act Bool) >>= k).run.Trail asked r) :
    (asked = [] ∧ r = none) ∨ ∃ escalated, (k escalated).run.Trail asked r := by
  unfold escalates at h
  split at h
  · split at h
    · rcases h with _ | _ | after
      · exact .inl ⟨rfl, rfl⟩
      · exact .inr ⟨true, after⟩
    · exact .inr ⟨false, h⟩
  · exact .inr ⟨false, h⟩

/-- What one attempt can do: nothing yet, end the call, or send the answer back, which the schema has rejected
if no attempt is left. -/
lemma askFrom_step (h : (c.askFrom guard p m schema attempt reason messages (left + 1)).run.Trail asked r) :
    (asked = [] ∧ r = none) ∨ ∃ a : Attempt, a.request = request m messages [] ∧ a.Handled guard ∧
      (asked = a.exchanges ∧ a.Ends schema r ∨
        ∃ guarded feedback why rest, a.judged = some (.ok guarded) ∧ asked = a.exchanges ++ rest ∧
          (left = 0 → ∃ error, valueOf schema guarded.text = .error error ∧ why = error.message) ∧
          (c.askFrom guard p m schema (attempt + 1) why
            (messages ++ [.assistant guarded.text, .user feedback]) left).run.Trail rest r) := by
  rcases trail_note h with hnone | hask
  · exact .inl hnone
  rcases trail_bind hask with hcut | ⟨first, others, reply, rfl, hcomplete, hanswer⟩
  · -- The model has not answered, or not with an answer.
    rcases hcut with ⟨rfl, hcomplete⟩ | ⟨e, rfl, hcomplete⟩
    · rcases c.complete_once hcomplete with ⟨rfl, -⟩ | ⟨reply, rfl, -, -⟩
      · exact .inl ⟨rfl, rfl⟩
      · exact .inr ⟨⟨_, reply, [], none⟩, rfl, Attempt.handled_open guard _ reply, .inl ⟨rfl, .stops⟩⟩
    · rcases c.complete_once hcomplete with ⟨-, hr⟩ | ⟨reply, rfl, -, hfailed⟩
      · cases hr
      · obtain ⟨error, hfault, rfl⟩ := hfailed e rfl
        exact .inr ⟨⟨_, some (.error error), [], none⟩, rfl, ⟨rfl, rfl⟩, .inl ⟨rfl, .model error hfault⟩⟩
  refine .inr ?_
  obtain ⟨_, hr⟩ | ⟨_, rfl, hreply, -⟩ := c.complete_once hcomplete
  · cases hr
  cases hreply reply rfl
  rcases trail_bind hanswer with hcut | ⟨meanwhile, rest, guarded, rfl, hguard, hjudged⟩
  · -- The output handler is not through yet, or fails.
    rcases hcut with ⟨rfl, hguard⟩ | ⟨e, rfl, hguard⟩
    · exact ⟨⟨_, some (.ok reply), others, none⟩, rfl, hguard, .inl ⟨rfl, .stops⟩⟩
    · exact ⟨⟨_, some (.ok reply), others, some (.error e)⟩, rfl, hguard, .inl ⟨rfl, .handler rfl⟩⟩
  refine ⟨⟨_, some (.ok reply), meanwhile, some (.ok guarded)⟩, rfl, hguard, ?_⟩
  dsimp only at hjudged
  split at hjudged
  · next feedback left' _ => exact .inr ⟨guarded, feedback, reason, rest, rfl, rfl, nofun, hjudged⟩
  · split at hjudged
    · next error hvalue =>
      exact .inr ⟨guarded, error.correction, error.message, rest, rfl, rfl, fun _ => ⟨error, hvalue, rfl⟩, hjudged⟩
    · next value hvalue =>
      left
      rcases trail_escalates hjudged with ⟨rfl, rfl⟩ | ⟨escalated, hpure⟩
      · rw [append_nil]
        exact ⟨rfl, .stops⟩
      · obtain ⟨rfl, rfl | rfl⟩ := trail_pure hpure
        all_goals rw [append_nil]
        · exact ⟨rfl, .stops⟩
        · exact ⟨rfl, .taken rfl rfl hvalue⟩

/-- The attempts of a call that may make so many of them. When none is left, it fails for what was wrong before. -/
inductive Attempts (guard : Guard) (m : ModelSpec) (schema : Option SchemaSpec) (fault : String → RunFault) :
    Nat → String → List Message → List Attempt → List Exchange → Option Outcome → Prop where
  | nothing {left : Nat} {reason : String} {messages : List Message} :
      Attempts guard m schema fault left reason messages [] [] none
  | exhausted {reason : String} {messages : List Message} :
      Attempts guard m schema fault 0 reason messages [] [] (some (.error { fault := fault reason }))
  | last {left : Nat} {reason : String} {messages : List Message} {a : Attempt} {r : Option Outcome}
      (request : a.request = request m messages []) (handled : a.Handled guard) (ends : a.Ends schema r) :
      Attempts guard m schema fault (left + 1) reason messages [a] a.exchanges r
  | again {left : Nat} {reason why feedback : String} {messages : List Message} {a : Attempt}
      {guarded : Guarded} {rest : List Attempt} {asked : List Exchange} {r : Option Outcome}
      (request : a.request = request m messages []) (handled : a.Handled guard)
      (judged : a.judged = some (.ok guarded))
      (rejected : left = 0 → ∃ error, valueOf schema guarded.text = .error error ∧ why = error.message)
      (after : Attempts guard m schema fault left why (messages ++ [.assistant guarded.text, .user feedback])
        rest asked r) :
      Attempts guard m schema fault (left + 1) reason messages (a :: rest) (a.exchanges ++ asked) r

lemma askFrom_attempts (left : Nat) : ∀ {attempt reason messages asked r},
    (c.askFrom guard p m schema attempt reason messages left).run.Trail asked r →
    ∃ attempts, Attempts guard m schema (.unstructured p.name ((schema.map (·.name)).getD "") c.attempts)
      left reason messages attempts asked r := by
  induction left with
  | zero =>
    intro attempt reason messages asked r h
    obtain ⟨rfl, rfl | rfl⟩ := trail_fail h
    · exact ⟨[], .nothing⟩
    · exact ⟨[], .exhausted⟩
  | succ left ih =>
    intro attempt reason messages asked r h
    rcases askFrom_step h with ⟨rfl, rfl⟩ | ⟨a, hrequest, hhandled, ⟨rfl, hends⟩ | hagain⟩
    · exact ⟨[], .nothing⟩
    · exact ⟨[a], .last hrequest hhandled hends⟩
    · obtain ⟨guarded, feedback, why, rest, hjudged, rfl, hrejected, hrest⟩ := hagain
      obtain ⟨attempts, hattempts⟩ := ih hrest
      exact ⟨a :: attempts, .again hrequest hhandled hjudged hrejected hattempts⟩

namespace Attempts

variable {fault : String → RunFault} {attempts : List Attempt}
  (h : Attempts guard m schema fault left reason messages attempts asked r)

include h

lemma asked_eq : asked = attempts.flatMap Attempt.exchanges := by
  induction h with
  | nothing | exhausted => rfl
  | last => exact (append_nil _).symm
  | again _ _ _ _ _ ih => rw [flatMap_cons, ih]

lemma handled : ∀ a ∈ attempts, a.Handled guard := by
  induction h with
  | nothing | exhausted => exact forall_mem_nil _
  | last _ handled => exact forall_mem_singleton.2 handled
  | again _ handled _ _ _ ih => exact forall_mem_cons.2 ⟨handled, ih⟩

lemma length_le : attempts.length ≤ left := by
  induction h with
  | nothing => exact Nat.zero_le _
  | exhausted => exact Nat.le_refl 0
  | last => exact Nat.le_add_left 1 _
  | again _ _ _ _ _ ih => exact Nat.succ_le_succ ih

lemma continues : ∀ a ∈ attempts, Continues messages a.request.messages := by
  induction h with
  | nothing | exhausted => exact forall_mem_nil _
  | last request =>
    rw [forall_mem_singleton, request]
    exact .refl _
  | again request _ _ _ _ ih =>
    rw [forall_mem_cons, request]
    exact ⟨.refl _, fun b hb => (Continues.sent_back ..).trans (ih b hb)⟩

lemma length_messages : ∀ k a, attempts[k]? = some a → a.request.messages.length = messages.length + 2 * k := by
  induction h with
  | nothing | exhausted => exact fun k a hk => nomatch hk
  | last request =>
    intro k b hk
    cases k with
    | zero =>
      cases hk
      rw [request]
      rfl
    | succ k => cases hk
  | again request _ _ _ _ ih =>
    intro k b hk
    cases k with
    | zero =>
      cases hk
      rw [request]
      rfl
    | succ k =>
      rw [ih k b hk, length_append, length_cons, length_singleton]
      omega

lemma pairwise : attempts.Pairwise fun a b => a.request.messages <+: b.request.messages := by
  induction h with
  | nothing | exhausted => exact .nil
  | last => exact pairwise_singleton _ _
  | again request _ _ _ after ih =>
    rw [pairwise_cons, request]
    exact ⟨fun b hb => ((Continues.sent_back ..).trans (after.continues b hb)).starts, ih⟩

lemma answered {answer : Answer} (hr : r = some (.ok answer)) : valueOf schema answer.text = .ok answer.value := by
  induction h with
  | nothing | exhausted => cases hr
  | last _ _ ends =>
    subst hr
    cases ends with
    | taken _ _ value => exact value
  | again _ _ _ _ _ ih => exact ih hr

/-- A call fails with a model, with the output handler, or when no attempt is left: then for what was
wrong with the last answer. -/
lemma failed (hr : r = some (.error e)) : (∃ error, e.fault = .model error) ∨
      (∃ a ∈ attempts, a.judged = some (.error e)) ∨ attempts.length = left ∧
        ∃ why, e.fault = fault why ∧ (attempts = [] → why = reason) ∧
          ∀ a ∈ attempts.getLast?, ∃ guarded error, a.judged = some (.ok guarded) ∧
            valueOf schema guarded.text = .error error ∧ why = error.message := by
  induction h with
  | nothing => cases hr
  | exhausted =>
    cases hr
    exact .inr (.inr ⟨rfl, _, rfl, fun _ => rfl, fun a ha => nomatch ha⟩)
  | @last _ _ _ a _ _ _ ends =>
    subst hr
    cases ends with
    | model error fault => exact .inl ⟨error, fault⟩
    | handler judged => exact .inr (.inl ⟨a, mem_singleton_self a, judged⟩)
  | @again left _ _ _ _ a guarded rest _ _ _ _ judged rejected after ih =>
    rcases ih hr with hmodel | ⟨b, hb, hjudged⟩ | ⟨hlength, why, hfault, hwhy, hlast⟩
    · exact .inl hmodel
    · exact .inr (.inl ⟨b, .tail _ hb, hjudged⟩)
    · refine .inr (.inr ⟨congrArg (· + 1) hlength, why, hfault, nofun, ?_⟩)
      intro b hb
      cases rest with
      | nil =>
        cases hb
        obtain ⟨error, hvalue, rfl⟩ := rejected hlength.symm
        exact ⟨guarded, error, judged, hvalue, hwhy rfl⟩
      | cons first others => exact hlast b (List.getLast?_cons_cons ▸ hb)

end Attempts

/-! ### Calls -/

lemma undefined_of_entry {α : Type} {kind name : String} {table : Table α}
    (h : entry kind table name = .error fault) : fault = .undefined kind name := by
  unfold entry at h
  split at h
  · cases h
  · exact (Except.error.inj h).symm

lemma undefined_of_model (h : c.model requested declared = .error fault) :
    ∃ name, fault = .undefined "model" name := by
  unfold model at h
  dsimp only at h
  split at h
  · cases h
  · split at h
    · cases h
    · exact ⟨_, (Except.error.inj h).symm⟩

lemma undefined_of_schema (h : c.schema p = .error fault) : ∃ name, fault = .undefined "schema" name := by
  unfold schema at h
  split at h
  · next name _ =>
    cases hentry : entry "schema" c.unit.schemas name with
    | ok s =>
      rw [hentry] at h
      cases h
    | error fault =>
      rw [hentry] at h
      cases h
      exact ⟨name, undefined_of_entry hentry⟩
  · cases h

lemma callPrompt_attempts {name : String} {args : List Json} {model : Option String} {bindings : Table Json}
    (h : (c.callPrompt guard name args model bindings).run.Trail asked r) :
    (asked = [] ∧ ∀ o ∈ r, ∃ kind name, o = .error { fault := .undefined kind name }) ∨
      ∃ p m schema attempts, c.prompt name = .ok p ∧ c.schema p = .ok schema ∧
        Attempts guard m schema (.unstructured p.name ((schema.map (·.name)).getD "") c.attempts) c.attempts ""
          [.user (question p schema args bindings)] attempts asked r := by
  have hunknown : ∀ {fault : RunFault}, (∃ kind name, fault = .undefined kind name) →
      ∀ o ∈ some (.error { fault := fault } : Outcome), ∃ kind name, o = .error { fault := .undefined kind name } := by
    rintro _ ⟨kind, name, rfl⟩ o ⟨⟩
    exact ⟨kind, name, rfl⟩
  rcases trail_ofExcept h with ⟨rfl, rfl | ⟨fault, hp, rfl⟩⟩ | ⟨p, hp, hmodel⟩
  · exact .inl ⟨rfl, nofun⟩
  · exact .inl ⟨rfl, hunknown ⟨_, _, undefined_of_entry hp⟩⟩
  rcases trail_ofExcept hmodel with ⟨rfl, rfl | ⟨fault, hm, rfl⟩⟩ | ⟨m, hm, hschema⟩
  · exact .inl ⟨rfl, nofun⟩
  · exact .inl ⟨rfl, hunknown ⟨_, undefined_of_model hm⟩⟩
  rcases trail_ofExcept hschema with ⟨rfl, rfl | ⟨fault, hs, rfl⟩⟩ | ⟨schema, hs, hask⟩
  · exact .inl ⟨rfl, nofun⟩
  · exact .inl ⟨rfl, hunknown ⟨_, undefined_of_schema hs⟩⟩
  obtain ⟨attempts, hattempts⟩ := askFrom_attempts _ hask
  exact .inr ⟨p, m, schema, attempts, hp, hs, hattempts⟩

end Context

lemma SchemaSpec.violations_of_parse {s : SchemaSpec} (h : s.parse text = .ok v) : s.violations v = [] := by
  unfold parse at h
  cases hfound : Reply.extract text with
  | error e =>
    rw [hfound] at h
    cases h
  | ok found =>
    rw [hfound] at h
    have hvalid : s.validate found = .ok v := h
    unfold validate at hvalid
    split at hvalid
    · next hnone =>
      cases hvalid
      exact hnone
    · cases hvalid

lemma Attempt.Handled.not_error {guard : Guard} {a : Attempt} (h : a.Handled guard)
    (hguard : ∀ text, (guard .output text).Faults fun _ => False) (e : RunError) : a.judged ≠ some (.error e) := by
  intro hjudged
  unfold Handled at h
  split at h
  · next reply _ => exact hguard reply.content e (h.yields _ hjudged)
  · rw [h.2] at hjudged
    cases hjudged

/-- The attempts of a call whose output handler does not fail: there are no more of them than the settings
allow; each sends all that was sent before and two messages more; a structured answer is what the schema reads
from the text; the call fails for a schema only after as many attempts as the settings allow, with what is wrong
with the last answer. -/
theorem Context.prompt_attempts (c : Context) {guard : Guard}
    (hguard : ∀ text, (guard .output text).Faults fun _ => False) {name : String} {args : List Json}
    {model : Option String} {bindings : Table Json} {asked : List Exchange} {r : Option Outcome}
    (h : (c.callPrompt guard name args model bindings).run.Trail asked r) :
    ∃ attempts : List Attempt, asked = attempts.flatMap Attempt.exchanges ∧ (∀ a ∈ attempts, a.Handled guard) ∧
      attempts.length ≤ max 1 c.settings.schemaAttempts ∧
      (∀ k a, attempts[k]? = some a → a.request.messages.length = 2 * (k + 1) - 1) ∧
      (attempts.Pairwise fun a b => a.request.messages <+: b.request.messages) ∧
      (∀ answer, r = some (.ok answer) → ∃ p schema, c.prompt name = .ok p ∧ c.schema p = .ok schema ∧
        ∀ s ∈ schema, s.parse answer.text = .ok answer.value ∧ s.violations answer.value = []) ∧
      ∀ e, r = some (.error e) → e.fault.kind = "schema" → ∃ p s a guarded error,
        c.prompt name = .ok p ∧ c.schema p = .ok (some s) ∧
        attempts.length = max 1 c.settings.schemaAttempts ∧
        attempts.getLast? = some a ∧ a.judged = some (.ok guarded) ∧ s.parse guarded.text = .error error ∧
        e.fault = .unstructured p.name s.name (max 1 c.settings.schemaAttempts) error.message := by
  have hlimit : c.attempts = max 1 c.settings.schemaAttempts := Nat.max_comm ..
  rcases callPrompt_attempts h with ⟨rfl, hundefined⟩ | ⟨p, m, schema, attempts, hp, hs, hattempts⟩
  · refine ⟨[], rfl, forall_mem_nil _, Nat.zero_le _, (fun k a hk => nomatch hk), .nil, fun answer hr => ?_,
      fun e hr hkind => ?_⟩
    · obtain ⟨kind, other, herror⟩ := hundefined _ hr
      cases herror
    · obtain ⟨kind, other, herror⟩ := hundefined _ hr
      cases herror
      exact absurd hkind (show "undefined" ≠ "schema" by decide)
  rw [hlimit] at hattempts
  refine ⟨attempts, hattempts.asked_eq, hattempts.handled, hattempts.length_le, fun k a hk => ?_,
    hattempts.pairwise, fun answer hr => ⟨p, schema, hp, hs, fun s hschema => ?_⟩, fun e hr hkind => ?_⟩
  · rw [hattempts.length_messages k a hk, length_singleton]
    omega
  · cases hschema
    have hparse : s.parse answer.text = .ok answer.value := hattempts.answered hr
    exact ⟨hparse, SchemaSpec.violations_of_parse hparse⟩
  · rcases hattempts.failed hr with ⟨error, hfault⟩ | ⟨a, ha, hjudged⟩ | ⟨hlength, why, hfault, -, hlast⟩
    · rw [hfault] at hkind
      exact absurd hkind (show "model" ≠ "schema" by decide)
    · exact absurd hjudged ((hattempts.handled a ha).not_error hguard e)
    · have hsome : attempts ≠ [] := by
        intro hnil
        rw [hnil] at hlength
        exact absurd hlength (Nat.ne_of_lt (Nat.lt_of_lt_of_le Nat.one_pos (Nat.le_max_left ..)))
      have ha := List.getLast?_eq_some_getLast hsome
      obtain ⟨guarded, error, hjudged, hvalue, rfl⟩ := hlast _ ha
      cases schema with
      | none => cases hvalue
      | some s => exact ⟨p, s, _, guarded, error, hp, hs, hlength, ha, hjudged, hvalue, hfault⟩

def numberSpec : SchemaSpec := ⟨"number", [⟨"n", .int, false⟩]⟩

def numberUnit : CompiledUnit where
  prompts := [("p", { name := "p", template := "How many?", expecting := some "number" })]
  schemas := [("number", numberSpec)]
  hash := ""
  listing := default
  sourceMap := ⟨"unit", "main.wv", []⟩

def Guard.idle : Guard := fun event text => pure { event := event, text := text }

/-- Two answers without a number. -/
theorem Context.prompt_attempts_number : ∃ asked e reason, (∀ text, (Guard.idle .output text).Faults fun _ => False) ∧
    (callPrompt { unit := numberUnit, settings := { schemaAttempts := 2 } } .idle "p" [] none []).run.Trail
      asked (some (.error e)) ∧
    e.fault = .unstructured "p" "number" 2 reason ∧
    ∃ attempts : List Attempt, asked = attempts.flatMap Attempt.exchanges ∧ attempts.length = 2 ∧
      (attempts.Pairwise fun a b => a.request.messages <+: b.request.messages) ∧
      ∃ a guarded error, attempts.getLast? = some a ∧ a.judged = some (.ok guarded) ∧
        numberSpec.parse guarded.text = .error error ∧ reason = error.message := by
  have hguard : ∀ text, (Guard.idle .output text).Faults fun _ => False := fun _ => faults_pure _
  have htrail : ∃ asked e reason,
      (callPrompt { unit := numberUnit, settings := { schemaAttempts := 2 } } .idle "p" [] none []).run.Trail
        asked (some (.error e)) ∧ e.fault = .unstructured "p" "number" 2 reason :=
    ⟨_, _, _, .tell (.ask (.ok { content := "none" }) (.tell (.ask (.ok { content := "none" }) (.done _)))), rfl⟩
  obtain ⟨asked, e, _, htrail, hfault⟩ := htrail
  obtain ⟨attempts, hasked, -, -, -, hlonger, -, hfailed⟩ :=
    Context.prompt_attempts { unit := numberUnit, settings := { schemaAttempts := 2 } } hguard htrail
  obtain ⟨p, s, a, guarded, last, hp, hs, hlength, ha, hjudged, hparse, hlast⟩ :=
    hfailed e rfl (hfault ▸ rfl)
  cases hp
  cases hs
  exact ⟨asked, e, last.message, hguard, htrail, hlast, attempts, hasked, hlength, hlonger, a, guarded, last, ha,
    hjudged, hparse, rfl⟩

end Workflow
