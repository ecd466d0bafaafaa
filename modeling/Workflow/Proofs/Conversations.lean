import Workflow.Proofs.Asking
import Workflow.Proofs.Attempts

/-!
Conversations of agents, request by request. `Context.turns_taken` takes the requests of a conversation apart
into turns: those that ask for an answer, and those of what follows the answer. `Context.Talk` says what the
former have in common: the first message has the instructions of the agent and is the only one of its kind, and
later requests start with all messages of earlier ones.
-/

namespace Workflow

open List Act

variable {h : Hierarchy} {start : Opening}

/-! ### Processes that ask nothing -/

namespace Act

variable {α β : Type}

def Silent (x : Act α) : Prop := ∀ {asked r}, x.run.Trail asked r → asked = []

lemma silent_pure (a : α) : Silent (pure a : Act α) := fun h => (trail_pure h).1

lemma silent_fail (fault : RunFault) : Silent (fail fault : Act α) := fun h => (trail_fail h).1

lemma trail_of_silent {x : Act α} {k : α → Act β} (hk : ∀ a, Silent (k a)) {asked : List Exchange}
    {r : Option (Except RunError β)} (h : (x >>= k).run.Trail asked r) : ∃ r', x.run.Trail asked r' := by
  rcases trail_bind h with (⟨-, hx⟩ | ⟨e, -, hx⟩) | ⟨first, rest, a, rfl, hx, hrest⟩
  · exact ⟨_, hx⟩
  · exact ⟨_, hx⟩
  · rw [hk a hrest, append_nil]
    exact ⟨_, hx⟩

/-- All results of a process have a property, unless it fails. -/
def Gives (Q : α → Prop) (x : Act α) : Prop := ∀ a, x.run.Yields (.ok a) → Q a

variable {Q : α → Prop}

lemma gives_pure (h : Q a) : Gives Q (pure a) := by
  intro b hb
  cases hb
  exact h

lemma gives_fail (fault : RunFault) : Gives Q (fail fault : Act α) := by
  intro b hb
  cases hb

lemma gives_bind (hk : ∀ b, Gives Q (k b)) : Gives Q (x >>= k) := by
  intro a ha
  obtain ⟨r, -, hr⟩ := Process.Yields.of_bind ha
  cases r with
  | ok b => exact hk b a hr
  | error e => cases hr

end Act

/-! ### Turns -/

/-- One turn of a conversation: its messages, what the agent asks its model with them, and what is asked
meanwhile. -/
structure Turn where
  messages : List Message
  tries : List Exchange
  meanwhile : List Exchange

def Turn.exchanges (t : Turn) : List Exchange := t.tries ++ t.meanwhile

/-- A turn of a conversation comes to a result: the agent asks its model, and when there is an answer,
follows it. -/
structure Turn.Taken (c : Context) (guard : Guard) (s : Speaker) (v : Conversation) (t : Turn)
    (r : Option (Except RunError (Conversation ⊕ Answer))) : Prop where
  messages : t.messages = v.messages
  begun : t.tries ≠ []
  own : ∀ x ∈ t.tries, x.request = Context.request s.model v.messages s.tools
  follows : (t.meanwhile = [] ∧ ∀ a, r ≠ some (.ok a)) ∨
    ∃ reply, t.tries.getLast? = some ⟨Context.request s.model v.messages s.tools, some (.ok reply)⟩ ∧
      (c.follow guard s v reply).run.Trail t.meanwhile r

/-- The turns of a conversation, one after the other. -/
inductive Turned (c : Context) (guard : Guard) (s : Speaker) : Conversation → List Turn → Prop where
  | nothing {v} : Turned c guard s v []
  | last {v} {t} {r} (taken : t.Taken c guard s v r) : Turned c guard s v [t]
  | next {v v'} {t} {rest} (taken : t.Taken c guard s v (some (.ok (.inl v'))))
      (after : Turned c guard s v' rest) : Turned c guard s v (t :: rest)

namespace Context

variable {c : Context} {guard : Guard} {bindings : Table Json} {s : Speaker} {v v' : Conversation}
  {asked : List Exchange}

lemma turn_taken (h : (c.turn guard s v).run.Trail asked r) :
    (asked = [] ∧ r = none) ∨ ∃ t : Turn, asked = t.exchanges ∧ t.Taken c guard s v r := by
  rcases trail_bind h with (⟨rfl, hcomplete⟩ | ⟨e, rfl, hcomplete⟩) | ⟨tries, rest, reply, rfl, hcomplete, hrest⟩
  · have htried := c.complete_tried hcomplete
    by_cases hnone : asked = []
    · exact .inl ⟨hnone, rfl⟩
    · refine .inr ⟨⟨v.messages, asked, []⟩, (append_nil _).symm, rfl, hnone, htried.own, .inl ⟨rfl, nofun⟩⟩
  · have htried := c.complete_tried hcomplete
    obtain ⟨error, -, hlast⟩ := htried.failed e rfl
    have hsome : asked ≠ [] := fun hnil => by rw [hnil] at hlast; cases hlast
    exact .inr ⟨⟨v.messages, asked, []⟩, (append_nil _).symm, rfl, hsome, htried.own, .inl ⟨rfl, nofun⟩⟩
  · have htried := c.complete_tried hcomplete
    have hlast := htried.answered reply rfl
    have hsome : tries ≠ [] := fun hnil => by rw [hnil] at hlast; cases hlast
    have hfollow : (rest = [] ∧ r = none) ∨ (c.follow guard s v reply).run.Trail rest r := by
      dsimp only at hrest
      split at hrest
      · exact trail_note hrest
      · exact .inr hrest
    refine .inr ⟨⟨v.messages, tries, rest⟩, rfl, rfl, hsome, htried.own, ?_⟩
    rcases hfollow with ⟨rfl, rfl⟩ | hfollow
    · exact .inl ⟨rfl, nofun⟩
    · exact .inr ⟨reply, hlast, hfollow⟩

lemma turns_taken (left : Nat) : ∀ {v asked r}, (c.turns guard s left v).run.Trail asked r →
    ∃ turns, asked = turns.flatMap Turn.exchanges ∧ Turned c guard s v turns := by
  induction left with
  | zero =>
    intro v asked r h
    obtain ⟨rfl, -⟩ := trail_fail h
    exact ⟨[], rfl, .nothing⟩
  | succ left ih =>
    intro v asked r h
    -- A turn that is not over, or that ends the conversation, is the last one.
    have hturn : ∀ {asked : List Exchange} {r : Option (Except RunError (Conversation ⊕ Answer))},
        (c.turn guard s v).run.Trail asked r →
        ∃ turns, asked = turns.flatMap Turn.exchanges ∧ Turned c guard s v turns := by
      intro asked r hturn
      rcases turn_taken hturn with ⟨rfl, -⟩ | ⟨t, rfl, htaken⟩
      · exact ⟨[], rfl, .nothing⟩
      · exact ⟨[t], (append_nil _).symm, .last htaken⟩
    rcases trail_bind h with (⟨-, hcut⟩ | ⟨e, -, hcut⟩) | ⟨first, rest, result, rfl, hfirst, hrest⟩
    · exact hturn hcut
    · exact hturn hcut
    · cases result with
      | inr answer =>
        rw [(trail_pure hrest).1, append_nil]
        exact hturn hfirst
      | inl v' =>
        rcases turn_taken hfirst with ⟨-, hnone⟩ | ⟨t, rfl, htaken⟩
        · cases hnone
        · obtain ⟨turns, rfl, hturns⟩ := ih hrest
          exact ⟨t :: turns, rfl, .next htaken hturns⟩

/-! ### What follows an answer -/

lemma silent_accept (text : String) : Act.Silent (c.accept s v text) := by
  unfold accept
  split
  · dsimp only
    split
    · exact silent_fail _
    · exact silent_pure _
  · intro asked r h
    rcases trail_escalates h with ⟨rfl, -⟩ | ⟨escalated, hrest⟩
    · rfl
    · rcases trail_note hrest with ⟨rfl, -⟩ | hpure
      · rfl
      · exact silent_pure _ hpure

lemma accept_continues (text : String) :
    (c.accept s v text).Gives fun result => ∀ v', result = .inl v' → Continues v.messages v'.messages := by
  unfold accept
  split
  · dsimp only
    split
    · exact gives_fail _
    · refine gives_pure ?_
      rintro _ ⟨⟩
      exact .sent_back ..
  · exact gives_bind fun _ => gives_bind fun _ => gives_pure nofun

lemma follow_continues (reply : Reply) :
    (c.follow guard s v reply).Gives fun result => ∀ v', result = .inl v' → Continues v.messages v'.messages := by
  unfold follow
  split
  · refine gives_bind fun output => gives_pure ?_
    rintro _ ⟨⟩
    exact ⟨_, rfl, forall_mem_cons.2 ⟨nofun, forall_mem_singleton.2 nofun⟩⟩
  · split
    · exact gives_bind fun _ => gives_bind fun answer => gives_pure nofun
    · refine gives_pure ?_
      rintro _ ⟨⟩
      exact ⟨_, rfl, forall_mem_singleton.2 nofun⟩
  · refine gives_bind fun guarded => ?_
    split
    · split
      · refine gives_pure ?_
        rintro _ ⟨⟩
        exact .sent_back ..
      · exact accept_continues guarded.text
    · exact accept_continues guarded.text

end Context

/-! ### Conversations -/

/-- The message that instructs an agent: its prompt with the input of the conversation, and how to
answer. -/
def Speaker.instructions (s : Speaker) (bindings : Table Json) (input : String) : Message :=
  .system (Context.withInstruction s.schema
    (Template.render s.prompt.template (bindings.insert "input" (.str input))).text)

lemma Turn.Taken.continues {guard : Guard} {t : Turn} (h : t.Taken c guard s v (some (.ok (.inl v')))) :
    Continues v.messages v'.messages := by
  rcases h.follows with ⟨-, hnone⟩ | ⟨reply, -, hfollow⟩
  · exact absurd rfl (hnone (.inl v'))
  · exact Context.follow_continues reply _ (hfollow.yields _ rfl) v' rfl

namespace Turned

variable {c : Context} {guard : Guard} {s : Speaker} {v : Conversation} {turns : List Turn}

lemma messages_of_head (h : Turned c guard s v turns) : ∀ t ∈ turns.head?, t.messages = v.messages := by
  cases h with
  | nothing => nofun
  | last taken | next taken _ =>
    rintro _ ⟨⟩
    exact taken.messages

lemma continues (h : Turned c guard s v turns) : ∀ t ∈ turns, Continues v.messages t.messages := by
  induction h with
  | nothing => exact nofun
  | last taken =>
    rw [forall_mem_singleton, taken.messages]
    exact .refl _
  | next taken _ ih =>
    rw [forall_mem_cons, taken.messages]
    exact ⟨.refl _, fun u hu => taken.continues.trans (ih u hu)⟩

lemma pairwise (h : Turned c guard s v turns) : turns.Pairwise fun t u => t.messages <+: u.messages := by
  induction h with
  | nothing => exact .nil
  | last => exact pairwise_singleton _ _
  | next taken after ih =>
    rw [pairwise_cons, taken.messages]
    exact ⟨fun u hu => (taken.continues.trans (after.continues u hu)).starts, ih⟩

lemma taken (h : Turned c guard s v turns) : ∀ t ∈ turns, ∃ v r, t.Taken c guard s v r := by
  induction h with
  | nothing => exact nofun
  | last taken => exact forall_mem_singleton.2 ⟨_, _, taken⟩
  | next taken _ ih => exact forall_mem_cons.2 ⟨⟨_, _, taken⟩, ih⟩

end Turned

namespace Context

variable {c : Context} {guard : Guard} {bindings : Table Json} {s : Speaker} {v : Conversation} {asked : List Exchange}

/-- The agent at the top of a hierarchy has all that it needs for a conversation. -/
structure Speaks (c : Context) (guard : Guard) (bindings : Table Json) (h : Hierarchy) (s : Speaker) : Prop where
  spec : s.spec = h.spec
  prompt : c.prompt h.spec.instruction = .ok s.prompt
  model : c.model none s.prompt.model = .ok s.model
  schema : c.schema s.prompt = .ok s.schema
  tools : s.tools = h.descriptors c.unit.tools
  delegate : s.delegate? = c.invokeNamed guard bindings h.delegates
  tool : s.tool? = c.invokeNamed guard bindings h.tools

/-- What is asked on account of an answer: by the tool that is called, by the delegate that takes over, or by
the output handler. -/
inductive Follows (c : Context) (guard : Guard) (bindings : Table Json) (h : Hierarchy) (s : Speaker)
    (messages : List Message) (reply : Reply) (asked : List Exchange) : Prop where
  | tool {name input} {r}
      (action : reply.action = some (.call name input)) (trail : (callTool guard s name input).run.Trail asked r)
  | delegate {d} {r} (action : reply.action = some (.transfer d.name))
      (known : d ∈ h.delegates) (trail : (c.invoke guard bindings d (.transfer messages)).run.Trail asked r)
  | output {r} (action : reply.action = none) (trail : (guard .output reply.content).run.Trail asked r)

/-- What the conversation of the agent at the top of a hierarchy asks: what the input handler does, and then
turn by turn the model of the agent. The first message of a turn has the instructions of the agent and is the
only one of its kind, and the messages of a turn start with those of all turns before. -/
structure Talk (c : Context) (guard : Guard) (bindings : Table Json) (h : Hierarchy) (start : Opening)
    (s : Speaker) (input : String) (first : List Message) (before : List Exchange) (turns : List Turn) :
    Prop where
  speaks : c.Speaks guard bindings h s
  opened : (openWith guard start).run.Trail before (some (.ok (input, first)))
  begins : ∀ t ∈ turns.head?, t.messages = s.instructions bindings input :: first
  own : ∀ t ∈ turns, t.tries ≠ [] ∧ ∀ x ∈ t.tries, x.request = request s.model t.messages s.tools
  instructed : ∀ t ∈ turns, ∃ rest, t.messages = s.instructions bindings input :: rest ∧ ∀ m ∈ rest, m.role ≠ .system
  longer : turns.Pairwise fun t u => t.messages <+: u.messages
  meanwhile : ∀ t ∈ turns, t.meanwhile = [] ∨ ∃ reply,
    t.tries.getLast? = some ⟨request s.model t.messages s.tools, some (.ok reply)⟩ ∧
      c.Follows guard bindings h s t.messages reply t.meanwhile

lemma mem_of_invokeNamed {name : String} {invoke : Invoke} : ∀ {hs},
    c.invokeNamed guard bindings hs name = some invoke → ∃ h ∈ hs, h.name = name ∧ invoke = c.invoke guard bindings h
  | [], hinvoke => by
    rw [invokeNamed] at hinvoke
    cases hinvoke
  | h :: rest, hinvoke => by
    rw [invokeNamed] at hinvoke
    split at hinvoke
    · next hname =>
      cases hinvoke
      exact ⟨h, .head _, hname, rfl⟩
    · obtain ⟨other, hmem, hother⟩ := mem_of_invokeNamed hinvoke
      exact ⟨other, .tail _ hmem, hother⟩

lemma follow_follows (hs : c.Speaks guard bindings h s) {reply : Reply}
    {r : Option (Except RunError (Conversation ⊕ Answer))}
    (hfollow : (c.follow guard s v reply).run.Trail asked r) :
    asked = [] ∨ c.Follows guard bindings h s v.messages reply asked := by
  unfold follow at hfollow
  split at hfollow
  · next tool input haction =>
    obtain ⟨r', htool⟩ := trail_of_silent (fun _ => silent_pure _) hfollow
    exact .inr (.tool haction htool)
  · next target haction =>
    split at hfollow
    · next invoke hinvoke =>
      rw [hs.delegate] at hinvoke
      obtain ⟨d, hd, rfl, rfl⟩ := mem_of_invokeNamed hinvoke
      rcases trail_note hfollow with ⟨rfl, -⟩ | hrest
      · exact .inl rfl
      · obtain ⟨r', hdelegate⟩ := trail_of_silent (fun _ => silent_pure _) hrest
        exact .inr (.delegate haction hd hdelegate)
    · exact .inl (trail_pure hfollow).1
  · next haction =>
    have houtput : ∃ r', (guard .output reply.content).run.Trail asked r' := by
      refine trail_of_silent (fun guarded => ?_) hfollow
      split
      · split
        · exact silent_pure _
        · exact silent_accept guarded.text
      · exact silent_accept guarded.text
    exact houtput.elim fun _ htrail => .inr (.output haction htrail)

lemma trail_limited (h : (limited agent limit body).run.Trail asked r) : ∃ r', body.run.Trail asked r' := by
  cases limit with
  | none => exact ⟨r, h⟩
  | some limit =>
    cases h with
    | here => exact ⟨none, .here⟩
    | inside within => exact ⟨_, within⟩
    | inTime within after | late within after =>
      rw [(Process.trail_done after).1, append_nil]
      exact ⟨_, within⟩

lemma openWith_plain : (openWith guard start).Gives fun (_, first) => ∀ m ∈ first, m.role ≠ .system := by
  cases start with
  | input text =>
    refine gives_bind fun guarded => gives_pure ?_
    exact forall_mem_singleton.2 nofun
  | transfer history =>
    refine gives_pure fun m hm => ?_
    exact of_decide_eq_true (mem_filter.1 hm).2

lemma talk_of_turned {turns : List Turn} (hspeaks : c.Speaks guard bindings h s)
    (hopened : (openWith guard start).run.Trail before (some (.ok (input, first))))
    (hv : v.messages = s.instructions bindings input :: first) (hturned : Turned c guard s v turns) :
    c.Talk guard bindings h start s input first before turns where
  speaks := hspeaks
  opened := hopened
  begins t ht := (hturned.messages_of_head t ht).trans hv
  own t ht := by
    obtain ⟨v', r, htaken⟩ := hturned.taken t ht
    rw [htaken.messages]
    exact ⟨htaken.begun, htaken.own⟩
  instructed t ht := by
    obtain ⟨more, hmore, hroles⟩ := hturned.continues t ht
    rw [hv] at hmore
    exact ⟨first ++ more, hmore, forall_mem_append.2 ⟨openWith_plain _ (hopened.yields _ rfl), hroles⟩⟩
  longer := hturned.pairwise
  meanwhile t ht := by
    obtain ⟨v', r, htaken⟩ := hturned.taken t ht
    rw [htaken.messages]
    rcases htaken.follows with ⟨hnone, -⟩ | ⟨reply, hlast, hfollow⟩
    · exact .inl hnone
    · exact (follow_follows hspeaks hfollow).imp_right fun hfollows => ⟨reply, hlast, hfollows⟩

lemma invoke_talk (hinvoke : (c.invoke guard bindings h start).run.Trail asked r) :
    (∃ r, (openWith guard start).run.Trail asked r) ∨ ∃ s input first before turns,
      asked = before ++ turns.flatMap Turn.exchanges ∧ c.Talk guard bindings h start s input first before turns := by
  obtain ⟨spec, delegates, tools⟩ := h
  rw [invoke] at hinvoke
  obtain ⟨r, hconverse⟩ := trail_limited hinvoke
  rcases trail_ofExcept hconverse with ⟨rfl, -⟩ | ⟨p, hp, hmodel⟩
  · exact .inl ⟨none, .here⟩
  rcases trail_ofExcept hmodel with ⟨rfl, -⟩ | ⟨m, hm, hschema⟩
  · exact .inl ⟨none, .here⟩
  rcases trail_ofExcept hschema with ⟨rfl, -⟩ | ⟨schema, hs, hopen⟩
  · exact .inl ⟨none, .here⟩
  rcases trail_bind hopen with (⟨-, hcut⟩ | ⟨e, -, hcut⟩) | ⟨before, rest, ⟨input, first⟩, rfl, hopened, hrest⟩
  · exact .inl ⟨_, hcut⟩
  · exact .inl ⟨_, hcut⟩
  rcases trail_note hrest with ⟨rfl, -⟩ | hturns
  · exact .inl ⟨_, (append_nil before).symm ▸ hopened⟩
  obtain ⟨turns, rfl, hturned⟩ := turns_taken _ hturns
  have hspeaks : c.Speaks guard bindings (.node spec delegates tools) ⟨spec, p, m, schema,
      Hierarchy.descriptors c.unit.tools (.node spec delegates tools), c.invokeNamed guard bindings delegates,
      c.invokeNamed guard bindings tools⟩ := ⟨rfl, hp, hm, hs, rfl, rfl, rfl⟩
  exact .inr ⟨_, input, first, before, turns, rfl, talk_of_turned hspeaks hopened rfl hturned⟩

end Context

end Workflow
