import Workflow.Model.Request
import Workflow.Source.Digest
import Workflow.Text.Part
import Workflow.Time

/-!
Clients, through which all requests to models go, and the scripted client: the first of its rules
whose text occurs in the conversation replies, playing its replies in order and repeating the last
one. What a client says is settled when it is asked; the reply arrives after a delay.
-/

namespace Workflow

/-- A client with states `σ`: for a request, its next state, the delay of the reply, and the reply. -/
structure Client (σ : Type) where
  answer : σ → Request → σ × Duration × Except ModelError Reply

/-- A scripted turn of a model. -/
inductive ScriptedReply where
  | text (content : String)
  | call (tool input : String)
  | transfer (agent : String)
  | fail (reason : String)
  deriving DecidableEq, Repr

/-- A rule of a script: replies for conversations in which a text occurs. -/
structure ScriptRule where
  needle : String
  replies : List ScriptedReply := []
  delay : Duration := 0
  deriving DecidableEq, Repr

/-- A scripted model. -/
structure Script where
  /-- Delay of every reply. -/
  latency : Duration := 0
  rules : List ScriptRule := []
  /-- Whether every request fails. -/
  broken : Bool := false
  /-- How many requests fail at first. -/
  failures : Nat := 0
  /-- How many have failed so far. -/
  failed : Nat := 0
  deriving Repr

namespace Script

def withRule (s : Script) (needle : String) (change : ScriptRule → ScriptRule) : Script :=
  if s.rules.any (·.needle = needle) then
    { s with rules := s.rules.map fun r => if r.needle = needle then change r else r }
  else { s with rules := s.rules ++ [change { needle := needle }] }

def withReplies (s : Script) (needle : String) (replies : List ScriptedReply) : Script :=
  s.withRule needle fun r => { r with replies := r.replies ++ replies }

def withDelay (s : Script) (needle : String) (delay : Duration) : Script :=
  s.withRule needle fun r => { r with delay := delay }

/-- The replies that are left once the first has been played; the last one stays. -/
def rest : List ScriptedReply → List ScriptedReply
  | _ :: second :: more => second :: more
  | replies => replies

/-- Plays the first rule that applies to a conversation: its reply and its delay. -/
def play (transcript : List Char) : List ScriptRule → List ScriptRule × Option (Option ScriptedReply × Duration)
  | [] => ([], none)
  | r :: rules =>
    if Text.hasPart transcript r.needle.toList then
      ({ r with replies := rest r.replies } :: rules, some (r.replies.head?, r.delay))
    else
      let (rules, found) := play transcript rules
      (r :: rules, found)

/-- The reply where no rule says one: the start of a digest of the conversation and the last message of the
user. -/
def defaultText (r : Request) : String :=
  "[mock " ++ String.ofList ((Digest.ofText r.transcript).toList.take 12) ++ "] " ++ r.lastUser?.getD ""

/-- A reply with its tokens counted, four bytes each. -/
def reply (r : Request) (content : String) (action : Option Action) : Reply :=
  ⟨content, action, r.transcript.utf8ByteSize / 4, content.utf8ByteSize / 4 + 1⟩

def say (r : Request) : Option ScriptedReply → Except ModelError Reply
  | some (.text content) => .ok (reply r content none)
  | some (.call tool input) => .ok (reply r "" (some (.call tool input)))
  | some (.transfer agent) => .ok (reply r "" (some (.transfer agent)))
  | some (.fail reason) => .error (.requestFailed reason)
  | none => .ok (reply r (defaultText r) none)

def answer (s : Script) (r : Request) : Script × Duration × Except ModelError Reply :=
  if s.broken then (s, 0, .error (.requestFailed "Mock failure mode enabled"))
  else if s.failed < s.failures then
    let n := s.failed + 1
    ({ s with failed := n }, 0, .error (.requestFailed ("Mock failure " ++ toString n ++ "/" ++ toString s.failures)))
  else
    let (rules, found) := play r.transcript.toList s.rules
    let (scripted, delay) := found.getD (none, 0)
    ({ s with rules := rules }, s.latency + delay, say r scripted)

def client : Client Script := ⟨answer⟩

end Script

end Workflow
