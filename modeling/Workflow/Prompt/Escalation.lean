import Workflow.Listing.Spec
import Workflow.Text.Normal
import Workflow.Text.Part

/-!
Conditions on the output of a prompt. Equality is on the raw output; similarity on normal forms.
-/

namespace Workflow

def EscalationCondition.isMet (c : EscalationCondition) (output : String) : Bool :=
  match c.op with
  | .equals => output == c.literal
  | .notEquals => output != c.literal
  | .similar => Text.similar output c.literal
  | .contains => Text.hasPart output.toList c.literal.toList

end Workflow
