import Workflow.Grammar.Symbol

/-!
Derivation trees. A node names a phrase and has one child for each symbol of the rule that forms
it; a token that a rule asks for by its spelling is marked as a keyword. The span of a node goes
from its first token to the end of its last one.
-/

namespace Workflow

/-- A derivation. -/
inductive Tree where
  | leaf (token : Token)
  | keyword (token : Token)
  | node (head : Nonterminal) (children : List Tree) (span : Span)
  deriving Repr

namespace Tree

def span : Tree → Span
  | leaf t => t.span
  | keyword t => t.span
  | node _ _ s => s

/-- The stretch from the first of some trees to the last one. -/
def spanOf (trees : List Tree) : Span :=
  match trees, trees.getLast? with
  | first :: _, some last =>
    ⟨first.span.start, max last.span.stop first.span.start, first.span.line, first.span.column⟩
  | _, _ => ⟨0, 0, 1, 1⟩

def form (head : Nonterminal) (children : List Tree) : Tree := node head children (spanOf children)

mutual

def tokens : Tree → List Token
  | leaf t => [t]
  | keyword t => [t]
  | node _ children _ => tokensOf children

def tokensOf : List Tree → List Token
  | [] => []
  | t :: rest => t.tokens ++ tokensOf rest

end

end Tree

def Terminal.leaf : Terminal → Token → Tree
  | kind _, t => .leaf t
  | word _, t => .keyword t

end Workflow
