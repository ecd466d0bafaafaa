import Workflow.Pattern.Parser
import Workflow.Pattern.Property

/-!
From written patterns to patterns in which all names and flags are resolved. Flags that are set in
the middle of a group hold up to the end of that group, alternatives behind them included.
-/

namespace Workflow.Pattern

/-- The flags in force. -/
structure Modes where
  caseless : Bool := false
  multiLine : Bool := false
  dotAll : Bool := false
  swapGreed : Bool := false
  unicode : Bool := true
  crlf : Bool := false

namespace Modes

def set (m : Modes) : Flag × Bool → Modes
  | (.caseless, on) => { m with caseless := on }
  | (.multiLine, on) => { m with multiLine := on }
  | (.dotAll, on) => { m with dotAll := on }
  | (.swapGreed, on) => { m with swapGreed := on }
  | (.unicode, on) => { m with unicode := on }
  | (.crlf, on) => { m with crlf := on }
  | (.verbose, _) => m

def setAll (m : Modes) (items : FlagItems) : Modes := items.foldl set m

end Modes

def AsciiClass.set : AsciiClass → CharSet
  | alnum => ⟨[(0x30, 0x39), (0x41, 0x5a), (0x61, 0x7a)]⟩
  | alpha => ⟨[(0x41, 0x5a), (0x61, 0x7a)]⟩
  | ascii => ⟨[(0, 0x7f)]⟩
  | blank => ⟨[(9, 9), (0x20, 0x20)]⟩
  | cntrl => ⟨[(0, 0x1f), (0x7f, 0x7f)]⟩
  | digit => ⟨[(0x30, 0x39)]⟩
  | graph => ⟨[(0x21, 0x7e)]⟩
  | lower => ⟨[(0x61, 0x7a)]⟩
  | print => ⟨[(0x20, 0x7e)]⟩
  | punct => ⟨[(0x21, 0x2f), (0x3a, 0x40), (0x5b, 0x60), (0x7b, 0x7e)]⟩
  | space => ⟨[(9, 13), (0x20, 0x20)]⟩
  | upper => ⟨[(0x41, 0x5a)]⟩
  | word => ⟨[(0x30, 0x39), (0x41, 0x5a), (0x5f, 0x5f), (0x61, 0x7a)]⟩
  | xdigit => ⟨[(0x30, 0x39), (0x41, 0x46), (0x61, 0x66)]⟩

def CharClass.negateIf (negated : Bool) (k : CharClass) : CharClass :=
  if negated then .complement k else k

/-- Closes a class under changes of case, if case does not count. -/
def CharClass.foldIf (m : Modes) (k : CharClass) : CharClass :=
  if m.caseless then .folded k else k

def Shorthand.charClass (m : Modes) : Shorthand → CharClass
  | digit => .set (if m.unicode then Text.categoryNd else AsciiClass.digit.set)
  | space => .set (if m.unicode then spaceSet else AsciiClass.space.set)
  | word => if m.unicode then wordClass else .set AsciiClass.word.set

/-- A class as a pattern. Where a pattern matches bytes, the class must be one of ASCII characters. -/
def ofClass (m : Modes) (k : CharClass) : Except Fault Regex :=
  if !m.unicode && (List.range 128).any (fun n => k.contains (Char.ofNat (n + 128))) then
    .error .invalidBytes
  else .ok (.chars k)

/-- The code point of a character inside a class. -/
def classCode (m : Modes) (l : Literal) : Except Fault Nat :=
  if m.unicode || l.char.toNat < 0x80 || l.byteEscape then .ok l.char.toNat
  else .error .unicodeNotAllowed

def ClassSet.charClass (m : Modes) : ClassSet → Except Fault CharClass
  | empty => .ok .empty
  | literal l => do
    let n ← classCode m l
    pure (.set (.range n n))
  | range a b => do pure (.set (.range (← classCode m a) (← classCode m b)))
  | ascii kind negated => .ok (CharClass.negateIf negated (.foldIf m (.set kind.set)))
  | shorthand kind negated => .ok (.negateIf negated (kind.charClass m))
  | property p negated =>
    if m.unicode then do pure (.negateIf negated (.foldIf m (← p.charClass)))
    else .error .unicodeNotAllowed
  | bracket negated inner => do pure (.negateIf negated (.foldIf m (← inner.charClass m)))
  | union left right => do pure (.union (← left.charClass m) (← right.charClass m))
  | combine op left right => do
    let l := CharClass.foldIf m (← left.charClass m)
    let r := CharClass.foldIf m (← right.charClass m)
    pure (match op with
      | .intersection => .inter l r
      | .difference => .diff l r
      | .symmetricDifference => .symmDiff l r)

def ofLiteral (m : Modes) (l : Literal) : Except Fault Regex :=
  let n := l.char.toNat
  if !m.unicode && l.byteEscape && 0x80 ≤ n then .error .invalidBytes
  else if m.caseless then
    if m.unicode then .ok (.chars (.folded (.set (.range n n))))
    else if n < 0x80 then
      .ok (.chars (.union (.set (.range l.char.toLower.toNat l.char.toLower.toNat))
        (.set (.range l.char.toUpper.toNat l.char.toUpper.toNat))))
    else .error .unicodeNotAllowed
  else .ok (.chars (.set (.range n n)))

def ofDot (m : Modes) : Except Fault Regex :=
  if !m.unicode then .error .invalidBytes
  else if m.dotAll then .ok (.chars (.complement .empty))
  else if m.crlf then .ok (.chars (.complement (.set ⟨[(10, 10), (13, 13)]⟩)))
  else .ok (.chars (.complement (.set ⟨[(10, 10)]⟩)))

def ofAssertion (m : Modes) (a : Assertion) : Look :=
  let word := Shorthand.word.charClass m
  match a with
  | .lineStart => if m.multiLine then .lineStart m.crlf else .textStart
  | .lineEnd => if m.multiLine then .lineEnd m.crlf else .textEnd
  | .textStart => .textStart
  | .textEnd => .textEnd
  | .boundary => .boundary word
  | .notBoundary => .notBoundary word
  | .wordStart => .wordStart word
  | .wordEnd => .wordEnd word
  | .wordStartHalf => .wordStartHalf word
  | .wordEndHalf => .wordEndHalf word

mutual

/-- Resolves a pattern under the flags in force; the flags that are in force behind it come out with it. -/
def Node.resolve (m : Modes) : Node → Except Fault (Modes × Regex)
  | .empty => .ok (m, .empty)
  | .flags items => .ok (m.setAll items, .empty)
  | .literal l => do pure (m, ← ofLiteral m l)
  | .dot => do pure (m, ← ofDot m)
  | .assertion a => .ok (m, .look (ofAssertion m a))
  | .shorthand kind negated => do pure (m, ← ofClass m (.negateIf negated (kind.charClass m)))
  | .property p negated => do
    if m.unicode then
      let k ← p.charClass
      pure (m, .chars (.negateIf negated (.foldIf m k)))
    else .error .unicodeNotAllowed
  | .bracket negated inner => do
    let k ← inner.charClass m
    pure (m, ← ofClass m (.negateIf negated (.foldIf m k)))
  | .repetition least most greedy body => do
    let (_, r) ← body.resolve m
    pure (m, .repetition least most (greedy != m.swapGreed) r)
  | .group items body => do
    let (_, r) ← body.resolve (m.setAll items)
    pure (m, r)
  | .cat parts => Node.resolveAll .cat m parts
  | .alt branches => Node.resolveAll .alt m branches

/-- Resolves a sequence or alternatives from left to right. -/
def Node.resolveAll (join : Regex → Regex → Regex) (m : Modes) : List Node → Except Fault (Modes × Regex)
  | [] => .ok (m, .empty)
  | [last] => last.resolve m
  | part :: rest => do
    let (m, r) ← part.resolve m
    let (m, s) ← Node.resolveAll join m rest
    pure (m, join r s)

end

def compile (text : String) : Except Fault Regex := do
  let node ← Node.parse text
  let (_, r) ← node.resolve {}
  pure r

/-- What is said about a pattern that does not compile. -/
def Fault.reason (f : Fault) : String := "error: " ++ f.message

end Workflow.Pattern
