import Workflow.Pattern.Basic
import Workflow.Text.Blank
import Workflow.Text.Letters

/-!
Reading patterns. The reader walks over the characters once; groups that are open lie on a stack,
so that what is wrong is found in the order of the text, and a group that is never closed is found
last. In verbose mode blanks and comments between the parts of a pattern are skipped.
-/

namespace Workflow.Pattern

def skipFrom (inComment : Bool) : List Char → List Char
  | [] => []
  | c :: rest =>
    if inComment then skipFrom (c ≠ '\n') rest
    else if Text.isSpace c then skipFrom false rest
    else if c = '#' then skipFrom true rest
    else c :: rest

def skip (verbose : Bool) (s : List Char) : List Char := if verbose then skipFrom false s else s

theorem skipFrom_length_le : ∀ (inComment : Bool) (s : List Char),
    (skipFrom inComment s).length ≤ s.length
  | _, [] => by simp [skipFrom]
  | inComment, c :: rest => by
    unfold skipFrom
    split
    · exact Nat.le_succ_of_le (skipFrom_length_le _ rest)
    · split
      · exact Nat.le_succ_of_le (skipFrom_length_le _ rest)
      · split
        · exact Nat.le_succ_of_le (skipFrom_length_le _ rest)
        · exact Nat.le_refl _

theorem skip_length_le (verbose : Bool) (s : List Char) : (skip verbose s).length ≤ s.length := by
  unfold skip
  split
  · exact skipFrom_length_le false s
  · exact Nat.le_refl _

/-! ### Escapes -/

/-- Whether a character is a hexadecimal digit. -/
def isHex (c : Char) : Bool :=
  c.isDigit || ('a' ≤ c && c ≤ 'f') || ('A' ≤ c && c ≤ 'F')

def hexChar (digits : List Char) : Except Fault Char :=
  let n := digits.foldl (fun n c => n * 16 + CharSet.hexDigit c.toLower) 0
  if n < 0xd800 ∨ (0xdfff < n ∧ n ≤ 0x10ffff) then .ok (Char.ofNat n) else .error .hexInvalid

def hexDigits (verbose : Bool) : Nat → List Char → List Char → Except Fault (List Char × List Char)
  | 0, seen, s => .ok (seen.reverse, s)
  | _ + 1, _, [] => .error .escapeUnexpectedEnd
  | n + 1, seen, c :: rest =>
    if isHex c then hexDigits verbose n (c :: seen) (skip verbose rest)
    else .error .hexInvalidDigit

def untilBrace (verbose : Bool) (seen s : List Char) : Except Fault (List Char × List Char) :=
  match s with
  | [] => .error .escapeUnexpectedEnd
  | '\x7d' :: rest => .ok (seen.reverse, rest)
  | c :: rest => untilBrace verbose (c :: seen) (skip verbose rest)
termination_by s.length
decreasing_by
  have := skip_length_le verbose rest
  simp
  omega

/-- A character given in hexadecimal, behind the letter that says how many digits there are. -/
def hexEscape (verbose : Bool) (count : Nat) (s : List Char) : Except Fault (Node × List Char) := do
  match skip verbose s with
  | [] => .error .escapeUnexpectedEnd
  | '\x7b' :: rest =>
    let inside := skip verbose rest
    -- a wrong digit is found before the missing brace
    if (inside.takeWhile (· ≠ '\x7d')).any (fun c => !isHex c) then .error .hexInvalidDigit
    else
      let (digits, rest) ← untilBrace verbose [] inside
      if digits.isEmpty then .error .hexEmpty
      else pure (.literal ⟨← hexChar digits, false⟩, skip verbose rest)
  | s =>
    let (digits, rest) ← hexDigits verbose count [] s
    pure (.literal ⟨← hexChar digits, count = 2⟩, rest)

/-- Splits a text at the first occurrence of a mark. -/
def splitAt? (mark : List Char) : List Char → Option (List Char × List Char)
  | [] => none
  | c :: rest =>
    if mark.isPrefixOf (c :: rest) then some ([], (c :: rest).drop mark.length)
    else (splitAt? mark rest).map fun (before, after) => (c :: before, after)

def propertyOf (name : List Char) : Property :=
  let valued (parts : List Char × List Char) (negated : Bool) : Property :=
    .valued (String.ofList parts.1) (String.ofList parts.2) negated
  match splitAt? ['!', '='] name with
  | some parts => valued parts true
  | none =>
    match splitAt? [':'] name with
    | some parts => valued parts false
    | none =>
      match splitAt? ['='] name with
      | some parts => valued parts false
      | none => .named (String.ofList name)

def propertyEscape (verbose negated : Bool) (s : List Char) : Except Fault (Node × List Char) := do
  match skip verbose s with
  | [] => .error .escapeUnexpectedEnd
  | '\x7b' :: rest =>
    let (name, rest) ← untilBrace verbose [] (skip verbose rest)
    pure (.property (propertyOf name) negated, rest)
  | '\\' :: _ => .error .propertyInvalid
  | c :: rest => pure (.property (.named (String.singleton c)) negated, skip verbose rest)

def isBoundaryChar (c : Char) : Bool := c.isAlpha || c = '-'

def boundaryName (verbose : Bool) (seen s : List Char) : List Char × List Char :=
  match s with
  | [] => (seen.reverse, [])
  | c :: rest =>
    if isBoundaryChar c then boundaryName verbose (c :: seen) (skip verbose rest)
    else (seen.reverse, c :: rest)
termination_by s.length
decreasing_by
  have := skip_length_le verbose rest
  simp
  omega

/-- A word boundary: a name in braces may follow, unless the braces hold a count. -/
def boundaryEscape (verbose : Bool) (s : List Char) : Except Fault (Node × List Char) :=
  match s with
  | '\x7b' :: rest =>
    match skip verbose rest with
    | [] => .error .boundaryUnexpectedEnd
    | c :: inside =>
      if !isBoundaryChar c then .ok (.assertion .boundary, s)
      else
        let (name, rest) := boundaryName verbose [] (c :: inside)
        match rest with
        | '\x7d' :: rest =>
          match String.ofList name with
          | "start" => .ok (.assertion .wordStart, rest)
          | "end" => .ok (.assertion .wordEnd, rest)
          | "start-half" => .ok (.assertion .wordStartHalf, rest)
          | "end-half" => .ok (.assertion .wordEndHalf, rest)
          | _ => .error .boundaryUnrecognized
        | _ => .error .boundaryUnclosed
  | _ => .ok (.assertion .boundary, s)

/-- An escaped character: one with a letter of its own, an assertion, or the character itself. -/
def plainEscape (c : Char) : Except Fault Node :=
  match c with
  | 'a' => .ok (.literal ⟨'\x07', false⟩)
  | 'f' => .ok (.literal ⟨'\x0c', false⟩)
  | 't' => .ok (.literal ⟨'\t', false⟩)
  | 'n' => .ok (.literal ⟨'\n', false⟩)
  | 'r' => .ok (.literal ⟨'\r', false⟩)
  | 'v' => .ok (.literal ⟨'\x0b', false⟩)
  | 'A' => .ok (.assertion .textStart)
  | 'z' => .ok (.assertion .textEnd)
  | 'B' => .ok (.assertion .notBoundary)
  | '<' => .ok (.assertion .wordStart)
  | '>' => .ok (.assertion .wordEnd)
  | c =>
    if c.toNat < 0x80 && !c.isAlphanum then .ok (.literal ⟨c, false⟩)
    else .error .escapeUnrecognized

/-- What an escape stands for, behind the backslash. -/
def escape (verbose : Bool) (s : List Char) : Except Fault (Node × List Char) :=
  match s with
  | [] => .error .escapeUnexpectedEnd
  | c :: rest =>
    if c.isDigit then .error .backreference
    else
      match c with
      | 'x' => hexEscape verbose 2 rest
      | 'u' => hexEscape verbose 4 rest
      | 'U' => hexEscape verbose 8 rest
      | 'p' => propertyEscape verbose false rest
      | 'P' => propertyEscape verbose true rest
      | 'd' => .ok (.shorthand .digit false, rest)
      | 'D' => .ok (.shorthand .digit true, rest)
      | 's' => .ok (.shorthand .space false, rest)
      | 'S' => .ok (.shorthand .space true, rest)
      | 'w' => .ok (.shorthand .word false, rest)
      | 'W' => .ok (.shorthand .word true, rest)
      | 'b' => boundaryEscape verbose rest
      | c => do pure (← plainEscape c, rest)

/-! ### Character classes -/

def classItem : Node → Except Fault ClassSet
  | .literal l => .ok (.literal l)
  | .shorthand kind negated => .ok (.shorthand kind negated)
  | .property p negated => .ok (.property p negated)
  | _ => .error .classEscapeInvalid

def rangeEnd : Node → Except Fault Literal
  | .literal l => .ok l
  | _ => .error .classRangeLiteral

def classPrimitive (verbose : Bool) (s : List Char) : Except Fault (Node × List Char) :=
  match s with
  | [] => .error .classUnclosed
  | '\\' :: rest => escape verbose rest
  | c :: rest => .ok (.literal ⟨c, false⟩, rest)

def classRange (verbose : Bool) (s : List Char) : Except Fault (ClassSet × List Char) := do
  let (first, s) ← classPrimitive verbose s
  match skip verbose s with
  | [] => .error .classUnclosed
  | '-' :: rest =>
    match skip verbose rest with
    | ']' :: _ | '-' :: _ => pure (← classItem first, '-' :: rest)
    | [] => .error .classUnclosed
    | s =>
      let (last, s) ← classPrimitive verbose s
      let first ← rangeEnd first
      let last ← rangeEnd last
      if first.char ≤ last.char then pure (.range first last, s) else .error .classRangeInvalid
  | s => pure (← classItem first, s)

/-- An ASCII class such as `[:alpha:]`, if the text starts with one. -/
def asciiClass? (s : List Char) : Option (ClassSet × List Char) :=
  match s with
  | '[' :: ':' :: rest =>
    let negated := rest.head? = some '^'
    let rest := if negated then rest.drop 1 else rest
    let name := rest.takeWhile (· ≠ ':')
    match rest.drop name.length with
    | ':' :: ']' :: rest =>
      (AsciiClass.ofName? (String.ofList name)).map fun kind => (.ascii kind negated, rest)
    | _ => none
  | _ => none

/-- An open class: whether it is negated, an operator that waits for its right side, and what has been read
since. -/
structure ClassLevel where
  negated : Bool
  pending : Option (ClassOp × ClassSet)
  items : ClassSet

namespace ClassLevel

def push (level : ClassLevel) (item : ClassSet) : ClassLevel :=
  match level.items with
  | .empty => { level with items := item }
  | items => { level with items := .union items item }

/-- Everything that has been read, the operator included. -/
def contents (level : ClassLevel) : ClassSet :=
  match level.pending with
  | none => level.items
  | some (op, left) => .combine op left level.items

def operator (level : ClassLevel) (op : ClassOp) : ClassLevel :=
  ⟨level.negated, some (op, level.contents), .empty⟩

end ClassLevel

/-- Hyphens at the start of a class stand for themselves. -/
def leadingHyphens (verbose : Bool) (level : ClassLevel) (s : List Char) :
    Except Fault (ClassLevel × List Char) :=
  match s with
  | [] => .error .classUnclosed
  | '-' :: rest => leadingHyphens verbose (level.push (.literal ⟨'-', false⟩)) (skip verbose rest)
  | s => .ok (level, s)
termination_by s.length
decreasing_by
  have := skip_length_le verbose rest
  simp
  omega

/-- The start of a class, behind its bracket: a negation, hyphens, and a bracket that stands for itself. -/
def classOpen (verbose : Bool) (s : List Char) : Except Fault (ClassLevel × List Char) := do
  let s := skip verbose s
  let negated := s.head? = some '^'
  let s := if negated then skip verbose (s.drop 1) else s
  let (level, s) ← leadingHyphens verbose ⟨negated, none, .empty⟩ s
  match level.items, s with
  | .empty, ']' :: rest =>
    match skip verbose rest with
    | [] => .error .classUnclosed
    | s => pure (level.push (.literal ⟨']', false⟩), s)
  | _, s => pure (level, s)

/-- The rest of a class whose open levels are given, the innermost first. -/
def classBody (verbose : Bool) : Nat → ClassLevel → List ClassLevel → List Char →
    Except Fault (Node × List Char)
  | 0, _, _, _ => .error .classUnclosed
  | n + 1, level, outer, s =>
    match skip verbose s with
    | [] => .error .classUnclosed
    | ']' :: rest =>
      match outer with
      | [] => .ok (.bracket level.negated level.contents, rest)
      | parent :: outer =>
        classBody verbose n (parent.push (.bracket level.negated level.contents)) outer rest
    | '&' :: '&' :: rest => classBody verbose n (level.operator .intersection) outer rest
    | '-' :: '-' :: rest => classBody verbose n (level.operator .difference) outer rest
    | '~' :: '~' :: rest => classBody verbose n (level.operator .symmetricDifference) outer rest
    | '[' :: rest =>
      match asciiClass? ('[' :: rest) with
      | some (item, rest) => classBody verbose n (level.push item) outer rest
      | none => do
        let (inner, rest) ← classOpen verbose rest
        classBody verbose n inner (level :: outer) rest
    | s => do
      let (item, rest) ← classRange verbose s
      classBody verbose n (level.push item) outer rest

def bracketClass (verbose : Bool) (s : List Char) : Except Fault (Node × List Char) := do
  let (level, rest) ← classOpen verbose s
  classBody verbose (s.length + 1) level [] rest

/-! ### Repetitions -/

/-- A decimal number, which has to fit 32 bits, with blanks around it. -/
def decimal (s : List Char) : Except Fault Nat × List Char :=
  let s := s.dropWhile Text.isSpace
  let digits := s.takeWhile Char.isDigit
  let rest := (s.drop digits.length).dropWhile Text.isSpace
  let value := digits.foldl (fun n c => n * 10 + (c.toNat - 48)) 0
  if digits.isEmpty then (.error .repetitionCountEmpty, rest)
  else if value ≤ 0xffffffff then (.ok value, rest)
  else (.error .decimalInvalid, rest)

/-- The bounds of a counted repetition, behind its brace. -/
def bounds (verbose : Bool) (s : List Char) : Except Fault ((Nat × Option Nat) × List Char) := do
  match skip verbose s with
  | [] => .error .repetitionCountUnclosed
  | s =>
    let (least, s) := decimal s
    let (range, s) ← match s with
      | [] => .error .repetitionCountUnclosed
      | ',' :: rest =>
        match skip verbose rest with
        | [] => .error .repetitionCountUnclosed
        | '\x7d' :: rest => pure ((← least, none), '\x7d' :: rest)
        | s => do
          let least ← least
          let (most, s) := decimal s
          pure ((least, some (← most)), s)
      | s => do
        let least ← least
        pure ((least, some least), s)
    match s with
    | '\x7d' :: rest => pure (range, rest)
    | _ => .error .repetitionCountUnclosed

/-- Whether a repetition takes as much as it can: not if a question mark follows. -/
def greed (s : List Char) : Bool × List Char :=
  match s with
  | '?' :: rest => (false, rest)
  | s => (true, s)

def repeatLast (parts : List Node) (least : Nat) (most : Option Nat) (greedy : Bool) : List Node :=
  match parts with
  | [] => []
  | last :: rest => .repetition least most greedy last :: rest

/-- Whether there is a part that can be repeated. -/
def repeatable : List Node → Bool
  | [] => false
  | .flags _ :: _ => false
  | _ => true

/-! ### Groups -/

def flagOf : Char → Except Fault Flag
  | 'i' => .ok .caseless
  | 'm' => .ok .multiLine
  | 's' => .ok .dotAll
  | 'U' => .ok .swapGreed
  | 'u' => .ok .unicode
  | 'R' => .ok .crlf
  | 'x' => .ok .verbose
  | _ => .error .flagUnrecognized

/-- The flags of a group. `negated` says whether the hyphen has been seen, `dangling` whether it came last. -/
def flagItems (items : FlagItems) (negated dangling : Bool) :
    List Char → Except Fault (FlagItems × List Char)
  | [] => .error .flagUnexpectedEnd
  | c :: rest =>
    if c = ':' || c = ')' then
      if dangling then .error .flagDanglingNegation else .ok (items.reverse, c :: rest)
    else if c = '-' then
      if negated then .error .flagRepeatedNegation else flagItems items true true rest
    else do
      let flag ← flagOf c
      if items.any (·.1 = flag) then .error .flagDuplicate
      else flagItems ((flag, !negated) :: items) negated false rest

def isNumeric (c : Char) : Bool :=
  Text.categoryNd.contains c || Text.categoryNl.contains c || Text.categoryNo.contains c

def isNameChar (first : Bool) (c : Char) : Bool :=
  c = '_' || Text.alphabetic.contains c
    || (!first && (isNumeric c || c = '.' || c = '[' || c = ']'))

/-- The name of a group, up to its closing angle. -/
def groupName (seen : List Char) : List Char → Except Fault (String × List Char)
  | [] => .error .groupNameUnexpectedEnd
  | '>' :: rest => .ok (String.ofList seen.reverse, rest)
  | c :: rest =>
    if isNameChar seen.isEmpty c then groupName (c :: seen) rest else .error .groupNameInvalid

/-- What an opening parenthesis starts. -/
inductive Opening where
  /-- Flags for the rest of the group around. -/
  | flags (items : FlagItems)
  /-- A group, with its name if it has one. -/
  | group (items : FlagItems) (name : Option String)

/-- Reads the start of a group, behind the parenthesis. -/
def opening (s : List Char) : Except Fault (Opening × List Char) :=
  match s with
  | '?' :: '=' :: _ | '?' :: '!' :: _ | '?' :: '<' :: '=' :: _ | '?' :: '<' :: '!' :: _ =>
    .error .lookAround
  | '?' :: 'P' :: '<' :: rest | '?' :: '<' :: rest => do
    let (name, rest) ← groupName [] rest
    if name.isEmpty then .error .groupNameEmpty else pure (.group [] (some name), rest)
  | ['?'] => .error .groupUnclosed
  | '?' :: rest => do
    let (items, rest) ← flagItems [] false false rest
    match rest with
    | ')' :: rest => if items.isEmpty then .error .repetitionMissing else pure (.flags items, rest)
    | rest => pure (.group items none, rest.drop 1)
  | s => .ok (.group [] none, s)

/-! ### Whole patterns -/

/-- A group that is open: what stood before it, and the flags it was opened with. -/
structure Frame where
  parts : List Node
  branches : List Node
  items : FlagItems
  verbose : Bool

/-- The state of the reader. Parts and branches are in reverse. -/
structure Reader where
  frames : List Frame := []
  branches : List Node := []
  parts : List Node := []
  verbose : Bool := false
  names : List String := []

namespace Reader

def sequence (parts : List Node) : Node :=
  match parts with
  | [] => .empty
  | [only] => only
  | parts => .cat parts.reverse

def contents (r : Reader) : Node :=
  match r.branches with
  | [] => sequence r.parts
  | branches => .alt (sequence r.parts :: branches).reverse

def push (r : Reader) (part : Node) : Reader := { r with parts := part :: r.parts }

def opened (r : Reader) : Opening → Except Fault Reader
  | .flags items =>
    let verbose := ((items.find? (·.1 = .verbose)).map (·.2)).getD r.verbose
    .ok { r with parts := .flags items :: r.parts, verbose := verbose }
  | .group items name =>
    let verbose := ((items.find? (·.1 = .verbose)).map (·.2)).getD r.verbose
    let inner : Reader :=
      { r with frames := ⟨r.parts, r.branches, items, r.verbose⟩ :: r.frames, branches := [],
               parts := [], verbose := verbose }
    match name with
    | none => .ok inner
    | some name =>
      if r.names.contains name then .error .groupNameDuplicate
      else .ok { inner with names := name :: r.names }

def closed (r : Reader) : Except Fault Reader :=
  match r.frames with
  | [] => .error .groupUnopened
  | frame :: frames =>
    .ok { r with frames := frames, branches := frame.branches, verbose := frame.verbose,
                 parts := .group frame.items r.contents :: frame.parts }

def repeated (r : Reader) (least : Nat) (most : Option Nat) (rest : List Char) :
    Except Fault (Reader × List Char) :=
  if repeatable r.parts then
    let (greedy, rest) := greed rest
    .ok ({ r with parts := repeatLast r.parts least most greedy }, rest)
  else .error .repetitionMissing

def step (r : Reader) (c : Char) (rest : List Char) : Except Fault (Reader × List Char) :=
  match c with
  | '(' => do
    let (start, rest) ← opening (skip r.verbose rest)
    pure (← r.opened start, rest)
  | ')' => do pure (← r.closed, rest)
  | '|' => .ok ({ r with branches := sequence r.parts :: r.branches, parts := [] }, rest)
  | '[' => do
    let (node, rest) ← bracketClass r.verbose rest
    pure (r.push node, rest)
  | '?' => r.repeated 0 (some 1) rest
  | '*' => r.repeated 0 none rest
  | '+' => r.repeated 1 none rest
  | '\x7b' =>
    if repeatable r.parts then do
      let ((least, most), rest) ← bounds r.verbose rest
      let (greedy, rest) := greed (skip r.verbose rest)
      if most.all (least ≤ ·) then
        pure ({ r with parts := repeatLast r.parts least most greedy }, rest)
      else .error .repetitionCountInvalid
    else .error .repetitionMissing
  | '\\' => do
    let (node, rest) ← escape r.verbose rest
    pure (r.push node, rest)
  | '.' => .ok (r.push .dot, rest)
  | '^' => .ok (r.push (.assertion .lineStart), rest)
  | '$' => .ok (r.push (.assertion .lineEnd), rest)
  | c => .ok (r.push (.literal ⟨c, false⟩), rest)

/-- Reads to the end of the text, whose length bounds the steps. -/
def run : Nat → Reader → List Char → Except Fault Reader
  | 0, r, _ => .ok r
  | n + 1, r, s =>
    match skip r.verbose s with
    | [] => .ok r
    | c :: rest => do
      let (r, rest) ← r.step c rest
      run n r rest

end Reader

mutual

def Node.depth : Node → Nat
  | .repetition _ _ _ body => body.depth + 1
  | .group _ body => body.depth + 1
  | .cat parts => Node.depths parts + 1
  | .alt branches => Node.depths branches + 1
  | .bracket _ inner => classDepth inner + 1
  | _ => 0

def Node.depths : List Node → Nat
  | [] => 0
  | node :: rest => max node.depth (Node.depths rest)

def classDepth : ClassSet → Nat
  | .bracket _ inner => classDepth inner + 1
  | .combine _ left right => max (classDepth left) (classDepth right) + 1
  | .union left right => max (classDepth left) (classDepth right)
  | _ => 0

end

def Node.parse (text : String) : Except Fault Node := do
  let s := text.toList
  let r ← Reader.run (s.length + 1) {} s
  if !r.frames.isEmpty then .error .groupUnclosed
  else if nestLimit < r.contents.depth then .error .nestLimitExceeded
  else pure r.contents

end Workflow.Pattern
