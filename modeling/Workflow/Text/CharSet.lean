/-!
Sets of characters, as ranges of code points. Large sets are written down as text: code points in
hexadecimal, with blanks between them. A number of one or two digits has the leading digits of the
number before it.
-/

namespace Workflow

/-- A set of characters. The ranges are in the order of their first characters. -/
structure CharSet where
  ranges : List (Nat × Nat)
  deriving DecidableEq, Repr

namespace CharSet

/-- The code points `first, first + step, …, last`. -/
structure Run where
  first : Nat
  last : Nat
  step : Nat

def Run.ranges (r : Run) : List (Nat × Nat) :=
  if r.step = 1 then [(r.first, r.last)]
  else (List.range ((r.last - r.first) / r.step + 1)).map fun k =>
    (r.first + k * r.step, r.first + k * r.step)

/-- Whether a code point lies in one of the ranges, which are in the order of their first ones. -/
def rangesContain : List (Nat × Nat) → Nat → Bool
  | [], _ => false
  | (first, last) :: rest, n =>
    if n < first then false else if n ≤ last then true else rangesContain rest n

def contains (s : CharSet) (c : Char) : Bool := rangesContain s.ranges c.toNat

/-- The value of a hexadecimal digit in lower case. -/
def hexDigit (c : Char) : Nat := if c.isDigit then c.toNat - 48 else c.toNat - 87

def hexValue (digits : List Char) : Nat := digits.foldl (fun n c => n * 16 + hexDigit c) 0

/-- The value of a hexadecimal number behind another number, which gives the leading digits of a short one. -/
def hexAfter (before : Nat) (digits : List Char) : Nat :=
  if digits.length ≤ 2 then before / 256 * 256 + hexValue digits else hexValue digits

def wordsOf (mark : Char) (text : List Char) : List (List Char) :=
  let (word, words) := text.foldr (fun c (word, words) =>
    if c = mark then ([], word :: words) else (c :: word, words)) ([], [])
  (word :: words).filter fun w => !w.isEmpty

/-- The run that a word such as `41-5a` stands for behind a number. The word `100/12e` has every second code
point. -/
def runAfter (before : Nat) (word : List Char) : Run :=
  let digits := word.takeWhile fun c => c ≠ '-' && c ≠ '/'
  let first := hexAfter before digits
  match word.drop digits.length with
  | mark :: last => ⟨first, hexAfter first last, if mark = '/' then 2 else 1⟩
  | [] => ⟨first, first, 1⟩

def rangesAfter (before : Nat) : List (List Char) → List (Nat × Nat)
  | [] => []
  | word :: words =>
    let run := runAfter before word
    run.ranges ++ rangesAfter run.last words

/-- The set of lines of code points in hexadecimal. -/
def ofLines (lines : List String) : CharSet :=
  ⟨rangesAfter 0 (lines.flatMap fun line => wordsOf ' ' line.toList)⟩

def range (first last : Nat) : CharSet := ⟨[(first, last)]⟩

def mergeRanges : List (Nat × Nat) → List (Nat × Nat) → List (Nat × Nat)
  | [], others => others
  | r :: rest, others =>
    others.takeWhile (·.1 < r.1) ++ r :: mergeRanges rest (others.dropWhile (·.1 < r.1))

def union (s t : CharSet) : CharSet := ⟨mergeRanges s.ranges t.ranges⟩

def unions (sets : List CharSet) : CharSet := sets.foldr union ⟨[]⟩

end CharSet

end Workflow
