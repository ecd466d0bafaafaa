import Workflow.Listing.Spec

/-!
Spans of time, in nanoseconds. They stop growing at the greatest number of seconds that 64 bits
hold, and are multiplied in words of 64 and 32 bits. The text of a span uses the largest unit that it reaches.
-/

namespace Workflow

abbrev Duration := Nat

namespace Duration

def perSecond : Nat := 1000000000

def perMilli : Nat := 1000000

def longest : Duration := 0xffffffffffffffff * perSecond + (perSecond - 1)

def ofMillis (n : Nat) : Duration := n * perMilli

def ofSeconds (n : Nat) : Duration := n * perSecond

/-- A span as clocks keep it, in two words: whole seconds, and the nanoseconds that are left. -/
structure Words where
  seconds : UInt64
  nanos : UInt32
  nanos_lt : nanos.toNat < perSecond

namespace Words

def toDuration (w : Words) : Duration := w.seconds.toNat * perSecond + w.nanos.toNat

def longest : Words := ⟨0xffffffffffffffff, 999999999, by decide⟩

/-- The words of a span. What they cannot hold becomes the longest span. -/
def ofDuration (d : Duration) : Words :=
  if d ≤ Duration.longest then
    ⟨.ofNat (d / perSecond), .ofNat (d % perSecond), by
      have hlt : d % perSecond < perSecond := Nat.mod_lt _ (by decide)
      rw [UInt32.toNat_ofNat']
      exact Nat.lt_of_le_of_lt (Nat.mod_le _ _) hlt⟩
  else longest

/-- A product, if it fits a word. -/
def mul? (a b : UInt64) : Option UInt64 := if a.toNat * b.toNat < UInt64.size then some (a * b) else none

/-- A sum, if it fits a word. -/
def add? (a b : UInt64) : Option UInt64 := if a.toNat + b.toNat < UInt64.size then some (a + b) else none

/-- Some nanoseconds that 64 bits hold, as whole seconds and the rest. -/
def carry (nanos : UInt64) : UInt64 × UInt32 := (nanos / 1000000000, (nanos % 1000000000).toUInt32)

theorem carry_lt (nanos : UInt64) : (carry nanos).2.toNat < perSecond := by
  have hlt : nanos.toNat % 1000000000 < perSecond := Nat.mod_lt _ (by decide)
  rw [carry, UInt64.toNat_toUInt32, UInt64.toNat_mod]
  exact Nat.lt_of_le_of_lt (Nat.mod_le _ _) hlt

/-- What the nanoseconds come to when they are taken so many times. They are fewer than 2³⁰, so that the product
fits. -/
def carried (w : Words) (n : UInt32) : UInt64 × UInt32 := carry (w.nanos.toUInt64 * n.toUInt64)

/-- Seconds and nanoseconds are multiplied apart, and the seconds that the nanoseconds come to are carried.
Where the seconds do not fit their word the product is the longest span. -/
def times (w : Words) (n : UInt32) : Words :=
  match (mul? w.seconds n.toUInt64).bind (add? · (w.carried n).1) with
  | some seconds => ⟨seconds, (w.carried n).2, carry_lt _⟩
  | none => longest

end Words

/-- A multiple of a span, by a number of 32 bits. -/
def times (d : Duration) (n : Nat) : Duration := ((Words.ofDuration d).times (.ofNat n)).toDuration

def millis (d : Duration) : Nat := d / perMilli

/-- Digits behind the point, without zeros at the end; `width` is how many there can be. -/
def fraction (width n : Nat) : String :=
  let digits := (toString n).toList
  let all := List.replicate (width - digits.length) '0' ++ digits
  match (all.reverse.dropWhile (· = '0')).reverse with
  | [] => ""
  | kept => "." ++ String.ofList kept

def display (d : Duration) : String :=
  if perSecond ≤ d then toString (d / perSecond) ++ fraction 9 (d % perSecond) ++ "s"
  else if perMilli ≤ d then toString (d / perMilli) ++ fraction 6 (d % perMilli) ++ "ms"
  else if 1000 ≤ d then toString (d / 1000) ++ fraction 3 (d % 1000) ++ "µs"
  else toString d ++ "ns"

end Duration

def RetryPolicy.delay (p : RetryPolicy) (retry : Nat) (base : Duration) : Duration :=
  match p.backoff with
  | .fixed => base
  | .linear => base.times (max retry 1)
  | .exponential => base.times (min (Nat.pow 2 (min (retry - 1) 32)) 0xffffffff)

def TimeoutPolicy.duration (p : TimeoutPolicy) : Duration := .ofSeconds p.seconds

end Workflow
