import Mathlib.Algebra.Order.Ring.Nat
import Mathlib.Tactic.Ring
import Workflow.Time

/-!
Delays between attempts. Words of seconds and nanoseconds multiply like the spans they stand for, up to the
longest span that they hold: no product or sum of words wraps around. So the delay of a policy is a multiple of
its base or the longest span, whichever is shorter, and it grows with the number of the retry and with the base.
-/

namespace Workflow

namespace Duration

variable {d : Duration} {n : Nat}

/-! ### Words -/

namespace Words

lemma toDuration_le (w : Words) : w.toDuration ≤ Duration.longest := by
  have hseconds := w.seconds.toNat_lt
  have hnanos := w.nanos_lt
  have hle : w.seconds.toNat * perSecond + w.nanos.toNat ≤ 0xffffffffffffffff * perSecond + (perSecond - 1) := by
    simp only [perSecond] at *
    omega
  exact hle

lemma toDuration_longest : longest.toDuration = Duration.longest := rfl

lemma toDuration_ofDuration (h : d ≤ Duration.longest) : (ofDuration d).toDuration = d := by
  have hseconds : d / perSecond < 2 ^ 64 := Nat.div_lt_of_lt_mul (lt_of_le_of_lt h (by decide))
  have hnanos : d % perSecond < 2 ^ 32 := Nat.lt_trans (Nat.mod_lt _ (by decide)) (by decide)
  rw [ofDuration, if_pos h, toDuration, UInt64.toNat_ofNat_of_lt' hseconds,
    UInt32.toNat_ofNat_of_lt' hnanos, Nat.div_add_mod']

/-- Less than 2³⁰ nanoseconds, taken less than 2³² times, are less than 2⁶⁴. -/
lemma toNat_nanos_mul (w : Words) (n : UInt32) : (w.nanos.toUInt64 * n.toUInt64).toNat = w.nanos.toNat * n.toNat := by
  have hlt : w.nanos.toNat * n.toNat < 2 ^ 30 * 2 ^ 32 :=
    Nat.mul_lt_mul_of_lt_of_lt (Nat.lt_trans w.nanos_lt (by decide)) n.toNat_lt
  rw [UInt64.toNat_mul, UInt32.toNat_toUInt64, UInt32.toNat_toUInt64]
  exact Nat.mod_eq_of_lt (Nat.lt_trans hlt (by decide))

lemma carry_eq (nanos : UInt64) : (carry nanos).1.toNat * perSecond + (carry nanos).2.toNat = nanos.toNat := by
  have hrest : nanos.toNat % perSecond < 2 ^ 32 := Nat.lt_trans (Nat.mod_lt _ (by decide)) (by decide)
  have hnanos : (carry nanos).2.toNat = nanos.toNat % perSecond := by
    rw [carry, UInt64.toNat_toUInt32, UInt64.toNat_mod]
    exact Nat.mod_eq_of_lt hrest
  rw [hnanos, carry, UInt64.toNat_div]
  exact Nat.div_add_mod' _ _

lemma mul?_bind_add? (a b c : UInt64) : (mul? a b).bind (add? · c) =
    if a.toNat * b.toNat + c.toNat < UInt64.size then some (a * b + c) else none := by
  unfold mul?
  by_cases hmul : a.toNat * b.toNat < UInt64.size
  · rw [if_pos hmul, Option.bind_some, add?, UInt64.toNat_mul, Nat.mod_eq_of_lt hmul]
  · rw [if_neg hmul, Option.bind_none, if_neg]
    omega

lemma toDuration_mul (w : Words) (n : UInt32) : w.toDuration * n.toNat =
    (w.seconds.toNat * n.toNat + (w.carried n).1.toNat) * perSecond + (w.carried n).2.toNat := by
  have hcarry : (w.carried n).1.toNat * perSecond + (w.carried n).2.toNat = w.nanos.toNat * n.toNat :=
    (carry_eq _).trans (toNat_nanos_mul w n)
  rw [toDuration, Nat.add_mul, ← hcarry]
  ring

lemma toDuration_times (w : Words) (n : UInt32) :
    (w.times n).toDuration = min (w.toDuration * n.toNat) Duration.longest := by
  rw [times, mul?_bind_add?, UInt32.toNat_toUInt64]
  split
  · next seconds heq =>
    obtain ⟨hfits, hsum⟩ := Option.ite_none_right_eq_some.1 heq
    have hseconds : seconds.toNat = w.seconds.toNat * n.toNat + (w.carried n).1.toNat := by
      rw [← Option.some.inj hsum, UInt64.toNat_add, UInt64.toNat_mul, UInt32.toNat_toUInt64, Nat.mod_add_mod]
      exact Nat.mod_eq_of_lt hfits
    have hproduct : toDuration ⟨seconds, (w.carried n).2, carry_lt _⟩ = w.toDuration * n.toNat := by
      rw [toDuration_mul, toDuration, hseconds]
    rw [hproduct, min_eq_left]
    exact hproduct ▸ toDuration_le _
  · next heq =>
    have hlarge : UInt64.size ≤ w.seconds.toNat * n.toNat + (w.carried n).1.toNat := by
      by_contra hlt
      rw [if_pos (not_le.1 hlt)] at heq
      cases heq
    rw [toDuration_longest, min_eq_right]
    calc Duration.longest ≤ UInt64.size * perSecond := by decide
      _ ≤ (w.seconds.toNat * n.toNat + (w.carried n).1.toNat) * perSecond := Nat.mul_le_mul_right _ hlarge
      _ ≤ w.toDuration * n.toNat := by
        rw [toDuration_mul]
        exact Nat.le_add_right _ _

end Words

lemma times_eq_min (hd : d ≤ longest) (hn : n < 2 ^ 32) : d.times n = min (d * n) longest := by
  rw [times, Words.toDuration_times, Words.toDuration_ofDuration hd, UInt32.toNat_ofNat_of_lt' hn]

end Duration

/-! ### Policies -/

namespace Backoff

/-- How many times its base the delay before a retry is. -/
def factor (retry : Nat) : Backoff → Nat
  | fixed => 1
  | linear => max retry 1
  | exponential => min (2 ^ (retry - 1)) (2 ^ 32 - 1)

lemma factor_lt (h : retry < 2 ^ 32) (b : Backoff) : b.factor retry < 2 ^ 32 := by
  cases b with
  | fixed => exact (by decide : 1 < 2 ^ 32)
  | linear => exact max_lt h (by decide)
  | exponential => exact lt_of_le_of_lt (min_le_right _ _) (by decide)

lemma factor_mono (h : retry ≤ retry') (b : Backoff) : b.factor retry ≤ b.factor retry' := by
  cases b with
  | fixed => exact le_rfl
  | linear => exact max_le_max h le_rfl
  | exponential =>
    exact min_le_min (Nat.pow_le_pow_right (by decide) (Nat.sub_le_sub_right h 1)) le_rfl

/-- Powers of more than 32 bits need not be taken to know that they are too large. -/
lemma factor_exponential (retry : Nat) :
    exponential.factor retry = min (Nat.pow 2 (min (retry - 1) 32)) 0xffffffff := by
  rcases Nat.le_total (retry - 1) 32 with hle | hle
  · rw [min_eq_left hle]
    rfl
  · have hpow : 2 ^ 32 ≤ 2 ^ (retry - 1) := Nat.pow_le_pow_right (by decide) hle
    rw [min_eq_right hle, factor, min_eq_right (le_trans (by decide) hpow)]
    rfl

end Backoff

lemma RetryPolicy.delay_eq_min (p : RetryPolicy) (hretry : retry < 2 ^ 32) (hbase : base ≤ Duration.longest) :
    p.delay retry base = min (base * p.backoff.factor retry) Duration.longest := by
  have htimes := Duration.times_eq_min hbase (p.backoff.factor_lt hretry)
  rw [RetryPolicy.delay]
  generalize p.backoff = b at htimes ⊢
  cases b with
  | fixed => rw [Backoff.factor, Nat.mul_one, min_eq_left hbase]
  | linear => exact htimes
  | exponential =>
    dsimp only
    rw [← Backoff.factor_exponential]
    exact htimes

/-- The delay before a retry is exact: the base, the base times the number of the retry, or the base doubled for
each retry behind the first, and the longest span if that is shorter. More retries and a longer base never make
it shorter. -/
theorem RetryPolicy.delay_exact_mono (p : RetryPolicy) (retry : Nat) (base : Duration) (hretry : retry < 2 ^ 32)
    (hbase : base ≤ Duration.longest) :
    (p.delay retry base = min (base * match p.backoff with
      | .fixed => 1
      | .linear => max retry 1
      | .exponential => min (2 ^ (retry - 1)) (2 ^ 32 - 1)) Duration.longest) ∧
    (∀ earlier ≤ retry, p.delay earlier base ≤ p.delay retry base) ∧
    ∀ shorter ≤ base, p.delay retry shorter ≤ p.delay retry base := by
  have hexact := p.delay_eq_min hretry hbase
  refine ⟨?_, fun earlier hle => ?_, fun shorter hle => ?_⟩
  · rw [hexact]
    cases p.backoff <;> rfl
  · rw [hexact, p.delay_eq_min (lt_of_le_of_lt hle hretry) hbase]
    exact min_le_min (Nat.mul_le_mul_left _ (Backoff.factor_mono hle _)) le_rfl
  · rw [hexact, p.delay_eq_min hretry (le_trans hle hbase)]
    exact min_le_min (Nat.mul_le_mul_right _ hle) le_rfl

/-- The factor of retry 40 is the largest of 32 bits, and half a second that many times is still held. Four times
half of the longest span is not. -/
theorem RetryPolicy.delay_exact_mono_saturated :
    (⟨"r", 3, .exponential⟩ : RetryPolicy).delay 40 (.ofMillis 500) = 500000000 * 0xffffffff ∧
    (⟨"r", 3, .exponential⟩ : RetryPolicy).delay 3 (.ofSeconds 0x8000000000000000) = Duration.longest := by
  have hlast := RetryPolicy.delay_exact_mono ⟨"r", 3, .exponential⟩ 40 (.ofMillis 500) (by decide) (by decide)
  have hlong := RetryPolicy.delay_exact_mono ⟨"r", 3, .exponential⟩ 3 (.ofSeconds 0x8000000000000000) (by decide) (by decide)
  exact ⟨hlast.1.trans (by decide), hlong.1.trans (by decide)⟩

end Workflow
