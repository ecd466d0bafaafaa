import Mathlib
import Workflow.Run.Block

/-!
Comparison of integers. Numbers are compared as floats, which have 53 bits for an integer; what comes behind
them is rounded off. So the operators are exact up to `2^53`, and beyond they take neighbours to be equal.
-/

namespace Workflow

open Float.Model Float.Model.UnpackedFloat ExtendedMantissa Format Number

variable {n k : Nat}

/-- A number without so many of its last bits, which are rounded off to the nearest, and to even in the middle. -/
def roundOff (n bits : Nat) : Nat :=
  let rest := n % 2 ^ bits
  n / 2 ^ bits + if 2 * rest < 2 ^ bits ∨ 2 * rest = 2 ^ bits ∧ n / 2 ^ bits % 2 = 0 then 0 else 1

/-- The nearest number that has no more than 53 bits in front of its zeros. -/
def nearestNat (n : Nat) : Nat := roundOff n (n.log2 - 52) * 2 ^ (n.log2 - 52)

def nearest : Int → Int
  | .ofNat n => nearestNat n
  | .negSucc n => -nearestNat (n + 1)

/-! ### Rounding -/

lemma roundOff_zero : roundOff n 0 = n := by
  simp [roundOff, Nat.mod_one]

lemma le_roundOff (n k : Nat) : n / 2 ^ k ≤ roundOff n k ∧ roundOff n k ≤ n / 2 ^ k + 1 := by
  unfold roundOff
  dsimp only
  split <;> omega

lemma roundOff_mono (h : m ≤ n) (k : Nat) : roundOff m k ≤ roundOff n k := by
  have hquotient : m / 2 ^ k ≤ n / 2 ^ k := Nat.div_le_div_right h
  rcases hquotient.eq_or_lt with heq | hlt
  · have hm := Nat.div_add_mod m (2 ^ k)
    have hn := Nat.div_add_mod n (2 ^ k)
    rw [heq] at hm
    simp only [roundOff, heq]
    split <;> split <;> omega
  · exact (le_roundOff m k).2.trans (Nat.le_trans hlt (le_roundOff n k).1)

/-- What is left of a number while its last bits are shifted out. -/
structure Holds (n k : Nat) (em : ExtendedMantissa) : Prop where
  mantissa : em.mantissa = n / 2 ^ k
  round : em.roundBit = true ↔ 2 ^ k ≤ 2 * (n % 2 ^ k)
  sticky : em.stickyBit = true ↔ n % 2 ^ k ≠ 0 ∧ 2 * (n % 2 ^ k) ≠ 2 ^ k

lemma Holds.shift {em : ExtendedMantissa} (h : Holds n k em) : Holds n (k + 1) em.shiftRightOne := by
  obtain ⟨hmantissa, hround, hsticky⟩ := h
  have hrest : n % 2 ^ k < 2 ^ k := Nat.mod_lt _ (Nat.two_pow_pos k)
  have hbit := Nat.mod_two_eq_zero_or_one (n / 2 ^ k)
  refine ⟨?_, ?_, ?_⟩
  · rw [shiftRightOne, hmantissa, Nat.div_div_eq_div_mul, Nat.pow_succ]
  · rw [shiftRightOne, hmantissa, Nat.mod_pow_succ, Nat.pow_succ', bne_iff_ne]
    rcases hbit with h | h <;> rw [h] <;> omega
  · rw [shiftRightOne, Bool.or_eq_true, hround, hsticky, Nat.mod_pow_succ, Nat.pow_succ']
    rcases hbit with h | h <;> rw [h] <;> omega

lemma holds_shift (n : Nat) : ∀ k, Holds n k (ExtendedMantissa.mk n false false >>> k)
  | 0 => ⟨(Nat.div_one n).symm, by simp [Nat.mod_one, HShiftRight.hShiftRight, Nat.repeat],
      by simp [Nat.mod_one, HShiftRight.hShiftRight, Nat.repeat]⟩
  | k + 1 => (holds_shift n k).shift

lemma Holds.rounded {em : ExtendedMantissa} (h : Holds n k em) : em.roundedMantissa = roundOff n k := by
  obtain ⟨m, round, sticky⟩ := em
  obtain ⟨rfl, hround, hsticky⟩ := h
  dsimp only at hround hsticky
  unfold roundOff
  dsimp only
  cases round <;> cases sticky <;> simp at hround hsticky <;>
    simp only [roundedMantissa, accuracy, Accuracy.roundToNearestEven] <;>
    split <;> omega

lemma log2_mul_two_pow (hn : n ≠ 0) (j : Nat) : (n * 2 ^ j).log2 = n.log2 + j := by
  have hpos := Nat.two_pow_pos j
  refine (Nat.log2_eq_iff (Nat.mul_ne_zero hn hpos.ne')).2 ⟨?_, ?_⟩
  · rw [Nat.pow_add]
    exact Nat.mul_le_mul_right _ (Nat.log2_self_le hn)
  · rw [Nat.add_right_comm, Nat.pow_add]
    exact (Nat.mul_lt_mul_right hpos).2 Nat.lt_log2_self

lemma log2_mono (hm : m ≠ 0) (h : m ≤ n) : m.log2 ≤ n.log2 :=
  (Nat.le_log2 (by omega)).2 ((Nat.log2_self_le hm).trans h)

lemma roundOff_bounds (hlog : n.log2 = 52 + k) : 2 ^ 52 ≤ roundOff n k ∧ roundOff n k ≤ 2 ^ 53 := by
  have hn : n ≠ 0 := fun h => by simp [h] at hlog; omega
  obtain ⟨hlow, hhigh⟩ := (Nat.log2_eq_iff hn).1 hlog
  rw [Nat.pow_add, ← Nat.le_div_iff_mul_le (Nat.two_pow_pos k)] at hlow
  rw [Nat.add_right_comm, Nat.pow_add, ← Nat.div_lt_iff_lt_mul (Nat.two_pow_pos k)] at hhigh
  have hround := le_roundOff n k
  omega

lemma exists_normal (hlog : n.log2 = 52 + k) : ∃ m j, j ≤ 1 ∧ m.log2 = 52 ∧ roundOff n k = m * 2 ^ j := by
  obtain ⟨hlow, hhigh⟩ := roundOff_bounds hlog
  rcases hhigh.eq_or_lt with heq | hlt
  · exact ⟨2 ^ 52, 1, le_rfl, Nat.log2_two_pow, heq⟩
  · exact ⟨roundOff n k, 0, Nat.zero_le 1, (Nat.log2_eq_iff (by omega)).2 ⟨hlow, hlt⟩, (Nat.mul_one _).symm⟩

/-! ### The nearest integers -/

lemma nearestNat_of_lt (h : n < 2 ^ 53) : nearestNat n = n := by
  rcases eq_or_ne n 0 with rfl | hn
  · rfl
  · have hlog := (Nat.log2_lt hn).2 h
    rw [nearestNat, Nat.sub_eq_zero_of_le (Nat.lt_succ_iff.1 hlog), roundOff_zero, Nat.pow_zero, Nat.mul_one]

lemma nearestNat_bounds (hn : n ≠ 0) : 2 ^ n.log2 ≤ nearestNat n ∧ nearestNat n ≤ 2 ^ (n.log2 + 1) := by
  rcases Nat.lt_or_ge n (2 ^ 53) with hsmall | hlarge
  · rw [nearestNat_of_lt hsmall]
    exact ⟨Nat.log2_self_le hn, Nat.lt_log2_self.le⟩
  · obtain ⟨k, hk⟩ := Nat.exists_eq_add_of_le (Nat.le_of_lt ((Nat.le_log2 hn).2 hlarge))
    obtain ⟨hlow, hhigh⟩ := roundOff_bounds hk
    rw [nearestNat, hk, Nat.add_sub_cancel_left, Nat.add_right_comm, Nat.pow_add, Nat.pow_add]
    exact ⟨Nat.mul_le_mul_right _ hlow, Nat.mul_le_mul_right _ hhigh⟩

lemma nearestNat_mono (h : m ≤ n) : nearestNat m ≤ nearestNat n := by
  rcases eq_or_ne m 0 with rfl | hm
  · exact Nat.zero_le _
  rcases (log2_mono hm h).eq_or_lt with heq | hlt
  · rw [nearestNat, nearestNat, heq]
    exact Nat.mul_le_mul_right _ (roundOff_mono h _)
  · exact (nearestNat_bounds hm).2.trans ((Nat.pow_le_pow_right Nat.two_pos hlt).trans (nearestNat_bounds (by omega)).1)

lemma nearest_mono : ∀ {m n}, m ≤ n → nearest m ≤ nearest n
  | .ofNat m, .ofNat n, h => Int.ofNat_le.2 (nearestNat_mono (Int.ofNat_le.1 h))
  | .negSucc m, .ofNat n, _ => (Int.neg_nonpos_of_nonneg (Int.natCast_nonneg _)).trans (Int.natCast_nonneg _)
  | .negSucc m, .negSucc n, h => Int.neg_le_neg (Int.ofNat_le.2 (nearestNat_mono (by omega)))
  | .ofNat m, .negSucc n, h => absurd (Int.negSucc_lt_zero n) (((Int.natCast_nonneg m).trans h).not_gt)

lemma nearestNat_eq_self (h : n ≤ 2 ^ 53) : nearestNat n = n := by
  rcases h.eq_or_lt with rfl | hlt
  · decide +kernel
  · exact nearestNat_of_lt hlt

lemma nearest_eq_self : ∀ {n : Int}, n.natAbs ≤ 2 ^ 53 → nearest n = n
  | .ofNat _, h => congrArg Int.ofNat (nearestNat_eq_self h)
  | .negSucc _, h => congrArg (-Int.ofNat ·) (nearestNat_eq_self h)

/-! ### Floats for integers -/

/-- A float is in normal form, and stands for an integer. Exponents are counted from `-60`, below those of all
integers. -/
inductive Stands : UnpackedFloat → Int → Prop where
  | zero {sign} : Stands (.zero sign) 0
  | finite {sign} {m v scale : Nat} {positive} (normal : m.log2 = 52) (small : v < 2 ^ 65)
      (value : m * 2 ^ scale = v * 2 ^ 60) : Stands (.finite sign m (scale - 60) positive) (sign.apply v)

lemma shiftToTargetExponent_eq {r j : Nat} (hr : r.log2 = 52 + j) (he : -1000 < e) :
    shiftToTargetExponent .binary64 r e .exact = (ExtendedMantissa.mk r false false >>> j, e + j) := by
  have htarget : binary64.targetExponent (totalExponent r e) = e + j := by
    simp only [targetExponent, totalExponent, hr, mantissaBits, minExponent]
    omega
  have hamount : (e + j - e).toNat = j := by omega
  rw [shiftToTargetExponent, htarget, shiftToExponent, hamount]
  rfl

lemma stands_round {sign : Sign} {v : Nat} {e : Int} (scale : Nat) (hlog : n.log2 = 52 + k) (hk : k < 200)
    (he : e + k = scale - 60) (hsmall : v < 2 ^ 65) (hvalue : roundOff n k * 2 ^ scale = v * 2 ^ 60) :
    Stands (roundWithAccuracy .binary64 sign n e .exact) (sign.apply v) := by
  obtain ⟨m, j, hj, hm, hround⟩ := exists_normal hlog
  have hpos : m ≠ 0 := fun h => by simp [h] at hm
  have hlog' : (m * 2 ^ j).log2 = 52 + j := by rw [log2_mul_two_pow hpos, hm]
  have hleft : (ExtendedMantissa.mk (m * 2 ^ j) false false >>> j).mantissa = m := by
    rw [(holds_shift _ j).mantissa, Nat.mul_div_cancel _ (Nat.two_pow_pos j)]
  have hexponent : e + k + j = ((scale + j : Nat) : Int) - 60 := by omega
  rw [roundWithAccuracy, shiftToTargetExponent_eq hlog (by omega)]
  dsimp only
  rw [(holds_shift n k).rounded, hround, shiftToTargetExponent_eq hlog' (by omega)]
  simp only [hleft, hexponent]
  rw [dif_neg hpos]
  refine .finite hm hsmall ?_
  rw [Nat.pow_add, Nat.mul_left_comm, Nat.mul_comm (2 ^ scale), ← hvalue, hround]

lemma unpackSign_packComponents {sign : Sign} {exponent : BitVec 11} {mantissa : BitVec 52} :
    Sign.ofBitVec (unpackSign (packComponents .binary64 sign exponent mantissa)) = sign := by
  simp only [unpackSign, packComponents, BitVec.extractLsb]
  rw [BitVec.extractLsb'_append_eq_of_le (by omega), BitVec.extractLsb'_append_eq_of_le (by omega)]
  cases sign <;> rfl

lemma Stands.unpack_pack {f : UnpackedFloat} {v : Int} (h : Stands f v) : (pack f).unpack = f := by
  cases h with
  | @zero sign => cases sign <;> rfl
  | @finite sign m v scale positive normal small value =>
    obtain ⟨hlow, hhigh⟩ := (Nat.log2_eq_iff positive.ne').1 normal
    have hscale : scale < 73 := by
      have hpow := Nat.mul_le_mul_right (2 ^ scale) hlow
      rw [← Nat.pow_add, value] at hpow
      have := (Nat.pow_lt_pow_iff_right Nat.one_lt_two).1 (hpow.trans_lt (show v * 2 ^ 60 < 2 ^ 125 by omega))
      omega
    have hbias : binary64.exponentBias = 1023 := rfl
    have hbiased : ((scale : Int) - 60 + (1023 : Nat) + (52 : Nat)).toNat = scale + 1015 := by omega
    have hmantissa : (1#1 ++ BitVec.ofNat 52 m).toNat = m := by
      rw [BitVec.toNat_append, ← Nat.shiftLeft_add_eq_or_of_lt (BitVec.ofNat 52 m).isLt, BitVec.toNat_ofNat]
      simp only [BitVec.toNat_ofNat, Nat.shiftLeft_eq]
      omega
    have hexponent : (BitVec.ofNat 11 (scale + 1015)).toNat = scale + 1015 := by
      rw [BitVec.toNat_ofNat]
      omega
    have hspecial : ∀ b : BitVec 11, b.toNat = 0 ∨ b.toNat = 2047 → BitVec.ofNat 11 (scale + 1015) ≠ b := by
      rintro b hb rfl
      omega
    simp only [Float.Model.unpack, Float.Model.pack, UnpackedFloat.pack, normal, hbias, hbiased]
    rw [if_neg (by omega), if_pos (show 52 + 1 = binary64.mantissaBits from rfl), UnpackedFloat.unpack]
    simp only [unpackMantissa_packComponents, unpackExponent_packComponents, unpackSign_packComponents]
    rw [if_neg (hspecial _ (.inr rfl)), if_neg (hspecial _ (.inl rfl))]
    simp only [hmantissa, hexponent, hbias, UnpackedFloat.finite.injEq, true_and]
    omega

lemma compare_scaled {m₁ m₂ k₁ k₂ : Nat} (h₁ : m₁.log2 = 52) (h₂ : m₂.log2 = 52) :
    (compare k₁ k₂).then (compare m₁ m₂) = compare (m₁ * 2 ^ k₁) (m₂ * 2 ^ k₂) := by
  have hlt : ∀ {m m' k k' : Nat}, m.log2 = 52 → m'.log2 = 52 → k < k' → m * 2 ^ k < m' * 2 ^ k' := by
    intro m m' k k' hm hm' hk
    refine Nat.lt_of_not_le fun hle => ?_
    have hpos : m ≠ 0 := fun h => by simp [h] at hm
    have hpos' : m' ≠ 0 := fun h => by simp [h] at hm'
    have hlog := log2_mono (Nat.mul_ne_zero hpos' (Nat.two_pow_pos k').ne') hle
    rw [log2_mul_two_pow hpos, log2_mul_two_pow hpos'] at hlog
    omega
  rcases lt_trichotomy k₁ k₂ with hk | rfl | hk
  · rw [compare_lt_iff_lt.2 hk, compare_lt_iff_lt.2 (hlt h₁ h₂ hk)]
    rfl
  · simp only [Nat.compare_eq_ite_lt, Nat.mul_lt_mul_right (Nat.two_pow_pos k₁), lt_irrefl, if_false]
    rfl
  · rw [compare_gt_iff_gt.2 hk, compare_gt_iff_gt.2 (hlt h₂ h₁ hk)]
    rfl

lemma Stands.compare_eq (hf : Stands f v) (hg : Stands g w) : f.compare g = some (compare v w) := by
  have hpos : ∀ {m v scale : Nat}, 0 < m → m * 2 ^ scale = v * 2 ^ 60 → 0 < v := by
    intro m v scale hm hvalue
    have := Nat.mul_pos hm (Nat.two_pow_pos scale)
    omega
  cases hf with
  | zero =>
    cases hg with
    | zero => rfl
    | @finite sign m v scale hm hlog _ hv =>
      have hv := hpos hm hv
      cases sign
      · exact congrArg some (Int.compare_eq_gt.2 (show -(v : Int) < 0 by omega)).symm
      · exact congrArg some (Int.compare_eq_lt.2 (show 0 < (v : Int) by omega)).symm
  | @finite sign m v scale hm hlog _ hv =>
    have hv' := hpos hm hv
    cases hg with
    | zero =>
      cases sign
      · exact congrArg some (Int.compare_eq_lt.2 (show -(v : Int) < 0 by omega)).symm
      · exact congrArg some (Int.compare_eq_gt.2 (show 0 < (v : Int) by omega)).symm
    | @finite sign' m' w scale' hm' hlog' _ hw =>
      have hw' := hpos hm' hw
      have hsame : (compare (scale - 60 : Int) (scale' - 60)).then (compare m m') = compare (v : Int) w := by
        have hscale : compare (scale - 60 : Int) (scale' - 60) = compare scale scale' := by
          simp [Int.compare_eq_ite_lt, Nat.compare_eq_ite_lt]
        rw [hscale, compare_scaled hlog hlog', hv, hw, Nat.compare_eq_ite_lt, Int.compare_eq_ite_lt]
        simp only [Nat.mul_lt_mul_right (Nat.two_pow_pos 60), Int.ofNat_lt]
      cases sign <;> cases sign'
      · simp only [UnpackedFloat.compare, hsame, Sign.apply]
        rw [Int.compare_swap, Int.compare_eq_ite_lt, Int.compare_eq_ite_lt]
        simp only [Int.neg_lt_neg_iff]
      · exact congrArg some (Int.compare_eq_lt.2 (show -(v : Int) < w by omega)).symm
      · exact congrArg some (Int.compare_eq_gt.2 (show -(w : Int) < v by omega)).symm
      · simp only [UnpackedFloat.compare, hsame, Sign.apply]

lemma stands_round_nat {sign : Sign} (hn : n ≠ 0) (hlt : n < 2 ^ 64) :
    Stands (round .binary64 sign n 0) (sign.apply (nearestNat n)) := by
  have hlog := (Nat.log2_lt hn).2 hlt
  have htarget : binary64.targetExponent (totalExponent n 0) = n.log2 - 52 := by
    simp only [targetExponent, totalExponent, mantissaBits, minExponent]
    omega
  have hamount : (0 - ((n.log2 : Int) - 52)).toNat = 52 - n.log2 := by omega
  have hsmall : nearestNat n < 2 ^ 65 :=
    (nearestNat_bounds hn).2.trans_lt (Nat.pow_lt_pow_right Nat.one_lt_two (by omega))
  rw [UnpackedFloat.round, htarget, decreaseExponent, hamount, Nat.shiftLeft_eq]
  refine stands_round (k := n.log2 - 52) (n.log2 + 8) ?_ (by omega) (by omega) hsmall ?_
  · rw [log2_mul_two_pow hn]
    omega
  rw [nearestNat, Nat.mul_assoc, ← Nat.pow_add]
  rcases Nat.le_total n.log2 52 with hle | hle
  · rw [Nat.sub_eq_zero_of_le hle, roundOff_zero, roundOff_zero, Nat.mul_assoc, ← Nat.pow_add]
    congr 2
    omega
  · rw [Nat.sub_eq_zero_of_le hle, Nat.pow_zero, Nat.mul_one]
    congr 2
    omega

lemma stands_ofInt : ∀ {n : Int}, n.natAbs < 2 ^ 64 → Stands (pack (ofInt .binary64 n)).unpack (nearest n)
  | .ofNat 0, _ => (Stands.zero : Stands (.zero .positive) 0)
  | .ofNat (n + 1), hn => by
    have h := @stands_round_nat (n + 1) .positive n.succ_ne_zero hn
    exact h.unpack_pack.symm ▸ h
  | .negSucc n, hn => by
    have h := @stands_round_nat (n + 1) .negative n.succ_ne_zero hn
    have hround : UnpackedFloat.ofInt .binary64 (.negSucc n) = round .binary64 .negative (n + 1) 0 := by
      rw [UnpackedFloat.ofInt, UnpackedFloat.normalize, Int.compare_eq_lt.2 (Int.negSucc_lt_zero n)]
      rfl
    rw [hround, h.unpack_pack]
    exact h

/-! ### The operators -/

def Number.Integral (n : Int) : Prop := minSigned ≤ n ∧ n ≤ maxUnsigned

namespace BinOp

def decides (m n : Int) : BinOp → Option Bool
  | eq => some (m = n)
  | notEq => some (m ≠ n)
  | lt => some (m < n)
  | ltEq => some (m ≤ n)
  | gt => some (m > n)
  | gtEq => some (m ≥ n)
  | _ => none

variable {m n : Int}

lemma compare_ofInt (hm : Integral m) (hn : Integral n) :
    (pack (ofInt .binary64 m)).unpack.compare (pack (ofInt .binary64 n)).unpack =
      some (Ord.compare (nearest m) (nearest n)) := by
  unfold Integral minSigned maxUnsigned at hm hn
  exact (stands_ofInt (by omega)).compare_eq (stands_ofInt (by omega))

lemma lt_ofInt (hm : Integral m) (hn : Integral n) :
    (int m).toFloat < (int n).toFloat ↔ nearest m < nearest n := by
  change decide (((pack (ofInt _ m)).unpack.compare (pack (ofInt _ n)).unpack == some .lt) = true) = true ↔ _
  rw [compare_ofInt hm hn]
  simp [Int.compare_eq_lt]

lemma beq_ofInt (hm : Integral m) (hn : Integral n) :
    ((int m).toFloat == (int n).toFloat) = decide (nearest m = nearest n) := by
  change ((pack (ofInt _ m)).unpack.compare (pack (ofInt _ n)).unpack == some .eq) = _
  rw [compare_ofInt hm hn, Bool.eq_iff_iff]
  simp

lemma compare_int (hm : Integral m) (hn : Integral n) (op : BinOp) :
    op.compare (.int m) (.int n) = .ok (Ord.compare (nearest m) (nearest n)) := by
  simp only [compare, Json.int, lt_ofInt hm hn, lt_ofInt hn hm, beq_ofInt hm hn]
  rcases lt_trichotomy (nearest m) (nearest n) with h | h | h
  · rw [if_pos h, Int.compare_eq_lt.2 h]
  · rw [if_neg h.not_lt, if_pos (decide_eq_true h), Int.compare_eq_eq.2 h]
  · rw [if_neg h.not_gt, if_neg (by simpa using h.ne'), if_pos h, Int.compare_eq_gt.2 h]

lemma apply_decides {op : BinOp} {r : Bool} (hm : Integral m) (hn : Integral n)
    (h : op.decides (nearest m) (nearest n) = some r) : op.apply (.int m) (.int n) = .ok (.bool r) := by
  cases op with
  | eq | notEq =>
    cases h
    simp [apply, Json.int, Json.looselyEqual, beq_ofInt hm hn]
  | lt | ltEq | gt | gtEq =>
    cases h
    rw [apply, compare_int hm hn]
    refine congrArg (fun b => Except.ok (Json.bool b)) (Bool.eq_iff_iff.2 ?_)
    simp [Int.compare_eq_lt, Int.compare_eq_gt]
  | _ => cases h

lemma contains_int {items : List Int} (hn : Integral n) (hitems : ∀ k ∈ items, Integral k) :
    contains.apply (.arr (items.map .int)) (.int n) = .ok (.bool (nearest n ∈ items.map nearest)) := by
  refine congrArg (fun b => Except.ok (Json.bool b)) ?_
  rw [List.any_map, Bool.eq_iff_iff, List.any_eq_true, decide_eq_true_eq, List.mem_map]
  refine exists_congr fun k => and_congr_right fun hk => ?_
  exact (Bool.eq_iff_iff.1 (beq_ofInt (hitems k hk) hn)).trans decide_eq_true_iff

/-- A filter keeps the items whose integers are rounded to ones that compare with what the wanted one is rounded
to. -/
lemma keep_int {op : BinOp} {path : List String} {value : Json → Int} {items : List Json}
    (hn : Integral n) (hop : (op.decides m n).isSome)
    (hitems : ∀ item ∈ items, item.property? path = some (.int (value item)) ∧ Integral (value item)) :
    Term.keep path op (.int n) items =
      .ok (items.filter fun item => op.decides (nearest (value item)) (nearest n) = some true) := by
  induction items with
  | nil => rfl
  | cons item rest ih =>
    obtain ⟨⟨hproperty, hvalue⟩, hrest⟩ := List.forall_mem_cons.1 hitems
    obtain ⟨r, hr⟩ : ∃ r, op.decides (nearest (value item)) (nearest n) = some r := by
      cases op <;> first | exact ⟨_, rfl⟩ | cases hop
    rw [Term.keep, hproperty]
    dsimp only
    rw [apply_decides hvalue hn hr, ih hrest, List.filter_cons, hr]
    cases r <;> rfl

/-- The operators compare what integers are rounded to, and so do lists, filters and the arms of a `match`. So
all of them are right about integers up to `2^53`; beyond, different integers may be taken to be equal, but
never is a greater one taken to be less. -/
theorem apply_int (hm : Number.Integral m) (hn : Number.Integral n) :
    (∀ op r, decides (nearest m) (nearest n) op = some r → op.apply (.int m) (.int n) = .ok (.bool r)) ∧
    (m ≤ n → nearest m ≤ nearest n) ∧ (m.natAbs ≤ 2 ^ 53 → nearest m = m) ∧
    (m.natAbs ≤ 2 ^ 53 → n.natAbs ≤ 2 ^ 53 →
      ∀ op r, decides m n op = some r → op.apply (.int m) (.int n) = .ok (.bool r)) ∧
    (∀ items : List Int, (∀ k ∈ items, Number.Integral k) →
      contains.apply (.arr (items.map .int)) (.int n) = .ok (.bool (nearest n ∈ items.map nearest))) ∧
    (∀ op path (value : Json → Int) (items : List Json), (decides m n op).isSome →
      (∀ item ∈ items, item.property? path = some (.int (value item)) ∧ Number.Integral (value item)) →
      Term.keep path op (.int n) items =
        .ok (items.filter fun item => decides (nearest (value item)) (nearest n) op = some true)) ∧
    ∀ (c : Context) calls bound line body rest,
      c.execArms calls bound (.int n) (.mk line (.arm (some (.int m))) body :: rest) =
        if nearest m = nearest n then c.execBlock calls bound body else c.execArms calls bound (.int n) rest := by
  refine ⟨fun op r => apply_decides hm hn, nearest_mono, nearest_eq_self, fun hm' hn' op r h => ?_,
    fun items => contains_int hn, fun op path value items hop => keep_int hn hop, ?_⟩
  · rw [← nearest_eq_self hm', ← nearest_eq_self hn'] at h
    exact apply_decides hm hn h
  · intro c calls bound line body rest
    have hequal : (Json.int m).looselyEqual (.int n) = decide (nearest m = nearest n) := beq_ofInt hm hn
    rw [Context.execArms, hequal]
    simp only [decide_eq_true_eq]

/-- Two integers that lie in the middle, one of which is rounded down and the other up. -/
theorem apply_int_halfway : Number.Integral 9007199254740993 ∧ Number.Integral 9007199254740995 ∧
    nearest 9007199254740993 = 9007199254740992 ∧ nearest 9007199254740995 = 9007199254740996 ∧
    lt.apply (.int 9007199254740993) (.int 9007199254740995) = .ok (.bool true) := by
  have hm : Number.Integral 9007199254740993 := ⟨by decide, by decide⟩
  have hn : Number.Integral 9007199254740995 := ⟨by decide, by decide⟩
  exact ⟨hm, hn, by decide +kernel, by decide +kernel, (apply_int hm hn).1 lt true (by decide +kernel)⟩

/-- Two integers next to each other beyond `2^53`. -/
theorem apply_confuses : eq.apply (.int 9007199254740992) (.int 9007199254740993) = .ok (.bool true) ∧
    lt.apply (.int 9007199254740992) (.int 9007199254740993) = .ok (.bool false) :=
  ⟨rfl, rfl⟩

end BinOp

end Workflow
