import QubitLang.Binary64
import Mathlib.Algebra.Order.Field.Power
import Mathlib.Algebra.Order.Field.Rat
import Mathlib.Algebra.Order.Group.Unbundled.Abs
import Mathlib.Order.Monotone.Basic
import Mathlib.Tactic.FieldSimp
import Mathlib.Tactic.Linarith
import Mathlib.Tactic.Positivity
import Mathlib.Tactic.Ring

/-! The doubles as rational numbers. Rounding is told by the points half-way between
neighbours: a pattern lies below the rounded one exactly if the number is past its half-way
point, or on it and the pattern is odd. All else that rounding does follows from that. -/

namespace QubitLang.Binary64

/-! ## Values -/

theorem fractionCount_eq : fractionCount = 2 ^ 52 := rfl

theorem cast_one_shiftLeft (amount : Nat) : ((1 <<< amount : Nat) : ℚ) = 2 ^ (amount : ℤ) := by
  rw [Nat.one_shiftLeft, zpow_natCast]
  push_cast
  rfl

/-- The number that a pattern stands for: the exponent counts from the least one, which it
shares with the fractions without a leading bit. -/
def value (pattern : Nat) : ℚ :=
  let exponent := pattern / fractionCount
  let fraction := pattern % fractionCount
  if exponent = 0 then fraction * 2 ^ (-1074 : ℤ)
  else (fractionCount + fraction : Nat) * 2 ^ ((exponent : ℤ) - 1075)

variable {exponent significand : Nat}

/-- A significand may be as large as that of the next binade: there it stands for the same
number as the first of that binade. -/
theorem value_scaled (normal : exponent = 0 ∨ fractionCount ≤ significand)
    (bounded : significand ≤ 2 * fractionCount) :
    value (exponent * fractionCount + significand) = significand * 2 ^ ((exponent : ℤ) - 1074) := by
  have positive : 0 < fractionCount := by decide
  rcases Nat.lt_or_ge significand fractionCount with small | large
  · obtain rfl : exponent = 0 := normal.resolve_right (Nat.not_le.mpr small)
    simp [value, Nat.div_eq_of_lt small, Nat.mod_eq_of_lt small]
  · rcases bounded.lt_or_eq with inside | rfl
    · have pattern_eq : exponent * fractionCount + significand =
          (significand - fractionCount) + (exponent + 1) * fractionCount := by
        rw [Nat.succ_mul]
        omega
      have fraction_lt : significand - fractionCount < fractionCount := by omega
      have exponent_eq : ((exponent + 1 : Nat) : ℤ) - 1075 = exponent - 1074 := by
        push_cast
        ring
      rw [value, pattern_eq, Nat.add_mul_div_right _ _ positive, Nat.add_mul_mod_self_right,
        Nat.div_eq_of_lt fraction_lt, Nat.mod_eq_of_lt fraction_lt, Nat.zero_add,
        if_neg (Nat.succ_ne_zero _), Nat.add_sub_cancel' large, exponent_eq]
    · have pattern_eq : exponent * fractionCount + 2 * fractionCount =
          (exponent + 2) * fractionCount := by ring
      have exponent_eq : ((exponent + 2 : Nat) : ℤ) - 1075 = 1 + (exponent - 1074) := by
        push_cast
        ring
      rw [value, pattern_eq, Nat.mul_div_cancel _ positive, Nat.mul_mod_left,
        if_neg (Nat.succ_ne_zero _), exponent_eq, zpow_add₀ two_ne_zero, zpow_one, Nat.add_zero]
      push_cast
      ring

theorem exists_scaled (pattern : Nat) : ∃ exponent significand,
    pattern = exponent * fractionCount + significand ∧
      (exponent = 0 ∨ fractionCount ≤ significand) ∧ significand < 2 * fractionCount := by
  have fraction_lt : pattern % fractionCount < fractionCount := Nat.mod_lt _ (by decide)
  have split := Nat.div_add_mod' pattern fractionCount
  cases quotient : pattern / fractionCount with
  | zero =>
      rw [quotient] at split
      exact ⟨0, _, split.symm, .inl rfl, by omega⟩
  | succ exponent =>
      rw [quotient, Nat.succ_mul] at split
      exact ⟨exponent, fractionCount + pattern % fractionCount, by omega, .inr (by omega),
        by omega⟩

theorem value_strictMono : StrictMono value := by
  refine strictMono_nat_of_lt_succ fun pattern => ?_
  obtain ⟨exponent, significand, rfl, normal, bounded⟩ := exists_scaled pattern
  rw [Nat.add_assoc, value_scaled normal bounded.le, value_scaled (by omega) bounded]
  push_cast
  have positive : (0 : ℚ) < 2 ^ ((exponent : ℤ) - 1074) := zpow_pos two_pos _
  nlinarith

def midpoint (pattern : Nat) : ℚ := (value pattern + value (pattern + 1)) / 2

theorem midpoint_scaled (normal : exponent = 0 ∨ fractionCount ≤ significand)
    (bounded : significand < 2 * fractionCount) :
    midpoint (exponent * fractionCount + significand) =
      (significand + 1 / 2) * 2 ^ ((exponent : ℤ) - 1074) := by
  rw [midpoint, Nat.add_assoc, value_scaled normal bounded.le, value_scaled (by omega) bounded]
  push_cast
  ring

theorem value_lt_midpoint (pattern : Nat) : value pattern < midpoint pattern := by
  have lower := value_strictMono (Nat.lt_succ_self pattern)
  rw [midpoint]
  linarith

theorem midpoint_lt_value (pattern : Nat) : midpoint pattern < value (pattern + 1) := by
  have lower := value_strictMono (Nat.lt_succ_self pattern)
  rw [midpoint]
  linarith

/-! ## Half-way points -/

def IsPast (number : ℚ) (pattern : Nat) : Prop :=
  midpoint pattern < number ∨ midpoint pattern = number ∧ pattern % 2 = 1

variable {number other : ℚ} {pattern numerator denominator : Nat}

theorem isPast_of_value_le (le : value (pattern + 1) ≤ number) : IsPast number pattern :=
  .inl (lt_of_lt_of_le (midpoint_lt_value pattern) le)

theorem not_isPast_of_le_value (le : number ≤ value pattern) : ¬ IsPast number pattern := by
  have above := lt_of_le_of_lt le (value_lt_midpoint pattern)
  rintro (past | ⟨same, _⟩)
  · exact lt_asymm past above
  · exact above.ne' same

theorem IsPast.mono (past : IsPast number pattern) (le : number ≤ other) :
    IsPast other pattern := by
  rcases past with past | ⟨same, odd⟩
  · exact .inl (lt_of_lt_of_le past le)
  · rcases lt_or_eq_of_le le with less | rfl
    · exact .inl (same.trans_lt less)
    · exact .inr ⟨same, odd⟩

/-! ## Rounding -/

/-- A number between two neighbours is rounded to one of them, and which one depends on the
point half-way between them. -/
theorem lt_rounded_iff {lower rounded : Nat} (lower_le : value lower ≤ number)
    (lt_upper : number < value (lower + 1)) (up : IsPast number lower → rounded = lower + 1)
    (down : ¬ IsPast number lower → rounded = lower) :
    pattern < rounded ↔ IsPast number pattern := by
  have near : lower ≤ rounded ∧ rounded ≤ lower + 1 := by
    by_cases past : IsPast number lower
    · have := up past
      omega
    · have := down past
      omega
  rcases Nat.lt_trichotomy pattern lower with below | rfl | above
  · exact iff_of_true (by omega)
      (isPast_of_value_le ((value_strictMono.monotone below).trans lower_le))
  · by_cases past : IsPast number pattern
    · exact iff_of_true (by rw [up past]; exact Nat.lt_succ_self _) past
    · exact iff_of_false (by rw [down past]; exact Nat.lt_irrefl _) past
  · exact iff_of_false (by omega)
      (not_isPast_of_le_value (lt_upper.le.trans (value_strictMono.monotone above)))

theorem cut_normal (whole : Nat) :
    (whole.log2 - fractionBits = 0 ∨ fractionCount ≤ whole / 2 ^ (whole.log2 - fractionBits)) ∧
      whole / 2 ^ (whole.log2 - fractionBits) < 2 * fractionCount := by
  have above : whole < 2 ^ (whole.log2 + 1) := Nat.lt_log2_self
  have count_eq : fractionCount = 2 ^ fractionBits := Nat.one_shiftLeft _
  rw [count_eq]
  rcases le_or_gt whole.log2 fractionBits with small | large
  · rw [Nat.sub_eq_zero_of_le small, Nat.pow_zero, Nat.div_one, ← Nat.pow_succ']
    exact ⟨.inl rfl, lt_of_lt_of_le above (Nat.pow_le_pow_right Nat.two_pos (by omega))⟩
  · have nonzero : whole ≠ 0 := by
      rintro rfl
      simp at large
    have split : 2 ^ whole.log2 = 2 ^ fractionBits * 2 ^ (whole.log2 - fractionBits) := by
      rw [← Nat.pow_add, Nat.add_sub_cancel' large.le]
    have positive : 0 < 2 ^ (whole.log2 - fractionBits) := Nat.two_pow_pos _
    constructor
    · rw [Nat.le_div_iff_mul_le positive, ← split]
      exact .inr (Nat.log2_self_le nonzero)
    · rw [Nat.div_lt_iff_lt_mul positive, Nat.mul_assoc, ← split, ← Nat.pow_succ']
      exact above

theorem number_eq (numerator : Nat) (positive : 0 < denominator) (exponent : Nat) :
    (numerator : ℚ) / denominator =
      ((numerator * unit / (denominator <<< exponent) : Nat) +
        (numerator * unit % (denominator <<< exponent) : Nat) / (denominator <<< exponent : Nat)) *
          2 ^ ((exponent : ℤ) - 1074) := by
  have step_eq : denominator <<< exponent = denominator * 2 ^ exponent := Nat.shiftLeft_eq _ _
  have step_pos : 0 < denominator <<< exponent := by
    rw [step_eq]
    positivity
  have split := Nat.div_add_mod (numerator * unit) (denominator <<< exponent)
  have split : ((denominator <<< exponent : Nat) : ℚ) *
      (numerator * unit / (denominator <<< exponent) : Nat) +
        (numerator * unit % (denominator <<< exponent) : Nat) = numerator * unit := by
    exact_mod_cast split
  have step_pos : ((denominator <<< exponent : Nat) : ℚ) ≠ 0 := by exact_mod_cast step_pos.ne'
  have denominator_pos : (denominator : ℚ) ≠ 0 := by exact_mod_cast positive.ne'
  have unit_eq : (unit : ℚ) = 2 ^ (1074 : ℤ) := cast_one_shiftLeft 1074
  have step_eq : ((denominator <<< exponent : Nat) : ℚ) = denominator * 2 ^ (exponent : ℤ) := by
    rw [step_eq, zpow_natCast]
    push_cast
    rfl
  have unit_pos : (2 : ℚ) ^ (1074 : ℤ) ≠ 0 := zpow_ne_zero _ two_ne_zero
  have power_pos : (2 : ℚ) ^ (exponent : ℤ) ≠ 0 := zpow_ne_zero _ two_ne_zero
  rw [unit_eq] at split
  rw [zpow_sub₀ two_ne_zero]
  generalize (2 : ℚ) ^ (1074 : ℤ) = scale at *
  rw [step_eq] at *
  field_simp
  linarith

variable {quotient : Nat} {rest : ℚ}

theorem isPast_scaled (normal : exponent = 0 ∨ fractionCount ≤ significand)
    (bounded : significand < 2 * fractionCount) :
    IsPast ((significand + rest) * 2 ^ ((exponent : ℤ) - 1074))
        (exponent * fractionCount + significand) ↔
      1 / 2 < rest ∨ 1 / 2 = rest ∧ significand % 2 = 1 := by
  have positive : (0 : ℚ) < 2 ^ ((exponent : ℤ) - 1074) := zpow_pos two_pos _
  have same_parity : (exponent * fractionCount + significand) % 2 = significand % 2 := by
    rw [show fractionCount = 2 ^ 51 * 2 from rfl]
    omega
  rw [IsPast, midpoint_scaled normal bounded, mul_lt_mul_iff_left₀ positive,
    mul_left_inj' positive.ne', add_lt_add_iff_left, add_right_inj, same_parity]

/-- What lies below the pattern of a number: the finite patterns whose half-way points it is
past. -/
theorem lt_nearest_iff (positive : 0 < denominator) :
    pattern < nearest numerator denominator ↔
      pattern < infinity ∧ IsPast (numerator / denominator) pattern := by
  let exponent := (numerator * unit / denominator).log2 - fractionBits
  let step := denominator <<< exponent
  let quotient := numerator * unit / step
  let remainder := numerator * unit % step
  let rounded := if step < 2 * remainder ∨ (2 * remainder = step ∧ quotient % 2 = 1) then
    quotient + 1 else quotient
  have nearest_eq : nearest numerator denominator =
      min (exponent * fractionCount + rounded) infinity := rfl
  have quotient_eq : quotient = numerator * unit / denominator / 2 ^ exponent := by
    rw [Nat.div_div_eq_div_mul, ← Nat.shiftLeft_eq]
  -- The cut number lies between two neighbours, and its remainder tells which of them is nearer.
  obtain ⟨normal, bounded⟩ := cut_normal (numerator * unit / denominator)
  rw [← quotient_eq] at normal bounded
  have step_pos : 0 < step := by
    rw [show step = denominator * 2 ^ exponent from Nat.shiftLeft_eq _ _]
    positivity
  have cut : (numerator : ℚ) / denominator =
      (quotient + remainder / step) * 2 ^ ((exponent : ℤ) - 1074) :=
    number_eq numerator positive exponent
  have below : (remainder : ℚ) < step := by exact_mod_cast Nat.mod_lt _ step_pos
  have step_pos : (0 : ℚ) < step := by exact_mod_cast step_pos
  have past_iff : IsPast (numerator / denominator) (exponent * fractionCount + quotient) ↔
      step < 2 * remainder ∨ 2 * remainder = step ∧ quotient % 2 = 1 := by
    rw [cut, isPast_scaled normal bounded, div_lt_div_iff₀ two_pos step_pos,
      div_eq_div_iff two_ne_zero step_pos.ne', one_mul, mul_comm (remainder : ℚ), eq_comm]
    norm_cast
  have scale_pos : (0 : ℚ) < 2 ^ ((exponent : ℤ) - 1074) := zpow_pos two_pos _
  rw [nearest_eq, lt_min_iff, and_comm, and_congr_right_iff]
  intro _
  apply @lt_rounded_iff _ _ (exponent * fractionCount + quotient)
  · rw [cut, value_scaled normal bounded.le, mul_le_mul_iff_left₀ scale_pos]
    exact le_add_of_nonneg_right (by positivity)
  · rw [cut, Nat.add_assoc, value_scaled (by omega) bounded, mul_lt_mul_iff_left₀ scale_pos]
    push_cast
    rwa [add_lt_add_iff_left, div_lt_one step_pos]
  · intro past
    rw [show rounded = quotient + 1 from if_pos (past_iff.mp past), Nat.add_assoc]
  · intro short
    rw [show rounded = quotient from if_neg fun past => short (past_iff.mpr past)]

/-! ## Consequences -/

section

variable {below other : Nat} {numerator' denominator' : Nat}

theorem nearest_mono (positive : 0 < denominator) (positive' : 0 < denominator')
    (le : (numerator : ℚ) / denominator ≤ numerator' / denominator') :
    nearest numerator denominator ≤ nearest numerator' denominator' := by
  refine Nat.le_of_not_lt fun less => Nat.lt_irrefl (nearest numerator' denominator') ?_
  obtain ⟨finite, past⟩ := (lt_nearest_iff positive).mp less
  exact (lt_nearest_iff positive').mpr ⟨finite, past.mono le⟩

theorem two_mul_midpoint (pattern : Nat) :
    2 * midpoint pattern = value pattern + value (pattern + 1) := by
  rw [midpoint]
  ring

theorem distance_le_of_le_midpoint (le : number ≤ midpoint pattern) (above : pattern < other) :
    |number - value pattern| ≤ |number - value other| ∧
      (|number - value pattern| = |number - value other| → number = midpoint pattern) := by
  have next_le : value (pattern + 1) ≤ value other := value_strictMono.monotone above
  have lower := value_lt_midpoint pattern
  have upper := midpoint_lt_value pattern
  have twice := two_mul_midpoint pattern
  rw [abs_sub_comm number (value other), abs_of_pos (a := value other - number) (by linarith)]
  constructor
  · exact abs_le.mpr ⟨by linarith, by linarith⟩
  · intro same
    rcases abs_choice (number - value pattern) with sign | sign
    · linarith
    · linarith

theorem distance_le_of_midpoint_le (le : midpoint pattern ≤ number) (before : other ≤ pattern) :
    |number - value (pattern + 1)| ≤ |number - value other| ∧
      (|number - value (pattern + 1)| = |number - value other| → number = midpoint pattern) := by
  have le_value : value other ≤ value pattern := value_strictMono.monotone before
  have lower := value_lt_midpoint pattern
  have upper := midpoint_lt_value pattern
  have twice := two_mul_midpoint pattern
  rw [abs_of_pos (a := number - value other) (by linarith)]
  constructor
  · exact abs_le.mpr ⟨by linarith, by linarith⟩
  · intro same
    rcases abs_choice (number - value (pattern + 1)) with sign | sign
    · linarith
    · linarith

end

/-- Whether no finite pattern's value is nearer to a number than that of a pattern, which is even
if another one's is as near. -/
structure IsNearest (number : ℚ) (pattern : Nat) : Prop where
  finite : pattern < infinity
  distance_le : ∀ other < infinity, |number - value pattern| ≤ |number - value other|
  even : ∀ other < infinity, other ≠ pattern →
    |number - value pattern| = |number - value other| → pattern % 2 = 0

theorem isNearest_of_lt_iff (finite : pattern < infinity)
    (lt_iff : ∀ below, below < pattern ↔ below < infinity ∧ IsPast number below) :
    IsNearest number pattern := by
  have short : ¬ IsPast number pattern := fun past =>
    Nat.lt_irrefl pattern ((lt_iff pattern).mpr ⟨finite, past⟩)
  have nearer : ∀ other ≠ pattern, |number - value pattern| ≤ |number - value other| ∧
      (|number - value pattern| = |number - value other| → pattern % 2 = 0) := by
    intro other different
    rcases Nat.lt_or_gt_of_ne different with before | above
    · obtain ⟨previous, rfl⟩ := Nat.exists_eq_succ_of_ne_zero (Nat.ne_zero_of_lt before)
      obtain ⟨_, past⟩ := (lt_iff previous).mp (Nat.lt_succ_self previous)
      obtain ⟨le, tie⟩ := distance_le_of_midpoint_le (past.elim le_of_lt fun same => same.1.le)
        (Nat.le_of_lt_succ before)
      refine ⟨le, fun same => ?_⟩
      rcases past with past | ⟨_, odd⟩
      · exact absurd (tie same) past.ne'
      · omega
    · obtain ⟨le, tie⟩ := distance_le_of_le_midpoint (not_lt.mp fun past => short (.inl past)) above
      refine ⟨le, fun same => ?_⟩
      have notOdd : pattern % 2 ≠ 1 := fun odd => short (.inr ⟨(tie same).symm, odd⟩)
      omega
  refine ⟨finite, fun other _ => ?_, fun other _ different => (nearer other different).2⟩
  rcases eq_or_ne other pattern with rfl | different
  · exact le_rfl
  · exact (nearer other different).1

/-! ## Limits -/

theorem midpoint_zero : midpoint 0 = 2 ^ (-1075 : ℤ) := by
  have scaled : midpoint (0 * fractionCount + 0) =
      ((0 : Nat) + 1 / 2) * 2 ^ (((0 : Nat) : ℤ) - 1074) :=
    midpoint_scaled (.inl rfl) (by decide)
  have split : (2 : ℚ) ^ (-1075 : ℤ) = 2 ^ (-1 : ℤ) * 2 ^ (-1074 : ℤ) :=
    zpow_add₀ two_ne_zero (-1) (-1074)
  rw [Nat.zero_mul] at scaled
  rw [scaled, split]
  norm_num

theorem midpoint_greatest : midpoint (infinity - 1) = 2 ^ (1024 : ℤ) - 2 ^ (970 : ℤ) := by
  have pattern_eq : infinity - 1 = 2045 * fractionCount + (2 * fractionCount - 1) := by decide
  have upper : (2 : ℚ) ^ (1024 : ℤ) = 2 ^ (53 : ℤ) * 2 ^ (971 : ℤ) := zpow_add₀ two_ne_zero 53 971
  have lower : (2 : ℚ) ^ (970 : ℤ) = 2 ^ (-1 : ℤ) * 2 ^ (971 : ℤ) := zpow_add₀ two_ne_zero (-1) 971
  have significand_eq : ((2 * fractionCount - 1 : Nat) : ℚ) = 2 ^ (53 : ℤ) - 1 := by
    rw [fractionCount_eq]
    norm_num
  have exponent_eq : ((2045 : Nat) : ℤ) - 1074 = 971 := rfl
  rw [pattern_eq, midpoint_scaled (.inr (by decide)) (by decide), significand_eq, upper, lower,
    exponent_eq]
  generalize (2 : ℚ) ^ (971 : ℤ) = scale
  norm_num
  ring

theorem nearest_eq_zero_iff (positive : 0 < denominator) :
    nearest numerator denominator = 0 ↔ (numerator : ℚ) / denominator ≤ 2 ^ (-1075 : ℤ) := by
  have least : 0 < infinity := by decide
  rw [← midpoint_zero, ← not_lt, ← Nat.le_zero, ← Nat.not_lt, lt_nearest_iff positive, IsPast]
  simp [least]

theorem nearest_eq_infinity_iff (positive : 0 < denominator) :
    nearest numerator denominator = infinity ↔
      (2 : ℚ) ^ (1024 : ℤ) - 2 ^ (970 : ℤ) ≤ numerator / denominator := by
  have le : nearest numerator denominator ≤ infinity := Nat.min_le_right _ _
  have greatest : infinity - 1 < infinity := by decide
  have odd : (infinity - 1) % 2 = 1 := by decide
  rw [← midpoint_greatest, le_iff_lt_or_eq]
  have past := @lt_nearest_iff (infinity - 1) numerator denominator positive
  simp only [greatest, true_and, IsPast, odd, and_true] at past
  rw [← past]
  omega

end QubitLang.Binary64
