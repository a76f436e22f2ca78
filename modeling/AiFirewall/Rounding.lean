import Mathlib

namespace AiFirewall

/-!
# Fractions that are rounded

Floating point with a number of bits computes with fractions and rounds each
result.  A rounding here is any function that keeps the order, leaves its own
results alone and is off by no more than one part in a power of two.  To the
nearest number of so many bits, with ties to even ones, is the rounding of
IEEE 754 as long as exponents stay in range.
-/

/-- A way to round fractions. -/
structure Rounding (bits : Nat) where
  round : ℚ → ℚ
  monotone : Monotone round
  again : ∀ value, round (round value) = round value
  error : ∀ value, |round value - value| ≤ |value| / 2 ^ bits

namespace Rounding

section

variable
  {bits : Nat}
  (rounding : Rounding bits)

@[simp] theorem round_zero : rounding.round 0 = 0 := by
  have off := rounding.error 0
  rwa [abs_zero, zero_div, sub_zero, abs_nonpos_iff] at off

theorem round_nonneg
    {value : ℚ}
    (nonneg : 0 ≤ value) :
    0 ≤ rounding.round value := by
  have rounded := rounding.monotone nonneg
  rwa [round_zero] at rounded

theorem round_ge
    {value : ℚ}
    (nonneg : 0 ≤ value) :
    value * (1 - 1 / 2 ^ bits) ≤ rounding.round value := by
  have off := (abs_le.mp (rounding.error value)).1
  rw [abs_of_nonneg nonneg] at off
  linarith [mul_one_div value ((2 : ℚ) ^ bits)]

theorem round_le
    {value : ℚ}
    (nonneg : 0 ≤ value) :
    rounding.round value ≤ value * (1 + 1 / 2 ^ bits) := by
  have off := (abs_le.mp (rounding.error value)).2
  rw [abs_of_nonneg nonneg] at off
  linarith [mul_one_div value ((2 : ℚ) ^ bits)]

end

/-- A sum in order, rounded after each term. -/
def total {bits : Nat} (rounding : Rounding bits) : List ℚ → ℚ :=
  List.foldl (fun sum term => rounding.round (sum + term)) 0

section

variable
  {bits : Nat}
  {rounding : Rounding bits}

/-- Terms that are not negative only add to a sum. -/
theorem le_foldl
    {start : ℚ}
    {terms : List ℚ}
    (isRounded : rounding.round start = start)
    (nonneg : ∀ term ∈ terms, 0 ≤ term) :
    start ≤
      terms.foldl (fun sum term => rounding.round (sum + term)) start := by
  induction terms generalizing start with
  | nil =>
      exact le_rfl
  | cons term rest inductionHypothesis =>
      obtain ⟨first, others⟩ := List.forall_mem_cons.mp nonneg
      have grows : start ≤ rounding.round (start + term) := by
        conv_lhs => rw [← isRounded]
        exact rounding.monotone (le_add_of_nonneg_right first)
      exact grows.trans
        (inductionHypothesis (rounding.again (start + term)) others)

/-- A sum is no less than that of two of its terms. -/
theorem pair_le_total
    {before between after : List ℚ}
    {first second : ℚ}
    (isRounded : rounding.round first = first)
    (nonneg :
      ∀ term ∈ before ++ first :: (between ++ second :: after), 0 ≤ term) :
    rounding.round (first + second) ≤
      rounding.total (before ++ first :: (between ++ second :: after)) := by
  simp only [List.mem_append, List.mem_cons] at nonneg
  rw [total, List.foldl_append, List.foldl_cons, List.foldl_append,
    List.foldl_cons]
  have start :
      0 ≤ before.foldl (fun sum term => rounding.round (sum + term)) 0 :=
    le_foldl rounding.round_zero fun term member => nonneg term (.inl member)
  have reached :
      first ≤ rounding.round
        (before.foldl (fun sum term => rounding.round (sum + term)) 0 +
          first) := by
    conv_lhs => rw [← isRounded]
    exact rounding.monotone (le_add_of_nonneg_left start)
  have kept :=
    reached.trans
      (le_foldl (rounding.again _)
        fun term (member : term ∈ between) =>
          nonneg term (.inr (.inr (.inl member))))
  refine le_trans ?_
    (le_foldl (rounding.again _)
      fun term member => nonneg term (.inr (.inr (.inr (.inr member)))))
  exact rounding.monotone (add_le_add_left kept second)

theorem foldl_mono
    {first second : List ℚ}
    (atMost : List.Forall₂ (· ≤ ·) first second)
    {lower upper : ℚ}
    (starts : lower ≤ upper) :
    first.foldl (fun sum term => rounding.round (sum + term)) lower ≤
      second.foldl (fun sum term => rounding.round (sum + term)) upper := by
  induction atMost generalizing lower upper with
  | nil =>
      exact starts
  | cons heads tails inductionHypothesis =>
      exact inductionHypothesis
        (rounding.monotone (add_le_add starts heads))

/-- Larger terms have a larger sum. -/
theorem total_mono
    {first second : List ℚ}
    (atMost : List.Forall₂ (· ≤ ·) first second) :
    rounding.total first ≤ rounding.total second :=
  foldl_mono atMost le_rfl

end

end Rounding

/-- The nearest integer, the even one of two. -/
def halfEven (value : ℚ) : ℤ :=
  if value - ⌊value⌋ < 1 / 2 then
    ⌊value⌋
  else if 1 / 2 < value - ⌊value⌋ then
    ⌊value⌋ + 1
  else
    ⌊value⌋ + ⌊value⌋ % 2

@[simp] theorem halfEven_intCast (integer : ℤ) :
    halfEven integer = integer := by
  simp [halfEven]

theorem abs_halfEven_sub_le (value : ℚ) :
    |(halfEven value : ℚ) - value| ≤ 1 / 2 := by
  have floor_le := Int.floor_le value
  have lt_floor := Int.lt_floor_add_one value
  unfold halfEven
  split_ifs with low high
  · rw [abs_le]
    constructor <;> linarith
  · push_cast
    rw [abs_le]
    constructor <;> linarith
  · rcases Int.emod_two_eq_zero_or_one ⌊value⌋ with even | odd
    · rw [even, add_zero, abs_le]
      constructor <;> linarith
    · rw [odd]
      push_cast
      rw [abs_le]
      constructor <;> linarith

theorem halfEven_mono : Monotone halfEven := by
  intro first second atMost
  rcases atMost.eq_or_lt with rfl | less
  · exact le_rfl
  · by_contra greater
    have apart : (halfEven second : ℚ) + 1 ≤ halfEven first := by
      exact_mod_cast Int.add_one_le_of_lt (not_le.mp greater)
    have nearFirst := (abs_le.mp (abs_halfEven_sub_le first)).2
    have nearSecond := (abs_le.mp (abs_halfEven_sub_le second)).1
    linarith

namespace Nearest

variable {bits : Nat}

/-- How far apart the numbers of so many bits are around a value. -/
def spacing (bits : Nat) (value : ℚ) : ℚ :=
  2 ^ (Int.log 2 |value| + 1 - bits)

/-- The nearest number of so many bits. -/
def round (bits : Nat) (value : ℚ) : ℚ :=
  halfEven (value / spacing bits value) * spacing bits value

theorem spacing_pos (bits : Nat) (value : ℚ) :
    0 < spacing bits value :=
  zpow_pos two_pos _

theorem round_zero (bits : Nat) : round bits 0 = 0 := by
  have zero : halfEven 0 = 0 := halfEven_intCast 0
  rw [round, zero_div, zero, Int.cast_zero, zero_mul]

/-- The binade of a value: all its numbers are a power of two apart. -/
theorem binade
    (bits : Nat)
    {value : ℚ}
    (notZero : value ≠ 0) :
    2 ^ (bits - 1 : ℤ) * spacing bits value ≤ |value| ∧
      |value| < 2 ^ (bits : ℤ) * spacing bits value := by
  have low :=
    Int.zpow_log_le_self (b := 2) (by norm_num) (abs_pos.mpr notZero)
  have high :=
    Int.lt_zpow_succ_log_self (b := 2) (by norm_num) |value|
  have first :
      (bits - 1 : ℤ) + (Int.log 2 |value| + 1 - bits) =
        Int.log 2 |value| := by
    ring
  have last :
      (bits : ℤ) + (Int.log 2 |value| + 1 - bits) =
        Int.log 2 |value| + 1 := by
    ring
  unfold spacing
  rw [← zpow_add₀ two_ne_zero, ← zpow_add₀ two_ne_zero, first, last]
  exact ⟨low, high⟩

/-- An integer below some power of two is not rounded above it. -/
theorem round_le_of_le
    {value : ℚ}
    {integer : ℤ}
    (atMost : value ≤ integer * spacing bits value) :
    round bits value ≤ integer * spacing bits value := by
  have positive := spacing_pos bits value
  refine mul_le_mul_of_nonneg_right ?_ positive.le
  have scaled : value / spacing bits value ≤ integer :=
    (div_le_iff₀ positive).mpr atMost
  have rounded := halfEven_mono scaled
  rw [halfEven_intCast] at rounded
  exact_mod_cast rounded

theorem le_round_of_le
    {value : ℚ}
    {integer : ℤ}
    (atLeast : integer * spacing bits value ≤ value) :
    integer * spacing bits value ≤ round bits value := by
  have positive := spacing_pos bits value
  refine mul_le_mul_of_nonneg_right ?_ positive.le
  have scaled : (integer : ℚ) ≤ value / spacing bits value :=
    (le_div_iff₀ positive).mpr atLeast
  have rounded := halfEven_mono scaled
  rw [halfEven_intCast] at rounded
  exact_mod_cast rounded

theorem abs_round_sub_le (value : ℚ) :
    |round bits value - value| ≤ |value| / 2 ^ bits := by
  by_cases isZero : value = 0
  · rw [isZero, round_zero, sub_zero, abs_zero, zero_div]
  · have positive := spacing_pos bits value
    obtain ⟨low, _⟩ := binade bits isZero
    have near := abs_halfEven_sub_le (value / spacing bits value)
    have scaled :
        round bits value - value =
          (halfEven (value / spacing bits value) -
            value / spacing bits value) * spacing bits value := by
      rw [round, sub_mul, div_mul_cancel₀ _ positive.ne']
    rw [scaled, abs_mul, abs_of_pos positive]
    have half :
        spacing bits value / 2 ≤ |value| / 2 ^ bits := by
      rw [le_div_iff₀ (by positivity)]
      calc
        spacing bits value / 2 * 2 ^ bits =
            2 ^ (bits - 1 : ℤ) * spacing bits value := by
          rw [zpow_sub_one₀ two_ne_zero, zpow_natCast]
          ring
        _ ≤ |value| := low
    calc
      _ ≤ 1 / 2 * spacing bits value :=
        mul_le_mul_of_nonneg_right near positive.le
      _ ≤ |value| / 2 ^ bits := by linarith

/-- A number of so many bits is left as it is. -/
theorem round_of_multiple
    {integer exponent : ℤ}
    (small : |integer| < 2 ^ bits) :
    round bits (integer * 2 ^ exponent) = integer * 2 ^ exponent := by
  by_cases isZero : integer = 0
  · rw [isZero, Int.cast_zero, zero_mul, round_zero]
  · let value : ℚ := integer * 2 ^ exponent
    have notZero : value ≠ 0 :=
      mul_ne_zero (Int.cast_ne_zero.mpr isZero)
        (zpow_ne_zero _ two_ne_zero)
    have size : |value| < 2 ^ (bits + exponent : ℤ) := by
      have power : (0 : ℚ) < 2 ^ exponent := zpow_pos two_pos exponent
      rw [abs_mul, abs_of_pos power, zpow_add₀ two_ne_zero, zpow_natCast]
      refine mul_lt_mul_of_pos_right ?_ power
      exact_mod_cast small
    have logBound : Int.log 2 |value| < bits + exponent := by
      have low :=
        Int.zpow_log_le_self (b := 2) (by norm_num) (abs_pos.mpr notZero)
      exact (zpow_lt_zpow_iff_right₀ one_lt_two).mp (low.trans_lt size)
    -- So the spacing at this value divides the power of two.
    obtain ⟨more, isMore⟩ :=
      Int.eq_ofNat_of_zero_le
        (by omega : 0 ≤ exponent - (Int.log 2 |value| + 1 - bits))
    have multiple :
        value = ((integer * 2 ^ more : ℤ) : ℚ) * spacing bits value := by
      have isExponent :
          exponent = more + (Int.log 2 |value| + 1 - bits) := by
        omega
      show (integer : ℚ) * 2 ^ exponent = _
      rw [isExponent, zpow_add₀ two_ne_zero, zpow_natCast, spacing]
      push_cast
      ring
    have rounded : round bits value = value := by
      conv_rhs => rw [multiple]
      exact le_antisymm (round_le_of_le multiple.le)
        (le_round_of_le multiple.ge)
    exact rounded

/-- What is rounded is a number of so many bits. -/
theorem abs_multiple_le (bits : Nat) (value : ℚ) :
    |halfEven (value / spacing bits value)| ≤ 2 ^ bits := by
  by_cases isZero : value = 0
  · rw [isZero, zero_div, show (0 : ℚ) = ((0 : ℤ) : ℚ) from rfl,
      halfEven_intCast, abs_zero]
    positivity
  · have positive := spacing_pos bits value
    obtain ⟨_, high⟩ := binade bits isZero
    rw [zpow_natCast] at high
    obtain ⟨above, below⟩ := abs_lt.mp high
    have top : value / spacing bits value ≤ ((2 ^ bits : ℤ) : ℚ) := by
      rw [div_le_iff₀ positive]
      push_cast
      exact below.le
    have bottom : ((-2 ^ bits : ℤ) : ℚ) ≤ value / spacing bits value := by
      rw [le_div_iff₀ positive]
      push_cast
      linarith
    have atMost := halfEven_mono top
    have atLeast := halfEven_mono bottom
    rw [halfEven_intCast] at atMost atLeast
    exact abs_le.mpr ⟨atLeast, atMost⟩

theorem round_round (some : 0 < bits) (value : ℚ) :
    round bits (round bits value) = round bits value := by
  rcases (abs_multiple_le bits value).lt_or_eq with
    small | isPower
  · exact round_of_multiple small
  · -- One more than the largest: half of it, at the next power of two.
    obtain ⟨fewer, rfl⟩ : ∃ fewer, bits = fewer + 1 :=
      ⟨bits - 1, by omega⟩
    obtain ⟨half, isHalf⟩ :
        ∃ half, halfEven (value / spacing (fewer + 1) value) = 2 * half := by
      rw [← Int.dvd_def, ← dvd_abs, isPower, pow_succ]
      exact dvd_mul_left 2 _
    have small : |half| < 2 ^ (fewer + 1) := by
      rw [isHalf, abs_mul, pow_succ] at isPower
      have positive : (0 : ℤ) < 2 ^ fewer := by positivity
      rw [pow_succ]
      have two : |(2 : ℤ)| = 2 := rfl
      rw [two] at isPower
      omega
    have same :
        round (fewer + 1) value =
          half * 2 ^ (Int.log 2 |value| + 1 - (fewer + 1 : ℕ) + 1) := by
      rw [round, isHalf, spacing, zpow_add_one₀ two_ne_zero]
      push_cast
      ring
    rw [same]
    exact round_of_multiple small

/-- Larger numbers are as far apart, or twice as far. -/
theorem spacing_cases
    (bits : Nat)
    {first second : ℚ}
    (notZero : first ≠ 0)
    (atMost : |first| ≤ |second|) :
    spacing bits first = spacing bits second ∨
      2 * spacing bits first ≤ spacing bits second := by
  have logs :=
    Int.log_mono_right (b := 2) (abs_pos.mpr notZero) atMost
  rcases logs.eq_or_lt with same | less
  · exact .inl (by rw [spacing, spacing, same])
  · refine .inr ?_
    rw [spacing, spacing, mul_comm, ← zpow_add_one₀ two_ne_zero]
    exact zpow_le_zpow_right₀ one_le_two (by omega)

theorem round_nonneg
    {value : ℚ}
    (nonneg : 0 ≤ value) :
    0 ≤ round bits value := by
  have atLeast :
      ((0 : ℤ) : ℚ) * spacing bits value ≤ value := by
    rwa [Int.cast_zero, zero_mul]
  have rounded := le_round_of_le atLeast
  rwa [Int.cast_zero, zero_mul] at rounded

theorem round_nonpos
    {value : ℚ}
    (nonpos : value ≤ 0) :
    round bits value ≤ 0 := by
  have atMost :
      value ≤ ((0 : ℤ) : ℚ) * spacing bits value := by
    rwa [Int.cast_zero, zero_mul]
  have rounded := round_le_of_le atMost
  rwa [Int.cast_zero, zero_mul] at rounded

/-- A value stays within the powers of two around it. -/
theorem round_within
    (some : 0 < bits)
    {value : ℚ}
    (notZero : value ≠ 0) :
    (0 < value →
      2 ^ (bits - 1) * spacing bits value ≤ round bits value ∧
        round bits value ≤ 2 ^ bits * spacing bits value) ∧
      (value < 0 →
        -(2 ^ bits * spacing bits value) ≤ round bits value ∧
          round bits value ≤ -(2 ^ (bits - 1) * spacing bits value)) := by
  obtain ⟨low, high⟩ := binade bits notZero
  rw [zpow_natCast] at high
  rw [← Nat.cast_one, ← Nat.cast_sub some, zpow_natCast] at low
  have above
      (integer : ℤ)
      (atLeast : integer * spacing bits value ≤ value) :
      integer * spacing bits value ≤ round bits value :=
    le_round_of_le atLeast
  have below
      (integer : ℤ)
      (atMost : value ≤ integer * spacing bits value) :
      round bits value ≤ integer * spacing bits value :=
    round_le_of_le atMost
  constructor
  · intro positive
    rw [abs_of_pos positive] at low high
    have isLow := above (2 ^ (bits - 1)) (by push_cast; exact low)
    have isHigh := below (2 ^ bits) (by push_cast; exact high.le)
    push_cast at isLow isHigh
    exact ⟨isLow, isHigh⟩
  · intro negative
    rw [abs_of_neg negative] at low high
    have isLow := above (-2 ^ bits) (by push_cast; linarith)
    have isHigh := below (-2 ^ (bits - 1)) (by push_cast; linarith)
    push_cast at isLow isHigh
    rw [neg_mul] at isLow isHigh
    exact ⟨isLow, isHigh⟩

/-- Within one spacing the order is that of the integers. -/
theorem round_le_round
    {first second : ℚ}
    (atMost : first ≤ second)
    (same : spacing bits first = spacing bits second) :
    round bits first ≤ round bits second := by
  rw [round, round, same]
  have positive := spacing_pos bits second
  refine mul_le_mul_of_nonneg_right ?_ positive.le
  exact_mod_cast halfEven_mono
    ((div_le_div_iff_of_pos_right positive).mpr atMost)

theorem round_mono (some : 0 < bits) : Monotone (round bits) := by
  intro first second atMost
  have double : (2 : ℚ) ^ bits = 2 * 2 ^ (bits - 1) := by
    rw [← pow_succ', Nat.sub_add_cancel some]
  have power : (0 : ℚ) < 2 ^ (bits - 1) := by positivity
  rcases lt_or_ge 0 first with positive | nonpos
  · -- Both are positive: the second has the larger spacing.
    have alsoPositive := positive.trans_le atMost
    have sizes : |first| ≤ |second| := by
      rwa [abs_of_pos positive, abs_of_pos alsoPositive]
    rcases spacing_cases bits positive.ne' sizes with
      same | larger
    · exact round_le_round atMost same
    · have top := ((round_within some positive.ne').1 positive).2
      have bottom :=
        ((round_within some alsoPositive.ne').1 alsoPositive).1
      calc
        round bits first ≤ 2 ^ bits * spacing bits first := top
        _ = 2 ^ (bits - 1) * (2 * spacing bits first) := by
          rw [double]
          ring
        _ ≤ 2 ^ (bits - 1) * spacing bits second :=
          mul_le_mul_of_nonneg_left larger power.le
        _ ≤ round bits second := bottom
  · rcases lt_or_ge second 0 with negative | nonneg
    · -- Both are negative: the first has the larger spacing.
      have alsoNegative := atMost.trans_lt negative
      have sizes : |second| ≤ |first| := by
        rw [abs_of_neg negative, abs_of_neg alsoNegative]
        exact neg_le_neg atMost
      rcases spacing_cases bits negative.ne sizes with
        same | larger
      · exact round_le_round atMost same.symm
      · have top := ((round_within some alsoNegative.ne).2 alsoNegative).2
        have bottom := ((round_within some negative.ne).2 negative).1
        calc
          round bits first ≤ -(2 ^ (bits - 1) * spacing bits first) := top
          _ ≤ -(2 ^ (bits - 1) * (2 * spacing bits second)) :=
            neg_le_neg (mul_le_mul_of_nonneg_left larger power.le)
          _ = -(2 ^ bits * spacing bits second) := by
            rw [double]
            ring
          _ ≤ round bits second := bottom
    · exact (round_nonpos nonpos).trans (round_nonneg nonneg)

end Nearest

/-- To the nearest number of so many bits, with ties to even ones. -/
def Rounding.nearest (bits : Nat) (some : 0 < bits) : Rounding bits where
  round := Nearest.round bits
  monotone := Nearest.round_mono some
  again := Nearest.round_round some
  error := Nearest.abs_round_sub_le

/-- A number that a rounding leaves as it is. -/
structure Rounded {bits : Nat} (rounding : Rounding bits) where
  value : ℚ
  isRounded : rounding.round value = value

/-- The number that a fraction is rounded to. -/
def Rounding.rounded
    {bits : Nat}
    (rounding : Rounding bits)
    (value : ℚ) : Rounded rounding where
  value := rounding.round value
  isRounded := rounding.again value

end AiFirewall
