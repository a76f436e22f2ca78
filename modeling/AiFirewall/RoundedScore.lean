import AiFirewall.PlainDetector
import AiFirewall.Rounding

namespace AiFirewall

/-!
# The score in rounded arithmetic

The detector scores in `f32`, which rounds after every operation.  Counts and
limits have 32 bits, so that quotients of them, their sums and the differences
of those stay far within the exponents that `f32` has: it is rounding to the
nearest number of 24 bits.  What is said here of the score holds of any
rounding that is as close.
-/

/-- Arithmetic that rounds the result of every operation. -/
instance {bits : Nat} (rounding : Rounding bits) :
    ScoreArith (Rounded rounding) where
  ofNat count := rounding.rounded count
  add first second := rounding.rounded (first.value + second.value)
  sub first second := rounding.rounded (first.value - second.value)
  div first second := rounding.rounded (first.value / second.value)
  lt first second := first.value < second.value
  totalLe first second := first.value ≤ second.value

/-- `f32`. -/
abbrev Binary32 : Type :=
  Rounded (Rounding.nearest 24 (by decide))

/-- What the score is made of: the counters and the number of ports. -/
structure Signals where
  syn : Nat
  ports : Nat
  udp : Nat
  drops : Nat
  odd : Nat
  deriving Repr, DecidableEq

def Track.counts (track : Track) : Signals where
  syn := track.syn.toNat
  ports := track.ports.length
  udp := track.udp.toNat
  drops := track.drops.toNat
  odd := track.odd.toNat

namespace Signals

open ScoreArith

/-- The score of these counts, computed as that of a track. -/
def score {Score : Type} [ScoreArith Score]
    (signals : Signals)
    (cfg : DetectorConfig) : Score :=
  let share (count limit : Nat) : Score := div (ofNat count) (ofNat limit)
  let sum :=
    [share signals.syn cfg.synLimit.toNat,
      share signals.ports cfg.portLimit.toNat,
      share signals.udp cfg.udpLimit.toNat,
      share signals.drops cfg.dropLimit.toNat,
      share signals.odd oddLimit].foldl add (ofNat 0)
  sub sum (share 1 cfg.portLimit.toNat)

/-- These counts make a full score. -/
def Fills (Score : Type) [ScoreArith Score]
    (signals : Signals)
    (cfg : DetectorConfig) : Prop :=
  lt (signals.score cfg : Score) (ofNat 1) = false

instance (Score : Type) [ScoreArith Score]
    (signals : Signals)
    (cfg : DetectorConfig) :
    Decidable (signals.Fills Score cfg) :=
  inferInstanceAs (Decidable (_ = _))

/-- No count is larger than the other's. -/
structure AtMost (first second : Signals) : Prop where
  syn : first.syn ≤ second.syn
  ports : first.ports ≤ second.ports
  udp : first.udp ≤ second.udp
  drops : first.drops ≤ second.drops
  odd : first.odd ≤ second.odd

end Signals

theorem Track.isFull_iff {Score : Type} [ScoreArith Score]
    {track : Track}
    {cfg : DetectorConfig} :
    track.isFull Score cfg = true ↔ track.counts.Fills Score cfg := by
  rw [Track.isFull, Bool.not_eq_true']
  rfl

namespace Rounding

section

variable
  {bits : Nat}
  (rounding : Rounding bits)

/-- A count over its limit. -/
def ratio (count limit : Nat) : ℚ :=
  rounding.round (rounding.round count / rounding.round limit)

/-- The terms of the score. -/
def terms (signals : Signals) (cfg : DetectorConfig) : List ℚ :=
  [rounding.ratio signals.syn cfg.synLimit.toNat,
    rounding.ratio signals.ports cfg.portLimit.toNat,
    rounding.ratio signals.udp cfg.udpLimit.toNat,
    rounding.ratio signals.drops cfg.dropLimit.toNat,
    rounding.ratio signals.odd oddLimit]

variable {rounding}

theorem ratio_mono
    {first second : Nat}
    (atMost : first ≤ second)
    (limit : Nat) :
    rounding.ratio first limit ≤ rounding.ratio second limit := by
  refine rounding.monotone (div_le_div_of_nonneg_right ?_ ?_)
  · exact rounding.monotone (Nat.cast_le.mpr atMost)
  · exact rounding.round_nonneg (Nat.cast_nonneg limit)

theorem ratio_nonneg (count limit : Nat) : 0 ≤ rounding.ratio count limit :=
  rounding.round_nonneg
    (div_nonneg (rounding.round_nonneg (Nat.cast_nonneg count))
      (rounding.round_nonneg (Nat.cast_nonneg limit)))

theorem terms_nonneg
    (rounding : Rounding bits)
    (signals : Signals)
    (cfg : DetectorConfig) :
    ∀ term ∈ rounding.terms signals cfg, 0 ≤ term := by
  simp only [terms, List.forall_mem_cons]
  exact ⟨ratio_nonneg _ _, ratio_nonneg _ _, ratio_nonneg _ _,
    ratio_nonneg _ _, ratio_nonneg _ _, fun _ member =>
      absurd member List.not_mem_nil⟩

theorem value_score (signals : Signals) (cfg : DetectorConfig) :
    (signals.score cfg : Rounded rounding).value =
      rounding.round
        (rounding.total (rounding.terms signals cfg) -
          rounding.ratio 1 cfg.portLimit.toNat) := by
  have zero : (ScoreArith.ofNat 0 : Rounded rounding).value = 0 :=
    (congrArg rounding.round Nat.cast_zero).trans rounding.round_zero
  have computed :
      (signals.score cfg : Rounded rounding).value =
        rounding.round
          ((rounding.terms signals cfg).foldl
              (fun sum term => rounding.round (sum + term))
              (ScoreArith.ofNat 0 : Rounded rounding).value -
            rounding.ratio 1 cfg.portLimit.toNat) :=
    rfl
  rw [computed, zero]
  rfl

theorem fills_iff {signals : Signals} {cfg : DetectorConfig} :
    signals.Fills (Rounded rounding) cfg ↔
      rounding.round 1 ≤
        rounding.round
          (rounding.total (rounding.terms signals cfg) -
            rounding.ratio 1 cfg.portLimit.toNat) := by
  have one : (ScoreArith.ofNat 1 : Rounded rounding).value =
      rounding.round 1 :=
    congrArg rounding.round Nat.cast_one
  rw [Signals.Fills, ← value_score, ← one, ← not_lt]
  exact decide_eq_false_iff_not

/-- More of everything makes a score full that was full. -/
theorem fills_mono
    {first second : Signals}
    {cfg : DetectorConfig}
    (atMost : first.AtMost second)
    (fills : first.Fills (Rounded rounding) cfg) :
    second.Fills (Rounded rounding) cfg := by
  rw [fills_iff] at fills ⊢
  refine fills.trans (rounding.monotone (sub_le_sub_right ?_ _))
  refine total_mono ?_
  simp only [terms, List.forall₂_cons, List.forall₂_nil_left_iff]
  exact ⟨ratio_mono atMost.syn _, ratio_mono atMost.ports _,
    ratio_mono atMost.udp _, ratio_mono atMost.drops _,
    ratio_mono atMost.odd _, trivial⟩

end

section

variable (rounding : Rounding 24)

/-- The part of a score that is one port is no more than one. -/
theorem ratio_one_le {limit : Nat} (positive : 0 < limit) :
    rounding.ratio 1 limit ≤ 2 := by
  have order : rounding.round (1 : Nat) ≤ rounding.round limit :=
    rounding.monotone (Nat.cast_le.mpr positive)
  have below :
      rounding.round (1 : Nat) / rounding.round limit ≤ 1 :=
    div_le_one_of_le₀ order (rounding.round_nonneg (Nat.cast_nonneg limit))
  have rounded := rounding.monotone below
  have top := rounding.round_le (zero_le_one (α := ℚ))
  norm_num at top
  exact rounded.trans (top.trans (by norm_num))

/--
A count that passes its limit by more than a millionth passes it after
rounding.
-/
theorem ratio_ge
    {count limit : Nat}
    (positive : 0 < limit)
    (many : limit + limit / 2 ^ 20 < count) :
    1 + 1 / 2 ^ 21 ≤ rounding.ratio count limit := by
  have limitPositive : (0 : ℚ) < limit := Nat.cast_pos.mpr positive
  have passed : (limit : ℚ) * (1 + 1 / 2 ^ 20) ≤ count := by
    have floor : limit < 2 ^ 20 * (limit / 2 ^ 20 + 1) :=
      Nat.lt_mul_div_succ limit (by norm_num)
    have whole : 2 ^ 20 * limit + limit ≤ 2 ^ 20 * count := by
      omega
    have cast : (2 : ℚ) ^ 20 * limit + limit ≤ 2 ^ 20 * count := by
      exact_mod_cast whole
    linarith
  have countLow := rounding.round_ge (Nat.cast_nonneg (α := ℚ) count)
  have limitLow := rounding.round_ge limitPositive.le
  have limitHigh := rounding.round_le limitPositive.le
  have roundedPositive : 0 < rounding.round limit := by
    linarith
  have quotient :
      1 + 3 / 2 ^ 22 ≤ rounding.round count / rounding.round limit := by
    rw [le_div_iff₀ roundedPositive]
    linarith
  have kept :=
    rounding.round_ge (le_trans (by norm_num) quotient)
  exact le_trans (by linarith) kept

/-- Such a signal and a port make the score full. -/
theorem one_le_round_sub
    {signal port : ℚ}
    (strong : 1 + 1 / 2 ^ 21 ≤ signal)
    (nonneg : 0 ≤ port)
    (small : port ≤ 2) :
    1 ≤ rounding.round (signal + port) - port := by
  have order :
      rounding.round (1 + 1 / 2 ^ 21 + port) ≤
        rounding.round (signal + port) :=
    rounding.monotone (add_le_add_left strong port)
  have kept :=
    rounding.round_ge
      (by positivity : (0 : ℚ) ≤ 1 + 1 / 2 ^ 21 + port)
  linarith

/-- A strong signal makes the score full, next to a port. -/
theorem fills_of_pair
    {signals : Signals}
    {cfg : DetectorConfig}
    {signal : ℚ}
    (positive : cfg.Positive)
    (hasPort : 1 ≤ signals.ports)
    (strong : 1 + 1 / 2 ^ 21 ≤ signal)
    (inTotal :
      rounding.round
          (signal + rounding.ratio signals.ports cfg.portLimit.toNat) ≤
        rounding.total (rounding.terms signals cfg)) :
    signals.Fills (Rounded rounding) cfg := by
  have limit : 0 < cfg.portLimit.toNat :=
    Nat.cast_pos.mp (PlainWindow.positive_of_ne_zero positive.2.2.1)
  have full :=
    rounding.one_le_round_sub strong (ratio_nonneg 1 cfg.portLimit.toNat)
      (rounding.ratio_one_le limit)
  have more :
      rounding.round (signal + rounding.ratio 1 cfg.portLimit.toNat) ≤
        rounding.round
          (signal + rounding.ratio signals.ports cfg.portLimit.toNat) :=
    rounding.monotone (add_le_add_right (ratio_mono hasPort _) signal)
  rw [fills_iff]
  refine rounding.monotone ?_
  linarith

end

end Rounding

/-- What a counter may reach without a ban: its limit, or a millionth more. -/
def tolerated (limit : Nat) : Nat :=
  limit + limit / 2 ^ 20

/--
Below a full score no counter has passed its limit by more than the rounding
hides.
-/
theorem Signals.le_tolerated
    {rounding : Rounding 24}
    {signals : Signals}
    {cfg : DetectorConfig}
    (positive : cfg.Positive)
    (hasPort : 1 ≤ signals.ports)
    (low : ¬signals.Fills (Rounded rounding) cfg) :
    signals.syn ≤ tolerated cfg.synLimit.toNat ∧
      signals.udp ≤ tolerated cfg.udpLimit.toNat ∧
      signals.odd ≤ oddLimit := by
  have syn : 0 < cfg.synLimit.toNat :=
    Nat.cast_pos.mp (PlainWindow.positive_of_ne_zero positive.2.1)
  have udp : 0 < cfg.udpLimit.toNat :=
    Nat.cast_pos.mp (PlainWindow.positive_of_ne_zero positive.2.2.2.1)
  have isRounded (count limit : Nat) :
      rounding.round (rounding.ratio count limit) =
        rounding.ratio count limit :=
    rounding.again _
  have nonneg := rounding.terms_nonneg signals cfg
  refine ⟨?_, ?_, ?_⟩
  · by_contra many
    have strong := rounding.ratio_ge syn (not_le.mp many)
    have inTotal :
        rounding.round
            (rounding.ratio signals.syn cfg.synLimit.toNat +
              rounding.ratio signals.ports cfg.portLimit.toNat) ≤
          rounding.total ([] ++ _ :: ([] ++ _ :: _)) :=
      Rounding.pair_le_total (isRounded _ _) nonneg
    exact low (rounding.fills_of_pair positive hasPort strong inTotal)
  · by_contra many
    have strong := rounding.ratio_ge udp (not_le.mp many)
    have inTotal :
        rounding.round
            (rounding.ratio signals.ports cfg.portLimit.toNat +
              rounding.ratio signals.udp cfg.udpLimit.toNat) ≤
          rounding.total ([_] ++ _ :: ([] ++ _ :: _)) :=
      Rounding.pair_le_total (isRounded _ _) nonneg
    rw [add_comm] at inTotal
    exact low (rounding.fills_of_pair positive hasPort strong inTotal)
  · by_contra many
    have three : tolerated oddLimit < signals.odd := not_le.mp many
    have strong := rounding.ratio_ge (by decide) three
    have inTotal :
        rounding.round
            (rounding.ratio signals.ports cfg.portLimit.toNat +
              rounding.ratio signals.odd oddLimit) ≤
          rounding.total ([_] ++ _ :: ([_, _] ++ _ :: [])) :=
      Rounding.pair_le_total (isRounded _ _) nonneg
    rw [add_comm] at inTotal
    exact low (rounding.fills_of_pair positive hasPort strong inTotal)

-- A limit that is just reached can be missed: this score is 1 - 2 ^ (-24).
example :
    ¬({ syn := 30, ports := 1, udp := 0, drops := 0, odd := 0 } :
      Signals).Fills Binary32
        { Config.default.detector with synLimit := 30, portLimit := 6 } := by
  decide +kernel

end AiFirewall
