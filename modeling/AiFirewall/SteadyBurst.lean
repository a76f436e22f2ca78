import AiFirewall.PlainDetector

namespace AiFirewall

/-!
# A steady burst of one source

The events of one source come at a steady rate, so many to a second.  As long
as none of them makes a ban, a window takes in what comes within its length,
and the first event after it begins the next one.  What the fullest window
holds can therefore be told from the rate and the number of events, and with
it whether the detector bans the source at all.
-/

open Runs

namespace PlainWindow

/-- The window after some events of its source that made no ban. -/
def opened
    (cfg : DetectorConfig)
    (calls : List (PacketEvent × U64)) : PlainWindow :=
  run (fun window call => window.extend cfg call.1 call.2) untracked calls

theorem opened_concat
    (cfg : DetectorConfig)
    (past : List (PacketEvent × U64))
    (call : PacketEvent × U64) :
    opened cfg (past ++ [call]) =
      (opened cfg past).extend cfg call.1 call.2 :=
  run_concat _ _ _ _

end PlainWindow

/-- Events of one source, so many to each second. -/
structure Burst where
  event : Nat → PacketEvent
  /-- The second of the first event. -/
  start : Nat
  rate : Nat

namespace Burst

variable (burst : Burst)

def call (index : Nat) : PacketEvent × U64 :=
  (burst.event index, BitVec.ofNat 64 (burst.start + index / burst.rate))

/-- The first events of the burst. -/
def calls (total : Nat) : List (PacketEvent × U64) :=
  (List.range total).map burst.call

/--
When the first window begins.  A source that is not tracked counts as having
had its last window at zero, and a length of more than the time of the first
event has that window still open.
-/
def origin (length : Nat) : Nat :=
  if length ≤ burst.start then burst.start else 0

/-- How many events come before the window of a number. -/
def before (length number : Nat) : Nat :=
  burst.rate * (burst.origin length + number * length - burst.start)

/-- The most events that one window takes in. -/
def fullest (length total : Nat) : Nat :=
  max (min total (burst.before length 1))
    (min (total - burst.before length 1) (burst.rate * length))

theorem calls_succ (total : Nat) :
    burst.calls (total + 1) = burst.calls total ++ [burst.call total] := by
  rw [calls, List.range_succ, List.map_append]
  rfl

variable {burst}

theorem start_le_origin
    (length number : Nat) :
    burst.start ≤ burst.origin length + (number + 1) * length := by
  have atLeast : length ≤ (number + 1) * length :=
    Nat.le_mul_of_pos_left length (Nat.succ_pos number)
  rw [origin]
  split <;> omega

theorem before_zero (length : Nat) : burst.before length 0 = 0 := by
  rw [before, origin]
  split <;> simp

theorem before_one_pos
    {length : Nat}
    (steady : 0 < burst.rate)
    (lasting : 0 < length) :
    0 < burst.before length 1 := by
  refine Nat.mul_pos steady ?_
  rw [origin]
  split <;> omega

/-- All windows but the first take in as much as comes in their length. -/
theorem before_succ_succ (length number : Nat) :
    burst.before length (number + 2) =
      burst.before length (number + 1) + burst.rate * length := by
  have started := burst.start_le_origin length number
  have next : (number + 2) * length = (number + 1) * length + length := by
    ring
  rw [before, before, ← Nat.mul_add, next]
  congr 1
  omega

theorem before_mono (length : Nat) : Monotone (burst.before length) := by
  intro first second atMost
  refine Nat.mul_le_mul_left _ (Nat.sub_le_sub_right ?_ _)
  exact Nat.add_le_add_left (Nat.mul_le_mul_right _ atMost) _

/-- An event falls into one window only. -/
theorem number_unique
    {length index first second : Nat}
    (firstAtLeast : burst.before length first ≤ index)
    (firstBelow : index < burst.before length (first + 1))
    (secondAtLeast : burst.before length second ≤ index)
    (secondBelow : index < burst.before length (second + 1)) :
    first = second := by
  rcases Nat.lt_trichotomy first second with earlier | same | later
  · have passed : burst.before length (first + 1) ≤ _ :=
      burst.before_mono length earlier
    omega
  · exact same
  · have passed : burst.before length (second + 1) ≤ _ :=
      burst.before_mono length later
    omega

/-- The events of a burst that fall into the window of the last of them. -/
structure Holds
    (burst : Burst)
    (length index number : Nat)
    (window : PlainWindow) : Prop where
  starts : window.start.toNat = burst.origin length + number * length
  atLeast : burst.before length number ≤ index
  below : index < burst.before length (number + 1)
  events :
    window.events =
      (List.range' (burst.before length number)
        (index + 1 - burst.before length number)).map burst.call

theorem toNat_call
    {index : Nat}
    (fits : burst.start + index / burst.rate < 2 ^ 64) :
    (burst.call index).2.toNat = burst.start + index / burst.rate := by
  rw [call, BitVec.toNat_ofNat, Nat.mod_eq_of_lt fits]

section

variable
  {cfg : DetectorConfig}
  {window : PlainWindow}
  {index number : Nat}

/-- The first event. -/
theorem holds_first
    (steady : 0 < burst.rate)
    (lasting : 0 < cfg.windowSecs.toNat)
    (fits : burst.start < 2 ^ 64) :
    burst.Holds cfg.windowSecs.toNat 0 0
      (PlainWindow.untracked.extend cfg (burst.call 0).1
        (burst.call 0).2) := by
  have time : (burst.call 0).2.toNat = burst.start := by
    rw [toNat_call] <;> rw [Nat.zero_div, Nat.add_zero]
    exact fits
  refine ⟨?_, ?_, before_one_pos steady lasting, ?_⟩
  · rw [PlainWindow.extend, PlainWindow.renewed, Nat.zero_mul, Nat.add_zero,
      origin]
    simp only [BitVec.le_def, U64.toNat_saturatingSub, time]
    have zero : PlainWindow.untracked.start.toNat = 0 := rfl
    rw [zero, Nat.sub_zero]
    split
    · exact time
    · exact zero
  · rw [before_zero]
  · rw [before_zero, PlainWindow.extend, PlainWindow.renewed]
    split <;> rfl

/-- The next event is one more in the window, or begins the next window. -/
theorem holds_next
    (steady : 0 < burst.rate)
    (lasting : 0 < cfg.windowSecs.toNat)
    (fits : burst.start + (index + 1) / burst.rate < 2 ^ 64)
    (holds : burst.Holds cfg.windowSecs.toNat index number window) :
    ∃ next,
      burst.Holds cfg.windowSecs.toNat (index + 1) next
        (window.extend cfg (burst.call (index + 1)).1
          (burst.call (index + 1)).2) := by
  obtain ⟨starts, atLeast, below, events⟩ := holds
  have time := toNat_call fits
  have started :=
    burst.start_le_origin cfg.windowSecs.toNat number
  have split : (number + 1) * cfg.windowSecs.toNat =
      number * cfg.windowSecs.toNat + cfg.windowSecs.toNat :=
    Nat.succ_mul _ _
  rcases Nat.lt_or_ge (index + 1)
      (burst.before cfg.windowSecs.toNat (number + 1)) with
    inside | outside
  · have early :
        (index + 1) / burst.rate <
          burst.origin cfg.windowSecs.toNat +
              (number + 1) * cfg.windowSecs.toNat - burst.start :=
      Nat.div_lt_of_lt_mul inside
    have same :
        window.renewed cfg (burst.call (index + 1)).2 = window := by
      rw [PlainWindow.renewed, if_neg]
      rw [BitVec.le_def, U64.toNat_saturatingSub, time, starts]
      omega
    refine ⟨number, ?_, by omega, inside, ?_⟩
    · rw [PlainWindow.extend, same]
      exact starts
    · have more :
          index + 1 + 1 - burst.before cfg.windowSecs.toNat number =
            index + 1 - burst.before cfg.windowSecs.toNat number + 1 := by
        omega
      rw [PlainWindow.extend, same, events, more, List.range'_concat,
        List.map_append, Nat.one_mul, Nat.add_sub_cancel' (by omega)]
      rfl
  · have isNext :
        index + 1 = burst.before cfg.windowSecs.toNat (number + 1) :=
      Nat.le_antisymm below outside
    have due :
        (index + 1) / burst.rate =
          burst.origin cfg.windowSecs.toNat +
              (number + 1) * cfg.windowSecs.toNat - burst.start := by
      rw [isNext, before, Nat.mul_div_cancel_left _ steady]
    have fresh :
        window.renewed cfg (burst.call (index + 1)).2 =
          ⟨(burst.call (index + 1)).2, []⟩ := by
      rw [PlainWindow.renewed, if_pos]
      rw [BitVec.le_def, U64.toNat_saturatingSub, time, starts]
      omega
    refine ⟨number + 1, ?_, isNext.ge, ?_, ?_⟩
    · rw [PlainWindow.extend, fresh]
      dsimp only
      omega
    · rw [before_succ_succ, ← isNext]
      exact Nat.lt_add_of_pos_right (Nat.mul_pos steady lasting)
    · rw [PlainWindow.extend, fresh, ← isNext, Nat.add_sub_cancel_left]
      rfl

/-- What the window of each event holds. -/
theorem holds_opened
    (steady : 0 < burst.rate)
    (lasting : 0 < cfg.windowSecs.toNat)
    (fits : burst.start + index / burst.rate < 2 ^ 64) :
    ∃ number,
      burst.Holds cfg.windowSecs.toNat index number
        (PlainWindow.opened cfg (burst.calls (index + 1))) := by
  induction index with
  | zero =>
      rw [Nat.zero_div, Nat.add_zero] at fits
      exact ⟨0, holds_first steady lasting fits⟩
  | succ index inductionHypothesis =>
      have grows : index / burst.rate ≤ (index + 1) / burst.rate :=
        Nat.div_le_div_right (Nat.le_succ index)
      obtain ⟨number, holds⟩ := inductionHypothesis (by omega)
      rw [calls_succ, PlainWindow.opened_concat]
      exact holds_next steady lasting fits holds

end

/-- The window of a number as it is when an event of the burst comes. -/
theorem window_le_fullest
    {length total index number : Nat}
    (early : index < total)
    (atLeast : burst.before length number ≤ index)
    (below : index < burst.before length (number + 1)) :
    index + 1 - burst.before length number ≤ burst.fullest length total := by
  rw [fullest]
  cases number with
  | zero =>
      rw [before_zero]
      exact le_max_of_le_left (Nat.le_min.mpr ⟨early, below⟩)
  | succ number =>
      have first :=
        burst.before_mono length (Nat.le_add_left 1 number)
      rw [before_succ_succ] at below
      refine le_max_of_le_right (Nat.le_min.mpr ⟨?_, ?_⟩) <;> omega

/-- Some event finds the fullest window. -/
theorem exists_fullest
    {length total : Nat}
    (steady : 0 < burst.rate)
    (lasting : 0 < length)
    (some : 0 < total) :
    ∃ index number,
      index < total ∧
        burst.before length number ≤ index ∧
        index < burst.before length (number + 1) ∧
        index + 1 - burst.before length number =
          burst.fullest length total := by
  have first := before_one_pos steady lasting
  have room : 0 < burst.rate * length := Nat.mul_pos steady lasting
  have second :
      burst.before length (1 + 1) =
        burst.before length 1 + burst.rate * length :=
    burst.before_succ_succ length 0
  rcases Nat.le_total
      (min (total - burst.before length 1) (burst.rate * length))
      (min total (burst.before length 1)) with isFirst | isSecond
  · refine ⟨min total (burst.before length 1) - 1, 0, ?_, ?_, ?_, ?_⟩
    · omega
    · rw [before_zero]
      exact Nat.zero_le _
    · rw [Nat.zero_add]
      omega
    · rw [before_zero, fullest, Nat.max_eq_left isFirst]
      omega
  · refine ⟨burst.before length 1 +
      min (total - burst.before length 1) (burst.rate * length) - 1, 1,
      ?_, ?_, ?_, ?_⟩
    · omega
    · omega
    · omega
    · rw [fullest, Nat.max_eq_right isSecond]
      omega

end Burst

end AiFirewall
