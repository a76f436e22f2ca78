import AiFirewall.ConfigCheck
import AiFirewall.Detector

namespace AiFirewall

/-!
# The ladder of ban lengths

A source's offences in a run of the detector, and the lengths of the bans
they bring.  The strikes are forgotten once more than `forgive_secs` have gone
by since the last ban *began*; a ban that outlasts that time therefore starts
the ladder again.  The main result says exactly when every ban of a run has
the length the ladder gives it.
-/

/-- The ladder's length for the ban number `index`, counted from zero. -/
def ladder (bans : BanConfig) (index : Nat) : Nat :=
  min (bans.baseSecs.toNat * 2 ^ index) bans.maxSecs.toNat

theorem toNat_one_shiftLeft
    {shift : U32}
    (small : shift.toNat ≤ 20) :
    ((1 : U64) <<< shift).toNat = 2 ^ shift.toNat := by
  have power : 2 ^ shift.toNat ≤ 1048576 :=
    le_trans (Nat.pow_le_pow_right (by decide) small) (by decide)
  rw [BitVec.shiftLeft_eq', BitVec.toNat_shiftLeft, Nat.shiftLeft_eq,
    Nat.mod_eq_of_lt]
  · simp
  · simp
    omega

/-- The length of a ban, without machine words: the shift stops at 20. -/
theorem secsFor_toNat (bans : BanConfig) (strikes : U32) :
    (bans.secsFor strikes).toNat =
      ladder bans (min (strikes - 1).toNat 20) := by
  have shiftSmall : (umin (strikes - 1) 20).toNat ≤ 20 := by
    simp
  have maxBound := bans.maxSecs.isLt
  have shiftIs : (umin (strikes - 1) 20).toNat = min (strikes - 1).toNat 20 := by
    simp
  rw [BanConfig.secsFor, toNat_umin, U64.toNat_saturatingMul,
    toNat_one_shiftLeft shiftSmall, shiftIs, ladder]
  omega

/-- The offenders a source is, offence after offence. -/
def offences (forgiveSecs : U64) :
    Option Offender → List U64 → List Offender
  | _, [] => []
  | previous, now :: rest =>
      let offender := Offender.again previous forgiveSecs now
      offender :: offences forgiveSecs (some offender) rest

/-- The second of two times comes within `forgiveSecs` of the first. -/
def Within (forgiveSecs first second : U64) : Prop :=
  second.toNat - first.toNat ≤ forgiveSecs.toNat

/-- A ladder of `count` steps neither outgrows the shift nor the counter. -/
def Climbable (bans : BanConfig) (count : Nat) : Prop :=
  (count ≤ 21 ∨ bans.maxSecs.toNat ≤ bans.baseSecs.toNat * 2 ^ 20) ∧
    count ≤ 4294967296

/-- Every ban in a list of offences has the length the ladder gives it. -/
def OnLadder
    (bans : BanConfig)
    (first : Nat)
    (offenders : List Offender) : Prop :=
  ∀ index, (inBounds : index < offenders.length) →
    (bans.secsFor offenders[index].strikes).toNat =
      ladder bans (first + index)

theorem onLadder_nil (bans : BanConfig) (first : Nat) :
    OnLadder bans first [] := by
  intro index inBounds
  cases inBounds

theorem onLadder_cons
    {bans : BanConfig}
    {first : Nat}
    {offender : Offender}
    {rest : List Offender} :
    OnLadder bans first (offender :: rest) ↔
      (bans.secsFor offender.strikes).toNat = ladder bans first ∧
        OnLadder bans (first + 1) rest := by
  constructor
  · intro all
    refine ⟨all 0 (Nat.succ_pos _), ?_⟩
    intro index inBounds
    rw [Nat.add_right_comm]
    exact all (index + 1) (Nat.succ_lt_succ inBounds)
  · rintro ⟨head, tail⟩ index inBounds
    cases index with
    | zero => exact head
    | succ index =>
        rw [← Nat.add_assoc, Nat.add_right_comm]
        exact tail index (Nat.lt_of_succ_lt_succ inBounds)

section

variable
  {bans : BanConfig}
  (basePositive : 0 < bans.baseSecs.toNat)
  (grows : bans.baseSecs.toNat < bans.maxSecs.toNat)

include basePositive grows

/-- While the ladder grows, its first step is shorter than every other. -/
theorem ladder_zero_lt {index : Nat} (positive : 0 < index) :
    ladder bans 0 < ladder bans index := by
  have doubled : bans.baseSecs.toNat * 2 ≤ bans.baseSecs.toNat * 2 ^ index :=
    Nat.mul_le_mul_left _ (Nat.le_self_pow positive.ne' 2)
  simp only [ladder, Nat.pow_zero, Nat.mul_one]
  omega

omit grows in
/-- Stopping the shift at 20 is harmless up to there, or past the maximum. -/
theorem ladder_min_eq_iff (index : Nat) :
    ladder bans (min index 20) = ladder bans index ↔
      index ≤ 20 ∨
        bans.maxSecs.toNat ≤ bans.baseSecs.toNat * 2 ^ 20 := by
  rcases Nat.le_or_ge index 20 with low | high
  · simp [low]
  rw [Nat.min_eq_right high]
  have further :
      bans.baseSecs.toNat * 2 ^ 20 ≤ bans.baseSecs.toNat * 2 ^ index :=
    Nat.mul_le_mul_left _ (Nat.pow_le_pow_right (by decide) high)
  unfold ladder
  constructor
  · intro same
    by_contra neither
    obtain ⟨above, reachable⟩ := not_or.mp neither
    have strictly :
        bans.baseSecs.toNat * 2 ^ 20 < bans.baseSecs.toNat * 2 ^ index :=
      Nat.mul_lt_mul_of_pos_left
        (Nat.pow_lt_pow_right (by decide) (Nat.lt_of_not_le above))
        basePositive
    omega
  · rintro (low | reached)
    · rw [Nat.le_antisymm low high]
    · omega

/-- One more offence stays on the ladder when it comes soon and is no more
than the shift and the counter can count. -/
theorem secsFor_again_iff
    {count : Nat}
    (positive : 0 < count)
    (climbed : Climbable bans count)
    (last now : U64) :
    (bans.secsFor
        (Offender.again (some ⟨BitVec.ofNat 32 count, last⟩)
          bans.forgiveSecs now).strikes).toNat = ladder bans count ↔
      Within bans.forgiveSecs last now ∧ Climbable bans (count + 1) := by
  have shorter := ladder_zero_lt basePositive grows positive
  rw [secsFor_toNat, Offender.again]
  simp only [Option.getD_some, BitVec.lt_def, U64.toNat_saturatingSub,
    Within, BitVec.add_sub_cancel]
  split
  · rename_i forgiven
    have restarted : min (BitVec.toNat (0 : U32)) 20 = 0 :=
      rfl
    rw [restarted]
    exact iff_of_false shorter.ne fun soon => by omega
  · rename_i soon
    simp only [BitVec.toNat_ofNat, Nat.reducePow]
    have inCounter : count ≤ 4294967296 := climbed.2
    rcases Nat.lt_or_eq_of_le inCounter with below | wrapped
    · rw [Nat.mod_eq_of_lt below,
        ladder_min_eq_iff basePositive, Climbable]
      omega
    · rw [wrapped] at shorter ⊢
      simp only [Nat.mod_self, Nat.zero_min]
      exact iff_of_false shorter.ne fun further => by
        have bounded : 4294967296 + 1 ≤ 4294967296 := further.2.2
        omega

/-- The offences after the first stay on the ladder when each comes soon. -/
theorem onLadder_offences_iff
    {starts : List U64}
    {count : Nat}
    (positive : 0 < count)
    (climbed : Climbable bans count)
    (last : U64) :
    OnLadder bans count
        (offences bans.forgiveSecs
          (some ⟨BitVec.ofNat 32 count, last⟩) starts) ↔
      (last :: starts).IsChain (Within bans.forgiveSecs) ∧
        Climbable bans (count + starts.length) := by
  induction starts generalizing count last with
  | nil =>
      simp [offences, onLadder_nil, climbed]
  | cons now rest inductionHypothesis =>
      have step :=
        secsFor_again_iff basePositive grows positive climbed last now
      rw [offences, onLadder_cons, step, List.isChain_cons_cons,
        List.length_cons]
      by_cases next :
          Within bans.forgiveSecs last now ∧ Climbable bans (count + 1)
      · have soon :
            ¬bans.forgiveSecs < U64.saturatingSub now last := by
          rw [BitVec.lt_def, U64.toNat_saturatingSub]
          exact Nat.not_lt.mpr next.1
        have counted :
            Offender.again (some ⟨BitVec.ofNat 32 count, last⟩)
                bans.forgiveSecs now =
              ⟨BitVec.ofNat 32 (count + 1), now⟩ := by
          simp [Offender.again, soon, BitVec.ofNat_add]
        have shape :
            count + (rest.length + 1) = count + 1 + rest.length := by
          omega
        rw [counted, shape,
          inductionHypothesis (Nat.succ_pos count) next.2 now]
        simp [next]
      · refine iff_of_false (fun both => next both.1) ?_
        rintro ⟨⟨soon, _⟩, enough⟩
        refine next ⟨soon, ?_, ?_⟩
        · exact enough.1.imp (by omega) id
        · exact le_trans (by omega) enough.2

end

/-- Where the base is the maximum, every ban has the ladder's length. -/
theorem onLadder_of_flat
    {bans : BanConfig}
    (flat : bans.baseSecs = bans.maxSecs)
    (first : Nat)
    (offenders : List Offender) :
    OnLadder bans first offenders := by
  have level (index : Nat) : ladder bans index = bans.maxSecs.toNat := by
    have positive : 0 < 2 ^ index := Nat.two_pow_pos index
    have enough := Nat.le_mul_of_pos_right bans.baseSecs.toNat positive
    rw [ladder, Nat.min_eq_right]
    rwa [flat] at enough ⊢
  intro index inBounds
  rw [secsFor_toNat, level, level]

/-- All offences of a new offender, on the ladder or not. -/
theorem onLadder_fresh_iff
    {bans : BanConfig}
    (basePositive : 0 < bans.baseSecs.toNat)
    (bounded : bans.baseSecs.toNat ≤ bans.maxSecs.toNat)
    (starts : List U64) :
    OnLadder bans 0 (offences bans.forgiveSecs none starts) ↔
      bans.baseSecs = bans.maxSecs ∨
        starts.IsChain (Within bans.forgiveSecs) ∧
          Climbable bans starts.length := by
  rcases Nat.eq_or_lt_of_le bounded with flat | grows
  · have same := BitVec.eq_of_toNat_eq flat
    exact iff_of_true (onLadder_of_flat same 0 _) (.inl same)
  have different : ¬bans.baseSecs = bans.maxSecs := by
    intro same
    rw [same] at grows
    exact lt_irrefl _ grows
  rw [or_iff_right different]
  cases starts with
  | nil =>
      simp [offences, onLadder_nil, Climbable]
  | cons now rest =>
      have firstStrike :
          Offender.again none bans.forgiveSecs now =
            ⟨BitVec.ofNat 32 1, now⟩ := by
        have atOnce : ¬bans.forgiveSecs < U64.saturatingSub now now := by
          rw [BitVec.lt_def, U64.toNat_saturatingSub]
          omega
        simp [Offender.again, atOnce]
      have firstLength :
          (bans.secsFor (BitVec.ofNat 32 1)).toNat = ladder bans 0 := by
        rw [secsFor_toNat]
        rfl
      rw [offences, onLadder_cons, firstStrike, and_iff_right firstLength,
        onLadder_offences_iff basePositive grows Nat.one_pos
          ⟨.inl (by decide), by decide⟩,
        List.length_cons, Nat.add_comm 1]

/-! Runs of the detector. -/

/-- One call of the daemon to its detector. -/
inductive DetectorOp where
  | observe (event : PacketEvent) (now : U64)
  | prune (now : U64)
  | setProtected (protected4 : List Cidr) (protected6 : List U64)

namespace DetectorOp

def apply (Score : Type) [ScoreArith Score]
    (detector : Detector) :
    DetectorOp → Option (Ban Score) × Detector
  | .observe event now => detector.observe Score event now
  | .prune now => (none, detector.prune now)
  | .setProtected protected4 protected6 =>
      (none, detector.setProtected protected4 protected6)

/-- The clock a call is given, if it is given one. -/
def clock? : DetectorOp → Option U64
  | .observe _ now => some now
  | .prune now => some now
  | .setProtected _ _ => none

end DetectorOp

/-- The bans of one source in a run, each with the time it began. -/
def bansOf (Score : Type) [ScoreArith Score]
    (source : Src) :
    Detector → List DetectorOp → List (U64 × Ban Score)
  | _, [] => []
  | detector, op :: rest =>
      let later := bansOf Score source (op.apply Score detector).2 rest
      match op.clock?, (op.apply Score detector).1 with
      | some now, some ban =>
          if ban.ip = source then (now, ban) :: later else later
      | _, _ => later

/--
What the offender table says of a source that is `previous`: the same, or
nothing at a time at which its strikes are forgiven anyway.
-/
def Remembers
    (forgiveSecs clock : U64)
    (previous found : Option Offender) : Prop :=
  found = previous ∨
    found = none ∧
      ∀ offender ∈ previous,
        forgiveSecs < U64.saturatingSub clock offender.lastBan

namespace Remembers

variable
  {forgiveSecs clock now : U64}
  {previous found : Option Offender}

theorem later
    (remembers : Remembers forgiveSecs clock previous found)
    (ordered : clock ≤ now) :
    Remembers forgiveSecs now previous found := by
  rcases remembers with same | ⟨gone, forgiven⟩
  · exact .inl same
  · refine .inr ⟨gone, fun offender member => ?_⟩
    have before := forgiven offender member
    rw [BitVec.lt_def, U64.toNat_saturatingSub] at before ⊢
    rw [BitVec.le_def] at ordered
    omega

/-- What the table says is enough to tell the next offence. -/
theorem again
    (remembers : Remembers forgiveSecs now previous found) :
    Offender.again found forgiveSecs now =
      Offender.again previous forgiveSecs now := by
  rcases remembers with same | ⟨gone, forgiven⟩
  · rw [same]
  subst gone
  cases previous with
  | none => rfl
  | some offender =>
      have quiet := forgiven offender rfl
      have atOnce : ¬forgiveSecs < U64.saturatingSub now now := by
        rw [BitVec.lt_def, U64.toNat_saturatingSub]
        omega
      simp [Offender.again, quiet, atOnce]

/-- Pruning drops only offenders whose strikes are forgiven. -/
theorem prune
    {detector : Detector}
    {source : Src}
    (remembers :
      Remembers detector.bans.forgiveSecs now previous
        (detector.offenders.lookup source)) :
    Remembers detector.bans.forgiveSecs now previous
      ((detector.prune now).offenders.lookup source) := by
  rw [Detector.prune, Table.lookup_retain]
  rcases remembers with same | ⟨gone, forgiven⟩
  · rw [same]
    cases previous with
    | none => exact .inl rfl
    | some offender =>
        by_cases kept :
            U64.saturatingSub now offender.lastBan ≤
              U64.saturatingAdd detector.bans.forgiveSecs
                detector.bans.maxSecs
        · exact .inl (by simp [kept])
        · refine .inr ⟨by simpa using kept, ?_⟩
          intro other isOffender
          cases isOffender
          have inClock := now.isLt
          rw [BitVec.le_def, U64.toNat_saturatingAdd,
            U64.toNat_saturatingSub] at kept
          rw [BitVec.lt_def, U64.toNat_saturatingSub]
          omega
  · exact .inr ⟨by simp [gone], forgiven⟩

theorem makeRoom
    {detector : Detector}
    {source ip : Src}
    (remembers :
      Remembers detector.bans.forgiveSecs now previous
        (detector.offenders.lookup source)) :
    Remembers detector.bans.forgiveSecs now previous
      ((detector.makeRoom ip now).offenders.lookup source) := by
  rcases detector.makeRoom_cases ip now with same | pruned
  · rw [same]
    exact remembers
  · rw [pruned]
    exact remembers.prune

end Remembers

/-- The offender each ban of a source made of it. -/
def offendersOf {Score : Type} (bans : List (U64 × Ban Score)) :
    List Offender :=
  bans.map fun entry => ⟨entry.2.strikes, entry.1⟩

/-- What one call does to one source: at most one more offence. -/
structure Called
    {Score : Type}
    (source : Src)
    (clock : U64)
    (previous : Option Offender)
    (before : Detector)
    (ban : Option (Ban Score))
    (after : Detector) : Prop where
  bans : after.bans = before.bans
  quiet :
    (∀ issued ∈ ban, issued.ip ≠ source) →
      Remembers before.bans.forgiveSecs clock previous
        (after.offenders.lookup source)
  offends :
    ∀ issued ∈ ban, issued.ip = source →
      let offender :=
        Offender.again previous before.bans.forgiveSecs clock
      issued.strikes = offender.strikes ∧
        issued.secs = before.bans.secsFor offender.strikes ∧
        after.offenders.lookup source = some offender

section

variable
  {Score : Type}
  [ScoreArith Score]
  {source : Src}
  {now : U64}
  {previous : Option Offender}
  {detector : Detector}

theorem observe_called
    (event : PacketEvent)
    (remembers :
      Remembers detector.bans.forgiveSecs now previous
        (detector.offenders.lookup source)) :
    Called source now previous detector
      (detector.observe Score event now).1
      (detector.observe Score event now).2 := by
  cases tripped : detector.trips Score event now with
  | false =>
      obtain ⟨noBan, offenders, sameBans⟩ :=
        Detector.observe_of_not_trips tripped
      rw [noBan]
      refine ⟨sameBans, fun _ => ?_, nofun⟩
      rcases offenders with same | pruned
      · rw [same]
        exact remembers
      · rw [pruned]
        exact remembers.prune
  | true =>
      obtain ⟨room, ban, isRoom, observed, banIp, strikes, secs⟩ :=
        Detector.observe_of_trips tripped
      have inRoom :
          Remembers detector.bans.forgiveSecs now previous
            (room.offenders.lookup source) := by
        rw [isRoom]
        exact remembers.makeRoom
      have sameBans : room.bans = detector.bans := by
        rw [isRoom]
        exact detector.makeRoom_bans _ _
      rw [observed]
      refine ⟨sameBans, ?_, ?_⟩
      · intro others
        have otherSource : source ≠ Src.of event := by
          rw [← banIp]
          exact (others ban rfl).symm
        rw [Table.lookup_insert_eq, if_neg otherSource]
        exact inRoom
      · intro issued isBan isSource
        cases isBan
        rw [banIp] at isSource
        subst isSource
        have same :
            room.offence event now =
              Offender.again previous detector.bans.forgiveSecs now := by
          rw [Detector.offence, sameBans, inRoom.again]
        rw [← same]
        exact ⟨strikes, secs, by rw [Table.lookup_insert_eq, if_pos rfl]⟩

/-- Every call with a clock is at most one more offence of a source. -/
theorem apply_called
    {op : DetectorOp}
    (clocked : op.clock? = some now)
    (remembers :
      Remembers detector.bans.forgiveSecs now previous
        (detector.offenders.lookup source)) :
    Called source now previous detector (op.apply Score detector).1
      (op.apply Score detector).2 := by
  cases op with
  | observe event time =>
      injection clocked with same
      subst same
      exact observe_called event remembers
  | prune time =>
      injection clocked with same
      subst same
      exact ⟨rfl, fun _ => remembers.prune, nofun⟩
  | setProtected protected4 protected6 =>
      cases clocked

/-- The bans of a source in a run follow from the times they began. -/
theorem bansOf_offences
    {clock : U64}
    {ops : List DetectorOp}
    (remembers :
      Remembers detector.bans.forgiveSecs clock previous
        (detector.offenders.lookup source))
    (ordered :
      (clock :: ops.filterMap DetectorOp.clock?).Pairwise (· ≤ ·)) :
    offendersOf (bansOf Score source detector ops) =
        offences detector.bans.forgiveSecs previous
          ((bansOf Score source detector ops).map Prod.fst) ∧
      ∀ entry ∈ bansOf Score source detector ops,
        entry.2.secs = detector.bans.secsFor entry.2.strikes := by
  induction ops generalizing detector previous clock with
  | nil =>
      exact ⟨rfl, nofun⟩
  | cons op rest inductionHypothesis =>
      cases clocked : op.clock? with
      | none =>
          rw [List.filterMap_cons_none clocked] at ordered
          have noClock :
              ∃ protected4 protected6,
                op = .setProtected protected4 protected6 := by
            cases op with
            | observe event time => cases clocked
            | prune time => cases clocked
            | setProtected protected4 protected6 =>
                exact ⟨protected4, protected6, rfl⟩
          obtain ⟨protected4, protected6, rfl⟩ := noClock
          exact inductionHypothesis remembers ordered
      | some now =>
          rw [List.filterMap_cons_some clocked] at ordered
          have clockFirst : clock ≤ now :=
            List.rel_of_pairwise_cons ordered List.mem_cons_self
          have laterOrdered := List.Pairwise.of_cons ordered
          have called : Called source now previous detector
              (op.apply Score detector).1 (op.apply Score detector).2 :=
            apply_called clocked (remembers.later clockFirst)
          have sameBans := called.bans
          cases issued : (op.apply Score detector).1 with
          | none =>
              have remembered := called.quiet (by simp [issued])
              rw [← sameBans] at remembered ⊢
              have tail := inductionHypothesis remembered laterOrdered
              simpa only [bansOf, clocked, issued] using tail
          | some ban =>
              by_cases isSource : ban.ip = source
              · obtain ⟨strikes, secs, known⟩ :=
                  called.offends ban issued isSource
                obtain ⟨tail, tailSecs⟩ :=
                  inductionHypothesis (.inl known) laterOrdered
                rw [sameBans] at tail tailSecs
                simp only [bansOf, clocked, issued, isSource, ↓reduceIte]
                constructor
                · rw [List.map_cons, offences, ← tail, offendersOf,
                    List.map_cons, strikes]
                  rfl
                · intro entry member
                  rcases List.mem_cons.mp member with isHead | inTail
                  · subst isHead
                    rw [strikes]
                    exact secs
                  · exact tailSecs entry inTail
              · have remembered :=
                  called.quiet (by
                    intro other isOther
                    rw [issued] at isOther
                    cases isOther
                    exact isSource)
                rw [← sameBans] at remembered ⊢
                have tail := inductionHypothesis remembered laterOrdered
                simpa only [bansOf, clocked, issued, isSource, ↓reduceIte]
                  using tail

end

/-- The lengths of bans, told by the offenders they made. -/
theorem onLadder_offendersOf
    {Score : Type}
    {bans : BanConfig}
    {entries : List (U64 × Ban Score)}
    (secs :
      ∀ entry ∈ entries, entry.2.secs = bans.secsFor entry.2.strikes) :
    (∀ index, (inBounds : index < entries.length) →
        entries[index].2.secs.toNat = ladder bans index) ↔
      OnLadder bans 0 (offendersOf entries) := by
  constructor
  · intro all index inBounds
    have inEntries : index < entries.length := by
      simpa [offendersOf] using inBounds
    have length := all index inEntries
    rw [secs _ (List.getElem_mem inEntries)] at length
    simpa [offendersOf] using length
  · intro all index inEntries
    have inBounds : index < (offendersOf entries).length := by
      simpa [offendersOf] using inEntries
    rw [secs _ (List.getElem_mem inEntries)]
    simpa [offendersOf] using all index inBounds

/-- A longer climb never brings a shorter ban. -/
theorem ladder_monotone (bans : BanConfig) : Monotone (ladder bans) := by
  intro first second ordered
  have grown :
      bans.baseSecs.toNat * 2 ^ first ≤ bans.baseSecs.toNat * 2 ^ second :=
    Nat.mul_le_mul_left _ (Nat.pow_le_pow_right (by decide) ordered)
  exact min_le_min_right _ grown

/--
The bans of a source that was not known before double up to the maximum,
from the first to the last of a run, exactly when the base is the maximum, or
each ban begins within `forgive_secs` of the beginning of the one before and
there are no more of them than the shift and the counter can count.
-/
theorem repeat_offender_doubles_iff
    {Score : Type}
    [ScoreArith Score]
    {cfg : Config}
    {detector : Detector}
    {source : Src}
    {ops : List DetectorOp}
    (accepted : cfg.validate = .ok ())
    (configured : detector.bans = cfg.bans)
    (notKnown : detector.offenders.lookup source = none)
    (ordered : (ops.filterMap DetectorOp.clock?).Pairwise (· ≤ ·)) :
    let bans := bansOf Score source detector ops
    let base := cfg.bans.baseSecs.toNat
    let max := cfg.bans.maxSecs.toNat
    ((∀ index, (inBounds : index < bans.length) →
        bans[index].2.secs.toNat = min (base * 2 ^ index) max) ↔
      cfg.bans.baseSecs = cfg.bans.maxSecs ∨
        (bans.map Prod.fst).IsChain (Within cfg.bans.forgiveSecs) ∧
          (bans.length ≤ 21 ∨ max ≤ base * 2 ^ 20) ∧
          bans.length ≤ 4294967296) ∧
    ((∀ index, (inBounds : index < bans.length) →
        bans[index].2.secs.toNat = min (base * 2 ^ index) max) →
      bans.Pairwise (fun first second =>
          first.2.secs.toNat ≤ second.2.secs.toNat) ∧
        ∀ index, (inBounds : index < bans.length) →
          max ≤ base * 2 ^ index → bans[index].2.secs.toNat = max) := by
  intro bans base max
  have valid := (Config.validate_ok.mp accepted).bans
  have basePositive : 0 < cfg.bans.baseSecs.toNat := by
    refine Nat.pos_of_ne_zero fun zero => valid.1 ?_
    exact BitVec.eq_of_toNat_eq zero
  have clockedOps :
      ((0 : U64) :: ops.filterMap DetectorOp.clock?).Pairwise
        (· ≤ ·) := by
    refine List.pairwise_cons.mpr ⟨fun time _ => ?_, ordered⟩
    rw [BitVec.le_def]
    exact Nat.zero_le _
  obtain ⟨fromTimes, secs⟩ :
      offendersOf bans =
          offences detector.bans.forgiveSecs none (bans.map Prod.fst) ∧
        ∀ entry ∈ bans,
          entry.2.secs = detector.bans.secsFor entry.2.strikes :=
    bansOf_offences (.inl notKnown) clockedOps
  rw [configured] at fromTimes secs
  have onLadder :
      (∀ index, (inBounds : index < bans.length) →
          bans[index].2.secs.toNat = min (base * 2 ^ index) max) ↔
        OnLadder cfg.bans 0 (offendersOf bans) :=
    onLadder_offendersOf secs
  constructor
  · rw [onLadder, show offendersOf bans = _ from fromTimes,
      onLadder_fresh_iff basePositive (BitVec.le_def.mp valid.2),
      List.length_map]
    exact Iff.rfl
  · intro doubled
    constructor
    · rw [List.pairwise_iff_getElem]
      intro first second firstBound secondBound before
      rw [doubled first firstBound, doubled second secondBound]
      exact ladder_monotone cfg.bans before.le
    · intro index inBounds reached
      rw [doubled index inBounds, Nat.min_eq_right reached]

/-! A host that scans again at the very second its ban ends. -/

def attacker : Src := .v4 0x0a000005

/-- A TCP segment without flags from the attacker, dropped by the policy. -/
def nullScan : PacketEvent where
  src6 := 0
  srcIp := 0x0a000005
  dstPort := 80
  srcPort := 40000
  protocol := protoTcp
  tcpFlags := 0
  payloadLen := 0
  verdict := verdictDropPolicy
  family := familyV4

/-- Three such segments within the second `start`: one offence. -/
def offend (start : Nat) : List DetectorOp :=
  List.replicate 3 (.observe nullScan (BitVec.ofNat 64 start))

/-- The beginnings of `count` bans that follow each other without a gap. -/
def relentless (count : Nat) : List DetectorOp :=
  (List.range count).flatMap fun index => offend (100 + 120 * (2 ^ index - 1))

/-- Under the default settings the tenth such ban is as short as the first. -/
theorem tenth_ban_is_as_short_as_the_first :
    let bans :=
      (bansOf ℚ attacker (.new .default .default) (relentless 10)).map
        fun entry => (entry.1.toNat, entry.2.secs.toNat)
    bans.length = 10 ∧
      bans.IsChain (fun first second =>
        first.1 + first.2 ≤ second.1 ∧
          second.1 ≤ first.1 + first.2 +
            BanConfig.default.forgiveSecs.toNat) ∧
      bans[9]? = some (61420, 120) ∧
      min (120 * 2 ^ 9) 86400 = 61440 := by
  decide +kernel

/-- The first three bans of the same host double. -/
theorem first_three_bans_double :
    let bans := bansOf ℚ attacker (.new .default .default) (relentless 3)
    ∀ index, (inBounds : index < bans.length) →
      bans[index].2.secs.toNat =
        min (Config.default.bans.baseSecs.toNat * 2 ^ index)
          Config.default.bans.maxSecs.toNat :=
  (repeat_offender_doubles_iff Config.validate_default rfl rfl
    (by decide +kernel)).1.mpr
      (.inr ⟨by unfold Within; decide +kernel,
        .inl (by decide +kernel), by decide +kernel⟩)

end AiFirewall
