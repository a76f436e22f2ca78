import AiFirewall.BurstStrikes

namespace AiFirewall

/-!
# Sources on their own

A track and an offender belong to one source.  What the detector says about a
source depends on the events of that source alone: the other sources do not
matter while the table has room for all of them, and pruning drops nothing
that a later event would have used.
-/

/-- A call with an event of one source. -/
def DetectorOp.isOwn (source : Src) : DetectorOp → Bool
  | .observe event _ => Src.of event = source
  | .prune _ => false
  | .setProtected _ _ => false

/-- The source of the event that a call brings. -/
def DetectorOp.source? : DetectorOp → Option Src
  | .observe event _ => some (Src.of event)
  | .prune _ => none
  | .setProtected _ _ => none

namespace Detector

/-- A detector that tracks nobody yet. -/
def fresh
    (cfg : DetectorConfig)
    (bans : BanConfig)
    (protected4 : List Cidr)
    (protected6 : List U64) : Detector :=
  (Detector.new cfg bans).setProtected protected4 protected6

/-- Every tracked source is one of these. -/
def TracksOnly (detector : Detector) (sources : Finset Src) : Prop :=
  ∀ ip ∈ detector.tracks, ip ∈ sources

section

variable
  {Score : Type}
  [ScoreArith Score]
  {detector : Detector}
  {sources : Finset Src}
  {event : PacketEvent}
  {now : U64}

/-- The table never runs full with few enough sources. -/
theorem observe_of_roomy
    (tracksOnly : detector.TracksOnly sources)
    (few : sources.card ≤ maxTracked)
    (member : Src.of event ∈ sources) :
    detector.observe Score event now =
      if detector.isProtected (Src.of event) then
        (none, detector)
      else
        detector.observeTracked Score event now := by
  have roomy : detector.hasRoom (Src.of event) := by
    by_cases tracked : Src.of event ∈ detector.tracks
    · exact .inr tracked
    · exact .inl ((Table.size_lt_card tracksOnly member tracked).trans_le few)
  have keeps : detector.makeRoom (Src.of event) now = detector := by
    unfold makeRoom
    rw [if_neg]
    rintro ⟨isFull, missing⟩
    rcases roomy with space | tracked
    · exact absurd isFull (Nat.not_le.mpr space)
    · exact missing tracked
  unfold observe
  dsimp only
  rw [keeps, if_neg (not_not.mpr roomy)]

theorem tracksOnly_prune
    (tracksOnly : detector.TracksOnly sources) :
    (detector.prune now).TracksOnly sources := by
  intro ip member
  refine tracksOnly ip (AList.lookup_isSome.mp ?_)
  have kept := AList.lookup_isSome.mpr member
  rw [prune, Table.lookup_retain] at kept
  cases found : detector.tracks.lookup ip with
  | none =>
      rw [found] at kept
      cases kept
  | some track => rfl

theorem tracksOnly_observeTracked
    (tracksOnly : detector.TracksOnly sources)
    (member : Src.of event ∈ sources) :
    (detector.observeTracked Score event now).2.TracksOnly sources := by
  cases reached : detector.full Score event now with
  | false =>
      rw [(observeTracked_of_not_full reached).2]
      intro ip tracked
      rcases (AList.mem_insert _).mp tracked with same | old
      · rw [same]
        exact member
      · exact tracksOnly ip old
  | true =>
      obtain ⟨ban, after, _⟩ := observeTracked_of_full reached
      rw [after]
      intro ip tracked
      exact tracksOnly ip (AList.mem_erase.mp tracked).2

end

end Detector

theorem card_single_le (source : Src) :
    ({source} : Finset Src).card ≤ maxTracked := by
  rw [Finset.card_singleton]
  decide

/-- A detector among many sources, and one that sees a single source. -/
structure Twins
    (source : Src)
    (clock : U64)
    (crowded alone : Detector) : Prop where
  cfg : crowded.cfg = alone.cfg
  bans : crowded.bans = alone.bans
  sameProtected :
    ∀ ip, crowded.isProtected ip = alone.isProtected ip
  tracks :
    Alike alone.cfg clock (crowded.tracks.lookup source)
      ((alone.tracks.lookup source).getD .default)
  offenders :
    Remembers alone.bans.forgiveSecs clock
      (alone.offenders.lookup source) (crowded.offenders.lookup source)

namespace Twins

section

variable
  {Score : Type}
  [ScoreArith Score]
  {source : Src}
  {clock now : U64}
  {crowded alone : Detector}
  {event : PacketEvent}

theorem later
    (twins : Twins source clock crowded alone)
    (ordered : clock ≤ now) :
    Twins source now crowded alone :=
  { twins with
    tracks := twins.tracks.later ordered
    offenders := twins.offenders.later ordered }

/-- Pruning one of them is not noticed. -/
theorem prune
    (twins : Twins source now crowded alone) :
    Twins source now (crowded.prune now) alone where
  cfg := twins.cfg
  bans := twins.bans
  sameProtected ip := by
    rw [← twins.sameProtected ip]
    cases ip <;> rfl
  tracks := by
    have alike := twins.tracks
    rw [← twins.cfg] at alike ⊢
    exact alike.prune
  offenders := by
    have remembers := twins.offenders
    rw [← twins.bans] at remembers ⊢
    exact remembers.prune

/-- Nor is an event of another source. -/
theorem other
    (twins : Twins source now crowded alone)
    (isOther : Src.of event ≠ source) :
    Twins source now (crowded.observeTracked Score event now).2 alone ∧
      ∀ ban ∈ (crowded.observeTracked Score event now).1,
        ban.ip ≠ source := by
  cases reached : crowded.full Score event now with
  | false =>
      obtain ⟨noBan, after⟩ := Detector.observeTracked_of_not_full reached
      rw [noBan, after]
      refine ⟨{ twins with tracks := ?_ }, nofun⟩
      rw [Table.lookup_insert_eq, if_neg isOther.symm]
      exact twins.tracks
  | true =>
      obtain ⟨ban, after, isIp, _⟩ :=
        Detector.observeTracked_of_full reached
      rw [after]
      refine ⟨{ twins with tracks := ?_, offenders := ?_ }, ?_⟩
      · rw [Table.lookup_erase_eq, if_neg isOther.symm]
        exact twins.tracks
      · rw [Table.lookup_insert_eq, if_neg isOther.symm]
        exact twins.offenders
      · intro issued isBan
        cases isBan
        rw [isIp]
        exact isOther

/-- Of an event of the source both make the same. -/
theorem own
    (twins : Twins (Src.of event) now crowded alone) :
    Twins (Src.of event) now (crowded.observeTracked Score event now).2
        (alone.observeTracked Score event now).2 ∧
      (crowded.observeTracked Score event now).1 =
        (alone.observeTracked Score event now).1 := by
  have sameTrack :
      crowded.trackAfter event now = alone.trackAfter event now := by
    rw [Detector.trackAfter, Detector.trackAfter, twins.cfg]
    exact twins.tracks event now (BitVec.le_refl _)
  have sameFull :
      crowded.full Score event now = alone.full Score event now := by
    rw [Detector.full, Detector.full, sameTrack, twins.cfg]
  have sameOffence :
      crowded.offence event now = alone.offence event now := by
    rw [Detector.offence, Detector.offence, twins.bans,
      twins.offenders.again]
  cases reached : alone.full Score event now with
  | false =>
      obtain ⟨crowdedNone, crowdedAfter⟩ :=
        Detector.observeTracked_of_not_full (sameFull.trans reached)
      obtain ⟨aloneNone, aloneAfter⟩ :=
        Detector.observeTracked_of_not_full reached
      rw [crowdedNone, crowdedAfter, aloneNone, aloneAfter, sameTrack]
      refine ⟨{ twins with tracks := ?_ }, rfl⟩
      rw [Table.lookup_insert_eq, Table.lookup_insert_eq, if_pos rfl,
        if_pos rfl]
      exact fun _ _ _ => rfl
  | true =>
      rw [Detector.observeTracked_eq_of_full (sameFull.trans reached),
        Detector.observeTracked_eq_of_full reached, sameTrack, sameOffence,
        twins.cfg, twins.bans]
      refine ⟨⟨rfl, rfl, twins.sameProtected, ?_, .inl ?_⟩, rfl⟩
      · rw [Table.lookup_erase_eq, Table.lookup_erase_eq, if_pos rfl,
          if_pos rfl]
        exact fun _ _ _ => rfl
      · rw [Table.lookup_insert_eq, Table.lookup_insert_eq, if_pos rfl,
          if_pos rfl]

/-- An event that is not counted apart: the same for all of `observe`. -/
theorem observe_own
    (Score : Type)
    [ScoreArith Score]
    {sources : Finset Src}
    (twins : Twins (Src.of event) now crowded alone)
    (crowd : crowded.TracksOnly sources)
    (few : sources.card ≤ maxTracked)
    (member : Src.of event ∈ sources)
    (single : alone.TracksOnly {Src.of event}) :
    Twins (Src.of event) now (crowded.observe Score event now).2
        (alone.observe Score event now).2 ∧
      (crowded.observe Score event now).1 =
        (alone.observe Score event now).1 := by
  rw [Detector.observe_of_roomy crowd few member,
    Detector.observe_of_roomy single (card_single_le _)
      (Finset.mem_singleton_self _),
    twins.sameProtected]
  split
  · exact ⟨twins, rfl⟩
  · exact twins.own

theorem observe_other
    (Score : Type)
    [ScoreArith Score]
    {sources : Finset Src}
    (twins : Twins source now crowded alone)
    (crowd : crowded.TracksOnly sources)
    (few : sources.card ≤ maxTracked)
    (member : Src.of event ∈ sources)
    (isOther : Src.of event ≠ source) :
    Twins source now (crowded.observe Score event now).2 alone ∧
      ∀ ban ∈ (crowded.observe Score event now).1, ban.ip ≠ source := by
  rw [Detector.observe_of_roomy crowd few member]
  split
  · exact ⟨twins, nofun⟩
  · exact twins.other isOther

end

end Twins

section

variable
  {Score : Type}
  [ScoreArith Score]
  {source : Src}
  {clock : U64}
  {crowded alone : Detector}
  {sources : Finset Src}
  {ops : List DetectorOp}

theorem tracksOnly_observe
    {detector : Detector}
    {event : PacketEvent}
    {now : U64}
    (tracksOnly : detector.TracksOnly sources)
    (few : sources.card ≤ maxTracked)
    (member : Src.of event ∈ sources) :
    (detector.observe Score event now).2.TracksOnly sources := by
  rw [Detector.observe_of_roomy tracksOnly few member]
  split
  · exact tracksOnly
  · exact Detector.tracksOnly_observeTracked tracksOnly member

/-- From twins on, the bans of the source are those of its own events. -/
theorem bansOf_twins
    (twins : Twins source clock crowded alone)
    (crowd : crowded.TracksOnly sources)
    (single : alone.TracksOnly {source})
    (few : sources.card ≤ maxTracked)
    (inSources : ∀ op ∈ ops, ∀ ip ∈ op.source?, ip ∈ sources)
    (constant :
      ∀ op ∈ ops, ∀ protected4 protected6,
        op ≠ .setProtected protected4 protected6)
    (ordered :
      (clock :: ops.filterMap DetectorOp.clock?).Pairwise (· ≤ ·)) :
    bansOf Score source crowded ops =
      bansOf Score source alone (ops.filter (DetectorOp.isOwn source)) := by
  induction ops generalizing clock crowded alone with
  | nil =>
      rfl
  | cons op rest inductionHypothesis =>
      obtain ⟨headIn, restIn⟩ := List.forall_mem_cons.mp inSources
      obtain ⟨headConstant, restConstant⟩ :=
        List.forall_mem_cons.mp constant
      cases op with
      | setProtected protected4 protected6 =>
          exact absurd rfl (headConstant protected4 protected6)
      | prune now =>
          change
            (clock :: now ::
              rest.filterMap DetectorOp.clock?).Pairwise (· ≤ ·)
            at ordered
          have first : clock ≤ now :=
            List.rel_of_pairwise_cons ordered List.mem_cons_self
          exact inductionHypothesis (twins.later first).prune
            (Detector.tracksOnly_prune crowd) single restIn restConstant
            (List.Pairwise.of_cons ordered)
      | observe event now =>
          change
            (clock :: now ::
              rest.filterMap DetectorOp.clock?).Pairwise (· ≤ ·)
            at ordered
          have first : clock ≤ now :=
            List.rel_of_pairwise_cons ordered List.mem_cons_self
          have later := List.Pairwise.of_cons ordered
          have member : Src.of event ∈ sources := headIn _ rfl
          have nextCrowd :
              (crowded.observe Score event now).2.TracksOnly sources :=
            tracksOnly_observe crowd few member
          by_cases isOwn : Src.of event = source
          · subst isOwn
            obtain ⟨nextTwins, sameBan⟩ :=
              (twins.later first).observe_own Score crowd few member single
            have nextSingle :
                (alone.observe Score event now).2.TracksOnly
                  {Src.of event} :=
              tracksOnly_observe single (card_single_le _)
                (Finset.mem_singleton_self _)
            have tail :=
              inductionHypothesis nextTwins nextCrowd nextSingle restIn
                restConstant later
            have isKept :
                DetectorOp.isOwn (Src.of event) (.observe event now) =
                  true :=
              decide_eq_true rfl
            rw [List.filter_cons_of_pos isKept]
            simp only [bansOf, DetectorOp.apply, DetectorOp.clock?]
            rw [sameBan, tail]
          · obtain ⟨nextTwins, noBan⟩ :=
              (twins.later first).observe_other Score crowd few member
                isOwn
            have tail :=
              inductionHypothesis nextTwins nextCrowd single restIn
                restConstant later
            have isDropped :
                ¬DetectorOp.isOwn source (.observe event now) = true := by
              rw [DetectorOp.isOwn, decide_eq_true_iff]
              exact isOwn
            rw [List.filter_cons_of_neg isDropped, ← tail]
            simp only [bansOf, DetectorOp.apply, DetectorOp.clock?]
            cases issued : (crowded.observe Score event now).1 with
            | none => rfl
            | some ban => exact if_neg (noBan ban issued)

/--
The bans of a source in a run over few enough sources, with pruning anywhere,
are those of a fresh detector that sees the events of this source alone.
-/
theorem sources_do_not_interfere
    (cfg : DetectorConfig)
    (bans : BanConfig)
    (protected4 : List Cidr)
    (protected6 : List U64)
    (ops : List DetectorOp)
    (constant :
      ∀ op ∈ ops, ∀ protected4 protected6,
        op ≠ .setProtected protected4 protected6)
    (ordered : (ops.filterMap DetectorOp.clock?).Pairwise (· ≤ ·))
    (few : (ops.filterMap DetectorOp.source?).toFinset.card ≤ maxTracked)
    (source : Src) :
    let start := Detector.fresh cfg bans protected4 protected6
    bansOf Score source start ops =
      bansOf Score source start
        (ops.filter (DetectorOp.isOwn source)) := by
  have nobody
      (sources : Finset Src) :
      (Detector.fresh cfg bans protected4 protected6).TracksOnly
        sources := by
    intro ip tracked
    cases tracked
  have twins :
      Twins source 0
        (Detector.fresh cfg bans protected4 protected6)
        (Detector.fresh cfg bans protected4 protected6) :=
    ⟨rfl, rfl, fun _ => rfl, fun _ _ _ => rfl, .inl rfl⟩
  refine bansOf_twins twins (nobody _) (nobody _) few ?_ constant ?_
  · intro op member ip isSource
    exact List.mem_toFinset.mpr
      (List.mem_filterMap.mpr ⟨op, member, isSource⟩)
  · exact List.pairwise_cons.mpr
      ⟨fun _ _ => Nat.zero_le _, ordered⟩

end

/-- Two scanning sources side by side, with a pruning in between. -/
def sideBySide : List DetectorOp :=
  [.observe nullScan 3,
    .observe { nullScan with srcIp := 0x0a000006 } 4,
    .observe nullScan 5, .prune 8,
    .observe { nullScan with srcIp := 0x0a000006 } 9,
    .observe nullScan 9]

/-- One of them is banned for its own three events. -/
theorem sideBySide_bans :
    bansOf ℚ attacker (Detector.fresh .default .default [] []) sideBySide =
      bansOf ℚ attacker (Detector.fresh .default .default [] [])
        [.observe nullScan 3, .observe nullScan 5, .observe nullScan 9] :=
  sources_do_not_interfere .default .default [] [] sideBySide
    (by simp [sideBySide])
    (by decide) (by decide) attacker

example :
    (bansOf ℚ attacker (Detector.fresh .default .default [] [])
      sideBySide).length = 1 := by
  decide +kernel

end AiFirewall
