import AiFirewall.BanEscalation
import AiFirewall.DaemonSteps
import AiFirewall.Runs

namespace AiFirewall

/-!
# One burst, one strike

A ban stops the packets of its source in the kernel, but not the events that
are queued already.  The detector forgets the track of a source it bans, so
those events start a new one; nothing asks whether the source is banned.  The
main result says when the rest of a burst brings no second ban.
-/

/-- What the daemon does while a ban runs. -/
inductive BurstStep where
  /-- One event of a batch. -/
  | seen (host : Host) (event : PacketEvent)
  /-- The sweep and the pruning of a tick. -/
  | tick (host : Host)

namespace BurstStep

def host : BurstStep → Host
  | .seen host _ => host
  | .tick host => host

def apply {Score : Type} [ScoreArith Score]
    (shared : Shared Score) :
    BurstStep → Shared Score
  | .seen host event => shared.handleEvent host event
  | .tick host =>
      let swept := shared.sweep host
      { swept with detector := swept.detector.prune host.bootSecs }

end BurstStep

/-- A daemon, and the events of one source in a track of their own. -/
structure Watched (Score : Type) where
  shared : Shared Score
  track : Track
  /-- The boot clock when it was last read. -/
  clock : U64

namespace Watched

variable {Score : Type}

/-- The own track with one more event, if the step brings one. -/
def adds
    (source : Src)
    (watched : Watched Score) :
    BurstStep → Option Track
  | .seen host event =>
      if Src.of event = source ∧
          watched.shared.detector.counts event host.bootSecs then
        some
          (watched.track.record watched.shared.detector.cfg event
            host.bootSecs)
      else
        none
  | .tick _ => none

variable [ScoreArith Score]

/-- The step brings an event that fills the own track. -/
def Fills
    (source : Src)
    (watched : Watched Score)
    (step : BurstStep) : Prop :=
  ∃ track ∈ watched.adds source step,
    track.isFull Score watched.shared.detector.cfg = true

/-- The own track after a step; a full one starts again. -/
def trackAfter
    (source : Src)
    (watched : Watched Score)
    (step : BurstStep) : Track :=
  match watched.adds source step with
  | some track =>
      if track.isFull Score watched.shared.detector.cfg then
        .default
      else
        track
  | none => watched.track

def step
    (source : Src)
    (watched : Watched Score)
    (step : BurstStep) : Watched Score where
  shared := step.apply watched.shared
  track := watched.trackAfter source step
  clock := step.host.bootSecs

/-- The step issues no ban of the source. -/
def NoFurtherBan
    (source : Src)
    (watched : Watched Score) :
    BurstStep → Prop
  | .seen host event =>
      ∀ ban ∈
          (watched.shared.detector.observe Score event host.bootSecs).1,
        ban.ip ≠ source
  | .tick _ => True

end Watched

/-- Two tracks that every later event makes the same. -/
def Alike
    (cfg : DetectorConfig)
    (clock : U64)
    (found : Option Track)
    (track : Track) : Prop :=
  ∀ event now, clock ≤ now →
    (found.getD .default).record cfg event now = track.record cfg event now

/-- In a new window it does not matter what the track was. -/
theorem record_of_new_window
    {cfg : DetectorConfig}
    {track : Track}
    {now : U64}
    (event : PacketEvent)
    (passed : cfg.windowSecs ≤ U64.saturatingSub now track.windowStart) :
    track.record cfg event now = Track.default.record cfg event now := by
  have sinceBoot :
      cfg.windowSecs ≤ U64.saturatingSub now Track.default.windowStart := by
    rw [BitVec.le_def, U64.toNat_saturatingSub] at passed ⊢
    have started : Track.default.windowStart.toNat = 0 := rfl
    omega
  simp only [Track.record, passed, sinceBoot, ↓reduceIte]

namespace Alike

variable
  {cfg : DetectorConfig}
  {clock now : U64}
  {found : Option Track}
  {track : Track}

theorem later
    (alike : Alike cfg clock found track)
    (ordered : clock ≤ now) :
    Alike cfg now found track := by
  intro event time after
  exact alike event time (BitVec.le_trans ordered after)

/-- Pruning drops only a track whose window is over. -/
theorem prune
    {detector : Detector}
    {source : Src}
    (alike :
      Alike detector.cfg now (detector.tracks.lookup source) track) :
    Alike detector.cfg now ((detector.prune now).tracks.lookup source)
      track := by
  intro event time after
  rw [← alike event time after, Detector.prune, Table.lookup_retain]
  cases known : detector.tracks.lookup source with
  | none => rfl
  | some found =>
      by_cases kept :
          U64.saturatingSub now found.windowStart < detector.cfg.windowSecs
      · rw [Option.filter_some, if_pos (decide_eq_true kept)]
      · have passed :
            detector.cfg.windowSecs ≤
              U64.saturatingSub time found.windowStart := by
          rw [BitVec.lt_def, U64.toNat_saturatingSub] at kept
          rw [BitVec.le_def] at after ⊢
          rw [U64.toNat_saturatingSub]
          omega
        rw [Option.filter_some, if_neg (by simpa using kept),
          Option.getD_some, record_of_new_window event passed]
        rfl

theorem makeRoom
    {detector : Detector}
    {source ip : Src}
    (alike :
      Alike detector.cfg now (detector.tracks.lookup source) track) :
    Alike detector.cfg now ((detector.makeRoom ip now).tracks.lookup source)
      track := by
  rcases detector.makeRoom_cases ip now with same | pruned
  · rw [same]
    exact alike
  · rw [pruned]
    exact alike.prune

end Alike

/-- The own track says what the detector will do about its source. -/
def Faithful {Score : Type} (source : Src) (watched : Watched Score) : Prop :=
  Alike watched.shared.detector.cfg watched.clock
    (watched.shared.detector.tracks.lookup source) watched.track

section

variable
  {Score : Type}
  [ScoreArith Score]
  {source : Src}
  {watched : Watched Score}

/-- An event of the source that counts brings a ban if the track is full. -/
theorem seen_own_event
    {host : Host}
    {event : PacketEvent}
    (ordered : watched.clock ≤ host.bootSecs)
    (faithful : Faithful (Src.of event) watched)
    (counted :
      watched.shared.detector.counts event host.bootSecs = true) :
    (watched.NoFurtherBan (Src.of event) (.seen host event) ↔
        ¬watched.Fills (Src.of event) (.seen host event)) ∧
      Faithful (Src.of event)
        (watched.step (Src.of event) (.seen host event)) := by
  let detector := watched.shared.detector
  let room := detector.makeRoom (Src.of event) host.bootSecs
  let track := watched.track.record detector.cfg event host.bootSecs
  have added : watched.adds (Src.of event) (.seen host event) = some track :=
    if_pos ⟨rfl, counted⟩
  have sameCfg : room.cfg = detector.cfg := detector.makeRoom_cfg _ _
  have sameTrack : room.trackAfter event host.bootSecs = track := by
    have roomy :
        Alike detector.cfg host.bootSecs
          (room.tracks.lookup (Src.of event)) watched.track :=
      (faithful.later ordered).makeRoom
    rw [Detector.trackAfter, sameCfg]
    exact roomy event host.bootSecs (BitVec.le_refl _)
  have fills :
      watched.Fills (Src.of event) (.seen host event) ↔
        track.isFull Score detector.cfg = true := by
    simp [Watched.Fills, added, detector]
  have sameFull :
      room.full Score event host.bootSecs =
        track.isFull Score detector.cfg := by
    rw [Detector.full, sameTrack, sameCfg]
  have observed :
      detector.observe Score event host.bootSecs =
        room.observeTracked Score event host.bootSecs :=
    Detector.observe_of_counts counted
  have nextTrack :
      (watched.step (Src.of event) (.seen host event)).track =
        if track.isFull Score detector.cfg then .default else track := by
    simp only [Watched.step, Watched.trackAfter, added]
    rfl
  have nextDetector :
      (watched.step (Src.of event)
          (.seen host event)).shared.detector =
        (room.observeTracked Score event host.bootSecs).2 := by
    rw [← observed]
    exact Shared.handleEvent_detector _ _ _
  rw [fills, Watched.NoFurtherBan, Faithful, nextTrack, nextDetector]
  cases full : track.isFull Score detector.cfg with
  | false =>
      obtain ⟨noBan, after⟩ :=
        Detector.observeTracked_of_not_full (sameFull.trans full)
      refine ⟨iff_of_true ?_ Bool.false_ne_true, ?_⟩
      · intro ban issued
        rw [show (watched.shared.detector.observe Score event
          host.bootSecs).1 = none from observed ▸ noBan] at issued
        cases issued
      · rw [after, sameTrack]
        intro other now _
        rw [Table.lookup_insert_eq, if_pos rfl]
        rfl
  | true =>
      obtain ⟨ban, after, isSource, _⟩ :=
        Detector.observeTracked_of_full (sameFull.trans full)
      refine ⟨iff_of_false ?_ (not_not.mpr rfl), ?_⟩
      · intro noBan
        refine noBan ban ?_ isSource
        rw [show watched.shared.detector.observe Score event
          host.bootSecs = _ from observed.trans after]
        rfl
      · rw [after]
        intro other now _
        rw [Table.lookup_erase_eq, if_pos rfl]
        rfl

/-- Every other event leaves the track of the source as good as it was. -/
theorem seen_other_event
    {host : Host}
    {event : PacketEvent}
    (ordered : watched.clock ≤ host.bootSecs)
    (faithful : Faithful source watched)
    (notOwn :
      ¬(Src.of event = source ∧
        watched.shared.detector.counts event host.bootSecs = true)) :
    (watched.NoFurtherBan source (.seen host event) ↔
        ¬watched.Fills source (.seen host event)) ∧
      Faithful source (watched.step source (.seen host event)) := by
  let detector := watched.shared.detector
  have added : watched.adds source (.seen host event) = none :=
    if_neg notOwn
  have fills : ¬watched.Fills source (.seen host event) := by
    simp [Watched.Fills, added]
  have nextTrack :
      (watched.step source (.seen host event)).track = watched.track := by
    simp only [Watched.step, Watched.trackAfter, added]
  have nextDetector :
      (watched.step source (.seen host event)).shared.detector =
        (detector.observe Score event host.bootSecs).2 :=
    Shared.handleEvent_detector _ _ _
  have alike :
      Alike detector.cfg host.bootSecs (detector.tracks.lookup source)
        watched.track :=
    faithful.later ordered
  rw [iff_true_right fills, Watched.NoFurtherBan, Faithful, nextTrack,
    nextDetector]
  cases counted : detector.counts event host.bootSecs with
  | false =>
      obtain ⟨noBan, after⟩ := Detector.observe_of_not_counts Score counted
      refine ⟨?_, ?_⟩
      · intro ban issued
        rw [noBan] at issued
        cases issued
      · rcases after with same | pruned
        · rw [same]
          exact alike
        · rw [pruned]
          exact alike.prune
  | true =>
      have otherSource : source ≠ Src.of event :=
        fun same => notOwn ⟨same.symm, counted⟩
      let room := detector.makeRoom (Src.of event) host.bootSecs
      have sameCfg : room.cfg = detector.cfg := detector.makeRoom_cfg _ _
      have roomy :
          Alike room.cfg host.bootSecs (room.tracks.lookup source)
            watched.track := by
        rw [sameCfg]
        exact alike.makeRoom
      have observed :
          detector.observe Score event host.bootSecs =
            room.observeTracked Score event host.bootSecs :=
        Detector.observe_of_counts counted
      rw [show watched.shared.detector.observe Score event host.bootSecs =
        _ from observed]
      cases full : room.full Score event host.bootSecs with
      | false =>
          obtain ⟨noBan, after⟩ := Detector.observeTracked_of_not_full full
          refine ⟨?_, ?_⟩
          · intro ban issued
            rw [noBan] at issued
            cases issued
          · rw [after, Table.lookup_insert_eq, if_neg otherSource]
            exact roomy
      | true =>
          obtain ⟨ban, after, isOther, _⟩ :=
            Detector.observeTracked_of_full full
          rw [after]
          refine ⟨?_, ?_⟩
          · intro issued isBan
            cases isBan
            rw [isOther]
            exact Ne.symm otherSource
          · rw [Table.lookup_erase_eq, if_neg otherSource]
            exact roomy

/-- Whatever the step, a full own track and a further ban go together. -/
theorem step_faithful
    {step : BurstStep}
    (ordered : watched.clock ≤ step.host.bootSecs)
    (faithful : Faithful source watched) :
    (watched.NoFurtherBan source step ↔ ¬watched.Fills source step) ∧
      Faithful source (watched.step source step) := by
  cases step with
  | seen host event =>
      by_cases own :
          Src.of event = source ∧
            watched.shared.detector.counts event host.bootSecs = true
      · obtain ⟨isSource, counted⟩ := own
        subst isSource
        exact seen_own_event ordered faithful counted
      · exact seen_other_event ordered faithful own
  | tick host =>
      refine ⟨iff_of_true trivial ?_, ?_⟩
      · rintro ⟨track, isAdded, _⟩
        cases isAdded
      · have alike :
            Alike watched.shared.detector.cfg host.bootSecs
              (watched.shared.detector.tracks.lookup source)
              watched.track :=
          faithful.later ordered
        dsimp only [Faithful, Watched.step, BurstStep.apply, BurstStep.host]
        rw [Shared.sweep_detector]
        exact alike.prune

/-- What a ban leaves behind: the strikes of its source, and its end. -/
structure Stands
    (source : Src)
    (strikes : U32)
    (expiry : U64)
    (watched : Watched Score) : Prop where
  strikes :
    ∀ offender ∈ watched.shared.detector.offenders.lookup source,
      offender.strikes = strikes
  expiry : watched.shared.blocklist.lookup source = some expiry

/-- A ban stands while it runs and no further ban of its source comes. -/
theorem step_stands
    {step : BurstStep}
    {strikes : U32}
    {expiry : U64}
    (stands : Stands source strikes expiry watched)
    (running : remaining step.host expiry ≠ none)
    (noBan : watched.NoFurtherBan source step) :
    Stands source strikes expiry (watched.step source step) := by
  have fewer :
      ∀ {found : Option Offender} {forgiveSecs now : U64},
        Remembers forgiveSecs now
          (watched.shared.detector.offenders.lookup source) found →
        ∀ offender ∈ found, offender.strikes = strikes := by
    intro found forgiveSecs now remembers offender isFound
    rcases remembers with same | ⟨gone, _⟩
    · rw [same] at isFound
      exact stands.strikes offender isFound
    · rw [gone] at isFound
      cases isFound
  cases step with
  | seen host event =>
      have called :
          Called source host.bootSecs
            (watched.shared.detector.offenders.lookup source)
            watched.shared.detector
            (watched.shared.detector.observe Score event host.bootSecs).1
            (watched.shared.detector.observe Score event host.bootSecs).2 :=
        observe_called event (.inl rfl)
      constructor
      · dsimp only [Watched.step, BurstStep.apply]
        rw [Shared.handleEvent_detector]
        exact fewer (called.quiet noBan)
      · dsimp only [Watched.step, BurstStep.apply, Shared.handleEvent]
        cases issued :
            (watched.shared.detector.observe Score event
              host.bootSecs).1 with
        | none => exact stands.expiry
        | some ban =>
            have other : source ≠ ban.ip := Ne.symm (noBan ban issued)
            exact (Shared.enact_lookup_of_ne _ _ _ other).trans
              stands.expiry
  | tick host =>
      constructor
      · dsimp only [Watched.step, BurstStep.apply]
        rw [Shared.sweep_detector]
        exact fewer (Remembers.prune (.inl rfl))
      · refine (Shared.sweep_lookup_of_running ?_).trans stands.expiry
        intro found isFound
        rw [stands.expiry] at isFound
        cases isFound
        exact running

/-- The boot clock does not run backwards. -/
def Watched.InOrder (watched : Watched Score) (step : BurstStep) : Prop :=
  watched.clock ≤ step.host.bootSecs

/-- The moment after a ban was placed: a daemon with an empty own track. -/
def afterBan
    (host : Host)
    (shared : Shared Score)
    (event : PacketEvent) : Watched Score where
  shared := shared.handleEvent host event
  track := .default
  clock := host.bootSecs

theorem afterBan_faithful
    {shared : Shared Score}
    {host : Host}
    {event : PacketEvent}
    {ban : Ban Score}
    (issued :
      (shared.detector.observe Score event host.bootSecs).1 = some ban) :
    Faithful ban.ip (afterBan host shared event) := by
  cases tripped : shared.detector.trips Score event host.bootSecs with
  | false =>
      rw [(Detector.observe_of_not_trips tripped).1] at issued
      cases issued
  | true =>
      obtain ⟨room, other, _, observed, banIp, _⟩ :=
        Detector.observe_of_trips tripped
      rw [observed] at issued
      cases issued
      dsimp only [Faithful, afterBan]
      rw [Shared.handleEvent_detector, observed, banIp]
      intro later now _
      rw [Table.lookup_erase_eq, if_pos rfl]
      rfl

theorem afterBan_stands
    {shared : Shared Score}
    {host : Host}
    {event : PacketEvent}
    {ban : Ban Score}
    {blocklist : Blocklist}
    (enforced : shared.enforce = true)
    (issued :
      (shared.detector.observe Score event host.bootSecs).1 = some ban)
    (placed :
      shared.blocklist.insert? host ban.ip (expiryFor host ban.secs) =
        some blocklist) :
    Stands ban.ip ban.strikes (expiryFor host ban.secs)
        (afterBan host shared event) ∧
      (ban.strikes = 1 ∨
        ∃ offender ∈ shared.detector.offenders.lookup ban.ip,
          ban.strikes = offender.strikes + 1) := by
  have called :
      Called ban.ip host.bootSecs
        (shared.detector.offenders.lookup ban.ip) shared.detector
        (shared.detector.observe Score event host.bootSecs).1
        (shared.detector.observe Score event host.bootSecs).2 :=
    observe_called event (.inl rfl)
  obtain ⟨strikes, _, known⟩ := called.offends ban issued rfl
  refine ⟨⟨?_, ?_⟩, ?_⟩
  · intro offender isFound
    dsimp only [afterBan] at isFound
    rw [Shared.handleEvent_detector, known] at isFound
    cases isFound
    exact strikes.symm
  · dsimp only [afterBan, Shared.handleEvent]
    rw [issued]
    exact Shared.enact_lookup_self enforced placed
  · rw [strikes]
    cases found : shared.detector.offenders.lookup ban.ip with
    | none =>
        left
        simp [Offender.again]
    | some offender =>
        by_cases forgiven :
            shared.detector.bans.forgiveSecs <
              U64.saturatingSub host.bootSecs offender.lastBan
        · left
          simp [Offender.again, forgiven]
        · refine .inr ⟨offender, rfl, ?_⟩
          simp [Offender.again, forgiven]

/--
Once a ban is placed, and as long as it runs, its source gets no further ban
and keeps its strikes, and the ban keeps its end, exactly when the events of
the source that are handled meanwhile do not fill a track of their own.  The
ban itself is one strike.
-/
theorem one_burst_one_strike_iff
    {shared : Shared Score}
    {host : Host}
    {event : PacketEvent}
    {ban : Ban Score}
    {blocklist : Blocklist}
    {steps : List BurstStep}
    (enforced : shared.enforce = true)
    (issued :
      (shared.detector.observe Score event host.bootSecs).1 = some ban)
    (placed :
      shared.blocklist.insert? host ban.ip (expiryFor host ban.secs) =
        some blocklist)
    (ordered :
      Runs.Stepwise
        (fun past =>
          (Runs.run (Watched.step ban.ip) (afterBan host shared event)
            past).InOrder)
        steps)
    (running :
      ∀ step ∈ steps,
        remaining step.host (expiryFor host ban.secs) ≠ none) :
    let reached :=
      Runs.run (Watched.step ban.ip) (afterBan host shared event)
    (ban.strikes = 1 ∨
        ∃ offender ∈ shared.detector.offenders.lookup ban.ip,
          ban.strikes = offender.strikes + 1) ∧
      (Runs.Stepwise (fun past => (reached past).NoFurtherBan ban.ip) steps ∧
          Stands ban.ip ban.strikes (expiryFor host ban.secs)
            (reached steps) ↔
        Runs.Stepwise
          (fun past step => ¬(reached past).Fills ban.ip step) steps) := by
  intro reached
  obtain ⟨standsAtStart, oneStrike⟩ :=
    afterBan_stands enforced issued placed
  refine ⟨oneStrike, ?_⟩
  have faithfulAt :
      ∀ past step rest, steps = past ++ step :: rest →
        Faithful ban.ip (reached past) := by
    intro past step rest shape
    subst shape
    refine ordered.before.invariant
      (fun _ (watched : Watched Score) => Faithful ban.ip watched)
      (afterBan_faithful issued) ?_
    intro past step inOrder faithful
    exact (step_faithful inOrder faithful).2
  have sameCondition :
      Runs.Stepwise (fun past => (reached past).NoFurtherBan ban.ip) steps ↔
        Runs.Stepwise
          (fun past step => ¬(reached past).Fills ban.ip step) steps :=
    forall₄_congr fun past step rest shape =>
      (step_faithful (ordered past step rest shape)
        (faithfulAt past step rest shape)).1
  rw [← sameCondition, and_iff_left_iff_imp]
  intro noFurtherBan
  have stillRunning :
      Runs.Stepwise
        (fun _ (step : BurstStep) =>
          remaining step.host (expiryFor host ban.secs) ≠ none) steps := by
    intro past step rest shape
    exact running step (by simp [shape])
  refine (stillRunning.and noFurtherBan).invariant
    (fun _ (watched : Watched Score) =>
      Stands ban.ip ban.strikes (expiryFor host ban.secs) watched)
    standsAtStart ?_
  intro past step conditions stands
  exact step_stands stands conditions.1 conditions.2

end

/-! Null scans that are queued when the ban starts. -/

def burstHost : Host :=
  clockedHost 100 1700000000

/-- Three scans are one ban of two minutes; six in one batch are two. -/
theorem six_scans_in_a_batch_are_two_strikes :
    let story (scans : Nat) :=
      let shared :=
        freshShared.handleBatch burstHost (List.replicate scans nullScan)
      ((shared.detector.offenders.lookup attacker).map
          fun offender => offender.strikes.toNat,
        (shared.blocklist.lookup attacker).map BitVec.toNat,
        shared.recent.map fun ban => ban.secs.toNat)
    story 3 = (some 1, some 220000000000, [120]) ∧
      story 6 = (some 2, some 340000000000, [120, 240]) := by
  decide +kernel

/-- The attacker is one scan away from its ban. -/
def almostBanned : Shared ℚ :=
  freshShared.handleBatch burstHost (List.replicate 2 nullScan)

/-- The ban that the third scan brings. -/
def thirdScanBan : Ban ℚ :=
  (almostBanned.detector.observe ℚ nullScan burstHost.bootSecs).1.get
    (by decide +kernel)

/-- A fourth scan is harmless. -/
theorem fourth_scan_is_no_second_strike :
    Stands thirdScanBan.ip thirdScanBan.strikes
      (expiryFor burstHost thirdScanBan.secs)
      (Runs.run (Watched.step thirdScanBan.ip)
        (afterBan burstHost almostBanned nullScan)
        [.seen burstHost nullScan]) := by
  have accepted :
      (almostBanned.blocklist.insert? burstHost thirdScanBan.ip
        (expiryFor burstHost thirdScanBan.secs)).isSome := by
    decide +kernel
  have notFull :
      ¬(afterBan burstHost almostBanned nullScan).Fills thirdScanBan.ip
        (.seen burstHost nullScan) := by
    unfold Watched.Fills
    decide +kernel
  have inOrder :
      (afterBan burstHost almostBanned nullScan).InOrder
        (.seen burstHost nullScan) :=
    BitVec.le_refl _
  have running :
      remaining burstHost (expiryFor burstHost thirdScanBan.secs) ≠
        none := by
    decide +kernel
  have oneStrike :=
    one_burst_one_strike_iff
      (show almostBanned.enforce = true by decide +kernel)
      (Option.some_get _).symm (Option.some_get accepted).symm
      (Runs.Stepwise.nil.concat inOrder)
      (List.forall_mem_singleton.mpr running)
  exact (oneStrike.2.mpr (Runs.Stepwise.nil.concat notFull)).2

end AiFirewall
