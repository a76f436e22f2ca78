import AiFirewall.BanEscalation
import AiFirewall.DaemonSteps
import AiFirewall.Runs

namespace AiFirewall

/-!
# Quiet time across restarts

The detector measures the time since a ban on the boot clock; the state file
keeps the ban by the wall clock, and a restore translates it back.  A boot
clock that has not run as long as the source was quiet has no name for its
last ban, and the saturating subtraction moves the ban up to the boot.
-/

/-- The end of one daemon and the start of the next. -/
structure Reboot (Score : Type) where
  saved : Host
  restored : Host
  /-- The new daemon before its restore. -/
  start : Shared Score

/-- The steps of a daemon's life that come near the detector. -/
inductive LifeEvent (Score : Type) where
  | seen (host : Host) (event : PacketEvent)
  | prune (host : Host)
  | sweep (host : Host)
  | refresh
      (host : Host)
      (autoProtected : List Cidr)
      (ownV6Prefixes : List U64)
      (cfg : Config)
  | reboot (next : Reboot Score)

section

variable {Score : Type}

def Reboot.apply
    (next : Reboot Score)
    (shared : Shared Score) : Shared Score :=
  next.start.restore next.restored (shared.captured next.saved)

def LifeEvent.apply [ScoreArith Score]
    (shared : Shared Score) :
    LifeEvent Score → Shared Score
  | .seen host event => shared.handleEvent host event
  | .prune host =>
      { shared with detector := shared.detector.prune host.bootSecs }
  | .sweep host => shared.sweep host
  | .refresh host autoProtected ownV6Prefixes cfg =>
      shared.refreshProtection host autoProtected ownV6Prefixes cfg
  | .reboot next => next.apply shared

/-- The last ban of a source, and the wall-clock time since then. -/
structure LastBan where
  /-- The boot clock when it was last read. -/
  clock : U64
  quiet : Nat
  strikes : U32

namespace LastBan

/-- Time goes by on the boot clock. -/
def later (lastBan : LastBan) (clock : U64) : LastBan where
  clock := clock
  quiet := lastBan.quiet + (clock.toNat - lastBan.clock.toNat)
  strikes := lastBan.strikes

/-- Time goes by until a restore: the wall clock counts from the save on. -/
def acrossReboot (lastBan : LastBan) (next : Reboot Score) : LastBan where
  clock := next.restored.bootSecs
  quiet :=
    (lastBan.later next.saved.bootSecs).quiet +
      (next.restored.unixSecs.toNat - next.saved.unixSecs.toNat)
  strikes := lastBan.strikes

def after [ScoreArith Score]
    (source : Src)
    (shared : Shared Score)
    (lastBan : LastBan) :
    LifeEvent Score → LastBan
  | .seen host event =>
      match (shared.detector.observe Score event host.bootSecs).1 with
      | some ban =>
          if ban.ip = source then
            ⟨host.bootSecs, 0, ban.strikes⟩
          else
            lastBan.later host.bootSecs
      | none => lastBan.later host.bootSecs
  | .prune host => lastBan.later host.bootSecs
  | .sweep _ => lastBan
  | .refresh _ _ _ _ => lastBan
  | .reboot next => lastBan.acrossReboot next

end LastBan

/-- A daemon together with the true story of one source. -/
structure Life (Score : Type) where
  shared : Shared Score
  lastBan : LastBan

namespace Life

def step [ScoreArith Score]
    (source : Src)
    (life : Life Score)
    (event : LifeEvent Score) : Life Score where
  shared := event.apply life.shared
  lastBan := life.lastBan.after source life.shared event

/--
The clocks of an event are in order, and a new daemon starts without
offenders and under the same `[bans]`.
-/
def InOrder
    (bans : BanConfig)
    (life : Life Score) :
    LifeEvent Score → Prop
  | .seen host _ => life.lastBan.clock ≤ host.bootSecs
  | .prune host => life.lastBan.clock ≤ host.bootSecs
  | .sweep _ => True
  | .refresh _ _ _ _ => True
  | .reboot next =>
      life.lastBan.clock ≤ next.saved.bootSecs ∧
        next.saved.unixSecs ≤ next.restored.unixSecs ∧
        next.start.detector.offenders = ∅ ∧
        next.start.detector.bans = bans

/-- The wall-clock time from an offender's last ban to a restore. -/
def wallClockQuiet (next : Reboot Score) (offender : Offender) : Nat :=
  (next.restored.unixSecs.toNat - next.saved.unixSecs.toNat) +
    (next.saved.bootSecs.toNat - offender.lastBan.toNat)

/-- A restore keeps the strikes of a source and the time since its ban. -/
def Exact
    (source : Src)
    (life : Life Score) :
    LifeEvent Score → Prop
  | .reboot next =>
      ∀ offender ∈ life.shared.detector.offenders.lookup source,
        ∃ kept ∈ (next.apply life.shared).detector.offenders.lookup source,
          kept.strikes = offender.strikes ∧
            (U64.saturatingSub next.restored.bootSecs kept.lastBan).toNat =
              wallClockQuiet next offender
  | _ => True

/-- Both clocks of a restore have run as long as the source was quiet. -/
def InReach
    (source : Src)
    (life : Life Score) :
    LifeEvent Score → Prop
  | .reboot next =>
      ∀ offender ∈ life.shared.detector.offenders.lookup source,
        wallClockQuiet next offender ≤ next.restored.bootSecs.toNat ∧
          wallClockQuiet next offender ≤ next.restored.unixSecs.toNat
  | _ => True

end Life

/-- An offender through the state file. -/
theorem lookup_reboot
    {next : Reboot Score}
    (fresh : next.start.detector.offenders = ∅)
    (shared : Shared Score)
    (source : Src) :
    (next.apply shared).detector.offenders.lookup source =
      (shared.detector.offenders.lookup source).map fun offender =>
        (Saved.offender next.saved source offender).restored
          next.restored := by
  have keys :
      ((shared.captured next.saved).offenders.map SavedOffender.ip) =
        shared.detector.offenders.toList.map Prod.fst := by
    simp [Shared.captured, Saved.capture, Saved.offender]
  rw [Reboot.apply, Shared.restore_detector, fresh]
  cases known : shared.detector.offenders.lookup source with
  | none =>
      have absent :
          source ∉
            (shared.captured next.saved).offenders.map
              SavedOffender.ip := by
        rw [keys]
        intro inKeys
        obtain ⟨⟨ip, offender⟩, member, isSource⟩ :=
          List.mem_map.mp inKeys
        subst isSource
        rw [Table.mem_toList, known] at member
        cases member
      exact Table.lookup_foldl_insert_of_notMem _ _ _ absent
  | some offender =>
      have member :
          Saved.offender next.saved source offender ∈
            (shared.captured next.saved).offenders :=
        List.mem_map.mpr ⟨_, Table.mem_toList.mpr known, rfl⟩
      have distinct :
          ((shared.captured next.saved).offenders.map
            SavedOffender.ip).Nodup := by
        rw [keys]
        exact Table.nodup_toList _
      exact
        Table.lookup_foldl_insert SavedOffender.ip
          (SavedOffender.restored next.restored) distinct ∅ member

/-- The clock after a restore is never before the ban it restored. -/
theorem restored_lastBan_le (host : Host) (saved : SavedOffender) :
    (saved.restored host).lastBan ≤ host.bootSecs := by
  rw [BitVec.le_def, SavedOffender.restored, U64.toNat_saturatingSub]
  exact Nat.sub_le _ _

/-- What the detector sees: the true quiet time, cut off at both clocks. -/
theorem seen_after_restore
    {next : Reboot Score}
    {offender : Offender}
    (source : Src)
    (wallOrdered : next.saved.unixSecs ≤ next.restored.unixSecs)
    (banFirst : offender.lastBan ≤ next.saved.bootSecs) :
    (U64.saturatingSub next.restored.bootSecs
        ((Saved.offender next.saved source offender).restored
          next.restored).lastBan).toNat =
      min next.restored.bootSecs.toNat
        (min next.restored.unixSecs.toNat
          (Life.wallClockQuiet next offender)) := by
  rw [BitVec.le_def] at wallOrdered banFirst
  simp only [SavedOffender.restored, Saved.offender,
    U64.toNat_saturatingSub, Life.wallClockQuiet]
  omega

/-- The detector's view of a source agrees with its true story. -/
def Dated
    (forgiveSecs : U64)
    (lastBan : LastBan)
    (found : Option Offender) : Prop :=
  (∃ offender,
    found = some offender ∧
      offender.strikes = lastBan.strikes ∧
      offender.lastBan.toNat + lastBan.quiet = lastBan.clock.toNat) ∨
    found = none ∧ forgiveSecs.toNat < lastBan.quiet

namespace Dated

variable
  {forgiveSecs now : U64}
  {lastBan : LastBan}
  {found : Option Offender}

/-- Time goes by, and the detector forgets no more than it forgives. -/
theorem later
    {after : Option Offender}
    (dated : Dated forgiveSecs lastBan found)
    (ordered : lastBan.clock ≤ now)
    (remembers : Remembers forgiveSecs now found after) :
    Dated forgiveSecs (lastBan.later now) after := by
  rw [BitVec.le_def] at ordered
  rcases dated with ⟨offender, known, strikes, since⟩ | ⟨gone, quiet⟩
  · subst known
    rcases remembers with same | ⟨forgotten, forgiven⟩
    · refine .inl ⟨offender, same, strikes, ?_⟩
      dsimp only [LastBan.later]
      omega
    · refine .inr ⟨forgotten, ?_⟩
      have long := forgiven offender rfl
      rw [BitVec.lt_def, U64.toNat_saturatingSub] at long
      dsimp only [LastBan.later]
      omega
  · subst gone
    have stillGone : after = none := by
      rcases remembers with same | ⟨forgotten, _⟩
      · exact same
      · exact forgotten
    refine .inr ⟨stillGone, ?_⟩
    dsimp only [LastBan.later]
    omega

/-- The next offence counts from one exactly after a long enough quiet. -/
theorem again
    (dated : Dated forgiveSecs lastBan found)
    (ordered : lastBan.clock ≤ now) :
    (Offender.again found forgiveSecs now).strikes =
      if forgiveSecs.toNat < (lastBan.later now).quiet then
        1
      else
        lastBan.strikes + 1 := by
  rw [BitVec.le_def] at ordered
  rcases dated with ⟨offender, known, strikes, since⟩ | ⟨gone, quiet⟩
  · subst known
    have sameTest :
        forgiveSecs < U64.saturatingSub now offender.lastBan ↔
          forgiveSecs.toNat < (lastBan.later now).quiet := by
      rw [BitVec.lt_def, U64.toNat_saturatingSub]
      dsimp only [LastBan.later]
      omega
    by_cases forgiven : forgiveSecs.toNat < (lastBan.later now).quiet
    · rw [if_pos forgiven]
      simp [Offender.again, sameTest.mpr forgiven]
    · rw [if_neg forgiven]
      simp [Offender.again, mt sameTest.mp forgiven, strikes]
  · subst gone
    have forgiven : forgiveSecs.toNat < (lastBan.later now).quiet := by
      dsimp only [LastBan.later]
      omega
    rw [if_pos forgiven]
    simp [Offender.again]

/-- A reboot within the reach of both clocks loses no time. -/
theorem reboot
    {next : Reboot Score}
    (source : Src)
    (dated : Dated forgiveSecs lastBan found)
    (ordered : lastBan.clock ≤ next.saved.bootSecs)
    (wallOrdered : next.saved.unixSecs ≤ next.restored.unixSecs)
    (inReach :
      ∀ offender ∈ found,
        Life.wallClockQuiet next offender ≤
            next.restored.bootSecs.toNat ∧
          Life.wallClockQuiet next offender ≤
            next.restored.unixSecs.toNat) :
    Dated forgiveSecs (lastBan.acrossReboot next)
      (found.map fun offender =>
        (Saved.offender next.saved source offender).restored
          next.restored) := by
  rcases dated with ⟨offender, known, strikes, since⟩ | ⟨gone, quiet⟩
  · subst known
    obtain ⟨inBoot, inUnix⟩ := inReach offender rfl
    refine .inl ⟨_, rfl, strikes, ?_⟩
    have banFirst : offender.lastBan ≤ next.saved.bootSecs := by
      rw [BitVec.le_def] at ordered ⊢
      omega
    have seen := seen_after_restore source wallOrdered banFirst
    have inPast :=
      restored_lastBan_le next.restored
        (Saved.offender next.saved source offender)
    rw [U64.toNat_saturatingSub, Nat.min_eq_right inUnix,
      Nat.min_eq_right inBoot] at seen
    rw [BitVec.le_def] at ordered inPast
    dsimp only [LastBan.acrossReboot, LastBan.later]
    rw [Life.wallClockQuiet] at seen
    omega
  · subst gone
    refine .inr ⟨rfl, ?_⟩
    dsimp only [LastBan.acrossReboot, LastBan.later]
    omega

end Dated

section

variable
  [ScoreArith Score]
  {source : Src}
  {life : Life Score}
  {bans : BanConfig}

/-- An event either bans the source, or time just goes by. -/
theorem after_seen
    (source : Src)
    (life : Life Score)
    (host : Host)
    (event : PacketEvent) :
    let known := life.shared.detector.offenders.lookup source
    let next := life.step source (.seen host event)
    let found := next.shared.detector.offenders.lookup source
    next.shared.detector.bans = life.shared.detector.bans ∧
      ((∃ strikes,
          found = some ⟨strikes, host.bootSecs⟩ ∧
            next.lastBan = ⟨host.bootSecs, 0, strikes⟩) ∨
        Remembers life.shared.detector.bans.forgiveSecs host.bootSecs
            known found ∧
          next.lastBan = life.lastBan.later host.bootSecs) := by
  dsimp only [Life.step, LifeEvent.apply, LastBan.after]
  rw [Shared.handleEvent_detector]
  have called :
      Called source host.bootSecs
        (life.shared.detector.offenders.lookup source)
        life.shared.detector
        (life.shared.detector.observe Score event host.bootSecs).1
        (life.shared.detector.observe Score event host.bootSecs).2 :=
    observe_called event (.inl rfl)
  refine ⟨called.bans, ?_⟩
  cases issued :
      (life.shared.detector.observe Score event host.bootSecs).1 with
  | none =>
      exact .inr ⟨called.quiet (by simp [issued]), rfl⟩
  | some ban =>
      by_cases isSource : ban.ip = source
      · obtain ⟨strikes, _, known⟩ := called.offends ban issued isSource
        refine .inl ⟨ban.strikes, ?_, if_pos isSource⟩
        rw [known, strikes]
        rfl
      · refine .inr ⟨called.quiet ?_, if_neg isSource⟩
        intro other isOther
        rw [issued] at isOther
        cases isOther
        exact isSource

/-- In reach of both clocks, every step keeps the story straight. -/
theorem step_dated
    {event : LifeEvent Score}
    (dated :
      life.shared.detector.bans = bans ∧
        Dated bans.forgiveSecs life.lastBan
          (life.shared.detector.offenders.lookup source))
    (ordered : life.InOrder bans event)
    (inReach : life.InReach source event) :
    let next := life.step source event
    next.shared.detector.bans = bans ∧
      Dated bans.forgiveSecs next.lastBan
        (next.shared.detector.offenders.lookup source) := by
  obtain ⟨configured, dated⟩ := dated
  cases event with
  | seen host event =>
      obtain ⟨sameBans, story⟩ := after_seen source life host event
      refine ⟨sameBans.trans configured, ?_⟩
      rcases story with ⟨strikes, found, lastBan⟩ | ⟨remembers, lastBan⟩
      · rw [found, lastBan]
        exact .inl ⟨_, rfl, rfl, rfl⟩
      · rw [lastBan]
        rw [configured] at remembers
        exact dated.later ordered remembers
  | prune host =>
      refine ⟨configured, dated.later ordered ?_⟩
      rw [← configured]
      exact Remembers.prune (.inl rfl)
  | sweep host =>
      dsimp only [Life.step, LifeEvent.apply, LastBan.after]
      rw [Shared.sweep_detector]
      exact ⟨configured, dated⟩
  | refresh host autoProtected ownV6Prefixes cfg =>
      obtain ⟨offenders, sameBans⟩ :=
        life.shared.refreshProtection_detector host autoProtected
          ownV6Prefixes cfg
      dsimp only [Life.step, LifeEvent.apply, LastBan.after]
      rw [offenders, sameBans]
      exact ⟨configured, dated⟩
  | reboot next =>
      obtain ⟨bootOrdered, wallOrdered, fresh, freshBans⟩ := ordered
      dsimp only [Life.step, LifeEvent.apply, LastBan.after]
      constructor
      · rw [Reboot.apply, Shared.restore_detector]
        exact freshBans
      · rw [lookup_reboot fresh]
        exact dated.reboot source bootOrdered wallOrdered inReach

/-- No known ban lies in the future, wherever the clocks have been. -/
theorem step_inPast
    {event : LifeEvent Score}
    (inPast :
      ∀ offender ∈ life.shared.detector.offenders.lookup source,
        offender.lastBan ≤ life.lastBan.clock)
    (ordered : life.InOrder bans event) :
    let next := life.step source event
    ∀ offender ∈ next.shared.detector.offenders.lookup source,
      offender.lastBan ≤ next.lastBan.clock := by
  have remembered :
      ∀ {clock : U64} {found : Option Offender},
        life.lastBan.clock ≤ clock →
        Remembers life.shared.detector.bans.forgiveSecs clock
          (life.shared.detector.offenders.lookup source) found →
        ∀ offender ∈ found, offender.lastBan ≤ clock := by
    intro clock found later remembers offender isFound
    rcases remembers with same | ⟨gone, _⟩
    · subst same
      exact BitVec.le_trans (inPast offender isFound) later
    · subst gone
      cases isFound
  cases event with
  | seen host event =>
      obtain ⟨_, story⟩ := after_seen source life host event
      intro next offender isFound
      rcases story with ⟨strikes, found, lastBan⟩ | ⟨remembers, lastBan⟩
      · rw [found] at isFound
        cases isFound
        rw [lastBan]
        exact BitVec.le_refl _
      · rw [lastBan]
        exact remembered ordered remembers offender isFound
  | prune host =>
      exact remembered ordered (Remembers.prune (.inl rfl))
  | sweep host =>
      dsimp only [Life.step, LifeEvent.apply, LastBan.after]
      rw [Shared.sweep_detector]
      exact inPast
  | refresh host autoProtected ownV6Prefixes cfg =>
      have offenders :=
        (life.shared.refreshProtection_detector host autoProtected
          ownV6Prefixes cfg).1
      dsimp only [Life.step, LifeEvent.apply, LastBan.after]
      rw [offenders]
      exact inPast
  | reboot next =>
      dsimp only [Life.step, LifeEvent.apply, LastBan.after]
      rw [lookup_reboot ordered.2.2.1]
      intro offender isFound
      obtain ⟨_, _, same⟩ := Option.map_eq_some_iff.mp isFound
      subst same
      exact restored_lastBan_le _ _

omit [ScoreArith Score] in
/-- A restore is exact when, and only when, it is in reach. -/
theorem exact_iff_inReach
    {event : LifeEvent Score}
    (inPast :
      ∀ offender ∈ life.shared.detector.offenders.lookup source,
        offender.lastBan ≤ life.lastBan.clock)
    (ordered : life.InOrder bans event) :
    life.Exact source event ↔ life.InReach source event := by
  cases event with
  | reboot next =>
      obtain ⟨bootOrdered, wallOrdered, fresh, _⟩ := ordered
      refine forall₂_congr fun offender isFound => ?_
      have banFirst :=
        BitVec.le_trans (inPast offender isFound) bootOrdered
      have seen := seen_after_restore source wallOrdered banFirst
      rw [lookup_reboot fresh, isFound]
      constructor
      · rintro ⟨kept, isKept, _, same⟩
        cases isKept
        rw [seen] at same
        omega
      · rintro ⟨inBoot, inUnix⟩
        refine ⟨_, rfl, rfl, ?_⟩
        rw [seen]
        omega
  | seen host event => exact Iff.rfl
  | prune host => exact Iff.rfl
  | sweep host => exact Iff.rfl
  | refresh host autoProtected ownV6Prefixes cfg => exact Iff.rfl

/--
Every restore of a run shows the detector the wall-clock time since the last
ban exactly when that time is in reach of both clocks at each of them.  Then,
over any number of reboots, the next ban of the source counts from one if the
source was quiet for longer than `forgive_secs` by the wall clock, and is one
more strike otherwise.
-/
theorem forgiveness_survives_reboots_iff
    {shared : Shared Score}
    {clock : U64}
    {offender : Offender}
    {events : List (LifeEvent Score)}
    (known : shared.detector.offenders.lookup source = some offender)
    (banFirst : offender.lastBan ≤ clock)
    (ordered :
      let start : Life Score :=
        ⟨shared, clock, clock.toNat - offender.lastBan.toNat,
          offender.strikes⟩
      Runs.Stepwise
        (fun past event =>
          (Runs.run (Life.step source) start past).InOrder
            shared.detector.bans event)
        events) :
    let start : Life Score :=
      ⟨shared, clock, clock.toNat - offender.lastBan.toNat,
        offender.strikes⟩
    let reached := Runs.run (Life.step source) start
    let final := reached events
    (Runs.Stepwise (fun past event => (reached past).Exact source event)
          events ↔
        Runs.Stepwise
          (fun past event => (reached past).InReach source event)
          events) ∧
      (Runs.Stepwise
          (fun past event => (reached past).InReach source event)
          events →
        ∀ (host : Host) (event : PacketEvent) (ban : Ban Score),
          final.lastBan.clock ≤ host.bootSecs →
          (final.shared.detector.observe Score event host.bootSecs).1 =
            some ban →
          ban.ip = source →
          ban.strikes =
            if shared.detector.bans.forgiveSecs.toNat <
                (final.lastBan.later host.bootSecs).quiet then
              1
            else
              final.lastBan.strikes + 1) := by
  intro start reached final
  have inPastAt :
      ∀ past event rest,
        events = past ++ event :: rest →
        ∀ found ∈
            (reached past).shared.detector.offenders.lookup source,
          found.lastBan ≤ (reached past).lastBan.clock := by
    intro past event rest shape
    subst shape
    refine ordered.before.invariant
      (fun _ (life : Life Score) =>
        ∀ found ∈ life.shared.detector.offenders.lookup source,
          found.lastBan ≤ life.lastBan.clock) ?_ ?_
    · intro found isFound
      rw [show start.shared = shared from rfl, known] at isFound
      cases isFound
      exact banFirst
    · intro past event inOrder inPast
      exact step_inPast inPast inOrder
  constructor
  · exact forall₄_congr fun past event rest shape =>
      exact_iff_inReach (inPastAt past event rest shape)
        (ordered past event rest shape)
  · intro inReach host event ban later issued isSource
    have datedAtEnd :
        final.shared.detector.bans = shared.detector.bans ∧
          Dated shared.detector.bans.forgiveSecs final.lastBan
            (final.shared.detector.offenders.lookup source) := by
      refine (ordered.and inReach).invariant
        (fun _ (life : Life Score) =>
          life.shared.detector.bans = shared.detector.bans ∧
            Dated shared.detector.bans.forgiveSecs life.lastBan
              (life.shared.detector.offenders.lookup source)) ?_ ?_
      · refine ⟨rfl, .inl ⟨offender, known, rfl, ?_⟩⟩
        rw [BitVec.le_def] at banFirst
        exact Nat.add_sub_cancel' banFirst
      · intro past event conditions dated
        exact step_dated dated conditions.1 conditions.2
    obtain ⟨configured, dated⟩ := datedAtEnd
    have called :
        Called source host.bootSecs
          (final.shared.detector.offenders.lookup source)
          final.shared.detector
          (final.shared.detector.observe Score event host.bootSecs).1
          (final.shared.detector.observe Score event host.bootSecs).2 :=
      observe_called event (.inl rfl)
    have strikes := (called.offends ban issued isSource).1
    rw [strikes, configured]
    exact dated.again later

/-! A machine that was off for a night, and a daemon that was not. -/

/-- The daemon after it banned the attacker for the third time. -/
def afterThirdBan : Shared ℚ :=
  { freshShared with
    detector :=
      freshShared.detector.restoreOffender attacker ⟨3, 100000⟩ }

/-- Saved ten seconds after the ban; started again ten hours later. -/
def overnight : Reboot ℚ where
  saved := clockedHost 100010 1700000000
  restored := clockedHost 60 1700036000
  start := freshShared

/--
A minute after the boot the detector sees a minute instead of ten hours, and
its next ban of the attacker is the fourth, although six hours forgive.
-/
theorem reboot_forgets_the_night :
    let found :=
      (overnight.apply afterThirdBan).detector.offenders.lookup attacker
    found.map (fun offender =>
        (U64.saturatingSub overnight.restored.bootSecs
          offender.lastBan).toNat) = some 60 ∧
      Life.wallClockQuiet overnight ⟨3, 100000⟩ = 36010 ∧
      BanConfig.default.forgiveSecs.toNat < 36010 ∧
      (Offender.again found BanConfig.default.forgiveSecs
        overnight.restored.bootSecs).strikes = 4 := by
  decide +kernel

/-- The same daemon restarted within ten seconds. -/
def atOnce : Reboot ℚ where
  saved := clockedHost 100010 1700000000
  restored := clockedHost 100020 1700000010
  start := freshShared

/-- A restart without a reboot keeps the time since the ban. -/
theorem restart_keeps_the_time :
    Life.Exact attacker ⟨afterThirdBan, 100005, 5, 3⟩ (.reboot atOnce) := by
  have inOrder :
      Life.InOrder afterThirdBan.detector.bans
        ⟨afterThirdBan, 100005, 5, 3⟩ (.reboot atOnce) :=
    ⟨by decide +kernel, by decide +kernel, rfl, rfl⟩
  have inReach :
      Life.InReach attacker ⟨afterThirdBan, 100005, 5, 3⟩
        (.reboot atOnce) := by
    intro offender isFound
    cases isFound
    decide +kernel
  have survives :=
    forgiveness_survives_reboots_iff
      (show afterThirdBan.detector.offenders.lookup attacker =
        some ⟨3, 100000⟩ by decide +kernel)
      (show (100000 : U64) ≤ 100005 by decide +kernel)
      (Runs.Stepwise.nil.concat inOrder)
  exact (survives.1.mpr (Runs.Stepwise.nil.concat inReach)).last

end

end

end AiFirewall
