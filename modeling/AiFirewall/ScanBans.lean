import AiFirewall.CutOff

namespace AiFirewall

/-!
# No scan goes on

However the reports on a source come in, the detector bans it before more
than a certain number of them fall into the length of a window.  Two windows
can share that time, the end of one and the beginning of the next; in each of
them the counters of openers, datagrams and odd segments do not pass their
limits, but for what rounding hides, as long as there is no ban.
-/

open Runs

namespace Track

/-- The counters of openers, datagrams and odd segments. -/
def weight (track : Track) : Nat :=
  track.syn.toNat + track.udp.toNat + track.odd.toNat

end Track

/-- What the counters of a window can add up to without a ban. -/
def DetectorConfig.capacity (cfg : DetectorConfig) : Nat :=
  tolerated cfg.synLimit.toNat + tolerated cfg.udpLimit.toNat + oddLimit

/-- Limits that a counter of 32 bits can pass. -/
structure DetectorConfig.Countable (cfg : DetectorConfig) : Prop where
  syn : tolerated cfg.synLimit.toNat < 4294967295
  udp : tolerated cfg.udpLimit.toNat < 4294967295

/-- A stored track: it has seen a packet, and its score is not full. -/
structure Track.Stored
    (rounding : Rounding 24)
    (track : Track)
    (cfg : DetectorConfig) : Prop where
  ports : track.ports ≠ []
  low : track.isFull (Rounded rounding) cfg = false

section

variable
  {rounding : Rounding 24}
  {track : Track}
  {cfg : DetectorConfig}
  {event : PacketEvent}
  {now : U64}

theorem DetectorConfig.Positive.windowSecs_pos
    (positive : cfg.Positive) :
    0 < cfg.windowSecs.toNat :=
  Nat.pos_of_ne_zero fun isZero =>
    positive.1 (BitVec.eq_of_toNat_eq isZero)

namespace Track.Stored

/-- Below a full score no counter has passed what its limit tolerates. -/
theorem inLimits
    (stored : track.Stored rounding cfg)
    (positive : cfg.Positive) :
    track.syn.toNat ≤ tolerated cfg.synLimit.toNat ∧
      track.udp.toNat ≤ tolerated cfg.udpLimit.toNat ∧
      track.odd.toNat ≤ oddLimit := by
  have notFull : ¬track.counts.Fills (Rounded rounding) cfg := by
    rw [← Track.isFull_iff, stored.low]
    exact Bool.false_ne_true
  have hasPort : 1 ≤ track.counts.ports :=
    List.length_pos_iff.mpr stored.ports
  exact Signals.le_tolerated positive hasPort notFull

theorem weight_le
    (stored : track.Stored rounding cfg)
    (positive : cfg.Positive) :
    track.weight ≤ cfg.capacity := by
  obtain ⟨syn, udp, odd⟩ := stored.inLimits positive
  rw [Track.weight, DetectorConfig.capacity]
  omega

end Track.Stored

/-- One for a notable event. -/
def PacketEvent.weight (event : PacketEvent) : Nat :=
  if event.isNotable then 1 else 0

/-- A notable event raises one of the three counters. -/
theorem Track.weight_record
    (cfg : DetectorConfig)
    (event : PacketEvent)
    (now : U64)
    (small :
      track.syn.toNat < 4294967295 ∧ track.udp.toNat < 4294967295 ∧
        track.odd.toNat < 4294967295) :
    (track.record cfg event now).windowStart =
        (track.renewed cfg now).windowStart ∧
      (track.record cfg event now).weight =
        (track.renewed cfg now).weight + event.weight := by
  obtain ⟨start, syn, udp, _, odd, _⟩ :=
    track.record_counters cfg event now
  refine ⟨start, ?_⟩
  have bumped
      {count : U32}
      (below : count.toNat < 4294967295)
      (isKind : Bool) :
      (bumped count isKind).toNat =
        count.toNat + if isKind then 1 else 0 := by
    have top : count.toNat < (4294967295 : U32).toNat := below
    exact toNat_bumped top isKind
  have renewedSmall :
      (track.renewed cfg now).syn.toNat < 4294967295 ∧
        (track.renewed cfg now).udp.toNat < 4294967295 ∧
        (track.renewed cfg now).odd.toNat < 4294967295 := by
    have none : (0 : U32).toNat < 4294967295 := by
      decide
    rw [Track.renewed]
    split
    · exact ⟨none, none, none⟩
    · exact small
  have one :
      (if event.isOpener then 1 else 0) + (if event.isUdp then 1 else 0) +
        (if event.isOdd then 1 else 0) = event.weight := by
    rw [PacketEvent.weight, PacketEvent.isNotable, PacketEvent.isOpener,
      PacketEvent.isOdd]
    cases event.isUdp <;>
      cases (event.isNullScan || event.isXmasScan || event.isFinScan) <;>
      cases event.isSyn <;> simp
  rw [Track.weight, syn, udp, odd, bumped renewedSmall.1,
    bumped renewedSmall.2.1, bumped renewedSmall.2.2, Track.weight]
  omega

/-- A recorded packet leaves its port, or finds the list full. -/
theorem Track.ports_record (track : Track) :
    (track.record cfg event now).ports ≠ [] := by
  rw [Track.record_ports]
  split
  · exact List.concat_ne_nil _ _
  · rename_i notNew
    intro isEmpty
    rw [isEmpty] at notNew
    exact notNew ⟨Nat.zero_le _, List.not_mem_nil⟩

end

/--
How the reports of a stretch that begins at `since` are in the track of their
source: in a window of the stretch all but what an earlier window could take,
in an older window all of them.
-/
def Reported
    (rounding : Rounding 24)
    (cfg : DetectorConfig)
    (since clock : U64)
    (count : Nat) : Option Track → Prop
  | some track =>
      track.Stored rounding cfg ∧
        count ≤ track.weight +
          if since ≤ track.windowStart then cfg.capacity else 0
  | none => count = 0 ∨ count ≤ cfg.capacity ∧ cfg.windowSecs ≤ clock

/-- A track may be dropped once its window is over. -/
def MayDrop
    (cfg : DetectorConfig)
    (now : U64)
    (before after : Option Track) : Prop :=
  after = before ∨
    after = none ∧
      ∀ track ∈ before,
        cfg.windowSecs ≤ U64.saturatingSub now track.windowStart

namespace Reported

variable
  {rounding : Rounding 24}
  {cfg : DetectorConfig}
  {since clock now : U64}
  {count : Nat}
  {found after : Option Track}

/-- Two windows at most have taken the reports. -/
theorem count_le
    (reported : Reported rounding cfg since clock count found)
    (positive : cfg.Positive) :
    count ≤ 2 * cfg.capacity := by
  cases found with
  | none =>
      rcases reported with isZero | ⟨few, _⟩
      · omega
      · omega
  | some track =>
      obtain ⟨stored, few⟩ := reported
      have light := stored.weight_le positive
      split at few <;> omega

theorem later
    (reported : Reported rounding cfg since clock count found)
    (ordered : clock ≤ now) :
    Reported rounding cfg since now count found := by
  cases found with
  | none =>
      rcases reported with isZero | ⟨few, up⟩
      · exact .inl isZero
      · exact .inr ⟨few, BitVec.le_trans up ordered⟩
  | some track => exact reported

/-- A window of the stretch is not over before its end. -/
theorem mayDrop
    (positive : cfg.Positive)
    (reported : Reported rounding cfg since clock count found)
    (ordered : clock ≤ now)
    (within : now.toNat < since.toNat + cfg.windowSecs.toNat)
    (drops : MayDrop cfg now found after) :
    Reported rounding cfg since now count after := by
  rcases drops with same | ⟨isNone, ended⟩
  · rw [same]
    exact reported.later ordered
  · rw [isNone]
    cases found with
    | none => exact reported.later ordered
    | some track =>
        obtain ⟨stored, few⟩ := reported
        have isOver := ended track rfl
        have light := stored.weight_le positive
        have lasting := positive.windowSecs_pos
        rw [BitVec.le_def, U64.toNat_saturatingSub] at isOver
        have notSince : ¬since ≤ track.windowStart := by
          rw [BitVec.le_def]
          omega
        rw [if_neg notSince] at few
        refine .inr ⟨by omega, ?_⟩
        rw [BitVec.le_def]
        omega

/-- One more report, unless it fills the track. -/
theorem record
    (positive : cfg.Positive)
    (countable : cfg.Countable)
    {event : PacketEvent}
    (reported : Reported rounding cfg since clock count found)
    (ordered : clock ≤ now)
    (started : since ≤ now)
    (within : now.toNat < since.toNat + cfg.windowSecs.toNat)
    (low :
      ((found.getD .default).record cfg event now).isFull (Rounded rounding) cfg =
        false) :
    Reported rounding cfg since now (count + event.weight)
      (some ((found.getD .default).record cfg event now)) := by
  have atMostOne : event.weight ≤ 1 := by
    rw [PacketEvent.weight]
    split <;> omega
  have small :
      (found.getD .default).syn.toNat < 4294967295 ∧
        (found.getD .default).udp.toNat < 4294967295 ∧
        (found.getD .default).odd.toNat < 4294967295 := by
    cases found with
    | none => decide
    | some track =>
        obtain ⟨syn, udp, odd⟩ := reported.1.inLimits positive
        obtain ⟨synBound, udpBound⟩ := countable
        rw [oddLimit] at odd
        rw [Option.getD_some]
        omega
  obtain ⟨start, heavier⟩ := Track.weight_record cfg event now small
  refine ⟨⟨Track.ports_record _, low⟩, ?_⟩
  rw [start, heavier, Track.renewed]
  rw [BitVec.le_def] at started
  cases found with
  | none =>
      have empty : Track.default.weight = 0 := rfl
      rw [Option.getD_none]
      rcases reported with isZero | ⟨few, up⟩
      · rw [isZero]
        omega
      · have isOver :
            cfg.windowSecs ≤
              U64.saturatingSub now Track.default.windowStart := by
          have boot : Track.default.windowStart.toNat = 0 := rfl
          rw [BitVec.le_def] at up ordered ⊢
          rw [U64.toNat_saturatingSub]
          omega
        rw [if_pos isOver, if_pos (BitVec.le_def.mpr started)]
        omega
  | some track =>
      obtain ⟨stored, few⟩ := reported
      have light := stored.weight_le positive
      rw [Option.getD_some]
      split
      · rename_i isOver
        have lasting := positive.windowSecs_pos
        rw [BitVec.le_def, U64.toNat_saturatingSub] at isOver
        have notSince : ¬since ≤ track.windowStart := by
          rw [BitVec.le_def]
          omega
        rw [if_neg notSince] at few
        rw [if_pos (BitVec.le_def.mpr started)]
        omega
      · omega

end Reported

namespace Detector

variable
  {rounding : Rounding 24}
  {detector : Detector}
  {source : Src}
  {event : PacketEvent}
  {now : U64}

theorem mayDrop_prune (detector : Detector) (source : Src) (now : U64) :
    MayDrop detector.cfg now (detector.tracks.lookup source)
      ((detector.prune now).tracks.lookup source) := by
  rw [prune, Table.lookup_retain]
  cases found : detector.tracks.lookup source with
  | none => exact .inl rfl
  | some track =>
      rw [Option.filter_some]
      split
      · exact .inl rfl
      · rename_i ended
        refine .inr ⟨rfl, fun other isTrack => ?_⟩
        cases isTrack
        rw [decide_eq_true_iff] at ended
        rw [BitVec.lt_def] at ended
        rw [BitVec.le_def]
        omega

theorem mayDrop_makeRoom
    (detector : Detector)
    (ip source : Src)
    (now : U64) :
    MayDrop detector.cfg now (detector.tracks.lookup source)
      ((detector.makeRoom ip now).tracks.lookup source) := by
  rcases detector.makeRoom_cases ip now with same | pruned
  · rw [same]
    exact .inl rfl
  · rw [pruned]
    exact detector.mayDrop_prune source now

/-- Events of others do no more than drop what is over. -/
theorem mayDrop_observe
    (Score : Type)
    [ScoreArith Score]
    (isOther : Src.of event ≠ source) :
    MayDrop detector.cfg now (detector.tracks.lookup source)
      ((detector.observe Score event now).2.tracks.lookup source) := by
  cases counted : detector.counts event now with
  | false =>
      rcases (observe_of_not_counts Score counted).2 with same | pruned
      · rw [same]
        exact .inl rfl
      · rw [pruned]
        exact detector.mayDrop_prune source now
  | true =>
      rw [observe_of_counts counted]
      have room := detector.mayDrop_makeRoom (Src.of event) source now
      cases reached :
          (detector.makeRoom (Src.of event) now).full Score event now with
      | false =>
          rw [(observeTracked_of_not_full reached).2]
          dsimp only
          rw [Table.lookup_insert_eq, if_neg isOther.symm]
          exact room
      | true =>
          rw [observeTracked_eq_of_full reached]
          dsimp only
          rw [Table.lookup_erase_eq, if_neg isOther.symm]
          exact room

/-- A report is counted, or brings a ban of its source. -/
theorem reported_observe
    (positive : detector.cfg.Positive)
    (countable : detector.cfg.Countable)
    {since clock : U64}
    {count : Nat}
    (counted : detector.counts event now = true)
    (ordered : clock ≤ now)
    (started : since ≤ now)
    (within :
      now.toNat < since.toNat + detector.cfg.windowSecs.toNat)
    (reported :
      Reported rounding detector.cfg since clock count
        (detector.tracks.lookup (Src.of event))) :
    (∃ ban ∈ (detector.observe (Rounded rounding) event now).1, ban.ip = Src.of event) ∨
      (detector.observe (Rounded rounding) event now).1 = none ∧
        Reported rounding detector.cfg since now (count + event.weight)
          ((detector.observe (Rounded rounding) event now).2.tracks.lookup
            (Src.of event)) := by
  let room := detector.makeRoom (Src.of event) now
  have roomy :
      Reported rounding detector.cfg since now count
        (room.tracks.lookup (Src.of event)) :=
    reported.mayDrop positive ordered within
      (detector.mayDrop_makeRoom (Src.of event) (Src.of event) now)
  have sameCfg : room.cfg = detector.cfg := detector.makeRoom_cfg _ _
  rw [observe_of_counts counted]
  cases reached : room.full (Rounded rounding) event now with
  | true =>
      obtain ⟨ban, after, isSource, _⟩ := observeTracked_of_full reached
      refine .inl ⟨ban, ?_, isSource⟩
      rw [show detector.makeRoom (Src.of event) now = room from rfl, after]
      rfl
  | false =>
      obtain ⟨noBan, after⟩ := observeTracked_of_not_full reached
      refine .inr ⟨noBan, ?_⟩
      rw [show detector.makeRoom (Src.of event) now = room from rfl, after]
      dsimp only
      rw [Table.lookup_insert_eq, if_pos rfl]
      rw [full, trackAfter, sameCfg] at reached
      rw [trackAfter, sameCfg]
      exact roomy.record positive countable (BitVec.le_refl now) started
        within reached

/-- New protected addresses leave the tracks of the others alone. -/
theorem lookup_setProtected
    {protected4 : List Cidr}
    {protected6 : List U64}
    (unprotected :
      (detector.setProtected protected4 protected6).isProtected source =
        false) :
    (detector.setProtected protected4 protected6).tracks.lookup source =
      detector.tracks.lookup source := by
  have free :
      ({ detector with
        protected4 := protected4
        protected6 := protected6 } : Detector).isProtected source =
        false := by
    cases source <;> exact unprotected
  rw [setProtected]
  dsimp only
  rw [Table.lookup_retain, free]
  cases detector.tracks.lookup source <;> rfl

end Detector

/-- The boot clock as a tick of the detector reads it. -/
def DaemonEvent.prunes? : DaemonEvent → Option U64
  | .prune host => some host.bootSecs
  | _ => none

namespace System

section

variable
  {Score : Type}
  [ScoreArith Score]
  {system : System Score}
  {event : DaemonEvent}
  {source : Src}

/-- A step drops the track of a source at most when it prunes. -/
theorem tracks_step
    (oneLife : event.isOfOneLife = true)
    (keeps : event.keepsSettings = true)
    (unprotected :
      (system.step event).world.shared.detector.isProtected source =
        false) :
    (system.step event).world.shared.detector.tracks.lookup source =
        system.world.shared.detector.tracks.lookup source ∨
      ∃ now ∈ event.prunes?,
        MayDrop system.world.shared.detector.cfg now
          (system.world.shared.detector.tracks.lookup source)
          ((system.step event).world.shared.detector.tracks.lookup
            source) := by
  have refreshed
      (host : Host)
      (autoProtected : List Cidr)
      (ownV6Prefixes : List U64)
      (cfg : Config)
      (shared : Shared Score)
      (free :
        (shared.refreshProtection host autoProtected ownV6Prefixes
          cfg).detector.isProtected source = false) :
      (shared.refreshProtection host autoProtected ownV6Prefixes
          cfg).detector.tracks.lookup source =
        shared.detector.tracks.lookup source := by
    obtain ⟨trusted, lifted, _, same⟩ :=
      shared.refreshProtection_cases host autoProtected ownV6Prefixes cfg
    rw [same, Shared.lifts_detector] at free ⊢
    exact Detector.lookup_setProtected free
  unfold System.step at unprotected ⊢
  split at unprotected
  · exact .inl rfl
  · exact .inl rfl
  · exact .inl rfl
  · cases oneLife
  · exact .inl (congrArg _ (congrArg _ (Shared.restoreBan_detector _ _ _)))
  · left
    rw [Shared.restoreOffenders_eq] at unprotected ⊢
    exact refreshed _ _ _ _ _ unprotected
  · cases oneLife
  · cases keeps
  · cases keeps
  · exact .inl rfl
  · exact .inl (congrArg _ (congrArg _ (Shared.sweep_detector _ _)))
  · exact .inl (refreshed _ _ _ _ _ unprotected)
  · exact .inr ⟨_, rfl, Detector.mayDrop_prune _ _ _⟩
  · rename_i host stored _ _
    cases stored <;> exact .inl rfl
  · exact .inl rfl

end

end System

namespace SiteStep

/-- The boot clock as the detector is given it. -/
def clock? : SiteStep → Option U64
  | .observe host => some host.bootSecs
  | .daemon event => event.prunes?
  | _ => none

end SiteStep

namespace Site

section

variable
  {rounding : Rounding 24}
  {site : Site (Rounded rounding)}
  {source : Src}
  {cfg : Config}
  {since : U64}

/--
In the length of a window after `since`: the daemon enforces, has room for
the source and does not protect it, the kernel takes a ban of it, and nobody
changes the settings.
-/
def Exposed
    (source : Src)
    (cfg : Config)
    (since : U64)
    (site : Site (Rounded rounding))
    (step : SiteStep) : Prop :=
  (∀ now ∈ step.clock?,
      since ≤ now ∧
        now.toNat < since.toNat + cfg.detector.windowSecs.toNat) ∧
    match step with
    | .observe host =>
        ∀ event ∈ site.seen step, isAbout source event = true →
          site.system.world.shared.enforce = true ∧
            site.system.world.shared.detector.counts event
              host.bootSecs = true ∧
            ∀ expiry,
              ∃ changed,
                site.system.blocklist.insert? host source expiry =
                  some changed
    | .daemon event =>
        event.keepsSettings = true ∧
          (site.step step).system.world.shared.detector.isProtected
            source = false
    | _ => True

/-- The maps hold a ban of the source that begins with a step. -/
def BannedBy
    (source : Src)
    (bans : BanConfig)
    (host : Host)
    (site : Site (Rounded rounding)) : Prop :=
  ∃ strikes,
    site.system.blocklist.lookup source =
      some (expiryFor host (bans.secsFor strikes))

/-- What a run has come to while its source is not banned. -/
structure Watching
    (source : Src)
    (cfg : Config)
    (since clock : U64)
    (count : Nat)
    (site : Site (Rounded rounding)) : Prop where
  isCfg : site.system.world.shared.detector.cfg = cfg.detector
  isBans : site.system.world.shared.detector.bans = cfg.bans
  reported :
    Reported rounding cfg.detector since clock count
      (site.system.world.shared.detector.tracks.lookup source)

/-- The notable events about a source. -/
def reports (source : Src) (events : List PacketEvent) : Nat :=
  events.countP fun event => isAbout source event && event.isNotable

theorem reports_single (source : Src) (event : PacketEvent) :
    reports source [event] =
      if isAbout source event then event.weight else 0 := by
  rw [reports, List.countP_singleton, PacketEvent.weight]
  cases isAbout source event <;> cases event.isNotable <;> rfl

theorem step_observe
    (host : Host)
    {handed : PacketEvent × List PacketEvent}
    (found : next? site.system.phase site.batch = some handed) :
    site.seen (.observe host) = [handed.1] ∧
      (site.step (.observe host)).system =
        site.system.setShared
          (site.system.world.shared.handleEvent host handed.1) := by
  obtain ⟨⟨running, isRunning⟩, _⟩ := next?_some found
  refine ⟨?_, ?_⟩
  · rw [seen, found]
    rfl
  · rw [Site.step, found]
    dsimp only
    simp only [System.step, isRunning]
    rfl

/-- A ban that the kernel takes is in the maps. -/
theorem bannedBy_handleEvent
    {host : Host}
    {event : PacketEvent}
    {shared : Shared (Rounded rounding)}
    {ban : Ban (Rounded rounding)}
    (enforced : shared.enforce = true)
    (accepted :
      ∀ expiry,
        ∃ changed,
          shared.blocklist.insert? host ban.ip expiry = some changed)
    (issued :
      (shared.detector.observe (Rounded rounding) event host.bootSecs).1 = some ban) :
    ∃ strikes,
      (shared.handleEvent host event).blocklist.lookup ban.ip =
        some
          (expiryFor host (shared.detector.bans.secsFor strikes)) := by
  obtain ⟨_, strikes, isSecs⟩ :=
    (shared.detector.observe_bans (Rounded rounding) event host.bootSecs).2 ban
      issued
  obtain ⟨changed, placed⟩ := accepted (expiryFor host ban.secs)
  refine ⟨strikes, ?_⟩
  rw [← isSecs, Shared.handleEvent]
  dsimp only
  rw [issued]
  exact Shared.enact_lookup_self enforced placed

/-- What the detector has done with an event it was handed. -/
theorem watching_of_reported
    {host : Host}
    {handed : PacketEvent × List PacketEvent}
    {count : Nat}
    (found : next? site.system.phase site.batch = some handed)
    (isCfg : site.system.world.shared.detector.cfg = cfg.detector)
    (isBans : site.system.world.shared.detector.bans = cfg.bans)
    (reported :
      Reported rounding cfg.detector since host.bootSecs count
        ((site.system.world.shared.detector.observe (Rounded rounding)
          handed.1 host.bootSecs).2.tracks.lookup source)) :
    (site.step (.observe host)).Watching source cfg since host.bootSecs
      count := by
  have after :
      (site.step (.observe host)).system.world.shared.detector =
        (site.system.world.shared.detector.observe (Rounded rounding)
          handed.1 host.bootSecs).2 := by
    rw [(step_observe host found).2]
    exact Shared.handleEvent_detector _ _ _
  refine ⟨?_, ?_, ?_⟩
  · rw [after]
    exact (Detector.apply_cfg (Rounded rounding) _
      (.observe handed.1 host.bootSecs)).trans isCfg
  · rw [after]
    exact (Detector.observe_bans (Rounded rounding) _ handed.1
      host.bootSecs).1.trans isBans
  · rw [after]
    exact reported

/-- An event about the source is counted, or brings its ban. -/
theorem watching_own
    {host : Host}
    {handed : PacketEvent × List PacketEvent}
    {clock : U64}
    {count : Nat}
    (positive : cfg.detector.Positive)
    (countable : cfg.detector.Countable)
    (exposed : site.Exposed source cfg since (.observe host))
    (ordered : clock ≤ host.bootSecs)
    (found : next? site.system.phase site.batch = some handed)
    (isOwn : Src.of handed.1 = source)
    (watching : site.Watching source cfg since clock count) :
    (site.step (.observe host)).BannedBy source cfg.bans host ∨
      (site.step (.observe host)).Watching source cfg since host.bootSecs
        (count + handed.1.weight) := by
  obtain ⟨times, met⟩ := exposed
  obtain ⟨started, within⟩ := times host.bootSecs rfl
  obtain ⟨isSeen, stepped⟩ := step_observe host found
  obtain ⟨enforced, counted, accepted⟩ :=
    met handed.1 (by rw [isSeen]; exact List.mem_singleton_self _)
      (decide_eq_true isOwn)
  have reported := watching.reported
  rw [← watching.isCfg] at positive countable within reported
  rw [← isOwn] at reported
  rcases Detector.reported_observe positive countable counted ordered
      started within reported with
    ⟨ban, issued, isBan⟩ | ⟨_, goesOn⟩
  · obtain ⟨strikes, banned⟩ :=
      bannedBy_handleEvent enforced
        (by rw [isBan, isOwn]; exact accepted) issued
    refine .inl ⟨strikes, ?_⟩
    rw [stepped, ← isOwn, ← isBan, ← watching.isBans]
    exact banned
  · rw [watching.isCfg, isOwn] at goesOn
    exact .inr
      (watching_of_reported found watching.isCfg watching.isBans goesOn)

/-- An event about another source drops no more than what is over. -/
theorem watching_other
    {host : Host}
    {handed : PacketEvent × List PacketEvent}
    {clock : U64}
    {count : Nat}
    (positive : cfg.detector.Positive)
    (exposed : site.Exposed source cfg since (.observe host))
    (ordered : clock ≤ host.bootSecs)
    (found : next? site.system.phase site.batch = some handed)
    (isOther : Src.of handed.1 ≠ source)
    (watching : site.Watching source cfg since clock count) :
    (site.step (.observe host)).Watching source cfg since host.bootSecs
      count := by
  obtain ⟨_, within⟩ := exposed.1 host.bootSecs rfl
  have drops :
      MayDrop site.system.world.shared.detector.cfg host.bootSecs
        (site.system.world.shared.detector.tracks.lookup source) _ :=
    Detector.mayDrop_observe (Rounded rounding) isOther
  rw [watching.isCfg] at drops
  exact watching_of_reported found watching.isCfg watching.isBans
    (watching.reported.mayDrop positive ordered within drops)

/-- The daemon's own steps drop no more than a tick does. -/
theorem watching_daemon
    {event : DaemonEvent}
    {clock : U64}
    {count : Nat}
    (positive : cfg.detector.Positive)
    (exposed : site.Exposed source cfg since (.daemon event))
    (ordered : ∀ now ∈ event.prunes?, clock ≤ now)
    (watching : site.Watching source cfg since clock count) :
    ∃ next,
      (next = clock ∨ next ∈ event.prunes?) ∧
        (site.step (.daemon event)).Watching source cfg since next
          count := by
  obtain ⟨times, keeps, unprotected⟩ := exposed
  rw [Site.step] at unprotected ⊢
  by_cases oneLife : event.isOfOneLife = true
  · rw [if_pos oneLife] at unprotected ⊢
    obtain ⟨sameCfg, sameBans⟩ :
        (site.system.step event).world.shared.detector.cfg =
            site.system.world.shared.detector.cfg ∧ _ :=
      System.settings_step oneLife keeps
    have isCfg := sameCfg.trans watching.isCfg
    have isBans := sameBans.trans watching.isBans
    rcases System.tracks_step oneLife keeps unprotected with
      same | ⟨now, isClock, drops⟩
    · refine ⟨clock, .inl rfl, isCfg, isBans, ?_⟩
      rw [same]
      exact watching.reported
    · obtain ⟨_, within⟩ := times now isClock
      rw [watching.isCfg] at drops
      exact ⟨now, .inr isClock, isCfg, isBans,
        watching.reported.mayDrop positive (ordered now isClock) within
          drops⟩
  · rw [if_neg oneLife]
    exact ⟨clock, .inl rfl, watching⟩

/-- One step while the source is not banned. -/
theorem watching_step
    {step : SiteStep}
    {clock : U64}
    {count : Nat}
    (positive : cfg.detector.Positive)
    (countable : cfg.detector.Countable)
    (exposed : site.Exposed source cfg since step)
    (ordered : ∀ now ∈ step.clock?, clock ≤ now)
    (watching : site.Watching source cfg since clock count) :
    (∃ host,
        step = .observe host ∧
          (site.step step).BannedBy source cfg.bans host) ∨
      ∃ next,
        (next = clock ∨ next ∈ step.clock?) ∧
          (site.step step).Watching source cfg since next
            (count + reports source (site.seen step)) := by
  cases step with
  | packet helpers frame =>
      exact .inr ⟨clock, .inl rfl,
        ⟨watching.isCfg, watching.isBans, watching.reported⟩⟩
  | pull =>
      refine .inr ⟨clock, .inl rfl, ?_⟩
      rw [Site.step]
      cases next? site.system.phase site.others.events with
      | none => exact watching
      | some pulled =>
          exact ⟨watching.isCfg, watching.isBans, watching.reported⟩
  | observe host =>
      cases found : next? site.system.phase site.batch with
      | none =>
          refine .inr ⟨clock, .inl rfl, ?_⟩
          rw [seen, Site.step, found]
          exact watching
      | some handed =>
          have inOrder := ordered host.bootSecs rfl
          rw [(step_observe host found).1, reports_single]
          by_cases isOwn : Src.of handed.1 = source
          · have about : isAbout source handed.1 = true :=
              decide_eq_true isOwn
            rw [if_pos about]
            rcases watching_own positive countable exposed inOrder found
                isOwn watching with banned | goesOn
            · exact .inl ⟨host, rfl, banned⟩
            · exact .inr ⟨host.bootSecs, .inr rfl, goesOn⟩
          · have notAbout : ¬isAbout source handed.1 = true :=
              fun own => isOwn (of_decide_eq_true own)
            rw [if_neg notAbout]
            exact .inr ⟨host.bootSecs, .inr rfl,
              watching_other positive exposed inOrder found isOwn watching⟩
  | daemon event =>
      exact .inr (watching_daemon positive exposed ordered watching)

end

/-- The defaults, with the lowest limits for openers and datagrams. -/
def strictest : Config :=
  { Config.default with
    detector :=
      { Config.default.detector with synLimit := 1, udpLimit := 1 } }

end Site

end AiFirewall
