import AiFirewall.BanExpiry
import AiFirewall.EventQueue
import AiFirewall.RoundedScore
import AiFirewall.SweepExact

namespace AiFirewall

/-!
# A banned source is cut off

A ban is written by the daemon and read by the program on every frame.  While
it runs, the program drops the frames of its source before it looks at
anything else and tells nothing about them.  So the detector hears of the
source only what was on its way already, and further bans that this brings do
not end sooner.
-/

open Runs

/-- An entry that stands at least until a deadline. -/
def LastsUntil (deadline expiry : U64) : Prop :=
  expiry = banForever ∨ deadline ≤ expiry

theorem live_of_lastsUntil
    {deadline expiry now : U64}
    (lasts : LastsUntil deadline expiry)
    (early : now < deadline) :
    live now (some expiry) = true := by
  rw [live, Bool.or_eq_true, decide_eq_true_iff, decide_eq_true_iff]
  rcases lasts with forever | late
  · exact .inl forever
  · exact .inr (Nat.lt_of_lt_of_le early late)

namespace Shared

section

variable
  {Score : Type}
  {shared changed : Shared Score}
  {host : Host}
  {source : Src}
  {deadline : U64}

/-- The ban maps hold a source at least until a deadline. -/
def Shuts
    (deadline : U64)
    (source : Src)
    (shared : Shared Score) : Prop :=
  ∃ expiry ∈ shared.blocklist.lookup source, LastsUntil deadline expiry

namespace Shuts

theorem of_same
    (shuts : shared.Shuts deadline source)
    (same :
      changed.blocklist.lookup source = shared.blocklist.lookup source) :
    changed.Shuts deadline source := by
  obtain ⟨expiry, present, lasts⟩ := shuts
  exact ⟨expiry, same.trans present, lasts⟩

/-- A ban on top of it is written for at least as long. -/
theorem enact
    {ban : Ban Score}
    (keeps :
      ban.ip = source → LastsUntil deadline (expiryFor host ban.secs))
    (shuts : shared.Shuts deadline source) :
    (shared.enact host ban).Shuts deadline source := by
  by_cases own : source = ban.ip
  · cases enforced : shared.enforce with
    | false =>
        refine shuts.of_same ?_
        rw [(enact_of_watching enforced).1]
    | true =>
        cases placed :
            shared.blocklist.insert? host ban.ip
              (expiryFor host ban.secs) with
        | some blocklist =>
            refine ⟨_, ?_, keeps own.symm⟩
            rw [own]
            exact enact_lookup_self enforced placed
        | none =>
            refine shuts.of_same ?_
            unfold Shared.enact
            rw [placed]
            dsimp only
            split <;> rfl
  · exact shuts.of_same (enact_lookup_of_ne host shared ban own)

/-- Every ban of the source that an event brings lasts long enough. -/
theorem handleEvent [ScoreArith Score]
    {event : PacketEvent}
    (keeps :
      ∀ ban ∈ (shared.detector.observe Score event host.bootSecs).1,
        ban.ip = source → LastsUntil deadline (expiryFor host ban.secs))
    (shuts : shared.Shuts deadline source) :
    (shared.handleEvent host event).Shuts deadline source := by
  unfold Shared.handleEvent
  dsimp only
  split
  · rename_i ban banned
    refine Shuts.enact (keeps ban banned) ?_
    exact shuts.of_same rfl
  · exact shuts.of_same rfl

theorem sweep
    (early : host.bootNs < deadline)
    (shuts : shared.Shuts deadline source) :
    (shared.sweep host).Shuts deadline source := by
  obtain ⟨expiry, present, lasts⟩ := shuts
  refine ⟨expiry, ?_, lasts⟩
  rw [sweep_lookup_of_running]
  · exact present
  · intro other isEntry
    rw [present] at isEntry
    cases isEntry
    exact (live_iff_remaining host expiry).mp
      (live_of_lastsUntil lasts early)

/-- Only bans of protected sources are lifted. -/
theorem refreshProtection
    {autoProtected : List Cidr}
    {ownV6Prefixes : List U64}
    {cfg : Config}
    (unprotected :
      (shared.refreshProtection host autoProtected ownV6Prefixes
        cfg).detector.isProtected source = false)
    (shuts : shared.Shuts deadline source) :
    (shared.refreshProtection host autoProtected ownV6Prefixes
      cfg).Shuts deadline source := by
  unfold Shared.refreshProtection at unprotected ⊢
  dsimp only at unprotected ⊢
  rw [lifts_detector] at unprotected
  refine shuts.of_same ?_
  refine ((lifts_other ?_).1).trans rfl
  intro isLifted
  obtain ⟨entry, member, isSource⟩ := List.mem_map.mp isLifted
  have lifts := (List.mem_filter.mp member).2
  rw [Bool.and_eq_true, isSource] at lifts
  rw [lifts.2] at unprotected
  cases unprotected

theorem restoreBan
    {ban : SavedBan}
    (shuts : shared.Shuts deadline source) :
    (shared.restoreBan host ban).Shuts deadline source := by
  refine shuts.of_same (restoreBan_entry ?_)
  obtain ⟨expiry, present, _⟩ := shuts
  rw [Blocklist.contains, present]
  rfl

end Shuts

end

end Shared

/-- The ladder begins with the base length. -/
theorem BanConfig.baseSecs_le_secsFor
    {bans : BanConfig}
    (ordered : bans.baseSecs ≤ bans.maxSecs)
    (strikes : U32) :
    bans.baseSecs.toNat ≤ (bans.secsFor strikes).toNat ∧
      (bans.secsFor strikes).toNat ≤ bans.maxSecs.toNat := by
  rw [secsFor_toNat, ladder]
  have grows :
      bans.baseSecs.toNat ≤
        bans.baseSecs.toNat * 2 ^ min (strikes - 1).toNat 20 :=
    Nat.le_mul_of_pos_right _ (Nat.two_pow_pos _)
  exact ⟨le_min grows ordered, Nat.min_le_right _ _⟩

/-- Bans with ends that fit, none of them shorter than the base length. -/
theorem lastsUntil_secsFor
    {bans : BanConfig}
    {host : Host}
    {start deadline : U64}
    {strikes : U32}
    (ordered : bans.baseSecs ≤ bans.maxSecs)
    (within :
      deadline.toNat ≤
        start.toNat + bans.baseSecs.toNat * 1000000000)
    (later : start ≤ host.bootNs)
    (fits :
      host.bootNs.toNat + bans.maxSecs.toNat * 1000000000 < 2 ^ 64) :
    LastsUntil deadline (expiryFor host (bans.secsFor strikes)) := by
  obtain ⟨atLeast, atMost⟩ := BanConfig.baseSecs_le_secsFor ordered strikes
  by_cases forever : bans.secsFor strikes = 0
  · exact .inl (if_pos forever)
  · have thisFits :
        host.bootNs.toNat + (bans.secsFor strikes).toNat * 1000000000 <
          2 ^ 64 :=
      Nat.lt_of_le_of_lt
        (Nat.add_le_add_left (Nat.mul_le_mul_right _ atMost) _) fits
    right
    rw [BitVec.le_def, toNat_expiryFor forever thisFits]
    calc
      deadline.toNat
        ≤ start.toNat + bans.baseSecs.toNat * 1000000000 := within
      _ ≤ host.bootNs.toNat + (bans.secsFor strikes).toNat * 1000000000 :=
          Nat.add_le_add later (Nat.mul_le_mul_right _ atLeast)

section

variable
  (Score : Type)
  [ScoreArith Score]

/-- The detector's bans are as long as its configuration has it. -/
theorem Detector.observe_bans
    (detector : Detector)
    (event : PacketEvent)
    (now : U64) :
    (detector.observe Score event now).2.bans = detector.bans ∧
      ∀ ban ∈ (detector.observe Score event now).1,
        ban.ip = Src.of event ∧
          ∃ strikes, ban.secs = detector.bans.secsFor strikes := by
  cases tripped : detector.trips Score event now with
  | false =>
      obtain ⟨noBan, _, sameBans⟩ := observe_of_not_trips tripped
      refine ⟨sameBans, fun ban issued => ?_⟩
      rw [noBan] at issued
      cases issued
  | true =>
      obtain ⟨room, ban, isRoom, observed, isSource, _, isSecs⟩ :=
        observe_of_trips tripped
      rw [observed]
      refine ⟨?_, fun issued isBan => ?_⟩
      · rw [isRoom]
        exact makeRoom_bans _ _ _
      · cases isBan
        exact ⟨isSource, _, isSecs⟩

end

/-- No new configuration or policy comes. -/
def DaemonEvent.keepsSettings : DaemonEvent → Bool
  | .reload _ _ _ _ _ => false
  | .switchProfile _ _ => false
  | _ => true

/-- Nobody bans or unbans a source by hand, or sweeps after a deadline. -/
def DaemonEvent.LeavesAlone (source : Src) (deadline : U64) :
    DaemonEvent → Prop
  | .ban _ ip _ => ip ≠ source
  | .unban _ ip => ip ≠ source
  | .sweep host => host.bootNs < deadline
  | _ => True

/-- The end of a ban that the program finds for a source. -/
def KernelMaps.banEnd? (maps : KernelMaps) : Src → Option U64
  | .v4 ip => maps.blocklist.get? ip
  | .v6 networkPrefix => maps.blocklist6.get? networkPrefix

/-- Of a banned source the program looks at nothing else. -/
theorem aiFirewall_of_banned
    {helpers : Helpers}
    {maps : KernelMaps}
    {frame : Frame}
    {version : IpVersion}
    (shows : frame.ipVersion? = some version)
    (banned :
      live helpers.now (maps.banEnd? (frame.src version)) = true) :
    aiFirewall helpers maps frame = (.drop, bump statDropBlocklist maps) := by
  have tried :
      tryAiFirewall helpers maps frame =
        (.drop, bump statDropBlocklist maps) := by
    unfold Frame.ipVersion? at shows
    unfold tryAiFirewall
    split at shows
    · rename_i isV4
      split at shows
      · rename_i long
        cases shows
        have hasEthernet : ¬frame.length < ethLen := by
          simp only [ethLen, ipv4Len] at long ⊢
          omega
        rw [if_neg hasEthernet, if_pos isV4, tryIpv4,
          if_neg (Nat.not_lt.mpr long)]
        exact if_pos banned
      · cases shows
    · rename_i notV4
      split at shows
      · rename_i isV6
        split at shows
        · rename_i long
          cases shows
          have hasEthernet : ¬frame.length < ethLen := by
            simp only [ethLen, ipv6Len] at long ⊢
            omega
          rw [if_neg hasEthernet, if_neg notV4, if_pos isV6, tryIpv6,
            if_neg (Nat.not_lt.mpr long)]
          exact if_pos banned
        · cases shows
      · cases shows
  rw [aiFirewall, tried]

namespace System

section

variable
  {Score : Type}
  [ScoreArith Score]
  {system : System Score}
  {event : DaemonEvent}

/-- Within one life and policy the detector's settings stay. -/
theorem settings_step
    (oneLife : event.isOfOneLife = true)
    (keeps : event.keepsSettings = true) :
    (system.step event).world.shared.detector.cfg =
        system.world.shared.detector.cfg ∧
      (system.step event).world.shared.detector.bans =
        system.world.shared.detector.bans := by
  have refreshed
      (host : Host)
      (autoProtected : List Cidr)
      (ownV6Prefixes : List U64)
      (cfg : Config)
      (shared : Shared Score) :
      (shared.refreshProtection host autoProtected ownV6Prefixes
          cfg).detector.cfg = shared.detector.cfg ∧
        (shared.refreshProtection host autoProtected ownV6Prefixes
          cfg).detector.bans = shared.detector.bans := by
    obtain ⟨trusted, lifted, _, same⟩ :=
      shared.refreshProtection_cases host autoProtected ownV6Prefixes cfg
    rw [same, Shared.lifts_detector]
    exact ⟨rfl, rfl⟩
  unfold System.step
  split
  · exact ⟨rfl, rfl⟩
  · exact ⟨rfl, rfl⟩
  · exact ⟨rfl, rfl⟩
  · cases oneLife
  · exact ⟨congrArg _ (Shared.restoreBan_detector _ _ _),
      congrArg _ (Shared.restoreBan_detector _ _ _)⟩
  · rename_i host autoProtected ownV6Prefixes cfg _
    rw [Shared.restoreOffenders_eq]
    exact refreshed host autoProtected ownV6Prefixes cfg _
  · cases oneLife
  · cases keeps
  · cases keeps
  · exact ⟨rfl, rfl⟩
  · exact ⟨congrArg _ (Shared.sweep_detector _ _),
      congrArg _ (Shared.sweep_detector _ _)⟩
  · exact refreshed _ _ _ _ _
  · exact ⟨rfl, rfl⟩
  · rename_i host stored _ _
    cases stored <;> exact ⟨rfl, rfl⟩
  · exact ⟨rfl, rfl⟩

/-- Nothing but hands and time opens the maps to a banned source again. -/
theorem shuts_step
    {source : Src}
    {deadline : U64}
    (oneLife : event.isOfOneLife = true)
    (keeps : event.keepsSettings = true)
    (leaves : event.LeavesAlone source deadline)
    (unprotected :
      (system.step event).world.shared.detector.isProtected source =
        false)
    (shuts : system.world.shared.Shuts deadline source) :
    (system.step event).world.shared.Shuts deadline source := by
  unfold System.step at unprotected ⊢
  split at unprotected
  · rename_i host ip minutes
    refine shuts.of_same ?_
    show
      ((system.blocklist.insert? host ip
          (expiryFor host (minutes * 60))).getD
        system.blocklist).lookup source =
        system.blocklist.lookup source
    cases inserted :
        system.blocklist.insert? host ip (expiryFor host (minutes * 60)) with
    | none => rfl
    | some blocklist =>
        rw [Option.getD_some, Blocklist.lookup_of_insert? inserted,
          if_neg (Ne.symm leaves)]
  · rename_i host ip
    refine shuts.of_same ?_
    rcases system.blocklist.lookup_drop host ip source with
      same | ⟨isIp, _⟩
    · exact same
    · exact absurd isIp.symm leaves
  · exact shuts.of_same rfl
  · cases oneLife
  · exact shuts.restoreBan
  · rw [Shared.restoreOffenders_eq] at unprotected ⊢
    exact Shared.Shuts.refreshProtection unprotected (shuts.of_same rfl)
  · cases oneLife
  · cases keeps
  · cases keeps
  · exact shuts.of_same rfl
  · exact shuts.sweep leaves
  · exact Shared.Shuts.refreshProtection unprotected shuts
  · exact shuts.of_same rfl
  · rename_i host stored _ _
    cases stored
    · exact shuts.of_same rfl
    · exact shuts.of_same rfl
  · exact shuts

end

end System

namespace Site

section

variable {Score : Type}

/-- The ban maps hold a source at least until a deadline. -/
def Shuts
    (deadline : U64)
    (source : Src)
    (site : Site Score) : Prop :=
  site.system.world.shared.Shuts deadline source

/-- What the program finds for a source, the daemon has written. -/
theorem banEnd?_of_shuts
    {site : Site Score}
    {source : Src}
    {deadline : U64}
    (shuts : site.Shuts deadline source) :
    ∃ expiry ∈ site.maps.banEnd? source, LastsUntil deadline expiry := by
  obtain ⟨expiry, present, lasts⟩ := shuts
  refine ⟨expiry, ?_, lasts⟩
  cases source with
  | v4 ip => exact present
  | v6 networkPrefix =>
      obtain ⟨map, isMap, isFound⟩ := Option.bind_eq_some_iff.mp present
      show
        (site.system.world.shared.blocklist.v6.getD
          site.others.blocklist6).get? networkPrefix = some expiry
      rw [isMap, Option.getD_some]
      exact isFound

/-- An event about a source. -/
def isAbout (source : Src) (event : PacketEvent) : Bool :=
  Src.of event = source

/-- Of a source that is shut out the program tells nothing. -/
theorem told_of_shuts
    {site : Site Score}
    {source : Src}
    {deadline : U64}
    {helpers : Helpers}
    (shuts : site.Shuts deadline source)
    (early : helpers.now < deadline)
    (frame : Frame) :
    (site.told (.packet helpers frame)).filter (isAbout source) = [] := by
  rw [List.filter_eq_nil_iff]
  intro event member isOwn
  obtain ⟨_, version, _, isSource, unlisted⟩ :=
    EventQueue.of_mem_told member
  have own : frame.src version = source :=
    isSource.symm.trans (of_decide_eq_true isOwn)
  obtain ⟨expiry, found, lasts⟩ := banEnd?_of_shuts shuts
  have banned :
      live helpers.now (site.maps.banEnd? (frame.src version)) = true := by
    rw [own, found]
    exact live_of_lastsUntil lasts early
  cases version with
  | v4 =>
      rw [listed, Bool.or_eq_false_iff] at unlisted
      exact Bool.false_ne_true (unlisted.1.symm.trans banned)
  | v6 => exact Bool.false_ne_true (unlisted.symm.trans banned)

variable [ScoreArith Score]

/--
While a ban runs nobody replaces or lifts it, or changes the settings, and
the clock has room for the longest ban: past 2^64 ns its end would wrap.
-/
def Undisturbed
    (source : Src)
    (bans : BanConfig)
    (start deadline : U64)
    (site : Site Score) : SiteStep → Prop
  | .packet helpers _ => helpers.now < deadline
  | .pull => True
  | .observe host =>
      start ≤ host.bootNs ∧
        host.bootNs.toNat + bans.maxSecs.toNat * 1000000000 < 2 ^ 64
  | .daemon event =>
      event.keepsSettings = true ∧ event.LeavesAlone source deadline ∧
        (site.step
          (.daemon event)).system.world.shared.detector.isProtected source =
          false

/-- The maps hold the source, and bans are as long as they were. -/
structure Holds
    (source : Src)
    (bans : BanConfig)
    (deadline : U64)
    (site : Site Score) : Prop where
  shuts : site.Shuts deadline source
  sameBans : site.system.world.shared.detector.bans = bans

theorem holds_step
    {site : Site Score}
    {source : Src}
    {bans : BanConfig}
    {start deadline : U64}
    (ordered : bans.baseSecs ≤ bans.maxSecs)
    (within :
      deadline.toNat ≤
        start.toNat + bans.baseSecs.toNat * 1000000000)
    {step : SiteStep}
    (undisturbed : site.Undisturbed source bans start deadline step)
    (holds : site.Holds source bans deadline) :
    (site.step step).Holds source bans deadline := by
  cases step with
  | packet helpers frame => exact ⟨holds.shuts, holds.sameBans⟩
  | pull =>
      rw [Site.step]
      cases next? site.system.phase site.others.events with
      | none => exact holds
      | some pulled => exact ⟨holds.shuts, holds.sameBans⟩
  | observe host =>
      obtain ⟨later, fits⟩ := undisturbed
      rw [Site.step]
      cases found : next? site.system.phase site.batch with
      | none => exact holds
      | some handed =>
          obtain ⟨⟨cfg, isRunning⟩, _⟩ := next?_some found
          obtain ⟨sameBans, issued⟩ :=
            site.system.world.shared.detector.observe_bans Score handed.1
              host.bootSecs
          have stepped :
              site.system.step (.batch host [handed.1]) =
                site.system.setShared
                  (site.system.world.shared.handleEvent host handed.1) := by
            simp only [System.step, isRunning]
            rfl
          dsimp only
          rw [stepped]
          refine ⟨Shared.Shuts.handleEvent ?_ holds.shuts, ?_⟩
          · intro ban isBan _
            obtain ⟨_, strikes, isSecs⟩ := issued ban isBan
            rw [isSecs, holds.sameBans]
            exact lastsUntil_secsFor ordered within later fits
          · exact
              ((congrArg _ (Shared.handleEvent_detector _ _ _)).trans
                sameBans).trans holds.sameBans
  | daemon event =>
      obtain ⟨keeps, leaves, unprotected⟩ := undisturbed
      rw [Site.step] at unprotected ⊢
      by_cases oneLife : event.isOfOneLife = true
      · rw [if_pos oneLife] at unprotected ⊢
        exact ⟨System.shuts_step oneLife keeps leaves unprotected
          holds.shuts,
          (System.settings_step oneLife keeps).2.trans holds.sameBans⟩
      · rw [if_neg oneLife]
        exact holds

/--
From a ban on, until the base length is over, whatever comes in whatever
order while the daemon lives: unless somebody lifts or replaces the ban by
hand, protects the source or changes the settings, and as long as the boot
clock and the longest ban stay below 2^64 ns together, each frame of the
source is dropped for its ban and changes nothing else, nothing is told of
the source, and the detector gets to see no more of it than what was on its
way already.
-/
theorem banned_source_is_cut_off
    {site : Site Score}
    {source : Src}
    {cfg : Config}
    {start deadline : U64}
    (accepted : cfg.validate = .ok ())
    (inForce : site.system.world.shared.detector.bans = cfg.bans)
    (within :
      deadline.toNat ≤
        start.toNat + cfg.bans.baseSecs.toNat * 1000000000)
    (shuts : site.Shuts deadline source)
    {steps : List SiteStep}
    (undisturbed :
      Stepwise
        (fun past =>
          (run step site past).Undisturbed source cfg.bans start deadline)
        steps) :
    let reached := run step site steps
    reached.Shuts deadline source ∧
      (∀ helpers frame version,
        helpers.now < deadline →
        frame.ipVersion? = some version →
        frame.src version = source →
        aiFirewall helpers reached.maps frame =
          (.drop, bump statDropBlocklist reached.maps)) ∧
      (outputs step told site steps).filter (isAbout source) = [] ∧
      reached.queue.filter (isAbout source) <:+
        site.queue.filter (isAbout source) := by
  have ordered := (Config.validate_ok.mp accepted).bans.2
  have holds :
      (run step site steps).Holds source cfg.bans deadline ∧
        (outputs step told site steps).filter (isAbout source) = [] := by
    refine undisturbed.invariant
      (fun past (reached : Site Score) =>
        reached.Holds source cfg.bans deadline ∧
          (outputs step told site past).filter (isAbout source) = [])
      ⟨⟨shuts, inForce⟩, rfl⟩ ?_
    intro past event calm before
    refine ⟨holds_step ordered within calm before.1, ?_⟩
    rw [outputs_concat, List.filter_append, before.2, List.nil_append]
    cases event with
    | packet helpers frame => exact told_of_shuts before.1.shuts calm frame
    | pull => rfl
    | observe host => rfl
    | daemon event => rfl
  intro reached
  refine ⟨holds.1.shuts, ?_, holds.2, ?_⟩
  · intro helpers frame version early shows isSource
    obtain ⟨expiry, found, lasts⟩ := banEnd?_of_shuts holds.1.shuts
    refine aiFirewall_of_banned shows ?_
    rw [isSource, found]
    exact live_of_lastsUntil lasts early
  · have arrived :=
      congrArg (List.filter (isAbout source))
        (events_arrive_in_order site steps)
    rw [List.filter_append, List.filter_append, holds.2,
      List.append_nil] at arrived
    exact ⟨_, arrived⟩

end

/-- A running daemon that has banned nobody, and nothing on its way. -/
def idle (cfg : Config) : Site Binary32 where
  system :=
    { world :=
        ⟨fun _ => 0, .fresh,
          { freshShared with
            detector := .new cfg.detector cfg.bans
            recent := [] }⟩
      file := .default
      phase := .running cfg }
  others := .fresh
  batch := []

/-- Three scans have brought a ban, and a fourth is still on its way. -/
def justBanned : Site Binary32 :=
  run step { idle .default with batch := List.replicate 4 nullScan }
    (List.replicate 3 (.observe (clockedHost 1000 1000000)))

/-- The fourth scan, more packets and a sweep. -/
def afterBan : List SiteStep :=
  [.observe (clockedHost 1001 1000001),
    .packet ⟨1002000000000, true, true⟩ sshOpener,
    .daemon (.sweep (clockedHost 1010 1000010))]

/-- Two minutes after its scans the source still gets nowhere. -/
theorem justBanned_cut_off :
    aiFirewall ⟨1119000000000, true, true⟩
        (run step justBanned afterBan).maps sshOpener =
      (.drop,
        bump statDropBlocklist (run step justBanned afterBan).maps) := by
  have shuts : justBanned.Shuts 1120000000000 (.v4 0x0a000005) := by
    refine ⟨1120000000000, ?_, .inr (BitVec.le_refl _)⟩
    decide +kernel
  have undisturbed :
      Stepwise
        (fun past =>
          (run step justBanned past).Undisturbed (.v4 0x0a000005)
            Config.default.bans 1000000000000 1120000000000)
        afterBan := by
    have onTime :
        (clockedHost 1010 1000010).bootNs < 1120000000000 := by
      decide +kernel
    refine Stepwise.of_positions fun position => ?_
    fin_cases position
    · exact ⟨by decide +kernel, by decide +kernel⟩
    · exact (by decide +kernel : (1002000000000 : U64) < 1120000000000)
    · exact ⟨rfl, onTime, by decide +kernel⟩
  exact (banned_source_is_cut_off (by decide : Config.default.validate = .ok ())
    (by decide +kernel) (by decide +kernel) shuts undisturbed).2.1
    ⟨1119000000000, true, true⟩ sshOpener .v4 (by decide +kernel)
    (by decide +kernel) (by decide +kernel)

end Site

end AiFirewall
