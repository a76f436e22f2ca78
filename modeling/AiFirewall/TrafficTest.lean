import AiFirewall.SavedText
import AiFirewall.Selftest
import AiFirewall.StatusReport

namespace AiFirewall

/-!
# What the traffic's test counts

The test reads the status file twice and reports the difference.  While the
daemon lives, and whatever it and the command line do in between, the numbers
are those of the frames that came between the two writes, sorted by what
became of them.  A new daemon starts its counters anew.
-/

open Runs RustText PacketTotals

/-- What the traffic's test reads of a status file. -/
structure StatusView where
  updatedUnix : U64
  passed : U64
  droppedPolicy : U64
  droppedBlocklist : U64
  droppedFeed : U64
  eventsLost : U64
  /-- The sources of the bans, as they are printed. -/
  bans : List (List Char)
  deriving Repr, DecidableEq

/-- A status file, read back. -/
def Status.view
    {Score : Type}
    (ipv6 : Ipv6Text)
    (status : Status Score) : StatusView where
  updatedUnix := status.updatedUnix
  passed := status.passed
  droppedPolicy := status.droppedPolicy
  droppedBlocklist := status.droppedBlocklist
  droppedFeed := status.droppedFeed
  eventsLost := status.eventsLost
  bans := status.bans.map fun ban => ban.ip.display ipv6

/-- `MAX_TRAFFIC_SECS`. -/
def maxTrafficSecs : U64 := 30

/-- What changed between two readings. -/
structure TrafficSample where
  span : U64
  passed : U64
  policy : U64
  banned : U64
  feed : U64
  newBans : Nat
  eventsLost : U64

namespace TrafficSample

def between (first second : StatusView) : TrafficSample where
  span := umax (U64.saturatingSub second.updatedUnix first.updatedUnix) 1
  passed := U64.saturatingSub second.passed first.passed
  policy := U64.saturatingSub second.droppedPolicy first.droppedPolicy
  banned := U64.saturatingSub second.droppedBlocklist first.droppedBlocklist
  feed := U64.saturatingSub second.droppedFeed first.droppedFeed
  newBans := (second.bans.filter fun ip => !first.bans.contains ip).length
  eventsLost := U64.saturatingSub second.eventsLost first.eventsLost

/-- A count and what it is in a second. -/
def rateText (sample : TrafficSample) (count : U64) : String :=
  Nat.repr count.toNat ++ " (" ++ Nat.repr (count / sample.span).toNat ++
    "/s)"

def report (sample : TrafficSample) (waited : String) : TestReport where
  test := "traffic"
  ok := sample.eventsLost = 0
  summary :=
    Nat.repr
        ((sample.passed + sample.policy + sample.banned + sample.feed) /
          sample.span).toNat ++
      " packets/s in, " ++
      Nat.repr
        ((sample.policy + sample.banned + sample.feed) /
          sample.span).toNat ++
      " dropped/s"
  stats :=
    [("sampled",
        Nat.repr sample.span.toNat ++ "s (waited " ++ waited ++ "s)"),
      ("passed", sample.rateText sample.passed),
      ("dropped, closed ports", sample.rateText sample.policy),
      ("dropped, banned", sample.rateText sample.banned),
      ("dropped, blocklists", sample.rateText sample.feed),
      ("new bans", Nat.repr sample.newBans),
      ("events lost", Nat.repr sample.eventsLost.toNat)]

end TrafficSample

/-- The seconds to wait for, within limits. -/
def trafficSecs (secs : U64) : U64 :=
  umin (umax secs 1) maxTrafficSecs

/-- `traffic`, with the readings up to the deadline. -/
def trafficTest
    (secs : U64)
    (first : Option StatusView)
    (later : List (Option StatusView))
    (waited : String) : TestReport :=
  let failed (summary : String) : TestReport :=
    { test := "traffic", ok := false, summary := summary, stats := [] }
  match first with
  | none => failed "daemon not running (no status file)"
  | some first =>
      let isNewer (seen : StatusView) : Bool :=
        first.updatedUnix + trafficSecs secs ≤ seen.updatedUnix
      match later.findSome? fun reading => reading.filter isNewer with
      | none => failed "the status file did not update"
      | some second => (TrafficSample.between first second).report waited

/-- The second reading is the first one that is new enough. -/
theorem trafficTest_of_readings
    {secs : U64}
    {first second : StatusView}
    {stale rest : List (Option StatusView)}
    (isStale :
      ∀ seen, some seen ∈ stale →
        seen.updatedUnix < first.updatedUnix + trafficSecs secs)
    (isNew : first.updatedUnix + trafficSecs secs ≤ second.updatedUnix)
    (waited : String) :
    trafficTest secs (some first) (stale ++ some second :: rest) waited =
      (TrafficSample.between first second).report waited := by
  have found :
      (stale ++ some second :: rest).findSome?
          (fun reading => reading.filter fun seen =>
            decide (first.updatedUnix + trafficSecs secs ≤
              seen.updatedUnix)) =
        some second := by
    induction stale with
    | nil =>
        rw [List.nil_append, List.findSome?_cons, Option.filter_some_pos]
        exact decide_eq_true isNew
    | cons reading others inductionHypothesis =>
        rw [List.cons_append, List.findSome?_cons]
        have skipped :
            reading.filter (fun seen =>
              decide (first.updatedUnix + trafficSecs secs ≤
                seen.updatedUnix)) = none := by
          cases reading with
          | none => rfl
          | some seen =>
              refine Option.filter_some_neg ?_
              rw [decide_eq_false_iff_not, BitVec.not_le]
              exact isStale seen List.mem_cons_self
        rw [skipped]
        exact inductionHypothesis fun seen member =>
          isStale seen (List.mem_cons_of_mem _ member)
  rw [trafficTest]
  dsimp only
  rw [found]

namespace PacketTotals.Packet

/-- What the program makes of a frame. -/
def verdict (packet : Packet) : XdpAction :=
  (aiFirewall packet.helpers packet.maps packet.frame).1

/-- The program counts the frame in a slot. -/
def raises (slot : Fin 5) (packet : Packet) : Bool :=
  (aiFirewall packet.helpers packet.maps packet.frame).2.stats slot ≠
    packet.maps.stats slot

/-- What a frame adds to a counter. -/
theorem stats_after
    (packet : Packet)
    {own : Fin 5}
    (isOwn : own ∈ verdictSlots) :
    (aiFirewall packet.helpers packet.maps packet.frame).2.stats own =
      packet.maps.stats own + one (packet.raises own = true) := by
  obtain ⟨slot, _, _, tallies⟩ :=
    aiFirewall_charges packet.helpers packet.maps packet.frame
  have counted := tallies.verdict isOwn
  by_cases same :
      (aiFirewall packet.helpers packet.maps packet.frame).2.stats own =
        packet.maps.stats own
  · have notRaised : ¬packet.raises own = true := by
      rw [raises, decide_eq_true_eq]
      exact fun differs => differs same
    rw [one, if_neg notRaised, same]
    exact (add_zero _).symm
  · have isRaised : packet.raises own = true := by
      rw [raises, decide_eq_true_eq]
      exact same
    rw [one, if_pos isRaised, counted, one]
    split
    · rfl
    · rename_i other
      rw [one, if_neg other] at counted
      exact absurd (counted.trans (add_zero _)) same

/-- A frame is counted once, in a drop's slot when it is dropped. -/
theorem raises_one (packet : Packet) :
    ∃ slot ∈ verdictSlots,
      (packet.verdict = .drop ↔ slot ∈ dropSlots) ∧
        ∀ own ∈ verdictSlots, packet.raises own = decide (own = slot) := by
  obtain ⟨slot, isVerdict, dropped, tallies⟩ :=
    aiFirewall_charges packet.helpers packet.maps packet.frame
  refine ⟨slot, isVerdict, dropped, fun own isOwn => ?_⟩
  have counted := tallies.verdict isOwn
  rw [raises, counted, Bool.eq_iff_iff, decide_eq_true_eq,
    decide_eq_true_eq]
  constructor
  · intro differs
    by_contra other
    refine differs ?_
    rw [one, if_neg fun same => other (Option.some.inj same).symm]
    exact add_zero _
  · rintro rfl
    rw [one, if_pos rfl]
    generalize packet.maps.stats own = count
    intro same
    have values := congrArg BitVec.toNat same
    rw [BitVec.toNat_add] at values
    have bound := count.isLt
    have isOne : (1 : U64).toNat = 1 := rfl
    omega

/-- Passed or dropped for one of three reasons. -/
theorem sum_of_raises (packets : List Packet) :
    packets.countP (·.raises statPassed) =
        packets.countP (fun packet => packet.verdict = .pass) ∧
      packets.countP (·.raises statDropPolicy) +
          packets.countP (·.raises statDropBlocklist) +
          packets.countP (·.raises statDropFeed) =
        packets.countP (fun packet => packet.verdict = .drop) ∧
      packets.countP (fun packet => packet.verdict = .pass) +
          packets.countP (fun packet => packet.verdict = .drop) =
        packets.length := by
  induction packets with
  | nil =>
      exact ⟨rfl, rfl, rfl⟩
  | cons packet rest inductionHypothesis =>
      obtain ⟨passed, dropped, all⟩ := inductionHypothesis
      obtain ⟨slot, isVerdict, isDrop, raised⟩ := packet.raises_one
      simp only [List.countP_cons, List.length_cons,
        raised statPassed (by decide), raised statDropPolicy (by decide),
        raised statDropBlocklist (by decide),
        raised statDropFeed (by decide)]
      have slots :
          (if decide (statPassed = slot) = true then 1 else 0) =
              (if decide (packet.verdict = .pass) = true then 1 else 0) ∧
            (if decide (statDropPolicy = slot) = true then 1 else 0) +
                (if decide (statDropBlocklist = slot) = true then 1 else 0) +
                (if decide (statDropFeed = slot) = true then 1 else 0) =
              (if decide (packet.verdict = .drop) = true then 1 else 0) ∧
            (if decide (packet.verdict = .pass) = true then 1 else 0) +
                (if decide (packet.verdict = .drop) = true then 1 else 0) =
              1 := by
        generalize packet.verdict = verdict at isDrop
        revert isDrop
        fin_cases isVerdict <;> cases verdict <;> decide
      omega

end PacketTotals.Packet

namespace Site

variable
  {Score : Type}
  [ScoreArith Score]

/-- The frame of a step, with the maps it meets. -/
def met (site : Site Score) : SiteStep → List PacketTotals.Packet
  | .packet helpers frame => [⟨helpers, site.maps, frame⟩]
  | _ => []

/-- What some frames add to the counters. -/
structure Charges
    (before after : Fin 5 → U64)
    (packets : List PacketTotals.Packet) : Prop where
  counters : ∀ own ∈ verdictSlots,
    after own =
      before own + BitVec.ofNat 64 (packets.countP (·.raises own))
  lost :
    after statEventsLost =
      before statEventsLost + BitVec.ofNat 64 (packets.countP (·.isLost))

omit [ScoreArith Score] in
theorem charges_nothing (stats : Fin 5 → U64) :
    Charges stats stats [] where
  counters _ _ := (BitVec.add_zero _).symm
  lost := (BitVec.add_zero _).symm

theorem charges_frame (packet : PacketTotals.Packet) :
    Charges packet.maps.stats
      (aiFirewall packet.helpers packet.maps packet.frame).2.stats
      [packet] where
  counters own isOwn := by
    rw [packet.stats_after isOwn, one, List.countP_singleton]
    split <;> rfl
  lost := by
    obtain ⟨slot, isVerdict, _, tallies⟩ :=
      aiFirewall_charges packet.helpers packet.maps packet.frame
    have notVerdict : one (some slot = some statEventsLost) = 0 := by
      rw [one, if_neg]
      rintro same
      rw [Option.some.inj same] at isVerdict
      revert isVerdict
      decide
    have counted := tallies.stats statEventsLost
    rw [notVerdict, add_zero] at counted
    rw [counted, one, List.countP_singleton]
    simp only [PacketTotals.Packet.isLost, PacketTotals.Packet.isWorth,
      Bool.and_eq_true, Bool.not_eq_true', and_true]
    split <;> rfl

/-- Only a frame changes the counters. -/
theorem charges_step (site : Site Score) (step : SiteStep) :
    Charges site.others.stats (site.step step).others.stats
      (site.met step) := by
  cases step with
  | packet helpers frame =>
      exact charges_frame ⟨helpers, site.maps, frame⟩
  | pull =>
      rw [Site.step]
      cases next? site.system.phase site.others.events with
      | none => exact charges_nothing _
      | some pulled => exact charges_nothing _
  | observe host =>
      rw [Site.step]
      cases next? site.system.phase site.batch with
      | none => exact charges_nothing _
      | some handed => exact charges_nothing _
  | daemon event =>
      rw [Site.step]
      split <;> exact charges_nothing _

omit [ScoreArith Score] in
/-- What is charged in two parts of a run. -/
theorem Charges.append
    {before between after : Fin 5 → U64}
    {packets more : List PacketTotals.Packet}
    (first : Charges before between packets)
    (second : Charges between after more) :
    Charges before after (packets ++ more) where
  counters own isOwn := by
    rw [second.counters own isOwn, first.counters own isOwn,
      List.countP_append, BitVec.ofNat_add, BitVec.add_assoc]
  lost := by
    rw [second.lost, first.lost, List.countP_append, BitVec.ofNat_add,
      BitVec.add_assoc]

theorem charges_run (site : Site Score) (steps : List SiteStep) :
    Charges site.others.stats (run step site steps).others.stats
      (outputs step met site steps) := by
  induction steps using List.reverseRecOn with
  | nil =>
      exact charges_nothing _
  | append_singleton past event inductionHypothesis =>
      rw [run_concat, outputs_concat]
      exact inductionHypothesis.append (charges_step _ event)

omit [ScoreArith Score] in
/-- The difference of a counter that has not wrapped. -/
theorem toNat_difference
    {before after : U64}
    {count limit : Nat}
    (counted : after = before + BitVec.ofNat 64 count)
    (few : count ≤ limit)
    (noWrap : before.toNat + limit < 2 ^ 64) :
    (U64.saturatingSub after before).toNat = count := by
  rw [U64.toNat_saturatingSub, counted, BitVec.toNat_add, BitVec.toNat_ofNat,
    Nat.mod_eq_of_lt (by omega : count < 2 ^ 64), Nat.mod_eq_of_lt (by omega)]
  omega

omit [ScoreArith Score] in
/-- The bans that only the second status has. -/
theorem newBans_between
    {ipv6 : Ipv6Text}
    {before after : Status Score}
    (readsBack :
      ∀ ban ∈ before.bans ++ after.bans, ban.ip.ReadsBack ipv6) :
    (TrafficSample.between (before.view ipv6)
        (after.view ipv6)).newBans =
      after.bans.countP
        (fun ban => ban.ip ∉ before.bans.map StatusBan.ip) := by
  have known {ban : StatusBan} (listed : ban ∈ after.bans) :
      ban.ip.display ipv6 ∈ (before.view ipv6).bans ↔
        ban.ip ∈ before.bans.map StatusBan.ip := by
    rw [Status.view, List.mem_map, List.mem_map]
    refine exists_congr fun other =>
      and_congr_right fun isOld => ⟨fun same => ?_, congrArg _⟩
    -- A text that is read back stands for one source only.
    have read :=
      Src.fromStr_display (readsBack other (List.mem_append_left _ isOld))
    rw [same, Src.fromStr_display
      (readsBack ban (List.mem_append_right _ listed))] at read
    exact (Except.ok.inj read).symm
  show ((after.bans.map fun ban => ban.ip.display ipv6).filter _).length = _
  rw [← List.countP_eq_length_filter, List.countP_map]
  refine List.countP_congr fun ban listed => ?_
  rw [Function.comp_apply, Bool.not_eq_true', decide_eq_true_eq,
    ← known listed, ← Bool.not_eq_true, List.contains_iff_mem]

/--
Between two writes of the status file by one daemon, whatever comes in
whatever order while it lives: the test takes the first writing that is new
enough, and its numbers are those of the frames that came in between, those
passed and those dropped for each of the three reasons.  It is content when
no event of them was lost, its summary has the frames and the drops in a
second, and the new bans are the sources that only the second writing lists.
-/
theorem traffic_counts_frames
    {site : Site Score}
    {steps : List SiteStep}
    (noWrap :
      ∀ slot,
        (site.others.stats slot).toNat +
            (outputs step met site steps).length <
          2 ^ 64)
    {ipv6 : Ipv6Text}
    {earlier later : StatusInput}
    (readsBack :
      ∀ ban ∈ (site.status earlier).bans ++
          ((run step site steps).status later).bans,
        ban.ip.ReadsBack ipv6)
    {secs : U64}
    {stale : List (Option StatusView)}
    (isStale :
      ∀ seen, some seen ∈ stale →
        seen.updatedUnix < earlier.host.unixSecs + trafficSecs secs)
    (isNew :
      earlier.host.unixSecs + trafficSecs secs ≤ later.host.unixSecs)
    (rest : List (Option StatusView))
    (waited : String) :
    let frames := outputs step met site steps
    let before := site.status earlier
    let after := (run step site steps).status later
    let sample :=
      TrafficSample.between (before.view ipv6) (after.view ipv6)
    let report :=
      trafficTest secs (some (before.view ipv6))
        (stale ++ some (after.view ipv6) :: rest) waited
    let dropped := frames.countP fun frame => frame.verdict = .drop
    sample.passed.toNat =
        frames.countP (fun frame => frame.verdict = .pass) ∧
      sample.policy.toNat =
        frames.countP (·.raises statDropPolicy) ∧
      sample.banned.toNat =
        frames.countP (·.raises statDropBlocklist) ∧
      sample.feed.toNat = frames.countP (·.raises statDropFeed) ∧
      sample.policy.toNat + sample.banned.toNat + sample.feed.toNat =
        dropped ∧
      (report.ok = true ↔ ∀ frame ∈ frames, frame.isLost = false) ∧
      report.summary =
        Nat.repr (frames.length / sample.span.toNat) ++
          " packets/s in, " ++ Nat.repr (dropped / sample.span.toNat) ++
          " dropped/s" ∧
      sample.newBans =
        after.bans.countP
          (fun ban => ban.ip ∉ before.bans.map StatusBan.ip) := by
  intro frames before after sample report dropped
  have isReport : report = sample.report waited :=
    trafficTest_of_readings isStale isNew waited
  rw [isReport]
  obtain ⟨counters, lost⟩ := charges_run site steps
  have counted
      {own : Fin 5}
      (isOwn : own ∈ verdictSlots) :
      (U64.saturatingSub ((run step site steps).others.stats own)
        (site.others.stats own)).toNat =
        frames.countP (·.raises own) :=
    toNat_difference (counters own isOwn) List.countP_le_length (noWrap own)
  have passed : sample.passed.toNat = _ :=
    counted (by decide : statPassed ∈ verdictSlots)
  have policy : sample.policy.toNat = _ :=
    counted (by decide : statDropPolicy ∈ verdictSlots)
  have banned : sample.banned.toNat = _ :=
    counted (by decide : statDropBlocklist ∈ verdictSlots)
  have feed : sample.feed.toNat = _ :=
    counted (by decide : statDropFeed ∈ verdictSlots)
  have lostCount :
      sample.eventsLost.toNat = frames.countP (·.isLost) :=
    toNat_difference lost List.countP_le_length (noWrap statEventsLost)
  obtain ⟨isPassed, isDropped, all⟩ :=
    PacketTotals.Packet.sum_of_raises frames
  have few : frames.length < 2 ^ 64 := by
    have noWrapHere := noWrap statPassed
    exact Nat.lt_of_le_of_lt (Nat.le_add_left _ _) noWrapHere
  refine ⟨passed.trans isPassed, policy, banned, feed,
    by rw [policy, banned, feed, isDropped], ?_, ?_,
    newBans_between readsBack⟩
  · have isOk :
        (sample.report waited).ok = true ↔ sample.eventsLost = 0 :=
      decide_eq_true_iff
    rw [isOk, ← BitVec.toNat_inj, lostCount]
    exact List.countP_eq_zero.trans
      (forall₂_congr fun frame _ => Bool.not_eq_true _ ▸ Iff.rfl)
  · have twoDrops :
        (sample.policy + sample.banned).toNat =
          sample.policy.toNat + sample.banned.toNat :=
      BitVec.toNat_add_of_lt (by omega)
    have drops :
        (sample.policy + sample.banned + sample.feed).toNat = dropped := by
      rw [BitVec.toNat_add_of_lt (by omega), twoDrops]
      omega
    have withPassed :
        sample.passed + sample.policy + sample.banned + sample.feed =
          sample.passed +
            (sample.policy + sample.banned + sample.feed) := by
      rw [BitVec.add_assoc, BitVec.add_assoc, BitVec.add_assoc]
    have total :
        (sample.passed + sample.policy + sample.banned +
          sample.feed).toNat = frames.length := by
      rw [withPassed, BitVec.toNat_add_of_lt (by omega), drops]
      omega
    show
      Nat.repr (_ / sample.span).toNat ++ _ ++
        Nat.repr (_ / sample.span).toNat ++ _ = _
    rw [BitVec.toNat_udiv, BitVec.toNat_udiv, total, drops]

/-- Nobody prints an IPv6 address here. -/
def noIpv6 : Ipv6Text where
  print _ := []
  parse _ := none

/-- Port 22 has been opened, and another source has scanned as well. -/
def openedSite : Site Binary32 :=
  { justBanned with
    system :=
      { justBanned.system with
        world :=
          ruleStep justBanned.system.world
            (.call (refusing fun _ => false) (openOnly 22) none) }
    batch := List.replicate 3 { nullScan with srcIp := 0x0a000007 } }

/-- The daemon bans the other source between two of its frames, and sweeps
before a third one comes. -/
def betweenStatus : List SiteStep :=
  [.packet ⟨1002000000000, true, true⟩ (knock 0x0a000005 22),
    .packet ⟨1002000000001, true, true⟩ (knock 0x0a000007 22),
    .observe (clockedHost 1003 1000003),
    .observe (clockedHost 1003 1000003),
    .observe (clockedHost 1003 1000003),
    .packet ⟨1003000000001, true, true⟩ (knock 0x0a000007 22),
    .daemon (.sweep (clockedHost 1004 1000004)),
    .packet ⟨1004000000001, true, true⟩ (knock 0x0a000008 23)]

/-- The status five seconds later. -/
def laterStatus : StatusInput :=
  { scanStatus with host := clockedHost 1005 1000005 }

/-- One frame has passed, three were dropped, and one source is new. -/
theorem justBanned_traffic :
    let before := openedSite.status scanStatus
    let after := (run step openedSite betweenStatus).status laterStatus
    let sample :=
      TrafficSample.between (before.view noIpv6) (after.view noIpv6)
    sample.passed.toNat = 1 ∧
      sample.policy.toNat = 1 ∧
      sample.banned.toNat = 2 ∧
      sample.newBans = 1 := by
  intro before after sample
  have noWrap :
      ∀ slot,
        (openedSite.others.stats slot).toNat +
            (outputs step met openedSite betweenStatus).length <
          2 ^ 64 := by
    decide +kernel
  have isV4 :
      ∀ ban ∈ before.bans ++ after.bans,
        ban.ip ∈ [Src.v4 0x0a000005, .v4 0x0a000007] := by
    decide +kernel
  have readsBack :
      ∀ ban ∈ before.bans ++ after.bans, ban.ip.ReadsBack noIpv6 := by
    intro ban listed
    rcases List.mem_pair.mp (isV4 ban listed) with isFirst | isSecond
    · rw [isFirst]
      exact trivial
    · rw [isSecond]
      exact trivial
  have isStale :
      ∀ seen, some seen ∈ ([] : List (Option StatusView)) →
        seen.updatedUnix < scanStatus.host.unixSecs + trafficSecs 5 :=
    fun _ member => absurd member List.not_mem_nil
  obtain ⟨passed, policy, banned, _, _, _, _, newBans⟩ :=
    traffic_counts_frames noWrap readsBack isStale (by decide +kernel) []
      "5.0"
  exact ⟨passed.trans (by decide +kernel), policy.trans (by decide +kernel),
    banned.trans (by decide +kernel), newBans.trans (by decide +kernel)⟩

end Site

end AiFirewall
