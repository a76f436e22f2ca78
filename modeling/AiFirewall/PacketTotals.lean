import AiFirewall.XdpProgram

namespace AiFirewall

/-!
# Totals of packets

The status and the traffic test read totals off the counters of the XDP
program, which are raised in different functions on many paths.  Each frame
is charged here to one counter; what the totals say follows from the charges
of a run.  Between two frames user space may write every map but the
counters and the events.
-/

/-- What reaches `policy` of a frame. -/
structure PolicyInput where
  source : Source
  flow : Flow
  /-- A recorded flow expects it. -/
  expected : Bool

namespace PolicyInput

/-- An opener, an odd segment, or UDP that is no reply. -/
def isNotable (maps : KernelMaps) (input : PolicyInput) : Bool :=
  (input.flow.proto = protoTcp &&
      (opener input.flow.tcpFlags || odd input.flow.tcpFlags)) ||
    (input.flow.proto = protoUdp &&
      !(input.expected || looseReply maps input.flow.dstPort))

/-- The IPv4 frames that reach `policy`. -/
def ofIpv4
    (helpers : Helpers)
    (maps : KernelMaps)
    (frame : Frame) :
    Option PolicyInput :=
  if frame.length < ethLen + ipv4Len ∨
      live helpers.now (maps.blocklist.get? frame.ipv4Src) ∨
      maps.feeds.matchesAddress
        (triePrefix 32 (BitPrefix.bytes32 frame.ipv4Src)) ∨
      frame.fragOffset ≠ 0 ∨ frame.ihl < ipv4Len ∨
      frame.ipv4Proto = ipProtoIcmp then
    none
  else
    (parseL4 frame.ipv4Proto frame (ethLen + frame.ihl)).map fun flow =>
      { source := ⟨familyV4, frame.ipv4Src, 0⟩
        flow := flow
        expected := expectedReply helpers maps frame.ipv4Src flow }

/-- The IPv6 frames that reach `policy`. -/
def ofIpv6
    (helpers : Helpers)
    (maps : KernelMaps)
    (frame : Frame) :
    Option PolicyInput :=
  if frame.length < ethLen + ipv6Len ∨
      live helpers.now (maps.blocklist6.get? frame.ipv6Prefix) ∨
      frame.ipv6NextHdr = ipProtoIcmpv6 then
    none
  else
    (parseL4 frame.ipv6NextHdr frame (ethLen + ipv6Len)).map fun flow =>
      { source := ⟨familyV6, 0, frame.ipv6Prefix⟩
        flow := flow
        expected := expectedReply6 helpers maps frame.ipv6Src flow }

def ofFrame
    (helpers : Helpers)
    (maps : KernelMaps)
    (frame : Frame) :
    Option PolicyInput :=
  if frame.length < ethLen then
    none
  else if frame.etherType = etherTypeIpv4 then
    ofIpv4 helpers maps frame
  else if frame.etherType = etherTypeIpv6 then
    ofIpv6 helpers maps frame
  else
    none

end PolicyInput

namespace PacketTotals

/-- Something notable reached `policy`, and not by a group address. -/
def worthEvent
    (maps : KernelMaps)
    (frame : Frame)
    (input : Option PolicyInput) : Bool :=
  !frame.toEveryone && input.any (PolicyInput.isNotable maps)

/-- One, if the fact holds. -/
def one (fact : Prop) [Decidable fact] : U64 :=
  if fact then 1 else 0

/-- What one run of the program adds to the counters and the events. -/
structure Tallies
    (helpers : Helpers)
    (before after : KernelMaps)
    (slot : Option (Fin 5))
    (worth : Bool) : Prop where
  stats : ∀ own,
    after.stats own =
      before.stats own + one (slot = some own) +
        one (worth = true ∧ helpers.eventRoom = false ∧ own = statEventsLost)
  events :
    after.events.length =
      before.events.length + (worth && helpers.eventRoom).toNat

/-- The counters of the drops. -/
def dropSlots : List (Fin 5) :=
  [statDropBlocklist, statDropFeed, statDropPolicy]

/-- A drop is charged to one of the drop counters, a pass to none so far. -/
def Charged : XdpAction → Option (Fin 5) → Prop
  | .pass, slot => slot = none
  | .drop, slot => ∃ own ∈ dropSlots, slot = some own

/-- One run of the program is accounted for. -/
def Accounted
    (helpers : Helpers)
    (maps : KernelMaps)
    (result : XdpAction × KernelMaps)
    (worth : Bool) : Prop :=
  ∃ slot, Charged result.1 slot ∧ Tallies helpers maps result.2 slot worth

theorem accounted_pass (helpers : Helpers) (maps : KernelMaps) :
    Accounted helpers maps (.pass, maps) false := by
  refine ⟨none, rfl, fun own => ?_, rfl⟩
  simp [one]

theorem bump_stats
    (slot own : Fin 5)
    (maps : KernelMaps) :
    (bump slot maps).stats own =
      maps.stats own + one (some slot = some own) := by
  rw [bump, one]
  by_cases same : own = slot
  · subst same
    simp
  · simp [same, Ne.symm same]

theorem accounted_drop
    {slot : Fin 5}
    (helpers : Helpers)
    (maps : KernelMaps)
    (isDrop : slot ∈ dropSlots) :
    Accounted helpers maps (.drop, bump slot maps) false := by
  refine ⟨some slot, ⟨slot, isDrop, rfl⟩, fun own => ?_, rfl⟩
  rw [bump_stats]
  simp [one]

theorem judge_interesting
    (helpers : Helpers)
    (maps : KernelMaps)
    (input : PolicyInput)
    (known : input.flow.proto = protoTcp ∨ input.flow.proto = protoUdp) :
    (judge helpers maps input.source input.flow
        input.expected).interesting =
      input.isNotable maps := by
  have different : protoTcp ≠ protoUdp := by
    decide
  unfold judge PolicyInput.isNotable
  rcases known with tcp | udp
  · rw [if_pos tcp, tcp]
    split
    · simp [*]
    · split
      · split <;> simp [*]
      · simp [*]
  · have notTcp : ¬ input.flow.proto = protoTcp := by
      rw [udp]
      exact different.symm
    rw [if_neg notTcp]
    simp [udp, looseReply, different.symm]

/-- Judging a packet counts nothing and reports nothing. -/
theorem judge_uncounted
    (helpers : Helpers)
    (maps : KernelMaps)
    (source : Source)
    (flow : Flow)
    (reply : Bool) :
    (judge helpers maps source flow reply).maps.stats = maps.stats ∧
      (judge helpers maps source flow reply).maps.events = maps.events := by
  have rated :
      (overRate helpers maps source flow.dstPort).2.stats = maps.stats ∧
        (overRate helpers maps source flow.dstPort).2.events =
          maps.events := by
    unfold overRate
    dsimp only
    split
    · exact ⟨rfl, rfl⟩
    · split
      · split <;> exact ⟨rfl, rfl⟩
      · split <;> exact ⟨rfl, rfl⟩
  unfold judge
  split
  · split
    · exact ⟨rfl, rfl⟩
    · split
      · split
        · exact rated
        · exact ⟨rfl, rfl⟩
      · exact ⟨rfl, rfl⟩
  · exact ⟨rfl, rfl⟩

theorem report_tallies
    (helpers : Helpers)
    (source : Source)
    (flow : Flow)
    (allowed : Bool)
    (maps : KernelMaps) :
    Tallies helpers maps (report helpers source flow allowed maps) none true := by
  unfold report
  cases room : helpers.eventRoom with
  | true =>
      refine ⟨fun own => ?_, ?_⟩
      · simp [one, room]
      · simp [room]
  | false =>
      refine ⟨fun own => ?_, ?_⟩
      · simp only [Bool.false_eq_true, if_false, bump_stats, Option.some.injEq]
        simp [one, room, eq_comm]
      · simp [bump, room]

/-- What was counted so far does not depend on how a state was reached. -/
theorem Tallies.of_uncounted
    {helpers : Helpers}
    {before other after : KernelMaps}
    {slot : Option (Fin 5)}
    {worth : Bool}
    (tallies : Tallies helpers other after slot worth)
    (sameStats : other.stats = before.stats)
    (sameEvents : other.events = before.events) :
    Tallies helpers before after slot worth where
  stats := by
    rw [← sameStats]
    exact tallies.stats
  events := by
    rw [← sameEvents]
    exact tallies.events

/-- A counter raised at the end is the one charged. -/
theorem Tallies.bump
    {helpers : Helpers}
    {before after : KernelMaps}
    {worth : Bool}
    (tallies : Tallies helpers before after none worth)
    (slot : Fin 5) :
    Tallies helpers before (bump slot after) (some slot) worth where
  stats own := by
    have uncharged :
        before.stats own + one ((none : Option (Fin 5)) = some own) =
          before.stats own := by
      simp [one]
    rw [bump_stats, tallies.stats, uncharged]
    exact add_right_comm _ _ _
  events := tallies.events

theorem policy_accounted
    {helpers : Helpers}
    {maps : KernelMaps}
    (frame : Frame)
    (input : PolicyInput)
    (known : input.flow.proto = protoTcp ∨ input.flow.proto = protoUdp) :
    Accounted helpers maps
      (policy helpers maps input.source input.flow frame.toEveryone
        input.expected)
      (worthEvent maps frame (some input)) := by
  have interesting := judge_interesting helpers maps input known
  obtain ⟨sameStats, sameEvents⟩ :=
    judge_uncounted helpers maps input.source input.flow input.expected
  have worth :
      worthEvent maps frame (some input) =
        (input.isNotable maps && !frame.toEveryone) := by
    rw [worthEvent, Option.any_some, Bool.and_comm]
  unfold policy
  dsimp only
  rw [worth, ← interesting]
  generalize judge helpers maps input.source input.flow
    input.expected = judgement at sameStats sameEvents ⊢
  have reported :
      Tallies helpers maps
        (if judgement.interesting && !frame.toEveryone then
          report helpers input.source input.flow judgement.allowed
            judgement.maps
        else
          judgement.maps)
        none (judgement.interesting && !frame.toEveryone) := by
    cases told : judgement.interesting && !frame.toEveryone with
    | true =>
        exact (report_tallies helpers input.source input.flow
          judgement.allowed judgement.maps).of_uncounted sameStats sameEvents
    | false =>
        obtain ⟨slot, isPass, tallies⟩ := accounted_pass helpers judgement.maps
        rw [isPass] at tallies
        exact tallies.of_uncounted sameStats sameEvents
  split
  · exact ⟨some statDropPolicy, ⟨statDropPolicy, by decide, rfl⟩,
      reported.bump statDropPolicy⟩
  · exact ⟨none, rfl, reported⟩

theorem icmpVerdict_accounted
    (helpers : Helpers)
    (maps : KernelMaps)
    (frame : Frame)
    (l4 : Nat)
    (echoRequest : U8) :
    Accounted helpers maps (icmpVerdict maps frame l4 echoRequest) false := by
  unfold icmpVerdict
  split
  · exact accounted_pass helpers maps
  · split
    · exact accounted_drop helpers maps (by decide)
    · exact accounted_pass helpers maps

/-- Only TCP and UDP headers are read. -/
theorem parseL4_proto
    {proto : U8}
    {frame : Frame}
    {l4 : Nat}
    {flow : Flow}
    (parsed : parseL4 proto frame l4 = some flow) :
    flow.proto = protoTcp ∨ flow.proto = protoUdp := by
  unfold parseL4 at parsed
  dsimp only at parsed
  split at parsed
  · split at parsed
    · cases parsed
    · exact .inl (by rw [← Option.some.inj parsed])
  · split at parsed
    · split at parsed
      · cases parsed
      · exact .inr (by rw [← Option.some.inj parsed])
    · cases parsed

/-- Whatever is read at the fourth layer is accounted for. -/
theorem parsed_accounted
    {helpers : Helpers}
    {maps : KernelMaps}
    {frame : Frame}
    {proto : U8}
    {l4 : Nat}
    (source : Source)
    (expected : Flow → Bool) :
    Accounted helpers maps
      (match parseL4 proto frame l4 with
      | none => (.pass, maps)
      | some flow =>
          policy helpers maps source flow frame.toEveryone (expected flow))
      (worthEvent maps frame
        ((parseL4 proto frame l4).map fun flow =>
          { source := source, flow := flow, expected := expected flow })) := by
  cases parsed : parseL4 proto frame l4 with
  | none =>
      have noWorth : worthEvent maps frame none = false := by
        simp [worthEvent]
      rw [Option.map_none, noWorth]
      exact accounted_pass helpers maps
  | some flow =>
      exact policy_accounted frame ⟨source, flow, expected flow⟩
        (parseL4_proto parsed)

@[simp] theorem worthEvent_none (maps : KernelMaps) (frame : Frame) :
    worthEvent maps frame none = false := by
  simp [worthEvent]

theorem tryIpv4_accounted
    (helpers : Helpers)
    (maps : KernelMaps)
    (frame : Frame) :
    Accounted helpers maps (tryIpv4 helpers maps frame)
      (worthEvent maps frame (PolicyInput.ofIpv4 helpers maps frame)) := by
  unfold tryIpv4 PolicyInput.ofIpv4
  dsimp only
  by_cases short : frame.length < ethLen + ipv4Len
  · simp only [short, true_or, if_true, worthEvent_none]
    exact accounted_pass helpers maps
  by_cases banned : live helpers.now (maps.blocklist.get? frame.ipv4Src)
  · simp only [short, banned, true_or, or_true, if_true, if_false,
      worthEvent_none]
    exact accounted_drop helpers maps (by decide)
  by_cases listed :
      maps.feeds.matchesAddress
        (triePrefix 32 (BitPrefix.bytes32 frame.ipv4Src))
  · simp only [short, banned, listed, true_or, or_true, if_true, if_false,
      worthEvent_none]
    exact accounted_drop helpers maps (by decide)
  by_cases fragment : frame.fragOffset ≠ 0
  · simp only [short, banned, listed, ne_eq, fragment, not_false_eq_true,
      true_or, or_true, if_true, if_false, Bool.false_eq_true,
      worthEvent_none]
    exact accounted_pass helpers maps
  by_cases noHeader : frame.ihl < ipv4Len
  · simp only [short, banned, listed, fragment, noHeader, true_or, or_true,
      if_true, if_false, worthEvent_none]
    exact accounted_pass helpers maps
  by_cases icmp : frame.ipv4Proto = ipProtoIcmp
  · simp only [short, banned, listed, fragment, noHeader, icmp, or_true,
      if_true, if_false, worthEvent_none]
    exact icmpVerdict_accounted helpers maps frame _ _
  · simp only [short, banned, listed, fragment, noHeader, icmp, or_self,
      if_false]
    exact parsed_accounted _ _

theorem tryIpv6_accounted
    (helpers : Helpers)
    (maps : KernelMaps)
    (frame : Frame) :
    Accounted helpers maps (tryIpv6 helpers maps frame)
      (worthEvent maps frame (PolicyInput.ofIpv6 helpers maps frame)) := by
  unfold tryIpv6 PolicyInput.ofIpv6
  dsimp only
  by_cases short : frame.length < ethLen + ipv6Len
  · simp only [short, true_or, if_true, worthEvent_none]
    exact accounted_pass helpers maps
  by_cases banned : live helpers.now (maps.blocklist6.get? frame.ipv6Prefix)
  · simp only [short, banned, true_or, or_true, if_true, if_false,
      worthEvent_none]
    exact accounted_drop helpers maps (by decide)
  by_cases icmp : frame.ipv6NextHdr = ipProtoIcmpv6
  · simp only [short, banned, icmp, or_true, if_true, if_false,
      worthEvent_none]
    exact icmpVerdict_accounted helpers maps frame _ _
  · simp only [short, banned, icmp, if_false]
    exact parsed_accounted _ _

theorem tryAiFirewall_accounted
    (helpers : Helpers)
    (maps : KernelMaps)
    (frame : Frame) :
    Accounted helpers maps (tryAiFirewall helpers maps frame)
      (worthEvent maps frame (PolicyInput.ofFrame helpers maps frame)) := by
  unfold tryAiFirewall PolicyInput.ofFrame
  split
  · rw [worthEvent_none]
    exact accounted_pass helpers maps
  split
  · exact tryIpv4_accounted helpers maps frame
  split
  · exact tryIpv6_accounted helpers maps frame
  · rw [worthEvent_none]
    exact accounted_pass helpers maps

/-- Passed, and the three kinds of drops. -/
def verdictSlots : List (Fin 5) :=
  [statPassed, statDropBlocklist, statDropFeed, statDropPolicy]

/-- A lost event is charged to no verdict's counter. -/
theorem Tallies.verdict
    {helpers : Helpers}
    {before after : KernelMaps}
    {slot : Option (Fin 5)}
    {worth : Bool}
    {own : Fin 5}
    (tallies : Tallies helpers before after slot worth)
    (isVerdict : own ∈ verdictSlots) :
    after.stats own = before.stats own + one (slot = some own) := by
  have notLost :
      one (worth = true ∧ helpers.eventRoom = false ∧ own = statEventsLost) =
        0 := by
    rw [one, if_neg]
    rintro ⟨_, _, rfl⟩
    revert isVerdict
    decide
  rw [tallies.stats, notLost]
  exact BitVec.add_zero _

/-- The program charges each frame to one counter; drops to a drop counter. -/
theorem aiFirewall_charges
    (helpers : Helpers)
    (maps : KernelMaps)
    (frame : Frame) :
    ∃ slot ∈ verdictSlots,
      ((aiFirewall helpers maps frame).1 = .drop ↔ slot ∈ dropSlots) ∧
      Tallies helpers maps (aiFirewall helpers maps frame).2 (some slot)
        (worthEvent maps frame (PolicyInput.ofFrame helpers maps frame)) := by
  obtain ⟨slot, charged, tallies⟩ := tryAiFirewall_accounted helpers maps frame
  unfold aiFirewall
  generalize tryAiFirewall helpers maps frame = result at charged tallies ⊢
  obtain ⟨action, after⟩ := result
  cases action with
  | pass =>
      rw [Charged] at charged
      subst charged
      refine ⟨statPassed, by decide, ?_, tallies.bump statPassed⟩
      exact iff_of_false (fun same => by cases same) (by decide)
  | drop =>
      obtain ⟨own, isDrop, rfl⟩ := charged
      refine ⟨own, ?_, iff_of_true rfl isDrop, tallies⟩
      exact List.mem_cons_of_mem statPassed isDrop

/-- A frame, with the maps it meets and what the helpers answer. -/
structure Packet where
  helpers : Helpers
  /-- Everything user space may have written before it. -/
  maps : KernelMaps
  frame : Frame

namespace Packet

/-- The maps a frame meets: the counters and the events are carried on. -/
def met (packet : Packet) (carried : KernelMaps) : KernelMaps :=
  { packet.maps with
    stats := carried.stats
    events := carried.events }

/-- The frame is worth an event. -/
def isWorth (packet : Packet) : Bool :=
  worthEvent packet.maps packet.frame
    (PolicyInput.ofFrame packet.helpers packet.maps packet.frame)

end Packet

/-- One frame of a run. -/
def receive
    (carried : KernelMaps)
    (packet : Packet) :
    XdpAction × KernelMaps :=
  aiFirewall packet.helpers (packet.met carried) packet.frame

/-- The verdicts of a run, and the maps after it. -/
def receiveAll
    (carried : KernelMaps) :
    List Packet → List XdpAction × KernelMaps
  | [] => ([], carried)
  | packet :: rest =>
      let (action, after) := receive carried packet
      let (actions, final) := receiveAll after rest
      (action :: actions, final)

/-- What a frame is worth does not depend on the counters it meets. -/
theorem worthEvent_met (packet : Packet) (carried : KernelMaps) :
    worthEvent (packet.met carried) packet.frame
        (PolicyInput.ofFrame packet.helpers (packet.met carried) packet.frame) =
      packet.isWorth :=
  rfl

theorem receive_charges
    (carried : KernelMaps)
    (packet : Packet) :
    ∃ slot ∈ verdictSlots,
      ((receive carried packet).1 = .drop ↔ slot ∈ dropSlots) ∧
      Tallies packet.helpers carried (receive carried packet).2 (some slot)
        packet.isWorth := by
  obtain ⟨slot, isVerdict, dropped, tallies⟩ :=
    aiFirewall_charges packet.helpers (packet.met carried) packet.frame
  rw [worthEvent_met] at tallies
  exact ⟨slot, isVerdict, dropped, tallies.of_uncounted rfl rfl⟩

/-- One more of something counted. -/
theorem ofNat_add_one (fact : Prop) [Decidable fact] (count : Nat) :
    one fact + BitVec.ofNat 64 count =
      BitVec.ofNat 64 (count + if fact then 1 else 0) := by
  rw [one]
  split
  · rw [BitVec.ofNat_add, BitVec.add_comm]
    rfl
  · rw [Nat.add_zero]
    exact BitVec.zero_add _

/-- The event of the frame was lost. -/
def Packet.isLost (packet : Packet) : Bool :=
  packet.isWorth && !packet.helpers.eventRoom

/-- The event of the frame was submitted. -/
def Packet.isTold (packet : Packet) : Bool :=
  packet.isWorth && packet.helpers.eventRoom

/-- What the charges of a run add up to. -/
structure Totals
    (carried : KernelMaps)
    (packets : List Packet)
    (actions : List XdpAction)
    (final : KernelMaps)
    (slots : List (Fin 5)) : Prop where
  charged : slots.length = packets.length
  verdicts : ∀ slot ∈ slots, slot ∈ verdictSlots
  drops :
    actions.map (· == .drop) = slots.map fun slot => decide (slot ∈ dropSlots)
  counters : ∀ own ∈ verdictSlots,
    final.stats own = carried.stats own + BitVec.ofNat 64 (slots.count own)
  lost :
    final.stats statEventsLost =
      carried.stats statEventsLost +
        BitVec.ofNat 64 (packets.countP Packet.isLost)
  told :
    final.events.length =
      carried.events.length + packets.countP Packet.isTold

theorem receiveAll_totals
    (carried : KernelMaps)
    (packets : List Packet) :
    ∃ slots,
      Totals carried packets (receiveAll carried packets).1
        (receiveAll carried packets).2 slots := by
  induction packets generalizing carried with
  | nil =>
      refine ⟨[], rfl, List.forall_mem_nil _, rfl, fun own _ => ?_, ?_, rfl⟩
      · exact (BitVec.add_zero _).symm
      · exact (BitVec.add_zero _).symm
  | cons packet rest inductionHypothesis =>
      obtain ⟨slot, isVerdict, dropped, tallies⟩ :=
        receive_charges carried packet
      obtain ⟨slots, totals⟩ := inductionHypothesis (receive carried packet).2
      refine ⟨slot :: slots, ?_, ?_, ?_, fun own isOwn => ?_, ?_, ?_⟩
      · rw [List.length_cons, List.length_cons, totals.charged]
      · exact List.forall_mem_cons.mpr ⟨isVerdict, totals.verdicts⟩
      · have first :
            ((receive carried packet).1 == .drop) = decide (slot ∈ dropSlots) := by
          rw [Bool.eq_iff_iff, beq_iff_eq, decide_eq_true_iff]
          exact dropped
        rw [receiveAll, List.map_cons, List.map_cons, totals.drops, first]
      · have counted := totals.counters own isOwn
        rw [tallies.verdict isOwn] at counted
        rw [receiveAll, counted, List.count_cons, ← ofNat_add_one]
        simp only [one, Option.some.injEq, beq_iff_eq, BitVec.add_assoc]
      · have notVerdict : one (some slot = some statEventsLost) = 0 := by
          rw [one, if_neg]
          rintro same
          rw [Option.some.inj same] at isVerdict
          revert isVerdict
          decide
        have counted := totals.lost
        rw [tallies.stats, notVerdict] at counted
        rw [receiveAll, counted, List.countP_cons, ← ofNat_add_one]
        simp only [one, Packet.isLost, Bool.and_eq_true, Bool.not_eq_true',
          and_true, BitVec.add_zero, BitVec.ofNat_eq_ofNat, BitVec.add_assoc]
      · have counted := totals.told
        rw [tallies.events] at counted
        rw [receiveAll, counted, List.countP_cons]
        have first :
            (packet.isWorth && packet.helpers.eventRoom).toNat =
              if packet.isTold then 1 else 0 := by
          rw [Packet.isTold]
          cases packet.isWorth && packet.helpers.eventRoom <;> rfl
        omega

/-- Every charge of a verdict is at one of its four counters. -/
theorem sum_of_verdicts
    {slots : List (Fin 5)}
    (verdicts : ∀ slot ∈ slots, slot ∈ verdictSlots) :
    slots.count statPassed + slots.count statDropBlocklist +
        slots.count statDropFeed + slots.count statDropPolicy =
      slots.length ∧
    slots.countP (fun slot => decide (slot ∈ dropSlots)) =
      slots.count statDropBlocklist + slots.count statDropFeed +
        slots.count statDropPolicy := by
  induction slots with
  | nil =>
      exact ⟨rfl, rfl⟩
  | cons slot rest inductionHypothesis =>
      obtain ⟨isVerdict, others⟩ := List.forall_mem_cons.mp verdicts
      obtain ⟨all, dropped⟩ := inductionHypothesis others
      simp only [List.count_cons, List.countP_cons, List.length_cons]
      have one_slot :
          ∀ own ∈ verdictSlots,
            (if own == statPassed then 1 else 0) +
                (if own == statDropBlocklist then 1 else 0) +
                (if own == statDropFeed then 1 else 0) +
                (if own == statDropPolicy then 1 else 0) = 1 ∧
              (if decide (own ∈ dropSlots) = true then 1 else 0) =
                (if own == statDropBlocklist then 1 else 0) +
                  (if own == statDropFeed then 1 else 0) +
                  (if own == statDropPolicy then 1 else 0) := by
        decide
      obtain ⟨first, second⟩ := one_slot slot isVerdict
      omega

/-- A notable frame is told of or lost. -/
theorem lost_add_told (packets : List Packet) :
    packets.countP Packet.isTold + packets.countP Packet.isLost =
      packets.countP Packet.isWorth := by
  induction packets with
  | nil =>
      rfl
  | cons packet rest inductionHypothesis =>
      simp only [List.countP_cons]
      have first :
          (if packet.isTold = true then 1 else 0) +
              (if packet.isLost = true then 1 else 0) =
            if packet.isWorth = true then 1 else 0 := by
        rw [Packet.isTold, Packet.isLost]
        cases packet.isWorth <;> cases packet.helpers.eventRoom <;> rfl
      omega

/-- A counter, as a number. -/
def total (maps : KernelMaps) (slot : Fin 5) : Nat :=
  (maps.stats slot).toNat

theorem toNat_of_count
    {value : U64}
    {count : Nat}
    (isCount : value = 0 + BitVec.ofNat 64 count)
    (fits : count < 2 ^ 64) :
    value.toNat = count := by
  rw [isCount, zero_add, BitVec.toNat_ofNat, Nat.mod_eq_of_lt fits]

/-- The drops among the verdicts are the charges of drop counters. -/
theorem count_drop
    {actions : List XdpAction}
    {slots : List (Fin 5)}
    (drops :
      actions.map (· == .drop) =
        slots.map fun slot => decide (slot ∈ dropSlots)) :
    actions.count .drop =
      slots.countP fun slot => decide (slot ∈ dropSlots) := by
  have counted := congrArg (List.countP id) drops
  rw [List.countP_map, List.countP_map] at counted
  exact counted

/--
After any frames, from counters at zero and without a wrap: the four
verdicts add up to the frames, the drops are the last three, and the events
with those lost are the notable frames.  The next frame raises exactly one of
the four counters, one of the last three if and only if it is dropped.
-/
theorem every_frame_counted_once
    (packets : List Packet)
    (noWrap : packets.length < 2 ^ 64) :
    let final := (receiveAll .fresh packets).2
    total final statPassed + total final statDropBlocklist +
        total final statDropFeed + total final statDropPolicy =
      packets.length ∧
    (receiveAll .fresh packets).1.count .drop =
      total final statDropBlocklist + total final statDropFeed +
        total final statDropPolicy ∧
    final.events.length + total final statEventsLost =
      packets.countP Packet.isWorth ∧
    ∀ packet : Packet, ∃ slot ∈ verdictSlots,
      ((receive final packet).1 = .drop ↔ slot ∈ dropSlots) ∧
      ∀ own ∈ verdictSlots,
        (receive final packet).2.stats own =
          final.stats own + if slot = own then 1 else 0 := by
  obtain ⟨slots, totals⟩ := receiveAll_totals .fresh packets
  generalize receiveAll .fresh packets = result at totals ⊢
  obtain ⟨actions, final⟩ := result
  dsimp only at totals ⊢
  have counted : ∀ own ∈ verdictSlots, total final own = slots.count own := by
    intro own isOwn
    refine toNat_of_count (totals.counters own isOwn) ?_
    have few := List.count_le_length (a := own) (l := slots)
    rw [totals.charged] at few
    omega
  have lost :
      total final statEventsLost = packets.countP Packet.isLost := by
    refine toNat_of_count totals.lost ?_
    have few := List.countP_le_length (p := Packet.isLost) (l := packets)
    omega
  obtain ⟨all, dropped⟩ := sum_of_verdicts totals.verdicts
  rw [counted statPassed (by decide), counted statDropBlocklist (by decide),
    counted statDropFeed (by decide), counted statDropPolicy (by decide), lost,
    all, totals.charged, count_drop totals.drops, dropped, totals.told]
  refine ⟨rfl, rfl, ?_, fun packet => ?_⟩
  · have told := lost_add_told packets
    have noEvents : KernelMaps.fresh.events.length = 0 := rfl
    omega
  · obtain ⟨slot, isVerdict, isDrop, tallies⟩ := receive_charges final packet
    refine ⟨slot, isVerdict, isDrop, fun own isOwn => ?_⟩
    rw [tallies.verdict isOwn]
    simp only [one, Option.some.injEq]

/-- The first segment of a TCP connection, from a source to a port. -/
def knock (sender : U32) (port : U16) : Frame :=
  [2, 0, 0, 0, 0, 9, 2, 0, 0, 0, 0, 5, 0x08, 0x00] ++
    [0x45, 0, 0, 40, 0, 0, 0, 0, 64, 6, 0, 0] ++
    [sender.extractLsb' 24 8, sender.extractLsb' 16 8,
      sender.extractLsb' 8 8, sender.extractLsb' 0 8] ++
    [10, 0, 0, 9, 0x9c, 0x40] ++
    [port.extractLsb' 8 8, port.extractLsb' 0 8] ++
    [0, 0, 0, 0, 0, 0, 0, 0, 0x50, 2, 0, 0, 0, 0, 0, 0]

/-- Port 22 is open, and 10.0.0.5 is banned. -/
def guardedMaps : KernelMaps :=
  { KernelMaps.fresh with
    config := fun setting => if setting = cfgEnforce then 1 else 0
    tcpAllow := fun port => if port = 22 then 1 else 0
    blocklist := (BoundedMap.empty.insert? 0x0a000005 0).getD .empty }

/-- One frame passes, one finds its port closed, one its source banned, and
one is too short for an Ethernet header; there is no room for an event of the
second. -/
def mixedPackets : List Packet :=
  [⟨⟨0, true, true⟩, guardedMaps, knock 0x0a000007 22⟩,
    ⟨⟨1, false, true⟩, guardedMaps, knock 0x0a000007 23⟩,
    ⟨⟨2, true, true⟩, guardedMaps, knock 0x0a000005 22⟩,
    ⟨⟨3, true, true⟩, guardedMaps, []⟩]

/-- Two passed, two were dropped, and of two notable frames one is told. -/
theorem mixed_packets_counted :
    (receiveAll .fresh mixedPackets).1 = [.pass, .drop, .drop, .pass] ∧
      total (receiveAll .fresh mixedPackets).2 statPassed +
          total (receiveAll .fresh mixedPackets).2 statDropBlocklist +
          total (receiveAll .fresh mixedPackets).2 statDropFeed +
          total (receiveAll .fresh mixedPackets).2 statDropPolicy =
        4 ∧
      total (receiveAll .fresh mixedPackets).2 statDropBlocklist +
          total (receiveAll .fresh mixedPackets).2 statDropFeed +
          total (receiveAll .fresh mixedPackets).2 statDropPolicy =
        2 ∧
      (receiveAll .fresh mixedPackets).2.events.length +
          total (receiveAll .fresh mixedPackets).2 statEventsLost =
        2 := by
  have verdicts :
      (receiveAll .fresh mixedPackets).1 = [.pass, .drop, .drop, .pass] := by
    decide +kernel
  have worth : mixedPackets.countP Packet.isWorth = 2 := by
    decide +kernel
  obtain ⟨all, dropped, told, _⟩ :=
    every_frame_counted_once mixedPackets (by decide)
  rw [verdicts] at dropped
  rw [worth] at told
  exact ⟨verdicts, all, dropped.symm, told⟩

end PacketTotals

end AiFirewall
