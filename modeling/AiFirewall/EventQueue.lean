import AiFirewall.DaemonRuns
import AiFirewall.MonitorMode
import AiFirewall.PacketTotals
import AiFirewall.PlainDetector
import AiFirewall.RunOutputs

namespace AiFirewall

/-!
# From the kernel to the detector

The program streams what it judges into the ring, the event reader takes the
ring's events into a batch, and the detector sees the batch one by one.
Packets, the daemon and the command line go on meanwhile.  Whatever the
order, the detector sees what the program has told, in the same order, each
event once.
-/

open Runs

namespace Frame

/-- Who a frame comes from, as bans know it. -/
def src (frame : Frame) : IpVersion → Src
  | .v4 => .v4 frame.ipv4Src
  | .v6 => .v6 frame.ipv6Prefix

end Frame

/-- The event that `report` streams. -/
def PolicyInput.event (input : PolicyInput) (allowed : Bool) : PacketEvent where
  src6 := input.source.v6
  srcIp := input.source.v4
  dstPort := input.flow.dstPort
  srcPort := input.flow.srcPort
  protocol := input.flow.proto
  tcpFlags := input.flow.tcpFlags
  payloadLen := input.flow.payloadLen
  verdict := if allowed then verdictPass else verdictDropPolicy
  family := input.source.family

/-- What the program tells of: UDP, odd segments and openers. -/
def PacketEvent.isNotable (event : PacketEvent) : Bool :=
  event.isUdp || event.isOdd || event.isOpener

namespace EventQueue

open PacketTotals

/-- What the program tells the daemon about a frame. -/
def told
    (helpers : Helpers)
    (maps : KernelMaps)
    (frame : Frame) :
    Option PolicyInput → List PacketEvent
  | none => []
  | some input =>
      if worthEvent maps frame (some input) && helpers.eventRoom then
        [input.event
          (judge helpers maps input.source input.flow
            input.expected).allowed]
      else
        []

/-- One run of the program appends these events to the ring. -/
def Tells
    (maps : KernelMaps)
    (result : XdpAction × KernelMaps)
    (events : List PacketEvent) : Prop :=
  result.2.events = maps.events ++ events

section

variable
  {helpers : Helpers}
  {maps : KernelMaps}
  {frame : Frame}

theorem tells_nothing (action : XdpAction) (maps : KernelMaps) :
    Tells maps (action, maps) [] :=
  (List.append_nil _).symm

theorem tells_bump
    (action : XdpAction)
    (slot : Fin 5)
    (maps : KernelMaps) :
    Tells maps (action, bump slot maps) [] :=
  (List.append_nil _).symm

theorem report_tells
    (helpers : Helpers)
    (input : PolicyInput)
    (allowed : Bool)
    (maps : KernelMaps) :
    (report helpers input.source input.flow allowed maps).events =
      maps.events ++
        if helpers.eventRoom then [input.event allowed] else [] := by
  unfold report
  cases helpers.eventRoom with
  | true => rfl
  | false => exact (List.append_nil _).symm

theorem policy_tells
    (input : PolicyInput)
    (known : input.flow.proto = protoTcp ∨ input.flow.proto = protoUdp) :
    Tells maps
      (policy helpers maps input.source input.flow frame.toEveryone
        input.expected)
      (told helpers maps frame (some input)) := by
  have interesting := judge_interesting helpers maps input known
  obtain ⟨_, sameEvents⟩ :=
    judge_uncounted helpers maps input.source input.flow input.expected
  have worth :
      worthEvent maps frame (some input) =
        (input.isNotable maps && !frame.toEveryone) := by
    rw [worthEvent, Option.any_some, Bool.and_comm]
  unfold policy told Tells
  dsimp only
  rw [worth, ← interesting]
  generalize judge helpers maps input.source input.flow
    input.expected = judgement at sameEvents ⊢
  have reported :
      (if judgement.interesting && !frame.toEveryone then
          report helpers input.source input.flow judgement.allowed
            judgement.maps
        else
          judgement.maps).events =
        maps.events ++
          if judgement.interesting && !frame.toEveryone &&
              helpers.eventRoom then
            [input.event judgement.allowed]
          else
            [] := by
    cases judgement.interesting && !frame.toEveryone with
    | true =>
        rw [if_pos rfl, report_tells, sameEvents, Bool.true_and]
    | false =>
        rw [if_neg Bool.false_ne_true, sameEvents, Bool.false_and,
          if_neg Bool.false_ne_true, List.append_nil]
  split
  · exact reported
  · exact reported

theorem icmpVerdict_tells (l4 : Nat) (echoRequest : U8) :
    Tells maps (icmpVerdict maps frame l4 echoRequest) [] := by
  unfold icmpVerdict
  split
  · exact tells_nothing _ _
  · split
    · exact tells_bump _ _ _
    · exact tells_nothing _ _

/-- Whatever is read at the fourth layer is told. -/
theorem parsed_tells
    {proto : U8}
    {l4 : Nat}
    (source : Source)
    (expected : Flow → Bool) :
    Tells maps
      (match parseL4 proto frame l4 with
      | none => (.pass, maps)
      | some flow =>
          policy helpers maps source flow frame.toEveryone (expected flow))
      (told helpers maps frame
        ((parseL4 proto frame l4).map fun flow =>
          { source := source, flow := flow, expected := expected flow })) := by
  cases parsed : parseL4 proto frame l4 with
  | none => exact tells_nothing _ _
  | some flow =>
      exact policy_tells ⟨source, flow, expected flow⟩ (parseL4_proto parsed)

theorem tryIpv4_tells :
    Tells maps (tryIpv4 helpers maps frame)
      (told helpers maps frame
        (PolicyInput.ofIpv4 helpers maps frame)) := by
  unfold tryIpv4 PolicyInput.ofIpv4
  dsimp only
  by_cases short : frame.length < ethLen + ipv4Len
  · simp only [short, true_or, if_true]
    exact tells_nothing _ _
  by_cases banned : live helpers.now (maps.blocklist.get? frame.ipv4Src)
  · simp only [short, banned, true_or, or_true, if_true, if_false]
    exact tells_bump _ _ _
  by_cases listed :
      maps.feeds.matchesAddress
        (triePrefix 32 (BitPrefix.bytes32 frame.ipv4Src))
  · simp only [short, banned, listed, true_or, or_true, if_true, if_false]
    exact tells_bump _ _ _
  by_cases fragment : frame.fragOffset ≠ 0
  · simp only [short, banned, listed, ne_eq, fragment, not_false_eq_true,
      true_or, or_true, if_true, if_false, Bool.false_eq_true]
    exact tells_nothing _ _
  by_cases noHeader : frame.ihl < ipv4Len
  · simp only [short, banned, listed, fragment, noHeader, true_or, or_true,
      if_true, if_false]
    exact tells_nothing _ _
  by_cases icmp : frame.ipv4Proto = ipProtoIcmp
  · simp only [short, banned, listed, fragment, noHeader, icmp, or_true,
      if_true, if_false]
    exact icmpVerdict_tells _ _
  · simp only [short, banned, listed, fragment, noHeader, icmp, or_self,
      if_false]
    exact parsed_tells _ _

theorem tryIpv6_tells :
    Tells maps (tryIpv6 helpers maps frame)
      (told helpers maps frame
        (PolicyInput.ofIpv6 helpers maps frame)) := by
  unfold tryIpv6 PolicyInput.ofIpv6
  dsimp only
  by_cases short : frame.length < ethLen + ipv6Len
  · simp only [short, true_or, if_true]
    exact tells_nothing _ _
  by_cases banned : live helpers.now (maps.blocklist6.get? frame.ipv6Prefix)
  · simp only [short, banned, true_or, or_true, if_true, if_false]
    exact tells_bump _ _ _
  by_cases icmp : frame.ipv6NextHdr = ipProtoIcmpv6
  · simp only [short, banned, icmp, or_true, if_true, if_false]
    exact icmpVerdict_tells _ _
  · simp only [short, banned, icmp, if_false]
    exact parsed_tells _ _

theorem tryAiFirewall_tells :
    Tells maps (tryAiFirewall helpers maps frame)
      (told helpers maps frame
        (PolicyInput.ofFrame helpers maps frame)) := by
  unfold tryAiFirewall PolicyInput.ofFrame
  split
  · exact tells_nothing _ _
  split
  · exact tryIpv4_tells
  split
  · exact tryIpv6_tells
  · exact tells_nothing _ _

/-- The ring after a frame. -/
theorem aiFirewall_tells
    (helpers : Helpers)
    (maps : KernelMaps)
    (frame : Frame) :
    (aiFirewall helpers maps frame).2.events =
      maps.events ++
        told helpers maps frame
          (PolicyInput.ofFrame helpers maps frame) := by
  have tells :
      Tells maps (tryAiFirewall helpers maps frame)
        (told helpers maps frame
          (PolicyInput.ofFrame helpers maps frame)) :=
    tryAiFirewall_tells
  unfold aiFirewall
  generalize tryAiFirewall helpers maps frame = result at tells ⊢
  obtain ⟨action, after⟩ := result
  cases action with
  | pass => exact tells
  | drop => exact tells

/-- Only a frame that shows its IP header reaches `policy`. -/
theorem source_of_ofFrame
    {input : PolicyInput}
    (reached : PolicyInput.ofFrame helpers maps frame = some input) :
    ∃ version, frame.ipVersion? = some version ∧
      input.source = frame.source version ∧
      (input.flow.proto = protoTcp ∨ input.flow.proto = protoUdp) ∧
      listed helpers maps frame version = false := by
  unfold PolicyInput.ofFrame at reached
  unfold Frame.ipVersion?
  split at reached
  · cases reached
  split at reached
  · rename_i isV4
    unfold PolicyInput.ofIpv4 at reached
    split at reached
    · cases reached
    · rename_i goesOn
      obtain ⟨flow, parsed, same⟩ := Option.map_eq_some_iff.mp reached
      simp only [not_or] at goesOn
      refine ⟨.v4, ?_, ?_, ?_, ?_⟩
      · rw [if_pos isV4, if_pos (Nat.le_of_not_lt goesOn.1)]
      · rw [← same]
        rfl
      · rw [← same]
        exact parseL4_proto parsed
      · simp [listed, goesOn.2.1, goesOn.2.2.1]
  split at reached
  · rename_i notV4 isV6
    unfold PolicyInput.ofIpv6 at reached
    split at reached
    · cases reached
    · rename_i goesOn
      obtain ⟨flow, parsed, same⟩ := Option.map_eq_some_iff.mp reached
      simp only [not_or] at goesOn
      refine ⟨.v6, ?_, ?_, ?_, ?_⟩
      · rw [if_neg notV4, if_pos isV6,
          if_pos (Nat.le_of_not_lt goesOn.1)]
      · rw [← same]
        rfl
      · rw [← same]
        exact parseL4_proto parsed
      · simpa [listed] using goesOn.2.1
  · cases reached

/-- The flags that the program calls odd are those of the detector's scans. -/
theorem odd_eq (flags : U8) :
    odd flags =
      (flags = 0 ||
        flags &&& (tcpFlagFin ||| tcpFlagUrg ||| tcpFlagPsh) =
          (tcpFlagFin ||| tcpFlagUrg ||| tcpFlagPsh) ||
        (flags &&& tcpFlagFin ≠ 0 && flags &&& tcpFlagAck = 0)) := by
  revert flags
  decide +kernel

theorem isOdd_of_tcp
    {event : PacketEvent}
    (isTcp : event.protocol = protoTcp) :
    event.isOdd = odd event.tcpFlags := by
  have notUdp : event.isUdp = false := by
    rw [PacketEvent.isUdp, isTcp]
    decide
  rw [odd_eq, PacketEvent.isOdd, notUdp]
  simp [PacketEvent.isNullScan, PacketEvent.isXmasScan,
    PacketEvent.isFinScan, PacketEvent.isFin, isTcp]

/-- What the program tells of is what the detector counts. -/
theorem isNotable_event
    {input : PolicyInput}
    (notable : input.isNotable maps = true)
    (allowed : Bool) :
    (input.event allowed).isNotable = true := by
  simp only [PolicyInput.isNotable, Bool.or_eq_true, Bool.and_eq_true,
    decide_eq_true_eq] at notable
  rcases notable with ⟨isTcp, isOpener | isOdd⟩ | ⟨isUdp, _⟩
  · have sameOdd :
        (input.event allowed).isOdd = odd input.flow.tcpFlags :=
      isOdd_of_tcp isTcp
    have notUdp : (input.event allowed).isUdp = false := by
      rw [PacketEvent.isUdp, show (input.event allowed).protocol = protoTcp
        from isTcp]
      decide
    have isSyn : (input.event allowed).isSyn = true := isOpener
    rw [PacketEvent.isNotable, PacketEvent.isOpener, sameOdd, notUdp, isSyn]
    cases odd input.flow.tcpFlags <;> rfl
  · have isOdd : (input.event allowed).isOdd = true :=
      (isOdd_of_tcp isTcp).trans isOdd
    rw [PacketEvent.isNotable, isOdd, Bool.or_true, Bool.true_or]
  · have isUdp : (input.event allowed).isUdp = true :=
      decide_eq_true isUdp
    rw [PacketEvent.isNotable, isUdp, Bool.true_or, Bool.true_or]

/-- An event is about a source that shows itself and is not listed. -/
theorem of_mem_told
    {event : PacketEvent}
    (member :
      event ∈
        told helpers maps frame
          (PolicyInput.ofFrame helpers maps frame)) :
    event.isNotable = true ∧
      ∃ version, frame.ipVersion? = some version ∧
        Src.of event = frame.src version ∧
        listed helpers maps frame version = false := by
  cases reached : PolicyInput.ofFrame helpers maps frame with
  | none =>
      rw [reached] at member
      exact absurd member List.not_mem_nil
  | some input =>
      obtain ⟨version, shows, isSource, _, unlisted⟩ :=
        source_of_ofFrame reached
      rw [reached, told] at member
      split at member
      · rename_i worth
        rw [List.mem_singleton] at member
        subst member
        rw [Bool.and_eq_true, worthEvent, Option.any_some,
          Bool.and_eq_true] at worth
        refine ⟨isNotable_event worth.1.2 _, version, shows, ?_, unlisted⟩
        have family :
            Src.of (input.event
                (judge helpers maps input.source input.flow
                  input.expected).allowed) =
              if input.source.family = familyV6 then
                .v6 input.source.v6
              else
                .v4 input.source.v4 :=
          rfl
        rw [family, isSource]
        cases version <;> rfl
      · exact absurd member List.not_mem_nil

end

end EventQueue

/-- The daemon and the kernel, with the events on their way. -/
structure Site (Score : Type) where
  system : System Score
  /-- The maps that the daemon does not write, the ring among them. -/
  others : KernelMaps
  /-- What the event reader has taken off the ring. -/
  batch : List PacketEvent

/-- Something that happens on a site. -/
inductive SiteStep where
  | packet (helpers : Helpers) (frame : Frame)
  /-- One round of the loop over `ring_buf.next()`. -/
  | pull
  /-- One round of the loop over `batch.drain(..)`. -/
  | observe (host : Host)
  | daemon (event : DaemonEvent)

/-- The daemon neither starts nor ends, and its events come off the ring. -/
def DaemonEvent.isOfOneLife : DaemonEvent → Bool
  | .boot _ _ _ => false
  | .crash => false
  | .batch _ _ => false
  | _ => true

namespace Site

section

variable {Score : Type}

/-- The maps that a packet meets. -/
def maps (site : Site Score) : KernelMaps :=
  site.system.world.maps site.others

/-- The events that the detector has yet to see, oldest first. -/
def queue (site : Site Score) : List PacketEvent :=
  site.batch ++ site.others.events

/-- What the program tells in a step. -/
def told (site : Site Score) : SiteStep → List PacketEvent
  | .packet helpers frame =>
      EventQueue.told helpers site.maps frame
        (PolicyInput.ofFrame helpers site.maps frame)
  | _ => []

/-- The event reader looks into a ring, or has something in its batch. -/
def next? (phase : Phase) (events : List PacketEvent) :
    Option (PacketEvent × List PacketEvent) :=
  match phase, events with
  | .running _, event :: rest => some (event, rest)
  | _, _ => none

/-- What the detector sees in a step. -/
def seen (site : Site Score) : SiteStep → List PacketEvent
  | .observe _ =>
      ((next? site.system.phase site.batch).map Prod.fst).toList
  | _ => []

variable [ScoreArith Score]

/-- Between a start and its end; other events of the daemon do nothing. -/
def step (site : Site Score) : SiteStep → Site Score
  | .packet helpers frame =>
      { site with others := (aiFirewall helpers site.maps frame).2 }
  | .pull =>
      match next? site.system.phase site.others.events with
      | some (event, rest) =>
          { site with
            others := { site.others with events := rest }
            batch := site.batch ++ [event] }
      | none => site
  | .observe host =>
      match next? site.system.phase site.batch with
      | some (event, rest) =>
          { site with
            system := site.system.step (.batch host [event])
            batch := rest }
      | none => site
  | .daemon event =>
      if event.isOfOneLife then
        { site with system := site.system.step event }
      else
        site

omit [ScoreArith Score] in
theorem next?_some
    {phase : Phase}
    {events rest : List PacketEvent}
    {event : PacketEvent}
    (found : next? phase events = some (event, rest)) :
    (∃ cfg, phase = .running cfg) ∧ events = event :: rest := by
  unfold next? at found
  split at found
  · rename_i cfg _ _
    cases found
    exact ⟨⟨cfg, rfl⟩, rfl⟩
  · cases found

/-- The queue moves on by what is seen and what is told. -/
theorem queue_step
    (site : Site Score)
    (step : SiteStep) :
    site.seen step ++ (site.step step).queue =
      site.queue ++ site.told step := by
  cases step with
  | packet helpers frame =>
      have tells := EventQueue.aiFirewall_tells helpers site.maps frame
      have ring : site.maps.events = site.others.events := rfl
      show
        [] ++ (site.batch ++ (aiFirewall helpers site.maps frame).2.events) =
          site.batch ++ site.others.events ++ _
      rw [tells, ring, List.nil_append, List.append_assoc]
      rfl
  | pull =>
      show [] ++ _ = site.queue ++ []
      rw [List.nil_append, List.append_nil, Site.step]
      cases found : next? site.system.phase site.others.events with
      | none => rfl
      | some pulled =>
          obtain ⟨_, isHead⟩ := next?_some found
          show site.batch ++ [pulled.1] ++ pulled.2 = _
          rw [queue, isHead, List.append_assoc]
          rfl
  | observe host =>
      show _ = site.queue ++ []
      rw [List.append_nil, seen, Site.step]
      cases found : next? site.system.phase site.batch with
      | none => rfl
      | some handed =>
          obtain ⟨_, isHead⟩ := next?_some found
          show handed.1 :: (handed.2 ++ site.others.events) = site.queue
          rw [queue, isHead]
          rfl
  | daemon event =>
      show [] ++ _ = site.queue ++ []
      rw [List.nil_append, List.append_nil, Site.step]
      split <;> rfl

/--
In every order of packets, readings and daemon steps the detector has seen
the events that were on their way and those that the program has told, each
once and in their order, up to those that are still on their way.
-/
theorem events_arrive_in_order
    (site : Site Score)
    (steps : List SiteStep) :
    outputs step seen site steps ++ (run step site steps).queue =
      site.queue ++ outputs step told site steps :=
  outputs_conserved queue queue_step site steps

end

end Site

end AiFirewall
