import AiFirewall.EgressProgram
import AiFirewall.Runs
import AiFirewall.XdpProgram

namespace AiFirewall

/-!
# Strict UDP over runs

Outgoing frames, incoming frames, evictions and writes from user space, in
any order.  The invariant ties every recorded flow to the outgoing frame that
was recorded.  It is a statement about frames: the egress program reads ports
from whatever follows the IP header, so it becomes one about datagrams only
where no later fragment is read that way.
-/

/-- One step of a run of both programs. -/
inductive UdpStep where
  | outgoing (helpers : Helpers) (frame : Frame)
  | incoming (helpers : Helpers) (frame : Frame)
  | evict (flow : UdpFlow)
  | evict6 (flow : UdpFlow6)
  /-- User space writes any map but the flow maps. -/
  | userspace (maps : KernelMaps)

namespace UdpStep

def apply (maps : KernelMaps) : UdpStep → KernelMaps
  | .outgoing helpers frame => tryEgress helpers maps frame
  | .incoming helpers frame => (aiFirewall helpers maps frame).2
  | .evict flow =>
      { maps with udpFlows := Function.update maps.udpFlows flow none }
  | .evict6 flow =>
      { maps with udpFlows6 := Function.update maps.udpFlows6 flow none }
  | .userspace written =>
      { written with
        udpFlows := maps.udpFlows
        udpFlows6 := maps.udpFlows6 }

/-- The clock a step reads, if it reads one. -/
def clock? : UdpStep → Option U64
  | .outgoing helpers _ => some helpers.now
  | .incoming helpers _ => some helpers.now
  | _ => none

end UdpStep

/-- Times never go back along a run. -/
def Ordered (steps : List UdpStep) : Prop :=
  (steps.filterMap UdpStep.clock?).Pairwise (· ≤ ·)

/--
A later fragment of an IPv4 UDP datagram that is long enough for the egress
program to take its payload for a UDP header.
-/
def ReadAsHeader (frame : Frame) : Prop :=
  frame.etherType = etherTypeIpv4 ∧
    frame.ipv4Proto = protoUdp ∧
    frame.fragOffset ≠ 0 ∧
    ipv4Len ≤ frame.ihl ∧
    ethLen + frame.ihl + udpLen ≤ frame.length

/-- The frame is an IPv4 UDP datagram with its header, or starts one. -/
structure CarriesUdp (frame : Frame) : Prop where
  etherType : frame.etherType = etherTypeIpv4
  proto : frame.ipv4Proto = protoUdp
  first : frame.fragOffset = 0
  headerLength : ipv4Len ≤ frame.ihl
  long : ethLen + frame.ihl + udpLen ≤ frame.length

/-- The frame is an IPv6 UDP datagram with its header. -/
structure CarriesUdp6 (frame : Frame) : Prop where
  etherType : frame.etherType = etherTypeIpv6
  proto : frame.ipv6NextHdr = protoUdp
  long : ethLen + ipv6Len + udpLen ≤ frame.length

namespace Frame

def udpSrcPort (frame : Frame) : U16 :=
  frame.be16 (ethLen + frame.ihl)

def udpDstPort (frame : Frame) : U16 :=
  frame.be16 (ethLen + frame.ihl + 2)

def udp6SrcPort (frame : Frame) : U16 :=
  frame.be16 (ethLen + ipv6Len)

def udp6DstPort (frame : Frame) : U16 :=
  frame.be16 (ethLen + ipv6Len + 2)

end Frame

/--
An outgoing datagram asks for a packet from `remote` at `remotePort`: it goes
there, to a group, or to the all-zero end that the wildcard shares.
-/
def Invites (sent : Frame) (remote : U32) (remotePort : U16) : Prop :=
  toGroup sent = true ∨
    (sent.ipv4Dst = remote ∧ sent.udpDstPort = remotePort) ∨
    (sent.ipv4Dst = 0 ∧ sent.udpDstPort = 0)

def Invites6
    (sent : Frame)
    (remote : BitVec 128)
    (remotePort : U16) : Prop :=
  toGroup6 sent = true ∨
    (sent.ipv6Dst = remote ∧ sent.udp6DstPort = remotePort) ∨
    (sent.ipv6Dst = 0 ∧ sent.udp6DstPort = 0)

/-- A frame's flow is read from where its ports are, real or not. -/
theorem egressKey_some
    {frame : Frame}
    {flow : UdpFlow}
    (key : egressKey frame = some flow) :
    frame.ipv4Proto = protoUdp ∧
      ipv4Len ≤ frame.ihl ∧
      ethLen + frame.ihl + udpLen ≤ frame.length ∧
      flow.localPort = frame.udpSrcPort ∧
      (toGroup frame = true ∧ flow.remoteIp = 0 ∧ flow.remotePort = 0 ∨
        flow.remoteIp = frame.ipv4Dst ∧
          flow.remotePort = frame.udpDstPort) := by
  unfold egressKey at key
  split at key
  · cases key
  split at key
  · cases key
  rename_i isUdp
  split at key
  · cases key
  rename_i headerLong
  dsimp only at key
  split at key
  · cases key
  rename_i long
  refine ⟨not_not.mp isUdp, Nat.le_of_not_lt headerLong,
    Nat.le_of_not_lt long, ?_⟩
  split at key
  · rename_i group
    injection key with same
    subst same
    exact ⟨rfl, .inl ⟨group, rfl, rfl⟩⟩
  · injection key with same
    subst same
    exact ⟨rfl, .inr ⟨rfl, rfl⟩⟩

theorem egressKey6_some
    {frame : Frame}
    {flow : UdpFlow6}
    (key : egressKey6 frame = some flow) :
    frame.ipv6NextHdr = protoUdp ∧
      ethLen + ipv6Len + udpLen ≤ frame.length ∧
      flow.localPort = frame.udp6SrcPort ∧
      (toGroup6 frame = true ∧ flow.remoteIp = 0 ∧ flow.remotePort = 0 ∨
        flow.remoteIp = frame.ipv6Dst ∧
          flow.remotePort = frame.udp6DstPort) := by
  unfold egressKey6 at key
  split at key
  · cases key
  split at key
  · cases key
  rename_i isUdp
  dsimp only at key
  split at key
  · cases key
  rename_i long
  refine ⟨not_not.mp isUdp, Nat.le_of_not_lt long, ?_⟩
  split at key
  · rename_i group
    injection key with same
    subst same
    exact ⟨rfl, .inl ⟨group, rfl, rfl⟩⟩
  · injection key with same
    subst same
    exact ⟨rfl, .inr ⟨rfl, rfl⟩⟩

/-- An entry of an updated map is the new one or an old one. -/
theorem of_update_some
    {Key Value : Type}
    [DecidableEq Key]
    {map : Key → Option Value}
    {changed key : Key}
    {stored value : Value}
    (found : Function.update map changed (some stored) key = some value) :
    map key = some value ∨ key = changed ∧ value = stored := by
  by_cases same : key = changed
  · subst same
    rw [Function.update_self, Option.some.injEq] at found
    exact .inr ⟨rfl, found.symm⟩
  · rw [Function.update_of_ne same] at found
    exact .inl found

/-- An entry that survives an eviction is an old one. -/
theorem of_update_none
    {Key Value : Type}
    [DecidableEq Key]
    {map : Key → Option Value}
    {evicted key : Key}
    {value : Value}
    (found : Function.update map evicted none key = some value) :
    map key = some value := by
  by_cases same : key = evicted
  · subst same
    rw [Function.update_self] at found
    cases found
  · rwa [Function.update_of_ne same] at found

/-- An outgoing frame adds at most its own flow to either map. -/
theorem tryEgress_flows
    (helpers : Helpers)
    (maps : KernelMaps)
    (frame : Frame) :
    (∀ flow expiry,
      (tryEgress helpers maps frame).udpFlows flow = some expiry →
        maps.udpFlows flow = some expiry ∨
          frame.etherType = etherTypeIpv4 ∧
            egressKey frame = some flow ∧
            expiry = helpers.now + udpFlowTtlNs) ∧
    (∀ flow expiry,
      (tryEgress helpers maps frame).udpFlows6 flow = some expiry →
        maps.udpFlows6 flow = some expiry ∨
          frame.etherType = etherTypeIpv6 ∧
            egressKey6 frame = some flow ∧
            expiry = helpers.now + udpFlowTtlNs) := by
  have unchanged :
      (∀ flow expiry, maps.udpFlows flow = some expiry →
        maps.udpFlows flow = some expiry ∨
          frame.etherType = etherTypeIpv4 ∧
            egressKey frame = some flow ∧
            expiry = helpers.now + udpFlowTtlNs) ∧
      (∀ flow expiry, maps.udpFlows6 flow = some expiry →
        maps.udpFlows6 flow = some expiry ∨
          frame.etherType = etherTypeIpv6 ∧
            egressKey6 frame = some flow ∧
            expiry = helpers.now + udpFlowTtlNs) :=
    ⟨fun _ _ => .inl, fun _ _ => .inl⟩
  unfold tryEgress
  split
  · exact unchanged
  dsimp only
  split
  · rename_i isIpv4
    split
    · rename_i key keyRead
      split
      · refine ⟨?_, unchanged.2⟩
        intro flow expiry found
        rcases of_update_some found with old | ⟨sameKey, sameExpiry⟩
        · exact .inl old
        · exact .inr ⟨isIpv4, sameKey ▸ keyRead, sameExpiry⟩
      · exact unchanged
    · exact unchanged
  split
  · rename_i isIpv6
    split
    · rename_i key keyRead
      split
      · refine ⟨unchanged.1, ?_⟩
        intro flow expiry found
        rcases of_update_some found with old | ⟨sameKey, sameExpiry⟩
        · exact .inl old
        · exact .inr ⟨isIpv6, sameKey ▸ keyRead, sameExpiry⟩
      · exact unchanged
    · exact unchanged
  · exact unchanged

/-- Every recorded flow goes back to an outgoing frame of the run. -/
structure Recorded (past : List UdpStep) (maps : KernelMaps) : Prop where
  flows :
    ∀ flow expiry, maps.udpFlows flow = some expiry →
      ∃ helpers frame,
        UdpStep.outgoing helpers frame ∈ past ∧
          frame.etherType = etherTypeIpv4 ∧
          egressKey frame = some flow ∧
          expiry = helpers.now + udpFlowTtlNs
  flows6 :
    ∀ flow expiry, maps.udpFlows6 flow = some expiry →
      ∃ helpers frame,
        UdpStep.outgoing helpers frame ∈ past ∧
          frame.etherType = etherTypeIpv6 ∧
          egressKey6 frame = some flow ∧
          expiry = helpers.now + udpFlowTtlNs

namespace Recorded

/-- A step that adds no flow keeps the invariant. -/
theorem of_fewer
    {past : List UdpStep}
    {before after : KernelMaps}
    (recorded : Recorded past before)
    (event : UdpStep)
    (fewer :
      ∀ flow expiry, after.udpFlows flow = some expiry →
        before.udpFlows flow = some expiry)
    (fewer6 :
      ∀ flow expiry, after.udpFlows6 flow = some expiry →
        before.udpFlows6 flow = some expiry) :
    Recorded (past ++ [event]) after where
  flows := by
    intro flow expiry found
    obtain ⟨helpers, frame, member, facts⟩ :=
      recorded.flows flow expiry (fewer flow expiry found)
    exact ⟨helpers, frame, List.mem_append_left _ member, facts⟩
  flows6 := by
    intro flow expiry found
    obtain ⟨helpers, frame, member, facts⟩ :=
      recorded.flows6 flow expiry (fewer6 flow expiry found)
    exact ⟨helpers, frame, List.mem_append_left _ member, facts⟩

/-- Every step keeps the invariant. -/
theorem step
    {past : List UdpStep}
    {maps : KernelMaps}
    (recorded : Recorded past maps)
    (event : UdpStep) :
    Recorded (past ++ [event]) (event.apply maps) := by
  cases event with
  | outgoing helpers frame =>
      obtain ⟨added, added6⟩ := tryEgress_flows helpers maps frame
      constructor
      · intro flow expiry found
        rcases added flow expiry found with old | ⟨isIpv4, key, same⟩
        · obtain ⟨oldHelpers, sent, member, facts⟩ :=
            recorded.flows flow expiry old
          exact ⟨oldHelpers, sent, List.mem_append_left _ member, facts⟩
        · exact ⟨helpers, frame, by simp, isIpv4, key, same⟩
      · intro flow expiry found
        rcases added6 flow expiry found with old | ⟨isIpv6, key, same⟩
        · obtain ⟨oldHelpers, sent, member, facts⟩ :=
            recorded.flows6 flow expiry old
          exact ⟨oldHelpers, sent, List.mem_append_left _ member, facts⟩
        · exact ⟨helpers, frame, by simp, isIpv6, key, same⟩
  | incoming helpers frame =>
      have counted := aiFirewall_counted helpers maps frame
      refine recorded.of_fewer _ ?_ ?_
      · intro flow expiry found
        rw [UdpStep.apply, counted] at found
        exact found
      · intro flow expiry found
        rw [UdpStep.apply, counted] at found
        exact found
  | evict evicted =>
      exact recorded.of_fewer _
        (fun _ _ found => of_update_none found)
        (fun _ _ found => found)
  | evict6 evicted =>
      exact recorded.of_fewer _
        (fun _ _ found => found)
        (fun _ _ found => of_update_none found)
  | userspace written =>
      exact recorded.of_fewer _ (fun _ _ found => found)
        (fun _ _ found => found)

/-- Along every run from empty flow maps the invariant holds. -/
theorem run
    {start : KernelMaps}
    (noFlows : ∀ flow, start.udpFlows flow = none)
    (noFlows6 : ∀ flow, start.udpFlows6 flow = none)
    (steps : List UdpStep) :
    Recorded steps (Runs.run UdpStep.apply start steps) := by
  have unconditioned :
      Runs.Stepwise (fun _ _ => True) steps :=
    fun _ _ _ _ => trivial
  have initially : Recorded [] start := by
    constructor
    · intro flow expiry found
      simp [noFlows] at found
    · intro flow expiry found
      simp [noFlows6] at found
  exact unconditioned.invariant Recorded initially
    fun _ event _ recorded => recorded.step event

end Recorded

/-- An expiry past the end of the clock wraps, but so would the clock. -/
theorem sub_lt_of_wrapped
    {sentAt now lifetime clock : Nat}
    (ordered : sentAt ≤ now)
    (inClock : now < clock)
    (short : lifetime < clock)
    (positive : 0 < lifetime)
    (ahead :
      (sentAt + lifetime) % clock = 0 ∨
        now < (sentAt + lifetime) % clock) :
    now - sentAt < lifetime := by
  rcases Nat.lt_or_ge (sentAt + lifetime) clock with inside | wrapped
  · rw [Nat.mod_eq_of_lt inside] at ahead
    omega
  · have remainder :
        (sentAt + lifetime) % clock = sentAt + lifetime - clock := by
      rw [Nat.mod_eq_sub_mod wrapped]
      exact Nat.mod_eq_of_lt (by omega)
    rw [remainder] at ahead
    omega

/-- A flow that still is live was recorded less than its lifetime ago. -/
theorem recent_of_live
    {sentAt now : U64}
    (ordered : sentAt ≤ now)
    (alive : live now (some (sentAt + udpFlowTtlNs)) = true) :
    now.toNat - sentAt.toNat < udpFlowTtlNs.toNat := by
  have positive : 0 < udpFlowTtlNs.toNat := by
    simp [udpFlowTtlNs]
  generalize udpFlowTtlNs = lifetime at alive positive ⊢
  have ahead :
      (sentAt + lifetime).toNat = 0 ∨
        now.toNat < (sentAt + lifetime).toNat := by
    rcases Bool.or_eq_true_iff.mp alive with forever | later
    · have same := of_decide_eq_true forever
      exact .inl (congrArg BitVec.toNat same)
    · exact .inr (BitVec.lt_def.mp (of_decide_eq_true later))
  rw [BitVec.toNat_add] at ahead
  exact sub_lt_of_wrapped (BitVec.le_def.mp ordered) now.isLt
    lifetime.isLt positive ahead

/-- A packet that strict UDP lets in to a closed port answers a live flow. -/
theorem passed_answers_flow
    {helpers : Helpers}
    {maps : KernelMaps}
    {frame : Frame}
    (carries : CarriesUdp frame)
    (enforced : maps.config cfgEnforce = 1)
    (strict : maps.config cfgUdpStrict = 1)
    (closed : portOpen maps.udpAllow frame.udpDstPort = false)
    (noRule :
      allowedFrom maps.allowFromUdp ⟨familyV4, frame.ipv4Src, 0⟩
        frame.udpDstPort = false)
    (passed : (tryAiFirewall helpers maps frame).1 = .pass) :
    live helpers.now
        (maps.udpFlows
          ⟨frame.ipv4Src, frame.udpDstPort, frame.udpSrcPort⟩) = true ∨
      live helpers.now (maps.udpFlows ⟨0, frame.udpDstPort, 0⟩) = true := by
  have headerLong := carries.headerLength
  have long := carries.long
  have notShort : ¬frame.length < ethLen + ipv4Len := by
    omega
  have notTiny : ¬frame.length < ethLen := by
    omega
  have notIcmp : ¬protoUdp = ipProtoIcmp := by
    decide
  rw [tryAiFirewall, if_neg notTiny, if_pos carries.etherType, tryIpv4,
    if_neg notShort] at passed
  simp only [carries.proto, if_neg notIcmp, parseL4_udp long] at passed
  split at passed
  · cases passed
  split at passed
  · cases passed
  rw [if_neg (not_not.mpr carries.first),
    if_neg (Nat.not_lt.mpr headerLong)] at passed
  rw [policy_pass_iff enforced, judge_allowed_of_strict] at passed
  · simpa [expectedReply, Frame.udpDstPort, Frame.udpSrcPort]
      using passed
  · rfl
  · exact strict
  · exact closed
  · exact noRule

theorem passed_answers_flow6
    {helpers : Helpers}
    {maps : KernelMaps}
    {frame : Frame}
    (carries : CarriesUdp6 frame)
    (enforced : maps.config cfgEnforce = 1)
    (strict : maps.config cfgUdpStrict = 1)
    (closed : portOpen maps.udpAllow frame.udp6DstPort = false)
    (passed : (tryAiFirewall helpers maps frame).1 = .pass) :
    live helpers.now
        (maps.udpFlows6
          ⟨frame.ipv6Src, frame.udp6DstPort, frame.udp6SrcPort⟩) = true ∨
      live helpers.now (maps.udpFlows6 ⟨0, frame.udp6DstPort, 0⟩) = true := by
  have long := carries.long
  have notShort : ¬frame.length < ethLen + ipv6Len := by
    omega
  have notTiny : ¬frame.length < ethLen := by
    omega
  have notIcmp : ¬protoUdp = ipProtoIcmpv6 := by
    decide
  have notIpv4 : ¬frame.etherType = etherTypeIpv4 := by
    rw [carries.etherType]
    decide
  rw [tryAiFirewall, if_neg notTiny, if_neg notIpv4,
    if_pos carries.etherType, tryIpv6, if_neg notShort] at passed
  simp only [carries.proto, if_neg notIcmp, parseL4_udp long] at passed
  split at passed
  · cases passed
  -- A rule names an IPv4 network, so no IPv6 source can match one.
  have notFamilyV4 : familyV6 ≠ familyV4 := by
    decide
  rw [policy_pass_iff enforced, judge_allowed_of_strict] at passed
  · simpa [expectedReply6, Frame.udp6DstPort, Frame.udp6SrcPort]
      using passed
  · rfl
  · exact strict
  · exact closed
  · rw [allowedFrom, if_pos notFamilyV4]

/-- Nothing is sent after the packet that ends an ordered run. -/
theorem sent_before
    {past : List UdpStep}
    {helpers sentHelpers : Helpers}
    {frame sent : Frame}
    (ordered : Ordered (past ++ [.incoming helpers frame]))
    (member : UdpStep.outgoing sentHelpers sent ∈ past) :
    sentHelpers.now ≤ helpers.now := by
  unfold Ordered at ordered
  rw [List.filterMap_append, List.pairwise_append] at ordered
  refine ordered.2.2 sentHelpers.now ?_ helpers.now ?_
  · exact List.mem_filterMap.mpr ⟨_, member, rfl⟩
  · exact List.mem_singleton.mpr rfl

/-- Less than a flow's lifetime ago, a datagram asked for the packet. -/
def AskedFor
    (past : List UdpStep)
    (helpers : Helpers)
    (frame : Frame) : Prop :=
  ∃ sentHelpers sent,
    UdpStep.outgoing sentHelpers sent ∈ past ∧
      CarriesUdp sent ∧
      sent.udpSrcPort = frame.udpDstPort ∧
      Invites sent frame.ipv4Src frame.udpSrcPort ∧
      sentHelpers.now ≤ helpers.now ∧
      helpers.now.toNat - sentHelpers.now.toNat < udpFlowTtlNs.toNat

def AskedFor6
    (past : List UdpStep)
    (helpers : Helpers)
    (frame : Frame) : Prop :=
  ∃ sentHelpers sent,
    UdpStep.outgoing sentHelpers sent ∈ past ∧
      CarriesUdp6 sent ∧
      sent.udp6SrcPort = frame.udp6DstPort ∧
      Invites6 sent frame.ipv6Src frame.udp6SrcPort ∧
      sentHelpers.now ≤ helpers.now ∧
      helpers.now.toNat - sentHelpers.now.toNat < udpFlowTtlNs.toNat

section

variable
  {past : List UdpStep}
  {maps : KernelMaps}
  {helpers : Helpers}
  {frame : Frame}

/-- A live recorded flow for the packet means that it was asked for. -/
theorem askedFor_of_live
    (recorded : Recorded past maps)
    (ordered : Ordered (past ++ [.incoming helpers frame]))
    (noLaterFragment :
      ∀ sentHelpers sent,
        UdpStep.outgoing sentHelpers sent ∈ past →
        ¬ReadAsHeader sent)
    {flow : UdpFlow}
    (localPort : flow.localPort = frame.udpDstPort)
    (remote :
      flow.remoteIp = frame.ipv4Src ∧
          flow.remotePort = frame.udpSrcPort ∨
        flow.remoteIp = 0 ∧ flow.remotePort = 0)
    (alive : live helpers.now (maps.udpFlows flow) = true) :
    AskedFor past helpers frame := by
  cases found : maps.udpFlows flow with
  | none =>
      rw [found] at alive
      cases alive
  | some expiry =>
      obtain ⟨sentHelpers, sent, member, isIpv4, key, rfl⟩ :=
        recorded.flows flow expiry found
      obtain ⟨isUdp, headerLong, long, port, destination⟩ :=
        egressKey_some key
      have first : sent.fragOffset = 0 := by
        by_contra later
        exact noLaterFragment sentHelpers sent member
          ⟨isIpv4, isUdp, later, headerLong, long⟩
      have sentEarlier := sent_before ordered member
      rw [found] at alive
      refine ⟨sentHelpers, sent, member,
        ⟨isIpv4, isUdp, first, headerLong, long⟩,
        port.symm.trans localPort, ?_, sentEarlier,
        recent_of_live sentEarlier alive⟩
      rcases destination with ⟨group, _, _⟩ | ⟨sameIp, samePort⟩
      · exact .inl group
      · rw [sameIp, samePort] at remote
        exact .inr remote

theorem askedFor6_of_live
    (recorded : Recorded past maps)
    (ordered : Ordered (past ++ [.incoming helpers frame]))
    {flow : UdpFlow6}
    (localPort : flow.localPort = frame.udp6DstPort)
    (remote :
      flow.remoteIp = frame.ipv6Src ∧
          flow.remotePort = frame.udp6SrcPort ∨
        flow.remoteIp = 0 ∧ flow.remotePort = 0)
    (alive : live helpers.now (maps.udpFlows6 flow) = true) :
    AskedFor6 past helpers frame := by
  cases found : maps.udpFlows6 flow with
  | none =>
      rw [found] at alive
      cases alive
  | some expiry =>
      obtain ⟨sentHelpers, sent, member, isIpv6, key, rfl⟩ :=
        recorded.flows6 flow expiry found
      obtain ⟨isUdp, long, port, destination⟩ := egressKey6_some key
      have sentEarlier := sent_before ordered member
      rw [found] at alive
      refine ⟨sentHelpers, sent, member, ⟨isIpv6, isUdp, long⟩,
        port.symm.trans localPort, ?_, sentEarlier,
        recent_of_live sentEarlier alive⟩
      rcases destination with ⟨group, _, _⟩ | ⟨sameIp, samePort⟩
      · exact .inl group
      · rw [sameIp, samePort] at remote
        exact .inr remote

end

/--
In every run in which no later fragment is read as a header, strict UDP lets
a packet in to a closed port only when a datagram asked for it.
-/
theorem strict_udp_was_asked_for
    {start : KernelMaps}
    (noFlows : ∀ flow, start.udpFlows flow = none)
    (noFlows6 : ∀ flow, start.udpFlows6 flow = none)
    {past : List UdpStep}
    {helpers : Helpers}
    {frame : Frame}
    {maps : KernelMaps}
    (reached : maps = Runs.run UdpStep.apply start past)
    (ordered : Ordered (past ++ [.incoming helpers frame]))
    (noLaterFragment :
      ∀ sentHelpers sent,
        UdpStep.outgoing sentHelpers sent ∈ past →
        ¬ReadAsHeader sent)
    (enforced : maps.config cfgEnforce = 1)
    (strict : maps.config cfgUdpStrict = 1)
    (passed : (tryAiFirewall helpers maps frame).1 = .pass) :
    (CarriesUdp frame →
      portOpen maps.udpAllow frame.udpDstPort = false →
      allowedFrom maps.allowFromUdp ⟨familyV4, frame.ipv4Src, 0⟩
        frame.udpDstPort = false →
      AskedFor past helpers frame) ∧
    (CarriesUdp6 frame →
      portOpen maps.udpAllow frame.udp6DstPort = false →
      AskedFor6 past helpers frame) := by
  have recorded : Recorded past maps := by
    rw [reached]
    exact Recorded.run noFlows noFlows6 past
  constructor
  · intro carries closed noRule
    rcases passed_answers_flow carries enforced strict closed noRule
      passed with exact | wildcard
    · exact askedFor_of_live recorded ordered noLaterFragment rfl
        (.inl ⟨rfl, rfl⟩) exact
    · exact askedFor_of_live recorded ordered noLaterFragment rfl
        (.inr ⟨rfl, rfl⟩) wildcard
  · intro carries closed
    rcases passed_answers_flow6 carries enforced strict closed
      passed with exact | wildcard
    · exact askedFor6_of_live recorded ordered rfl
        (.inl ⟨rfl, rfl⟩) exact
    · exact askedFor6_of_live recorded ordered rfl
        (.inr ⟨rfl, rfl⟩) wildcard

/-! A datagram of two fragments to 10.0.0.9, and a packet from its port 53. -/

def strictMaps : KernelMaps :=
  { KernelMaps.fresh with
    config := fun slot =>
      if slot = cfgEnforce ∨ slot = cfgUdpStrict then 1 else 0 }

def udpFrame
    (fragField : U16)
    (source destination : U8)
    (payload : List U8) : Frame :=
  [2, 0, 0, 0, 0, 1, 2, 0, 0, 0, 0, 2, 0x08, 0x00,
    0x45, 0, 0, 20 + BitVec.ofNat 8 payload.length, 0, 1,
    fragField.extractLsb' 8 8, fragField.extractLsb' 0 8, 64, 17, 0, 0,
    10, 0, 0, source, 10, 0, 0, destination] ++ payload

def atSecond (second : U64) : Helpers :=
  ⟨second * 1000000000, true, true⟩

/-- From port 4000 to port 5000; more fragments follow. -/
def sentFirst : Frame :=
  udpFrame 0x2000 5 9 [0x0f, 0xa0, 0x13, 0x88, 0, 16, 0, 0]

/-- Its data happens to spell port 12345 and port 53. -/
def sentLater : Frame :=
  udpFrame 0x0001 5 9 [0x30, 0x39, 0, 53, 0, 0, 0, 0]

def packetIn : Frame :=
  udpFrame 0 9 5 [0, 53, 0x30, 0x39, 0, 8, 0, 0]

def fragmentsSent : List UdpStep :=
  [.outgoing (atSecond 1) sentFirst, .outgoing (atSecond 1) sentLater]

/-- A packet comes in to a port from which nothing was ever sent. -/
theorem later_fragment_lets_packet_in :
    let maps := Runs.run UdpStep.apply strictMaps fragmentsSent
    (tryAiFirewall (atSecond 2) maps packetIn).1 = .pass ∧
      maps.config cfgEnforce = 1 ∧
      maps.config cfgUdpStrict = 1 ∧
      portOpen maps.udpAllow packetIn.udpDstPort = false ∧
      allowedFrom maps.allowFromUdp ⟨familyV4, packetIn.ipv4Src, 0⟩
        packetIn.udpDstPort = false ∧
      CarriesUdp packetIn ∧
      Ordered (fragmentsSent ++ [.incoming (atSecond 2) packetIn]) ∧
      ¬AskedFor fragmentsSent (atSecond 2) packetIn := by
  refine ⟨by decide +kernel, by decide +kernel, by decide +kernel,
    by decide +kernel, by decide +kernel,
    ⟨by decide, by decide, by decide, by decide, by decide⟩,
    by unfold Ordered; decide +kernel, ?_⟩
  rintro ⟨sentHelpers, sent, member, carries, samePort, _⟩
  simp only [fragmentsSent, List.mem_cons, UdpStep.outgoing.injEq,
    List.not_mem_nil, or_false] at member
  rcases member with ⟨_, isFirst⟩ | ⟨_, isLater⟩
  · subst isFirst
    exact absurd samePort (by decide)
  · subst isLater
    exact absurd carries.first (by decide)

/-- A query from port 12345, and its answer. -/
def querySent : List UdpStep :=
  [.outgoing (atSecond 1)
    (udpFrame 0 5 9 [0x30, 0x39, 0, 53, 0, 8, 0, 0])]

theorem answer_was_asked_for :
    AskedFor querySent (atSecond 2) packetIn := by
  have noLaterFragment :
      ∀ sentHelpers sent,
        UdpStep.outgoing sentHelpers sent ∈ querySent →
        ¬ReadAsHeader sent := by
    intro sentHelpers sent member
    rw [querySent, List.mem_singleton] at member
    injection member with _ same
    subst same
    unfold ReadAsHeader
    decide
  exact
    (strict_udp_was_asked_for
      (fun _ => rfl) (fun _ => rfl) rfl
      (by unfold Ordered; decide +kernel) noLaterFragment
      (show (Runs.run UdpStep.apply strictMaps querySent).config _ = 1 by
        decide +kernel)
      (by decide +kernel) (by decide +kernel)).1
      ⟨by decide, by decide, by decide, by decide, by decide⟩
      (by decide +kernel) (by decide +kernel)

end AiFirewall
