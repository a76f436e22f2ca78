import AiFirewall.XdpProgram

namespace AiFirewall

/-!
# What a verdict depends on

A packet is judged by what lookups in the maps return.  Two states of the
maps that answer every lookup alike pass and drop the same packets, however
their tables are laid out.
-/

/-- Every lookup of the packet program has one answer in both. -/
structure KernelMaps.Agree (first second : KernelMaps) : Prop where
  blocklist :
    ∀ ip, first.blocklist.get? ip = second.blocklist.get? ip
  blocklist6 :
    ∀ networkPrefix,
      first.blocklist6.get? networkPrefix =
        second.blocklist6.get? networkPrefix
  udpFlows : first.udpFlows = second.udpFlows
  udpFlows6 : first.udpFlows6 = second.udpFlows6
  tcpAllow : first.tcpAllow = second.tcpAllow
  udpAllow : first.udpAllow = second.udpAllow
  allowFromTcp :
    ∀ stored,
      stored ∈ first.allowFromTcp.prefixes ↔
        stored ∈ second.allowFromTcp.prefixes
  allowFromUdp :
    ∀ stored,
      stored ∈ first.allowFromUdp.prefixes ↔
        stored ∈ second.allowFromUdp.prefixes
  tcpRate : first.tcpRate = second.tcpRate
  rateState : first.rateState = second.rateState
  feeds : first.feeds = second.feeds
  config : first.config = second.config

section

variable
  {helpers : Helpers}
  {first second : KernelMaps}
  {source : Source}
  {flow : Flow}

theorem allowedFrom_congr
    {firstTrie secondTrie : PrefixTrie 4096}
    (same :
      ∀ stored,
        stored ∈ firstTrie.prefixes ↔ stored ∈ secondTrie.prefixes)
    (port : U16) :
    allowedFrom firstTrie source port =
      allowedFrom secondTrie source port := by
  have sameMatch
      (address : List Bool) :
      firstTrie.matchesAddress address =
        secondTrie.matchesAddress address := by
    rw [Bool.eq_iff_iff, PrefixTrie.matchesAddress_iff,
      PrefixTrie.matchesAddress_iff]
    exact exists_congr fun stored => and_congr_left' (same stored)
  rw [allowedFrom, allowedFrom, sameMatch]

theorem overRate_congr
    (agree : first.Agree second)
    (port : U16) :
    (overRate helpers first source port).1 =
      (overRate helpers second source port).1 := by
  unfold overRate
  rw [agree.tcpRate, agree.rateState]
  dsimp only
  split
  · rfl
  split
  · split <;> rfl
  · rfl

theorem judge_congr
    (agree : first.Agree second)
    (reply : Bool) :
    (judge helpers first source flow reply).allowed =
      (judge helpers second source flow reply).allowed := by
  have sameTcp :
      allowedFrom first.allowFromTcp source flow.dstPort =
        allowedFrom second.allowFromTcp source flow.dstPort :=
    allowedFrom_congr agree.allowFromTcp _
  have sameUdp :
      allowedFrom first.allowFromUdp source flow.dstPort =
        allowedFrom second.allowFromUdp source flow.dstPort :=
    allowedFrom_congr agree.allowFromUdp _
  have sameRate :
      (overRate helpers first source flow.dstPort).1 =
        (overRate helpers second source flow.dstPort).1 :=
    overRate_congr agree _
  unfold judge
  rw [agree.tcpAllow, agree.udpAllow, agree.config, sameTcp, sameUdp]
  dsimp only
  split
  · split
    · rfl
    · split
      · split
        · rw [sameRate]
        · rfl
      · rfl
  · rfl

theorem policy_congr
    (agree : first.Agree second)
    (toEveryone reply : Bool) :
    (policy helpers first source flow toEveryone reply).1 =
      (policy helpers second source flow toEveryone reply).1 := by
  have dropped :
      (policy helpers first source flow toEveryone reply).1 = .drop ↔
        (policy helpers second source flow toEveryone reply).1 = .drop := by
    rw [policy_drop_iff, policy_drop_iff, judge_congr agree, agree.config]
  cases firstAction :
      (policy helpers first source flow toEveryone reply).1 with
  | drop => exact (dropped.mp firstAction).symm
  | pass =>
      cases secondAction :
          (policy helpers second source flow toEveryone reply).1 with
      | pass => rfl
      | drop =>
          rw [dropped.mpr secondAction] at firstAction
          cases firstAction

theorem icmpVerdict_congr
    (agree : first.Agree second)
    (frame : Frame)
    (l4 : Nat)
    (echoRequest : U8) :
    (icmpVerdict first frame l4 echoRequest).1 =
      (icmpVerdict second frame l4 echoRequest).1 := by
  unfold icmpVerdict
  rw [agree.config]
  split
  · rfl
  · split <;> rfl

theorem tryIpv4_congr
    (agree : first.Agree second)
    (frame : Frame) :
    (tryIpv4 helpers first frame).1 = (tryIpv4 helpers second frame).1 := by
  unfold tryIpv4
  dsimp only
  rw [agree.blocklist, agree.feeds]
  split
  · rfl
  split
  · rfl
  split
  · rfl
  split
  · rfl
  split
  · rfl
  split
  · exact icmpVerdict_congr agree frame _ _
  split
  · rfl
  · rw [expectedReply, expectedReply, agree.udpFlows]
    exact policy_congr agree _ _

theorem tryIpv6_congr
    (agree : first.Agree second)
    (frame : Frame) :
    (tryIpv6 helpers first frame).1 = (tryIpv6 helpers second frame).1 := by
  unfold tryIpv6
  dsimp only
  rw [agree.blocklist6]
  split
  · rfl
  split
  · rfl
  split
  · exact icmpVerdict_congr agree frame _ _
  split
  · rfl
  · rw [expectedReply6, expectedReply6, agree.udpFlows6]
    exact policy_congr agree _ _

theorem aiFirewall_action
    (helpers : Helpers)
    (maps : KernelMaps)
    (frame : Frame) :
    (aiFirewall helpers maps frame).1 =
      (tryAiFirewall helpers maps frame).1 := by
  unfold aiFirewall
  split
  · rename_i after same
    rw [same]
  · rename_i after same
    rw [same]

/-- Maps that answer every lookup alike give every packet one verdict. -/
theorem aiFirewall_congr
    (agree : first.Agree second)
    (frame : Frame) :
    (aiFirewall helpers first frame).1 =
      (aiFirewall helpers second frame).1 := by
  rw [aiFirewall_action, aiFirewall_action]
  unfold tryAiFirewall
  split
  · rfl
  split
  · exact tryIpv4_congr agree frame
  split
  · exact tryIpv6_congr agree frame
  · rfl

end

/-- The two versions of IP. -/
inductive IpVersion where
  | v4
  | v6
  deriving Repr, DecidableEq

namespace IpVersion

def icmp : IpVersion → U8
  | .v4 => ipProtoIcmp
  | .v6 => ipProtoIcmpv6

def echoRequest : IpVersion → U8
  | .v4 => icmpEchoRequest
  | .v6 => icmpv6EchoRequest

end IpVersion

namespace Frame

/--
The version of the IP header, the protocol after it, and where that one's
header begins; none when the IP header is cut off, malformed, or followed by
a later fragment.
-/
def transport (frame : Frame) : Option (IpVersion × U8 × Nat) :=
  if frame.etherType = etherTypeIpv4 then
    if ethLen + ipv4Len ≤ frame.length ∧ frame.fragOffset = 0 ∧
        ipv4Len ≤ frame.ihl then
      some (.v4, frame.ipv4Proto, ethLen + frame.ihl)
    else
      none
  else if frame.etherType = etherTypeIpv6 then
    if ethLen + ipv6Len ≤ frame.length then
      some (.v6, frame.ipv6NextHdr, ethLen + ipv6Len)
    else
      none
  else
    none

/-- Who a frame comes from, as the policy sees it. -/
def source (frame : Frame) : IpVersion → Source
  | .v4 => ⟨familyV4, frame.ipv4Src, 0⟩
  | .v6 => ⟨familyV6, 0, frame.ipv6Prefix⟩

end Frame

/-- The source of a frame is banned, or on a feed. -/
def listed
    (helpers : Helpers)
    (maps : KernelMaps)
    (frame : Frame) : IpVersion → Bool
  | .v4 =>
      live helpers.now (maps.blocklist.get? frame.ipv4Src) ||
        maps.feeds.matchesAddress
          (triePrefix 32 (BitPrefix.bytes32 frame.ipv4Src))
  | .v6 => live helpers.now (maps.blocklist6.get? frame.ipv6Prefix)

/-- A recorded flow that is live expects the packet. -/
def isReply
    (helpers : Helpers)
    (maps : KernelMaps)
    (frame : Frame)
    (flow : Flow) : IpVersion → Bool
  | .v4 => expectedReply helpers maps frame.ipv4Src flow
  | .v6 => expectedReply6 helpers maps frame.ipv6Src flow

section

variable
  {helpers : Helpers}
  {maps : KernelMaps}
  {frame : Frame}
  {version : IpVersion}
  {proto : U8}
  {l4 : Nat}

/-- What becomes of a frame whose transport header can be found. -/
theorem action_of_transport
    (found : frame.transport = some (version, proto, l4)) :
    (aiFirewall helpers maps frame).1 =
      if listed helpers maps frame version then
        .drop
      else if proto = version.icmp then
        (icmpVerdict maps frame l4 version.echoRequest).1
      else
        match parseL4 proto frame l4 with
        | none => .pass
        | some flow =>
            (policy helpers maps (frame.source version) flow
              frame.toEveryone
              (isReply helpers maps frame flow version)).1 := by
  rw [aiFirewall_action]
  unfold Frame.transport at found
  split at found
  · rename_i isV4
    split at found
    · rename_i shown
      obtain ⟨long, notLater, wellFormed⟩ := shown
      cases found
      have hasEthernet : ¬frame.length < ethLen := by
        simp only [ethLen, ipv4Len] at long ⊢
        omega
      rw [tryAiFirewall, if_neg hasEthernet, if_pos isV4, tryIpv4,
        if_neg (Nat.not_lt.mpr long)]
      dsimp only
      rw [if_neg (not_not.mpr notLater), if_neg (Nat.not_lt.mpr wellFormed)]
      simp only [listed, Bool.or_eq_true]
      by_cases banned :
          live helpers.now (maps.blocklist.get? frame.ipv4Src) = true
      · rw [if_pos banned, if_pos (.inl banned)]
      by_cases fed :
          maps.feeds.matchesAddress
            (triePrefix 32 (BitPrefix.bytes32 frame.ipv4Src)) = true
      · rw [if_neg banned, if_pos fed, if_pos (.inr fed)]
      rw [if_neg banned, if_neg fed, if_neg (not_or.mpr ⟨banned, fed⟩)]
      by_cases isIcmp : frame.ipv4Proto = IpVersion.v4.icmp
      · rw [if_pos isIcmp, if_pos (show frame.ipv4Proto = ipProtoIcmp from
          isIcmp)]
        rfl
      rw [if_neg isIcmp, if_neg (show ¬frame.ipv4Proto = ipProtoIcmp from
        isIcmp)]
      cases parseL4 frame.ipv4Proto frame (ethLen + frame.ihl) <;> rfl
    · cases found
  · rename_i notV4
    split at found
    · rename_i isV6
      split at found
      · rename_i long
        cases found
        have hasEthernet : ¬frame.length < ethLen := by
          simp only [ethLen, ipv6Len] at long ⊢
          omega
        rw [tryAiFirewall, if_neg hasEthernet, if_neg notV4, if_pos isV6,
          tryIpv6, if_neg (Nat.not_lt.mpr long)]
        dsimp only
        by_cases banned : listed helpers maps frame .v6 = true
        · rw [if_pos banned]
          exact congrArg Prod.fst (if_pos banned)
        rw [if_neg banned]
        refine (congrArg Prod.fst (if_neg banned)).trans ?_
        by_cases isIcmp : frame.ipv6NextHdr = IpVersion.v6.icmp
        · rw [if_pos isIcmp, if_pos (show frame.ipv6NextHdr = ipProtoIcmpv6
            from isIcmp)]
          rfl
        rw [if_neg isIcmp, if_neg (show ¬frame.ipv6NextHdr = ipProtoIcmpv6
          from isIcmp)]
        cases parseL4 frame.ipv6NextHdr frame (ethLen + ipv6Len) <;> rfl
      · cases found
    · cases found

end

end AiFirewall
