import AiFirewall.KernelMaps

namespace AiFirewall

/-!
# The XDP program

`try_ai_firewall` and what it calls: header parsing, the ban and feed
lookups, the connection rate limit and the policy.  One run is atomic and
reads the clock once.  Every function returns the maps it leaves behind next
to its answer.
-/

/-- The verdict on one packet. -/
inductive XdpAction where
  | pass
  | drop
  deriving Repr, DecidableEq

def ipProtoIcmp : U8 := 1
def ipProtoIcmpv6 : U8 := 58
def icmpEchoRequest : U8 := 8
def icmpv6EchoRequest : U8 := 128

/-- The layer-4 facts both IP versions feed into the same policy. -/
structure Flow where
  proto : U8
  srcPort : U16
  dstPort : U16
  tcpFlags : U8
  payloadLen : U16
  deriving Repr, DecidableEq

/-- Who sent a packet. -/
structure Source where
  family : U8
  v4 : U32
  v6 : U64
  deriving Repr, DecidableEq

/-- Count one packet. -/
def bump (slot : Fin 5) (maps : KernelMaps) : KernelMaps :=
  { maps with
    stats := Function.update maps.stats slot (maps.stats slot + 1) }

def portOpen (list : U16 → U8) (port : U16) : Bool :=
  list port ≠ 0

/-- An expiry that is in force: forever, or still ahead. -/
def live (now : U64) : Option U64 → Bool
  | some expiry => expiry = banForever || now < expiry
  | none => false

/-- The six flags the program knows, from the flag byte of a TCP header. -/
def tcpFlagsOf (flagByte : U8) : U8 :=
  let fin : U8 := if flagByte.getLsbD 0 then tcpFlagFin else 0
  let syn : U8 := if flagByte.getLsbD 1 then tcpFlagSyn else 0
  let rst : U8 := if flagByte.getLsbD 2 then tcpFlagRst else 0
  let psh : U8 := if flagByte.getLsbD 3 then tcpFlagPsh else 0
  let ack : U8 := if flagByte.getLsbD 4 then tcpFlagAck else 0
  let urg : U8 := if flagByte.getLsbD 5 then tcpFlagUrg else 0
  fin ||| syn ||| rst ||| psh ||| ack ||| urg

/-- The layer-4 header at `l4`, when the frame shows all of it. -/
def parseL4 (proto : U8) (frame : Frame) (l4 : Nat) : Option Flow :=
  let frameEnd := frame.length
  if proto = protoTcp then
    if frameEnd < l4 + tcpLen then
      none
    else
      let doff := (frame.byte (l4 + 12) >>> 4).toNat
      let dataStart := l4 + doff * 4
      some
        { proto := protoTcp
          srcPort := frame.be16 l4
          dstPort := frame.be16 (l4 + 2)
          tcpFlags := tcpFlagsOf (frame.byte (l4 + 13))
          payloadLen :=
            if dataStart ≤ frameEnd then
              BitVec.ofNat 16 (frameEnd - dataStart)
            else
              0 }
  else if proto = protoUdp then
    if frameEnd < l4 + udpLen then
      none
    else
      some
        { proto := protoUdp
          srcPort := frame.be16 l4
          dstPort := frame.be16 (l4 + 2)
          tcpFlags := 0
          payloadLen := BitVec.ofNat 16 (frameEnd - (l4 + udpLen)) }
  else
    none

/-- A frame that is long enough shows its UDP header. -/
theorem parseL4_udp
    {frame : Frame}
    {l4 : Nat}
    (long : l4 + udpLen ≤ frame.length) :
    parseL4 protoUdp frame l4 =
      some
        { proto := protoUdp
          srcPort := frame.be16 l4
          dstPort := frame.be16 (l4 + 2)
          tcpFlags := 0
          payloadLen := BitVec.ofNat 16 (frame.length - (l4 + udpLen)) } := by
  have notTcp : ¬protoUdp = protoTcp := by
    decide
  rw [parseL4, if_neg notTcp, if_pos rfl, if_neg (Nat.not_lt.mpr long)]

/-- Echo requests are dropped when the settings say so; the rest passes. -/
def icmpVerdict
    (maps : KernelMaps)
    (frame : Frame)
    (l4 : Nat)
    (echoRequest : U8) :
    XdpAction × KernelMaps :=
  if frame.length < l4 + 1 then
    (.pass, maps)
  else if frame.byte l4 = echoRequest ∧ maps.config cfgDropPing ≠ 0 ∧
      maps.config cfgEnforce ≠ 0 then
    (.drop, bump statDropPolicy maps)
  else
    (.pass, maps)

/-- Whether a rule opens the port to the source; only IPv4 sources can match. -/
def allowedFrom
    (trie : PrefixTrie 4096)
    (source : Source)
    (port : U16) : Bool :=
  if source.family ≠ familyV4 then
    false
  else
    trie.matchesAddress
      (triePrefix 48 (ruleKey port source.v4).toList)

/-- Whether a new connection goes over the port's limit for its source. -/
def overRate
    (helpers : Helpers)
    (maps : KernelMaps)
    (source : Source)
    (port : U16) :
    Bool × KernelMaps :=
  let packed := maps.tcpRate port
  if packed = 0 ∨ source.family ≠ familyV4 then
    (false, maps)
  else
    let max := packed >>> 16
    let window : U64 := (packed &&& 0xffff).setWidth 64 * 1000000000
    let key : U64 := source.v4.setWidth 64 <<< 16 ||| port.setWidth 64
    let store (state : RateState) : KernelMaps :=
      { maps with
        rateState := Function.update maps.rateState key (some state) }
    match maps.rateState key with
    | some state =>
        if window < helpers.now - state.windowStart then
          (false, store ⟨helpers.now, 1⟩)
        else
          let count := state.count + 1
          (max < count, store ⟨state.windowStart, count⟩)
    | none =>
        (false, if helpers.lruRoom then store ⟨helpers.now, 1⟩ else maps)

/-- SYN without ACK. -/
def opener (flags : U8) : Bool :=
  flags &&& tcpFlagSyn ≠ 0 && flags &&& tcpFlagAck = 0

/-- Null, Xmas and FIN scans: never part of a real connection. -/
def odd (flags : U8) : Bool :=
  let finUrgPsh := tcpFlagFin ||| tcpFlagUrg ||| tcpFlagPsh
  flags = 0 || flags &&& finUrgPsh = finUrgPsh ||
    flags &&& (tcpFlagFin ||| tcpFlagAck) = tcpFlagFin

/-- Whether a packet is worth an event, and whether it is allowed. -/
structure Judgement where
  interesting : Bool
  allowed : Bool
  maps : KernelMaps

/-- The first half of `policy`: what the rules say about a packet. -/
def judge
    (helpers : Helpers)
    (maps : KernelMaps)
    (source : Source)
    (flow : Flow)
    (reply : Bool) : Judgement :=
  if flow.proto = protoTcp then
    if odd flow.tcpFlags then
      ⟨true, false, maps⟩
    else if opener flow.tcpFlags then
      if portOpen maps.tcpAllow flow.dstPort ||
          allowedFrom maps.allowFromTcp source flow.dstPort then
        let (tooMany, counted) := overRate helpers maps source flow.dstPort
        ⟨true, !tooMany, counted⟩
      else
        ⟨true, false, maps⟩
    else
      ⟨false, true, maps⟩
  else
    let looseReply :=
      maps.config cfgUdpStrict = 0 &&
        maps.config cfgEphemeralLow ≤ flow.dstPort.setWidth 32
    let reply := reply || looseReply
    ⟨!reply,
      reply || portOpen maps.udpAllow flow.dstPort ||
        allowedFrom maps.allowFromUdp source flow.dstPort,
      maps⟩

/-- Stream an event to the daemon, or count it as lost. -/
def report
    (helpers : Helpers)
    (source : Source)
    (flow : Flow)
    (allowed : Bool)
    (maps : KernelMaps) : KernelMaps :=
  if helpers.eventRoom then
    { maps with
      events := maps.events ++
        [{ src6 := source.v6
           srcIp := source.v4
           dstPort := flow.dstPort
           srcPort := flow.srcPort
           protocol := flow.proto
           tcpFlags := flow.tcpFlags
           payloadLen := flow.payloadLen
           verdict := if allowed then verdictPass else verdictDropPolicy
           family := source.family }] }
  else
    bump statEventsLost maps

def policy
    (helpers : Helpers)
    (maps : KernelMaps)
    (source : Source)
    (flow : Flow)
    (toEveryone reply : Bool) :
    XdpAction × KernelMaps :=
  let judgement := judge helpers maps source flow reply
  let drop := !judgement.allowed && maps.config cfgEnforce ≠ 0
  let reported :=
    if judgement.interesting && !toEveryone then
      report helpers source flow judgement.allowed judgement.maps
    else
      judgement.maps
  if drop then
    (.drop, bump statDropPolicy reported)
  else
    (.pass, reported)

/-- A packet is dropped when it is not allowed and the rules are enforced. -/
theorem policy_drop_iff
    {helpers : Helpers}
    {maps : KernelMaps}
    {source : Source}
    {flow : Flow}
    {toEveryone reply : Bool} :
    (policy helpers maps source flow toEveryone reply).1 = .drop ↔
      (judge helpers maps source flow reply).allowed = false ∧
        maps.config cfgEnforce ≠ 0 := by
  unfold policy
  dsimp only
  split <;> simp_all

/-- While the rules are enforced, a packet passes when it is allowed. -/
theorem policy_pass_iff
    {helpers : Helpers}
    {maps : KernelMaps}
    {source : Source}
    {flow : Flow}
    {toEveryone reply : Bool}
    (enforced : maps.config cfgEnforce = 1) :
    (policy helpers maps source flow toEveryone reply).1 = .pass ↔
      (judge helpers maps source flow reply).allowed = true := by
  unfold policy
  dsimp only
  split <;> simp_all

/-- To a closed port only harmless segments are allowed. -/
theorem judge_allowed_of_closed
    {helpers : Helpers}
    {maps : KernelMaps}
    {source : Source}
    {flow : Flow}
    {reply : Bool}
    (tcp : flow.proto = protoTcp)
    (closed : portOpen maps.tcpAllow flow.dstPort = false)
    (noRule : allowedFrom maps.allowFromTcp source flow.dstPort = false) :
    (judge helpers maps source flow reply).allowed =
      (!odd flow.tcpFlags && !opener flow.tcpFlags) := by
  unfold judge
  rw [if_pos tcp]
  split
  · simp [*]
  · split <;> simp [*]

/-- An opener under the limit is allowed where the port is open to it. -/
theorem judge_allowed_of_opener
    {helpers : Helpers}
    {maps : KernelMaps}
    {source : Source}
    {flow : Flow}
    {reply : Bool}
    (tcp : flow.proto = protoTcp)
    (notOdd : odd flow.tcpFlags = false)
    (isOpener : opener flow.tcpFlags = true)
    (underLimit : (overRate helpers maps source flow.dstPort).1 = false) :
    (judge helpers maps source flow reply).allowed =
      (portOpen maps.tcpAllow flow.dstPort ||
        allowedFrom maps.allowFromTcp source flow.dstPort) := by
  unfold judge
  rw [if_pos tcp, notOdd, isOpener]
  cases isOpen :
      (portOpen maps.tcpAllow flow.dstPort ||
        allowedFrom maps.allowFromTcp source flow.dstPort) with
  | false => simp
  | true => simp [underLimit]

/-- Whether a high port counts as that of a reply. -/
def looseReply (maps : KernelMaps) (port : U16) : Bool :=
  maps.config cfgUdpStrict = 0 &&
    maps.config cfgEphemeralLow ≤ port.setWidth 32

/-- UDP is allowed as a reply, or where the port is open to it. -/
theorem judge_allowed_of_udp
    {helpers : Helpers}
    {maps : KernelMaps}
    {source : Source}
    {flow : Flow}
    {reply : Bool}
    (udp : flow.proto = protoUdp) :
    (judge helpers maps source flow reply).allowed =
      (reply || looseReply maps flow.dstPort ||
        (portOpen maps.udpAllow flow.dstPort ||
          allowedFrom maps.allowFromUdp source flow.dstPort)) := by
  have notTcp : ¬flow.proto = protoTcp := by
    rw [udp]
    decide
  unfold judge
  rw [if_neg notTcp]
  simp [looseReply, Bool.or_assoc]

theorem looseReply_of_strict
    {maps : KernelMaps}
    (strict : maps.config cfgUdpStrict = 1)
    (port : U16) :
    looseReply maps port = false := by
  simp [looseReply, strict]

/-- Strict UDP to a closed port is allowed as a reply only. -/
theorem judge_allowed_of_strict
    {helpers : Helpers}
    {maps : KernelMaps}
    {source : Source}
    {flow : Flow}
    {reply : Bool}
    (udp : flow.proto = protoUdp)
    (strict : maps.config cfgUdpStrict = 1)
    (closed : portOpen maps.udpAllow flow.dstPort = false)
    (noRule : allowedFrom maps.allowFromUdp source flow.dstPort = false) :
    (judge helpers maps source flow reply).allowed = reply := by
  have notTcp : ¬flow.proto = protoTcp := by
    rw [udp]
    decide
  unfold judge
  rw [if_neg notTcp]
  simp [strict, closed, noRule]

/-- Whether a live flow, exact or wildcard, expects this packet. -/
def expectedReply
    (helpers : Helpers)
    (maps : KernelMaps)
    (remoteIp : U32)
    (flow : Flow) : Bool :=
  let exact : UdpFlow := ⟨remoteIp, flow.dstPort, flow.srcPort⟩
  let any : UdpFlow := ⟨0, flow.dstPort, 0⟩
  flow.proto = protoUdp &&
    (live helpers.now (maps.udpFlows exact) ||
      live helpers.now (maps.udpFlows any))

/-- The same over IPv6. -/
def expectedReply6
    (helpers : Helpers)
    (maps : KernelMaps)
    (remoteIp : BitVec 128)
    (flow : Flow) : Bool :=
  let exact : UdpFlow6 := ⟨remoteIp, flow.dstPort, flow.srcPort⟩
  let any : UdpFlow6 := ⟨0, flow.dstPort, 0⟩
  flow.proto = protoUdp &&
    (live helpers.now (maps.udpFlows6 exact) ||
      live helpers.now (maps.udpFlows6 any))

/-- The IPv4 branch of `try_ai_firewall`. -/
def tryIpv4
    (helpers : Helpers)
    (maps : KernelMaps)
    (frame : Frame) :
    XdpAction × KernelMaps :=
  if frame.length < ethLen + ipv4Len then
    (.pass, maps)
  else
    let srcIp := frame.ipv4Src
    if live helpers.now (maps.blocklist.get? srcIp) then
      (.drop, bump statDropBlocklist maps)
    else if maps.feeds.matchesAddress
        (triePrefix 32 (BitPrefix.bytes32 srcIp)) then
      (.drop, bump statDropFeed maps)
    else if frame.fragOffset ≠ 0 then
      -- Non-first fragments carry no layer-4 header.
      (.pass, maps)
    else if frame.ihl < ipv4Len then
      (.pass, maps)
    else
      let l4 := ethLen + frame.ihl
      let proto := frame.ipv4Proto
      if proto = ipProtoIcmp then
        icmpVerdict maps frame l4 icmpEchoRequest
      else
        match parseL4 proto frame l4 with
        | none => (.pass, maps)
        | some flow =>
            policy helpers maps ⟨familyV4, srcIp, 0⟩ flow frame.toEveryone
              (expectedReply helpers maps srcIp flow)

/-- The IPv6 branch of `try_ai_firewall`. -/
def tryIpv6
    (helpers : Helpers)
    (maps : KernelMaps)
    (frame : Frame) :
    XdpAction × KernelMaps :=
  if frame.length < ethLen + ipv6Len then
    (.pass, maps)
  else
    let networkPrefix := frame.ipv6Prefix
    if live helpers.now (maps.blocklist6.get? networkPrefix) then
      (.drop, bump statDropBlocklist maps)
    else
      let l4 := ethLen + ipv6Len
      let proto := frame.ipv6NextHdr
      -- Extension headers and neighbour discovery pass.
      if proto = ipProtoIcmpv6 then
        icmpVerdict maps frame l4 icmpv6EchoRequest
      else
        match parseL4 proto frame l4 with
        | none => (.pass, maps)
        | some flow =>
            policy helpers maps ⟨familyV6, 0, networkPrefix⟩ flow
              frame.toEveryone
              (expectedReply6 helpers maps frame.ipv6Src flow)

def tryAiFirewall
    (helpers : Helpers)
    (maps : KernelMaps)
    (frame : Frame) :
    XdpAction × KernelMaps :=
  if frame.length < ethLen then
    (.pass, maps)
  else if frame.etherType = etherTypeIpv4 then
    tryIpv4 helpers maps frame
  else if frame.etherType = etherTypeIpv6 then
    tryIpv6 helpers maps frame
  else
    (.pass, maps)

/-- The program itself: a passed packet is counted. -/
def aiFirewall
    (helpers : Helpers)
    (maps : KernelMaps)
    (frame : Frame) :
    XdpAction × KernelMaps :=
  match tryAiFirewall helpers maps frame with
  | (.pass, after) => (.pass, bump statPassed after)
  | (.drop, after) => (.drop, after)

/-- What one packet may change: counters, events and connection rates. -/
def Counted (before after : KernelMaps) : Prop :=
  after =
    { before with
      stats := after.stats
      events := after.events
      rateState := after.rateState }

namespace Counted

theorem trans
    {first second third : KernelMaps}
    (firstCounted : Counted first second)
    (secondCounted : Counted second third) :
    Counted first third := by
  unfold Counted at *
  rw [secondCounted, firstCounted]

end Counted

theorem bump_counted (slot : Fin 5) (maps : KernelMaps) :
    Counted maps (bump slot maps) :=
  rfl

theorem report_counted
    (helpers : Helpers)
    (source : Source)
    (flow : Flow)
    (allowed : Bool)
    (maps : KernelMaps) :
    Counted maps (report helpers source flow allowed maps) := by
  unfold report
  split
  · rfl
  · exact bump_counted _ maps

theorem overRate_counted
    (helpers : Helpers)
    (maps : KernelMaps)
    (source : Source)
    (port : U16) :
    Counted maps (overRate helpers maps source port).2 := by
  unfold overRate
  dsimp only
  split
  · rfl
  · split
    · split <;> rfl
    · split <;> rfl

theorem judge_counted
    (helpers : Helpers)
    (maps : KernelMaps)
    (source : Source)
    (flow : Flow)
    (reply : Bool) :
    Counted maps (judge helpers maps source flow reply).maps := by
  unfold judge
  split
  · split
    · rfl
    · split
      · split
        · exact overRate_counted helpers maps source flow.dstPort
        · rfl
      · rfl
  · rfl

theorem policy_counted
    (helpers : Helpers)
    (maps : KernelMaps)
    (source : Source)
    (flow : Flow)
    (toEveryone reply : Bool) :
    Counted maps
      (policy helpers maps source flow toEveryone reply).2 := by
  have judged := judge_counted helpers maps source flow reply
  unfold policy
  dsimp only
  generalize judge helpers maps source flow reply = judgement at judged ⊢
  have reported :
      Counted maps
        (if judgement.interesting && !toEveryone then
          report helpers source flow judgement.allowed judgement.maps
        else
          judgement.maps) := by
    split
    · exact judged.trans (report_counted _ _ _ _ _)
    · exact judged
  split
  · exact reported.trans (bump_counted _ _)
  · exact reported

theorem icmpVerdict_counted
    (maps : KernelMaps)
    (frame : Frame)
    (l4 : Nat)
    (echoRequest : U8) :
    Counted maps (icmpVerdict maps frame l4 echoRequest).2 := by
  unfold icmpVerdict
  split
  · rfl
  · split
    · exact bump_counted _ maps
    · rfl

theorem tryIpv4_counted
    (helpers : Helpers)
    (maps : KernelMaps)
    (frame : Frame) :
    Counted maps (tryIpv4 helpers maps frame).2 := by
  unfold tryIpv4
  dsimp only
  split
  · rfl
  split
  · exact bump_counted _ maps
  split
  · exact bump_counted _ maps
  split
  · rfl
  split
  · rfl
  split
  · exact icmpVerdict_counted maps frame _ _
  split
  · rfl
  · exact policy_counted _ _ _ _ _ _

theorem tryIpv6_counted
    (helpers : Helpers)
    (maps : KernelMaps)
    (frame : Frame) :
    Counted maps (tryIpv6 helpers maps frame).2 := by
  unfold tryIpv6
  dsimp only
  split
  · rfl
  split
  · exact bump_counted _ maps
  split
  · exact icmpVerdict_counted maps frame _ _
  split
  · rfl
  · exact policy_counted _ _ _ _ _ _

/-- No packet changes a rule, a setting, a ban or a recorded flow. -/
theorem tryAiFirewall_counted
    (helpers : Helpers)
    (maps : KernelMaps)
    (frame : Frame) :
    Counted maps (tryAiFirewall helpers maps frame).2 := by
  unfold tryAiFirewall
  split
  · rfl
  split
  · exact tryIpv4_counted helpers maps frame
  split
  · exact tryIpv6_counted helpers maps frame
  · rfl

theorem aiFirewall_counted
    (helpers : Helpers)
    (maps : KernelMaps)
    (frame : Frame) :
    Counted maps (aiFirewall helpers maps frame).2 := by
  have tried := tryAiFirewall_counted helpers maps frame
  unfold aiFirewall
  split
  · rename_i after same
    rw [same] at tried
    exact tried.trans (bump_counted _ _)
  · rename_i after same
    rw [same] at tried
    exact tried

end AiFirewall
