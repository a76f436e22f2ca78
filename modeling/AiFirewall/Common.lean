import Mathlib

namespace AiFirewall

/-!
# What both sides share

The constants and records of `ai-firewall-common`: the kernel program writes
them, the daemon reads them, and the CLI uses the same numbers.
-/

/-- `u8`. -/
abbrev U8 := BitVec 8

/-- `u16`. -/
abbrev U16 := BitVec 16

/-- `u32`. -/
abbrev U32 := BitVec 32

/-- `u64`. -/
abbrev U64 := BitVec 64

/-- `min` and `max` of two unsigned numbers. -/
def umin {width : Nat} (first second : BitVec width) : BitVec width :=
  if first ≤ second then first else second

def umax {width : Nat} (first second : BitVec width) : BitVec width :=
  if first ≤ second then second else first

@[simp] theorem toNat_umin
    {width : Nat}
    (first second : BitVec width) :
    (umin first second).toNat = min first.toNat second.toNat := by
  unfold umin
  split
  · rename_i ordered
    exact (Nat.min_eq_left (BitVec.le_def.mp ordered)).symm
  · rename_i reversed
    exact (Nat.min_eq_right (Nat.le_of_not_le reversed)).symm

namespace U64

/-- `u64::saturating_sub`. -/
def saturatingSub (first second : U64) : U64 :=
  BitVec.ofNat 64 (first.toNat - second.toNat)

/-- `u64::saturating_add`. -/
def saturatingAdd (first second : U64) : U64 :=
  BitVec.ofNat 64 (min (2 ^ 64 - 1) (first.toNat + second.toNat))

/-- `u64::saturating_mul`. -/
def saturatingMul (first second : U64) : U64 :=
  BitVec.ofNat 64 (min (2 ^ 64 - 1) (first.toNat * second.toNat))

@[simp] theorem toNat_saturatingSub (first second : U64) :
    (saturatingSub first second).toNat = first.toNat - second.toNat := by
  have bound := first.isLt
  simp only [saturatingSub, BitVec.toNat_ofNat]
  omega

@[simp] theorem toNat_saturatingAdd (first second : U64) :
    (saturatingAdd first second).toNat =
      min (2 ^ 64 - 1) (first.toNat + second.toNat) := by
  simp only [saturatingAdd, BitVec.toNat_ofNat]
  omega

@[simp] theorem toNat_saturatingMul (first second : U64) :
    (saturatingMul first second).toNat =
      min (2 ^ 64 - 1) (first.toNat * second.toNat) := by
  simp only [saturatingMul, BitVec.toNat_ofNat]
  omega

end U64

/-- `TCP_FLAG_FIN`. -/
def tcpFlagFin : U8 := 1
/-- `TCP_FLAG_SYN`. -/
def tcpFlagSyn : U8 := 2
/-- `TCP_FLAG_RST`. -/
def tcpFlagRst : U8 := 4
/-- `TCP_FLAG_PSH`. -/
def tcpFlagPsh : U8 := 8
/-- `TCP_FLAG_ACK`. -/
def tcpFlagAck : U8 := 16
/-- `TCP_FLAG_URG`. -/
def tcpFlagUrg : U8 := 32

/-- `PROTO_TCP`. -/
def protoTcp : U8 := 6
/-- `PROTO_UDP`. -/
def protoUdp : U8 := 17

/-- `VERDICT_PASS`. -/
def verdictPass : U8 := 0
/-- `VERDICT_DROP_POLICY`. -/
def verdictDropPolicy : U8 := 1

/-- `CFG_ENFORCE`: 1 drops, 0 only watches. -/
def cfgEnforce : Fin 4 := 0
/-- `CFG_EPHEMERAL_LOW`: replies land at or above this port. -/
def cfgEphemeralLow : Fin 4 := 1
/-- `CFG_DROP_PING`: 1 drops echo requests. -/
def cfgDropPing : Fin 4 := 2
/-- `CFG_UDP_STRICT`: 1 lets UDP in only as a reply to a recorded flow. -/
def cfgUdpStrict : Fin 4 := 3

/-- `STAT_PASSED`. -/
def statPassed : Fin 5 := 0
/-- `STAT_DROP_BLOCKLIST`. -/
def statDropBlocklist : Fin 5 := 1
/-- `STAT_DROP_POLICY`. -/
def statDropPolicy : Fin 5 := 2
/-- `STAT_EVENTS_LOST`. -/
def statEventsLost : Fin 5 := 3
/-- `STAT_DROP_FEED`. -/
def statDropFeed : Fin 5 := 4

/-- `BAN_FOREVER`: the blocklist value that never expires. -/
def banForever : U64 := 0

/-- `UDP_FLOW_TTL_NS`: how long a recorded flow accepts replies. -/
def udpFlowTtlNs : U64 := 180 * 1000000000

/-- `FAMILY_V4`. -/
def familyV4 : U8 := 4
/-- `FAMILY_V6`. -/
def familyV6 : U8 := 6

/-- An outbound IPv4 UDP flow; an all-zero remote end is the wildcard. -/
structure UdpFlow where
  remoteIp : U32
  localPort : U16
  remotePort : U16
  deriving Repr, DecidableEq

/-- An outbound IPv6 UDP flow; an all-zero remote end is the wildcard. -/
structure UdpFlow6 where
  remoteIp : BitVec 128
  localPort : U16
  remotePort : U16
  deriving Repr, DecidableEq

/-- One packet of interest, as the kernel streams it to the daemon. -/
structure PacketEvent where
  src6 : U64
  srcIp : U32
  dstPort : U16
  srcPort : U16
  protocol : U8
  tcpFlags : U8
  payloadLen : U16
  verdict : U8
  family : U8
  deriving Repr, DecidableEq

namespace PacketEvent

/-- SYN without ACK. -/
def isSyn (event : PacketEvent) : Bool :=
  event.tcpFlags &&& tcpFlagSyn ≠ 0 && event.tcpFlags &&& tcpFlagAck = 0

/-- FIN is set. -/
def isFin (event : PacketEvent) : Bool :=
  event.tcpFlags &&& tcpFlagFin ≠ 0

/-- A TCP segment without any flag. -/
def isNullScan (event : PacketEvent) : Bool :=
  event.protocol = protoTcp && event.tcpFlags = 0

/-- FIN, URG and PSH together. -/
def isXmasScan (event : PacketEvent) : Bool :=
  let mask := tcpFlagFin ||| tcpFlagUrg ||| tcpFlagPsh
  event.tcpFlags &&& mask = mask

/-- FIN without ACK never happens in a real connection. -/
def isFinScan (event : PacketEvent) : Bool :=
  event.protocol = protoTcp && event.isFin && event.tcpFlags &&& tcpFlagAck = 0

end PacketEvent

/--
`RuleKey`: port, then IPv4 address, both big-endian.  With a prefix length of
16 plus the network's bits, one trie lookup of (port, source) finds a match.
-/
abbrev RuleKey := Vector U8 6

/-- `rate_pack`: the count in the high half, the window in the low half. -/
def ratePack (max windowSecs : U16) : U32 :=
  max ++ windowSecs

theorem toNat_ratePack (max window : U16) :
    (ratePack max window).toNat = max.toNat * 65536 + window.toNat := by
  rw [ratePack, BitVec.toNat_append,
    ← Nat.shiftLeft_add_eq_or_of_lt window.isLt, Nat.shiftLeft_eq]

theorem toNat_count_ratePack (max window : U16) :
    (ratePack max window >>> 16).toNat = max.toNat := by
  have bound := window.isLt
  rw [BitVec.toNat_ushiftRight, toNat_ratePack, Nat.shiftRight_eq_div_pow]
  omega

theorem toNat_window_ratePack (max window : U16) :
    (ratePack max window &&& 0xffff).toNat = window.toNat := by
  have bound := window.isLt
  rw [BitVec.toNat_and, toNat_ratePack]
  change _ &&& 2 ^ 16 - 1 = _
  rw [Nat.and_two_pow_sub_one_eq_mod]
  omega

/-- The connection count of one source and port. -/
structure RateState where
  windowStart : U64
  count : U32
  deriving Repr, DecidableEq

end AiFirewall
