import AiFirewall.KernelMaps

namespace AiFirewall

/-!
# The egress program

`try_egress` records every outgoing UDP flow so that its replies get in.  It
runs after address translation and never drops anything.  A load past the end
of the frame ends it, as does an insertion the map refuses.
-/

/-- Whether an IPv4 datagram is aimed at a group: any device may answer it. -/
def toGroup (frame : Frame) : Bool :=
  frame.toEveryone || frame.ipv4Dst >>> 28 = 0xe ||
    frame.ipv4Dst = BitVec.allOnes 32

/-- Whether an IPv6 datagram is aimed at a group. -/
def toGroup6 (frame : Frame) : Bool :=
  frame.toEveryone || frame.byte (ethLen + 24) = 0xff

/-- The flow an outgoing IPv4 frame is recorded under, if it is recorded. -/
def egressKey (frame : Frame) : Option UdpFlow :=
  if frame.length < ethLen + ipv4Len then
    none
  else if frame.ipv4Proto ≠ protoUdp then
    none
  else if frame.ihl < ipv4Len then
    none
  else
    let udp := ethLen + frame.ihl
    if frame.length < udp + udpLen then
      none
    else if toGroup frame then
      some ⟨0, frame.be16 udp, 0⟩
    else
      some ⟨frame.ipv4Dst, frame.be16 udp, frame.be16 (udp + 2)⟩

/-- The flow an outgoing IPv6 frame is recorded under, if it is recorded. -/
def egressKey6 (frame : Frame) : Option UdpFlow6 :=
  if frame.length < ethLen + ipv6Len then
    none
  else if frame.ipv6NextHdr ≠ protoUdp then
    none
  else
    let udp := ethLen + ipv6Len
    if frame.length < udp + udpLen then
      none
    else if toGroup6 frame then
      some ⟨0, frame.be16 udp, 0⟩
    else
      some ⟨frame.ipv6Dst, frame.be16 udp, frame.be16 (udp + 2)⟩

def tryEgress
    (helpers : Helpers)
    (maps : KernelMaps)
    (frame : Frame) : KernelMaps :=
  if frame.length < ethLen then
    maps
  else
    let expiry := helpers.now + udpFlowTtlNs
    if frame.etherType = etherTypeIpv4 then
      match egressKey frame with
      | some key =>
          if helpers.lruRoom then
            { maps with
              udpFlows := Function.update maps.udpFlows key (some expiry) }
          else
            maps
      | none => maps
    else if frame.etherType = etherTypeIpv6 then
      match egressKey6 frame with
      | some key =>
          if helpers.lruRoom then
            { maps with
              udpFlows6 := Function.update maps.udpFlows6 key (some expiry) }
          else
            maps
      | none => maps
    else
      maps

end AiFirewall
