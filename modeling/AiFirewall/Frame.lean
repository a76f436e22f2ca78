import AiFirewall.Common

namespace AiFirewall

/-!
# Frames and the header fields both programs read

A frame is the list of its bytes, from the Ethernet destination address on.
Both kernel programs test the length of the frame before they read a header,
so what a read past the end would return never matters; here it is zero.
-/

/-- The bytes of a frame. -/
abbrev Frame := List U8

namespace Frame

def byte (frame : Frame) (offset : Nat) : U8 :=
  frame.getD offset 0

/-- Two bytes in network order. -/
def be16 (frame : Frame) (offset : Nat) : U16 :=
  byte frame offset ++ byte frame (offset + 1)

/-- Four bytes in network order. -/
def be32 (frame : Frame) (offset : Nat) : U32 :=
  be16 frame offset ++ be16 frame (offset + 2)

/-- Eight bytes in network order. -/
def be64 (frame : Frame) (offset : Nat) : U64 :=
  be32 frame offset ++ be32 frame (offset + 4)

/-- Sixteen bytes in network order. -/
def be128 (frame : Frame) (offset : Nat) : BitVec 128 :=
  be64 frame offset ++ be64 frame (offset + 8)

theorem byte_append_left
    {front : Frame}
    (back : Frame)
    {offset : Nat}
    (inFront : offset < front.length) :
    byte (front ++ back) offset = byte front offset := by
  simp [byte, List.getElem?_append_left inFront]

theorem byte_append_right
    (front back : Frame)
    (offset : Nat) :
    byte (front ++ back) (front.length + offset) = byte back offset := by
  simp [byte, List.getElem?_append_right]

theorem be16_append_left
    {front : Frame}
    (back : Frame)
    {offset : Nat}
    (inFront : offset + 1 < front.length) :
    be16 (front ++ back) offset = be16 front offset := by
  rw [be16, be16, byte_append_left back inFront,
    byte_append_left back (by omega)]

end Frame

/-- `EthHdr::LEN`, `Ipv4Hdr::LEN`, `Ipv6Hdr::LEN`. -/
def ethLen : Nat := 14
def ipv4Len : Nat := 20
def ipv6Len : Nat := 40

/-- `TcpHdr::LEN`, `UdpHdr::LEN`. -/
def tcpLen : Nat := 20
def udpLen : Nat := 8

/-- `EtherType::Ipv4`, `EtherType::Ipv6`. -/
def etherTypeIpv4 : U16 := 0x0800
def etherTypeIpv6 : U16 := 0x86dd

namespace Frame

/-- The group bit of the destination: broadcast and multicast frames. -/
def toEveryone (frame : Frame) : Bool :=
  frame.byte 0 &&& 1 ≠ 0

def etherType (frame : Frame) : U16 :=
  frame.be16 12

/-- The length of the IPv4 header, from its low nibble. -/
def ihl (frame : Frame) : Nat :=
  (frame.byte ethLen &&& 0x0f).toNat * 4

/-- The fragment offset of the IPv4 header, in units of eight bytes. -/
def fragOffset (frame : Frame) : U16 :=
  frame.be16 (ethLen + 6) &&& 0x1fff

def ipv4Proto (frame : Frame) : U8 :=
  frame.byte (ethLen + 9)

def ipv4Src (frame : Frame) : U32 :=
  frame.be32 (ethLen + 12)

def ipv4Dst (frame : Frame) : U32 :=
  frame.be32 (ethLen + 16)

def ipv6NextHdr (frame : Frame) : U8 :=
  frame.byte (ethLen + 6)

def ipv6Src (frame : Frame) : BitVec 128 :=
  frame.be128 (ethLen + 8)

def ipv6Dst (frame : Frame) : BitVec 128 :=
  frame.be128 (ethLen + 24)

/-- The /64 of the IPv6 source: its first eight bytes. -/
def ipv6Prefix (frame : Frame) : U64 :=
  frame.be64 (ethLen + 8)

end Frame

end AiFirewall
