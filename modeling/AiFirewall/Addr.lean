import AiFirewall.Common

namespace AiFirewall

/-!
# Traffic sources

A source is an IPv4 address or an IPv6 /64: one host usually owns a whole
/64, so a ban on a single IPv6 address would be easy to dodge.
-/

/-- A traffic source. -/
inductive Src where
  | v4 (ip : U32)
  | v6 (networkPrefix : U64)
  deriving Repr, DecidableEq

namespace Src

/-- The source of a streamed packet. -/
def of (event : PacketEvent) : Src :=
  if event.family = familyV6 then
    .v6 event.src6
  else
    .v4 event.srcIp

end Src

end AiFirewall
