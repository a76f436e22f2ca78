import AiFirewall.BitPrefix
import AiFirewall.BoundedTables
import AiFirewall.Frame

namespace AiFirewall

/-!
# The maps the kernel programs share

Every map of the eBPF object, with its declared size.  Array maps are total
functions on their index.  The LRU maps evict on their own, so they are
partial functions without a size: an eviction is a step of the environment,
not of a program.  A trie node is the bits it stores; a lookup with a full
key hits when some node starts that key.
-/

/-- What the kernel holds for the XDP and the egress program. -/
structure KernelMaps where
  /-- `BLOCKLIST`: IPv4 address in host order to expiry. -/
  blocklist : BoundedMap U32 U64 65536
  /-- `BLOCKLIST6`: /64 prefix to expiry. -/
  blocklist6 : BoundedMap U64 U64 16384
  udpFlows : UdpFlow → Option U64
  udpFlows6 : UdpFlow6 → Option U64
  tcpAllow : U16 → U8
  udpAllow : U16 → U8
  allowFromTcp : PrefixTrie 4096
  allowFromUdp : PrefixTrie 4096
  tcpRate : U16 → U32
  rateState : U64 → Option RateState
  feeds : PrefixTrie 131072
  config : Fin 4 → U32
  stats : Fin 5 → U64
  /-- `EVENTS`, oldest first. -/
  events : List PacketEvent

namespace KernelMaps

/-- The maps of a freshly loaded object. -/
def fresh : KernelMaps where
  blocklist := .empty
  blocklist6 := .empty
  udpFlows := fun _ => none
  udpFlows6 := fun _ => none
  tcpAllow := fun _ => 0
  udpAllow := fun _ => 0
  allowFromTcp := .empty
  allowFromUdp := .empty
  tcpRate := fun _ => 0
  rateState := fun _ => none
  feeds := .empty
  config := fun _ => 0
  stats := fun _ => 0
  events := []

end KernelMaps

/-- What the helper functions of the kernel answer during one run. -/
structure Helpers where
  /-- `bpf_ktime_get_boot_ns`. -/
  now : U64
  /-- `EVENTS.reserve` finds room. -/
  eventRoom : Bool
  /-- An insertion into an LRU map is accepted. -/
  lruRoom : Bool
  deriving Repr, DecidableEq

/-- The header of a trie key: a rule's port, then its network. -/
def ruleKey (port : U16) (address : U32) : RuleKey :=
  let p := BitPrefix.bytes16 port
  let a := BitPrefix.bytes32 address
  ⟨(p ++ a).toArray, rfl⟩

/-- The bits a trie node of the given prefix length stores. -/
def triePrefix (length : Nat) (data : List U8) : List Bool :=
  (BitPrefix.bitsOfBytes data).take length

/-- A rule key is the port's bits, then the address's bits. -/
theorem bitsOfBytes_ruleKey (port : U16) (address : U32) :
    BitPrefix.bitsOfBytes (ruleKey port address).toList =
      BitPrefix.bits port ++ BitPrefix.bits address := by
  rw [← BitPrefix.bitsOfBytes_bytes16, ← BitPrefix.bitsOfBytes_bytes32,
    ← BitPrefix.bitsOfBytes_append]
  rfl

end AiFirewall
