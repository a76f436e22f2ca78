import AiFirewall.Config

namespace AiFirewall

/-!
# The networks of the machine

The addresses the machine depends on, as the daemon finds them: the router,
the name servers, its own addresses and the networks of its virtual machines
and containers.
-/

/-- An IPv4 address of an interface; the kernel keeps a prefix length. -/
structure IfaceNet where
  iface : String
  addr : U32
  prefixLength : Fin 33
  deriving Repr, DecidableEq

namespace IfaceNet

def net (own : IfaceNet) : Cidr :=
  let mask := BitPrefix.prefixMask 32 own.prefixLength
  ⟨own.addr &&& mask, mask⟩

/-- `is_virt_bridge`: libvirt, Docker, Podman, LXD. -/
def isVirtBridge (own : IfaceNet) : Bool :=
  ["virbr", "docker", "br-", "podman", "lxdbr", "vmnet", "cni"].any
    fun start => start.toList.isPrefixOf own.iface.toList

end IfaceNet

/-- What `net` reads from the system. -/
structure HostNetworks where
  /-- The router of the default route. -/
  gateway : Option U32
  nameservers : List U32
  interfaces : List IfaceNet
  deriving Repr, DecidableEq

namespace HostNetworks

/-- `auto_protected`: sources that must never be banned automatically. -/
def autoProtected (host : HostNetworks) : List Cidr :=
  [⟨0x7f000000, 0xff000000⟩, .single 0] ++
    host.gateway.toList.map Cidr.single ++
    host.nameservers.map Cidr.single ++
    host.interfaces.map (fun own => .single own.addr) ++
    (host.interfaces.filter IfaceNet.isVirtBridge).map IfaceNet.net

/-- The loopback network is the one the source parses. -/
example : Cidr.parse "127.0.0.0/8" = .ok ⟨0x7f000000, 0xff000000⟩ := by
  decide +kernel

end HostNetworks

theorem Cidr.wellFormed_single (ip : U32) :
    (single ip).WellFormed := by
  have isMask : BitVec.allOnes 32 = BitPrefix.prefixMask 32 32 := by
    decide
  exact ⟨32, le_rfl, isMask, BitVec.and_allOnes⟩

theorem HostNetworks.wellFormed_of_mem
    {host : HostNetworks}
    {net : Cidr}
    (member : net ∈ host.autoProtected) :
    net.WellFormed := by
  simp only [autoProtected, List.mem_append, List.mem_cons,
    List.not_mem_nil, or_false, List.mem_map] at member
  rcases member with
    ((((isLoopback | isZero) | ⟨ip, _, isNet⟩) | ⟨ip, _, isNet⟩) |
      ⟨own, _, isNet⟩) | ⟨own, _, isNet⟩
  · subst isLoopback
    exact ⟨8, by decide, by decide, by decide⟩
  · subst isZero
    exact Cidr.wellFormed_single 0
  · subst isNet
    exact Cidr.wellFormed_single ip
  · subst isNet
    exact Cidr.wellFormed_single ip
  · subst isNet
    exact Cidr.wellFormed_single own.addr
  · subst isNet
    exact ⟨own.prefixLength, Nat.le_of_lt_succ own.prefixLength.isLt, rfl,
      BitPrefix.and_prefixMask_and_prefixMask _ _⟩

/-- Of two networks that share an address, one contains the other. -/
theorem Cidr.contains_of_shared
    {first second : Cidr}
    (firstFormed : first.WellFormed)
    (secondFormed : second.WellFormed)
    {ip : U32}
    (inFirst : first.contains ip = true)
    (inSecond : second.contains ip = true) :
    first.contains second.net = true ∨ second.contains first.net = true := by
  obtain ⟨firstLength, firstFits, firstMask, _⟩ := firstFormed
  obtain ⟨secondLength, secondFits, secondMask, _⟩ := secondFormed
  have inFirstNet := of_decide_eq_true inFirst
  have inSecondNet := of_decide_eq_true inSecond
  rcases Nat.le_total firstLength secondLength with shorter | longer
  · refine Or.inl (decide_eq_true ?_)
    rw [← inSecondNet, BitVec.and_assoc, firstMask, secondMask,
      BitPrefix.prefixMask_and_prefixMask shorter secondFits,
      ← firstMask, inFirstNet]
  · refine Or.inr (decide_eq_true ?_)
    rw [← inFirstNet, BitVec.and_assoc, firstMask, secondMask,
      BitPrefix.prefixMask_and_prefixMask longer firstFits,
      ← secondMask, inSecondNet]

end AiFirewall
