import AiFirewall.BoundedTables
import AiFirewall.ConfigCheck
import AiFirewall.FallibleWrites
import AiFirewall.KernelMaps

namespace AiFirewall

/-!
# Compiling a policy

`compile` turns a policy into what the rule maps are to hold: the ports open
to everyone, the trie keys of the ports open to one network, and the limits
on new connections.  The lemmas say which rule each entry comes from, for TCP
and UDP at once.
-/

open RustText

/-- A policy as the kernel maps want it. -/
structure Compiled where
  tcp : HashSet U16
  udp : HashSet U16
  /-- Prefix length and data of the rules with `from`. -/
  fromTcp : HashSet (U32 × RuleKey)
  fromUdp : HashSet (U32 × RuleKey)
  /-- Packed limit on new TCP connections per source. -/
  rates : Table U16 U32

/-- The protocols that rules are about. -/
inductive Proto where
  | tcp
  | udp
  deriving Repr, DecidableEq

/-- What is not `tcp` is taken for `udp`. -/
def Rule.protocol (rule : Rule) : Proto :=
  if rule.proto = "tcp" then .tcp else .udp

/-- `DHCP_CLIENT_PORTS`. -/
def dhcpClientPorts : List U16 := [68, 546]

/-- The trie key of a port that is open to a network. -/
def networkKey (port : U16) (network : Cidr) : U32 × RuleKey :=
  (16 + BitVec.ofNat 32 (BitPrefix.leadingOnes network.mask),
    ruleKey port network.net)

/-- Of two limits on one port the one with fewer connections a second. -/
def lowerRate (packed : U32) (max window : U16) : U32 :=
  let oldMax := (packed >>> 16).toNat
  let oldWindow := (packed &&& 0xffff).toNat
  if max.toNat * oldWindow < oldMax * window.toNat then
    ratePack max window
  else
    packed

namespace Compiled

/-- Open one port of a rule. -/
def openPort
    (proto : Proto)
    (network : Option Cidr)
    (compiled : Compiled)
    (port : U16) : Compiled :=
  match network, proto with
  | none, .tcp => { compiled with tcp := compiled.tcp.insert port }
  | none, .udp => { compiled with udp := compiled.udp.insert port }
  | some network, .tcp =>
      { compiled with
        fromTcp := compiled.fromTcp.insert (networkKey port network) }
  | some network, .udp =>
      { compiled with
        fromUdp := compiled.fromUdp.insert (networkKey port network) }

/-- Limit one port of a rule; the lower of two limits wins. -/
def limitPort
    (rate : Option (U16 × U16))
    (compiled : Compiled)
    (port : U16) : Compiled :=
  match rate with
  | none => compiled
  | some (max, window) =>
      let packed :=
        match compiled.rates.lookup port with
        | some packed => lowerRate packed max window
        | none => ratePack max window
      { compiled with rates := compiled.rates.insert port packed }

def addPort
    (proto : Proto)
    (network : Option Cidr)
    (rate : Option (U16 × U16))
    (compiled : Compiled)
    (port : U16) : Compiled :=
  (compiled.openPort proto network port).limitPort rate port

def addRule (compiled : Compiled) (rule : Rule) :
    Except Error Compiled := do
  let network ← rule.from?.mapM Cidr.parse
  let rate ← rule.rate
  let (first, last) ← rule.port.ports
  return (portRange first last).foldl
    (addPort rule.protocol network rate) compiled

end Compiled

def compile (policy : Policy) : Except Error Compiled := do
  let tcp ← expand policy.allowTcp
  let udp ← expand policy.allowUdp
  policy.rules.foldlM Compiled.addRule
    { tcp := .ofList tcp
      udp := .ofList (udp ++ dhcpClientPorts)
      fromTcp := .empty
      fromUdp := .empty
      rates := ∅ }

/-- The list of a protocol. -/
def Policy.allow (policy : Policy) : Proto → List PortSpec
  | .tcp => policy.allowTcp
  | .udp => policy.allowUdp

/-- The rule opens the port to everyone. -/
def Rule.Opens (proto : Proto) (rule : Rule) (port : U16) : Prop :=
  rule.protocol = proto ∧
    rule.from? = none ∧
    rule.port.covers port = true

/-- The rule opens the port to a network. -/
def Rule.OpensTo
    (proto : Proto)
    (rule : Rule)
    (network : Cidr)
    (port : U16) : Prop :=
  rule.protocol = proto ∧
    (∃ text, rule.from? = some text ∧ Cidr.parse text = .ok network) ∧
    rule.port.covers port = true

/-- An expanded list holds the ports of its specifications. -/
theorem mem_expand
    {specs : List PortSpec}
    {ports : List U16}
    (expanded : expand specs = .ok ports)
    (port : U16) :
    port ∈ ports ↔ ∃ spec ∈ specs, spec.covers port = true := by
  unfold expand at expanded
  obtain ⟨ranges, collected, shape⟩ := Error.bind_ok.mp expanded
  cases shape
  rw [mem_dedup, List.mem_insertionSort, List.mem_flatMap]
  constructor
  · rintro ⟨⟨first, last⟩, inRanges, inRange⟩
    obtain ⟨spec, inSpecs, read⟩ :=
      (Error.mem_of_mapM_ok collected _).mp inRanges
    refine ⟨spec, inSpecs, ?_⟩
    simpa [PortSpec.covers, read] using mem_portRange.mp inRange
  · rintro ⟨spec, inSpecs, covered⟩
    unfold PortSpec.covers at covered
    cases read : spec.ports with
    | error reason =>
        rw [read] at covered
        cases covered
    | ok range =>
        rw [read] at covered
        refine ⟨range,
          (Error.mem_of_mapM_ok collected _).mpr ⟨spec, inSpecs, read⟩, ?_⟩
        exact mem_portRange.mpr (by simpa using covered)

namespace Compiled

/-- The ports of a protocol that are open to everyone. -/
def ports (compiled : Compiled) : Proto → HashSet U16
  | .tcp => compiled.tcp
  | .udp => compiled.udp

/-- The trie keys of a protocol. -/
def keys (compiled : Compiled) : Proto → HashSet (U32 × RuleKey)
  | .tcp => compiled.fromTcp
  | .udp => compiled.fromUdp

section

variable
  {proto ruleProto : Proto}
  {network : Option Cidr}
  {rate : Option (U16 × U16)}
  {compiled : Compiled}
  {port added : U16}
  {key : U32 × RuleKey}

theorem limitPort_opens :
    (compiled.limitPort rate port).ports = compiled.ports ∧
      (compiled.limitPort rate port).keys = compiled.keys := by
  cases rate with
  | none => exact ⟨rfl, rfl⟩
  | some limit => exact ⟨rfl, rfl⟩

theorem mem_ports_addPort :
    port ∈ (compiled.addPort ruleProto network rate added).ports proto ↔
      port ∈ compiled.ports proto ∨
        ruleProto = proto ∧ network = none ∧ port = added := by
  rw [addPort, limitPort_opens.1]
  cases network <;> cases ruleProto <;> cases proto <;>
    simp [openPort, ports, or_comm]

theorem mem_keys_addPort :
    key ∈ (compiled.addPort ruleProto network rate added).keys proto ↔
      key ∈ compiled.keys proto ∨
        ruleProto = proto ∧
          ∃ cidr ∈ network, key = networkKey added cidr := by
  rw [addPort, limitPort_opens.2]
  cases network <;> cases ruleProto <;> cases proto <;>
    simp [openPort, keys, or_comm]

theorem mem_ports_addPorts
    {range : List U16} :
    port ∈ (range.foldl (addPort ruleProto network rate) compiled).ports proto ↔
      port ∈ compiled.ports proto ∨
        ruleProto = proto ∧ network = none ∧ port ∈ range := by
  induction range generalizing compiled with
  | nil =>
      simp
  | cons first rest inductionHypothesis =>
      rw [List.foldl_cons, inductionHypothesis, mem_ports_addPort,
        List.mem_cons]
      tauto

theorem mem_keys_addPorts
    {range : List U16} :
    key ∈ (range.foldl (addPort ruleProto network rate) compiled).keys proto ↔
      key ∈ compiled.keys proto ∨
        ruleProto = proto ∧
          ∃ cidr ∈ network, ∃ port ∈ range, key = networkKey port cidr := by
  induction range generalizing compiled with
  | nil =>
      simp
  | cons first rest inductionHypothesis =>
      rw [List.foldl_cons, inductionHypothesis, mem_keys_addPort]
      simp only [List.exists_mem_cons_iff]
      aesop

/-- What one rule adds to the open ports. -/
theorem mem_ports_addRule
    {after : Compiled}
    {rule : Rule}
    (added : compiled.addRule rule = .ok after) :
    port ∈ after.ports proto ↔
      port ∈ compiled.ports proto ∨ rule.Opens proto port := by
  unfold addRule at added
  obtain ⟨network, networkRead, rest⟩ := Error.bind_ok.mp added
  obtain ⟨rate, _, rest⟩ := Error.bind_ok.mp rest
  obtain ⟨⟨first, last⟩, portRead, shape⟩ := Error.bind_ok.mp rest
  cases shape
  rw [mem_ports_addPorts, mem_portRange, Rule.Opens, PortSpec.covers,
    portRead]
  cases given : rule.from? with
  | none =>
      rw [given] at networkRead
      cases networkRead
      simp
  | some text =>
      rw [given, Option.mapM_some] at networkRead
      obtain ⟨cidr, _, isSome⟩ := Error.bind_ok.mp networkRead
      cases isSome
      simp

/-- What one rule adds to the trie keys. -/
theorem mem_keys_addRule
    {after : Compiled}
    {rule : Rule}
    (added : compiled.addRule rule = .ok after) :
    key ∈ after.keys proto ↔
      key ∈ compiled.keys proto ∨
        ∃ cidr port, rule.OpensTo proto cidr port ∧
          key = networkKey port cidr := by
  unfold addRule at added
  obtain ⟨network, networkRead, rest⟩ := Error.bind_ok.mp added
  obtain ⟨rate, _, rest⟩ := Error.bind_ok.mp rest
  obtain ⟨⟨first, last⟩, portRead, shape⟩ := Error.bind_ok.mp rest
  cases shape
  rw [mem_keys_addPorts]
  simp only [mem_portRange, Rule.OpensTo, PortSpec.covers, portRead]
  cases given : rule.from? with
  | none =>
      rw [given] at networkRead
      cases networkRead
      simp
  | some text =>
      rw [given, Option.mapM_some] at networkRead
      obtain ⟨cidr, parsed, isSome⟩ := Error.bind_ok.mp networkRead
      cases isSome
      refine or_congr_right ?_
      constructor
      · rintro ⟨sameProto, other, isCidr, port, inRange, isKey⟩
        cases isCidr
        exact ⟨cidr, port,
          ⟨sameProto, ⟨text, rfl, parsed⟩, by simpa using inRange⟩, isKey⟩
      · rintro ⟨other, port, ⟨sameProto, fromText, inRange⟩, isKey⟩
        obtain ⟨otherText, sameText, otherParsed⟩ := fromText
        cases sameText
        rw [parsed] at otherParsed
        cases otherParsed
        exact ⟨sameProto, cidr, rfl, port, by simpa using inRange, isKey⟩

theorem mem_ports_addRules
    {after : Compiled}
    {rules : List Rule}
    (added : rules.foldlM addRule compiled = .ok after) :
    port ∈ after.ports proto ↔
      port ∈ compiled.ports proto ∨ ∃ rule ∈ rules, rule.Opens proto port := by
  induction rules generalizing compiled with
  | nil =>
      cases added
      simp
  | cons rule rest inductionHypothesis =>
      rw [List.foldlM_cons] at added
      obtain ⟨middle, first, later⟩ := Error.bind_ok.mp added
      rw [inductionHypothesis later, mem_ports_addRule first,
        List.exists_mem_cons_iff, or_assoc]

theorem mem_keys_addRules
    {after : Compiled}
    {rules : List Rule}
    (added : rules.foldlM addRule compiled = .ok after) :
    key ∈ after.keys proto ↔
      key ∈ compiled.keys proto ∨
        ∃ rule ∈ rules, ∃ cidr port, rule.OpensTo proto cidr port ∧
          key = networkKey port cidr := by
  induction rules generalizing compiled with
  | nil =>
      cases added
      simp
  | cons rule rest inductionHypothesis =>
      rw [List.foldlM_cons] at added
      obtain ⟨middle, first, later⟩ := Error.bind_ok.mp added
      rw [inductionHypothesis later, mem_keys_addRule first,
        List.exists_mem_cons_iff, or_assoc]

/-- A usable rule is compiled. -/
theorem addRule_of_usable
    {rule : Rule}
    (usable : rule.Usable)
    (compiled : Compiled) :
    ∃ after, compiled.addRule rule = .ok after := by
  obtain ⟨network, networkRead⟩ := usable.network
  obtain ⟨rate, rateRead, _⟩ := usable.rate
  obtain ⟨range, portRead⟩ := usable.port
  rw [addRule, networkRead, rateRead, portRead]
  exact ⟨_, rfl⟩

theorem addRules_of_usable
    {rules : List Rule}
    (usable : ∀ rule ∈ rules, rule.Usable)
    (compiled : Compiled) :
    ∃ after, rules.foldlM addRule compiled = .ok after := by
  induction rules generalizing compiled with
  | nil =>
      exact ⟨compiled, rfl⟩
  | cons rule rest inductionHypothesis =>
      obtain ⟨head, tail⟩ := List.forall_mem_cons.mp usable
      obtain ⟨middle, first⟩ := addRule_of_usable head compiled
      obtain ⟨after, later⟩ := inductionHypothesis tail middle
      exact ⟨after, by
        rw [List.foldlM_cons]
        exact Error.bind_ok.mpr ⟨middle, first, later⟩⟩

end

end Compiled

/-- A policy that passed its check is compiled. -/
theorem compile_of_usable
    {policy : Policy}
    (usable :
      PolicyUsable policy.allowTcp policy.allowUdp policy.rules) :
    ∃ compiled, compile policy = .ok compiled := by
  obtain ⟨tcp, tcpExpanded⟩ := usable.tcp
  obtain ⟨udp, udpExpanded⟩ := usable.udp
  obtain ⟨after, added⟩ :=
    Compiled.addRules_of_usable usable.rules
      { tcp := .ofList tcp
        udp := .ofList (udp ++ dhcpClientPorts)
        fromTcp := .empty
        fromUdp := .empty
        rates := ∅ }
  refine ⟨after, Error.bind_ok.mpr ⟨tcp, tcpExpanded, ?_⟩⟩
  exact Error.bind_ok.mpr ⟨udp, udpExpanded, added⟩

/-- The ports a compiled policy opens to everyone. -/
theorem mem_ports_compile
    {policy : Policy}
    {compiled : Compiled}
    (compiles : compile policy = .ok compiled)
    (proto : Proto)
    (port : U16) :
    port ∈ compiled.ports proto ↔
      (∃ spec ∈ policy.allow proto, spec.covers port = true) ∨
        (proto = .udp ∧ port ∈ dhcpClientPorts) ∨
        ∃ rule ∈ policy.rules, rule.Opens proto port := by
  unfold compile at compiles
  obtain ⟨tcpPorts, tcpExpanded, rest⟩ := Error.bind_ok.mp compiles
  obtain ⟨udpPorts, udpExpanded, added⟩ := Error.bind_ok.mp rest
  rw [Compiled.mem_ports_addRules added, ← or_assoc]
  refine or_congr_left ?_
  cases proto with
  | tcp =>
      simp [Compiled.ports, Policy.allow, mem_expand tcpExpanded]
  | udp =>
      simp [Compiled.ports, Policy.allow, mem_expand udpExpanded]

/-- The trie keys of a compiled policy. -/
theorem mem_keys_compile
    {policy : Policy}
    {compiled : Compiled}
    (compiles : compile policy = .ok compiled)
    (proto : Proto)
    (key : U32 × RuleKey) :
    key ∈ compiled.keys proto ↔
      ∃ rule ∈ policy.rules, ∃ cidr port, rule.OpensTo proto cidr port ∧
        key = networkKey port cidr := by
  unfold compile at compiles
  obtain ⟨tcpPorts, _, rest⟩ := Error.bind_ok.mp compiles
  obtain ⟨udpPorts, _, added⟩ := Error.bind_ok.mp rest
  rw [Compiled.mem_keys_addRules added]
  cases proto with
  | tcp => simp [Compiled.keys]
  | udp => simp [Compiled.keys]

end AiFirewall
