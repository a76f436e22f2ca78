import AiFirewall.RuleSync
import AiFirewall.XdpProgram

namespace AiFirewall

/-!
# The kernel decides what the configuration says

The rule maps that `apply_config` writes, read back by the packet program: a
port is open to a source exactly when a list or a rule of the policy says so.
The trie keys are compared bit by bit, in the byte order of both sides.
-/

open BitPrefix

/-- Two lists with fronts of one length, one at the start of the other. -/
theorem append_prefix_iff
    {Element : Type}
    {firstFront secondFront firstBack secondBack : List Element}
    (sameLength : firstFront.length = secondFront.length) :
    firstFront ++ firstBack <+: secondFront ++ secondBack ↔
      firstFront = secondFront ∧ firstBack <+: secondBack := by
  constructor
  · rintro ⟨rest, shape⟩
    rw [List.append_assoc] at shape
    obtain ⟨sameFront, sameBack⟩ := List.append_inj shape sameLength
    exact ⟨sameFront, rest, sameBack⟩
  · rintro ⟨rfl, rest, rfl⟩
    exact ⟨rest, by rw [List.append_assoc]⟩

/-- A key matches a port and an address as its network says. -/
theorem trieBits_prefix_iff
    {port asked : U16}
    {network : Cidr}
    (wellFormed : network.WellFormed)
    (address : U32) :
    trieBits (networkKey port network) <+:
        triePrefix 48 (ruleKey asked address).toList ↔
      port = asked ∧ network.contains address = true := by
  obtain ⟨length, fits, isMask, masked⟩ := wellFormed
  have wholeKey :
      triePrefix 48 (ruleKey asked address).toList =
        bits asked ++ bits address := by
    rw [triePrefix, bitsOfBytes_ruleKey]
    exact List.take_of_length_le (by simp)
  have inNetwork :
      (bits network.net).take length <+: bits address ↔
        network.contains address = true := by
    have ownLength : ((bits network.net).take length).length = length := by
      simpa using fits
    rw [List.prefix_iff_eq_take, ownLength,
      ← and_prefixMask_eq_iff fits, ← isMask, masked, Cidr.contains,
      decide_eq_true_eq]
    exact eq_comm
  rw [trieBits_networkKey fits isMask, wholeKey,
    append_prefix_iff (by simp), inNetwork]
  exact and_congr_left' ⟨bits_injective, congrArg bits⟩

/-- A rule without a network admits everyone, one with it IPv4 from there. -/
def Rule.Admits (rule : Rule) (source : Source) : Prop :=
  match rule.from? with
  | none => True
  | some text =>
      source.family = familyV4 ∧
        ∃ network,
          Cidr.parse text = .ok network ∧ network.contains source.v4 = true

/-- The word a configuration uses for a protocol. -/
def Proto.word : Proto → String
  | .tcp => "tcp"
  | .udp => "udp"

theorem Proto.word_injective
    {first second : Proto}
    (same : first.word = second.word) :
    first = second := by
  revert same
  cases first <;> cases second <;> decide

/-- A list or a rule of the policy lets a source in on a port. -/
def Policy.LetsIn
    (policy : Policy)
    (proto : Proto)
    (source : Source)
    (port : U16) : Prop :=
  (∃ spec ∈ policy.allow proto, spec.covers port = true) ∨
    ∃ rule ∈ policy.rules,
      rule.proto = proto.word ∧
        rule.port.covers port = true ∧
        rule.Admits source

/-- The port is open to everyone, or a trie key admits the IPv4 source. -/
def Compiled.Admits
    (compiled : Compiled)
    (proto : Proto)
    (source : Source)
    (port : U16) : Prop :=
  port ∈ compiled.ports proto ∨
    source.family = familyV4 ∧
      ∃ key ∈ compiled.keys proto,
        trieBits key <+: triePrefix 48 (ruleKey port source.v4).toList

theorem protocol_eq_iff
    {rule : Rule}
    (usable : rule.Usable)
    (proto : Proto) :
    rule.protocol = proto ↔ rule.proto = proto.word := by
  rw [Rule.protocol]
  rcases usable.proto with isTcp | isUdp
  · rw [isTcp]
    cases proto <;> decide
  · rw [isUdp]
    cases proto <;> decide

section

variable
  {policy : Policy}
  {compiled : Compiled}
  {kernel : Kernel}
  {proto : Proto}
  {source : Source}
  {port : U16}

theorem portOpen_iff
    (holds : kernel.Holds compiled) :
    portOpen (kernel.ports proto).entries port = true ↔
      port ∈ compiled.ports proto := by
  rw [portOpen, decide_eq_true_eq, holds.ports proto port]
  split
  · exact iff_of_true (by decide) (by assumption)
  · exact iff_of_false (by decide) (by assumption)

/-- What the maps let in when they hold a compiled policy. -/
theorem admits_iff_maps (holds : kernel.Holds compiled) :
    (portOpen (kernel.ports proto).entries port ||
        allowedFrom (kernel.tries proto).nodes source port) = true ↔
      compiled.Admits proto source port := by
  rw [Bool.or_eq_true, portOpen_iff holds, Compiled.Admits]
  refine or_congr_right ?_
  rw [allowedFrom]
  by_cases isV4 : source.family = familyV4
  · rw [if_neg (not_not.mpr isV4), PrefixTrie.matchesAddress_iff]
    refine Iff.trans ?_ (and_iff_right isV4).symm
    constructor
    · rintro ⟨stored, member, isPrefix⟩
      obtain ⟨key, inKeys, isStored⟩ := (holds.tries proto stored).mp member
      subst isStored
      exact ⟨key, inKeys, isPrefix⟩
    · rintro ⟨key, inKeys, isPrefix⟩
      exact ⟨_, (holds.tries proto _).mpr ⟨key, inKeys, rfl⟩, isPrefix⟩
  · rw [if_pos isV4]
    exact iff_of_false Bool.false_ne_true fun both => isV4 both.1

/-- A key of a compiled policy admits the networks of its rules. -/
theorem key_admits_iff (compiles : compile policy = .ok compiled) :
    (∃ key ∈ compiled.keys proto,
        trieBits key <+:
          triePrefix 48 (ruleKey port source.v4).toList) ↔
      ∃ rule ∈ policy.rules, ∃ network,
        rule.OpensTo proto network port ∧
          network.contains source.v4 = true := by
  constructor
  · rintro ⟨key, inKeys, isPrefix⟩
    obtain ⟨rule, inRules, network, opened, opens, isKey⟩ :=
      (mem_keys_compile compiles proto key).mp inKeys
    obtain ⟨text, _, parsed⟩ := opens.2.1
    subst isKey
    obtain ⟨samePort, inNetwork⟩ :=
      (trieBits_prefix_iff (Cidr.wellFormed_of_parse parsed) _).mp isPrefix
    subst samePort
    exact ⟨rule, inRules, network, opens, inNetwork⟩
  · rintro ⟨rule, inRules, network, opens, inNetwork⟩
    obtain ⟨text, _, parsed⟩ := opens.2.1
    exact ⟨networkKey port network,
      (mem_keys_compile compiles proto _).mpr
        ⟨rule, inRules, network, port, opens, rfl⟩,
      (trieBits_prefix_iff (Cidr.wellFormed_of_parse parsed) _).mpr
        ⟨rfl, inNetwork⟩⟩

/-- A compiled policy admits what the policy lets in, and DHCP answers. -/
theorem admits_iff_letsIn
    (compiles : compile policy = .ok compiled)
    (usable : ∀ rule ∈ policy.rules, rule.Usable) :
    compiled.Admits proto source port ↔
      policy.LetsIn proto source port ∨
        proto = .udp ∧ port ∈ dhcpClientPorts := by
  rw [Compiled.Admits, key_admits_iff compiles, mem_ports_compile compiles]
  constructor
  · rintro ((listed | dhcp | ⟨rule, inRules, sameProto, noNetwork, covered⟩) |
      ⟨isV4, rule, inRules, network, opens, inNetwork⟩)
    · exact .inl (.inl listed)
    · exact .inr dhcp
    · refine .inl (.inr ⟨rule, inRules,
        (protocol_eq_iff (usable rule inRules) proto).mp sameProto,
        covered, ?_⟩)
      rw [Rule.Admits, noNetwork]
      trivial
    · obtain ⟨sameProto, ⟨text, given, parsed⟩, covered⟩ := opens
      refine .inl (.inr ⟨rule, inRules,
        (protocol_eq_iff (usable rule inRules) proto).mp sameProto,
        covered, ?_⟩)
      rw [Rule.Admits, given]
      exact ⟨isV4, network, parsed, inNetwork⟩
  · rintro ((listed | ⟨rule, inRules, sameProto, covered, admits⟩) | dhcp)
    · exact .inl (.inl listed)
    · rw [← protocol_eq_iff (usable rule inRules)] at sameProto
      rw [Rule.Admits] at admits
      cases given : rule.from? with
      | none =>
          exact .inl (.inr (.inr
            ⟨rule, inRules, sameProto, given, covered⟩))
      | some text =>
          rw [given] at admits
          obtain ⟨isV4, network, parsed, inNetwork⟩ := admits
          exact .inr ⟨isV4, rule, inRules, network,
            ⟨sameProto, ⟨text, given, parsed⟩, covered⟩, inNetwork⟩
    · exact .inl (.inr (.inl dhcp))

/-- The maps let a source in exactly where the policy does. -/
theorem letsIn_iff
    (compiles : compile policy = .ok compiled)
    (usable : ∀ rule ∈ policy.rules, rule.Usable)
    (holds : kernel.Holds compiled) :
    (portOpen (kernel.ports proto).entries port ||
        allowedFrom (kernel.tries proto).nodes source port) = true ↔
      policy.LetsIn proto source port ∨
        proto = .udp ∧ port ∈ dhcpClientPorts :=
  (admits_iff_maps holds).trans (admits_iff_letsIn compiles usable)

end

section

variable
  {Score : Type}
  {before after : World Score}
  {attempt : Attempt}
  {cfg : Config}
  {profile : Option String}

/-- On fresh maps a call that succeeds leaves its policy and nothing else. -/
theorem holds_of_fresh
    {compiled : Compiled}
    (accepted : cfg.validate = .ok ())
    (fresh : before.kernel = .fresh)
    (compiles : compile (cfg.policy profile) = .ok compiled)
    (applied :
      (applyConfig attempt cfg (cfg.policy profile)).run before =
        .ok () after) :
    after.kernel.Holds compiled := by
  obtain ⟨_, blocked, _, readable⟩ := compiled_of_accepted accepted profile
  have inStep : before.kernel.InStep := fresh ▸ Kernel.fresh_inStep
  have canonical : before.kernel.Canonical :=
    fresh ▸ Kernel.fresh_canonical
  exact (inStep_of_ok compiles readable canonical inStep
    (removesAll_of_fresh fresh) applied).2

/--
Written to fresh maps, an accepted configuration in enforce mode lets in the
TCP openers and the unasked-for UDP packets that its policy names, and no
others; UDP to the DHCP client ports passes besides.
-/
theorem kernel_decides_config
    (fromToml : String → Except Error Config)
    (text : String)
    (parsed : Config.parse fromToml text = .ok cfg)
    (fresh : before.kernel = .fresh)
    (applied :
      (applyConfig attempt cfg (cfg.policy profile)).run before =
        .ok () after)
    (enforced : cfg.enforce = true)
    (others : KernelMaps)
    (helpers : Helpers)
    (source : Source)
    (flow : Flow)
    (toEveryone : Bool) :
    (flow.proto = protoTcp →
        opener flow.tcpFlags = true →
        odd flow.tcpFlags = false →
        (overRate helpers (after.maps others) source flow.dstPort).1 =
          false →
        ∀ reply,
          ((policy helpers (after.maps others) source flow toEveryone
              reply).1 = .pass ↔
            (cfg.policy profile).LetsIn .tcp source flow.dstPort)) ∧
      (flow.proto = protoUdp →
        before.settings cfgUdpStrict = 1 →
          ((policy helpers (after.maps others) source flow toEveryone
              false).1 = .pass ↔
            (cfg.policy profile).LetsIn .udp source flow.dstPort ∨
              flow.dstPort = 68 ∨ flow.dstPort = 546)) := by
  have accepted := Config.validate_of_parse parsed
  obtain ⟨compiled, blocked, compiles, readable⟩ :=
    compiled_of_accepted accepted profile
  have holds := holds_of_fresh accepted fresh compiles applied
  have rules :=
    ((Config.validate_ok.mp accepted).policy profile).rules
  obtain ⟨enforce, _, _, strict⟩ := settings_of_ok compiles readable applied
  rw [enforced] at enforce
  have inForce : (after.maps others).config cfgEnforce = 1 := enforce
  constructor
  · intro isTcp isOpener notOdd underLimit reply
    rw [policy_pass_iff inForce,
      judge_allowed_of_opener isTcp notOdd isOpener underLimit]
    refine (letsIn_iff compiles rules holds).trans (or_iff_left ?_)
    rintro ⟨isUdp, _⟩
    cases isUdp
  · intro isUdp wasStrict
    have inStrict : (after.maps others).config cfgUdpStrict = 1 :=
      strict.trans wasStrict
    rw [policy_pass_iff inForce, judge_allowed_of_udp isUdp,
      looseReply_of_strict inStrict, Bool.or_false, Bool.false_or]
    refine (letsIn_iff compiles rules holds).trans (or_congr_right ?_)
    simp [dhcpClientPorts]

end

/-- The first opener of a source is within any limit. -/
theorem overRate_of_unseen
    {helpers : Helpers}
    {maps : KernelMaps}
    {source : Source}
    {port : U16}
    (unseen : maps.rateState = fun _ => none) :
    (overRate helpers maps source port).1 = false := by
  unfold overRate
  dsimp only
  split
  · rfl
  · rw [unseen]

/-- A configuration with a range, an open UDP port and a rule of its own. -/
def served : Config :=
  { Config.default with
    allowTcp := [.one 22, .text "8000-8002"]
    allowUdp := [.one 5353]
    rules := [⟨"tcp", .one 3306, some "10.0.0.0/8", some "6/30s"⟩]
    profiles :=
      [("home", ⟨["Home"], some [.one 80], none, none, none⟩)] }

/-- Fresh maps, with the setting for strict UDP. -/
def strictWorld : World ℚ :=
  ⟨fun setting => if setting = cfgUdpStrict then 1 else 0, .fresh,
    freshShared⟩

def servedWorld (profile : Option String) : World ℚ :=
  ruleStep strictWorld (.call (refusing fun _ => false) served profile)

def openerFlow (port : U16) : Flow where
  proto := protoTcp
  srcPort := 40000
  dstPort := port
  tcpFlags := tcpFlagSyn
  payloadLen := 0

def datagramFlow (port : U16) : Flow where
  proto := protoUdp
  srcPort := 40000
  dstPort := port
  tcpFlags := 0
  payloadLen := 12

def servedVerdict (source : Source) (flow : Flow) : XdpAction :=
  (policy ⟨1000, true, true⟩ ((servedWorld none).maps .fresh) source flow
    false false).1

/-- Anyone reaches the range and the UDP port, and a neighbour the database;
the next UDP port is closed. -/
theorem served_packets_pass :
    servedVerdict ⟨familyV6, 0, 0x20010db800000000⟩ (openerFlow 8001) =
        .pass ∧
      servedVerdict ⟨familyV4, 0x0a000005, 0⟩ (openerFlow 3306) = .pass ∧
      servedVerdict ⟨familyV4, 0xc0a80005, 0⟩ (datagramFlow 5353) = .pass ∧
      servedVerdict ⟨familyV4, 0xc0a80005, 0⟩ (datagramFlow 5354) ≠
        .pass := by
  have parsed : Config.parse (fun _ => .ok served) "" = .ok served := by
    decide +kernel
  have ran :
      (applyConfig (refusing fun _ => false) served
          (served.policy none)).run strictWorld =
        .ok () (servedWorld none) :=
    ran_of_finished (by decide +kernel)
  have decided (source : Source) (flow : Flow) :=
    kernel_decides_config (fun _ => .ok served) "" parsed rfl ran
      (by decide) .fresh ⟨1000, true, true⟩ source flow false
  unfold servedVerdict
  refine ⟨?_, ?_, ?_, ?_⟩
  · rw [(decided _ (openerFlow 8001)).1 rfl (by decide) (by decide)
      (overRate_of_unseen rfl) false]
    refine .inl ⟨.text "8000-8002", ?_, by decide +kernel⟩
    exact List.mem_cons_of_mem _ (List.mem_singleton_self _)
  · rw [(decided _ (openerFlow 3306)).1 rfl (by decide) (by decide)
      (overRate_of_unseen rfl) false]
    refine .inr ⟨_, List.mem_singleton_self _, rfl, by decide +kernel, ?_⟩
    exact ⟨rfl, ⟨0x0a000000, 0xff000000⟩, by decide +kernel, by decide⟩
  · rw [(decided _ (datagramFlow 5353)).2 rfl rfl]
    exact .inl (.inl ⟨.one 5353, List.mem_singleton_self _, by decide⟩)
  · rw [Ne, (decided _ (datagramFlow 5354)).2 rfl rfl]
    rintro ((⟨spec, member, covers⟩ | ⟨rule, member, isUdp, _⟩) |
      isDhcp | isDhcp)
    · rw [List.mem_singleton.mp member] at covers
      revert covers
      decide
    · rw [List.mem_singleton.mp member] at isUdp
      revert isUdp
      decide
    · revert isDhcp
      decide
    · revert isDhcp
      decide

end AiFirewall
