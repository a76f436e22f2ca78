import AiFirewall.PolicyDecision
import AiFirewall.Posture

namespace AiFirewall

/-!
# What a posture changes of a policy

The overlay edits the base settings and the overrides of every profile one by
one.  Read back through the choice of the profile and the compilation, two of
the postures change nothing and `stealth` adds its decoys.
-/

/-- Entries rewritten without their names are found under the same names. -/
theorem Config.profile?_of_map
    {cfg changed : Config}
    {change : Profile → Profile}
    (rewritten :
      changed.profiles =
        cfg.profiles.map fun entry => (entry.1, change entry.2))
    (name : String) :
    changed.profile? name = (cfg.profile? name).map change := by
  unfold Config.profile?
  rw [rewritten, List.find?_map, Option.map_map, Option.map_map]
  rfl

namespace Compiled

/-- Opening ports without a limit leaves the limits. -/
theorem rates_addPorts
    {proto : Proto}
    {network : Option Cidr}
    {ports : List U16}
    (compiled : Compiled) :
    (ports.foldl (addPort proto network none) compiled).rates =
      compiled.rates := by
  induction ports generalizing compiled with
  | nil =>
      rfl
  | cons port rest inductionHypothesis =>
      rw [List.foldl_cons, inductionHypothesis]
      cases network <;> cases proto <;> rfl

theorem rates_addRule
    {before after : Compiled}
    {rule : Rule}
    (unlimited : rule.limit = none)
    (added : before.addRule rule = .ok after) :
    after.rates = before.rates := by
  have noRate : rule.rate = .ok none := by
    rw [Rule.rate, unlimited]
  unfold addRule at added
  obtain ⟨network, _, rest⟩ := Error.bind_ok.mp added
  obtain ⟨rate, isRate, rest⟩ := Error.bind_ok.mp rest
  obtain ⟨⟨first, last⟩, _, shape⟩ := Error.bind_ok.mp rest
  rw [noRate] at isRate
  cases isRate
  cases shape
  exact rates_addPorts before

/-- Rules without limits leave the limits. -/
theorem rates_addRules
    {before after : Compiled}
    {rules : List Rule}
    (unlimited : ∀ rule ∈ rules, rule.limit = none)
    (added : rules.foldlM addRule before = .ok after) :
    after.rates = before.rates := by
  induction rules generalizing before with
  | nil =>
      cases added
      rfl
  | cons rule rest inductionHypothesis =>
      obtain ⟨ruleUnlimited, restUnlimited⟩ :=
        List.forall_mem_cons.mp unlimited
      rw [List.foldlM_cons] at added
      obtain ⟨middle, first, later⟩ := Error.bind_ok.mp added
      exact (inductionHypothesis restUnlimited later).trans
        (rates_addRule ruleUnlimited first)

end Compiled

/-- More rules at the end are compiled after the others. -/
theorem compile_append
    {policy : Policy}
    {more : List Rule}
    {original laid : Compiled}
    (compiles : compile policy = .ok original)
    {allowPing : Bool}
    (laidCompiles :
      compile
          { policy with
            allowPing := allowPing
            rules := policy.rules ++ more } = .ok laid) :
    more.foldlM Compiled.addRule original = .ok laid := by
  unfold compile at compiles laidCompiles
  obtain ⟨tcp, tcpRead, rest⟩ := Error.bind_ok.mp compiles
  obtain ⟨udp, udpRead, added⟩ := Error.bind_ok.mp rest
  obtain ⟨laidTcp, laidTcpRead, laidRest⟩ := Error.bind_ok.mp laidCompiles
  obtain ⟨laidUdp, laidUdpRead, laidAdded⟩ := Error.bind_ok.mp laidRest
  rw [tcpRead] at laidTcpRead
  rw [udpRead] at laidUdpRead
  cases laidTcpRead
  cases laidUdpRead
  rw [List.foldlM_append] at laidAdded
  obtain ⟨middle, first, later⟩ := Error.bind_ok.mp laidAdded
  rw [added] at first
  cases first
  exact later

namespace Posture

/-- The decoy ports of a protocol. -/
def decoyPorts : Proto → List U16
  | .tcp => decoyTcp
  | .udp => decoyUdp

/-- An IPv4 source inside one of the posture's local networks. -/
def InLan (posture : Posture) (source : Source) : Prop :=
  source.family = familyV4 ∧
    ∃ net ∈ posture.lan, ∃ network,
      Cidr.parse net = .ok network ∧ network.contains source.v4 = true

variable
  {posture : Posture}
  {cfg : Config}

theorem mem_decoys {rule : Rule} :
    rule ∈ posture.decoys ↔
      ∃ net ∈ posture.lan, ∃ proto, ∃ port ∈ decoyPorts proto,
        rule = ⟨proto.word, .one port, some net, none⟩ := by
  rw [decoys, List.mem_flatMap]
  refine exists_congr fun net => and_congr_right fun _ => ?_
  rw [List.mem_append, List.mem_map, List.mem_map]
  constructor
  · rintro (⟨port, isDecoy, isRule⟩ | ⟨port, isDecoy, isRule⟩)
    · exact ⟨.tcp, port, isDecoy, isRule.symm⟩
    · exact ⟨.udp, port, isDecoy, isRule.symm⟩
  · rintro ⟨proto, port, isDecoy, isRule⟩
    cases proto with
    | tcp => exact Or.inl ⟨port, isDecoy, isRule.symm⟩
    | udp => exact Or.inr ⟨port, isDecoy, isRule.symm⟩

/-- A decoy covers its own port. -/
theorem covers_decoy
    {proto : Proto}
    {port asked : U16}
    (isDecoy : port ∈ decoyPorts proto) :
    (PortSpec.one port).covers asked = true ↔ asked = port := by
  have notZero : port ≠ 0 := by
    intro isZero
    subst isZero
    cases proto with
    | tcp => exact absurd isDecoy (by decide)
    | udp => exact absurd isDecoy (by decide)
  have range : (PortSpec.one port).ports = .ok (port, port) :=
    if_neg notZero
  rw [PortSpec.covers, range]
  simp only [Bool.and_eq_true, decide_eq_true_eq]
  constructor
  · rintro ⟨atLeast, atMost⟩
    exact BitVec.le_antisymm atMost atLeast
  · rintro rfl
    exact ⟨BitVec.le_refl _, BitVec.le_refl _⟩

/-- The decoys let in local IPv4 sources on the decoy ports. -/
theorem decoys_let_in_iff
    {proto : Proto}
    {source : Source}
    {port : U16} :
    (∃ rule ∈ posture.decoys,
        rule.proto = proto.word ∧
          rule.port.covers port = true ∧
          rule.Admits source) ↔
      port ∈ decoyPorts proto ∧ posture.InLan source := by
  constructor
  · rintro ⟨rule, member, sameProto, covered, admits⟩
    obtain ⟨net, inLan, decoyProto, decoyPort, isDecoy, isRule⟩ :=
      mem_decoys.mp member
    subst isRule
    have isProto : decoyProto = proto :=
      Proto.word_injective sameProto
    subst isProto
    have isPort := (covers_decoy isDecoy).mp covered
    subst isPort
    obtain ⟨isV4, network, parsed, inNetwork⟩ := admits
    exact ⟨isDecoy, isV4, net, inLan, network, parsed, inNetwork⟩
  · rintro ⟨isDecoy, isV4, net, inLan, network, parsed, inNetwork⟩
    exact ⟨_, mem_decoys.mpr ⟨net, inLan, proto, port, isDecoy, rfl⟩, rfl,
      (covers_decoy isDecoy).mpr rfl, isV4, network, parsed, inNetwork⟩

/-- Stealth drops pings and adds the decoys, whatever the profile sets. -/
theorem stealth_policy
    (posture : Posture)
    (cfg : Config)
    (profile : Option String) :
    (posture.stealth cfg).policy profile =
      { cfg.policy profile with
        allowPing := false
        rules := (cfg.policy profile).rules ++ posture.decoys } := by
  have found (name : String) :
      (posture.stealth cfg).profile? name =
        (cfg.profile? name).map fun profile =>
          { profile with
            allowPing := some false
            rules := profile.rules.map (· ++ posture.decoys) } :=
    Config.profile?_of_map rfl name
  unfold Config.policy
  cases profile with
  | none => rfl
  | some name =>
      simp only [Option.bind_some, found]
      cases cfg.profile? name with
      | none => rfl
      | some settings =>
          cases own : settings.rules <;> simp [own, stealth]

/-- Rules at the end let in what they admit besides. -/
theorem letsIn_append_iff
    {policy : Policy}
    {allowPing : Bool}
    {more : List Rule}
    {proto : Proto}
    {source : Source}
    {port : U16} :
    Policy.LetsIn
        { policy with
          allowPing := allowPing
          rules := policy.rules ++ more }
        proto source port ↔
      policy.LetsIn proto source port ∨
        ∃ rule ∈ more,
          rule.proto = proto.word ∧
            rule.port.covers port = true ∧
            rule.Admits source := by
  have sameLists :
      Policy.allow
          { policy with
            allowPing := allowPing
            rules := policy.rules ++ more }
          proto =
        policy.allow proto := by
    cases proto <;> rfl
  simp only [Policy.LetsIn, sameLists, List.mem_append, or_and_right,
    exists_or, or_assoc]

/-- A policy depends on these settings only. -/
theorem policy_of_same
    {changed : Config}
    (tcp : changed.allowTcp = cfg.allowTcp)
    (udp : changed.allowUdp = cfg.allowUdp)
    (ping : changed.allowPing = cfg.allowPing)
    (rules : changed.rules = cfg.rules)
    (profiles : changed.profiles = cfg.profiles)
    (profile : Option String) :
    changed.policy profile = cfg.policy profile := by
  have sameProfile : changed.profile? = cfg.profile? := by
    funext name
    rw [Config.profile?, Config.profile?, profiles]
  simp only [Config.policy, sameProfile, tcp, udp, ping, rules]

theorem apply_stealth
    (isStealth : posture.name = "stealth") :
    posture.apply cfg =
      posture.stealth { cfg with posture := some posture.name } := by
  simp [apply, isStealth]

/-- Secure and relaxed leave every policy as it is. -/
theorem policy_of_harmless
    (harmless : posture.name = "secure" ∨ posture.name = "relaxed")
    (profile : Option String) :
    (posture.apply cfg).policy profile = cfg.policy profile := by
  rcases harmless with isSecure | isRelaxed
  · simp only [apply, isSecure]
    exact policy_of_same rfl rfl rfl rfl rfl profile
  · simp only [apply, isRelaxed]
    exact policy_of_same rfl rfl rfl rfl rfl profile

/--
An accepted posture keeps every accepted configuration valid; secure and
relaxed leave every policy alone; stealth admits, beside what was admitted,
local IPv4 sources on the decoy ports, limits nothing else and drops pings.
-/
theorem postures_overlay_safely
    (fromToml : String → Except Error Config)
    (text : String)
    (parsed : Config.parse fromToml text = .ok cfg)
    (valid : posture.validate = .ok ())
    (profile : Option String) :
    (posture.apply cfg).validate = .ok () ∧
      (posture.name = "secure" ∨ posture.name = "relaxed" →
        (posture.apply cfg).policy profile = cfg.policy profile) ∧
      (posture.name = "stealth" →
        ((posture.apply cfg).policy profile).allowPing = false ∧
          ∃ original laid,
            compile (cfg.policy profile) = .ok original ∧
              compile ((posture.apply cfg).policy profile) = .ok laid ∧
              laid.rates = original.rates ∧
              ∀ proto source port,
                laid.Admits proto source port ↔
                  original.Admits proto source port ∨
                    port ∈ decoyPorts proto ∧ posture.InLan source) := by
  have accepted := Config.validate_of_parse parsed
  have usable := Config.validate_ok.mp accepted
  have validGiven :
      ∀ given ∈ some posture, given.validate = .ok () := by
    intro given isGiven
    injection isGiven with same
    exact same ▸ valid
  have laidUsable : (posture.apply cfg).Usable :=
    withPosture_usable validGiven usable
  have laidAccepted := Config.validate_ok.mpr laidUsable
  refine ⟨laidAccepted, fun harmless => policy_of_harmless harmless profile,
    fun isStealth => ?_⟩
  have laidPolicy :
      (posture.apply cfg).policy profile =
        { cfg.policy profile with
          allowPing := false
          rules := (cfg.policy profile).rules ++ posture.decoys } := by
    have unnamed :
        Config.policy { cfg with posture := some posture.name } profile =
          cfg.policy profile :=
      policy_of_same rfl rfl rfl rfl rfl profile
    rw [apply_stealth isStealth, stealth_policy, unnamed]
  obtain ⟨original, compiles⟩ :=
    compile_of_usable (usable.policy profile)
  obtain ⟨laid, laidCompiles⟩ :=
    compile_of_usable (laidUsable.policy profile)
  refine ⟨by rw [laidPolicy], original, laid, compiles, laidCompiles,
    ?_, ?_⟩
  · rw [laidPolicy] at laidCompiles
    refine Compiled.rates_addRules ?_ (compile_append compiles laidCompiles)
    intro rule member
    obtain ⟨net, _, proto, port, _, isRule⟩ := mem_decoys.mp member
    rw [isRule]
  · intro proto source port
    rw [admits_iff_letsIn compiles (usable.policy profile).rules,
      admits_iff_letsIn laidCompiles (laidUsable.policy profile).rules,
      laidPolicy, ← decoys_let_in_iff]
    rw [letsIn_append_iff, or_right_comm]

/-- The settings of the tests, with a profile that has no rules of its own. -/
def sampleConfig : Config :=
  { Config.default with
    allowTcp := [.one 22]
    allowUdp := [.one 5353]
    rules := [⟨"tcp", .one 8000, some "10.0.0.0/8", none⟩]
    profiles :=
      [("home", ⟨["Home"], some [.one 22, .one 80], none, none, none⟩)] }

def sampleStealth : Posture :=
  ⟨"stealth", ["192.168.1.0/24"]⟩

/-- Under stealth a neighbour may reach the decoy on port 445. -/
theorem stealth_opens_decoy :
    ∃ laid,
      compile ((sampleStealth.apply sampleConfig).policy (some "home")) =
          .ok laid ∧
        laid.Admits .tcp ⟨familyV4, 0xc0a80107, 0⟩ 445 := by
  have parsed :
      Config.parse (fun _ => .ok sampleConfig) "" = .ok sampleConfig := by
    decide +kernel
  have valid : sampleStealth.validate = .ok () := by
    decide +kernel
  obtain ⟨_, original, laid, _, laidCompiles, _, admits⟩ :=
    (postures_overlay_safely (fun _ => .ok sampleConfig) "" parsed valid
      (some "home")).2.2 rfl
  have isDecoy : (445 : U16) ∈ decoyPorts .tcp := by
    decide
  exact ⟨laid, laidCompiles, (admits _ _ _).mpr (Or.inr ⟨isDecoy, rfl,
    "192.168.1.0/24", List.mem_singleton.mpr rfl,
    ⟨0xc0a80100, 0xffffff00⟩, by decide +kernel, by decide⟩)⟩

end Posture

end AiFirewall
