import AiFirewall.ConfigRollback
import AiFirewall.PolicyDecision
import AiFirewall.Posture
import AiFirewall.VerdictReads

namespace AiFirewall

/-!
# What lockdown closes

The posture empties every list, the policy compiles to the DHCP client ports
alone, and the packet program then lets nothing else in.  The overlay leaves
`udp_strict` to the configuration: without it a UDP packet to a high port
counts as a reply.
-/

namespace Posture

/-- Whatever the profile, lockdown leaves an empty policy. -/
theorem lockdown_policy
    (cfg : Config)
    (profile : Option String) :
    let policy := (lockdown cfg).policy profile
    policy.allowTcp = [] ∧ policy.allowUdp = [] ∧
      policy.allowPing = false ∧ policy.rules = [] := by
  dsimp only
  unfold Config.policy
  cases found : profile.bind (lockdown cfg).profile? with
  | none => exact ⟨rfl, rfl, rfl, rfl⟩
  | some settings =>
      obtain ⟨name, _, lookup⟩ := Option.bind_eq_some_iff.mp found
      unfold Config.profile? at lookup
      obtain ⟨entry, entryFound, entryIs⟩ :=
        Option.map_eq_some_iff.mp lookup
      obtain ⟨old, _, shape⟩ :=
        List.mem_map.mp (List.mem_of_find?_eq_some entryFound)
      subst entryIs
      subst shape
      exact ⟨rfl, rfl, rfl, rfl⟩

end Posture

/-- The posture in question; the networks are of no consequence. -/
def lockdownPosture (lan : List String) : Posture :=
  ⟨"lockdown", lan⟩

/-- `CFG_UDP_STRICT` as a tick sets it while the egress program is attached. -/
def World.setUdpStrict
    {Score : Type}
    (world : World Score)
    (cfg : Config) : World Score :=
  { world with
    settings :=
      Function.update world.settings cfgUdpStrict
        (if cfg.udpStrict then 1 else 0) }

/-- Nothing gets in but DHCP answers and replies to recorded flows. -/
structure ClosesAll (maps : KernelMaps) : Prop where
  openers :
    ∀ helpers frame version l4,
      Frame.transport frame = some (version, protoTcp, l4) →
      l4 + tcpLen ≤ frame.length →
      opener (tcpFlagsOf (frame.byte (l4 + 13))) = true →
      (aiFirewall helpers maps frame).1 = .drop
  pings :
    ∀ helpers frame version l4,
      Frame.transport frame = some (version, version.icmp, l4) →
      l4 + 8 ≤ frame.length →
      frame.byte l4 = version.echoRequest →
      (aiFirewall helpers maps frame).1 = .drop
  udp :
    ∀ helpers frame version l4 flow,
      Frame.transport frame = some (version, protoUdp, l4) →
      parseL4 protoUdp frame l4 = some flow →
      (aiFirewall helpers maps frame).1 = .pass →
      flow.dstPort = 68 ∨ flow.dstPort = 546 ∨
        isReply helpers maps frame flow version = true

section

variable
  {Score : Type}
  {attempt : Attempt}
  {cfg : Config}
  {profile : Option String}
  {compiled : Compiled}
  {blocked : List Cidr}
  {before after : World Score}
  {maps : KernelMaps}

/-- Maps that let in nothing but UDP to the DHCP client ports. -/
structure ShutMaps (maps : KernelMaps) : Prop where
  enforce : maps.config cfgEnforce = 1
  dropPing : maps.config cfgDropPing = 1
  tcp :
    ∀ source port,
      (portOpen maps.tcpAllow port ||
        allowedFrom maps.allowFromTcp source port) = false
  udp :
    ∀ source port,
      (portOpen maps.udpAllow port ||
        allowedFrom maps.allowFromUdp source port) = true ↔
        port ∈ dhcpClientPorts

/-- An opener to a port that is closed to it is never allowed. -/
theorem judge_opener_of_shut
    (shut : ShutMaps maps)
    {helpers : Helpers}
    {source : Source}
    {flow : Flow}
    {reply : Bool}
    (isTcp : flow.proto = protoTcp)
    (isOpener : opener flow.tcpFlags = true) :
    (judge helpers maps source flow reply).allowed = false := by
  have closed := shut.tcp source flow.dstPort
  rw [Bool.or_eq_false_iff] at closed
  rw [judge_allowed_of_closed isTcp closed.1 closed.2, isOpener]
  exact Bool.and_false _

theorem action_of_opener
    (shut : ShutMaps maps)
    {helpers : Helpers}
    {frame : Frame}
    {version : IpVersion}
    {l4 : Nat}
    (found : frame.transport = some (version, protoTcp, l4))
    (long : l4 + tcpLen ≤ frame.length)
    (isOpener : opener (tcpFlagsOf (frame.byte (l4 + 13))) = true) :
    (aiFirewall helpers maps frame).1 = .drop := by
  have notIcmp : protoTcp ≠ version.icmp := by
    cases version <;> decide
  rw [action_of_transport found, if_neg notIcmp]
  split
  · rfl
  · rw [parseL4, if_pos rfl, if_neg (Nat.not_lt.mpr long)]
    refine policy_drop_iff.mpr ⟨judge_opener_of_shut shut rfl isOpener, ?_⟩
    rw [shut.enforce]
    decide

theorem action_of_ping
    (shut : ShutMaps maps)
    {helpers : Helpers}
    {frame : Frame}
    {version : IpVersion}
    {l4 : Nat}
    (found : frame.transport = some (version, version.icmp, l4))
    (long : l4 + 8 ≤ frame.length)
    (isPing : frame.byte l4 = version.echoRequest) :
    (aiFirewall helpers maps frame).1 = .drop := by
  rw [action_of_transport found]
  split
  · rfl
  · rw [if_pos rfl, icmpVerdict, if_neg (by omega), if_pos]
    rw [shut.enforce, shut.dropPing]
    exact ⟨isPing, by decide, by decide⟩

/-- Where no high port counts as a reply, the DHCP ports and replies are left. -/
theorem udp_of_shut
    (shut : ShutMaps maps)
    {helpers : Helpers}
    {frame : Frame}
    {version : IpVersion}
    {l4 : Nat}
    {flow : Flow}
    (notLoose : looseReply maps flow.dstPort = false)
    (found : frame.transport = some (version, protoUdp, l4))
    (parsed : parseL4 protoUdp frame l4 = some flow)
    (passed : (aiFirewall helpers maps frame).1 = .pass) :
    flow.dstPort = 68 ∨ flow.dstPort = 546 ∨
      isReply helpers maps frame flow version = true := by
  have notIcmp : protoUdp ≠ version.icmp := by
    cases version <;> decide
  have isUdp : flow.proto = protoUdp := by
    unfold parseL4 at parsed
    rw [if_neg (by decide), if_pos rfl] at parsed
    split at parsed
    · cases parsed
    · cases parsed
      rfl
  rw [action_of_transport found, if_neg notIcmp, parsed] at passed
  split at passed
  · cases passed
  · have allowed := (policy_pass_iff shut.enforce).mp passed
    rw [judge_allowed_of_udp isUdp, notLoose, Bool.or_false,
      Bool.or_eq_true, shut.udp] at allowed
    rcases allowed with reply | dhcp
    · exact .inr (.inr reply)
    · simp only [dhcpClientPorts, List.mem_cons, List.not_mem_nil,
        or_false] at dhcp
      exact dhcp.imp_right .inl

/-- Maps that are shut close all but what counts as a reply. -/
theorem closesAll_of_shut
    (shut : ShutMaps maps)
    (notLoose : ∀ port, looseReply maps port = false) :
    ClosesAll maps where
  openers _ _ _ _ := action_of_opener shut
  pings _ _ _ _ := action_of_ping shut
  udp _ _ _ _ flow := udp_of_shut shut (notLoose flow.dstPort)

theorem apply_lockdown (lan : List String) :
    (lockdownPosture lan).apply cfg =
      Posture.lockdown { cfg with posture := some "lockdown" } := by
  simp [Posture.apply, lockdownPosture]

/-- An empty policy lets nobody in. -/
theorem not_letsIn
    {policy : Policy}
    {proto : Proto}
    {source : Source}
    {port : U16}
    (noLists : ∀ proto, policy.allow proto = [])
    (noRules : policy.rules = []) :
    ¬policy.LetsIn proto source port := by
  rintro (⟨spec, inList, _⟩ | ⟨rule, inRules, _⟩)
  · rw [noLists] at inList
    cases inList
  · rw [noRules] at inRules
    cases inRules

theorem config_setUdpStrict_of_ne
    {world : World Score}
    {others : KernelMaps}
    {slot : Fin 4}
    (other : slot ≠ cfgUdpStrict) :
    ((world.setUdpStrict cfg).maps others).config slot =
      world.settings slot :=
  Function.update_of_ne other _ _

/-- After lockdown is applied the maps are shut. -/
theorem shut_of_lockdown
    (usable : cfg.Usable)
    (tidy : Tidy before)
    (compiles :
      compile ((Posture.lockdown cfg).policy profile) = .ok compiled)
    (readable : (Posture.lockdown cfg).blockedCidrs = .ok blocked)
    (removals :
      RemovesAll attempt
        (plan attempt (Posture.lockdown cfg)
          ((Posture.lockdown cfg).policy profile) compiled blocked before)
        before)
    (applied :
      (applyConfig attempt (Posture.lockdown cfg)
          ((Posture.lockdown cfg).policy profile)).run before =
        .ok () after)
    (others : KernelMaps) :
    ShutMaps ((after.setUdpStrict cfg).maps others) := by
  have rules :=
    ((Posture.lockdown_usable usable).policy profile).rules
  have holds :=
    (inStep_of_ok compiles readable tidy.2 tidy.1 removals applied).2
  obtain ⟨enforce, _, dropPing, _⟩ :=
    settings_of_ok compiles readable applied
  obtain ⟨noTcp, noUdp, noPing, noRules⟩ :=
    Posture.lockdown_policy cfg profile
  have noLists :
      ∀ proto, ((Posture.lockdown cfg).policy profile).allow proto = [] := by
    intro proto
    cases proto with
    | tcp => exact noTcp
    | udp => exact noUdp
  have letsIn {proto : Proto} {source : Source} {port : U16} :
      (portOpen (after.kernel.ports proto).entries port ||
          allowedFrom (after.kernel.tries proto).nodes source port) =
          true ↔ proto = .udp ∧ port ∈ dhcpClientPorts :=
    (letsIn_iff compiles rules holds).trans
      (or_iff_right (not_letsIn noLists noRules))
  refine
    { enforce := ?_
      dropPing := ?_
      tcp := ?_
      udp := ?_ }
  · rw [config_setUdpStrict_of_ne (by decide), enforce]
    rfl
  · rw [config_setUdpStrict_of_ne (by decide), dropPing, noPing]
    rfl
  · intro source port
    rw [← Bool.not_eq_true]
    rintro isOpen
    cases (letsIn.mp isOpen).1
  · intro source port
    exact letsIn.trans (and_iff_right rfl)

/-- A high port counts as a reply unless the configuration is strict. -/
theorem looseReply_of_setUdpStrict
    {world : World Score}
    {others : KernelMaps}
    {low : U32}
    (ephemeralLow : world.settings cfgEphemeralLow = low)
    {port : U16} :
    looseReply ((world.setUdpStrict cfg).maps others) port = true ↔
      cfg.udpStrict = false ∧ low ≤ port.setWidth 32 := by
  have strict :
      ((world.setUdpStrict cfg).maps others).config cfgUdpStrict =
        if cfg.udpStrict then 1 else 0 :=
    Function.update_self cfgUdpStrict _ world.settings
  have sameLow :
      ((world.setUdpStrict cfg).maps others).config cfgEphemeralLow = low :=
    (config_setUdpStrict_of_ne (by decide)).trans ephemeralLow
  rw [looseReply, strict, sameLow, Bool.and_eq_true, decide_eq_true_iff,
    decide_eq_true_iff]
  cases cfg.udpStrict with
  | true => simp
  | false => simp

/-- A DNS answer to the highest port. -/
def highUdp (sender : U32) : Frame :=
  [2, 0, 0, 0, 0, 1, 2, 0, 0, 0, 0, 2, 0x08, 0x00,
    0x45, 0, 0, 28, 0, 1, 0, 0, 64, 17, 0, 0,
    sender.extractLsb' 24 8, sender.extractLsb' 16 8,
    sender.extractLsb' 8 8, sender.extractLsb' 0 8,
    10, 0, 0, 9, 0, 53, 0xff, 0xff, 0, 8, 0, 0]

theorem highUdp_src (sender : U32) :
    (highUdp sender).ipv4Src = sender := by
  have bytes :
      (highUdp sender).ipv4Src =
        (sender.extractLsb' 24 8 ++ sender.extractLsb' 16 8) ++
          (sender.extractLsb' 8 8 ++ sender.extractLsb' 0 8) :=
    rfl
  rw [bytes]
  ext index inRange
  grind

theorem highUdp_transport (sender : U32) :
    (highUdp sender).transport = some (.v4, protoUdp, 34) := by
  have isV4 : (highUdp sender).etherType = etherTypeIpv4 := by
    show (0x08 : U8) ++ (0x00 : U8) = etherTypeIpv4
    decide
  have notFragment : (highUdp sender).fragOffset = 0 := by
    show ((0 : U8) ++ (0 : U8) : U16) &&& 0x1fff = 0
    decide
  have header : (highUdp sender).ihl = 20 := by
    show ((0x45 : U8) &&& 0x0f).toNat * 4 = 20
    decide
  have whole : ethLen + ipv4Len ≤ (highUdp sender).length := by
    show 14 + 20 ≤ 42
    decide
  rw [Frame.transport, if_pos isV4, header,
    if_pos ⟨whole, notFragment, Nat.le_refl 20⟩]
  rfl

def highFlow : Flow where
  proto := protoUdp
  srcPort := 53
  dstPort := 0xffff
  tcpFlags := 0
  payloadLen := 0

theorem highUdp_flow (sender : U32) :
    parseL4 protoUdp (highUdp sender) 34 = some highFlow := by
  have long : 34 + udpLen ≤ (highUdp sender).length := by
    show 34 + 8 ≤ 42
    decide
  rw [parseL4_udp long]
  show
    some (⟨protoUdp, (0 : U8) ++ (53 : U8), (0xff : U8) ++ (0xff : U8), 0,
      BitVec.ofNat 16 (42 - (34 + 8))⟩ : Flow) = some highFlow
  decide

/-- Somebody is not banned, and the packet passes as if it were a reply. -/
theorem not_closesAll_of_loose
    {maps : KernelMaps}
    (fresh : maps.udpFlows = fun _ => none)
    (noFeeds : maps.feeds = .empty)
    (loose : looseReply maps 0xffff = true) :
    ¬ClosesAll maps := by
  intro closes
  have distinct :
      ((List.range 65537).map (BitVec.ofNat 32)).Nodup := by
    refine List.nodup_range.map_on fun first firstLow second secondLow same =>
      ?_
    have values := congrArg BitVec.toNat same
    simp only [List.mem_range, BitVec.toNat_ofNat] at *
    omega
  obtain ⟨sender, _, notBanned⟩ :=
    maps.blocklist.exists_absent distinct
      (by rw [List.length_map, List.length_range]; decide)
  let helpers : Helpers := ⟨0, true, true⟩
  have notListed : ¬listed helpers maps (highUdp sender) .v4 = true := by
    simp [listed, highUdp_src, notBanned, live, noFeeds,
      PrefixTrie.matchesAddress, PrefixTrie.empty]
  have allowed :
      (judge helpers maps ((highUdp sender).source .v4) highFlow
        (isReply helpers maps (highUdp sender) highFlow .v4)).allowed =
        true := by
    rw [judge_allowed_of_udp rfl, show highFlow.dstPort = 0xffff from rfl,
      loose, Bool.or_true, Bool.true_or]
  have passed :
      (aiFirewall helpers maps (highUdp sender)).1 = .pass := by
    rw [action_of_transport (highUdp_transport sender), if_neg notListed,
      if_neg (by decide), highUdp_flow]
    dsimp only
    cases action :
        (policy helpers maps ((highUdp sender).source .v4) highFlow
          (highUdp sender).toEveryone
          (isReply helpers maps (highUdp sender) highFlow .v4)).1 with
    | pass => rfl
    | drop =>
        have refused := (policy_drop_iff.mp action).1
        rw [allowed] at refused
        cases refused
  rcases closes.udp helpers (highUdp sender) .v4 34 highFlow
    (highUdp_transport sender) (highUdp_flow sender) passed with
    isDhcp | isDhcp | isAnswer
  · exact absurd isDhcp (by decide)
  · exact absurd isDhcp (by decide)
  · simp [isReply, expectedReply, fresh, live] at isAnswer

/--
After lockdown nothing gets in but DHCP answers and replies, if and only if
`udp_strict` is set or no port is as high as the local port range.
-/
theorem lockdown_closes_all_iff
    (fromToml : String → Except Error Config)
    (text : String)
    (lan : List String)
    (parsed : Config.parse fromToml text = .ok cfg)
    (tidy : Tidy before)
    (removals :
      ∀ compiled blocked,
        compile (((lockdownPosture lan).apply cfg).policy profile) =
          .ok compiled →
        ((lockdownPosture lan).apply cfg).blockedCidrs = .ok blocked →
        RemovesAll attempt
          (plan attempt ((lockdownPosture lan).apply cfg)
            (((lockdownPosture lan).apply cfg).policy profile)
            compiled blocked before)
          before)
    (applied :
      (applyConfig attempt ((lockdownPosture lan).apply cfg)
          (((lockdownPosture lan).apply cfg).policy profile)).run before =
        .ok () after) :
    (∀ others,
        ClosesAll
          ((after.setUdpStrict ((lockdownPosture lan).apply cfg)).maps
            others)) ↔
      cfg.udpStrict = true ∨ 0xffff < attempt.ephemeralLow := by
  have usable :
      Config.Usable { cfg with posture := some "lockdown" } := by
    have own := Config.validate_ok.mp (Config.validate_of_parse parsed)
    exact
      ⟨own.mode, own.trusted, own.base, own.profiles, own.lists, own.urls,
        own.blocked, own.detector, own.bans⟩
  rw [apply_lockdown] at removals applied ⊢
  obtain ⟨compiled, blocked, compiles, readable⟩ :=
    compiled_of_accepted
      (Config.validate_ok.mpr (Posture.lockdown_usable usable)) profile
  have shut (others : KernelMaps) :=
    shut_of_lockdown usable tidy compiles readable
      (removals compiled blocked compiles readable) applied others
  obtain ⟨_, ephemeralLow, _⟩ :=
    settings_of_ok compiles readable applied
  have loose (others : KernelMaps) (port : U16) :
      looseReply
          ((after.setUdpStrict
              (Posture.lockdown
                { cfg with posture := some "lockdown" })).maps others)
          port = true ↔
        cfg.udpStrict = false ∧
          attempt.ephemeralLow ≤ port.setWidth 32 :=
    looseReply_of_setUdpStrict ephemeralLow
  constructor
  · intro closes
    by_contra isLoose
    obtain ⟨notStrict, low⟩ := not_or.mp isLoose
    have loosely :=
      (loose .fresh 0xffff).mpr
        ⟨Bool.eq_false_of_not_eq_true notStrict, BitVec.not_lt.mp low⟩
    exact not_closesAll_of_loose rfl rfl loosely (closes .fresh)
  · intro strictOrHigh others
    refine closesAll_of_shut (shut others) fun port => ?_
    rw [← Bool.not_eq_true, loose]
    rintro ⟨notStrict, low⟩
    rcases strictOrHigh with strict | high
    · rw [notStrict] at strict
      cases strict
    · have bounded : port.setWidth 32 ≤ (0xffff : U32) := by
        bv_omega
      exact BitVec.not_le.mpr high (BitVec.le_trans low bounded)

end

/-- The world in which a configuration is put under lockdown. -/
def lockedWorld (cfg : Config) : World ℚ :=
  ruleStep ⟨fun _ => 0, .fresh, freshShared⟩
    (.call (refusing fun _ => false) ((lockdownPosture []).apply cfg) none)

/-- A configuration that leaves UDP to the local port range. -/
def looseConfig : Config :=
  { Config.default with udpStrict := false }

/-- Under lockdown its high UDP ports stay open. -/
theorem high_udp_passes_lockdown :
    looseConfig.validate = .ok () ∧
      (applyConfig (refusing fun _ => false)
          ((lockdownPosture []).apply looseConfig)
          (((lockdownPosture []).apply looseConfig).policy none)).run
          ⟨fun _ => 0, .fresh, freshShared⟩ =
        .ok () (lockedWorld looseConfig) ∧
      (aiFirewall quietHelpers
          (((lockedWorld looseConfig).setUdpStrict
            ((lockdownPosture []).apply looseConfig)).maps .fresh)
          (highUdp 0x0a000005)).1 = .pass ∧
      ¬ClosesAll
        (((lockedWorld looseConfig).setUdpStrict
          ((lockdownPosture []).apply looseConfig)).maps .fresh) := by
  refine ⟨by decide, ran_of_finished (by decide +kernel),
    by decide +kernel, ?_⟩
  exact not_closesAll_of_loose rfl rfl (by decide +kernel)

/-- A call that succeeds and whose removals are made leaves the maps tidy. -/
theorem Tidy.of_applied
    {Score : Type}
    {attempt : Attempt}
    {cfg : Config}
    {profile : Option String}
    {before after : World Score}
    (tidy : Tidy before)
    (accepted : cfg.validate = .ok ())
    (willing : ∀ write, attempt.refuses write = false)
    (applied :
      (applyConfig attempt cfg (cfg.policy profile)).run before =
        .ok () after) :
    Tidy after := by
  obtain ⟨compiled, blocked, compiles, readable⟩ :=
    compiled_of_accepted accepted profile
  have canonical := applyConfig_canonical attempt compiles readable tidy.2
  rw [applied] at canonical
  exact ⟨(inStep_of_ok compiles readable tidy.2 tidy.1
    (fun _ _ _ _ _ _ _ => willing _) applied).1, canonical⟩

/-- At home port 80 and the database are open; then comes the lockdown. -/
def lockedHome : World ℚ :=
  ruleStep (servedWorld (some "home"))
    (.call (refusing fun _ => false) ((lockdownPosture []).apply served)
      (some "home"))

/-- What was open is closed. -/
theorem served_lockdown_closes_all :
    portOpen ((servedWorld (some "home")).maps .fresh).tcpAllow 80 = true ∧
      allowedFrom ((servedWorld (some "home")).maps .fresh).allowFromTcp
          ⟨familyV4, 0x0a000005, 0⟩ 3306 =
        true ∧
      ClosesAll
        ((lockedHome.setUdpStrict ((lockdownPosture []).apply served)).maps
          .fresh) := by
  have parsed : Config.parse (fun _ => .ok served) "" = .ok served := by
    decide +kernel
  have applied :
      (applyConfig (refusing fun _ => false) served
          (served.policy (some "home"))).run strictWorld =
        .ok () (servedWorld (some "home")) :=
    ran_of_finished (by decide +kernel)
  have locked :
      (applyConfig (refusing fun _ => false)
          ((lockdownPosture []).apply served)
          (((lockdownPosture []).apply served).policy (some "home"))).run
          (servedWorld (some "home")) =
        .ok () lockedHome :=
    ran_of_finished (by decide +kernel)
  have tidy : Tidy (servedWorld (some "home")) :=
    Tidy.of_applied ⟨Kernel.fresh_inStep, Kernel.fresh_canonical⟩
      (Config.validate_of_parse parsed) (fun _ => rfl) applied
  refine ⟨by decide +kernel, by decide +kernel, ?_⟩
  exact (lockdown_closes_all_iff (fun _ => .ok served) "" [] parsed tidy
    (fun _ _ _ _ _ _ _ _ _ _ _ => rfl) locked).mpr (.inl rfl) .fresh

end AiFirewall
