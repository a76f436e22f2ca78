import AiFirewall.ConnectionLimit
import AiFirewall.PolicyDecision
import AiFirewall.Posture
import AiFirewall.StrictestLimit

namespace AiFirewall

/-!
# One sequence of packets over both address families

The same packets from an IPv4 address and from an IPv6 /64.  Rules without a
network let both in alike, but the connection limits are kept for IPv4
sources only: the verdicts agree as long as no opener exceeds its limit.
-/

open WindowLimiter

/-- The same packet from another source. -/
def Packet.sentBy (source : Source) (packet : Packet) : Packet :=
  { packet with source := source }

def Source.ofV4 (address : U32) : Source :=
  ⟨familyV4, address, 0⟩

def Source.ofV6 (networkPrefix : U64) : Source :=
  ⟨familyV6, 0, networkPrefix⟩

/-- What `policy` does with a sequence of packets from one source. -/
def verdictsFor
    (maps : KernelMaps)
    (source : Source)
    (packets : List Packet) : List XdpAction :=
  (handle maps (packets.map (Packet.sentBy source))).map
    (fun handled => (handled.packet.apply handled.met).1)

/-- The rules let two sources in alike. -/
structure TreatsAlike
    (maps : KernelMaps)
    (first second : Source) : Prop where
  tcp :
    ∀ port,
      (portOpen maps.tcpAllow port ||
          allowedFrom maps.allowFromTcp first port) =
        (portOpen maps.tcpAllow port ||
          allowedFrom maps.allowFromTcp second port)
  udp :
    ∀ port,
      (portOpen maps.udpAllow port ||
          allowedFrom maps.allowFromUdp first port) =
        (portOpen maps.udpAllow port ||
          allowedFrom maps.allowFromUdp second port)

theorem TreatsAlike.of_sameRules
    {maps other : KernelMaps}
    {first second : Source}
    (alike : TreatsAlike maps first second)
    (same : SameRules other maps) :
    TreatsAlike other first second where
  tcp := by
    rw [same.tcpAllow, same.allowFromTcp]
    exact alike.tcp
  udp := by
    rw [same.udpAllow, same.allowFromUdp]
    exact alike.udp

/-- An IPv6 source is never over a limit. -/
theorem refused_of_v6
    (maps : KernelMaps)
    (networkPrefix : U64)
    (packet : Packet) :
    (packet.sentBy (.ofV6 networkPrefix)).refused maps = false := by
  have differ : familyV6 ≠ familyV4 := by
    decide
  have notV4 : (Source.ofV6 networkPrefix).family ≠ familyV4 := differ
  rw [Packet.refused, Packet.sentBy, overRate_of_unlimited (.inr notV4),
    Bool.and_false]

/-- What the rules say of packets that are no openers. -/
def allowedOther
    (maps : KernelMaps)
    (flow : Flow)
    (reply found : Bool) : Bool :=
  if flow.proto = protoTcp then
    !odd flow.tcpFlags
  else
    reply || looseReply maps flow.dstPort || found

theorem allowed_of_notOpener
    {maps : KernelMaps}
    {packet : Packet}
    (notOpener : packet.isOpener = false) :
    (packet.judged maps).allowed =
      allowedOther maps packet.flow packet.reply
        (portOpen maps.udpAllow packet.flow.dstPort ||
          allowedFrom maps.allowFromUdp packet.source
            packet.flow.dstPort) := by
  rw [Packet.isOpener] at notOpener
  unfold Packet.judged judge allowedOther looseReply
  by_cases isTcp : packet.flow.proto = protoTcp
  · rw [if_pos isTcp, if_pos isTcp]
    cases isOdd : odd packet.flow.tcpFlags with
    | true =>
        rfl
    | false =>
        have notSyn : opener packet.flow.tcpFlags = false := by
          simpa [isTcp, isOdd] using notOpener
        rw [notSyn]
        rfl
  · rw [if_neg isTcp, if_neg isTcp]
    simp only [Bool.or_assoc]

theorem allowedOther_congr
    {maps other : KernelMaps}
    (same : SameRules maps other)
    (flow : Flow)
    (reply found : Bool) :
    allowedOther maps flow reply found =
      allowedOther other flow reply found := by
  rw [allowedOther, allowedOther, looseReply, looseReply, same.config]

section

variable
  {maps other : KernelMaps}
  {address : U32}
  {networkPrefix : U64}
  (same : SameRules maps other)
  (alike : TreatsAlike maps (.ofV4 address) (.ofV6 networkPrefix))
include same alike

/-- Between sources that are let in alike, only the limit makes a difference. -/
theorem allowed_sentBy (packet : Packet) :
    ((packet.sentBy (.ofV4 address)).judged maps).allowed =
      (((packet.sentBy (.ofV6 networkPrefix)).judged other).allowed &&
        !(packet.sentBy (.ofV4 address)).refused maps) := by
  cases opens : packet.isOpener with
  | true =>
      have found :
          (packet.sentBy (.ofV4 address)).finds maps =
            (packet.sentBy (.ofV6 networkPrefix)).finds other :=
        (alike.tcp packet.flow.dstPort).trans
          (same.finds (packet.sentBy (.ofV6 networkPrefix)))
      have v4 : (packet.sentBy (.ofV4 address)).isOpener = true := opens
      have v6 : (packet.sentBy (.ofV6 networkPrefix)).isOpener = true := opens
      rw [allowed_of_opener v4, allowed_of_opener v6, found, refused_of_v6,
        Bool.not_false, Bool.and_true]
  | false =>
      have v4 : (packet.sentBy (.ofV4 address)).isOpener = false := opens
      have v6 : (packet.sentBy (.ofV6 networkPrefix)).isOpener = false := opens
      have unrefused :
          (packet.sentBy (.ofV4 address)).refused maps = false := by
        rw [Packet.refused, v4, Bool.false_and, Bool.false_and]
      rw [allowed_of_notOpener v4, allowed_of_notOpener v6, unrefused,
        Bool.not_false, Bool.and_true, ← allowedOther_congr same,
        ← same.udpAllow, ← same.allowFromUdp]
      exact congrArg (allowedOther maps packet.flow packet.reply)
        (alike.udp packet.flow.dstPort)

/-- What the limit stops is an opener that the rules let in. -/
theorem allowed_of_refused
    {packet : Packet}
    (refused : (packet.sentBy (.ofV4 address)).refused maps = true) :
    ((packet.sentBy (.ofV6 networkPrefix)).judged other).allowed = true := by
  rw [Packet.refused, Bool.and_eq_true, Bool.and_eq_true] at refused
  obtain ⟨⟨isOpener, found⟩, _⟩ := refused
  have v6 : (packet.sentBy (.ofV6 networkPrefix)).isOpener = true :=
    isOpener
  have foundToo :
      (packet.sentBy (.ofV6 networkPrefix)).finds other = true := by
    rw [← same.finds]
    exact (alike.tcp packet.flow.dstPort).symm.trans found
  rw [allowed_of_opener v6, foundToo, refused_of_v6]
  rfl

/-- A packet is treated alike, unless the limit stops it. -/
theorem action_sentBy_iff (packet : Packet) :
    ((packet.sentBy (.ofV4 address)).apply maps).1 =
        ((packet.sentBy (.ofV6 networkPrefix)).apply other).1 ↔
      maps.config cfgEnforce = 0 ∨
        (packet.sentBy (.ofV4 address)).refused maps = false := by
  rw [apply_fst, apply_fst, allowed_sentBy same alike, ← same.config]
  cases refused : (packet.sentBy (.ofV4 address)).refused maps with
  | false =>
      rw [Bool.not_false, Bool.and_true]
      exact iff_of_true rfl (.inr rfl)
  | true =>
      rw [allowed_of_refused same alike refused]
      by_cases enforced : maps.config cfgEnforce = 0
      · rw [enforced]
        exact iff_of_true rfl (.inl rfl)
      · simp

/-- Two runs of one sequence agree as long as the limit stops nothing. -/
theorem verdictsFor_eq_iff (packets : List Packet) :
    verdictsFor maps (.ofV4 address) packets =
        verdictsFor other (.ofV6 networkPrefix) packets ↔
      maps.config cfgEnforce = 0 ∨
        ∀ handled ∈ handle maps (packets.map (Packet.sentBy (.ofV4 address))),
          handled.refused = false := by
  unfold verdictsFor
  induction packets generalizing maps other with
  | nil =>
      exact iff_of_true rfl (.inr nofun)
  | cons packet later inductionHypothesis =>
      have sameAfter :
          SameRules ((packet.sentBy (.ofV4 address)).apply maps).2
            ((packet.sentBy (.ofV6 networkPrefix)).apply other).2 :=
        (SameRules.apply _ _).trans
          (same.trans (SameRules.apply _ _).symm)
      have alikeAfter :
          TreatsAlike ((packet.sentBy (.ofV4 address)).apply maps).2
            (.ofV4 address) (.ofV6 networkPrefix) :=
        alike.of_sameRules (SameRules.apply _ _)
      have laterAgrees := inductionHypothesis sameAfter alikeAfter
      have sameSetting :
          ((packet.sentBy (.ofV4 address)).apply maps).2.config cfgEnforce =
            maps.config cfgEnforce :=
        congrFun (SameRules.apply _ _).config _
      rw [sameSetting] at laterAgrees
      simp only [List.map_cons, handle, List.cons.injEq,
        List.forall_mem_cons, laterAgrees]
      rw [action_sentBy_iff same alike, ← or_and_left]
      rfl

end

/-- A limited port refuses nothing while no window exceeds the limit. -/
theorem Limited.unrefused_iff
    {maps : KernelMaps}
    {address : U32}
    {port : U16}
    {packed : U32}
    (limited : Limited maps address port packed)
    (isNew : maps.rateState (rateKey address port) = none)
    (packets : List Packet) :
    (∀ handled ∈ openersOf maps address port packets,
        handled.refused = false) ↔
      ∀ entry ∈ trace (LapsedAfter packed) none
          ((countedOpeners address port packets).map Packet.now),
        entry.window.count ≤ (packed >>> 16).toNat := by
  obtain ⟨early, late, split, unrefused, recorded⟩ :=
    limited.handle_records_fresh isNew packets
  rw [openersOf, split]
  constructor
  · intro allUnrefused entry isEntry
    by_contra tooMany
    -- The first entry over the limit comes long before the count wraps.
    obtain ⟨first, isFirst, firstCount⟩ :=
      exists_count_eq (Nat.le_add_left 1 (packed >>> 16).toNat)
        (fun window isOpen => by cases isOpen) isEntry
        (Nat.lt_of_not_le tooMany)
    obtain ⟨handled, inLate, isRecord⟩ :=
      exists_of_forall₂ recorded.flip isFirst
    have refused := allUnrefused handled (List.mem_append_right early inLate)
    have bound : (packed >>> 16).toNat + 1 < 2 ^ 32 := by
      have packedBound := packed.isLt
      rw [BitVec.toNat_ushiftRight, Nat.shiftRight_eq_div_pow]
      omega
    rw [isRecord.refused, storedWindow, firstCount, decide_eq_false_iff_not,
      BitVec.lt_def, BitVec.toNat_ofNat, Nat.mod_eq_of_lt bound] at refused
    exact refused (Nat.lt_succ_self _)
  · intro within handled member
    rcases List.mem_append.mp member with isEarly | isLate
    · exact (unrefused handled isEarly).2
    · obtain ⟨entry, isEntry, isRecord⟩ := exists_of_forall₂ recorded isLate
      rw [isRecord.refused, storedWindow, decide_eq_false_iff_not,
        BitVec.lt_def, BitVec.toNat_ofNat, not_lt]
      exact (Nat.mod_le _ _).trans (within entry isEntry)

/-- No opener of a source exceeds the limit of its port in its window. -/
def StaysWithin
    (rates : Table U16 U32)
    (address : U32)
    (packets : List Packet) : Prop :=
  ∀ port, ∀ packed ∈ rates.lookup port,
    ∀ entry ∈ trace (LapsedAfter packed) none
        ((countedOpeners address port packets).map Packet.now),
      entry.window.count ≤ (packed >>> 16).toNat

/-- Rules without a network, as the maps hold them. -/
theorem unrefused_iff_staysWithin
    {maps : KernelMaps}
    {address : U32}
    {rates : Table U16 U32}
    (shown : ∀ port, maps.tcpRate port = (rates.lookup port).getD 0)
    (limits :
      ∀ port, ∀ packed ∈ rates.lookup port,
        0 < packed >>> 16 ∧ opensFor maps address port = true)
    (isNew : ∀ port, maps.rateState (rateKey address port) = none)
    (packets : List Packet) :
    (∀ handled ∈ handle maps (packets.map (Packet.sentBy (.ofV4 address))),
        handled.refused = false) ↔
      StaysWithin rates address
        (packets.map (Packet.sentBy (.ofV4 address))) := by
  constructor
  · intro unrefused port packed isLimit
    obtain ⟨counts, opened⟩ := limits port packed isLimit
    have rate : maps.tcpRate port = packed := by
      rw [shown, isLimit]
      rfl
    refine (Limited.unrefused_iff ⟨rate, counts, opened⟩ (isNew port)
      _).mp fun handled member => ?_
    exact unrefused handled (List.mem_filter.mp member).1
  · intro within handled member
    have arrived :
        handled.packet ∈ packets.map (Packet.sentBy (.ofV4 address)) := by
      rw [← handle_packets maps (packets.map _)]
      exact List.mem_map_of_mem member
    obtain ⟨packet, _, isPacket⟩ := List.mem_map.mp arrived
    have isSource : handled.packet.source = .ofV4 address := by
      rw [← isPacket]
      rfl
    cases isLimit : rates.lookup handled.packet.flow.dstPort with
    | none =>
        have unlimited :
            handled.met.tcpRate handled.packet.flow.dstPort = 0 := by
          rw [(SameRules.handle member).tcpRate, shown, isLimit]
          rfl
        rw [Handled.refused, Packet.refused,
          overRate_of_unlimited (.inl unlimited), Bool.and_false]
    | some packed =>
        obtain ⟨counts, opened⟩ := limits _ packed isLimit
        have rate :
            maps.tcpRate handled.packet.flow.dstPort = packed := by
          rw [shown, isLimit]
          rfl
        cases isOpener : handled.packet.isOpener with
        | false =>
            rw [Handled.refused, Packet.refused, isOpener]
            rfl
        | true =>
            have opens :
                handled.packet.opensTo address
                  handled.packet.flow.dstPort = true :=
              opensTo_iff.mpr ⟨isOpener, by rw [isSource]; rfl,
                by rw [isSource]; rfl, rfl⟩
            exact (Limited.unrefused_iff ⟨rate, counts, opened⟩ (isNew _)
              _).mpr (within _ packed isLimit) handled
                (List.mem_filter.mpr ⟨member, opens⟩)

section

variable
  {policy : Policy}
  {compiled : Compiled}
  (usable : PolicyUsable policy.allowTcp policy.allowUdp policy.rules)
  (noFrom : ∀ rule ∈ policy.rules, rule.from? = none)
include usable noFrom

omit usable in
/-- Rules without a network do not ask who sends. -/
theorem letsIn_of_noFrom
    (proto : Proto)
    (first second : Source)
    (port : U16) :
    policy.LetsIn proto first port ↔ policy.LetsIn proto second port := by
  have admits (source : Source) :
      ∀ rule ∈ policy.rules, rule.Admits source := by
    intro rule member
    rw [Rule.Admits, noFrom rule member]
    trivial
  unfold Policy.LetsIn
  refine or_congr_right (exists_congr fun rule => and_congr_right ?_)
  intro member
  exact and_congr_right fun _ => and_congr_right fun _ =>
    iff_of_true (admits first rule member) (admits second rule member)

/-- A port that a rule limits is open, and its count is above zero. -/
theorem open_of_limit
    (compiles : compile policy = .ok compiled)
    (source : Source)
    {port : U16}
    {packed : U32}
    (isLimit : compiled.rates.lookup port = some packed) :
    0 < packed >>> 16 ∧ policy.LetsIn .tcp source port := by
  obtain ⟨kept, isKept, keeps⟩ := strictest_compile compiles port
  rw [isLimit] at isKept
  obtain ⟨limit, isSome, isPacked⟩ := Option.map_eq_some_iff.mp isKept.symm
  obtain ⟨rule, member, isRate, covered⟩ := keeps.member limit isSome
  obtain ⟨found, isFound, isTcp⟩ := (usable.rules rule member).rate
  rw [isRate] at isFound
  cases isFound
  refine ⟨?_, .inr ⟨rule, member, isTcp.resolve_left nofun, covered, ?_⟩⟩
  · rw [← isPacked, Limit.pack, BitVec.lt_def, toNat_count_ratePack]
    exact (Rule.bounds_of_rate isRate).1
  · rw [Rule.Admits, noFrom rule member]
    trivial

/-- Compiled into the maps, such rules treat both families alike. -/
theorem treatsAlike_of_holds
    {Score : Type}
    {world : World Score}
    (compiles : compile policy = .ok compiled)
    (holds : world.kernel.Holds compiled)
    (others : KernelMaps)
    (first second : Source) :
    TreatsAlike (world.maps others) first second := by
  have regardless (proto : Proto) (port : U16) :
      (portOpen (world.kernel.ports proto).entries port ||
          allowedFrom (world.kernel.tries proto).nodes first port) =
        (portOpen (world.kernel.ports proto).entries port ||
          allowedFrom (world.kernel.tries proto).nodes second port) := by
    rw [Bool.eq_iff_iff, letsIn_iff compiles usable.rules holds,
      letsIn_iff compiles usable.rules holds,
      letsIn_of_noFrom noFrom proto first second]
  exact ⟨regardless .tcp, regardless .udp⟩

/-- When the maps hold such rules, the verdicts differ by the limits alone. -/
theorem verdictsFor_eq_iff_of_holds
    {Score : Type}
    {world : World Score}
    (compiles : compile policy = .ok compiled)
    (holds : world.kernel.Holds compiled)
    {others : KernelMaps}
    {address : U32}
    (networkPrefix : U64)
    (isNew : ∀ port, others.rateState (rateKey address port) = none)
    (packets : List Packet) :
    verdictsFor (world.maps others) (.ofV4 address) packets =
        verdictsFor (world.maps others) (.ofV6 networkPrefix) packets ↔
      world.settings cfgEnforce = 0 ∨
        StaysWithin compiled.rates address
          (packets.map (Packet.sentBy (.ofV4 address))) := by
  have alike :=
    treatsAlike_of_holds usable noFrom compiles holds others
      (.ofV4 address) (.ofV6 networkPrefix)
  have shown (port : U16) :
      (world.maps others).tcpRate port =
        (compiled.rates.lookup port).getD 0 :=
    holds.rates port
  have limits (port : U16) (packed : U32)
      (isLimit : packed ∈ compiled.rates.lookup port) :
      0 < packed >>> 16 ∧
        opensFor (world.maps others) address port = true := by
    obtain ⟨counts, letsIn⟩ :=
      open_of_limit usable noFrom compiles (.ofV4 address) isLimit
    exact ⟨counts,
      (letsIn_iff compiles usable.rules holds).mpr (.inl letsIn)⟩
  rw [verdictsFor_eq_iff (SameRules.refl _) alike packets]
  exact or_congr_right
    (unrefused_iff_staysWithin shown limits isNew packets)

end

section

variable
  {Score : Type}
  {before after : World Score}
  {attempt : Attempt}
  {cfg : Config}
  {profile : Option String}
  {compiled : Compiled}

/--
Under an accepted configuration whose rules name no network, one sequence of
packets gets the same verdicts from an IPv4 address and from an IPv6 /64
exactly when the rules are not enforced, or no opener exceeds its limit.
-/
theorem families_treated_alike_iff
    (fromToml : String → Except Error Config)
    (text : String)
    (parsed : Config.parse fromToml text = .ok cfg)
    (posture : Option Posture)
    (valid : ∀ given ∈ posture, given.validate = .ok ())
    (noFrom :
      ∀ rule ∈ ((withPosture cfg posture).policy profile).rules,
        rule.from? = none)
    (compiles :
      compile ((withPosture cfg posture).policy profile) = .ok compiled)
    (fresh : before.kernel = .fresh)
    (applied :
      (applyConfig attempt (withPosture cfg posture)
          ((withPosture cfg posture).policy profile)).run before =
        .ok () after)
    (others : KernelMaps)
    (address : U32)
    (networkPrefix : U64)
    (isNew : ∀ port, others.rateState (rateKey address port) = none)
    (packets : List Packet) :
    verdictsFor (after.maps others) (.ofV4 address) packets =
        verdictsFor (after.maps others) (.ofV6 networkPrefix) packets ↔
      (withPosture cfg posture).enforce = false ∨
        StaysWithin compiled.rates address
          (packets.map (Packet.sentBy (.ofV4 address))) := by
  have usable :=
    withPosture_usable valid
      (Config.validate_ok.mp (Config.validate_of_parse parsed))
  have accepted := Config.validate_ok.mpr usable
  obtain ⟨blocked, readable, _⟩ := usable.blocked
  have holds := holds_of_fresh accepted fresh compiles applied
  have enforce := (settings_of_ok compiles readable applied).1
  have notEnforced :
      after.settings cfgEnforce = 0 ↔
        (withPosture cfg posture).enforce = false := by
    rw [enforce]
    cases (withPosture cfg posture).enforce with
    | true => exact iff_of_false (by decide) nofun
    | false => exact iff_of_true rfl rfl
  rw [← notEnforced]
  exact verdictsFor_eq_iff_of_holds (usable.policy profile) noFrom compiles
    holds networkPrefix isNew packets

end

/-- Port 22 with one new connection a minute for each source. -/
def onceAMinute : Config :=
  { Config.default with
    rules := [⟨"tcp", .one 22, none, some "1/60s"⟩] }

/-- Its rules in fresh maps. -/
def limitedWorld : World ℚ :=
  ruleStep ⟨fun _ => 0, .fresh, freshShared⟩
    (.call (refusing fun _ => false) (withPosture onceAMinute none) none)

theorem limitedWorld_ran :
    (applyConfig (refusing fun _ => false) (withPosture onceAMinute none)
        ((withPosture onceAMinute none).policy none)).run
        ⟨fun _ => 0, .fresh, freshShared⟩ =
      .ok () limitedWorld :=
  ran_of_finished (by decide +kernel)

theorem onceAMinute_noFrom :
    ∀ rule ∈ ((withPosture onceAMinute none).policy none).rules,
      rule.from? = none := by
  decide +kernel

/-- Of two openers in a minute the second gets in over IPv6 alone. -/
theorem second_opener_gets_in_over_v6 :
    Config.parse (fun _ => .ok onceAMinute) "" = .ok onceAMinute ∧
      (∀ rule ∈ ((withPosture onceAMinute none).policy none).rules,
        rule.from? = none) ∧
      (applyConfig (refusing fun _ => false) (withPosture onceAMinute none)
          ((withPosture onceAMinute none).policy none)).run
          ⟨fun _ => 0, .fresh, freshShared⟩ =
        .ok () limitedWorld ∧
      verdictsFor (limitedWorld.maps .fresh) (.ofV4 0x0a000005)
          [openerAt 0 1, openerAt 0 2] =
        [.pass, .drop] ∧
      verdictsFor (limitedWorld.maps .fresh)
          (.ofV6 0x20010db800000000) [openerAt 0 1, openerAt 0 2] =
        [.pass, .pass] :=
  ⟨by decide +kernel, onceAMinute_noFrom, limitedWorld_ran,
    by decide +kernel, by decide +kernel⟩

/-- Port 22 with two new connections a minute for each source. -/
def twiceAMinute : Config :=
  { Config.default with
    rules := [⟨"tcp", .one 22, none, some "2/60s"⟩] }

def twiceWorld : World ℚ :=
  ruleStep ⟨fun _ => 0, .fresh, freshShared⟩
    (.call (refusing fun _ => false) (withPosture twiceAMinute none) none)

/-- The third opener comes when the window has lapsed. -/
def pacedOpeners : List Packet :=
  [openerAt 0 1, openerAt 0 2, openerAt 0 70, openerAt 0 75]

/-- Four openers in two windows are let in from both. -/
theorem paced_openers_get_in :
    verdictsFor (twiceWorld.maps .fresh) (.ofV4 0x0a000005) pacedOpeners =
        verdictsFor (twiceWorld.maps .fresh) (.ofV6 0x20010db800000000)
          pacedOpeners ∧
      verdictsFor (twiceWorld.maps .fresh) (.ofV6 0x20010db800000000)
          pacedOpeners =
        [.pass, .pass, .pass, .pass] := by
  have parsed :
      Config.parse (fun _ => .ok twiceAMinute) "" = .ok twiceAMinute := by
    decide +kernel
  have noFrom :
      ∀ rule ∈ ((withPosture twiceAMinute none).policy none).rules,
        rule.from? = none := by
    decide +kernel
  have usable : (withPosture twiceAMinute none).Usable :=
    withPosture_usable nofun
      (Config.validate_ok.mp (Config.validate_of_parse parsed))
  obtain ⟨compiled, blocked, compiles, _⟩ :=
    compiled_of_accepted (Config.validate_ok.mpr usable) none
  have limit : compiled.rates.lookup 22 = some 0x2003c := by
    have found :
        (compile ((withPosture twiceAMinute none).policy none)).toOption.bind
            (fun compiled => compiled.rates.lookup 22) =
          some 0x2003c := by
      decide +kernel
    rw [compiles] at found
    exact found
  have sentTo :
      ∀ packet ∈ pacedOpeners.map (Packet.sentBy (.ofV4 0x0a000005)),
        packet.flow.dstPort = 22 := by
    decide
  refine ⟨(families_treated_alike_iff _ "" parsed none nofun noFrom
    compiles rfl (ran_of_finished (by decide +kernel)) .fresh 0x0a000005 _
    (fun _ => rfl) pacedOpeners).mpr (.inr ?_), by decide +kernel⟩
  intro port packed isLimit
  by_cases isSsh : port = 22
  · subst isSsh
    cases limit.symm.trans isLimit
    decide +kernel
  · have nobody :
        countedOpeners 0x0a000005 port
            (pacedOpeners.map (Packet.sentBy (.ofV4 0x0a000005))) =
          [] := by
      rw [countedOpeners, List.filter_eq_nil_iff.mpr]
      · rfl
      intro packet member opens
      have toPort := (opensTo_iff.mp opens).2.2.2
      rw [sentTo packet member] at toPort
      exact isSsh toPort.symm
    rw [nobody]
    exact fun entry member => absurd member List.not_mem_nil

end AiFirewall
