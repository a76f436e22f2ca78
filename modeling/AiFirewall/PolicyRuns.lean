import AiFirewall.WindowLimiter
import AiFirewall.XdpProgram

namespace AiFirewall

/-!
# Runs of the policy

Packets that reach `policy` one after the other.  The connection count of a
source and a port is one entry of `RATE_STATE`: only the openers of that
source to that port touch it, and it steps as a limiter whose windows are
opened by traffic, with the count in thirty-two bits.
-/

open WindowLimiter

/-- The entry of `RATE_STATE` for an IPv4 source and a port. -/
def rateKey (address : U32) (port : U16) : U64 :=
  address.setWidth 64 <<< 16 ||| port.setWidth 64

theorem toNat_rateKey (address : U32) (port : U16) :
    (rateKey address port).toNat = address.toNat * 65536 + port.toNat := by
  have addressBound := address.isLt
  have portBound := port.isLt
  have shifted : address.toNat <<< 16 = address.toNat * 65536 :=
    Nat.shiftLeft_eq address.toNat 16
  have high : (address.setWidth 64 <<< 16).toNat = address.toNat <<< 16 := by
    rw [BitVec.toNat_shiftLeft, BitVec.toNat_setWidth,
      Nat.mod_eq_of_lt (by omega), Nat.mod_eq_of_lt (by omega)]
  have low : (port.setWidth 64).toNat = port.toNat := by
    rw [BitVec.toNat_setWidth, Nat.mod_eq_of_lt (by omega)]
  rw [rateKey, BitVec.toNat_or, high, low,
    ← Nat.shiftLeft_add_eq_or_of_lt portBound, shifted]

/-- No two sources and ports share an entry. -/
theorem rateKey_injective
    {first second : U32}
    {port other : U16}
    (same : rateKey first port = rateKey second other) :
    first = second ∧ port = other := by
  have numbers := congrArg BitVec.toNat same
  rw [toNat_rateKey, toNat_rateKey] at numbers
  have portBound := port.isLt
  have otherBound := other.isLt
  exact ⟨BitVec.eq_of_toNat_eq (by omega), BitVec.eq_of_toNat_eq (by omega)⟩

section

/-- A packet as `policy` meets it. -/
structure Packet where
  helpers : Helpers
  source : Source
  flow : Flow
  toEveryone : Bool
  reply : Bool
  deriving Repr, DecidableEq

namespace Packet

/-- What the rules say about the packet. -/
def judged (maps : KernelMaps) (packet : Packet) : Judgement :=
  judge packet.helpers maps packet.source packet.flow packet.reply

def apply
    (maps : KernelMaps)
    (packet : Packet) : XdpAction × KernelMaps :=
  policy packet.helpers maps packet.source packet.flow
    packet.toEveryone packet.reply

/-- A packet that opens a TCP connection. -/
def isOpener (packet : Packet) : Bool :=
  packet.flow.proto = protoTcp && !odd packet.flow.tcpFlags &&
    opener packet.flow.tcpFlags

/-- An opener of one IPv4 source to one port. -/
def opensTo (address : U32) (port : U16) (packet : Packet) : Bool :=
  packet.isOpener && packet.source.family = familyV4 &&
    packet.source.v4 = address && packet.flow.dstPort = port

/-- Whether the packet's port is open to its source. -/
def finds (maps : KernelMaps) (packet : Packet) : Bool :=
  portOpen maps.tcpAllow packet.flow.dstPort ||
    allowedFrom maps.allowFromTcp packet.source packet.flow.dstPort

/-- Whether the connection limit is what stops the packet. -/
def refused (maps : KernelMaps) (packet : Packet) : Bool :=
  packet.isOpener && packet.finds maps &&
    (overRate packet.helpers maps packet.source packet.flow.dstPort).1

end Packet

/-- A packet of a run, with the maps it meets. -/
structure Handled where
  met : KernelMaps
  packet : Packet

namespace Handled

/-- The maps the packet leaves behind. -/
def left (handled : Handled) : KernelMaps :=
  (handled.packet.apply handled.met).2

/-- Whether the rules allow it; where they are enforced, only then it passes. -/
def allowed (handled : Handled) : Bool :=
  (handled.packet.judged handled.met).allowed

def refused (handled : Handled) : Bool :=
  handled.packet.refused handled.met

/-- What the rules say, and what becomes of the packet. -/
def verdict (handled : Handled) : Bool × XdpAction :=
  (handled.allowed, (handled.packet.apply handled.met).1)

/-- The start of the window that counts a source's openers to a port. -/
def windowStart? (address : U32) (port : U16) (handled : Handled) :
    Option U64 :=
  (handled.left.rateState (rateKey address port)).map RateState.windowStart

end Handled

/-- A run of the policy from the given maps. -/
def handle : KernelMaps → List Packet → List Handled
  | _, [] => []
  | maps, packet :: later =>
      ⟨maps, packet⟩ :: handle (packet.apply maps).2 later

theorem handle_packets (maps : KernelMaps) (packets : List Packet) :
    (handle maps packets).map Handled.packet = packets := by
  induction packets generalizing maps with
  | nil =>
      rfl
  | cons packet later inductionHypothesis =>
      rw [handle, List.map_cons, inductionHypothesis]

theorem report_rateState
    (helpers : Helpers)
    (source : Source)
    (flow : Flow)
    (allowed : Bool)
    (maps : KernelMaps) :
    (report helpers source flow allowed maps).rateState = maps.rateState := by
  unfold report
  split <;> rfl

/-- Nothing but the judgement touches the connection counts. -/
theorem apply_rateState (maps : KernelMaps) (packet : Packet) :
    (packet.apply maps).2.rateState =
      (packet.judged maps).maps.rateState := by
  have reported :
      (if (packet.judged maps).interesting && !packet.toEveryone then
        report packet.helpers packet.source packet.flow
          (packet.judged maps).allowed (packet.judged maps).maps
      else
        (packet.judged maps).maps).rateState =
      (packet.judged maps).maps.rateState := by
    split
    · exact report_rateState _ _ _ _ _
    · rfl
  unfold Packet.apply policy
  dsimp only
  split
  · exact reported
  · exact reported

/-- Openers to an open port are counted, and no other packet is. -/
theorem judged_maps (maps : KernelMaps) (packet : Packet) :
    (packet.judged maps).maps =
      if packet.isOpener && packet.finds maps then
        (overRate packet.helpers maps packet.source
          packet.flow.dstPort).2
      else
        maps := by
  unfold Packet.judged judge Packet.isOpener Packet.finds
  by_cases isTcp : packet.flow.proto = protoTcp
  · cases odd packet.flow.tcpFlags <;>
      cases opener packet.flow.tcpFlags <;>
      cases (portOpen maps.tcpAllow packet.flow.dstPort ||
        allowedFrom maps.allowFromTcp packet.source
          packet.flow.dstPort) <;>
      simp [isTcp]
  · simp [isTcp]

/-- An opener is allowed where its port is open to it and it is not refused. -/
theorem allowed_of_opener
    {maps : KernelMaps}
    {packet : Packet}
    (isOpener : packet.isOpener = true) :
    (packet.judged maps).allowed =
      (packet.finds maps && !packet.refused maps) := by
  simp only [Packet.isOpener, Bool.and_eq_true, Bool.not_eq_true',
    decide_eq_true_eq] at isOpener
  obtain ⟨⟨isTcp, notOdd⟩, opens⟩ := isOpener
  unfold Packet.refused Packet.isOpener Packet.judged judge
  rw [if_pos isTcp, notOdd, opens]
  cases found : packet.finds maps <;>
    simp_all [Packet.finds]

end

section

variable
  {helpers : Helpers}
  {maps : KernelMaps}
  {source : Source}
  {port : U16}

/-- The window of a packed limit, in nanoseconds. -/
def rateWindow (packed : U32) : U64 :=
  (packed &&& 0xffff).setWidth 64 * 1000000000

/-- Whether a window that opened at one time has lapsed at another. -/
def LapsedAfter (packed : U32) (opened now : U64) : Prop :=
  rateWindow packed < now - opened

instance (packed : U32) : DecidableRel (LapsedAfter packed) :=
  fun opened now => inferInstanceAs (Decidable (rateWindow packed < now - opened))

/-- The answer to an opener, and the entry it leaves for its key. -/
def countOpener
    (packed : U32)
    (helpers : Helpers) :
    Option RateState → Bool × Option RateState
  | some state =>
      if LapsedAfter packed state.windowStart helpers.now then
        (false, some ⟨helpers.now, 1⟩)
      else
        (packed >>> 16 < state.count + 1,
          some ⟨state.windowStart, state.count + 1⟩)
  | none =>
      (false, if helpers.lruRoom then some ⟨helpers.now, 1⟩ else none)

/-- Without a limit, or over IPv6, nothing is counted or refused. -/
theorem overRate_of_unlimited
    (unlimited : maps.tcpRate port = 0 ∨ source.family ≠ familyV4) :
    overRate helpers maps source port = (false, maps) := by
  rw [overRate]
  exact if_pos unlimited

/-- A limit counts the openers of a source to a port in one entry. -/
theorem overRate_of_limited
    (limited : maps.tcpRate port ≠ 0)
    (isV4 : source.family = familyV4) :
    let key := rateKey source.v4 port
    let counted :=
      countOpener (maps.tcpRate port) helpers (maps.rateState key)
    overRate helpers maps source port =
      (counted.1,
        { maps with
          rateState := Function.update maps.rateState key counted.2 }) := by
  have applies :
      ¬(maps.tcpRate port = 0 ∨ source.family ≠ familyV4) := by
    rintro (unlimited | notV4)
    · exact limited unlimited
    · exact notV4 isV4
  intro key counted
  unfold overRate
  dsimp only
  rw [if_neg applies]
  change (match maps.rateState key with | some _ => _ | none => _) = _
  cases entry : maps.rateState key with
  | none =>
      have isCounted :
          counted =
            (false,
              if helpers.lruRoom then some ⟨helpers.now, 1⟩ else none) := by
        rw [show counted = countOpener _ helpers (maps.rateState key) from rfl,
          entry]
        rfl
      rw [isCounted]
      cases helpers.lruRoom with
      | true =>
          rfl
      | false =>
          have untouched :
              Function.update maps.rateState key none = maps.rateState := by
            rw [← entry]
            exact Function.update_eq_self key maps.rateState
          dsimp only
          rw [if_neg nofun, if_neg nofun, untouched]
  | some state =>
      have isCounted :
          counted = countOpener (maps.tcpRate port) helpers (some state) := by
        rw [← entry]
      rw [isCounted, countOpener]
      by_cases isLapsed :
          LapsedAfter (maps.tcpRate port) state.windowStart helpers.now
      · rw [if_pos isLapsed]
        exact if_pos isLapsed
      · rw [if_neg isLapsed]
        exact if_neg isLapsed

/-- An opener touches the entry of its own source and port alone. -/
theorem overRate_rateState_of_ne
    {key : U64}
    (other : source.family = familyV4 → key ≠ rateKey source.v4 port) :
    (overRate helpers maps source port).2.rateState key =
      maps.rateState key := by
  by_cases unlimited : maps.tcpRate port = 0 ∨ source.family ≠ familyV4
  · rw [overRate_of_unlimited unlimited]
  · obtain ⟨limited, isV4⟩ := not_or.mp unlimited
    rw [overRate_of_limited limited (not_not.mp isV4)]
    exact Function.update_of_ne (other (not_not.mp isV4)) _ _

/-- The answer, and the entry it leaves, depend on the entry it meets. -/
theorem overRate_congr_entry
    {other : KernelMaps}
    (sameRate : maps.tcpRate port = other.tcpRate port)
    (sameEntry :
      maps.rateState (rateKey source.v4 port) =
        other.rateState (rateKey source.v4 port)) :
    (overRate helpers maps source port).1 =
        (overRate helpers other source port).1 ∧
      (overRate helpers maps source port).2.rateState
          (rateKey source.v4 port) =
        (overRate helpers other source port).2.rateState
          (rateKey source.v4 port) := by
  by_cases unlimited : maps.tcpRate port = 0 ∨ source.family ≠ familyV4
  · rw [overRate_of_unlimited unlimited,
      overRate_of_unlimited (sameRate ▸ unlimited)]
    exact ⟨rfl, sameEntry⟩
  · obtain ⟨limited, isV4⟩ := not_or.mp unlimited
    rw [overRate_of_limited limited (not_not.mp isV4),
      overRate_of_limited (sameRate ▸ limited) (not_not.mp isV4),
      sameRate, sameEntry]
    refine ⟨rfl, ?_⟩
    dsimp only
    rw [Function.update_self, Function.update_self]

/-- A window as `RATE_STATE` stores it. -/
def storedWindow (window : Window U64) : RateState :=
  ⟨window.opened, BitVec.ofNat 32 window.count⟩

/-- An opener is counted in the window that is open, or opens the next. -/
theorem countOpener_storedWindow
    {packed : U32}
    {before : Option (Window U64)}
    (counted : 0 < packed >>> 16)
    (room : before = none → helpers.lruRoom = true) :
    let window := arrive (LapsedAfter packed) before helpers.now
    countOpener packed helpers (before.map storedWindow) =
      (decide (packed >>> 16 < (storedWindow window).count),
        some (storedWindow window)) := by
  have opensNew :
      decide (packed >>> 16 < (storedWindow ⟨helpers.now, 1⟩).count) =
        false := by
    refine decide_eq_false fun exceeded => ?_
    rw [BitVec.lt_def] at counted exceeded
    have one : (storedWindow ⟨helpers.now, 1⟩).count.toNat = 1 := rfl
    omega
  intro window
  cases before with
  | none =>
      rw [show window = ⟨helpers.now, 1⟩ from rfl, opensNew,
        Option.map_none, countOpener, room rfl]
      rfl
  | some opened =>
      have oneMore :
          (storedWindow opened).count + 1 =
            BitVec.ofNat 32 (opened.count + 1) :=
        (BitVec.ofNat_add _ _).symm
      by_cases isLapsed : LapsedAfter packed opened.opened helpers.now
      · have isWindow : window = ⟨helpers.now, 1⟩ :=
          if_pos isLapsed
        rw [isWindow, opensNew]
        exact if_pos isLapsed
      · have isWindow : window = ⟨opened.opened, opened.count + 1⟩ :=
          if_neg isLapsed
        rw [isWindow]
        refine (if_neg isLapsed).trans ?_
        rw [oneMore]
        rfl

end

section

variable
  {maps : KernelMaps}
  {packet : Packet}
  {address : U32}
  {port : U16}

theorem opensTo_iff :
    packet.opensTo address port = true ↔
      packet.isOpener = true ∧ packet.source.family = familyV4 ∧
        packet.source.v4 = address ∧ packet.flow.dstPort = port := by
  simp only [Packet.opensTo, Bool.and_eq_true, decide_eq_true_eq, and_assoc]

/-- Other packets leave the connection count of a source and port alone. -/
theorem apply_rateState_of_foreign
    (foreign : packet.opensTo address port = false) :
    (packet.apply maps).2.rateState (rateKey address port) =
      maps.rateState (rateKey address port) := by
  rw [apply_rateState, judged_maps]
  split
  · rename_i counted
    refine overRate_rateState_of_ne fun isV4 same => ?_
    obtain ⟨sameAddress, samePort⟩ := rateKey_injective same
    have isOpener := (Bool.and_eq_true_iff.mp counted).1
    have opens :=
      opensTo_iff.mpr ⟨isOpener, isV4, sameAddress.symm, samePort.symm⟩
    rw [foreign] at opens
    cases opens
  · rfl

/-- What an opener does to the count of its source and port. -/
theorem apply_rateState_of_opener
    (opens : packet.opensTo address port = true)
    (found : packet.finds maps = true) :
    (packet.apply maps).2.rateState =
      (overRate packet.helpers maps packet.source port).2.rateState := by
  obtain ⟨isOpener, _, _, isPort⟩ := opensTo_iff.mp opens
  rw [apply_rateState, judged_maps, if_pos (by rw [isOpener, found]; rfl),
    isPort]

/-- Where a packet finds its port closed, nothing is counted. -/
theorem apply_rateState_of_closed (closed : packet.finds maps = false) :
    (packet.apply maps).2.rateState = maps.rateState := by
  rw [apply_rateState, judged_maps, closed, Bool.and_false, if_neg nofun]

end

/-- Two tables of rules and settings that `policy` reads alike. -/
structure SameRules (first second : KernelMaps) : Prop where
  tcpAllow : first.tcpAllow = second.tcpAllow
  udpAllow : first.udpAllow = second.udpAllow
  allowFromTcp : first.allowFromTcp = second.allowFromTcp
  allowFromUdp : first.allowFromUdp = second.allowFromUdp
  tcpRate : first.tcpRate = second.tcpRate
  config : first.config = second.config

namespace SameRules

theorem refl (maps : KernelMaps) : SameRules maps maps :=
  ⟨rfl, rfl, rfl, rfl, rfl, rfl⟩

theorem symm
    {first second : KernelMaps}
    (same : SameRules first second) :
    SameRules second first :=
  ⟨same.tcpAllow.symm, same.udpAllow.symm, same.allowFromTcp.symm,
    same.allowFromUdp.symm, same.tcpRate.symm, same.config.symm⟩

theorem trans
    {first second third : KernelMaps}
    (front : SameRules first second)
    (back : SameRules second third) :
    SameRules first third :=
  ⟨front.tcpAllow.trans back.tcpAllow, front.udpAllow.trans back.udpAllow,
    front.allowFromTcp.trans back.allowFromTcp,
    front.allowFromUdp.trans back.allowFromUdp,
    front.tcpRate.trans back.tcpRate, front.config.trans back.config⟩

theorem of_counted
    {before after : KernelMaps}
    (counted : Counted before after) :
    SameRules after before := by
  rw [Counted] at counted
  rw [counted]
  exact ⟨rfl, rfl, rfl, rfl, rfl, rfl⟩

/-- A packet changes no rule and no setting. -/
theorem apply (maps : KernelMaps) (packet : Packet) :
    SameRules (packet.apply maps).2 maps :=
  of_counted (policy_counted _ _ _ _ _ _)

theorem finds
    {first second : KernelMaps}
    (same : SameRules first second)
    (packet : Packet) :
    packet.finds first = packet.finds second := by
  rw [Packet.finds, Packet.finds, same.tcpAllow, same.allowFromTcp]

/-- Every packet of a run meets the rules of its start. -/
theorem handle
    {maps : KernelMaps}
    {packets : List Packet}
    {handled : Handled}
    (member : handled ∈ handle maps packets) :
    SameRules handled.met maps := by
  induction packets generalizing maps with
  | nil =>
      cases member
  | cons packet later inductionHypothesis =>
      rcases List.mem_cons.mp member with isFirst | isLater
      · subst isFirst
        exact refl maps
      · exact (inductionHypothesis isLater).trans (apply maps packet)

end SameRules

end AiFirewall
