import AiFirewall.BurstStrikes
import AiFirewall.Posture
import AiFirewall.XdpProgram

namespace AiFirewall

/-!
# When a ban ends

The length of a ban comes from the settings and the strikes or from the
command line, in seconds; the kernel keeps its end in nanoseconds of the boot
clock.  The multiplications on the way are unchecked: an end that does not
fit into 64 bits wraps to an early one.  An end that fits is exact.
-/

/-- Who asks for a ban. -/
inductive BanRequest where
  /-- The detector, under the settings and the posture in force. -/
  | offence (cfg : Config) (posture : Option Posture) (strikes : U32)
  /-- `ai-firewall ban --minutes`. -/
  | byHand (minutes : U64)

namespace BanRequest

/-- The settings are ones the daemon can run with. -/
def Valid : BanRequest → Prop
  | .offence cfg posture _ =>
      cfg.validate = .ok () ∧
        ∀ given ∈ posture, given.validate = .ok ()
  | .byHand _ => True

/-- The length that is asked for, as a number. -/
def asked : BanRequest → Nat
  | .offence cfg posture strikes =>
      ladder (withPosture cfg posture).bans (min (strikes - 1).toNat 20)
  | .byHand minutes => minutes.toNat * 60

/-- The length that `expiry_for` is given. -/
def secs : BanRequest → U64
  | .offence cfg posture strikes =>
      (withPosture cfg posture).bans.secsFor strikes
  | .byHand minutes => minutes * 60

/-- The detector asks for some time at least. -/
theorem asked_pos_of_offence
    {cfg : Config}
    {posture : Option Posture}
    {strikes : U32}
    (valid : (offence cfg posture strikes).Valid) :
    1 ≤ (offence cfg posture strikes).asked := by
  have usable :=
    withPosture_usable valid.2 (Config.validate_ok.mp valid.1)
  obtain ⟨basePositive, grows⟩ := usable.bans
  have positive : 1 ≤ (withPosture cfg posture).bans.baseSecs.toNat :=
    Nat.one_le_iff_ne_zero.mpr fun zero =>
      basePositive (BitVec.eq_of_toNat_eq zero)
  have power := Nat.one_le_two_pow (n := min (strikes - 1).toNat 20)
  rw [BitVec.le_def] at grows
  exact le_min (Nat.mul_le_mul positive power) (positive.trans grows)

/-- A length that fits into 64 bits reaches `expiry_for` unchanged. -/
theorem toNat_secs
    {request : BanRequest}
    (fits : request.asked < 2 ^ 64) :
    request.secs.toNat = request.asked := by
  cases request with
  | offence cfg posture strikes => exact secsFor_toNat _ strikes
  | byHand minutes =>
      change (minutes * 60).toNat = minutes.toNat * 60
      rw [BitVec.toNat_mul]
      exact Nat.mod_eq_of_lt fits

end BanRequest

/-- The end of a ban that fits into 64 bits. -/
theorem toNat_expiryFor
    {host : Host}
    {secs : U64}
    (lasting : secs ≠ 0)
    (fits : host.bootNs.toNat + secs.toNat * 1000000000 < 2 ^ 64) :
    (expiryFor host secs).toNat =
      host.bootNs.toNat + secs.toNat * 1000000000 := by
  rw [expiryFor, if_neg lasting, BitVec.toNat_add, BitVec.toNat_mul]
  change (_ + secs.toNat * 1000000000 % 2 ^ 64) % 2 ^ 64 = _
  rw [Nat.add_mod_mod]
  exact Nat.mod_eq_of_lt fits

/-- Whole seconds that are left are left exactly. -/
theorem remaining_of_whole
    {host : Host}
    {expiry : U64}
    {secs : Nat}
    (lasting : 1 ≤ secs)
    (isEnd : expiry.toNat = host.bootNs.toNat + secs * 1000000000) :
    ∃ left ∈ remaining host expiry, left.toNat = secs := by
  have bound := expiry.isLt
  have timed : expiry ≠ banForever := by
    intro forever
    rw [forever] at isEnd
    change 0 = _ at isEnd
    omega
  have ahead : host.bootNs < expiry := by
    rw [BitVec.lt_def]
    omega
  have left : (expiry - host.bootNs).toNat = secs * 1000000000 := by
    rw [BitVec.toNat_sub_of_le (BitVec.le_of_lt ahead)]
    omega
  refine ⟨(expiry - host.bootNs) / 1000000000, ?_, ?_⟩
  · rw [remaining, if_neg timed, if_pos ahead]
    refine congrArg some (if_pos ?_)
    apply BitVec.eq_of_toNat_eq
    rw [BitVec.toNat_umod, left]
    exact Nat.mul_mod_left secs 1000000000
  · rw [BitVec.toNat_udiv, left]
    exact Nat.mul_div_cancel secs (by decide)

/-- The end of a ban is exact, and kernel and daemon agree on it. -/
structure ExactEnd (host : Host) (request : BanRequest) : Prop where
  exact :
    (expiryFor host request.secs).toNat =
      host.bootNs.toNat + request.asked * 1000000000
  timed : expiryFor host request.secs ≠ banForever
  live : live host.bootNs (some (expiryFor host request.secs)) = true
  remaining :
    ∃ left ∈ remaining host (expiryFor host request.secs),
      left.toNat = request.asked

/-- The end of a ban is exact as long as it fits into 64 bits. -/
theorem exactEnd_iff
    {host : Host}
    {request : BanRequest}
    (lasting : 1 ≤ request.asked) :
    ExactEnd host request ↔
      host.bootNs.toNat + request.asked * 1000000000 < 2 ^ 64 := by
  constructor
  · intro ends
    rw [← ends.exact]
    exact (expiryFor host request.secs).isLt
  · intro fits
    have isSecs : request.secs.toNat = request.asked :=
      BanRequest.toNat_secs (by omega)
    have notZero : request.secs ≠ 0 := by
      intro zero
      rw [zero] at isSecs
      change 0 = _ at isSecs
      omega
    have exact :
        (expiryFor host request.secs).toNat =
          host.bootNs.toNat + request.asked * 1000000000 := by
      rw [← isSecs] at fits ⊢
      exact toNat_expiryFor notZero fits
    refine ⟨exact, ?_, ?_, remaining_of_whole lasting exact⟩
    · intro forever
      rw [forever] at exact
      change 0 = _ at exact
      omega
    · simp only [AiFirewall.live, Bool.or_eq_true, decide_eq_true_eq]
      right
      rw [BitVec.lt_def]
      omega

/-- The first ban under the default settings, two minutes after the boot. -/
theorem first_ban_ends_exactly :
    let request := BanRequest.offence .default none 1
    let host := clockedHost 120 1000000
    request.asked = 120 ∧ ExactEnd host request := by
  intro request host
  have isAsked : request.asked = 120 := by
    decide +kernel
  have valid : request.Valid :=
    ⟨Config.validate_default, nofun⟩
  refine ⟨isAsked,
    (exactEnd_iff (BanRequest.asked_pos_of_offence valid)).mpr ?_⟩
  rw [isAsked]
  decide +kernel

/-- Settings with one length for every ban. -/
def constantBans (secs : U64) : Config :=
  { Config.default with bans := ⟨secs, secs, 21600⟩ }

/-- A ban of 585 years is accepted and ends within a third of a second. -/
theorem long_ban_ends_at_once :
    let request :=
      BanRequest.offence (constantBans 18446744074) none 1
    let host := clockedHost 120 1000000
    request.Valid ∧ request.asked = 18446744074 ∧
      (expiryFor host request.secs).toNat =
        host.bootNs.toNat + 290448384 ∧
      ¬ExactEnd host request := by
  intro request host
  have isAsked : request.asked = 18446744074 := by
    decide +kernel
  refine ⟨⟨by decide, nofun⟩, isAsked, by decide +kernel, fun ends => ?_⟩
  have wrapped := ends.exact
  rw [isAsked] at wrapped
  revert wrapped
  decide +kernel

/-- The permanent expiry is the latest of all. -/
def NoEarlier (before after : U64) : Prop :=
  after = banForever ∨ before ≠ banForever ∧ before ≤ after

/-- A ban that there was before runs at least as long afterwards. -/
def KeepsRunning (before after : Option U64) : Prop :=
  ∀ expiry ∈ before, ∃ later ∈ after, NoEarlier expiry later

theorem keepsRunning_some {before after : U64} :
    KeepsRunning (some before) (some after) ↔ NoEarlier before after := by
  simp [KeepsRunning]

namespace Blocklist

/--
A ban of some seconds finds nothing to shorten: the write is refused, or the
ban is permanent, or the present one is timed and ends before the new one
does, whose end is taken as the kernel's 64 bits have it.
-/
def Outlasted
    (host : Host)
    (blocklist : Blocklist)
    (ip : Src)
    (secs : U64) : Prop :=
  host.refusesInsert ip = true ∨ secs = 0 ∨
    ∀ expiry ∈ blocklist.lookup ip,
      let ends :=
        (host.bootNs.toNat + secs.toNat * 1000000000) % 2 ^ 64
      ends = 0 ∨ expiry ≠ banForever ∧ expiry.toNat ≤ ends

end Blocklist

/-- The end of a ban in the 64 bits of the kernel. -/
theorem toNat_expiryFor_wrapped
    {host : Host}
    {secs : U64}
    (lasting : secs ≠ 0) :
    (expiryFor host secs).toNat =
      (host.bootNs.toNat + secs.toNat * 1000000000) % 2 ^ 64 := by
  rw [expiryFor, if_neg lasting, BitVec.toNat_add, BitVec.toNat_mul]
  change (_ + secs.toNat * 1000000000 % 2 ^ 64) % 2 ^ 64 = _
  rw [Nat.add_mod_mod]

theorem noEarlier_expiryFor
    {host : Host}
    {secs expiry : U64}
    (lasting : secs ≠ 0) :
    NoEarlier expiry (expiryFor host secs) ↔
      let ends :=
        (host.bootNs.toNat + secs.toNat * 1000000000) % 2 ^ 64
      ends = 0 ∨ expiry ≠ banForever ∧ expiry.toNat ≤ ends := by
  have isForever :
      expiryFor host secs = banForever ↔
        (expiryFor host secs).toNat = 0 := by
    rw [← BitVec.toNat_inj]
    rfl
  dsimp only
  rw [NoEarlier, isForever, BitVec.le_def, toNat_expiryFor_wrapped lasting]

/-- An automatic ban shortens no ban exactly when there is none to shorten. -/
theorem Shared.enact_keeps_running_iff
    {Score : Type}
    {host : Host}
    {shared : Shared Score}
    {ban : Ban Score}
    (enforced : shared.enforce = true) :
    KeepsRunning (shared.blocklist.lookup ban.ip)
        ((shared.enact host ban).blocklist.lookup ban.ip) ↔
      shared.blocklist.Outlasted host ban.ip ban.secs := by
  by_cases refused : host.refusesInsert ban.ip = true
  · rw [(enact_of_refused refused).1]
    refine iff_of_true (fun expiry present => ?_) (.inl refused)
    refine ⟨expiry, present, ?_⟩
    by_cases forever : expiry = banForever
    · exact .inl forever
    · exact .inr ⟨forever, BitVec.le_refl expiry⟩
  · cases present : shared.blocklist.lookup ban.ip with
    | none =>
        refine iff_of_true nofun (.inr (.inr fun expiry isPresent => ?_))
        rw [present] at isPresent
        cases isPresent
    | some expiry =>
        obtain ⟨changed, inserted⟩ :=
          Blocklist.insert?_of_present refused present
            (expiryFor host ban.secs)
        rw [enact_lookup_self enforced inserted, keepsRunning_some,
          Blocklist.Outlasted, or_iff_right refused, present]
        by_cases forever : ban.secs = 0
        · refine iff_of_true (.inl ?_) (.inl forever)
          rw [expiryFor, if_pos forever]
        · rw [or_iff_right forever, noEarlier_expiryFor forever]
          simp only [Option.mem_some_iff, forall_eq']

/-- The attacker is one scan away from its ban, and is banned by hand. -/
def bannedByHand (expiry : U64) : Shared ℚ :=
  { almostBanned with
    blocklist :=
      (almostBanned.blocklist.insert? burstHost attacker expiry).getD
        almostBanned.blocklist }

/-- A ban by hand for ten seconds gives way to a longer one. -/
theorem short_ban_is_prolonged :
    let shared := bannedByHand 110000000000
    shared.blocklist.lookup attacker = some 110000000000 ∧
      KeepsRunning (shared.blocklist.lookup thirdScanBan.ip)
        ((shared.enact burstHost thirdScanBan).blocklist.lookup
          thirdScanBan.ip) := by
  intro shared
  have present : shared.blocklist.lookup attacker = some 110000000000 := by
    decide +kernel
  have isAttacker : thirdScanBan.ip = attacker := by
    decide +kernel
  have isSecs : thirdScanBan.secs = 120 := by
    decide +kernel
  refine ⟨present,
    (Shared.enact_keeps_running_iff (by decide +kernel)).mpr ?_⟩
  refine .inr (.inr fun expiry isPresent => ?_)
  rw [isAttacker, present] at isPresent
  cases isPresent
  rw [isSecs]
  decide +kernel

/-- A scan that was queued ends a permanent ban by hand in two minutes. -/
theorem queued_scan_shortens_permanent_ban :
    let shared := bannedByHand banForever
    shared.enforce = true ∧
      (shared.detector.observe ℚ nullScan burstHost.bootSecs).1 =
        some thirdScanBan ∧
      shared.blocklist.lookup thirdScanBan.ip = some banForever ∧
      (shared.enact burstHost thirdScanBan).blocklist.lookup
          thirdScanBan.ip =
        some 220000000000 ∧
      ¬KeepsRunning (shared.blocklist.lookup thirdScanBan.ip)
        ((shared.enact burstHost thirdScanBan).blocklist.lookup
          thirdScanBan.ip) := by
  intro shared
  have present :
      shared.blocklist.lookup thirdScanBan.ip = some banForever := by
    decide +kernel
  have shortened :
      (shared.enact burstHost thirdScanBan).blocklist.lookup
          thirdScanBan.ip =
        some 220000000000 := by
    decide +kernel
  refine ⟨by decide +kernel, (Option.some_get _).symm, present, shortened,
    ?_⟩
  rw [present, shortened, keepsRunning_some]
  rintro (forever | ⟨notForever, _⟩)
  · revert forever
    decide
  · exact notForever rfl

end AiFirewall
