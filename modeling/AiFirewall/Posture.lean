import AiFirewall.ConfigCheck

namespace AiFirewall

/-!
# Postures

A system-wide security level laid over a configuration.  The configuration
file itself is never edited, so the posture `secure` restores it.
-/

open RustText

structure Posture where
  name : String
  /-- The networks that may reach the decoys of `stealth`. -/
  lan : List String
  deriving Repr, DecidableEq

/-- The names in `POSTURES`. -/
def postures : List String :=
  ["secure", "relaxed", "lockdown", "stealth"]

def decoyTcp : List U16 :=
  [21, 22, 23, 25, 80, 445, 3306, 3389, 8080]

def decoyUdp : List U16 := [53]

/-- `u32::saturating_mul`. -/
def U32.saturatingMul (first second : U32) : U32 :=
  BitVec.ofNat 32 (min 4294967295 (first.toNat * second.toNat))

/-- Multiply a limit by `up` and divide it by `down`, never below 1. -/
def scaleLimit (up down limit : U32) : U32 :=
  umax (U32.saturatingMul limit up / down) 1

def scaleDetector (cfg : Config) (up down : U32) : Config :=
  { cfg with
    detector :=
      { cfg.detector with
        synLimit := scaleLimit up down cfg.detector.synLimit
        portLimit := scaleLimit up down cfg.detector.portLimit
        udpLimit := scaleLimit up down cfg.detector.udpLimit
        dropLimit := scaleLimit up down cfg.detector.dropLimit } }

namespace Posture

def validate (posture : Posture) : Except Error Unit := do
  Error.ensure (posture.name ∈ postures)
    ("unknown posture " ++ debugText posture.name ++ "; known: " ++
      String.intercalate ", " postures)
  forM posture.lan fun net => do
    let _ ← Error.withContext ("lan " ++ debugText net) (Cidr.parse net)

/-- The decoy ports, opened to the local networks. -/
def decoys (posture : Posture) : List Rule :=
  posture.lan.flatMap fun net =>
    decoyTcp.map (fun port => ⟨"tcp", .one port, some net, none⟩) ++
      decoyUdp.map fun port => ⟨"udp", .one port, some net, none⟩

/-- Every inbound port closed, detection stricter, bans longer. -/
def lockdown (cfg : Config) : Config :=
  let closed : Config :=
    { cfg with
      mode := "enforce"
      allowTcp := []
      allowUdp := []
      allowPing := false
      rules := []
      profiles :=
        cfg.profiles.map fun (name, profile) =>
          (name,
            { networks := profile.networks
              allowTcp := some []
              allowUdp := some []
              allowPing := some false
              rules := some [] }) }
  let scaled := scaleDetector closed 1 2
  let baseSecs := U64.saturatingMul scaled.bans.baseSecs 4
  { scaled with
    bans :=
      { scaled.bans with
        baseSecs := baseSecs
        maxSecs :=
          umax (U64.saturatingMul scaled.bans.maxSecs 4) baseSecs } }

/-- Ping dropped, and the decoys opened in the base and in every profile. -/
def stealth (posture : Posture) (cfg : Config) : Config :=
  { cfg with
    allowPing := false
    rules := cfg.rules ++ posture.decoys
    profiles :=
      cfg.profiles.map fun (name, profile) =>
        (name,
          { profile with
            allowPing := some false
            rules := profile.rules.map (· ++ posture.decoys) }) }

/-- The configuration with a posture laid over it. -/
def apply (posture : Posture) (cfg : Config) : Config :=
  let cfg := { cfg with posture := some posture.name }
  if posture.name = "relaxed" then
    scaleDetector cfg 2 1
  else if posture.name = "lockdown" then
    lockdown cfg
  else if posture.name = "stealth" then
    posture.stealth cfg
  else
    cfg

end Posture

/-- The configuration with the posture in force, if there is one. -/
def withPosture (cfg : Config) (posture : Option Posture) : Config :=
  match posture with
  | some posture => posture.apply cfg
  | none => cfg

theorem le_umax_right
    {width : Nat}
    (first second : BitVec width) :
    second ≤ umax first second := by
  unfold umax
  split
  · exact BitVec.le_refl _
  · rename_i above
    exact BitVec.le_of_lt (BitVec.not_le.mp above)

theorem scaleLimit_ne_zero (up down limit : U32) :
    scaleLimit up down limit ≠ 0 := by
  unfold scaleLimit umax
  split
  · decide
  · rename_i above
    intro isZero
    rw [isZero] at above
    exact above (by decide)

/-- Scaling the limits keeps every check of a configuration. -/
theorem scaleDetector_usable
    {cfg : Config}
    (usable : cfg.Usable)
    (up down : U32) :
    (scaleDetector cfg up down).Usable where
  mode := usable.mode
  trusted := usable.trusted
  base := usable.base
  profiles := usable.profiles
  lists := usable.lists
  urls := usable.urls
  blocked := usable.blocked
  detector :=
    ⟨usable.detector.1, scaleLimit_ne_zero _ _ _, scaleLimit_ne_zero _ _ _,
      scaleLimit_ne_zero _ _ _, scaleLimit_ne_zero _ _ _⟩
  bans := usable.bans

theorem policyUsable_nil : PolicyUsable [] [] [] where
  tcp := ⟨[], by decide⟩
  udp := ⟨[], by decide⟩
  rules := by simp

namespace Posture

section

variable
  {posture : Posture}
  {cfg : Config}

/-- What the check of a posture establishes. -/
theorem validate_ok :
    posture.validate = .ok () ↔
      posture.name ∈ postures ∧
        ∀ net ∈ posture.lan, ∃ network, Cidr.parse net = .ok network := by
  unfold validate
  simp only [Error.bind_ok, Error.ensure_ok, exists_const, Error.forM_ok,
    Error.withContext_ok, pure, Except.pure, and_true]

theorem decoy_usable
    {net : String}
    {network : Cidr}
    (parsed : Cidr.parse net = .ok network)
    {proto : String}
    {port : U16}
    (known : proto = "tcp" ∨ proto = "udp")
    (notZero : port ≠ 0) :
    Rule.Usable ⟨proto, .one port, some net, none⟩ where
  proto := known
  port := ⟨(port, port), if_neg notZero⟩
  network := ⟨some network, by rw [Option.mapM_some, parsed]; rfl⟩
  rate := ⟨none, rfl, .inl rfl⟩

/-- The decoys of a posture that passed its check are usable rules. -/
theorem decoys_usable
    (valid : posture.validate = .ok ()) :
    ∀ rule ∈ posture.decoys, rule.Usable := by
  intro rule member
  obtain ⟨net, inLan, inRules⟩ := List.mem_flatMap.mp member
  obtain ⟨network, parsed⟩ := (validate_ok.mp valid).2 net inLan
  rcases List.mem_append.mp inRules with isTcp | isUdp
  · obtain ⟨port, inDecoys, rfl⟩ := List.mem_map.mp isTcp
    refine decoy_usable parsed (.inl rfl) ?_
    rintro rfl
    exact absurd inDecoys (by decide)
  · obtain ⟨port, inDecoys, rfl⟩ := List.mem_map.mp isUdp
    refine decoy_usable parsed (.inr rfl) ?_
    rintro rfl
    exact absurd inDecoys (by decide)

theorem lockdown_usable
    (usable : cfg.Usable) :
    (lockdown cfg).Usable where
  mode := .inl rfl
  trusted := usable.trusted
  base := policyUsable_nil
  profiles := by
    intro entry member
    obtain ⟨old, _, rfl⟩ := List.mem_map.mp member
    exact policyUsable_nil
  lists := usable.lists
  urls := usable.urls
  blocked := usable.blocked
  detector :=
    ⟨usable.detector.1, scaleLimit_ne_zero _ _ _, scaleLimit_ne_zero _ _ _,
      scaleLimit_ne_zero _ _ _, scaleLimit_ne_zero _ _ _⟩
  bans := by
    constructor
    · intro isZero
      have zeroSecs := congrArg BitVec.toNat isZero
      have notZero : cfg.bans.baseSecs.toNat ≠ 0 :=
        fun same => usable.bans.1 (BitVec.eq_of_toNat_eq same)
      simp only [lockdown, scaleDetector, U64.toNat_saturatingMul] at zeroSecs
      simp at zeroSecs
      omega
    · exact le_umax_right _ _

theorem stealth_usable
    (valid : posture.validate = .ok ())
    (usable : cfg.Usable) :
    (posture.stealth cfg).Usable where
  mode := usable.mode
  trusted := usable.trusted
  base :=
    { tcp := usable.base.tcp
      udp := usable.base.udp
      rules := by
        intro rule member
        rcases List.mem_append.mp member with own | decoy
        · exact usable.base.rules rule own
        · exact decoys_usable valid rule decoy }
  profiles := by
    intro entry member
    obtain ⟨old, inProfiles, rfl⟩ := List.mem_map.mp member
    have oldUsable := usable.profiles old inProfiles
    refine ⟨oldUsable.tcp, oldUsable.udp, ?_⟩
    intro rule inRules
    cases own : old.2.rules with
    | none =>
        simp [own] at inRules
    | some rules =>
        simp only [own, Option.map_some, Option.getD_some,
          List.mem_append] at inRules
        rcases inRules with isOwn | decoy
        · exact oldUsable.rules rule (by simpa [own] using isOwn)
        · exact decoys_usable valid rule decoy
  lists := usable.lists
  urls := usable.urls
  blocked := usable.blocked
  detector := usable.detector
  bans := usable.bans

end

end Posture

/-- A posture that passed its check keeps a configuration usable. -/
theorem withPosture_usable
    {cfg : Config}
    {posture : Option Posture}
    (valid : ∀ given ∈ posture, given.validate = .ok ())
    (usable : cfg.Usable) :
    (withPosture cfg posture).Usable := by
  cases posture with
  | none => exact usable
  | some given =>
      have validGiven := valid given rfl
      have named : Config.Usable { cfg with posture := some given.name } :=
        ⟨usable.mode, usable.trusted, usable.base, usable.profiles,
          usable.lists, usable.urls, usable.blocked, usable.detector,
          usable.bans⟩
      simp only [withPosture, Posture.apply]
      split
      · exact scaleDetector_usable named 2 1
      split
      · exact Posture.lockdown_usable named
      split
      · exact Posture.stealth_usable validGiven named
      · exact named

end AiFirewall
