import AiFirewall.Config

namespace AiFirewall

/-!
# The configuration check

`Config::validate` as a sequence of checks, each with the message it fails
with, and the facts about a configuration that passing it gives.  The checks
look at one specification at a time; none of them counts.
-/

open RustText

/-- One narrower rule is usable. -/
def checkRule (what : String) (rule : Rule) : Except Error Unit := do
  let here := what ++ " rule " ++ rule.label
  Error.ensure (rule.proto = "tcp" ∨ rule.proto = "udp")
    (here ++ ": proto must be tcp or udp")
  let _ ← Error.withContext here rule.port.ports
  let _ ← Error.withContext here (rule.from?.mapM Cidr.parse)
  let rate ← rule.rate
  Error.ensure (rate.isNone ∨ rule.proto = "tcp")
    (here ++ ": limit only works for tcp")

/-- The settings a policy consists of are usable, one by one. -/
def checkPolicy
    (what : String)
    (tcp udp : List PortSpec)
    (rules : List Rule) :
    Except Error Unit := do
  let _ ← Error.withContext (what ++ " allow_tcp") (expand tcp)
  let _ ← Error.withContext (what ++ " allow_udp") (expand udp)
  forM rules (checkRule what)

/-- What the check of one rule establishes. -/
structure Rule.Usable (rule : Rule) : Prop where
  proto : rule.proto = "tcp" ∨ rule.proto = "udp"
  port : ∃ range, rule.port.ports = .ok range
  network : ∃ network, rule.from?.mapM Cidr.parse = .ok network
  rate :
    ∃ rate, rule.rate = .ok rate ∧
      (rate.isNone ∨ rule.proto = "tcp")

/-- What the check of a policy's settings establishes. -/
structure PolicyUsable
    (tcp udp : List PortSpec)
    (rules : List Rule) : Prop where
  tcp : ∃ ports, expand tcp = .ok ports
  udp : ∃ ports, expand udp = .ok ports
  rules : ∀ rule ∈ rules, rule.Usable

/-- A rule passes its check exactly when it is usable. -/
theorem checkRule_ok
    {what : String}
    {rule : Rule} :
    checkRule what rule = .ok () ↔ rule.Usable := by
  unfold checkRule
  simp only [Error.bind_ok, exists_const, Error.withContext_ok,
    Error.ensure_ok]
  constructor
  · rintro ⟨protoKnown, range, portRead, network, networkRead,
      rate, rateRead, rateFits⟩
    exact ⟨protoKnown, ⟨range, portRead⟩, ⟨network, networkRead⟩,
      ⟨rate, rateRead, rateFits⟩⟩
  · rintro ⟨protoKnown, ⟨range, portRead⟩, ⟨network, networkRead⟩,
      ⟨rate, rateRead, rateFits⟩⟩
    exact ⟨protoKnown, range, portRead, network, networkRead,
      rate, rateRead, rateFits⟩

/-- The settings of a policy pass exactly when they are usable. -/
theorem checkPolicy_ok
    {what : String}
    {tcp udp : List PortSpec}
    {rules : List Rule}
    {result : Unit} :
    checkPolicy what tcp udp rules = .ok result ↔
      PolicyUsable tcp udp rules := by
  unfold checkPolicy
  simp only [Error.bind_ok, Error.withContext_ok, Error.forM_ok,
    checkRule_ok]
  constructor
  · rintro ⟨tcpPorts, tcpRead, udpPorts, udpRead, rulesUsable⟩
    exact ⟨⟨tcpPorts, tcpRead⟩, ⟨udpPorts, udpRead⟩, rulesUsable⟩
  · rintro ⟨⟨tcpPorts, tcpRead⟩, ⟨udpPorts, udpRead⟩, rulesUsable⟩
    exact ⟨tcpPorts, tcpRead, udpPorts, udpRead, rulesUsable⟩

namespace Config

/-- The check every configuration passes before it is used. -/
def validate (cfg : Config) : Except Error Unit := do
  Error.ensure (cfg.mode = "enforce" ∨ cfg.mode = "monitor")
    ("mode must be \"enforce\" or \"monitor\", got " ++
      debugText cfg.mode)
  let _ ← cfg.trustedCidrs
  checkPolicy "" cfg.allowTcp cfg.allowUdp cfg.rules
  forM cfg.profiles fun (name, profile) =>
    checkPolicy ("profile " ++ name ++ ":")
      (profile.allowTcp.getD []) (profile.allowUdp.getD [])
      (profile.rules.getD [])
  forM cfg.feeds.lists fun name =>
    Error.ensure ((known name).isSome)
      ("unknown feed " ++ debugText name ++ "; known: " ++
        String.intercalate ", " (knownFeeds.map Prod.fst))
  forM cfg.feeds.urls fun url =>
    Error.ensure ("https://".toList.isPrefixOf url.toList)
      ("feed url " ++ debugText url ++ " must be https://")
  let blocked ← cfg.blockedCidrs
  -- The blocklist is an exact-match map; ranges wider than /20 would crowd it.
  forM blocked fun cidr =>
    Error.ensure (20 ≤ BitPrefix.leadingOnes cidr.mask)
      "blocked ranges must be /20 (4096 addresses) or narrower"
  Error.ensure
    (cfg.detector.windowSecs ≠ 0 ∧ cfg.detector.synLimit ≠ 0 ∧
      cfg.detector.portLimit ≠ 0 ∧ cfg.detector.udpLimit ≠ 0 ∧
      cfg.detector.dropLimit ≠ 0)
    "detector values must be above 0"
  Error.ensure
    (cfg.bans.baseSecs ≠ 0 ∧ cfg.bans.baseSecs ≤ cfg.bans.maxSecs)
    "bans: base_secs must be above 0 and max_secs at least base_secs"

/-- What the check of a whole configuration establishes. -/
structure Usable (cfg : Config) : Prop where
  mode : cfg.mode = "enforce" ∨ cfg.mode = "monitor"
  trusted : ∃ cidrs, cfg.trustedCidrs = .ok cidrs
  base : PolicyUsable cfg.allowTcp cfg.allowUdp cfg.rules
  profiles :
    ∀ entry ∈ cfg.profiles,
      PolicyUsable (entry.2.allowTcp.getD [])
        (entry.2.allowUdp.getD []) (entry.2.rules.getD [])
  lists : ∀ name ∈ cfg.feeds.lists, (known name).isSome
  urls : ∀ url ∈ cfg.feeds.urls, "https://".toList.isPrefixOf url.toList
  blocked :
    ∃ cidrs, cfg.blockedCidrs = .ok cidrs ∧
      ∀ cidr ∈ cidrs, 20 ≤ BitPrefix.leadingOnes cidr.mask
  detector :
    cfg.detector.windowSecs ≠ 0 ∧ cfg.detector.synLimit ≠ 0 ∧
      cfg.detector.portLimit ≠ 0 ∧ cfg.detector.udpLimit ≠ 0 ∧
      cfg.detector.dropLimit ≠ 0
  bans : cfg.bans.baseSecs ≠ 0 ∧ cfg.bans.baseSecs ≤ cfg.bans.maxSecs

/-- A configuration passes its check exactly when it is usable. -/
theorem validate_ok {cfg : Config} :
    cfg.validate = .ok () ↔ cfg.Usable := by
  unfold validate
  simp only [Error.bind_ok, exists_const, Error.forM_ok,
    Error.ensure_ok, checkPolicy_ok]
  constructor
  · rintro ⟨modeKnown, trusted, trustedRead, base, profiles, lists,
      urls, blocked, blockedRead, blockedNarrow, detector, bans⟩
    exact ⟨modeKnown, ⟨trusted, trustedRead⟩, base, profiles, lists,
      urls, ⟨blocked, blockedRead, blockedNarrow⟩, detector, bans⟩
  · rintro ⟨modeKnown, ⟨trusted, trustedRead⟩, base, profiles, lists,
      urls, ⟨blocked, blockedRead, blockedNarrow⟩, detector, bans⟩
    exact ⟨modeKnown, trusted, trustedRead, base, profiles, lists,
      urls, blocked, blockedRead, blockedNarrow, detector, bans⟩

/-- The defaults pass their own check. -/
theorem validate_default : Config.default.validate = .ok () := by
  decide

/-- Under every profile the settings that apply are usable. -/
theorem Usable.policy
    {cfg : Config}
    (usable : cfg.Usable)
    (profile : Option String) :
    PolicyUsable (cfg.policy profile).allowTcp
      (cfg.policy profile).allowUdp (cfg.policy profile).rules := by
  unfold Config.policy
  cases found : profile.bind cfg.profile? with
  | none =>
      exact usable.base
  | some settings =>
      have member : ∃ name, (name, settings) ∈ cfg.profiles := by
        obtain ⟨name, _, lookup⟩ := Option.bind_eq_some_iff.mp found
        unfold Config.profile? at lookup
        obtain ⟨entry, entryFound, entryIs⟩ :=
          Option.map_eq_some_iff.mp lookup
        subst entryIs
        exact ⟨entry.1, List.mem_of_find?_eq_some entryFound⟩
      obtain ⟨name, inProfiles⟩ := member
      have settingsUsable := usable.profiles _ inProfiles
      refine ⟨?_, ?_, ?_⟩
      · cases own : settings.allowTcp with
        | none => simpa [own] using usable.base.tcp
        | some specs => simpa [own] using settingsUsable.tcp
      · cases own : settings.allowUdp with
        | none => simpa [own] using usable.base.udp
        | some specs => simpa [own] using settingsUsable.udp
      · cases own : settings.rules with
        | none => simpa [own] using usable.base.rules
        | some rules => simpa [own] using settingsUsable.rules

/-- Read and check a configuration; `fromToml` is the TOML reader. -/
def parse
    (fromToml : String → Except Error Config)
    (text : String) :
    Except Error Config := do
  let cfg ← fromToml text
  cfg.validate
  return cfg

/-- What is read has passed its check. -/
theorem validate_of_parse
    {fromToml : String → Except Error Config}
    {text : String}
    {cfg : Config}
    (parsed : parse fromToml text = .ok cfg) :
    cfg.validate = .ok () := by
  obtain ⟨read, _, rest⟩ := Error.bind_ok.mp parsed
  obtain ⟨_, valid, same⟩ := Error.bind_ok.mp rest
  cases same
  exact valid

end Config

end AiFirewall
