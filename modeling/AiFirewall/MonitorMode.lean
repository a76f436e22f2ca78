import AiFirewall.ListedBans
import AiFirewall.Lockdown

namespace AiFirewall

/-!
# Monitor mode

While the configuration in force only watches, `CFG_ENFORCE` is clear and no
rule drops a packet.  The ban maps and the feeds come before the rules and
know no mode: what they list is dropped all the same.
-/

open FallibleWrites

/-- The IP version of a frame that shows its IP header. -/
def Frame.ipVersion? (frame : Frame) : Option IpVersion :=
  if frame.etherType = etherTypeIpv4 then
    if ethLen + ipv4Len ≤ frame.length then some .v4 else none
  else if frame.etherType = etherTypeIpv6 then
    if ethLen + ipv6Len ≤ frame.length then some .v6 else none
  else
    none

section

variable
  {helpers : Helpers}
  {maps : KernelMaps}
  {frame : Frame}

theorem policy_of_watching
    (watching : maps.config cfgEnforce = 0)
    (source : Source)
    (flow : Flow)
    (toEveryone reply : Bool) :
    (policy helpers maps source flow toEveryone reply).1 = .pass := by
  cases action :
      (policy helpers maps source flow toEveryone reply).1 with
  | pass => rfl
  | drop => exact absurd watching (policy_drop_iff.mp action).2

theorem icmpVerdict_of_watching
    (watching : maps.config cfgEnforce = 0)
    (l4 : Nat)
    (echoRequest : U8) :
    (icmpVerdict maps frame l4 echoRequest).1 = .pass := by
  unfold icmpVerdict
  split
  · rfl
  · rw [if_neg fun echo => echo.2.2 watching]

theorem tryIpv4_of_watching
    (watching : maps.config cfgEnforce = 0)
    (long : ethLen + ipv4Len ≤ frame.length) :
    (tryIpv4 helpers maps frame).1 =
      if listed helpers maps frame .v4 then .drop else .pass := by
  unfold tryIpv4
  rw [if_neg (Nat.not_lt.mpr long)]
  dsimp only
  by_cases banned :
      live helpers.now (maps.blocklist.get? frame.ipv4Src) = true
  · rw [if_pos banned, if_pos (by simp [listed, banned])]
  by_cases inFeed :
      maps.feeds.matchesAddress
        (triePrefix 32 (BitPrefix.bytes32 frame.ipv4Src)) = true
  · rw [if_neg banned, if_pos inFeed, if_pos (by simp [listed, inFeed])]
  have notListed : ¬listed helpers maps frame .v4 = true := by
    simp [listed, banned, inFeed]
  rw [if_neg banned, if_neg inFeed, if_neg notListed]
  split
  · rfl
  split
  · rfl
  split
  · exact icmpVerdict_of_watching watching _ _
  split
  · rfl
  · exact policy_of_watching watching _ _ _ _

theorem tryIpv6_of_watching
    (watching : maps.config cfgEnforce = 0)
    (long : ethLen + ipv6Len ≤ frame.length) :
    (tryIpv6 helpers maps frame).1 =
      if listed helpers maps frame .v6 then .drop else .pass := by
  unfold tryIpv6
  rw [if_neg (Nat.not_lt.mpr long)]
  dsimp only
  by_cases banned :
      live helpers.now (maps.blocklist6.get? frame.ipv6Prefix) = true
  · rw [if_pos banned, if_pos (by simp [listed, banned])]
  have notListed : ¬listed helpers maps frame .v6 = true := by
    simp [listed, banned]
  rw [if_neg banned, if_neg notListed]
  split
  · exact icmpVerdict_of_watching watching _ _
  split
  · rfl
  · exact policy_of_watching watching _ _ _ _

/-- Without enforcement a frame passes unless its source is listed. -/
theorem pass_of_watching_iff
    (watching : maps.config cfgEnforce = 0) :
    (aiFirewall helpers maps frame).1 = .pass ↔
      ∀ version ∈ frame.ipVersion?,
        listed helpers maps frame version = false := by
  rw [aiFirewall_action]
  unfold tryAiFirewall Frame.ipVersion?
  by_cases tiny : frame.length < ethLen
  · have short4 : ¬ethLen + ipv4Len ≤ frame.length := by
      omega
    have short6 : ¬ethLen + ipv6Len ≤ frame.length := by
      omega
    simp [tiny, short4, short6]
  rw [if_neg tiny]
  split
  · by_cases long : ethLen + ipv4Len ≤ frame.length
    · rw [tryIpv4_of_watching watching long, if_pos long]
      cases isListed : listed helpers maps frame .v4 <;>
        simp [isListed]
    · simp [tryIpv4, Nat.not_le.mp long, long]
  split
  · by_cases long : ethLen + ipv6Len ≤ frame.length
    · rw [tryIpv6_of_watching watching long, if_pos long]
      cases isListed : listed helpers maps frame .v6 <;>
        simp [isListed]
    · simp [tryIpv6, Nat.not_le.mp long, long]
  · simp

end

section

variable
  {Score : Type}
  {attempt : Attempt}
  {cfg : Config}
  {policy : Policy}
  {compiled : Compiled}
  {blocked : List Cidr}
  {before after : World Score}

/-- The first write of a call says whether the rules are enforced. -/
theorem plan_head
    (attempt : Attempt)
    (cfg : Config)
    (policy : Policy)
    (compiled : Compiled)
    (blocked : List Cidr)
    (before : World Score) :
    ∃ rest,
      plan attempt cfg policy compiled blocked before =
        .mapWrite (.setting cfgEnforce (if cfg.enforce then 1 else 0)) ::
          rest :=
  ⟨_, rfl⟩

/-- However far a call comes, `CFG_ENFORCE` is kept or set. -/
theorem enforce_of_written
    {steps : List ConfigStep}
    (inPlan :
      ∀ step ∈ steps,
        step ∈ plan attempt cfg policy compiled blocked before)
    (written : Written (ConfigStep.accept? attempt) steps before after) :
    after.settings cfgEnforce = before.settings cfgEnforce ∨
      after.settings cfgEnforce = (if cfg.enforce then 1 else 0) := by
  refine written.preserves
    (fun world =>
      world.settings cfgEnforce = before.settings cfgEnforce ∨
        world.settings cfgEnforce = (if cfg.enforce then 1 else 0))
    ?_ (.inl rfl)
  intro step member first second holds accepted
  by_cases concerns : step.place? = some (.setting cfgEnforce)
  · cases step with
    | mapWrite write =>
        cases write with
        | setting slot value =>
            cases concerns
            have planned :
                .mapWrite (.setting cfgEnforce value) ∈
                  settingSteps attempt cfg policy :=
              (mem_plan_iff rfl).mp (inPlan _ member)
            obtain ⟨_, done⟩ := accept_mapWrite_iff.mp accepted
            cases done
            right
            have stored :
                Function.update first.settings cfgEnforce value
                    cfgEnforce =
                  value :=
              Function.update_self _ _ _
            refine stored.trans ?_
            simpa [settingSteps, cfgEnforce, cfgEphemeralLow,
              cfgDropPing] using planned
        | setPort proto port value => cases concerns
        | insertKey proto key => cases concerns
        | removeKey proto key => cases concerns
        | setRate port packed => cases concerns
    | dropKey proto key => cases concerns
    | rememberPorts proto wanted => cases concerns
    | rememberKeys proto wanted => cases concerns
    | rememberRates rates => cases concerns
    | reconfigure cfg => cases concerns
    | lift ip => cases concerns
    | block ip => cases concerns
    | markDirty => cases concerns
  · have kept :
        second.settings cfgEnforce = first.settings cfgEnforce :=
      ConfigStep.value_of_accept? accepted concerns
    rwa [kept]

/-- A call whose first write is refused changes nothing. -/
theorem unchanged_of_refused
    {failure : ApplyError}
    (compiles : compile policy = .ok compiled)
    (readable : cfg.blockedCidrs = .ok blocked)
    (refused :
      attempt.refuses
        (.setting cfgEnforce (if cfg.enforce then 1 else 0)) = true)
    (ran :
      (applyConfig attempt cfg policy).run before = .error failure after) :
    after = before := by
  obtain ⟨done, step, rest, shape, written, _⟩ :=
    (applyConfig_error_iff compiles readable).mp ⟨failure, ran⟩
  obtain ⟨others, head⟩ :=
    plan_head attempt cfg policy compiled blocked before
  cases written with
  | nil => rfl
  | cons accepted _ =>
      rw [head] at shape
      cases shape
      rw [(accept_mapWrite_iff.mp accepted).1] at refused
      cases refused

end

namespace System

section

variable {Score : Type}

/-- The configuration in force. -/
def inForce? (system : System Score) : Option Config :=
  match system.phase with
  | .stopped => none
  | .starting cfg _ => some cfg
  | .running cfg => some cfg

/-- Only configurations that `validate` accepts reach the daemon. -/
def Validated : DaemonEvent → Prop
  | .boot _ cfg _ => cfg.validate = .ok ()
  | .reload _ cfg _ _ _ => cfg.validate = .ok ()
  | _ => True

/--
A reload that ends monitor mode succeeds, unless the kernel refuses its very
first write.
-/
def EndsMonitoring (system : System Score) : DaemonEvent → Prop
  | .reload attempt cfg profile _ _ =>
      cfg.enforce = true →
      (∀ old, system.phase = .running old → old.enforce = false) →
      attempt.refuses (.setting cfgEnforce 1) = true ∨
        ∃ world,
          (applyConfig attempt cfg (cfg.policy profile)).run system.world =
            .ok () world
  | _ => True

/-- While the configuration in force only watches, no rule is enforced. -/
def Watches (system : System Score) : Prop :=
  ∀ cfg ∈ system.inForce?, cfg.validate = .ok () ∧
    (cfg.enforce = false → system.world.settings cfgEnforce = 0)

variable
  {system : System Score}
  {world : World Score}
  {attempt : Attempt}
  {cfg : Config}
  {profile : Option String}

/-- A successful call leaves `CFG_ENFORCE` as its configuration says. -/
theorem enforce_of_applied
    {before : World Score}
    (accepted : cfg.validate = .ok ())
    (watching : cfg.enforce = false)
    (ran :
      (applyConfig attempt cfg (cfg.policy profile)).run before =
        .ok () world) :
    world.settings cfgEnforce = 0 := by
  obtain ⟨compiled, blocked, compiles, readable⟩ :=
    compiled_of_accepted accepted profile
  rw [(settings_of_ok compiles readable ran).1, watching]
  rfl

/-- Nor does a call for monitor mode that fails enforce anything. -/
theorem enforce_of_failed
    {before : World Score}
    {failure : ApplyError}
    (accepted : cfg.validate = .ok ())
    (watching : cfg.enforce = false)
    (watched : before.settings cfgEnforce = 0)
    (ran :
      (applyConfig attempt cfg (cfg.policy profile)).run before =
        .error failure world) :
    world.settings cfgEnforce = 0 := by
  obtain ⟨compiled, blocked, compiles, readable⟩ :=
    compiled_of_accepted accepted profile
  obtain ⟨done, inPlan, written⟩ :=
    written_of_error compiles readable ran
  rcases enforce_of_written inPlan written with same | isSet
  · exact same.trans watched
  · rw [isSet, watching]
    rfl

/-- A configuration comes into force and says what is enforced. -/
theorem watches_of_inForce
    (isInForce : system.inForce? = some cfg)
    (accepted : cfg.validate = .ok ())
    (clear : cfg.enforce = false → system.world.settings cfgEnforce = 0) :
    system.Watches := by
  intro other isOther
  rw [isInForce] at isOther
  cases isOther
  exact ⟨accepted, clear⟩

/-- The configuration in force stays, and so does `CFG_ENFORCE`. -/
theorem Watches.of_same
    {next : System Score}
    (watches : system.Watches)
    (sameConfig : next.inForce? = system.inForce?)
    (sameSetting :
      next.world.settings cfgEnforce = system.world.settings cfgEnforce) :
    next.Watches := by
  intro other isOther
  rw [sameConfig] at isOther
  rw [sameSetting]
  exact watches other isOther

theorem watches_boot
    (accepted : cfg.validate = .ok ()) :
    (system.boot attempt cfg profile).Watches := by
  unfold System.boot
  split
  · rename_i ran
    exact watches_of_inForce rfl accepted
      fun watching => enforce_of_applied accepted watching ran
  · intro other isOther
    cases isOther

theorem watches_reload
    {running : Config}
    {autoProtected : List Cidr}
    {ownV6Prefixes : List U64}
    (isRunning : system.phase = .running running)
    (accepted : cfg.validate = .ok ())
    (ends :
      EndsMonitoring system
        (.reload attempt cfg profile autoProtected ownV6Prefixes))
    (watches : system.Watches) :
    (system.reload attempt cfg profile autoProtected
      ownV6Prefixes).Watches := by
  have isInForce : system.inForce? = some running := by
    rw [inForce?, isRunning]
  unfold System.reload
  split
  · rename_i ran
    refine watches_of_inForce rfl accepted fun watching => ?_
    have clear := enforce_of_applied accepted watching ran
    exact clear
  · rename_i failure world ran
    refine watches_of_inForce isInForce (watches running isInForce).1 ?_
    intro watching
    have watched := (watches running isInForce).2 watching
    cases mode : cfg.enforce with
    | false => exact enforce_of_failed accepted mode watched ran
    | true =>
        have wasWatching
            (old : Config)
            (isOld : system.phase = .running old) :
            old.enforce = false := by
          rw [isRunning] at isOld
          cases isOld
          exact watching
        obtain ⟨compiled, blocked, compiles, readable⟩ :=
          compiled_of_accepted accepted profile
        rcases ends mode wasWatching with refused | ⟨world, succeeds⟩
        · have first :
              attempt.refuses
                (.setting cfgEnforce (if cfg.enforce then 1 else 0)) =
                true := by
            rw [mode]
            exact refused
          rw [unchanged_of_refused compiles readable first ran]
          exact watched
        · rw [succeeds] at ran
          cases ran

theorem watches_switchProfile
    {running : Config}
    (isRunning : system.phase = .running running)
    (watches : system.Watches) :
    (system.switchProfile attempt running profile).Watches := by
  have isInForce : system.inForce? = some running := by
    rw [inForce?, isRunning]
  obtain ⟨accepted, clear⟩ := watches running isInForce
  unfold System.switchProfile
  split
  · rename_i ran
    exact watches_of_inForce isInForce accepted
      fun watching => enforce_of_applied accepted watching ran
  · rename_i ran
    exact watches_of_inForce isInForce accepted
      fun watching =>
        enforce_of_failed accepted watching (clear watching) ran

theorem udpMode_enforce (strict : Bool) (system : System Score) :
    (system.udpMode strict).world.settings cfgEnforce =
      system.world.settings cfgEnforce := by
  have other : cfgEnforce ≠ cfgUdpStrict := by
    decide
  have kept :
      Function.update system.world.settings cfgUdpStrict
          (if strict then 1 else 0) cfgEnforce =
        system.world.settings cfgEnforce :=
    Function.update_of_ne other _ _
  exact kept

variable [ScoreArith Score]

theorem watches_step
    {event : DaemonEvent}
    (validated : Validated event)
    (ends : EndsMonitoring system event)
    (watches : system.Watches) :
    (system.step event).Watches := by
  unfold System.step
  split
  · exact watches
  · exact watches
  · intro other isOther
    cases isOther
  · exact watches_boot validated
  · rename_i phase
    refine watches.of_same ?_ rfl
    rw [inForce?, inForce?, phase]
  · rename_i phase
    refine watches.of_same ?_ rfl
    rw [inForce?, inForce?, phase]
  · exact watches
  · exact watches_reload (by assumption) validated ends watches
  · exact watches_switchProfile (by assumption) watches
  · exact watches.of_same rfl (udpMode_enforce _ system)
  · exact watches
  · exact watches
  · exact watches
  · rename_i host stored running phase
    cases stored with
    | true => exact watches
    | false => exact watches
  · exact watches

/--
While monitor mode is in force, a frame passes exactly when its source is
neither banned nor on a feed, whatever was restored, applied and loaded.
-/
theorem monitor_passes_iff
    {start : System Score}
    (stopped : start.phase = .stopped)
    (events : List DaemonEvent)
    (validated : ∀ event ∈ events, Validated event)
    (ends :
      Runs.Stepwise
        (fun past => EndsMonitoring (Runs.run step start past)) events)
    (isRunning : (Runs.run step start events).phase = .running cfg)
    (watching : cfg.enforce = false)
    (helpers : Helpers)
    (others : KernelMaps)
    (frame : Frame) :
    let maps := (Runs.run step start events).world.maps others
    (aiFirewall helpers maps frame).1 = .pass ↔
      ∀ version ∈ frame.ipVersion?,
        listed helpers maps frame version = false := by
  have initially : start.Watches := by
    intro other isOther
    rw [inForce?, stopped] at isOther
    cases isOther
  have validatedSteps :
      Runs.Stepwise (fun _ event => Validated event) events :=
    fun past event rest shape => validated event (by rw [shape]; simp)
  have watches : (Runs.run step start events).Watches :=
    (validatedSteps.and ends).invariant
      (fun _ (reached : System Score) => reached.Watches) initially
      fun _ _ conditions => watches_step conditions.1 conditions.2
  have isInForce :
      (Runs.run step start events).inForce? = some cfg := by
    rw [inForce?, isRunning]
  exact pass_of_watching_iff ((watches cfg isInForce).2 watching)

end

/-- Monitor mode with one blocked address. -/
def watchingBlocking : Config :=
  { blocking with mode := "monitor" }

/-- Monitor mode, and no address blocked. -/
def onlyWatching : Config :=
  { Config.default with mode := "monitor" }

def watchingStart : List DaemonEvent :=
  [.boot (refusing fun _ => false) watchingBlocking none,
    .restored (clockedHost 1000 1000000) [] []]

/-- An automatic ban, and then monitor mode. -/
def bannedThenWatching : List DaemonEvent :=
  [.boot (refusing fun _ => false) .default none,
    .restored (clockedHost 1000 1000000) [] [],
    .batch (clockedHost 1010 1000010) (List.replicate 3 nullScan),
    .reload (refusing fun _ => false) onlyWatching none [] []]

/-- Listed addresses and earlier bans are dropped in monitor mode. -/
theorem monitor_mode_drops :
    watchingBlocking.validate = .ok () ∧
      onlyWatching.validate = .ok () ∧
      (match (Runs.run step unstarted watchingStart).phase with
        | .running cfg => cfg.mode
        | _ => "") = "monitor" ∧
      (aiFirewall quietHelpers
          ((Runs.run step unstarted watchingStart).world.maps .fresh)
          (highUdp 0x0a000005)).1 = .drop ∧
      (match (Runs.run step unstarted bannedThenWatching).phase with
        | .running cfg => cfg.mode
        | _ => "") = "monitor" ∧
      (aiFirewall quietHelpers
          ((Runs.run step unstarted bannedThenWatching).world.maps .fresh)
          (highUdp 0x0a000005)).1 = .drop :=
  ⟨by decide +kernel, by decide +kernel, by decide +kernel,
    by decide +kernel, by decide +kernel, by decide +kernel⟩

/-- An address that nobody lists gets through. -/
theorem monitor_mode_passes_unlisted :
    (aiFirewall quietHelpers
        ((Runs.run step unstarted watchingStart).world.maps .fresh)
        (highUdp 0x0a000006)).1 = .pass := by
  have watches :
      (match (Runs.run step unstarted watchingStart).phase with
        | .running cfg => !cfg.enforce
        | _ => false) = true := by
    decide +kernel
  have unlisted :
      listed quietHelpers
          ((Runs.run step unstarted watchingStart).world.maps .fresh)
          (highUdp 0x0a000006) .v4 = false := by
    decide +kernel
  have validated : ∀ event ∈ watchingStart, Validated event := by
    intro event member
    simp only [watchingStart, List.mem_cons, List.not_mem_nil,
      or_false] at member
    rcases member with rfl | rfl
    · show watchingBlocking.validate = .ok ()
      decide +kernel
    · trivial
  have ends :
      Runs.Stepwise
        (fun past =>
          EndsMonitoring (Runs.run step unstarted past)) watchingStart := by
    intro past event rest shape
    have member : event ∈ watchingStart := by
      rw [shape]
      simp
    simp only [watchingStart, List.mem_cons, List.not_mem_nil,
      or_false] at member
    rcases member with rfl | rfl
    · trivial
    · trivial
  split at watches
  · rename_i cfg isRunning
    refine (monitor_passes_iff rfl watchingStart validated ends isRunning
      (by simpa using watches) quietHelpers .fresh _).mpr ?_
    have isV4 : (highUdp 0x0a000006).ipVersion? = some .v4 := by
      decide +kernel
    rw [isV4]
    intro version isVersion
    cases isVersion
    exact unlisted
  · cases watches

end System

end AiFirewall
