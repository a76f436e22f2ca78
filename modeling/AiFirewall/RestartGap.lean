import AiFirewall.FeedProtection
import AiFirewall.MonitorMode

namespace AiFirewall

/-!
# A restart, packet by packet

A new daemon fills maps of its own while the program of the old one stays
attached, and then swaps its program into the running link.  The ban maps are
pinned and shared; rules, settings, rates and feeds are not.  Strict UDP is
set only after the swap, and rates are counted from zero again.
-/

open Runs

/-- What is attached to the interface. -/
inductive AttachedProgram where
  | old
  | new
  | nothing
  deriving Repr, DecidableEq

/-- How far the new daemon has come. -/
inductive TakeoverStage where
  | notStarted
  /-- The maps are created and the programs loaded. -/
  | loaded
  /-- The configuration is applied; bans are restored next. -/
  | configured
  /-- The cached feeds are loaded: the daemon's loop begins. -/
  | ready
  /-- The egress program has had its turn; the filter comes next. -/
  | recording (egress : Bool)
  | guarding (egress : Bool)
  /-- The filter could not be attached; the next tick tries again. -/
  | unguarded
  | stopped
  deriving Repr, DecidableEq

/-- The configuration is applied, with more or less of what comes after. -/
def TakeoverStage.isPrepared : TakeoverStage → Bool
  | .notStarted => false
  | .loaded => false
  | .stopped => false
  | _ => true

/-- Feeds are loaded at the end of the start, and when a refresh is done. -/
def TakeoverStage.withFeeds : TakeoverStage → TakeoverStage
  | .configured => .ready
  | stage => stage

theorem isPrepared_withFeeds
    {stage : TakeoverStage}
    (isPrepared : stage.isPrepared = true) :
    stage.withFeeds.isPrepared = true := by
  cases stage with
  | configured => rfl
  | notStarted => exact isPrepared
  | loaded => exact isPrepared
  | ready => exact isPrepared
  | recording egress => exact isPrepared
  | guarding egress => exact isPrepared
  | unguarded => exact isPrepared
  | stopped => exact isPrepared

/-- A restart: the old program's rules and settings, and the new daemon. -/
structure Takeover (Score : Type) where
  old : World Score
  system : System Score
  feeds : FeedTable
  stage : TakeoverStage
  attached : AttachedProgram

/-- A step of the new daemon, or of somebody else. -/
inductive TakeoverEvent where
  | load
  | applyConfig (attempt : Attempt)
  /-- A restored ban, a batch of packets, a sweep, a ban by hand, a save. -/
  | daemon (event : DaemonEvent)
  | loadFeeds (input : FeedInput)
  /-- `attach_tc`. -/
  | attachEgress (works : Bool)
  /-- The take-over in `attach_xdp`; where it fails the link is unpinned. -/
  | swapFilter (works : Bool)
  /-- The attach anew in `attach_xdp`. -/
  | attachFilter (works : Bool)
  | setStrict (works : Bool)

/-- The events of the daemon that leave rules and settings alone. -/
def DaemonEvent.isMeanwhile : DaemonEvent → Bool
  | .boot _ _ _ => false
  | .reload _ _ _ _ _ => false
  | .switchProfile _ _ => false
  | .udpMode _ => false
  | .crash => false
  | _ => true

section

variable
  {helpers : Helpers}
  {maps : KernelMaps}
  {source : Source}
  {frame : Frame}
  {version : IpVersion}
  {proto : U8}
  {l4 : Nat}
  {flow : Flow}

theorem proto_of_parseL4
    (parsed : parseL4 proto frame l4 = some flow) :
    flow.proto = proto ∧ (proto = protoTcp ∨ proto = protoUdp) := by
  unfold parseL4 at parsed
  dsimp only at parsed
  split at parsed
  · rename_i isTcp
    split at parsed
    · cases parsed
    · cases parsed
      exact ⟨isTcp.symm, .inl isTcp⟩
  · split at parsed
    · rename_i isUdp
      split at parsed
      · cases parsed
      · cases parsed
        exact ⟨isUdp.symm, .inr isUdp⟩
    · cases parsed

theorem notTcp_of_udp (isUdp : flow.proto = protoUdp) :
    flow.proto ≠ protoTcp := by
  rw [isUdp]
  decide

/-- Nothing expects a TCP segment as a reply. -/
theorem judge_allowed_of_unasked
    {reply : Bool}
    (known : flow.proto = protoTcp ∨ flow.proto = protoUdp)
    (unasked : flow.proto = protoUdp → reply = false) :
    (judge helpers maps source flow reply).allowed =
      (judge helpers maps source flow false).allowed := by
  rcases known with isTcp | isUdp
  · unfold judge
    rw [if_pos isTcp, if_pos isTcp]
  · rw [unasked isUdp]

/-- What the rules refuse is dropped, and what the lists name. -/
theorem drop_iff_of_unasked
    (enforced : maps.config cfgEnforce = 1)
    (found : frame.transport = some (version, proto, l4))
    (parsed : parseL4 proto frame l4 = some flow)
    (unasked :
      flow.proto = protoUdp →
      isReply helpers maps frame flow version = false) :
    (aiFirewall helpers maps frame).1 = .drop ↔
      listed helpers maps frame version = true ∨
        (judge helpers maps (frame.source version) flow
          false).allowed = false := by
  obtain ⟨sameProto, known⟩ := proto_of_parseL4 parsed
  have notIcmp : proto ≠ version.icmp := by
    rcases known with rfl | rfl
    · cases version <;> decide
    · cases version <;> decide
  rw [← sameProto] at known
  rw [action_of_transport found, if_neg notIcmp, parsed]
  split
  · exact iff_of_true rfl (.inl (by assumption))
  · rename_i notListed
    rw [policy_drop_iff, judge_allowed_of_unasked known unasked, enforced]
    exact (and_iff_left (by decide)).trans (or_iff_right notListed).symm

/-- An opener needs an open port, no odd flags and a rate within limits. -/
theorem judge_allowed_of_anyOpener
    {reply : Bool}
    (isTcp : flow.proto = protoTcp)
    (isOpener : opener flow.tcpFlags = true) :
    (judge helpers maps source flow reply).allowed = true ↔
      odd flow.tcpFlags = false ∧
        (portOpen maps.tcpAllow flow.dstPort ||
          allowedFrom maps.allowFromTcp source flow.dstPort) = true ∧
        (overRate helpers maps source flow.dstPort).1 = false := by
  unfold judge
  rw [if_pos isTcp, if_pos isOpener]
  split
  · rename_i isOdd
    exact iff_of_false Bool.false_ne_true fun usual => by
      rw [isOdd] at usual
      cases usual.1
  · rename_i notOdd
    split
    · rename_i isOpen
      rw [Bool.not_eq_true] at notOdd
      simp [notOdd, isOpen]
    · rename_i notOpen
      exact iff_of_false Bool.false_ne_true fun usual => notOpen usual.2.1

end

namespace Takeover

section

variable {Score : Type}

/-- The configuration is in force and its program attached. -/
def beforeRestart (system : System Score) : Takeover Score where
  old := system.world
  system := system
  feeds := .fresh
  stage := .notStarted
  attached := .old

variable [ScoreArith Score]

/-- What is out of its order does not happen. -/
def step
    (cfg : Config)
    (profile : Option String)
    (takeover : Takeover Score)
    (event : TakeoverEvent) : Takeover Score :=
  match event, takeover.stage with
  | .load, .notStarted =>
      { takeover with
        system :=
          { takeover.system with
            world := takeover.system.opened cfg
            phase := .stopped }
        feeds := .fresh
        stage := .loaded }
  | .applyConfig attempt, .loaded =>
      match (applyConfig attempt cfg (cfg.policy profile)).run
          takeover.system.world with
      | .ok _ world =>
          { takeover with
            system :=
              { takeover.system with
                world := world
                phase := .starting cfg takeover.system.file.bans }
            stage := .configured }
      | .error _ world =>
          { takeover with
            system := { takeover.system with world := world }
            stage := .stopped }
  | .daemon event, _ =>
      if event.isMeanwhile then
        { takeover with system := takeover.system.step event }
      else
        takeover
  | .loadFeeds input, stage =>
      match takeover.system.phase, stage.isPrepared with
      | .running _, true =>
          { takeover with
            feeds := (applyFeeds input takeover.feeds).1
            stage := stage.withFeeds }
      | _, _ => takeover
  | .attachEgress works, .ready =>
      { takeover with stage := .recording works }
  | .swapFilter works, .recording egress =>
      if takeover.attached = .old then
        if works then
          { takeover with attached := .new, stage := .guarding egress }
        else
          { takeover with attached := .nothing }
      else
        takeover
  | .attachFilter works, .recording egress =>
      if takeover.attached = .nothing then
        if works then
          { takeover with attached := .new, stage := .guarding egress }
        else
          { takeover with stage := .unguarded }
      else
        takeover
  | .setStrict works, .guarding egress =>
      if works then
        { takeover with
          system := takeover.system.udpMode (cfg.udpStrict && egress) }
      else
        takeover
  | .setStrict works, .unguarded =>
      { takeover with
        system :=
          if works then takeover.system.udpMode false else takeover.system
        stage := .ready }
  -- `heal` found no interface to guard.
  | .setStrict works, .ready =>
      if works then
        { takeover with system := takeover.system.udpMode false }
      else
        takeover
  | _, _ => takeover

/-- A restart with the same configuration, after some steps. -/
def after
    (cfg : Config)
    (profile : Option String)
    (system : System Score)
    (events : List TakeoverEvent) : Takeover Score :=
  run (step cfg profile) (beforeRestart system) events

/-- The old program's maps; the ban maps are pinned, and so the new daemon's. -/
def oldMaps
    (takeover : Takeover Score)
    (others : KernelMaps) : KernelMaps :=
  { takeover.old with shared := takeover.system.world.shared }.maps others

/-- The new program's maps. -/
def newMaps
    (takeover : Takeover Score)
    (others : KernelMaps) : KernelMaps :=
  { takeover.system.world.maps others with feeds := takeover.feeds.trie }

/-- What becomes of a packet; `olds` and `news` are the maps left alone. -/
def verdict
    (takeover : Takeover Score)
    (helpers : Helpers)
    (olds news : KernelMaps)
    (frame : Frame) : XdpAction :=
  match takeover.attached with
  | .old => (aiFirewall helpers (takeover.oldMaps olds) frame).1
  | .new => (aiFirewall helpers (takeover.newMaps news) frame).1
  | .nothing => .pass

/-- The maps of the program that is attached, where one is. -/
def attachedMaps
    (takeover : Takeover Score)
    (olds news : KernelMaps) : KernelMaps :=
  match takeover.attached with
  | .new => takeover.newMaps news
  | _ => takeover.oldMaps olds

/-- The policy is in the rule maps, and enforced. -/
structure InForce
    (cfg : Config)
    (profile : Option String)
    (world : World Score) : Prop where
  enforce : world.settings cfgEnforce = 1
  rules :
    ∃ compiled,
      compile (cfg.policy profile) = .ok compiled ∧
        world.kernel.Holds compiled

/-- A new connection, or UDP that nobody asked for, that the rules refuse. -/
def Refuses
    (helpers : Helpers)
    (maps : KernelMaps)
    (source : Source)
    (flow : Flow) : Prop :=
  (flow.proto = protoTcp ∧ opener flow.tcpFlags = true ∨
      flow.proto = protoUdp) ∧
    (judge helpers maps source flow false).allowed = false

/--
The new program lets in what the old one refused: a high UDP port while
`CFG_UDP_STRICT` is clear, a port that the new profile opens, or an opener to
an open port whose count starts anew.
-/
def FindsGap
    (cfg : Config)
    (profile : Option String)
    (helpers : Helpers)
    (maps : KernelMaps)
    (source : Source)
    (flow : Flow) : Prop :=
  flow.proto = protoUdp ∧
      (looseReply maps flow.dstPort = true ∨
        (cfg.policy profile).LetsIn .udp source flow.dstPort) ∨
    flow.proto = protoTcp ∧ odd flow.tcpFlags = false ∧
      (cfg.policy profile).LetsIn .tcp source flow.dstPort ∧
      (overRate helpers maps source flow.dstPort).1 = false

/--
Nothing that was refused gets in: the old program is attached, or the new one
and no gap is found.
-/
def NoGapFor
    (cfg : Config)
    (profile : Option String)
    (takeover : Takeover Score)
    (helpers : Helpers)
    (news : KernelMaps)
    (frame : Frame)
    (version : IpVersion)
    (flow : Flow) : Prop :=
  match takeover.attached with
  | .old => True
  | .new =>
      listed helpers (takeover.newMaps news) frame version = true ∨
        ¬FindsGap cfg profile helpers (takeover.newMaps news)
          (frame.source version) flow
  | .nothing => False

/-- What holds all through a restart. -/
structure Guarded
    (cfg : Config)
    (profile : Option String)
    (running : World Score)
    (takeover : Takeover Score) : Prop where
  old : takeover.old = running
  loaded :
    takeover.stage = .loaded → takeover.system.world.kernel = .fresh
  attached : takeover.attached ≠ .old → takeover.stage.isPrepared = true
  prepared :
    takeover.stage.isPrepared = true →
    InForce cfg profile takeover.system.world

omit [ScoreArith Score] in
/-- Rules in force stay so while the rule maps and `CFG_ENFORCE` do. -/
theorem InForce.of_same
    {cfg : Config}
    {profile : Option String}
    {before after : World Score}
    (inForce : InForce cfg profile before)
    (sameRules : after.kernel = before.kernel)
    (sameEnforce : after.settings cfgEnforce = before.settings cfgEnforce) :
    InForce cfg profile after where
  enforce := sameEnforce.trans inForce.enforce
  rules := sameRules ▸ inForce.rules

/-- Bans, restores, packets and saves leave rules and settings alone. -/
theorem rules_of_meanwhile
    (system : System Score)
    {event : DaemonEvent}
    (meanwhile : event.isMeanwhile = true) :
    (system.step event).world.kernel = system.world.kernel ∧
      (system.step event).world.settings = system.world.settings := by
  unfold System.step
  split
  · exact ⟨rfl, rfl⟩
  · exact ⟨rfl, rfl⟩
  · cases meanwhile
  · cases meanwhile
  · exact ⟨rfl, rfl⟩
  · exact ⟨rfl, rfl⟩
  · exact ⟨rfl, rfl⟩
  · cases meanwhile
  · cases meanwhile
  · cases meanwhile
  · exact ⟨rfl, rfl⟩
  · exact ⟨rfl, rfl⟩
  · exact ⟨rfl, rfl⟩
  · rename_i host stored running phase
    cases stored with
    | true => exact ⟨rfl, rfl⟩
    | false => exact ⟨rfl, rfl⟩
  · exact ⟨rfl, rfl⟩

omit [ScoreArith Score] in
/-- The new daemon puts its configuration in force before anything else. -/
theorem inForce_of_applied
    {cfg : Config}
    {profile : Option String}
    {attempt : Attempt}
    {before after : World Score}
    (accepted : cfg.validate = .ok ())
    (enforced : cfg.enforce = true)
    (fresh : before.kernel = .fresh)
    (applied :
      (applyConfig attempt cfg (cfg.policy profile)).run before =
        .ok () after) :
    InForce cfg profile after := by
  obtain ⟨compiled, blocked, compiles, readable⟩ :=
    compiled_of_accepted accepted profile
  have enforce := (settings_of_ok compiles readable applied).1
  rw [enforced] at enforce
  exact
    { enforce := enforce
      rules :=
        ⟨compiled, compiles,
          holds_of_fresh accepted fresh compiles applied⟩ }

omit [ScoreArith Score] in
theorem inForce_udpMode
    {cfg : Config}
    {profile : Option String}
    {system : System Score}
    (inForce : InForce cfg profile system.world)
    (strict : Bool) :
    InForce cfg profile (system.udpMode strict).world :=
  inForce.of_same rfl (System.udpMode_enforce strict system)

section

variable
  {cfg : Config}
  {profile : Option String}
  {running : World Score}
  {takeover : Takeover Score}

omit [ScoreArith Score] in
/-- Nothing changes but the daemon's own data and the stage. -/
theorem Guarded.of_same
    (guarded : Guarded cfg profile running takeover)
    {next : Takeover Score}
    (sameOld : next.old = takeover.old)
    (sameAttached : next.attached = takeover.attached)
    (prepared :
      next.stage.isPrepared = true ↔ takeover.stage.isPrepared = true)
    (notLoaded : next.stage = .loaded → takeover.stage = .loaded)
    (sameRules :
      next.system.world.kernel = takeover.system.world.kernel)
    (sameEnforce :
      next.system.world.settings cfgEnforce =
        takeover.system.world.settings cfgEnforce) :
    Guarded cfg profile running next where
  old := sameOld.trans guarded.old
  loaded isLoaded :=
    sameRules.trans (guarded.loaded (notLoaded isLoaded))
  attached other :=
    prepared.mpr (guarded.attached (sameAttached ▸ other))
  prepared isPrepared :=
    (guarded.prepared (prepared.mp isPrepared)).of_same sameRules
      sameEnforce

omit [ScoreArith Score] in
/-- Once the configuration is in force, anything may be attached. -/
theorem Guarded.of_inForce
    {next : Takeover Score}
    (sameOld : next.old = running)
    (isPrepared : next.stage.isPrepared = true)
    (inForce : InForce cfg profile next.system.world) :
    Guarded cfg profile running next where
  old := sameOld
  loaded isLoaded := by
    rw [isLoaded] at isPrepared
    cases isPrepared
  attached _ := isPrepared
  prepared _ := inForce

/-- Whatever step comes next, whoever is attached has rules in force. -/
theorem guarded_step
    (accepted : cfg.validate = .ok ())
    (enforced : cfg.enforce = true)
    (event : TakeoverEvent)
    (guarded : Guarded cfg profile running takeover) :
    Guarded cfg profile running (takeover.step cfg profile event) := by
  have inForce
      (isPrepared : takeover.stage.isPrepared = true) :
      InForce cfg profile takeover.system.world :=
    guarded.prepared isPrepared
  unfold step
  split
  · rename_i stage
    exact
      { old := guarded.old
        loaded := fun _ => rfl
        attached := fun other => by
          have isPrepared := guarded.attached other
          rw [stage] at isPrepared
          cases isPrepared
        prepared := fun isPrepared => by
          cases isPrepared }
  · rename_i attempt stage
    split
    · rename_i applied
      exact .of_inForce guarded.old rfl
        (inForce_of_applied accepted enforced (guarded.loaded stage)
          applied)
    · exact
        { old := guarded.old
          loaded := fun isLoaded => by
            cases isLoaded
          attached := fun other => by
            have isPrepared := guarded.attached other
            rw [stage] at isPrepared
            cases isPrepared
          prepared := fun isPrepared => by
            cases isPrepared }
  · rename_i event
    split
    · rename_i meanwhile
      obtain ⟨sameRules, sameSettings⟩ :=
        rules_of_meanwhile takeover.system meanwhile
      exact guarded.of_same rfl rfl Iff.rfl id sameRules
        (congrFun sameSettings cfgEnforce)
    · exact guarded
  · rename_i input stage
    split
    · rename_i phase isPrepared
      exact .of_inForce guarded.old (isPrepared_withFeeds isPrepared)
        (guarded.prepared isPrepared)
    · exact guarded
  · rename_i works stage
    exact .of_inForce guarded.old rfl (inForce (by rw [stage]; rfl))
  · rename_i works egress stage
    have isPrepared : takeover.stage.isPrepared = true := by
      rw [stage]
      rfl
    split
    · split
      · exact .of_inForce guarded.old rfl (inForce isPrepared)
      · exact .of_inForce guarded.old isPrepared (inForce isPrepared)
    · exact guarded
  · rename_i works egress stage
    have isPrepared : takeover.stage.isPrepared = true := by
      rw [stage]
      rfl
    split
    · split
      · exact .of_inForce guarded.old rfl (inForce isPrepared)
      · exact .of_inForce guarded.old rfl (inForce isPrepared)
    · exact guarded
  · rename_i works egress stage
    split
    · exact guarded.of_same rfl rfl Iff.rfl id rfl
        (System.udpMode_enforce _ takeover.system)
    · exact guarded
  · rename_i works stage
    have strictInForce := inForce (by rw [stage]; rfl)
    refine .of_inForce guarded.old rfl ?_
    split
    · exact inForce_udpMode strictInForce false
    · exact strictInForce
  · rename_i works stage
    split
    · exact guarded.of_same rfl rfl Iff.rfl id rfl
        (System.udpMode_enforce _ takeover.system)
    · exact guarded
  · exact guarded

/-- The invariant of a restart, from the rules in force before it. -/
theorem guarded_after
    {system : System Score}
    (accepted : cfg.validate = .ok ())
    (enforced : cfg.enforce = true)
    (events : List TakeoverEvent) :
    Guarded cfg profile system.world
      (after cfg profile system events) := by
  induction events using List.reverseRecOn with
  | nil =>
      exact
        { old := rfl
          loaded := fun isLoaded => by
            cases isLoaded
          attached := fun other => absurd rfl other
          prepared := fun isPrepared => by
            cases isPrepared }
  | append_singleton past event inductionHypothesis =>
      rw [after, run_concat]
      exact guarded_step accepted enforced event inductionHypothesis

variable
  {helpers : Helpers}
  {maps : KernelMaps}
  {source : Source}
  {flow : Flow}

omit [ScoreArith Score] in
/-- UDP to the ports of a DHCP client is refused by no policy. -/
theorem notDhcp_of_refuses
    (accepted : cfg.validate = .ok ())
    (inForce : InForce cfg profile running)
    (isRules :
      maps.udpAllow = (running.kernel.ports .udp).entries ∧
        maps.allowFromUdp = (running.kernel.tries .udp).nodes)
    (isUdp : flow.proto = protoUdp)
    (refused : (judge helpers maps source flow false).allowed = false) :
    flow.dstPort ∉ dhcpClientPorts := by
  intro isDhcp
  obtain ⟨compiled, compiles, holds⟩ := inForce.rules
  have rules :=
    ((Config.validate_ok.mp accepted).policy profile).rules
  have isOpen :
      (portOpen (running.kernel.ports .udp).entries flow.dstPort ||
          allowedFrom (running.kernel.tries .udp).nodes source
            flow.dstPort) = true :=
    (letsIn_iff compiles rules holds).mpr (.inr ⟨rfl, isDhcp⟩)
  rw [judge_allowed_of_udp isUdp, isRules.1, isRules.2, isOpen,
    Bool.or_true] at refused
  cases refused

omit [ScoreArith Score] in
/-- The new program lets in what finds a gap, and nothing else refused. -/
theorem allowed_iff_findsGap
    (accepted : cfg.validate = .ok ())
    (inForce : InForce cfg profile running)
    (isTcpRules :
      maps.tcpAllow = (running.kernel.ports .tcp).entries ∧
        maps.allowFromTcp = (running.kernel.tries .tcp).nodes)
    (isUdpRules :
      maps.udpAllow = (running.kernel.ports .udp).entries ∧
        maps.allowFromUdp = (running.kernel.tries .udp).nodes)
    (isNew :
      flow.proto = protoTcp ∧ opener flow.tcpFlags = true ∨
        flow.proto = protoUdp)
    (notDhcp :
      flow.proto = protoUdp → flow.dstPort ∉ dhcpClientPorts) :
    (judge helpers maps source flow false).allowed = true ↔
      FindsGap cfg profile helpers maps source flow := by
  obtain ⟨compiled, compiles, holds⟩ := inForce.rules
  have rules :=
    ((Config.validate_ok.mp accepted).policy profile).rules
  unfold FindsGap
  rcases isNew with ⟨isTcp, isOpener⟩ | isUdp
  · have notUdp : flow.proto ≠ protoUdp := by
      rw [isTcp]
      decide
    rw [judge_allowed_of_anyOpener isTcp isOpener, isTcpRules.1,
      isTcpRules.2, letsIn_iff compiles rules holds,
      or_iff_left (fun dhcp : Proto.tcp = Proto.udp ∧ _ => by
        cases dhcp.1),
      or_iff_right (fun udp => notUdp udp.1), and_iff_right isTcp]
  · rw [judge_allowed_of_udp isUdp, isUdpRules.1, isUdpRules.2,
      Bool.false_or, Bool.or_eq_true, letsIn_iff compiles rules holds,
      or_iff_left (fun dhcp : Proto.udp = Proto.udp ∧ _ =>
        notDhcp isUdp dhcp.2),
      or_iff_left (fun tcp : _ ∧ _ => notTcp_of_udp isUdp tcp.1),
      and_iff_right isUdp]

/--
Whatever a restart has done so far, a packet that the rules in force refuse
is dropped if and only if the old program is still attached, or the new one
and the packet finds no gap: a high UDP port before `CFG_UDP_STRICT` is set,
a rate counted anew, a port of another profile.
-/
theorem restart_gap_iff
    (accepted : cfg.validate = .ok ())
    (enforced : cfg.enforce = true)
    {system : System Score}
    {runningProfile : Option String}
    (inForce : InForce cfg runningProfile system.world)
    (events : List TakeoverEvent)
    (isAfter : after cfg profile system events = takeover)
    (olds news : KernelMaps)
    {frame : Frame}
    {version : IpVersion}
    {proto : U8}
    {l4 : Nat}
    (found : frame.transport = some (version, proto, l4))
    (shown : parseL4 proto frame l4 = some flow)
    (refused :
      Refuses helpers (takeover.oldMaps olds) (frame.source version) flow)
    (unasked :
      flow.proto = protoUdp →
      isReply helpers (takeover.attachedMaps olds news) frame flow
        version = false) :
    takeover.verdict helpers olds news frame = .drop ↔
      takeover.NoGapFor cfg profile helpers news frame version flow := by
  have guarded :
      Guarded cfg profile system.world takeover :=
    isAfter ▸ guarded_after accepted enforced events
  obtain ⟨isNew, notAllowed⟩ := refused
  have isOld := guarded.old
  cases attached : takeover.attached with
  | old =>
      have enforcedHere :
          (takeover.oldMaps olds).config cfgEnforce = 1 :=
        (congrArg (fun world => world.settings cfgEnforce) isOld).trans
          inForce.enforce
      simp only [attachedMaps, attached] at unasked
      simp only [verdict, NoGapFor, attached]
      exact iff_of_true
        ((drop_iff_of_unasked enforcedHere found shown unasked).mpr
          (.inr notAllowed))
        trivial
  | new =>
      have newInForce :
          InForce cfg profile takeover.system.world :=
        guarded.prepared
          (guarded.attached (by rw [attached]; decide))
      have notDhcp
          (isUdp : flow.proto = protoUdp) :
          flow.dstPort ∉ dhcpClientPorts :=
        notDhcp_of_refuses accepted inForce
          (by rw [← isOld]; exact ⟨rfl, rfl⟩) isUdp notAllowed
      simp only [attachedMaps, attached] at unasked
      simp only [verdict, NoGapFor, attached]
      rw [drop_iff_of_unasked newInForce.enforce found shown unasked,
        ← allowed_iff_findsGap accepted newInForce ⟨rfl, rfl⟩ ⟨rfl, rfl⟩
          isNew notDhcp,
        Bool.not_eq_true]
  | nothing =>
      simp only [verdict, NoGapFor, attached]
      exact iff_of_false (fun dropped => by cases dropped) id

end

end

/-- The defaults in force, strict UDP among them. -/
def strictSystem : System ℚ where
  world :=
    (ruleStep ⟨fun _ => 0, .fresh, freshShared⟩
      (.call (refusing fun _ => false) .default none)).setUdpStrict .default
  file := .default
  phase := .running .default

theorem strictSystem_inForce :
    InForce .default none strictSystem.world := by
  have applied :
      InForce Config.default none
        (ruleStep ⟨fun _ => 0, .fresh, freshShared⟩
          (.call (refusing fun _ => false) .default none)) :=
    inForce_of_applied Config.validate_default (by decide) rfl
      (ran_of_finished (by decide +kernel))
  have other : cfgEnforce ≠ cfgUdpStrict := by
    decide
  have sameEnforce :
      strictSystem.world.settings cfgEnforce =
        (ruleStep ⟨fun _ => 0, .fresh, freshShared⟩
          (.call (refusing fun _ => false) .default none)).settings
          cfgEnforce :=
    Function.update_of_ne other (1 : U32) _
  exact applied.of_same rfl sameEnforce

/-- A restart up to the swap; strict UDP is set next. -/
def untilSwap : List TakeoverEvent :=
  [.load,
    .applyConfig (refusing fun _ => false),
    .daemon (.restored (clockedHost 1000 1000000) [] []),
    .loadFeeds ⟨.default, [], [], ∅, .insertion⟩,
    .attachEgress true,
    .swapFilter true]

/-- UDP that the rules in force refuse passes the program swapped in. -/
theorem strict_udp_passes_after_swap :
    Config.default.validate = .ok () ∧
      Config.default.enforce = true ∧
      InForce .default none strictSystem.world ∧
      (highUdp 0x0a000005).transport = some (.v4, protoUdp, 34) ∧
      parseL4 protoUdp (highUdp 0x0a000005) 34 = some highFlow ∧
      Refuses quietHelpers
        ((after .default none strictSystem untilSwap).oldMaps .fresh)
        ((highUdp 0x0a000005).source .v4) highFlow ∧
      isReply quietHelpers
          ((after .default none strictSystem untilSwap).attachedMaps .fresh
            .fresh)
          (highUdp 0x0a000005) highFlow .v4 = false ∧
      (after .default none strictSystem untilSwap).verdict quietHelpers
          .fresh .fresh (highUdp 0x0a000005) = .pass :=
  ⟨Config.validate_default, by decide, strictSystem_inForce,
    highUdp_transport _, highUdp_flow _,
    ⟨.inr rfl, by decide +kernel⟩, by decide +kernel, by decide +kernel⟩

/-- The tick after the swap has set strict UDP. -/
def untilStrict : List TakeoverEvent :=
  untilSwap ++ [.setStrict true]

/-- Once strict UDP is set, the same packet is dropped. -/
theorem strict_udp_is_dropped_again :
    (after .default none strictSystem untilStrict).verdict quietHelpers
      .fresh .fresh (highUdp 0x0a000005) = .drop := by
  have refused :
      Refuses quietHelpers
        ((after .default none strictSystem untilStrict).oldMaps .fresh)
        ((highUdp 0x0a000005).source .v4) highFlow :=
    ⟨.inr rfl, by decide +kernel⟩
  have unasked :
      isReply quietHelpers
          ((after .default none strictSystem untilStrict).attachedMaps
            .fresh .fresh)
          (highUdp 0x0a000005) highFlow .v4 = false := by
    decide +kernel
  have attached :
      (after .default none strictSystem untilStrict).attached = .new := by
    decide +kernel
  have strict :
      looseReply
          ((after .default none strictSystem untilStrict).newMaps .fresh)
          0xffff = false := by
    decide +kernel
  have restart :=
    restart_gap_iff Config.validate_default (by decide)
      strictSystem_inForce untilStrict rfl .fresh .fresh
      (highUdp_transport _) (highUdp_flow _) refused (fun _ => unasked)
  rw [restart, NoGapFor, attached]
  right
  rintro (⟨_, loose | letsIn⟩ | ⟨isTcp, _⟩)
  · rw [show highFlow.dstPort = 0xffff from rfl, strict] at loose
    cases loose
  · refine not_letsIn (fun proto => ?_) rfl letsIn
    cases proto with
    | tcp => rfl
    | udp => rfl
  · cases isTcp

end Takeover

end AiFirewall
