import AiFirewall.DaemonSteps
import AiFirewall.PolicyCompile

namespace AiFirewall

/-!
# Applying a configuration

`apply_config` with its loops.  Any kernel write can be refused: the call
then ends with an error, and the writes before it stay.  Where the source
ignores the result of a removal, the call goes on.  The rule maps are written
as differences against what was last written to them.
-/

open FallibleWrites

/-- A port array, with the ports last opened in it. -/
structure PortMap where
  entries : U16 → U8
  openPorts : HashSet U16

/-- A rule trie, with the keys last written to it. -/
structure RuleTrie where
  nodes : PrefixTrie 4096
  keys : HashSet (U32 × RuleKey)

/-- The array of limits, with the limits last written to it. -/
structure RateMap where
  entries : U16 → U32
  rateSet : Table U16 U32

/-- The rule maps in the kernel, with what was last written to them. -/
structure Kernel where
  ports : Proto → PortMap
  tries : Proto → RuleTrie
  rate : RateMap

namespace Kernel

/-- Maps as the loader creates them. -/
def fresh : Kernel where
  ports _ := ⟨fun _ => 0, .empty⟩
  tries _ := ⟨.empty, .empty⟩
  rate := ⟨fun _ => 0, ∅⟩

end Kernel

/-- What `apply_config` works on. -/
structure World (Score : Type) where
  /-- `CONFIG`. -/
  settings : Fin 4 → U32
  kernel : Kernel
  shared : Shared Score

/-- A write to a kernel map. -/
inductive MapWrite where
  | setting (slot : Fin 4) (value : U32)
  | setPort (proto : Proto) (port : U16) (value : U8)
  | insertKey (proto : Proto) (key : U32 × RuleKey)
  | removeKey (proto : Proto) (key : U32 × RuleKey)
  | setRate (port : U16) (packed : U32)
  deriving DecidableEq

/-- What the environment decides about one call. -/
structure Attempt where
  host : Host
  /-- The order in which sets and maps are walked through. -/
  order : IterOrder
  /-- `net::ephemeral_low`. -/
  ephemeralLow : U32
  /-- The writes that the kernel refuses. -/
  refuses : MapWrite → Bool

/-- One step of `apply_config`. -/
inductive ConfigStep where
  /-- A write whose failure ends the call. -/
  | mapWrite (write : MapWrite)
  /-- A removal whose failure is ignored. -/
  | dropKey (proto : Proto) (key : U32 × RuleKey)
  | rememberPorts (proto : Proto) (wanted : HashSet U16)
  | rememberKeys (proto : Proto) (wanted : HashSet (U32 × RuleKey))
  | rememberRates (rates : Table U16 U32)
  | reconfigure (cfg : Config)
  | lift (ip : Src)
  | block (ip : Src)
  | markDirty

/-- Why a call failed. -/
inductive ApplyError where
  | refused (step : ConfigStep)
  | invalid (error : Error)

/-- The bits of a trie key. -/
def trieBits (key : U32 × RuleKey) : List Bool :=
  triePrefix key.1.toNat key.2.toList

/-- The record of an address that the config blocks. -/
def configRecord : BanRecord :=
  ⟨"blocked in config", "config", 0⟩

section

variable {Score : Type}

namespace World

def setPorts
    (world : World Score)
    (proto : Proto)
    (ports : PortMap) : World Score :=
  { world with
    kernel :=
      { world.kernel with
        ports := Function.update world.kernel.ports proto ports } }

def setTrie
    (world : World Score)
    (proto : Proto)
    (trie : RuleTrie) : World Score :=
  { world with
    kernel :=
      { world.kernel with
        tries := Function.update world.kernel.tries proto trie } }

def setRate (world : World Score) (rate : RateMap) : World Score :=
  { world with kernel := { world.kernel with rate := rate } }

/-- The kernel maps a packet meets; `others` are those left alone here. -/
def maps (world : World Score) (others : KernelMaps) : KernelMaps :=
  { others with
    blocklist := world.shared.blocklist.v4
    blocklist6 := world.shared.blocklist.v6.getD others.blocklist6
    tcpAllow := (world.kernel.ports .tcp).entries
    udpAllow := (world.kernel.ports .udp).entries
    allowFromTcp := (world.kernel.tries .tcp).nodes
    allowFromUdp := (world.kernel.tries .udp).nodes
    tcpRate := world.kernel.rate.entries
    config := world.settings }

end World

/-- What a write that is not refused does; a full trie takes no new key. -/
def MapWrite.effect? (world : World Score) :
    MapWrite → Option (World Score)
  | .setting slot value =>
      some
        { world with
          settings := Function.update world.settings slot value }
  | .setPort proto port value =>
      let ports := world.kernel.ports proto
      some
        (world.setPorts proto
          { ports with entries := Function.update ports.entries port value })
  | .insertKey proto key =>
      let trie := world.kernel.tries proto
      (trie.nodes.insert? (trieBits key)).map fun nodes =>
        world.setTrie proto { trie with nodes := nodes }
  | .removeKey proto key =>
      let trie := world.kernel.tries proto
      (trie.nodes.remove? (trieBits key)).map fun nodes =>
        world.setTrie proto { trie with nodes := nodes }
  | .setRate port packed =>
      let rate := world.kernel.rate
      some
        (world.setRate
          { rate with entries := Function.update rate.entries port packed })

/-- The effect of a step; none when it is refused. -/
def ConfigStep.accept?
    (attempt : Attempt)
    (step : ConfigStep)
    (world : World Score) :
    Option (World Score) :=
  match step with
  | .mapWrite write =>
      if attempt.refuses write then none else write.effect? world
  | .dropKey proto key =>
      let removal := MapWrite.removeKey proto key
      if attempt.refuses removal then
        some world
      else
        some ((removal.effect? world).getD world)
  | .rememberPorts proto wanted =>
      some
        (world.setPorts proto
          { world.kernel.ports proto with openPorts := wanted })
  | .rememberKeys proto wanted =>
      some
        (world.setTrie proto
          { world.kernel.tries proto with keys := wanted })
  | .rememberRates rates =>
      some (world.setRate { world.kernel.rate with rateSet := rates })
  | .reconfigure cfg =>
      some
        { world with
          shared :=
            { world.shared with
              enforce := cfg.enforce
              notifyBans := cfg.notifyBans
              detector :=
                world.shared.detector.reconfigure cfg.detector cfg.bans } }
  | .lift ip =>
      some
        { world with
          shared :=
            { world.shared with
              blocklist := world.shared.blocklist.drop attempt.host ip
              records := world.shared.records.erase ip } }
  | .block ip =>
      (world.shared.blocklist.insert? attempt.host ip
          (expiryFor attempt.host 0)).map fun blocklist =>
        { world with
          shared :=
            { world.shared with
              blocklist := blocklist
              records := world.shared.records.insert ip configRecord } }
  | .markDirty =>
      some { world with shared := { world.shared with dirty := true } }

def perform (attempt : Attempt) (step : ConfigStep) :
    EStateM ApplyError (World Score) Unit :=
  write (step.accept? attempt) (.refused step)

def performAll (attempt : Attempt) (steps : List ConfigStep) :
    EStateM ApplyError (World Score) Unit :=
  forM steps (perform attempt)

/-- `?` on a result that depends on nothing but the configuration. -/
def orInvalid {Value : Type} :
    Except Error Value → EStateM ApplyError (World Score) Value
  | .ok value => pure value
  | .error error => throw (.invalid error)

/-- The loops of `sync_ports`. -/
def portSteps
    (attempt : Attempt)
    (proto : Proto)
    (wanted openPorts : HashSet U16) : List ConfigStep :=
  let closed := attempt.order.visit (openPorts.difference wanted)
  let opened := attempt.order.visit (wanted.difference openPorts)
  closed.map (fun port => .mapWrite (.setPort proto port 0)) ++
    opened.map (fun port => .mapWrite (.setPort proto port 1)) ++
    [.rememberPorts proto wanted]

def syncPorts
    (attempt : Attempt)
    (proto : Proto)
    (wanted : HashSet U16) :
    EStateM ApplyError (World Score) Unit := do
  let world ← get
  performAll attempt
    (portSteps attempt proto wanted (world.kernel.ports proto).openPorts)

/-- The loops of `sync_trie`. -/
def trieSteps
    (attempt : Attempt)
    (proto : Proto)
    (wanted keys : HashSet (U32 × RuleKey)) : List ConfigStep :=
  let removed := attempt.order.visit (keys.difference wanted)
  let added := attempt.order.visit (wanted.difference keys)
  removed.map (fun key => .dropKey proto key) ++
    added.map (fun key => .mapWrite (.insertKey proto key)) ++
    [.rememberKeys proto wanted]

def syncTrie
    (attempt : Attempt)
    (proto : Proto)
    (wanted : HashSet (U32 × RuleKey)) :
    EStateM ApplyError (World Score) Unit := do
  let world ← get
  performAll attempt
    (trieSteps attempt proto wanted (world.kernel.tries proto).keys)

/-- The loops over `TCP_RATE`. -/
def rateSteps
    (attempt : Attempt)
    (rates rateSet : Table U16 U32) : List ConfigStep :=
  let gone :=
    attempt.order.visit
      (rateSet.toList.filter fun entry => entry.1 ∉ rates)
  gone.map (fun entry => .mapWrite (.setRate entry.1 0)) ++
    (attempt.order.visit rates.toList).map
      (fun entry => .mapWrite (.setRate entry.1 entry.2)) ++
    [.rememberRates rates]

def syncRates (attempt : Attempt) (rates : Table U16 U32) :
    EStateM ApplyError (World Score) Unit := do
  let world ← get
  performAll attempt (rateSteps attempt rates world.kernel.rate.rateSet)

/-- Every address of the blocked networks. -/
def listedSources (blocked : List Cidr) : HashSet Src :=
  .ofList
    (blocked.flatMap fun cidr =>
      (List.range ((~~~cidr.mask).toNat + 1)).map fun offset =>
        .v4 (BitVec.ofNat 32 (cidr.net.toNat + offset)))

/-- Addresses that the config blocked before and does not list any more. -/
def staleSources
    (records : Table Src BanRecord)
    (listed : HashSet Src) : List Src :=
  (records.toList.filter fun entry =>
    entry.2.source = "config" && entry.1 ∉ listed).map Prod.fst

/-- Config bans are permanent; those removed from the file are lifted. -/
def blockSteps
    (attempt : Attempt)
    (blocked : List Cidr)
    (records : Table Src BanRecord) : List ConfigStep :=
  let listed := listedSources blocked
  (attempt.order.visit (staleSources records listed)).map .lift ++
    (attempt.order.visit listed.elems).map .block ++
    [.markDirty]

def syncBlocked (attempt : Attempt) (blocked : List Cidr) :
    EStateM ApplyError (World Score) Unit := do
  let world ← get
  performAll attempt (blockSteps attempt blocked world.shared.records)

/-- The three settings a configuration decides. -/
def settingSteps
    (attempt : Attempt)
    (cfg : Config)
    (policy : Policy) : List ConfigStep :=
  [.mapWrite (.setting cfgEnforce (if cfg.enforce then 1 else 0)),
    .mapWrite (.setting cfgEphemeralLow attempt.ephemeralLow),
    .mapWrite (.setting cfgDropPing (if policy.allowPing then 0 else 1))]

def applyConfig
    (attempt : Attempt)
    (cfg : Config)
    (policy : Policy) :
    EStateM ApplyError (World Score) Unit := do
  performAll attempt (settingSteps attempt cfg policy)
  let compiled ← orInvalid (compile policy)
  syncPorts attempt .tcp compiled.tcp
  syncPorts attempt .udp compiled.udp
  syncTrie attempt .tcp compiled.fromTcp
  syncTrie attempt .udp compiled.fromUdp
  syncRates attempt compiled.rates
  perform attempt (.reconfigure cfg)
  let blocked ← orInvalid cfg.blockedCidrs
  syncBlocked attempt blocked

/-- The parts of the world; every step works on one of them. -/
inductive Part where
  | settings
  | ports (proto : Proto)
  | trie (proto : Proto)
  | rate
  | shared
  deriving DecidableEq

namespace Part

def Value (Score : Type) : Part → Type
  | .settings => Fin 4 → U32
  | .ports _ => PortMap
  | .trie _ => RuleTrie
  | .rate => RateMap
  | .shared => Shared Score

/-- In the order in which a call comes to them. -/
def all : List Part :=
  [.settings, .ports .tcp, .ports .udp, .trie .tcp, .trie .udp, .rate,
    .shared]

theorem nodup_all : all.Nodup := by
  decide

theorem mem_all (part : Part) : part ∈ all := by
  cases part with
  | settings => decide
  | ports proto => cases proto <;> decide
  | trie proto => cases proto <;> decide
  | rate => decide
  | shared => decide

end Part

def World.get (world : World Score) : (part : Part) → part.Value Score
  | .settings => world.settings
  | .ports proto => world.kernel.ports proto
  | .trie proto => world.kernel.tries proto
  | .rate => world.kernel.rate
  | .shared => world.shared

def MapWrite.part : MapWrite → Part
  | .setting _ _ => .settings
  | .setPort proto _ _ => .ports proto
  | .insertKey proto _ => .trie proto
  | .removeKey proto _ => .trie proto
  | .setRate _ _ => .rate

def ConfigStep.part : ConfigStep → Part
  | .mapWrite write => write.part
  | .dropKey proto _ => .trie proto
  | .rememberPorts proto _ => .ports proto
  | .rememberKeys proto _ => .trie proto
  | .rememberRates _ => .rate
  | .reconfigure _ => .shared
  | .lift _ => .shared
  | .block _ => .shared
  | .markDirty => .shared

/-- The steps of a call on one part, told from the state it starts in. -/
def segment
    (attempt : Attempt)
    (cfg : Config)
    (policy : Policy)
    (compiled : Compiled)
    (blocked : List Cidr)
    (world : World Score) :
    Part → List ConfigStep
  | .settings => settingSteps attempt cfg policy
  | .ports proto =>
      portSteps attempt proto (compiled.ports proto)
        (world.kernel.ports proto).openPorts
  | .trie proto =>
      trieSteps attempt proto (compiled.keys proto)
        (world.kernel.tries proto).keys
  | .rate => rateSteps attempt compiled.rates world.kernel.rate.rateSet
  | .shared =>
      [.reconfigure cfg] ++
        blockSteps attempt blocked world.shared.records

/-- Every step of a call, in order, told from the state it starts in. -/
def plan
    (attempt : Attempt)
    (cfg : Config)
    (policy : Policy)
    (compiled : Compiled)
    (blocked : List Cidr)
    (world : World Score) : List ConfigStep :=
  Part.all.flatMap (segment attempt cfg policy compiled blocked world)

section

variable
  {attempt : Attempt}
  {cfg : Config}
  {policy : Policy}
  {compiled : Compiled}
  {blocked : List Cidr}
  {before after world : World Score}
  {part other : Part}

theorem get_setPorts
    (proto : Proto)
    (ports : PortMap)
    (different : part ≠ .ports proto) :
    (world.setPorts proto ports).get part = world.get part := by
  cases part with
  | ports other =>
      have differentProto : other ≠ proto :=
        fun same => different (congrArg Part.ports same)
      exact Function.update_of_ne differentProto _ _
  | settings => rfl
  | trie other => rfl
  | rate => rfl
  | shared => rfl

theorem get_setTrie
    (proto : Proto)
    (trie : RuleTrie)
    (different : part ≠ .trie proto) :
    (world.setTrie proto trie).get part = world.get part := by
  cases part with
  | trie other =>
      have differentProto : other ≠ proto :=
        fun same => different (congrArg Part.trie same)
      exact Function.update_of_ne differentProto _ _
  | settings => rfl
  | ports other => rfl
  | rate => rfl
  | shared => rfl

theorem get_setRate
    (rate : RateMap)
    (different : part ≠ .rate) :
    (world.setRate rate).get part = world.get part := by
  cases part with
  | rate => exact absurd rfl different
  | settings => rfl
  | ports other => rfl
  | trie other => rfl
  | shared => rfl

theorem get_setShared
    (shared : Shared Score)
    (different : part ≠ .shared) :
    ({ world with shared := shared } : World Score).get part =
      world.get part := by
  cases part with
  | shared => exact absurd rfl different
  | settings => rfl
  | ports other => rfl
  | trie other => rfl
  | rate => rfl

/-- A kernel write leaves every part but its own alone. -/
theorem get_of_effect?
    {write : MapWrite}
    (applied : write.effect? before = some after)
    (different : part ≠ write.part) :
    after.get part = before.get part := by
  cases write with
  | setting slot value =>
      cases applied
      cases part with
      | settings => exact absurd rfl different
      | ports other => rfl
      | trie other => rfl
      | rate => rfl
      | shared => rfl
  | setPort proto port value =>
      cases applied
      exact get_setPorts proto _ different
  | insertKey proto key =>
      obtain ⟨nodes, _, same⟩ := Option.map_eq_some_iff.mp applied
      subst same
      exact get_setTrie proto _ different
  | removeKey proto key =>
      obtain ⟨nodes, _, same⟩ := Option.map_eq_some_iff.mp applied
      subst same
      exact get_setTrie proto _ different
  | setRate port packed =>
      cases applied
      exact get_setRate _ different

/-- A step leaves every part but its own alone. -/
theorem get_of_accept?
    {step : ConfigStep}
    (accepted : step.accept? attempt before = some after)
    (different : part ≠ step.part) :
    after.get part = before.get part := by
  cases step with
  | mapWrite write =>
      simp only [ConfigStep.accept?] at accepted
      split at accepted
      · cases accepted
      · exact get_of_effect? accepted different
  | dropKey proto key =>
      simp only [ConfigStep.accept?] at accepted
      split at accepted
      · cases accepted
        rfl
      · cases applied : (MapWrite.removeKey proto key).effect? before with
        | none =>
            rw [applied] at accepted
            cases accepted
            rfl
        | some changed =>
            rw [applied] at accepted
            cases accepted
            exact get_of_effect? applied different
  | rememberPorts proto wanted =>
      cases accepted
      exact get_setPorts proto _ different
  | rememberKeys proto wanted =>
      cases accepted
      exact get_setTrie proto _ different
  | rememberRates rates =>
      cases accepted
      exact get_setRate _ different
  | reconfigure cfg =>
      cases accepted
      exact get_setShared _ different
  | lift ip =>
      cases accepted
      exact get_setShared _ different
  | block ip =>
      obtain ⟨blocklist, _, same⟩ := Option.map_eq_some_iff.mp accepted
      subst same
      exact get_setShared _ different
  | markDirty =>
      cases accepted
      exact get_setShared _ different

/-- The steps of a segment work on the segment's part. -/
theorem part_of_mem_segment
    {step : ConfigStep}
    (member :
      step ∈ segment attempt cfg policy compiled blocked world part) :
    step.part = part := by
  cases part with
  | settings =>
      simp only [segment, settingSteps, List.mem_cons, List.not_mem_nil,
        or_false] at member
      rcases member with rfl | rfl | rfl <;> rfl
  | ports proto =>
      simp only [segment, portSteps, List.mem_append, List.mem_map,
        List.mem_singleton] at member
      rcases member with (⟨_, _, rfl⟩ | ⟨_, _, rfl⟩) | rfl <;> rfl
  | trie proto =>
      simp only [segment, trieSteps, List.mem_append, List.mem_map,
        List.mem_singleton] at member
      rcases member with (⟨_, _, rfl⟩ | ⟨_, _, rfl⟩) | rfl <;> rfl
  | rate =>
      simp only [segment, rateSteps, List.mem_append, List.mem_map,
        List.mem_singleton] at member
      rcases member with (⟨_, _, rfl⟩ | ⟨_, _, rfl⟩) | rfl <;> rfl
  | shared =>
      simp only [segment, blockSteps, List.mem_append, List.mem_map,
        List.mem_singleton] at member
      rcases member with rfl | (⟨_, _, rfl⟩ | ⟨_, _, rfl⟩) | rfl <;> rfl

/-- The steps of a plan on one part are those of the part's segment. -/
theorem mem_plan_iff
    {step : ConfigStep}
    (isPart : step.part = part) :
    step ∈ plan attempt cfg policy compiled blocked world ↔
      step ∈ segment attempt cfg policy compiled blocked world part := by
  rw [plan, List.mem_flatMap]
  constructor
  · rintro ⟨other, _, inSegment⟩
    have same := (part_of_mem_segment inSegment).symm.trans isPart
    rwa [← same]
  · intro member
    exact ⟨part, Part.mem_all _, member⟩

/-- What a segment plans depends on its own part only. -/
theorem segment_congr
    (same : after.get part = before.get part) :
    segment attempt cfg policy compiled blocked after part =
      segment attempt cfg policy compiled blocked before part := by
  cases part with
  | settings => rfl
  | ports proto =>
      exact congrArg (portSteps attempt proto (compiled.ports proto))
        (congrArg PortMap.openPorts same)
  | trie proto =>
      exact congrArg (trieSteps attempt proto (compiled.keys proto))
        (congrArg RuleTrie.keys same)
  | rate =>
      exact congrArg (rateSteps attempt compiled.rates)
        (congrArg RateMap.rateSet same)
  | shared =>
      have records : after.shared.records = before.shared.records :=
        congrArg Shared.records same
      rw [segment, records]
      rfl

/-- A written segment leaves the plans of the other parts as they were. -/
theorem later_segments_stable
    {rest : List Part}
    (written :
      Written (ConfigStep.accept? attempt)
        (segment attempt cfg policy compiled blocked world part)
        before after)
    (apart : part ∉ rest) :
    rest.flatMap (segment attempt cfg policy compiled blocked after) =
      rest.flatMap (segment attempt cfg policy compiled blocked before) := by
  refine List.flatMap_congr fun other member => segment_congr ?_
  refine written.frame (fun world => world.get other) ?_
  intro step inSegment _ _ accepted
  refine get_of_accept? accepted ?_
  rw [part_of_mem_segment inSegment]
  rintro rfl
  exact apart member

/-- With a usable configuration a call performs its plan. -/
theorem applyConfig_planned
    (compiles : compile policy = .ok compiled)
    (readable : cfg.blockedCidrs = .ok blocked)
    (attempt : Attempt) :
    Planned (ConfigStep.accept? attempt) ApplyError.refused
      (applyConfig attempt cfg policy : EStateM _ (World Score) _)
      (plan attempt cfg policy compiled blocked) := by
  let rest (parts : List Part) (world : World Score) : List ConfigStep :=
    parts.flatMap (segment attempt cfg policy compiled blocked world)
  have follow
      {part : Part}
      {parts : List Part}
      {body next : EStateM ApplyError (World Score) Unit}
      (first :
        Planned (ConfigStep.accept? attempt) ApplyError.refused body
          (fun world =>
            segment attempt cfg policy compiled blocked world part))
      (second :
        Planned (ConfigStep.accept? attempt) ApplyError.refused next
          (rest parts))
      (apart : part ∉ parts) :
      Planned (ConfigStep.accept? attempt) ApplyError.refused
        (body >>= fun _ => next) (rest (part :: parts)) :=
    first.seq second fun _ _ written =>
      later_segments_stable written apart
  have shared :
      Planned (ConfigStep.accept? attempt) ApplyError.refused
        (perform attempt (.reconfigure cfg) >>= fun _ =>
          syncBlocked attempt blocked : EStateM _ (World Score) _)
        (rest [.shared]) := by
    have reconfigured :
        Planned (ConfigStep.accept? attempt) ApplyError.refused
          (perform attempt (.reconfigure cfg) : EStateM _ (World Score) _)
          (fun _ => [.reconfigure cfg]) :=
      .single _
    have blocks :
        Planned (ConfigStep.accept? attempt) ApplyError.refused
          (syncBlocked attempt blocked : EStateM _ (World Score) _)
          (fun world =>
            blockSteps attempt blocked world.shared.records) :=
      .read fun _ => .loop _
    have both :=
      reconfigured.seq blocks (by
        intro before after written
        cases written with
        | cons accepted nothing =>
            cases nothing
            cases accepted
            rfl)
    intro world
    have oneSegment :
        rest [.shared] world =
          [.reconfigure cfg] ++
            blockSteps attempt blocked world.shared.records :=
      List.flatMap_singleton _ _
    rw [both world, oneSegment]
  rw [applyConfig, compiles, readable]
  exact follow (.loop _)
    (follow (.read fun _ => .loop _)
      (follow (.read fun _ => .loop _)
        (follow (.read fun _ => .loop _)
          (follow (.read fun _ => .loop _)
            (follow (.read fun _ => .loop _) shared (by decide))
            (by decide))
          (by decide))
        (by decide))
      (by decide))
    (by decide)

/-- A call succeeds exactly when its plan is written. -/
theorem applyConfig_ok_iff
    (compiles : compile policy = .ok compiled)
    (readable : cfg.blockedCidrs = .ok blocked) :
    (applyConfig attempt cfg policy).run before = .ok () after ↔
      Written (ConfigStep.accept? attempt)
        (plan attempt cfg policy compiled blocked before) before after :=
  (applyConfig_planned compiles readable attempt).ok_iff

/-- A call fails exactly when its plan is stopped. -/
theorem applyConfig_error_iff
    (compiles : compile policy = .ok compiled)
    (readable : cfg.blockedCidrs = .ok blocked) :
    (∃ failure,
        (applyConfig attempt cfg policy).run before =
          .error failure after) ↔
      Stopped (ConfigStep.accept? attempt)
        (plan attempt cfg policy compiled blocked before) before after :=
  (applyConfig_planned compiles readable attempt).error_iff

/-- The segments of other parts leave a part alone. -/
theorem get_of_written_segments
    {parts : List Part}
    {first last : World Score}
    (apart : part ∉ parts)
    (written :
      Written (ConfigStep.accept? attempt)
        (parts.flatMap (segment attempt cfg policy compiled blocked world))
        first last) :
    last.get part = first.get part := by
  refine written.frame (fun world => world.get part) ?_
  intro step member _ _ accepted
  obtain ⟨other, inParts, inSegment⟩ := List.mem_flatMap.mp member
  refine get_of_accept? accepted ?_
  rw [part_of_mem_segment inSegment]
  rintro rfl
  exact apart inParts

theorem get_of_stopped_segments
    {parts : List Part}
    {first last : World Score}
    (apart : part ∉ parts)
    (stopped :
      Stopped (ConfigStep.accept? attempt)
        (parts.flatMap (segment attempt cfg policy compiled blocked world))
        first last) :
    last.get part = first.get part := by
  refine stopped.frame (fun world => world.get part) ?_
  intro step member _ _ accepted
  obtain ⟨other, inParts, inSegment⟩ := List.mem_flatMap.mp member
  refine get_of_accept? accepted ?_
  rw [part_of_mem_segment inSegment]
  rintro rfl
  exact apart inParts

/-- A plan is the segment of a part between segments of other parts. -/
theorem plan_around (part : Part) :
    ∃ earlier later : List Part,
      part ∉ earlier ∧ part ∉ later ∧
        plan attempt cfg policy compiled blocked world =
          earlier.flatMap
              (segment attempt cfg policy compiled blocked world) ++
            (segment attempt cfg policy compiled blocked world part ++
              later.flatMap
                (segment attempt cfg policy compiled blocked world)) := by
  obtain ⟨earlier, later, shape⟩ := List.append_of_mem part.mem_all
  have distinct := Part.nodup_all
  rw [shape, List.nodup_middle, List.nodup_cons, List.mem_append,
    not_or] at distinct
  refine ⟨earlier, later, distinct.1.1, distinct.1.2, ?_⟩
  rw [plan, shape, List.flatMap_append, List.flatMap_cons]

/-- How far a call came with the segment of one part. -/
inductive Progress
    (attempt : Attempt)
    (steps segment : List ConfigStep)
    (part : Part)
    (before after : World Score) : Prop where
  | untouched :
      after.get part = before.get part →
      Progress attempt steps segment part before after
  | finished
      {earlier later : List ConfigStep}
      {first last : World Score} :
      steps = earlier ++ (segment ++ later) →
      Written (ConfigStep.accept? attempt) earlier before first →
      first.get part = before.get part →
      Written (ConfigStep.accept? attempt) segment first last →
      last.get part = after.get part →
      Progress attempt steps segment part before after
  | interrupted
      {earlier later : List ConfigStep}
      {first : World Score} :
      steps = earlier ++ (segment ++ later) →
      Written (ConfigStep.accept? attempt) earlier before first →
      first.get part = before.get part →
      Stopped (ConfigStep.accept? attempt) segment first after →
      Progress attempt steps segment part before after

/-- A call that succeeds finishes every part. -/
theorem finished_of_written_plan
    (written :
      Written (ConfigStep.accept? attempt)
        (plan attempt cfg policy compiled blocked before) before after)
    (part : Part) :
    ∃ earlier later first last,
      plan attempt cfg policy compiled blocked before =
          earlier ++
            (segment attempt cfg policy compiled blocked before part ++
              later) ∧
        Written (ConfigStep.accept? attempt) earlier before first ∧
        first.get part = before.get part ∧
        Written (ConfigStep.accept? attempt)
          (segment attempt cfg policy compiled blocked before part)
          first last ∧
        last.get part = after.get part := by
  obtain ⟨earlier, later, notEarlier, notLater, shape⟩ :=
    plan_around part
  rw [shape] at written
  obtain ⟨first, writtenEarlier, rest⟩ := Written.append_iff.mp written
  obtain ⟨last, writtenHere, writtenLater⟩ := Written.append_iff.mp rest
  exact ⟨_, _, first, last, shape, writtenEarlier,
    get_of_written_segments notEarlier writtenEarlier, writtenHere,
    (get_of_written_segments notLater writtenLater).symm⟩

/-- A call that fails is interrupted in one part at most. -/
theorem progress_of_stopped_plan
    (stopped :
      Stopped (ConfigStep.accept? attempt)
        (plan attempt cfg policy compiled blocked before) before after)
    (part : Part) :
    Progress attempt (plan attempt cfg policy compiled blocked before)
      (segment attempt cfg policy compiled blocked before part) part
      before after := by
  obtain ⟨earlier, later, notEarlier, notLater, shape⟩ :=
    plan_around part
  rw [shape] at stopped
  rcases Stopped.append_iff.mp stopped with
    stoppedEarlier | ⟨first, writtenEarlier, rest⟩
  · exact .untouched (get_of_stopped_segments notEarlier stoppedEarlier)
  have same := get_of_written_segments notEarlier writtenEarlier
  rcases Stopped.append_iff.mp rest with
    stoppedHere | ⟨last, writtenHere, stoppedLater⟩
  · exact .interrupted shape writtenEarlier same stoppedHere
  · exact .finished shape writtenEarlier same writtenHere
      (get_of_stopped_segments notLater stoppedLater).symm

end

end

end AiFirewall
