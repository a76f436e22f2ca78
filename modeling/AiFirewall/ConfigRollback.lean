import AiFirewall.RuleSync
import AiFirewall.VerdictReads

namespace AiFirewall

/-!
# What a rejected configuration leaves behind

Nothing is rolled back when a call fails.  What is in force stays exactly
when the steps before the refused one had nothing to change, and then every
packet gets the verdict it would have got before the call.
-/

open FallibleWrites

section

variable
  {Score : Type}
  {attempt : Attempt}
  {cfg : Config}
  {policy : Policy}
  {compiled : Compiled}
  {blocked : List Cidr}
  {before after : World Score}

theorem mem_staleSources
    {records : Table Src BanRecord}
    {listed : HashSet Src}
    {ip : Src} :
    ip ∈ staleSources records listed ↔
      (∃ record ∈ records.lookup ip, record.source = "config") ∧
        ip ∉ listed := by
  simp only [staleSources, List.mem_map, List.mem_filter, Prod.exists,
    Table.mem_toList, Bool.and_eq_true, decide_eq_true_eq, Option.mem_def]
  constructor
  · rintro ⟨other, record, ⟨found, fromConfig, notListed⟩, rfl⟩
    exact ⟨⟨record, found, fromConfig⟩, notListed⟩
  · rintro ⟨⟨record, found, fromConfig⟩, notListed⟩
    exact ⟨ip, record, ⟨found, fromConfig, notListed⟩, rfl⟩

theorem nodup_staleSources
    (records : Table Src BanRecord)
    (listed : HashSet Src) :
    (staleSources records listed).Nodup :=
  records.nodup_toList.sublist (List.filter_sublist.map Prod.fst)

theorem mem_blockSteps
    {records : Table Src BanRecord}
    {step : ConfigStep} :
    step ∈ blockSteps attempt blocked records ↔
      (∃ ip ∈ staleSources records (listedSources blocked),
          .lift ip = step) ∨
        (∃ ip ∈ listedSources blocked, .block ip = step) ∨
        step = .markDirty := by
  simp [blockSteps, HashSet.mem_iff]

/-- Every address is lifted or blocked once at most. -/
theorem distinct_blockSteps
    (records : Table Src BanRecord) :
    (configCells Score attempt).Distinct
      (.reconfigure cfg :: blockSteps attempt blocked records) := by
  have apart :
      (attempt.order.visit
          (staleSources records (listedSources blocked))).Disjoint
        (attempt.order.visit (listedSources blocked).elems) := by
    intro ip stale listed
    rw [IterOrder.mem_visit] at stale listed
    exact (mem_staleSources.mp stale).2 listed
  have sources :=
    List.nodup_append'.mpr
      ⟨(attempt.order.nodup_visit).mpr (nodup_staleSources records _),
        (attempt.order.nodup_visit).mpr (listedSources blocked).nodup,
        apart⟩
  have injective : Function.Injective Place.source :=
    fun _ _ same => by cases same; rfl
  have places := sources.map injective
  rw [List.map_append] at places
  have noDetector :
      Place.detector ∉
        (attempt.order.visit
            (staleSources records (listedSources blocked))).map
            Place.source ++
          (attempt.order.visit (listedSources blocked).elems).map
            Place.source := by
    simp
  have all := List.nodup_cons.mpr ⟨noDetector, places⟩
  simpa [Cells.Distinct, blockSteps, configCells, ConfigStep.place?,
    List.filterMap_map, List.filterMap_cons, Function.comp_def] using all

theorem distinct_segment
    (compiles : compile policy = .ok compiled)
    (canonical : before.kernel.Canonical)
    (part : Part) :
    (configCells Score attempt).Distinct
      (segment attempt cfg policy compiled blocked before part) := by
  cases part with
  | settings =>
      have slots :
          [Place.setting cfgEnforce, Place.setting cfgEphemeralLow,
            Place.setting cfgDropPing].Nodup := by
        decide
      exact slots
  | ports proto => exact distinct_portSteps
  | trie proto =>
      exact distinct_trieSteps (canonical_of_compile compiles proto)
        (canonical proto)
  | rate => exact distinct_rateSteps
  | shared => exact distinct_blockSteps _

/-- No two steps of a call concern one cell. -/
theorem distinct_plan
    (compiles : compile policy = .ok compiled)
    (canonical : before.kernel.Canonical) :
    (configCells Score attempt).Distinct
      (plan attempt cfg policy compiled blocked before) := by
  rw [Cells.Distinct, plan, List.filterMap_flatMap, List.nodup_flatMap]
  refine ⟨fun part _ => distinct_segment compiles canonical part, ?_⟩
  refine Part.nodup_all.imp fun different place inFirst inSecond => ?_
  obtain ⟨first, firstMember, firstPlace⟩ := List.mem_filterMap.mp inFirst
  obtain ⟨second, secondMember, secondPlace⟩ :=
    List.mem_filterMap.mp inSecond
  refine different ?_
  rw [← part_of_mem_segment firstMember, ← part_of_place? firstPlace,
    part_of_place? secondPlace, part_of_mem_segment secondMember]

theorem v6_isSome_of_accept?
    {step : ConfigStep}
    (accepted : step.accept? attempt before = some after) :
    after.shared.blocklist.v6.isSome =
      before.shared.blocklist.v6.isSome := by
  by_cases inShared : Part.shared = step.part
  · cases step with
    | mapWrite write => cases write <;> cases inShared
    | dropKey proto key => cases inShared
    | rememberPorts proto wanted => cases inShared
    | rememberKeys proto wanted => cases inShared
    | rememberRates rates => cases inShared
    | reconfigure cfg =>
        cases accepted
        rfl
    | lift ip =>
        cases accepted
        exact Blocklist.v6_isSome_drop _ _ _
    | block ip =>
        obtain ⟨blocklist, inserted, same⟩ :=
          Option.map_eq_some_iff.mp accepted
        subst same
        exact Blocklist.v6_isSome_of_insert? inserted
    | markDirty =>
        cases accepted
        rfl
  · exact congrArg (fun shared : Shared Score => shared.blocklist.v6.isSome)
      (get_of_accept? accepted inShared)

/-- With equal cells the maps answer every lookup of a packet alike. -/
theorem maps_agree
    (values : ∀ place, after.value place = before.value place)
    (sameMaps :
      after.shared.blocklist.v6.isSome =
        before.shared.blocklist.v6.isSome)
    (others : KernelMaps) :
    (after.maps others).Agree (before.maps others) where
  blocklist ip := (Prod.ext_iff.mp (values (.source (.v4 ip)))).1
  blocklist6 networkPrefix := by
    have same := (Prod.ext_iff.mp (values (.source (.v6 networkPrefix)))).1
    change (after.shared.blocklist.v6.bind _) =
      before.shared.blocklist.v6.bind _ at same
    change (after.shared.blocklist.v6.getD others.blocklist6).get? _ =
      (before.shared.blocklist.v6.getD others.blocklist6).get? _
    cases first : after.shared.blocklist.v6 with
    | none =>
        rw [first] at sameMaps
        have second : before.shared.blocklist.v6 = none :=
          Option.not_isSome_iff_eq_none.mp (by simp [← sameMaps])
        rw [second]
    | some firstMap =>
        rw [first] at sameMaps
        obtain ⟨secondMap, second⟩ :=
          Option.isSome_iff_exists.mp sameMaps.symm
        rw [first, second] at same
        rw [second]
        exact same
  udpFlows := rfl
  udpFlows6 := rfl
  tcpAllow := funext fun port => values (.port .tcp port)
  udpAllow := funext fun port => values (.port .udp port)
  allowFromTcp stored := decide_eq_decide.mp (values (.node .tcp stored))
  allowFromUdp stored := decide_eq_decide.mp (values (.node .udp stored))
  tcpRate := funext fun port => values (.rate port)
  rateState := rfl
  feeds := rfl
  config := funext fun slot => values (.setting slot)

/-- Wherever a refused step ends the call, nothing was changed before it. -/
def StopsUnchanged
    (attempt : Attempt)
    (steps : List ConfigStep)
    (before : World Score) : Prop :=
  ∀ done step here,
    ComesTo attempt steps before done step here →
    step.accept? attempt here = none →
    ∀ earlier ∈ done, earlier.Settled attempt before

/-- What was in force before a call is in force after it. -/
structure StaysInForce (before after : World Score) : Prop where
  verdicts :
    ∀ helpers others frame,
      (aiFirewall helpers (after.maps others) frame).1 =
        (aiFirewall helpers (before.maps others) frame).1
  blocklist :
    ∀ ip, after.shared.blocklist.lookup ip =
      before.shared.blocklist.lookup ip
  records :
    ∀ ip, after.shared.records.lookup ip = before.shared.records.lookup ip
  enforce : after.shared.enforce = before.shared.enforce
  limits : after.shared.detector.cfg = before.shared.detector.cfg
  bans : after.shared.detector.bans = before.shared.detector.bans

/-- A call that fails leaves every cell alone exactly when it stops there. -/
theorem values_of_stopped_iff
    (compiles : compile policy = .ok compiled)
    (canonical : before.kernel.Canonical)
    (stopped :
      Stopped (ConfigStep.accept? attempt)
        (plan attempt cfg policy compiled blocked before) before after) :
    (∀ place, after.value place = before.value place) ↔
      StopsUnchanged attempt
        (plan attempt cfg policy compiled blocked before) before := by
  obtain ⟨done, refused, rest, shape, written, isRefused⟩ := stopped
  have planDistinct :
      (configCells Score attempt).Distinct
        (plan attempt cfg policy compiled blocked before) :=
    distinct_plan compiles canonical
  have distinct : (configCells Score attempt).Distinct done := by
    rw [shape, Cells.Distinct, List.filterMap_append] at planDistinct
    exact (List.nodup_append'.mp planDistinct).1
  constructor
  · intro same otherDone step here comes stepRefused earlier member
    obtain ⟨otherRest, otherShape, otherWritten⟩ := comes
    obtain ⟨sameDone, _⟩ :=
      Stopped.unique (otherShape.symm.trans shape) otherWritten stepRefused
        written isRefused
    subst sameDone
    cases concerns : earlier.place? with
    | some place =>
        exact (World.value_eq_iff written distinct).mp (same place) earlier
          member concerns
    | none => exact ConfigStep.settled_of_noPlace concerns
  · intro unchanged place
    exact World.value_of_settled written fun step member _ =>
      unchanged done refused after ⟨rest, shape, written⟩ isRefused step
        member

/-- Equal cells mean that everything stays in force. -/
theorem staysInForce_of_values
    (values : ∀ place, after.value place = before.value place)
    (sameMaps :
      after.shared.blocklist.v6.isSome =
        before.shared.blocklist.v6.isSome) :
    StaysInForce before after := by
  obtain ⟨enforce, settings⟩ := Prod.ext_iff.mp (values .detector)
  obtain ⟨limits, bans⟩ := Prod.ext_iff.mp settings
  exact
    { verdicts := fun _ others frame =>
        aiFirewall_congr (maps_agree values sameMaps others) frame
      blocklist := fun ip => (Prod.ext_iff.mp (values (.source ip))).1
      records := fun ip => (Prod.ext_iff.mp (values (.source ip))).2
      enforce := enforce
      limits := limits
      bans := bans }

end

section

variable {Score : Type}

theorem run_canonical
    (settings : Fin 4 → U32)
    (shared : Shared Score)
    {past : List (RuleEvent Score)}
    (accepted : ∀ event ∈ past, event.Accepted) :
    (Runs.run ruleStep ⟨settings, .fresh, shared⟩ past).kernel.Canonical := by
  have stepwise :
      Runs.Stepwise (fun _ (event : RuleEvent Score) => event.Accepted)
        past :=
    fun _ event _ isPast => accepted event (by rw [isPast]; simp)
  refine stepwise.invariant
    (fun _ (world : World Score) => world.kernel.Canonical)
    Kernel.fresh_canonical ?_
  intro earlier event isAccepted canonical
  cases event with
  | meanwhile settings shared => exact canonical
  | call attempt cfg profile =>
      obtain ⟨compiled, blocked, compiles, readable⟩ :=
        compiled_of_accepted isAccepted profile
      have after :=
        applyConfig_canonical attempt compiles readable canonical
      simp only [ruleStep]
      split
      · rename_i ran
        rw [ran] at after
        exact after
      · rename_i ran
        rw [ran] at after
        exact after

/--
In every state a daemon can be in, a call that fails leaves every setting,
rule, ban and record as it was exactly when the steps before the refused one
had nothing to change, and then everything that was in force stays so.
-/
theorem rejected_config_unchanged_iff
    (settings : Fin 4 → U32)
    (shared : Shared Score)
    (past : List (RuleEvent Score))
    (pastAccepted : ∀ event ∈ past, event.Accepted)
    (attempt : Attempt)
    (cfg : Config)
    (profile : Option String)
    (accepted : cfg.validate = .ok ())
    (before after : World Score)
    (reached :
      before = Runs.run ruleStep ⟨settings, .fresh, shared⟩ past)
    (failure : ApplyError)
    (rejected :
      (applyConfig attempt cfg (cfg.policy profile)).run before =
        .error failure after) :
    ∃ compiled blocked,
      compile (cfg.policy profile) = .ok compiled ∧
        cfg.blockedCidrs = .ok blocked ∧
        ((∀ place, after.value place = before.value place) ↔
          StopsUnchanged attempt
            (plan attempt cfg (cfg.policy profile) compiled blocked before)
            before) ∧
        (StopsUnchanged attempt
            (plan attempt cfg (cfg.policy profile) compiled blocked before)
            before →
          StaysInForce before after) := by
  obtain ⟨compiled, blocked, compiles, readable⟩ :=
    compiled_of_accepted accepted profile
  have stopped :=
    (applyConfig_error_iff compiles readable).mp ⟨failure, rejected⟩
  have canonical : before.kernel.Canonical := by
    rw [reached]
    exact run_canonical settings shared pastAccepted
  have unchangedIff := values_of_stopped_iff compiles canonical stopped
  have sameMaps :=
    stopped.frame (fun world => world.shared.blocklist.v6.isSome)
      fun _ _ _ _ isAccepted => v6_isSome_of_accept? isAccepted
  exact ⟨compiled, blocked, compiles, readable, unchangedIff,
    fun unchanged =>
      staysInForce_of_values (unchangedIff.mpr unchanged) sameMaps⟩

end

/-- A TCP opener from 10.0.0.5 to port 22. -/
def sshOpener : Frame :=
  [2, 0, 0, 0, 0, 9, 2, 0, 0, 0, 0, 5, 0x08, 0x00] ++
    [0x45, 0, 0, 40, 0, 0, 0, 0, 64, 6, 0, 0, 10, 0, 0, 5, 10, 0, 0, 9] ++
    [0x9c, 0x40, 0, 22, 0, 0, 0, 0, 0, 0, 0, 0, 0x50, 2, 0, 0, 0, 0, 0, 0]

def quietHelpers : Helpers :=
  ⟨1000, true, true⟩

/-- The refused change to port 80 has closed port 22 already. -/
theorem refused_change_closes_port :
    (∃ failure after,
      (applyConfig
          (refusing fun write => write = .setPort .tcp 80 1)
          (openOnly 80) ((openOnly 80).policy none)).run
          (putBackWorld 1) = .error failure after ∧
        (aiFirewall quietHelpers (after.maps .fresh) sshOpener).1 =
          .drop) ∧
      (aiFirewall quietHelpers ((putBackWorld 1).maps .fresh)
          sshOpener).1 = .pass := by
  have second :
      putBackWorld 2 =
        ruleStep (putBackWorld 1)
          (.call (refusing fun write => write = .setPort .tcp 80 1)
            (openOnly 80) none) := by
    have shape :
        putBack.take 2 =
          putBack.take 1 ++
            [.call (refusing fun write => write = .setPort .tcp 80 1)
              (openOnly 80) none] :=
      rfl
    rw [putBackWorld, shape, Runs.run_concat, putBackWorld]
  have dropped :
      (aiFirewall quietHelpers ((putBackWorld 2).maps .fresh)
        sshOpener).1 = .drop := by
    decide +kernel
  refine ⟨?_, by decide +kernel⟩
  rw [second, ruleStep] at dropped
  obtain ⟨failure, after, ran⟩ :
      ∃ failure after,
        (applyConfig
            (refusing fun write => write = .setPort .tcp 80 1)
            (openOnly 80) ((openOnly 80).policy none)).run
            (putBackWorld 1) = .error failure after :=
    failed_of_unfinished (by decide +kernel)
  rw [ran] at dropped
  exact ⟨failure, after, ran, dropped⟩

/-- A call whose first write is refused leaves everything in force. -/
theorem first_write_refused_keeps_all :
    ∃ failure after,
      (applyConfig
          (refusing fun write => write = .setting cfgEnforce 1)
          (openOnly 80) ((openOnly 80).policy none)).run
          (putBackWorld 1) = .error failure after ∧
        StaysInForce (putBackWorld 1) after := by
  obtain ⟨failure, after, ran⟩ :
      ∃ failure after,
        (applyConfig
            (refusing fun write => write = .setting cfgEnforce 1)
            (openOnly 80) ((openOnly 80).policy none)).run
            (putBackWorld 1) = .error failure after :=
    failed_of_unfinished (by decide +kernel)
  have pastAccepted : ∀ event ∈ putBack.take 1, event.Accepted := by
    intro event member
    cases List.mem_singleton.mp member
    exact (by decide : (openOnly 22).validate = .ok ())
  obtain ⟨compiled, blocked, _, _, _, stays⟩ :=
    rejected_config_unchanged_iff (fun _ => 0) freshShared
      (putBack.take 1) pastAccepted
      (refusing fun write => write = .setting cfgEnforce 1)
      (openOnly 80) none (by decide) (putBackWorld 1) after rfl failure
      ran
  refine ⟨failure, after, ran, stays ?_⟩
  intro done step here comes isRefused earlier member
  obtain ⟨rest, shape, written⟩ := comes
  have firstShape :
      plan (refusing fun write => write = .setting cfgEnforce 1)
          (openOnly 80) ((openOnly 80).policy none) compiled blocked
          (putBackWorld 1) =
        [] ++ .mapWrite (.setting cfgEnforce 1) :: _ :=
    rfl
  obtain ⟨nothing, _⟩ :=
    Stopped.unique (shape.symm.trans firstShape) written isRefused
      (.nil _) rfl
  subst nothing
  cases member

end AiFirewall
