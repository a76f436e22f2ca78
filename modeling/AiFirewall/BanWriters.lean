import AiFirewall.MonitorMode

namespace AiFirewall

/-!
# The writers of the entries

Entries stand in the pinned maps, which the daemon and the command line both
write; records stand in the daemon, and the two are matched by address only.
`writer` follows who wrote each entry.  A ban by hand on top of another one
leaves the other one's record; so do a crash before the state is saved, and a
removal that the kernel refuses.
-/

open FallibleWrites

/-- Who wrote the entry of each source last, in the words of the records. -/
abbrev Writers := Src → String

namespace Shared

section

variable {Score : Type}

/--
The record of a banned source names the writer of the entry; it may be missing
for a ban by hand, and while the source's saved ban is still expected.
-/
def Attributed
    (shared : Shared Score)
    (writer : Writers)
    (expected : Src → Prop)
    (ip : Src) : Prop :=
  shared.blocklist.contains ip = true →
    (∃ record ∈ shared.records.lookup ip, record.source = writer ip) ∨
      shared.records.lookup ip = none ∧
        (writer ip = "manual" ∨ expected ip)

variable
  {host : Host}
  {shared changed : Shared Score}
  {writer newWriter : Writers}
  {expected : Src → Prop}
  {ip : Src}

theorem Attributed.of_same
    (attributed : shared.Attributed writer expected ip)
    (present :
      changed.blocklist.contains ip = true →
      shared.blocklist.contains ip = true)
    (sameRecord : changed.records.lookup ip = shared.records.lookup ip)
    (sameWriter : newWriter ip = writer ip) :
    changed.Attributed newWriter expected ip := by
  intro banned
  rw [sameRecord, sameWriter]
  exact attributed (present banned)

/-- A source that is not banned needs no record. -/
theorem attributed_of_absent
    (absent : shared.blocklist.lookup ip = none) :
    shared.Attributed writer expected ip := by
  intro banned
  rw [Blocklist.contains, absent] at banned
  cases banned

/-- A record that names the writer is enough. -/
theorem attributed_of_record
    {record : BanRecord}
    (known : shared.records.lookup ip = some record)
    (names : record.source = writer ip) :
    shared.Attributed writer expected ip :=
  fun _ => .inl ⟨record, known, names⟩

/-- `enact` writes the entry of a ban. -/
def enactWrites
    (host : Host)
    (shared : Shared Score)
    (ban : Ban Score)
    (writer : Writers) : Writers :=
  if shared.enforce &&
      (shared.blocklist.insert? host ban.ip
        (expiryFor host ban.secs)).isSome then
    Function.update writer ban.ip "auto"
  else
    writer

/-- An event may write an entry. -/
def eventWrites
    [ScoreArith Score]
    (host : Host)
    (shared : Shared Score)
    (event : PacketEvent)
    (writer : Writers) : Writers :=
  let (ban, detector) := shared.detector.observe Score event host.bootSecs
  match ban with
  | some ban => { shared with detector := detector }.enactWrites host ban writer
  | none => writer

/-- The entries that the events of a batch write, one event after another. -/
def batchWrites
    [ScoreArith Score]
    (host : Host) :
    List PacketEvent → Shared Score → Writers → Writers
  | [], _, writer => writer
  | event :: rest, shared, writer =>
      batchWrites host rest (shared.handleEvent host event)
        (shared.eventWrites host event writer)

/-- An entry that `restore` puts back is whose the saved record says. -/
def restoreWrites
    (host : Host)
    (shared : Shared Score)
    (ban : SavedBan)
    (writer : Writers) : Writers :=
  match savedSecs host ban with
  | none => writer
  | some secs =>
      if !shared.blocklist.contains ban.ip &&
          (shared.blocklist.insert? host ban.ip
            (expiryFor host secs)).isSome then
        Function.update writer ban.ip ban.source
      else
        writer

theorem contains_of_same
    (same :
      changed.blocklist.lookup ip = shared.blocklist.lookup ip)
    (present : changed.blocklist.contains ip = true) :
    shared.blocklist.contains ip = true := by
  rwa [Blocklist.contains, ← same]

/-- A ban that is not carried out writes nothing. -/
theorem enact_of_unwritten
    {ban : Ban Score}
    (unwritten :
      ¬(shared.enforce &&
          (shared.blocklist.insert? host ban.ip
            (expiryFor host ban.secs)).isSome) = true) :
    (shared.enact host ban).blocklist = shared.blocklist ∧
      (shared.enact host ban).records = shared.records := by
  cases mode : shared.enforce with
  | false => exact enact_of_watching mode
  | true =>
      rw [mode, Bool.true_and, Option.not_isSome_iff_eq_none] at unwritten
      unfold enact
      rw [unwritten, mode]
      exact ⟨rfl, rfl⟩

/-- One that is carried out leaves the detector's record. -/
theorem enact_record_self
    {ban : Ban Score}
    (written :
      (shared.enforce &&
          (shared.blocklist.insert? host ban.ip
            (expiryFor host ban.secs)).isSome) = true) :
    (shared.enact host ban).records.lookup ban.ip =
      some ⟨ban.reason ++ " (" ++ ban.ports ++ ")", "auto",
        ban.strikes⟩ := by
  rw [Bool.and_eq_true] at written
  obtain ⟨blocklist, inserted⟩ :=
    Option.isSome_iff_exists.mp written.2
  unfold enact
  rw [inserted, written.1]
  exact AList.lookup_insert _

theorem attributed_enact
    (attributed : shared.Attributed writer expected ip)
    (ban : Ban Score) :
    (shared.enact host ban).Attributed
      (shared.enactWrites host ban writer) expected ip := by
  unfold enactWrites
  split
  · rename_i written
    by_cases isBan : ip = ban.ip
    · subst isBan
      refine attributed_of_record (enact_record_self written) ?_
      rw [Function.update_self]
    · exact attributed.of_same
        (contains_of_same (enact_lookup_of_ne host shared ban isBan))
        (enact_record_of_ne host shared ban isBan)
        (Function.update_of_ne isBan _ _)
  · rename_i unwritten
    obtain ⟨sameBlocklist, sameRecords⟩ := enact_of_unwritten unwritten
    exact attributed.of_same
      (contains_of_same (by rw [sameBlocklist])) (by rw [sameRecords]) rfl

theorem attributed_handleEvent
    [ScoreArith Score]
    (attributed : shared.Attributed writer expected ip)
    (event : PacketEvent) :
    (shared.handleEvent host event).Attributed
      (shared.eventWrites host event writer) expected ip := by
  have observed :
      ({ shared with
          detector :=
            (shared.detector.observe Score event host.bootSecs).2 } :
        Shared Score).Attributed writer expected ip :=
    attributed
  unfold handleEvent eventWrites
  dsimp only
  cases (shared.detector.observe Score event host.bootSecs).1 with
  | some ban =>
      exact attributed_enact observed ban
  | none =>
      exact observed

theorem attributed_handleBatch
    [ScoreArith Score]
    (attributed : shared.Attributed writer expected ip)
    (batch : List PacketEvent) :
    (shared.handleBatch host batch).Attributed
      (batchWrites host batch shared writer) expected ip := by
  induction batch generalizing shared writer with
  | nil =>
      exact attributed
  | cons event rest inductionHypothesis =>
      exact inductionHypothesis (attributed_handleEvent attributed event)

/-- Who is lifted is not banned any more, unless the kernel refuses. -/
theorem attributed_lifts
    (attributed : shared.Attributed writer expected ip)
    (willing : ∀ ip, host.refusesRemove ip = false)
    (lifted : List Src) :
    (lifted.foldl (lift host) shared).Attributed writer expected ip := by
  induction lifted generalizing shared with
  | nil =>
      exact attributed
  | cons other rest inductionHypothesis =>
      refine inductionHypothesis ?_
      by_cases isOther : ip = other
      · subst isOther
        exact attributed_of_absent
          (Blocklist.lookup_drop_of_willing (by rw [willing]; decide))
      · exact attributed.of_same Blocklist.contains_of_drop
          (AList.lookup_erase_ne isOther) rfl

theorem attributed_refreshProtection
    (attributed : shared.Attributed writer expected ip)
    (willing : ∀ ip, host.refusesRemove ip = false)
    (autoProtected : List Cidr)
    (ownV6Prefixes : List U64)
    (cfg : Config) :
    (shared.refreshProtection host autoProtected ownV6Prefixes
      cfg).Attributed writer expected ip := by
  obtain ⟨trusted, lifted, _, same⟩ :=
    shared.refreshProtection_cases host autoProtected ownV6Prefixes cfg
  have refreshed :
      ({ shared with
          detector :=
            shared.detector.setProtected trusted ownV6Prefixes } :
        Shared Score).Attributed writer expected ip :=
    attributed
  rw [same]
  exact attributed_lifts refreshed willing lifted

theorem sweepEntries_lookup
    {entries : List (Src × U64)}
    {expiry : U64}
    (banned :
      (entries.foldl (sweepEntry host) shared).blocklist.lookup ip =
        some expiry) :
    shared.blocklist.lookup ip = some expiry := by
  induction entries generalizing shared with
  | nil =>
      exact banned
  | cons entry rest inductionHypothesis =>
      have later := inductionHypothesis banned
      rcases shared.sweepEntry_lookup host entry ip with
        same | ⟨_, _, gone⟩
      · rwa [← same]
      · rw [gone] at later
        cases later

/-- What a sweep removes is gone, unless the kernel refuses. -/
theorem sweepEntry_lookup_of_runOut
    {entry : Src × U64}
    (willing : ∀ ip, host.refusesRemove ip = false)
    (runOut : remaining host entry.2 = none) :
    (shared.sweepEntry host entry).blocklist.lookup entry.1 = none := by
  unfold sweepEntry
  dsimp only
  rw [if_pos runOut]
  exact Blocklist.lookup_drop_of_willing (by rw [willing]; decide)

theorem sweepEntries_lookup_of_runOut
    {entries : List (Src × U64)}
    {entry : Src × U64}
    (willing : ∀ ip, host.refusesRemove ip = false)
    (member : entry ∈ entries)
    (runOut : remaining host entry.2 = none) :
    (entries.foldl (sweepEntry host) shared).blocklist.lookup entry.1 =
      none := by
  induction entries generalizing shared with
  | nil =>
      cases member
  | cons head rest inductionHypothesis =>
      rcases List.mem_cons.mp member with isHead | inRest
      · subst isHead
        rw [List.foldl_cons]
        by_contra stays
        obtain ⟨expiry, banned⟩ := Option.ne_none_iff_exists'.mp stays
        have gone := sweepEntries_lookup banned
        rw [sweepEntry_lookup_of_runOut willing runOut] at gone
        cases gone
      · exact inductionHypothesis inRest

/-- A ban that a sweep leaves was there before, and runs on. -/
theorem runs_of_sweep
    (willing : ∀ ip, host.refusesRemove ip = false)
    {expiry : U64}
    (banned : (shared.sweep host).blocklist.lookup ip = some expiry) :
    shared.blocklist.lookup ip = some expiry ∧
      remaining host expiry ≠ none := by
  have before : shared.blocklist.lookup ip = some expiry :=
    sweepEntries_lookup banned
  refine ⟨before, fun runOut => ?_⟩
  have gone :
      (shared.sweep host).blocklist.lookup ip = none :=
    sweepEntries_lookup_of_runOut willing
      (Blocklist.mem_entries.mpr before) runOut
  rw [gone] at banned
  cases banned

/-- The record of a ban by hand says nothing else. -/
theorem Attributed.manual
    (attributed : shared.Attributed writer expected ip)
    (present : shared.blocklist.contains ip = true)
    (byHand : writer ip = "manual") :
    ∀ record ∈ shared.records.lookup ip, record.source = "manual" := by
  intro record known
  rcases attributed present with ⟨other, isOther, names⟩ | ⟨unknown, _⟩
  · rw [Option.mem_def.mp known] at isOther
    cases isOther
    exact names.trans byHand
  · rw [Option.mem_def.mp known] at unknown
    cases unknown

/-- A refresh leaves a ban by hand alone. -/
theorem Attributed.refreshProtection_manual
    (attributed : shared.Attributed writer expected ip)
    (present : shared.blocklist.contains ip = true)
    (byHand : writer ip = "manual")
    (autoProtected : List Cidr)
    (ownV6Prefixes : List U64)
    (cfg : Config) :
    (shared.refreshProtection host autoProtected ownV6Prefixes
        cfg).blocklist.lookup ip = shared.blocklist.lookup ip := by
  refine (refreshProtection_other host autoProtected ownV6Prefixes cfg
    ?_).1
  intro record known isAuto
  rw [attributed.manual present byHand record known] at isAuto
  exact absurd isAuto (by decide)

/-- A sweep gives a record to every ban that runs on. -/
theorem sweep_names_writer
    (attributed : shared.Attributed writer (fun _ => False) ip)
    {expiry : U64}
    (banned : shared.blocklist.lookup ip = some expiry)
    (runs : remaining host expiry ≠ none) :
    ∃ record ∈ (shared.sweep host).records.lookup ip,
      record.source = writer ip := by
  have present : shared.blocklist.contains ip = true := by
    rw [Blocklist.contains, banned]
    rfl
  rw [sweep_record, banned, Option.bind_some, sweptRecord, if_neg runs]
  rcases attributed present with
    ⟨record, known, names⟩ | ⟨unknown, byHand | expected⟩
  · exact ⟨record, by rw [known]; rfl, names⟩
  · exact ⟨manualRecord, by rw [unknown]; rfl, byHand.symm⟩
  · exact expected.elim

theorem attributed_sweep
    (attributed : shared.Attributed writer (fun _ => False) ip)
    (willing : ∀ ip, host.refusesRemove ip = false) :
    (shared.sweep host).Attributed writer (fun _ => False) ip := by
  intro present
  obtain ⟨expiry, banned⟩ := Option.isSome_iff_exists.mp present
  obtain ⟨before, runs⟩ := runs_of_sweep willing banned
  exact .inl (sweep_names_writer attributed before runs)

/-- The saved ban of a source is restored under its writer's name. -/
def RestoresTrue
    (host : Host)
    (shared : Shared Score)
    (writer : Writers)
    (pending : List SavedBan)
    (ban : SavedBan) : Prop :=
  if savedSecs host ban = none then
    shared.blocklist.contains ban.ip = true →
    shared.records.lookup ban.ip = none →
    writer ban.ip = "manual" ∨ ∃ other ∈ pending, other.ip = ban.ip
  else if shared.blocklist.contains ban.ip then
    shared.records.lookup ban.ip = none → ban.source = writer ban.ip
  else
    ∀ record ∈ shared.records.lookup ban.ip, record.source = ban.source

theorem restoreWrites_of_ne
    {ban : SavedBan}
    (other : ip ≠ ban.ip) :
    shared.restoreWrites host ban writer ip = writer ip := by
  unfold restoreWrites
  cases savedSecs host ban with
  | none => rfl
  | some secs =>
      dsimp only
      rw [ite_apply, Function.update_of_ne other, ite_self]

/-- A source that gets its record from the file is the saved writer's. -/
theorem attributed_restoreBan_self
    {expectedLater : Src → Prop}
    {ban : SavedBan}
    {secs : U64}
    (runs : savedSecs host ban = some secs)
    (attributed : shared.Attributed writer expected ban.ip)
    (ofPresent :
      shared.blocklist.contains ban.ip = true →
      shared.records.lookup ban.ip = none → ban.source = writer ban.ip)
    (ofAbsent :
      shared.blocklist.contains ban.ip = false →
      ∀ record ∈ shared.records.lookup ban.ip,
        record.source = ban.source) :
    (shared.restoreBan host ban).Attributed
      (shared.restoreWrites host ban writer) expectedLater ban.ip := by
  have record :
      ∃ record ∈ (shared.restoreBan host ban).records.lookup ban.ip,
        shared.records.lookup ban.ip = some record ∨
          shared.records.lookup ban.ip = none ∧
            record.source = ban.source := by
    unfold restoreBan
    rw [runs]
    dsimp only
    cases known : shared.records.lookup ban.ip with
    | some record => exact ⟨record, by simpa using known, .inl rfl⟩
    | none => exact ⟨_, AList.lookup_insert _, .inr ⟨rfl, rfl⟩⟩
  obtain ⟨record, known, before⟩ := record
  cases present : shared.blocklist.contains ban.ip with
  | true =>
      have sameWriter :
          shared.restoreWrites host ban writer = writer := by
        unfold restoreWrites
        rw [runs]
        simp [present]
      refine attributed_of_record known ?_
      rw [sameWriter]
      rcases before with old | ⟨unknown, isSaved⟩
      · rcases attributed present with
          ⟨other, isOther, names⟩ | ⟨unknown, _⟩
        · rw [old] at isOther
          cases isOther
          exact names
        · rw [old] at unknown
          cases unknown
      · exact isSaved.trans (ofPresent present unknown)
  | false =>
      have isSaved : record.source = ban.source := by
        rcases before with old | ⟨_, isSaved⟩
        · exact ofAbsent present record old
        · exact isSaved
      intro banned
      refine .inl ⟨record, known, isSaved.trans ?_⟩
      cases inserted :
          shared.blocklist.insert? host ban.ip (expiryFor host secs) with
      | some blocklist =>
          unfold restoreWrites
          rw [runs]
          simp [present, inserted]
      | none =>
          have stillAbsent :
              (shared.restoreBan host ban).blocklist.contains ban.ip =
                false := by
            unfold restoreBan
            rw [runs]
            simp [present, inserted]
          rw [stillAbsent] at banned
          cases banned

theorem attributed_restoreBan
    {pending : List SavedBan}
    {ban : SavedBan}
    (attributed :
      shared.Attributed writer
        (fun ip => ∃ other ∈ ban :: pending, other.ip = ip) ip)
    (restoresTrue : shared.RestoresTrue host writer pending ban) :
    (shared.restoreBan host ban).Attributed
      (shared.restoreWrites host ban writer)
      (fun ip => ∃ other ∈ pending, other.ip = ip) ip := by
  by_cases isBan : ip = ban.ip
  · subst isBan
    unfold RestoresTrue at restoresTrue
    cases runs : savedSecs host ban with
    | none =>
        rw [if_pos runs] at restoresTrue
        have same : shared.restoreBan host ban = shared := by
          unfold restoreBan
          rw [runs]
        have sameWriter :
            shared.restoreWrites host ban writer = writer := by
          unfold restoreWrites
          rw [runs]
        rw [same, sameWriter]
        intro banned
        exact (attributed banned).imp_right fun unknown =>
          ⟨unknown.1, restoresTrue banned unknown.1⟩
    | some secs =>
        rw [if_neg (by rw [runs]; exact Option.some_ne_none _)]
          at restoresTrue
        refine attributed_restoreBan_self runs attributed ?_ ?_
        · intro present
          rwa [if_pos present] at restoresTrue
        · intro absent
          rwa [absent, if_neg Bool.false_ne_true] at restoresTrue
  · have notHere :
        ∀ (present :
            (shared.restoreBan host ban).blocklist.contains ip = true),
          shared.blocklist.contains ip = true := by
      intro present
      rcases contains_of_restoreBan present with old | ⟨same, _⟩
      · exact old
      · exact absurd same isBan
    have sameRecord :
        (shared.restoreBan host ban).records.lookup ip =
          shared.records.lookup ip := by
      rcases restoreBan_record host shared ban ip with same | ⟨same, _⟩
      · exact same
      · exact absurd same isBan
    intro banned
    rw [sameRecord, restoreWrites_of_ne isBan]
    refine (attributed (notHere banned)).imp_right fun unknown =>
      ⟨unknown.1, unknown.2.imp_right ?_⟩
    rintro ⟨other, member, isOther⟩
    rcases List.mem_cons.mp member with isHead | inRest
    · subst isHead
      exact absurd isOther.symm isBan
    · exact ⟨other, inRest, isOther⟩

/-- Who is lifted has no record any more. -/
theorem lifts_record_of_mem
    {lifted : List Src}
    (member : ip ∈ lifted) :
    (lifted.foldl (lift host) shared).records.lookup ip = none := by
  by_contra known
  obtain ⟨record, isRecord⟩ := Option.ne_none_iff_exists'.mp known
  induction lifted generalizing shared with
  | nil =>
      cases member
  | cons other rest inductionHypothesis =>
      rcases List.mem_cons.mp member with isOther | inRest
      · subst isOther
        have before :
            (shared.lift host ip).records.lookup ip = some record :=
          lifts_record isRecord
        rw [lift, AList.lookup_erase] at before
        cases before
      · exact inductionHypothesis inRest known isRecord

/-- No automatic ban of a protected address outlives a refresh. -/
theorem unprotected_of_refresh
    {autoProtected : List Cidr}
    {ownV6Prefixes : List U64}
    {cfg : Config}
    {record : BanRecord}
    (known :
      (shared.refreshProtection host autoProtected ownV6Prefixes
        cfg).records.lookup ip = some record)
    (isAuto : record.source = "auto") :
    (shared.refreshProtection host autoProtected ownV6Prefixes
      cfg).detector.isProtected ip = false := by
  unfold refreshProtection at known ⊢
  dsimp only at known ⊢
  have before := lifts_record known
  rw [lifts_detector]
  by_contra isProtected
  rw [Bool.not_eq_false] at isProtected
  rw [lifts_record_of_mem] at known
  · cases known
  · refine List.mem_map.mpr ⟨(ip, record), List.mem_filter.mpr
      ⟨Table.mem_toList.mpr before, ?_⟩, rfl⟩
    rw [Bool.and_eq_true, decide_eq_true_iff]
    exact ⟨isAuto, isProtected⟩

end

end Shared

/-- A step of a configuration's call writes the bans of its list. -/
def ConfigStep.writes (writer : Writers) : ConfigStep → Writers
  | .block ip => Function.update writer ip "config"
  | _ => writer

section

variable
  {Score : Type}
  {attempt : Attempt}
  {cfg : Config}
  {profile : Option String}
  {step : ConfigStep}
  {steps : List ConfigStep}
  {before after : World Score}
  {writer : Writers}
  {expected : Src → Prop}
  {ip : Src}

/-- The entries that a call writes, as far as it comes. -/
def configWrites
    (attempt : Attempt)
    (cfg : Config)
    (profile : Option String)
    (world : World Score)
    (writer : Writers) : Writers :=
  match compile (cfg.policy profile), cfg.blockedCidrs with
  | .ok compiled, .ok blocked =>
      (accepted (ConfigStep.accept? attempt)
        (plan attempt cfg (cfg.policy profile) compiled blocked world)
        world).foldl ConfigStep.writes writer
  | _, _ => writer

theorem ConfigStep.writes_of_ne (other : step ≠ .block ip) :
    step.writes writer ip = writer ip := by
  cases step with
  | block source =>
      refine Function.update_of_ne ?_ _ _
      rintro rfl
      exact other rfl
  | mapWrite write => rfl
  | dropKey proto key => rfl
  | rememberPorts proto wanted => rfl
  | rememberKeys proto wanted => rfl
  | rememberRates rates => rfl
  | reconfigure cfg => rfl
  | lift source => rfl
  | markDirty => rfl

/-- Steps that ban the source make it a ban of the configuration. -/
theorem ConfigStep.writes_of_mem
    (member : .block ip ∈ steps) :
    steps.foldl ConfigStep.writes writer ip = "config" := by
  induction steps using List.reverseRecOn with
  | nil =>
      cases member
  | append_singleton rest last inductionHypothesis =>
      rw [List.foldl_append]
      show last.writes _ ip = _
      by_cases isBlock : last = .block ip
      · subst isBlock
        exact Function.update_self _ _ _
      · rw [ConfigStep.writes_of_ne isBlock]
        refine inductionHypothesis ?_
        rcases List.mem_append.mp member with inRest | isLast
        · exact inRest
        · exact absurd (List.mem_singleton.mp isLast).symm isBlock

theorem ConfigStep.writes_of_notMem
    (notMember : .block ip ∉ steps) :
    steps.foldl ConfigStep.writes writer ip = writer ip := by
  induction steps generalizing writer with
  | nil =>
      rfl
  | cons first rest inductionHypothesis =>
      rw [List.mem_cons, not_or] at notMember
      rw [List.foldl_cons, inductionHypothesis notMember.2]
      exact ConfigStep.writes_of_ne (Ne.symm notMember.1)

theorem attributed_accept?
    (accepted : step.accept? attempt before = some after)
    (willing : ∀ ip, attempt.host.refusesRemove ip = false)
    (attributed : before.shared.Attributed writer expected ip) :
    after.shared.Attributed (step.writes writer) expected ip := by
  by_cases isBlock : step = .block ip
  · subst isBlock
    obtain ⟨blocklist, _, same⟩ := Option.map_eq_some_iff.mp accepted
    subst same
    refine Shared.attributed_of_record (AList.lookup_insert _) ?_
    exact (Function.update_self ip "config" writer).symm
  rcases source_of_accept? accepted ip with same | isLift | isBlocked
  · obtain ⟨sameEntry, sameRecord⟩ := Prod.ext_iff.mp same
    exact attributed.of_same (Shared.contains_of_same sameEntry)
      sameRecord (ConfigStep.writes_of_ne isBlock)
  · subst isLift
    cases accepted
    exact Shared.attributed_of_absent
      (Blocklist.lookup_drop_of_willing (by rw [willing]; decide))
  · exact absurd isBlocked isBlock

theorem attributed_written
    (written : Written (ConfigStep.accept? attempt) steps before after)
    (willing : ∀ ip, attempt.host.refusesRemove ip = false)
    (attributed : before.shared.Attributed writer expected ip) :
    after.shared.Attributed (steps.foldl ConfigStep.writes writer)
      expected ip := by
  induction written generalizing writer with
  | nil state =>
      exact attributed
  | cons isAccepted _ inductionHypothesis =>
      exact inductionHypothesis
        (attributed_accept? isAccepted willing attributed)

/-- A call leaves its world, be it finished or not. -/
def CallLeaves
    (attempt : Attempt)
    (cfg : Config)
    (profile : Option String)
    (before after : World Score) : Prop :=
  (applyConfig attempt cfg (cfg.policy profile)).run before =
      .ok () after ∨
    ∃ failure,
      (applyConfig attempt cfg (cfg.policy profile)).run before =
        .error failure after

/-- What a call has written is the accepted part of its plan. -/
theorem written_of_callLeaves
    (validated : cfg.validate = .ok ())
    (leaves : CallLeaves attempt cfg profile before after) :
    ∃ compiled blocked done,
      compile (cfg.policy profile) = .ok compiled ∧
        cfg.blockedCidrs = .ok blocked ∧
        configWrites attempt cfg profile before writer =
          done.foldl ConfigStep.writes writer ∧
        (∀ step ∈ done,
          step ∈
            plan attempt cfg (cfg.policy profile) compiled blocked
              before) ∧
        Written (ConfigStep.accept? attempt) done before after := by
  obtain ⟨compiled, blocked, compiles, readable⟩ :=
    compiled_of_accepted validated profile
  refine ⟨compiled, blocked,
    accepted (ConfigStep.accept? attempt)
      (plan attempt cfg (cfg.policy profile) compiled blocked before)
      before,
    compiles, readable, ?_, ?_, ?_⟩
  · unfold configWrites
    rw [compiles, readable]
  · intro step member
    exact mem_of_mem_accepted member
  · rcases leaves with ran | ⟨failure, ran⟩
    · have written := (applyConfig_ok_iff compiles readable).mp ran
      rw [written.accepted_eq]
      exact written
    · exact ((applyConfig_error_iff compiles readable).mp
        ⟨failure, ran⟩).written_accepted

/-- A call that succeeds writes everything that is listed. -/
theorem configWrites_of_listed
    (validated : cfg.validate = .ok ())
    (ran :
      (applyConfig attempt cfg (cfg.policy profile)).run before =
        .ok () after)
    (listed : cfg.Lists ip) :
    configWrites attempt cfg profile before writer ip = "config" := by
  obtain ⟨compiled, blocked, compiles, readable⟩ :=
    compiled_of_accepted validated profile
  have written := (applyConfig_ok_iff compiles readable).mp ran
  unfold configWrites
  rw [compiles, readable]
  dsimp only
  rw [written.accepted_eq]
  exact ConfigStep.writes_of_mem
    (mem_plan_sources.2.mpr ((System.lists_iff readable).mpr listed))

/-- However far it comes, a call writes nothing that is not listed. -/
theorem configWrites_of_unlisted
    (validated : cfg.validate = .ok ())
    (leaves : CallLeaves attempt cfg profile before after)
    (unlisted : ¬cfg.Lists ip) :
    configWrites attempt cfg profile before writer ip = writer ip := by
  obtain ⟨compiled, blocked, done, _, readable, sameWriter, inPlan, _⟩ :=
    written_of_callLeaves validated leaves
  rw [sameWriter]
  refine ConfigStep.writes_of_notMem fun member => unlisted ?_
  exact (System.lists_iff readable).mp
    (mem_plan_sources.2.mp (inPlan _ member))

theorem attributed_call
    (validated : cfg.validate = .ok ())
    (leaves : CallLeaves attempt cfg profile before after)
    (willing : ∀ ip, attempt.host.refusesRemove ip = false)
    (attributed : before.shared.Attributed writer expected ip) :
    after.shared.Attributed
      (configWrites attempt cfg profile before writer) expected ip := by
  obtain ⟨compiled, blocked, done, _, _, sameWriter, _, written⟩ :=
    written_of_callLeaves validated leaves
  rw [sameWriter]
  exact attributed_written written willing attributed

/-- A call bans a source anew, or leaves the ban of somebody else alone. -/
theorem call_keeps
    (validated : cfg.validate = .ok ())
    (leaves : CallLeaves attempt cfg profile before after)
    (notConfig :
      ∀ record ∈ before.shared.records.lookup ip,
        record.source ≠ "config") :
    configWrites attempt cfg profile before writer ip = "config" ∨
      configWrites attempt cfg profile before writer ip = writer ip ∧
        after.shared.blocklist.lookup ip =
          before.shared.blocklist.lookup ip := by
  obtain ⟨compiled, blocked, done, _, _, sameWriter, inPlan, written⟩ :=
    written_of_callLeaves validated leaves
  rw [sameWriter]
  by_cases blocks : .block ip ∈ done
  · exact .inl (ConfigStep.writes_of_mem blocks)
  refine .inr ⟨ConfigStep.writes_of_notMem blocks, ?_⟩
  refine written.frame (fun world => world.shared.blocklist.lookup ip) ?_
  intro step member first second isAccepted
  rcases source_of_accept? isAccepted ip with same | isLift | isBlock
  · exact congrArg Prod.fst same
  · subst isLift
    have stale := mem_plan_sources.1.mp (inPlan _ member)
    obtain ⟨⟨record, known, isConfig⟩, _⟩ := mem_staleSources.mp stale
    exact absurd isConfig (notConfig record known)
  · subst isBlock
    exact absurd member blocks

end

end AiFirewall
