import AiFirewall.DaemonSteps
import AiFirewall.Runs

namespace AiFirewall

/-!
# Bans that last

A permanent entry whose record does not say that the detector placed it
stays: a sweep does not expire it, and new protected addresses do not lift
it.  The lemmas follow the entry and the record of one source through the
steps of the daemon.
-/

namespace Shared

section

variable {Score : Type}

/-- A permanent ban that the detector has not placed. -/
structure Lasting (shared : Shared Score) (source : Src) : Prop where
  entry : shared.blocklist.lookup source = some banForever
  record :
    ∀ record ∈ shared.records.lookup source, record.source ≠ "auto"

variable
  {host : Host}
  {shared : Shared Score}
  {source : Src}

theorem remaining_forever (host : Host) :
    remaining host banForever = some 0 :=
  if_pos rfl

/-- The record of a source after its own entry is swept. -/
def sweptRecord
    (host : Host)
    (expiry : U64)
    (record : Option BanRecord) : Option BanRecord :=
  if remaining host expiry = none then
    none
  else
    some (record.getD manualRecord)

theorem sweepEntry_record
    (host : Host)
    (shared : Shared Score)
    (entry : Src × U64)
    (source : Src) :
    (shared.sweepEntry host entry).records.lookup source =
      if source = entry.1 then
        sweptRecord host entry.2 (shared.records.lookup source)
      else
        shared.records.lookup source := by
  obtain ⟨ip, expiry⟩ := entry
  unfold sweepEntry sweptRecord
  dsimp only
  by_cases isEntry : source = ip
  · subst isEntry
    rw [if_pos rfl]
    split
    · exact AList.lookup_erase source _
    · cases known : shared.records.lookup source with
      | none => exact AList.lookup_insert _
      | some record => exact known
  · rw [if_neg isEntry]
    split
    · exact AList.lookup_erase_ne isEntry
    · split
      · exact AList.lookup_insert_ne isEntry
      · rfl

/-- Sweeping an entry a second time changes nothing about its record. -/
theorem sweptRecord_idem
    (host : Host)
    (expiry : U64)
    (record : Option BanRecord) :
    sweptRecord host expiry (sweptRecord host expiry record) =
      sweptRecord host expiry record := by
  unfold sweptRecord
  split <;> rfl

theorem sweepEntries_record
    {entries : List (Src × U64)}
    {expiry : U64}
    (same :
      ∀ entry ∈ entries, source = entry.1 → entry.2 = expiry) :
    (entries.foldl (sweepEntry host) shared).records.lookup source =
      if source ∈ entries.map Prod.fst then
        sweptRecord host expiry (shared.records.lookup source)
      else
        shared.records.lookup source := by
  induction entries generalizing shared with
  | nil =>
      rfl
  | cons entry rest inductionHypothesis =>
      obtain ⟨headSame, restSame⟩ := List.forall_mem_cons.mp same
      rw [List.foldl_cons, inductionHypothesis restSame, sweepEntry_record,
        List.map_cons]
      by_cases isEntry : source = entry.1
      · rw [if_pos isEntry, headSame isEntry, sweptRecord_idem, ite_self,
          if_pos (by rw [isEntry]; exact List.mem_cons_self)]
      · rw [if_neg isEntry]
        simp only [List.mem_cons, isEntry, false_or]

/-- The record of a source after a sweep, told from its entry before. -/
theorem sweep_record
    (host : Host)
    (shared : Shared Score)
    (source : Src) :
    (shared.sweep host).records.lookup source =
      (shared.blocklist.lookup source).bind fun expiry =>
        sweptRecord host expiry (shared.records.lookup source) := by
  have retained :
      (shared.sweep host).records.lookup source =
        ((shared.blocklist.entries.foldl (sweepEntry host)
          shared).records.lookup source).filter
          fun _ => source ∈ shared.blocklist.entries.map Prod.fst :=
    Table.lookup_retain _ _ _
  have listed :
      source ∈ shared.blocklist.entries.map Prod.fst ↔
        (shared.blocklist.lookup source).isSome := by
    simp only [List.mem_map, Prod.exists, exists_and_right,
      exists_eq_right, Blocklist.mem_entries, Option.isSome_iff_exists]
  rw [retained]
  cases found : shared.blocklist.lookup source with
  | none =>
      rw [found] at listed
      simp [listed]
  | some expiry =>
      have same :
          ∀ entry ∈ shared.blocklist.entries, source = entry.1 →
            entry.2 = expiry := by
        intro entry member isSource
        have here := Blocklist.mem_entries.mp member
        rw [← isSource, found] at here
        exact (Option.some.inj here).symm
      have present := listed.mpr (by rw [found]; rfl)
      rw [sweepEntries_record same, if_pos present, decide_eq_true present,
        Option.bind_some]
      cases sweptRecord host expiry (shared.records.lookup source) with
      | none => rfl
      | some record => rfl

/-- Whoever a sweep finds without a record was banned by hand. -/
theorem record_of_sweep
    {record : BanRecord}
    (known : (shared.sweep host).records.lookup source = some record) :
    shared.records.lookup source = some record ∨
      shared.records.lookup source = none ∧ record = manualRecord := by
  rw [sweep_record] at known
  obtain ⟨expiry, _, swept⟩ := Option.bind_eq_some_iff.mp known
  unfold sweptRecord at swept
  split at swept
  · cases swept
  · cases before : shared.records.lookup source with
    | none =>
        rw [before] at swept
        cases swept
        exact .inr ⟨rfl, rfl⟩
    | some old =>
        rw [before] at swept
        exact .inl swept

/-- Who is lifted loses entry and record, and nobody else anything. -/
theorem lifts_other
    {lifted : List Src}
    (notLifted : source ∉ lifted) :
    (lifted.foldl (lift host) shared).blocklist.lookup source =
        shared.blocklist.lookup source ∧
      (lifted.foldl (lift host) shared).records.lookup source =
        shared.records.lookup source := by
  induction lifted generalizing shared with
  | nil =>
      exact ⟨rfl, rfl⟩
  | cons ip rest inductionHypothesis =>
      rw [List.mem_cons, not_or] at notLifted
      obtain ⟨isOther, notLater⟩ := notLifted
      have liftsHead :
          (shared.lift host ip).blocklist.lookup source =
              shared.blocklist.lookup source ∧
            (shared.lift host ip).records.lookup source =
              shared.records.lookup source := by
        refine ⟨?_, AList.lookup_erase_ne isOther⟩
        rcases shared.blocklist.lookup_drop host ip source with
          same | ⟨isIp, _⟩
        · exact same
        · exact absurd isIp isOther
      rw [List.foldl_cons, ← liftsHead.1, ← liftsHead.2]
      exact inductionHypothesis notLater

/-- A source is lifted when the detector banned it and it is protected. -/
theorem refreshProtection_other
    (host : Host)
    (autoProtected : List Cidr)
    (ownV6Prefixes : List U64)
    (cfg : Config)
    (notAuto :
      ∀ record ∈ shared.records.lookup source, record.source ≠ "auto") :
    (shared.refreshProtection host autoProtected ownV6Prefixes
        cfg).blocklist.lookup source = shared.blocklist.lookup source ∧
      (shared.refreshProtection host autoProtected ownV6Prefixes
        cfg).records.lookup source = shared.records.lookup source := by
  obtain ⟨trusted, lifted, areAuto, same⟩ :=
    shared.refreshProtection_cases host autoProtected ownV6Prefixes cfg
  have notLifted : source ∉ lifted := by
    intro member
    obtain ⟨record, known, isAuto⟩ := areAuto source member
    exact notAuto record known isAuto
  rw [same]
  exact lifts_other notLifted

theorem lifts_record
    {lifted : List Src}
    {record : BanRecord}
    (known :
      (lifted.foldl (lift host) shared).records.lookup source =
        some record) :
    shared.records.lookup source = some record := by
  induction lifted generalizing shared with
  | nil =>
      exact known
  | cons ip rest inductionHypothesis =>
      have before := inductionHypothesis known
      by_cases isIp : source = ip
      · subst isIp
        rw [lift, AList.lookup_erase] at before
        cases before
      · rwa [lift, AList.lookup_erase_ne isIp] at before

/-- No new record comes from looking after the protected addresses. -/
theorem refreshProtection_record
    {autoProtected : List Cidr}
    {ownV6Prefixes : List U64}
    {cfg : Config}
    {record : BanRecord}
    (known :
      (shared.refreshProtection host autoProtected ownV6Prefixes
        cfg).records.lookup source = some record) :
    shared.records.lookup source = some record := by
  obtain ⟨trusted, lifted, _, same⟩ :=
    shared.refreshProtection_cases host autoProtected ownV6Prefixes cfg
  rw [same] at known
  have kept := lifts_record known
  exact kept

/-- A source that is in the maps is not banned anew by a restore. -/
theorem restoreBan_entry
    {ban : SavedBan}
    (present : shared.blocklist.contains source = true) :
    (shared.restoreBan host ban).blocklist.lookup source =
      shared.blocklist.lookup source := by
  unfold restoreBan
  split
  · rfl
  · dsimp only
    split
    · rfl
    · rename_i absent
      cases inserted :
          shared.blocklist.insert? host ban.ip (expiryFor host _) with
      | none => rfl
      | some changed =>
          rw [Option.getD_some, Blocklist.lookup_of_insert? inserted,
            if_neg]
          rintro rfl
          exact absent present

/-- A restore gives a record to the source it has none of. -/
theorem restoreBan_record
    (host : Host)
    (shared : Shared Score)
    (ban : SavedBan)
    (source : Src) :
    (shared.restoreBan host ban).records.lookup source =
        shared.records.lookup source ∨
      source = ban.ip ∧ savedSecs host ban ≠ none ∧
        shared.records.lookup source = none ∧
        (shared.restoreBan host ban).records.lookup source =
          some ⟨ban.reason, ban.source, ban.strikes⟩ := by
  unfold restoreBan
  split
  · exact .inl rfl
  · rename_i runs
    dsimp only
    split
    · exact .inl rfl
    · rename_i unknown
      rw [Option.not_isSome_iff_eq_none] at unknown
      by_cases isBan : source = ban.ip
      · subst isBan
        refine .inr ⟨rfl, ?_, unknown, AList.lookup_insert _⟩
        rw [runs]
        exact Option.some_ne_none _
      · exact .inl (AList.lookup_insert_ne isBan)

/-- The record that a restore gives to a source it has none of. -/
def savedRecord
    (host : Host)
    (bans : List SavedBan)
    (source : Src) : Option BanRecord :=
  (bans.find? fun ban =>
    ban.ip = source && (savedSecs host ban).isSome).map fun ban =>
      ⟨ban.reason, ban.source, ban.strikes⟩

theorem restoreBans_record
    (host : Host)
    (bans : List SavedBan)
    (shared : Shared Score)
    (source : Src) :
    (bans.foldl (restoreBan host) shared).records.lookup source =
      (shared.records.lookup source).or
        (savedRecord host bans source) := by
  induction bans generalizing shared with
  | nil =>
      exact Option.or_none.symm
  | cons ban rest inductionHypothesis =>
      rw [List.foldl_cons, inductionHypothesis]
      rcases restoreBan_record host shared ban source with
        same | ⟨isBan, runs, unknown, restored⟩
      · rw [same]
        cases known : shared.records.lookup source with
        | some record => rfl
        | none =>
            rw [Option.none_or, Option.none_or, savedRecord, savedRecord,
              List.find?_cons_of_neg]
            intro isFirst
            rw [Bool.and_eq_true, decide_eq_true_iff] at isFirst
            obtain ⟨isBan, runs⟩ := isFirst
            subst isBan
            obtain ⟨secs, isSecs⟩ := Option.isSome_iff_exists.mp runs
            unfold restoreBan at same
            rw [isSecs] at same
            dsimp only at same
            rw [known, Option.isSome_none, if_neg Bool.false_ne_true,
              AList.lookup_insert] at same
            cases same
      · subst isBan
        rw [restored, unknown, Option.some_or, Option.none_or, savedRecord,
          List.find?_cons_of_pos]
        · rfl
        · rw [Bool.and_eq_true, decide_eq_true_iff]
          exact ⟨rfl, Option.isSome_iff_ne_none.mpr runs⟩

theorem savedRecord_of_notMem
    {host : Host}
    {bans : List SavedBan}
    (absent : ∀ ban ∈ bans, source ≠ ban.ip) :
    savedRecord host bans source = none := by
  have notFound :
      (bans.find? fun ban =>
        ban.ip = source && (savedSecs host ban).isSome) = none := by
    rw [List.find?_eq_none]
    intro ban member isFirst
    rw [Bool.and_eq_true, decide_eq_true_iff] at isFirst
    exact absent ban member isFirst.1.symm
  rw [savedRecord, notFound]
  rfl

theorem savedRecord_of_mem
    {bans : List SavedBan}
    {ban : SavedBan}
    (distinct : (bans.map SavedBan.ip).Nodup)
    (member : ban ∈ bans) :
    savedRecord host bans ban.ip =
      (savedSecs host ban).map fun _ =>
        ⟨ban.reason, ban.source, ban.strikes⟩ := by
  have isBan
      {other : SavedBan}
      (inBans : other ∈ bans)
      (wanted :
        (other.ip = ban.ip && (savedSecs host other).isSome) = true) :
      other = ban ∧ (savedSecs host ban).isSome := by
    rw [Bool.and_eq_true, decide_eq_true_iff] at wanted
    have same : other = ban :=
      List.inj_on_of_nodup_map distinct inBans member wanted.1
    rw [same] at wanted
    exact ⟨same, wanted.2⟩
  rw [savedRecord]
  cases found :
      bans.find? fun other =>
        other.ip = ban.ip && (savedSecs host other).isSome with
  | some first =>
      have wanted := List.find?_some found
      obtain ⟨same, runs⟩ := isBan (List.mem_of_find?_eq_some found) wanted
      obtain ⟨secs, isSecs⟩ := Option.isSome_iff_exists.mp runs
      rw [same, isSecs]
      rfl
  | none =>
      cases runs : savedSecs host ban with
      | none =>
          rfl
      | some secs =>
          have unwanted := List.find?_eq_none.mp found ban member
          rw [runs] at unwanted
          simp at unwanted

/-- A source that is in the maps keeps its entry through a restore. -/
theorem restoreBans_entry
    {bans : List SavedBan}
    (present : shared.blocklist.contains source = true) :
    (bans.foldl (restoreBan host) shared).blocklist.lookup source =
      shared.blocklist.lookup source := by
  induction bans generalizing shared with
  | nil =>
      rfl
  | cons ban rest inductionHypothesis =>
      have kept :
          (shared.restoreBan host ban).blocklist.lookup source =
            shared.blocklist.lookup source :=
        restoreBan_entry present
      rw [List.foldl_cons, inductionHypothesis, kept]
      rwa [Blocklist.contains, kept]

theorem contains_of_restoreBans
    {bans : List SavedBan}
    (present :
      (bans.foldl (restoreBan host) shared).blocklist.contains source =
        true) :
    shared.blocklist.contains source = true ∨
      ∃ ban ∈ bans, ban.ip = source ∧ savedSecs host ban ≠ none := by
  induction bans generalizing shared with
  | nil =>
      exact .inl present
  | cons ban rest inductionHypothesis =>
      rcases inductionHypothesis present with old | ⟨later, member, held⟩
      · rcases contains_of_restoreBan old with older | ⟨isBan, runs⟩
        · exact .inl older
        · exact .inr ⟨ban, List.mem_cons_self, isBan.symm, runs⟩
      · exact .inr ⟨later, List.mem_cons_of_mem _ member, held⟩

/-- The saved offenders are no business of the bans. -/
theorem restore_maps
    (host : Host)
    (saved : Saved)
    (shared : Shared Score) :
    (shared.restore host saved).blocklist =
        (saved.bans.foldl (restoreBan host) shared).blocklist ∧
      (shared.restore host saved).records =
        (saved.bans.foldl (restoreBan host) shared).records := by
  rw [restore, restoreOffenders_eq]
  exact ⟨rfl, rfl⟩

/-- A sweep bans nobody. -/
theorem contains_of_sweep
    (present :
      (shared.sweep host).blocklist.contains source = true) :
    shared.blocklist.contains source = true := by
  have folded :
      ∀ (entries : List (Src × U64)) (swept : Shared Score),
        (entries.foldl (sweepEntry host) swept).blocklist.contains source =
          true →
        swept.blocklist.contains source = true := by
    intro entries
    induction entries with
    | nil =>
        intro swept here
        exact here
    | cons entry rest inductionHypothesis =>
        intro swept later
        have here := inductionHypothesis _ later
        rcases swept.sweepEntry_lookup host entry source with
          same | ⟨_, _, gone⟩
        · rwa [Blocklist.contains, ← same]
        · rw [Blocklist.contains, gone] at here
          cases here
  exact folded _ _ present

/-- A ban that runs on outlives the protected addresses and a sweep. -/
theorem kept_of_running
    (host later : Host)
    (autoProtected : List Cidr)
    (ownV6Prefixes : List U64)
    (cfg : Config)
    {expiry : U64}
    (banned : shared.blocklist.lookup source = some expiry)
    (runs : remaining later expiry ≠ none)
    (notAuto :
      ∀ record ∈ shared.records.lookup source, record.source ≠ "auto") :
    let swept :=
      (shared.refreshProtection host autoProtected ownV6Prefixes
        cfg).sweep later
    swept.blocklist.lookup source = some expiry ∧
      swept.records.lookup source =
        some ((shared.records.lookup source).getD manualRecord) := by
  obtain ⟨sameEntry, sameRecord⟩ :=
    refreshProtection_other host autoProtected ownV6Prefixes cfg notAuto
  have entry := sameEntry.trans banned
  constructor
  · rw [sweep_lookup_of_running, entry]
    intro other isEntry
    rw [entry] at isEntry
    cases isEntry
    exact runs
  · rw [sweep_record, entry, sameRecord, Option.bind_some, sweptRecord,
      if_neg runs]

/-- An event brings no ban of certain sources that the kernel would take. -/
def Spares
    [ScoreArith Score]
    (host : Host)
    (shared : Shared Score)
    (kept : Src → Prop)
    (event : PacketEvent) : Prop :=
  shared.enforce = true →
    ∀ ban ∈ (shared.detector.observe Score event host.bootSecs).1,
      kept ban.ip → host.refusesInsert ban.ip = true

/-- No event of a batch brings such a ban. -/
def SparesAll
    [ScoreArith Score]
    (host : Host)
    (shared : Shared Score)
    (kept : Src → Prop)
    (batch : List PacketEvent) : Prop :=
  Runs.Stepwise
    (fun past => (Runs.run (handleEvent host) shared past).Spares host kept)
    batch

/-- An event that spares a source leaves its entry and record alone. -/
theorem handleEvent_spared
    [ScoreArith Score]
    {kept : Src → Prop}
    {event : PacketEvent}
    (spared : shared.Spares host kept event)
    (isKept : kept source) :
    (shared.handleEvent host event).blocklist.lookup source =
        shared.blocklist.lookup source ∧
      (shared.handleEvent host event).records.lookup source =
        shared.records.lookup source := by
  unfold handleEvent
  dsimp only
  split
  · rename_i ban banned
    let observed : Shared Score :=
      { shared with
        detector :=
          (shared.detector.observe Score event host.bootSecs).2 }
    show
      (observed.enact host ban).blocklist.lookup source =
          observed.blocklist.lookup source ∧
        (observed.enact host ban).records.lookup source =
          observed.records.lookup source
    have ofUnchanged
        (unchanged :
          (observed.enact host ban).blocklist = observed.blocklist ∧
            (observed.enact host ban).records = observed.records) :
        (observed.enact host ban).blocklist.lookup source =
            observed.blocklist.lookup source ∧
          (observed.enact host ban).records.lookup source =
            observed.records.lookup source := by
      rw [unchanged.1, unchanged.2]
      exact ⟨rfl, rfl⟩
    cases mode : shared.enforce with
    | false => exact ofUnchanged (enact_of_watching mode)
    | true =>
        by_cases same : source = ban.ip
        · exact ofUnchanged
            (enact_of_refused (spared mode ban banned (same ▸ isKept)))
        · exact ⟨enact_lookup_of_ne host observed ban same,
            enact_record_of_ne host observed ban same⟩
  · exact ⟨rfl, rfl⟩

namespace Lasting

theorem sweep
    (lasting : shared.Lasting source) :
    (shared.sweep host).Lasting source where
  entry := by
    rw [sweep_lookup_of_running, lasting.entry]
    intro expiry isEntry
    rw [lasting.entry] at isEntry
    cases isEntry
    rw [remaining_forever]
    exact Option.some_ne_none 0
  record := by
    rw [sweep_record, lasting.entry]
    intro record isRecord
    rw [Option.bind_some, sweptRecord, remaining_forever,
      if_neg (Option.some_ne_none 0)] at isRecord
    cases isRecord
    cases known : shared.records.lookup source with
    | none => decide
    | some record => exact lasting.record record known

theorem refreshProtection
    {autoProtected : List Cidr}
    {ownV6Prefixes : List U64}
    {cfg : Config}
    (lasting : shared.Lasting source) :
    (shared.refreshProtection host autoProtected ownV6Prefixes
      cfg).Lasting source := by
  obtain ⟨entry, record⟩ :=
    refreshProtection_other host autoProtected ownV6Prefixes cfg
      lasting.record
  exact ⟨entry.trans lasting.entry, record ▸ lasting.record⟩

theorem restoreBan
    {ban : SavedBan}
    (notAuto : ban.ip = source → ban.source ≠ "auto")
    (lasting : shared.Lasting source) :
    (shared.restoreBan host ban).Lasting source where
  entry := by
    refine (restoreBan_entry ?_).trans lasting.entry
    rw [Blocklist.contains, lasting.entry]
    rfl
  record := by
    rcases restoreBan_record host shared ban source with
      same | ⟨isBan, _, _, restored⟩
    · rw [same]
      exact lasting.record
    · rw [restored]
      intro record isRecord
      cases isRecord
      exact notAuto isBan.symm

theorem restoreBans
    {bans : List SavedBan}
    (notAuto : ∀ ban ∈ bans, ban.ip = source → ban.source ≠ "auto")
    (lasting : shared.Lasting source) :
    (bans.foldl (Shared.restoreBan host) shared).Lasting source := by
  induction bans generalizing shared with
  | nil =>
      exact lasting
  | cons ban rest inductionHypothesis =>
      obtain ⟨first, others⟩ := List.forall_mem_cons.mp notAuto
      exact inductionHypothesis others (lasting.restoreBan first)

end Lasting

end

end Shared

end AiFirewall
