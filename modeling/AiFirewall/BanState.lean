import AiFirewall.Addr
import AiFirewall.BoundedTables
import AiFirewall.Detector

namespace AiFirewall

/-!
# Ban records, the pinned blocklist, and what survives a reboot

The two pinned kernel ban maps seen as one list of sources, the kernel's
expiry values, and the state file: bans and offenders with wall-clock times.
-/

/-- What the host answers during one call: its clocks, and failing writes. -/
structure Host where
  /-- `CLOCK_BOOTTIME`. -/
  bootNs : U64
  unixSecs : U64
  /-- The kernel refuses to write, although the map has room. -/
  refusesInsert : Src → Bool
  refusesRemove : Src → Bool

namespace Host

def bootSecs (host : Host) : U64 :=
  host.bootNs / 1000000000

end Host

/-- Both ban maps; the second one is missing in an older build. -/
structure Blocklist where
  v4 : BoundedMap U32 U64 65536
  v6 : Option (BoundedMap U64 U64 16384)

namespace Blocklist

/-- The expiry stored for a source. -/
def lookup (blocklist : Blocklist) : Src → Option U64
  | .v4 ip => blocklist.v4.get? ip
  | .v6 networkPrefix => blocklist.v6.bind fun map => map.get? networkPrefix

def insert?
    (host : Host)
    (blocklist : Blocklist)
    (source : Src)
    (expiry : U64) : Option Blocklist :=
  if host.refusesInsert source then
    none
  else
    match source with
    | .v4 ip =>
        (blocklist.v4.insert? ip expiry).map fun v4 =>
          { blocklist with v4 := v4 }
    | .v6 networkPrefix =>
        blocklist.v6.bind fun map =>
          (map.insert? networkPrefix expiry).map fun v6 =>
            { blocklist with v6 := some v6 }

def remove?
    (host : Host)
    (blocklist : Blocklist)
    (source : Src) : Option Blocklist :=
  if host.refusesRemove source then
    none
  else
    match source with
    | .v4 ip =>
        (blocklist.v4.remove? ip).map fun v4 =>
          { blocklist with v4 := v4 }
    | .v6 networkPrefix =>
        blocklist.v6.bind fun map =>
          (map.remove? networkPrefix).map fun v6 =>
            { blocklist with v6 := some v6 }

/-- `let _ = remove(…)`: a removal whose failure is ignored. -/
def drop
    (host : Host)
    (blocklist : Blocklist)
    (source : Src) : Blocklist :=
  (blocklist.remove? host source).getD blocklist

def contains (blocklist : Blocklist) (source : Src) : Bool :=
  (blocklist.lookup source).isSome

/-- Every source in the maps with its kernel expiry. -/
def entries (blocklist : Blocklist) : List (Src × U64) :=
  (blocklist.v4.toList.map fun entry => (.v4 entry.1, entry.2)) ++
    match blocklist.v6 with
    | some map => map.toList.map fun entry => (.v6 entry.1, entry.2)
    | none => []

theorem mem_entries
    {blocklist : Blocklist}
    {source : Src}
    {expiry : U64} :
    (source, expiry) ∈ blocklist.entries ↔
      blocklist.lookup source = some expiry := by
  rcases blocklist with ⟨v4, v6⟩
  cases source with
  | v4 ip =>
      cases v6 <;>
        simp [entries, lookup, BoundedMap.mem_toList]
  | v6 networkPrefix =>
      cases v6 <;>
        simp [entries, lookup, BoundedMap.mem_toList]

/-- An accepted insertion changes exactly its own source. -/
theorem lookup_of_insert?
    {host : Host}
    {blocklist changed : Blocklist}
    {source : Src}
    {expiry : U64}
    (accepted : blocklist.insert? host source expiry = some changed)
    (query : Src) :
    changed.lookup query =
      if query = source then some expiry else blocklist.lookup query := by
  unfold insert? at accepted
  split at accepted
  · cases accepted
  cases source with
  | v4 ip =>
      obtain ⟨v4, inserted, same⟩ := Option.map_eq_some_iff.mp accepted
      subst same
      cases query with
      | v4 other =>
          simp only [lookup, Src.v4.injEq]
          exact BoundedMap.get?_of_insert? inserted other
      | v6 other => simp [lookup]
  | v6 networkPrefix =>
      obtain ⟨map, present, insertedMap⟩ :=
        Option.bind_eq_some_iff.mp accepted
      obtain ⟨v6, inserted, same⟩ := Option.map_eq_some_iff.mp insertedMap
      subst same
      cases query with
      | v4 other => simp [lookup]
      | v6 other =>
          simp only [lookup, present, Option.bind_some, Src.v6.injEq]
          exact BoundedMap.get?_of_insert? inserted other

/-- An accepted removal changes exactly its own source. -/
theorem lookup_of_remove?
    {host : Host}
    {blocklist changed : Blocklist}
    {source : Src}
    (accepted : blocklist.remove? host source = some changed)
    (query : Src) :
    changed.lookup query =
      if query = source then none else blocklist.lookup query := by
  unfold remove? at accepted
  split at accepted
  · cases accepted
  cases source with
  | v4 ip =>
      obtain ⟨v4, removed, same⟩ := Option.map_eq_some_iff.mp accepted
      subst same
      cases query with
      | v4 other =>
          simp only [lookup, Src.v4.injEq]
          exact BoundedMap.get?_of_remove? removed other
      | v6 other => simp [lookup]
  | v6 networkPrefix =>
      obtain ⟨map, present, removedMap⟩ :=
        Option.bind_eq_some_iff.mp accepted
      obtain ⟨v6, removed, same⟩ := Option.map_eq_some_iff.mp removedMap
      subst same
      cases query with
      | v4 other => simp [lookup]
      | v6 other =>
          simp only [lookup, present, Option.bind_some, Src.v6.injEq]
          exact BoundedMap.get?_of_remove? removed other

/-- Dropping a source adds nothing and leaves the other sources alone. -/
theorem lookup_drop
    (host : Host)
    (blocklist : Blocklist)
    (source query : Src) :
    (blocklist.drop host source).lookup query =
        blocklist.lookup query ∨
      query = source ∧ (blocklist.drop host source).lookup query = none := by
  unfold drop
  cases removed : blocklist.remove? host source with
  | none => exact .inl rfl
  | some changed =>
      rw [Option.getD_some, lookup_of_remove? removed]
      split
      · exact .inr ⟨by assumption, rfl⟩
      · exact .inl rfl

theorem contains_of_drop
    {host : Host}
    {blocklist : Blocklist}
    {source query : Src}
    (present : (blocklist.drop host source).contains query = true) :
    blocklist.contains query = true := by
  rcases blocklist.lookup_drop host source query with same | ⟨_, gone⟩
  · rwa [contains, ← same]
  · rw [contains, gone] at present
    cases present

/-- An insertion, accepted or not, adds no other source. -/
theorem contains_of_insert?
    {host : Host}
    {blocklist : Blocklist}
    {source query : Src}
    {expiry : U64}
    (present :
      ((blocklist.insert? host source expiry).getD blocklist).contains
          query = true) :
    blocklist.contains query = true ∨ query = source := by
  cases inserted : blocklist.insert? host source expiry with
  | none =>
      rw [inserted] at present
      exact .inl present
  | some changed =>
      rw [inserted, Option.getD_some, contains,
        lookup_of_insert? inserted] at present
      split at present
      · exact .inr (by assumption)
      · exact .inl present

theorem drop_of_refused
    {host : Host}
    {blocklist : Blocklist}
    {source : Src}
    (refused : host.refusesRemove source = true) :
    blocklist.drop host source = blocklist := by
  simp [drop, remove?, refused]

/-- Dropping what is not there changes nothing. -/
theorem drop_of_absent
    {host : Host}
    {blocklist : Blocklist}
    {source : Src}
    (absent : blocklist.lookup source = none) :
    blocklist.drop host source = blocklist := by
  unfold drop remove?
  split
  · rfl
  · cases source with
    | v4 ip =>
        have gone : blocklist.v4.get? ip = none := absent
        simp [BoundedMap.remove?, gone]
    | v6 networkPrefix =>
        cases present : blocklist.v6 with
        | none => simp
        | some map =>
            have gone : map.get? networkPrefix = none := by
              simpa [lookup, present] using absent
            simp [BoundedMap.remove?, gone]

/-- An IPv4 ban goes into the first map. -/
theorem v4_of_insert?
    {host : Host}
    {blocklist changed : Blocklist}
    {ip : U32}
    {expiry : U64}
    (accepted : blocklist.insert? host (.v4 ip) expiry = some changed) :
    blocklist.v4.insert? ip expiry = some changed.v4 ∧
      changed.v6 = blocklist.v6 := by
  unfold insert? at accepted
  split at accepted
  · cases accepted
  obtain ⟨v4, inserted, same⟩ := Option.map_eq_some_iff.mp accepted
  subst same
  exact ⟨inserted, rfl⟩

/-- A removal that the kernel does not refuse leaves nothing behind. -/
theorem lookup_drop_of_willing
    {host : Host}
    {blocklist : Blocklist}
    {source : Src}
    (willing : ¬host.refusesRemove source = true) :
    (blocklist.drop host source).lookup source = none := by
  unfold drop
  cases removed : blocklist.remove? host source with
  | some changed =>
      exact (lookup_of_remove? removed source).trans (if_pos rfl)
  | none =>
      unfold remove? at removed
      rw [if_neg willing] at removed
      cases source with
      | v4 ip =>
          simpa [BoundedMap.remove?, lookup] using removed
      | v6 networkPrefix =>
          simpa [BoundedMap.remove?, lookup] using removed

/-- Whether the second map is there does not change. -/
theorem v6_isSome_of_insert?
    {host : Host}
    {blocklist changed : Blocklist}
    {source : Src}
    {expiry : U64}
    (accepted : blocklist.insert? host source expiry = some changed) :
    changed.v6.isSome = blocklist.v6.isSome := by
  unfold insert? at accepted
  split at accepted
  · cases accepted
  cases source with
  | v4 ip =>
      obtain ⟨v4, _, same⟩ := Option.map_eq_some_iff.mp accepted
      rw [← same]
  | v6 networkPrefix =>
      obtain ⟨map, present, insertedMap⟩ :=
        Option.bind_eq_some_iff.mp accepted
      obtain ⟨v6, _, same⟩ := Option.map_eq_some_iff.mp insertedMap
      rw [← same, present]
      rfl

theorem v6_isSome_drop
    (host : Host)
    (blocklist : Blocklist)
    (source : Src) :
    (blocklist.drop host source).v6.isSome = blocklist.v6.isSome := by
  unfold drop
  cases removed : blocklist.remove? host source with
  | none => rfl
  | some changed =>
      unfold remove? at removed
      split at removed
      · cases removed
      cases source with
      | v4 ip =>
          obtain ⟨v4, _, same⟩ := Option.map_eq_some_iff.mp removed
          rw [← same]
          rfl
      | v6 networkPrefix =>
          obtain ⟨map, present, removedMap⟩ :=
            Option.bind_eq_some_iff.mp removed
          obtain ⟨v6, _, same⟩ := Option.map_eq_some_iff.mp removedMap
          rw [← same, present]
          rfl

/-- The kernel has room for what it already holds. -/
theorem insert?_of_present
    {host : Host}
    {blocklist : Blocklist}
    {ip : Src}
    {found : U64}
    (willing : ¬host.refusesInsert ip = true)
    (present : blocklist.lookup ip = some found)
    (expiry : U64) :
    ∃ changed, blocklist.insert? host ip expiry = some changed := by
  unfold insert?
  rw [if_neg willing]
  cases ip with
  | v4 ip =>
      have isSome : (blocklist.v4.get? ip).isSome := by
        rw [show blocklist.v4.get? ip = some found from present]
        rfl
      obtain ⟨v4, inserted⟩ := Option.isSome_iff_exists.mp
        (BoundedMap.insert?_isSome_of_present isSome expiry)
      dsimp only
      rw [inserted]
      exact ⟨_, rfl⟩
  | v6 networkPrefix =>
      obtain ⟨map, isMap, isFound⟩ := Option.bind_eq_some_iff.mp present
      have isSome : (map.get? networkPrefix).isSome := by
        rw [isFound]
        rfl
      obtain ⟨v6, inserted⟩ := Option.isSome_iff_exists.mp
        (BoundedMap.insert?_isSome_of_present isSome expiry)
      dsimp only
      rw [isMap, Option.bind_some, inserted]
      exact ⟨_, rfl⟩

/-- The entries of both maps have distinct sources. -/
theorem nodup_entries (blocklist : Blocklist) :
    (blocklist.entries.map Prod.fst).Nodup := by
  have v4Sources :
      ((blocklist.v4.toList.map fun entry =>
          (Src.v4 entry.1, entry.2)).map Prod.fst).Nodup := by
    have nodup :=
      (Table.nodup_toList blocklist.v4.table).map
        (fun _ _ same => Src.v4.inj same : Function.Injective Src.v4)
    simpa [BoundedMap.toList, Function.comp_def] using nodup
  unfold entries
  cases blocklist.v6 with
  | none =>
      simpa using v4Sources
  | some map =>
      have v6Sources :
          ((map.toList.map fun entry =>
              (Src.v6 entry.1, entry.2)).map Prod.fst).Nodup := by
        have nodup :=
          (Table.nodup_toList map.table).map
            (fun _ _ same => Src.v6.inj same : Function.Injective Src.v6)
        simpa [BoundedMap.toList, Function.comp_def] using nodup
      rw [List.map_append, List.nodup_append]
      refine ⟨v4Sources, v6Sources, ?_⟩
      intro first inV4 second inV6 same
      simp only [List.map_map, List.mem_map, Function.comp_apply]
        at inV4 inV6
      obtain ⟨_, _, isFirst⟩ := inV4
      obtain ⟨_, _, isSecond⟩ := inV6
      rw [← isFirst, ← isSecond] at same
      cases same

/-- Maps with no other sources than these have room for one of them. -/
theorem insert?_isSome_of_within
    {host : Host}
    {limit blocklist : Blocklist}
    {source : Src}
    (willing : host.refusesInsert source = false)
    (bothMaps : blocklist.v6.isSome)
    (within :
      ∀ other, blocklist.contains other = true →
        limit.contains other = true)
    (listed : limit.contains source = true)
    (absent : blocklist.lookup source = none)
    (expiry : U64) :
    ∃ changed, blocklist.insert? host source expiry = some changed := by
  rw [← Option.isSome_iff_exists]
  unfold insert?
  rw [willing, if_neg Bool.false_ne_true]
  cases source with
  | v4 ip =>
      have room : blocklist.v4.size < 65536 :=
        BoundedMap.size_lt_of_within
          (fun key present => within (.v4 key) present) listed absent
      simpa using
        (BoundedMap.insert?_isSome_of_absent absent expiry).mpr room
  | v6 networkPrefix =>
      obtain ⟨map, present⟩ := Option.isSome_iff_exists.mp bothMaps
      cases limited : limit.v6 with
      | none =>
          rw [contains, lookup, limited] at listed
          cases listed
      | some largest =>
          have absentHere : map.get? networkPrefix = none := by
            simpa [lookup, present] using absent
          have sources :
              ∀ key, (map.get? key).isSome →
                (largest.get? key).isSome := by
            intro key
            simpa [contains, lookup, present, limited]
              using within (.v6 key)
          have listedHere : (largest.get? networkPrefix).isSome := by
            simpa [contains, lookup, limited] using listed
          have room : map.size < 16384 :=
            BoundedMap.size_lt_of_within sources listedHere absentHere
          simpa [present] using
            (BoundedMap.insert?_isSome_of_absent absentHere expiry).mpr
              room

end Blocklist

/-- The kernel expiry of a ban lasting `secs`; 0 is forever. -/
def expiryFor (host : Host) (secs : U64) : U64 :=
  if secs = 0 then
    banForever
  else
    host.bootNs + secs * 1000000000

/-- Seconds left, rounded up; none when expired, 0 when forever. -/
def remaining (host : Host) (expiry : U64) : Option U64 :=
  if expiry = banForever then
    some 0
  else if host.bootNs < expiry then
    let left := expiry - host.bootNs
    let whole := left / 1000000000
    some (if left % 1000000000 = 0 then whole else whole + 1)
  else
    none

structure BanRecord where
  reason : String
  /-- `auto`, `manual` or `config`. -/
  source : String
  strikes : U32
  deriving Repr, DecidableEq

def manualRecord : BanRecord :=
  ⟨"banned by hand", "manual", 0⟩

structure SavedBan where
  ip : Src
  /-- Wall-clock expiry; 0 is forever. -/
  expiresUnix : U64
  reason : String
  source : String
  strikes : U32
  deriving Repr, DecidableEq

structure SavedOffender where
  ip : Src
  strikes : U32
  lastBanUnix : U64
  deriving Repr, DecidableEq

/-- The offender a saved one becomes by the clocks of another start. -/
def SavedOffender.restored
    (host : Host)
    (offender : SavedOffender) : Offender where
  strikes := offender.strikes
  lastBan :=
    U64.saturatingSub host.bootSecs
      (U64.saturatingSub host.unixSecs offender.lastBanUnix)

/-- The state file. -/
structure Saved where
  bans : List SavedBan
  offenders : List SavedOffender
  deriving Repr, DecidableEq

namespace Saved

/-- What a missing or broken state file counts as. -/
def default : Saved :=
  ⟨[], []⟩

/-- The saved form of one ban that still runs. -/
def ban?
    (host : Host)
    (records : Table Src BanRecord)
    (entry : Src × U64) : Option SavedBan :=
  (remaining host entry.2).map fun left =>
    let record := (records.lookup entry.1).getD manualRecord
    { ip := entry.1
      expiresUnix := if left = 0 then 0 else host.unixSecs + left
      reason := record.reason
      source := record.source
      strikes := record.strikes }

/-- The saved form of one offender. -/
def offender
    (host : Host)
    (ip : Src)
    (offender : Offender) : SavedOffender where
  ip := ip
  strikes := offender.strikes
  lastBanUnix :=
    U64.saturatingSub host.unixSecs
      (U64.saturatingSub host.bootSecs offender.lastBan)

def capture
    (host : Host)
    (blocklist : Blocklist)
    (records : Table Src BanRecord)
    (offenders : Table Src Offender) : Saved where
  bans := blocklist.entries.filterMap (ban? host records)
  offenders := offenders.toList.map fun entry =>
    offender host entry.1 entry.2

end Saved

end AiFirewall
