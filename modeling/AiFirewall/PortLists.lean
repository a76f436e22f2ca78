import AiFirewall.LostEdits
import AiFirewall.PolicyDecision
import AiFirewall.TrimmedText

namespace AiFirewall

/-!
# The ports a file opens, after an edit

`open` and `close` work on the entries of a list by their spelling; what a
list opens is a set of ports.  Opening always adds exactly the ports asked
for.  Closing removes the first entry that is spelled alike, and what the
other entries open of the same ports stays open.
-/

open RustText

namespace Config

/-- The base list of a protocol. -/
def allow (cfg : Config) : Proto → List PortSpec
  | .tcp => cfg.allowTcp
  | .udp => cfg.allowUdp

/-- The settings with another base list for a protocol. -/
def withAllow
    (cfg : Config)
    (proto : Proto)
    (specs : List PortSpec) : Config :=
  match proto with
  | .tcp => { cfg with allowTcp := specs }
  | .udp => { cfg with allowUdp := specs }

@[simp] theorem allow_withAllow
    (cfg : Config)
    (proto : Proto)
    (specs : List PortSpec) :
    (cfg.withAllow proto specs).allow proto = specs := by
  cases proto <;> rfl

@[simp] theorem withAllow_allow
    (cfg : Config)
    (proto : Proto) :
    cfg.withAllow proto (cfg.allow proto) = cfg := by
  cases proto <;> rfl

end Config

/-- The key of a protocol's list. -/
def Proto.listKey : Proto → String
  | .tcp => "allow_tcp"
  | .udp => "allow_udp"

/-- How a specification stands in a list. -/
def PortSpec.tomlValue : PortSpec → TomlValue
  | .one port => .integer port.toNat
  | .text raw => .text raw

namespace PortEdit

/-- A specification is spelled like the one asked for. -/
def spells (edit : PortEdit) (spec : PortSpec) : Bool :=
  match edit.port, spec with
  | .one port, .one found => found = port
  | .text raw, .text found => trim found.toList = trim raw.toList
  | _, _ => false

/-- The specification that is pushed. -/
def pushed (edit : PortEdit) : PortSpec :=
  match edit.port with
  | .one port => .one port
  | .text raw => .text (String.ofList (trim raw.toList))

theorem isAt_tomlValue
    (edit : PortEdit)
    (spec : PortSpec) :
    edit.isAt spec.tomlValue = edit.spells spec := by
  unfold isAt spells
  cases edit.port <;> cases spec <;>
    simp [PortSpec.tomlValue, ← BitVec.toNat_inj]

theorem findIdx?_isAt
    (edit : PortEdit)
    (specs : List PortSpec) :
    (specs.map PortSpec.tomlValue).findIdx? edit.isAt =
      specs.findIdx? edit.spells := by
  induction specs with
  | nil =>
      rfl
  | cons spec rest inductionHypothesis =>
      rw [List.map_cons, List.findIdx?_cons, List.findIdx?_cons,
        isAt_tomlValue, inductionHypothesis]

theorem key_of_word
    {edit : PortEdit}
    {proto : Proto}
    (isWord : edit.proto = proto.word) :
    edit.key = .ok proto.listKey := by
  unfold key
  rw [isWord]
  cases proto <;> rfl

end PortEdit

namespace PortSpec

/-- The two ends of a range, both the whole text if that is one port. -/
def ends (raw : List Char) : List Char × List Char :=
  (splitOnce '-' raw).getD (raw, raw)

theorem ends_trim (raw : List Char) :
    trim (ends (trim raw)).1 = trim (ends raw).1 ∧
      trim (ends (trim raw)).2 = trim (ends raw).2 := by
  unfold ends
  cases split : splitOnce '-' raw with
  | none =>
      have absent : '-' ∉ trim raw := by
        intro member
        obtain ⟨before, after, whole, _⟩ := exists_trim raw
        refine splitOnce_eq_none.mp split ?_
        rw [whole]
        simp [member]
      rw [splitOnce_eq_none.mpr absent]
      exact ⟨trim_trim raw, trim_trim raw⟩
  | some pieces =>
      obtain ⟨before, after⟩ := pieces
      obtain ⟨whole, absent⟩ := splitOnce_eq_some.mp split
      have trimmed :
          splitOnce '-' (trim raw) =
            some (before.dropWhile isWhitespace,
              after.rdropWhile isWhitespace) := by
        refine splitOnce_eq_some.mpr ⟨?_, fun member => ?_⟩
        · rw [whole]
          exact trim_around (by decide) before after
        · exact absent (List.dropWhile_subset _ member)
      rw [trimmed]
      exact ⟨trim_dropWhile before, trim_rdropWhile after⟩

/-- A text is a range when both its ends are numbers in order. -/
theorem ports_text
    (raw : String)
    (range : U16 × U16) :
    (text raw).ports = .ok range ↔
      parseNumber 16 (trim (ends raw.toList).1) = .ok range.1 ∧
        parseNumber 16 (trim (ends raw.toList).2) = .ok range.2 ∧
        ¬(range.1 = 0 ∨ range.2 < range.1 ∨
          4096 ≤ range.2.toNat - range.1.toNat) := by
  have unfolded :
      (text raw).ports =
        (do
          let badPort := "bad port " ++ debugText raw
          let first ← Error.withContext badPort
            (parseNumber 16 (trim (ends raw.toList).1))
          let last ← Error.withContext badPort
            (parseNumber 16 (trim (ends raw.toList).2))
          if first = 0 ∨ last < first ∨ 4096 ≤ last.toNat - first.toNat then
            Error.bail ("bad port range " ++ debugText raw ++
              " (1-65535, at most 4096 ports)")
          else
            .ok (first, last)) :=
    rfl
  rw [unfolded]
  simp only [Error.bind_ok, Error.withContext_ok]
  constructor
  · rintro ⟨first, firstRead, last, lastRead, isRange⟩
    split at isRange
    · cases isRange
    · rename_i usable
      cases isRange
      exact ⟨firstRead, lastRead, usable⟩
  · rintro ⟨firstRead, lastRead, usable⟩
    exact ⟨range.1, firstRead, range.2, lastRead, if_neg usable⟩

/-- White space around a specification does not matter. -/
theorem ports_trim
    (raw : String)
    (range : U16 × U16) :
    (text (String.ofList (trim raw.toList))).ports = .ok range ↔
      (text raw).ports = .ok range := by
  rw [ports_text, ports_text, String.toList_ofList,
    (ends_trim raw.toList).1, (ends_trim raw.toList).2]

theorem covers_of_ports_iff
    {first second : PortSpec}
    (same : ∀ range, first.ports = .ok range ↔ second.ports = .ok range) :
    first.covers = second.covers := by
  funext port
  unfold covers
  cases read : first.ports with
  | ok range => rw [(same range).mp read]
  | error failure =>
      cases other : second.ports with
      | error _ => rfl
      | ok range =>
          rw [(same range).mpr other] at read
          cases read

/-- Two texts that are trimmed alike are the same ports. -/
theorem covers_of_trim
    {first second : String}
    (same : trim first.toList = trim second.toList) :
    (text first).covers = (text second).covers := by
  refine covers_of_ports_iff fun range => ?_
  rw [← ports_trim first, same, ports_trim second]

end PortSpec

namespace PortEdit

theorem covers_pushed (edit : PortEdit) :
    edit.pushed.covers = edit.port.covers := by
  unfold pushed
  cases edit.port with
  | one port => rfl
  | text raw => exact PortSpec.covers_of_ports_iff (PortSpec.ports_trim raw)

theorem covers_of_spells
    {edit : PortEdit}
    {spec : PortSpec}
    (alike : edit.spells spec = true) :
    spec.covers = edit.port.covers := by
  unfold spells at alike
  split at alike
  · rename_i port found isOne
    rw [isOne, of_decide_eq_true alike]
  · rename_i raw found isText
    rw [isText]
    exact PortSpec.covers_of_trim (of_decide_eq_true alike)
  · cases alike

/-- The list of specifications after the edit. -/
def edited (edit : PortEdit) (specs : List PortSpec) : List PortSpec :=
  if edit.opens then
    if specs.any edit.spells then specs else specs ++ [edit.pushed]
  else
    specs.eraseP edit.spells

/-- The ports that are to be open after the edit. -/
def Wanted
    (edit : PortEdit)
    (wasOpen : U16 → Prop)
    (port : U16) : Prop :=
  if edit.opens then
    wasOpen port ∨ edit.port.covers port = true
  else
    wasOpen port ∧ edit.port.covers port = false

/-- Only the first entry that is spelled like the port opens any of it. -/
def OpenedOnce (edit : PortEdit) (specs : List PortSpec) : Prop :=
  ∀ spec ∈ specs.eraseP edit.spells, ∀ port,
    edit.port.covers port = true → spec.covers port = false

/-- Some entry opens the port. -/
def Opened (specs : List PortSpec) (port : U16) : Prop :=
  ∃ spec ∈ specs, spec.covers port = true

/-- Opening opens exactly the port asked for, however that is spelled. -/
theorem opened_edited_of_opens
    {edit : PortEdit}
    (opens : edit.opens = true)
    (specs : List PortSpec)
    (port : U16) :
    Opened (edit.edited specs) port ↔ edit.Wanted (Opened specs) port := by
  rw [edited, if_pos opens, Wanted, if_pos opens]
  cases listed : specs.any edit.spells with
  | false =>
      simp [Opened, or_and_right, exists_or, covers_pushed]
  | true =>
      obtain ⟨spec, member, alike⟩ := List.any_eq_true.mp listed
      rw [if_pos rfl]
      refine ⟨.inl, ?_⟩
      rintro (already | asked)
      · exact already
      · refine ⟨spec, member, ?_⟩
        rw [covers_of_spells alike]
        exact asked

/-- What is open was open in the removed entry or is open in another. -/
theorem opened_iff_eraseP
    (edit : PortEdit)
    (specs : List PortSpec)
    (port : U16) :
    Opened specs port ↔
      Opened (specs.eraseP edit.spells) port ∨
        specs.any edit.spells = true ∧ edit.port.covers port = true := by
  constructor
  · rintro ⟨spec, member, covered⟩
    by_cases alike : edit.spells spec = true
    · refine .inr ⟨List.any_eq_true.mpr ⟨spec, member, alike⟩, ?_⟩
      rw [← covers_of_spells alike]
      exact covered
    · exact .inl ⟨spec, (List.mem_eraseP_of_neg alike).mpr member, covered⟩
  · rintro (⟨spec, member, covered⟩ | ⟨listed, covered⟩)
    · exact ⟨spec, List.mem_of_mem_eraseP member, covered⟩
    · obtain ⟨spec, member, alike⟩ := List.any_eq_true.mp listed
      refine ⟨spec, member, ?_⟩
      rw [covers_of_spells alike]
      exact covered

/-- Closing closes exactly the port if no other entry opens any of it. -/
theorem opened_edited_of_closes
    {edit : PortEdit}
    (closes : edit.opens = false)
    (specs : List PortSpec) :
    (∀ port,
        Opened (edit.edited specs) port ↔
          edit.Wanted (Opened specs) port) ↔
      edit.OpenedOnce specs := by
  have isEdited : edit.edited specs = specs.eraseP edit.spells := by
    simp [edited, closes]
  have wanted (port : U16) :
      edit.Wanted (Opened specs) port ↔
        Opened specs port ∧ edit.port.covers port = false := by
    simp [Wanted, closes]
  simp only [isEdited, wanted, opened_iff_eraseP edit specs]
  constructor
  · intro exact spec member port asked
    by_contra covered
    have stays := (exact port).mp ⟨spec, member, by simpa using covered⟩
    rw [asked] at stays
    cases stays.2
  · intro once port
    constructor
    · rintro ⟨spec, member, covered⟩
      refine ⟨.inl ⟨spec, member, covered⟩, ?_⟩
      by_contra asked
      rw [once spec member port (by simpa using asked)] at covered
      cases covered
    · rintro ⟨stays | ⟨_, asked⟩, notAsked⟩
      · exact stays
      · rw [asked] at notAsked
        cases notAsked

/-- An edit does what it is asked for: every opening, and some closings. -/
theorem opened_edited_iff
    (edit : PortEdit)
    (specs : List PortSpec) :
    (∀ port,
        Opened (edit.edited specs) port ↔
          edit.Wanted (Opened specs) port) ↔
      edit.opens = true ∨ edit.OpenedOnce specs := by
  cases opens : edit.opens with
  | true =>
      exact iff_of_true (opened_edited_of_opens opens specs) (.inl rfl)
  | false =>
      rw [opened_edited_of_closes opens]
      simp

end PortEdit

/-- Where the file system fails a command. -/
inductive DiskStage where
  | reading
  | creating
  /-- Only so many characters of the text reach the temporary file. -/
  | writing (kept : Nat)
  | renaming
  deriving Repr, DecidableEq

/-- A failure of the file system, and what it says. -/
structure DiskFault where
  stage : DiskStage
  reason : String
  deriving Repr, DecidableEq

/-- `write_atomic`: the temporary file, then the renaming. -/
def ConfigDirectory.writeAtomic
    (fault : Option DiskFault)
    (new : String)
    (directory : ConfigDirectory) :
    Except Error Bool × ConfigDirectory :=
  let (opened, file) := directory.openTemporary
  match fault with
  | some ⟨.creating, reason⟩ => (Error.bail reason, directory)
  | some ⟨.writing kept, reason⟩ =>
      (Error.bail reason,
        opened.write file (String.ofList (new.toList.take kept)))
  | some ⟨.renaming, reason⟩ => (Error.bail reason, opened.write file new)
  | _ =>
      match (opened.write file new).rename with
      | some renamed => (.ok true, renamed)
      | none =>
          (Error.bail "No such file or directory (os error 2)",
            opened.write file new)

/-- A failed write leaves the file alone, a finished one replaces it. -/
theorem ConfigDirectory.writeAtomic_text
    {fault : Option DiskFault}
    {new : String}
    {directory after : ConfigDirectory}
    {result : Except Error Bool}
    (sound : directory.Sound)
    (written : directory.writeAtomic fault new = (result, after)) :
    (∀ failure, result = .error failure → after.text = directory.text) ∧
      ∀ changed, result = .ok changed → after.text = new := by
  obtain ⟨openSound, sameText, named, empty⟩ :=
    openTemporary_spec sound
  have partly (part : String) :=
    (write_spec openSound named empty part).2.1.trans sameText
  obtain ⟨writeSound, _, holds⟩ := write_spec openSound named empty new
  have stillNamed :
      (directory.openTemporary.1.write directory.openTemporary.2
        new).temporary = some directory.openTemporary.2 :=
    named
  obtain ⟨renamed, isRenamed, _, newText⟩ :=
    rename_spec writeSound stillNamed
  unfold writeAtomic at written
  dsimp only at written
  rw [isRenamed] at written
  split at written
  · cases written
    exact ⟨fun _ _ => rfl, nofun⟩
  · rename_i kept reason
    cases written
    exact ⟨fun _ _ => partly _, nofun⟩
  · cases written
    exact ⟨fun _ _ => partly new, nofun⟩
  · cases written
    exact ⟨nofun, fun _ _ => newText.trans holds⟩

namespace ConfigEditor

variable {Doc Rest : Type}

/-- `set_port` on the files: its answer, and the files after it. -/
def setPortOn
    (editor : ConfigEditor Doc)
    (edit : PortEdit)
    (path : String)
    (fault : Option DiskFault)
    (directory : ConfigDirectory) :
    Except Error Bool × ConfigDirectory :=
  match fault with
  | some ⟨.reading, reason⟩ =>
      ((do
          let _ ← edit.port.ports
          let _ ← edit.key
          .error ["reading " ++ path, reason]),
        directory)
  | _ =>
      match editor.setPort edit directory.text with
      | .error failure => (.error failure, directory)
      | .ok none => (.ok false, directory)
      | .ok (some new) => directory.writeAtomic fault new

/--
The editor and the reader agree on a text and an edit of it: the lists are
what was read, and a pushed or removed entry changes its list and no other
setting.  The settings that the model leaves out are in `others`.
-/
structure Faithful
    (editor : ConfigEditor Doc)
    (others : String → Rest)
    (text : String)
    (edit : PortEdit)
    (proto : Proto)
    (cfg : Config) : Prop where
  listed :
    ∀ doc, editor.toml.parse text = .ok doc →
      editor.toml.item doc proto.listKey =
          .array ((cfg.allow proto).map PortSpec.tomlValue) ∨
        editor.toml.item doc proto.listKey = .absent ∧
          cfg.allow proto = [] ∧
          editor.toml.item (editor.toml.insertArray doc proto.listKey)
            proto.listKey = .array []
  pushed :
    ∀ doc, editor.toml.parse text = .ok doc →
      let list :=
        if editor.toml.item doc proto.listKey = .absent then
          editor.toml.insertArray doc proto.listKey
        else
          doc
      let new :=
        editor.toml.render
          (editor.toml.push list proto.listKey edit.value)
      editor.fromToml new =
          .ok (cfg.withAllow proto (cfg.allow proto ++ [edit.pushed])) ∧
        others new = others text
  removed :
    ∀ doc index, editor.toml.parse text = .ok doc →
      index < (cfg.allow proto).length →
      let new :=
        editor.toml.render
          (editor.toml.remove doc proto.listKey index)
      editor.fromToml new =
          .ok (cfg.withAllow proto ((cfg.allow proto).eraseIdx index)) ∧
        others new = others text

section

variable
  {editor : ConfigEditor Doc}
  {others : String → Rest}
  {edit : PortEdit}
  {proto : Proto}
  {text : String}
  {cfg : Config}
  {directory : ConfigDirectory}

theorem checked_ok
    {doc : Doc}
    {outcome : Option String}
    (passed : editor.checked doc = .ok outcome) :
    outcome = some (editor.toml.render doc) ∧
      ∃ new, Config.parse editor.fromToml (editor.toml.render doc) =
        .ok new := by
  unfold checked at passed
  obtain ⟨new, accepted, same⟩ := Error.bind_ok.mp passed
  cases same
  exact ⟨rfl, new, accepted⟩

/-- Only a list of a known protocol is edited. -/
theorem word_of_setPort
    {outcome : Option String}
    (edited : editor.setPort edit text = .ok outcome) :
    (∃ range, edit.port.ports = .ok range) ∧
      ∃ proto : Proto, edit.proto = proto.word := by
  unfold setPort at edited
  obtain ⟨range, isRange, rest⟩ := Error.bind_ok.mp edited
  obtain ⟨key, isKey, _⟩ := Error.bind_ok.mp rest
  refine ⟨⟨range, isRange⟩, ?_⟩
  unfold PortEdit.key at isKey
  split at isKey
  · exact ⟨.tcp, by assumption⟩
  · split at isKey
    · exact ⟨.udp, by assumption⟩
    · cases isKey

theorem parse_of_read
    {new : Config}
    (read : editor.fromToml text = .ok new)
    (passed : ∃ cfg, Config.parse editor.fromToml text = .ok cfg) :
    Config.parse editor.fromToml text = .ok new := by
  obtain ⟨cfg, accepted⟩ := passed
  obtain ⟨found, isFound, rest⟩ := Error.bind_ok.mp accepted
  obtain ⟨_, _, same⟩ := Error.bind_ok.mp rest
  cases same
  rw [read] at isFound
  cases isFound
  exact accepted

/-- What an edit makes of the text. -/
theorem setPort_spec
    (faithful : editor.Faithful others text edit proto cfg)
    (accepted : Config.parse editor.fromToml text = .ok cfg)
    (isWord : edit.proto = proto.word)
    {outcome : Option String}
    (edited : editor.setPort edit text = .ok outcome) :
    Config.parse editor.fromToml (outcome.getD text) =
        .ok (cfg.withAllow proto (edit.edited (cfg.allow proto))) ∧
      others (outcome.getD text) = others text := by
  unfold setPort at edited
  obtain ⟨range, isRange, rest⟩ := Error.bind_ok.mp edited
  rw [PortEdit.key_of_word isWord] at rest
  obtain ⟨key, isKey, rest⟩ := Error.bind_ok.mp rest
  cases isKey
  obtain ⟨doc, isDoc, rest⟩ := Error.bind_ok.mp rest
  have pushes := faithful.pushed doc isDoc
  have removes := fun index => faithful.removed doc index isDoc
  dsimp only at rest pushes removes
  -- The list to edit is the one that was read, or a new one.
  have listed :
      ∃ list,
        (if editor.toml.item doc proto.listKey = .absent then
          editor.toml.insertArray doc proto.listKey
        else
          doc) = list ∧
          editor.toml.item list proto.listKey =
            .array ((cfg.allow proto).map PortSpec.tomlValue) ∧
          (cfg.allow proto ≠ [] → list = doc) := by
    rcases faithful.listed doc isDoc with isArray | ⟨absent, empty, isNew⟩
    · refine ⟨doc, ?_, isArray, fun _ => rfl⟩
      rw [isArray]
      exact if_neg nofun
    · refine ⟨_, if_pos absent, ?_, fun notEmpty => absurd empty notEmpty⟩
      rw [isNew, empty]
      rfl
  obtain ⟨list, isList, isArray, same⟩ := listed
  rw [isList] at rest pushes
  rw [isArray] at rest
  dsimp only at rest
  rw [PortEdit.findIdx?_isAt] at rest
  unfold PortEdit.edited
  cases opens : edit.opens with
  | true =>
      cases found : (cfg.allow proto).findIdx? edit.spells with
      | none =>
          rw [opens, found] at rest
          obtain ⟨isOutcome, passed⟩ := checked_ok rest
          subst isOutcome
          rw [if_pos rfl, ← List.findIdx?_isSome, found]
          exact ⟨parse_of_read pushes.1 passed, pushes.2⟩
      | some index =>
          rw [opens, found] at rest
          cases rest
          rw [if_pos rfl, ← List.findIdx?_isSome, found]
          exact ⟨by simpa using accepted, rfl⟩
  | false =>
      cases found : (cfg.allow proto).findIdx? edit.spells with
      | none =>
          rw [opens, found] at rest
          cases rest
          rw [if_neg nofun, List.eraseP_eq_eraseIdx, found]
          exact ⟨by simpa using accepted, rfl⟩
      | some index =>
          rw [opens, found] at rest
          obtain ⟨isOutcome, passed⟩ := checked_ok rest
          subst isOutcome
          have inBounds : index < (cfg.allow proto).length :=
            (List.findIdx?_eq_some_iff_findIdx_eq.mp found).1
          rw [same (List.ne_nil_of_length_pos (by omega))] at passed ⊢
          rw [if_neg nofun, List.eraseP_eq_eraseIdx, found]
          exact ⟨parse_of_read (removes index inBounds).1 passed,
            (removes index inBounds).2⟩

/-- What an answer of `set_port` says about the file. -/
theorem setPortOn_text
    (sound : directory.Sound)
    {path : String}
    {fault : Option DiskFault}
    {result : Except Error Bool}
    {after : ConfigDirectory}
    (answered :
      editor.setPortOn edit path fault directory = (result, after)) :
    (∀ failure, result = .error failure → after.text = directory.text) ∧
      ∀ changed, result = .ok changed →
        ∃ outcome, editor.setPort edit directory.text = .ok outcome ∧
          after.text = outcome.getD directory.text := by
  unfold setPortOn at answered
  split at answered
  · cases answered
    refine ⟨fun _ _ => rfl, fun changed isOk => ?_⟩
    obtain ⟨_, _, rest⟩ := Error.bind_ok.mp isOk
    obtain ⟨_, _, rest⟩ := Error.bind_ok.mp rest
    cases rest
  · split at answered
    · cases answered
      exact ⟨fun _ _ => rfl, nofun⟩
    · rename_i edited
      cases answered
      exact ⟨nofun, fun _ _ => ⟨none, edited, rfl⟩⟩
    · rename_i new edited
      obtain ⟨failed, finished⟩ :=
        ConfigDirectory.writeAtomic_text sound answered
      exact ⟨failed, fun changed isOk =>
        ⟨some new, edited, finished changed isOk⟩⟩

/--
The file after an answer opens the ports it is to open, and every other
setting is as it was.
-/
def Exact
    (editor : ConfigEditor Doc)
    (others : String → Rest)
    (edit : PortEdit)
    (cfg : Config)
    (before after : String) : Prop :=
  ∃ (proto : Proto) (new : Config) (was now : List U16),
    edit.proto = proto.word ∧
      Config.parse editor.fromToml after = .ok new ∧
      expand (cfg.allow proto) = .ok was ∧
      expand (new.allow proto) = .ok now ∧
      (∀ port, port ∈ now ↔ edit.Wanted (· ∈ was) port) ∧
      new = cfg.withAllow proto (new.allow proto) ∧
      others after = others before

/-- The lists of an accepted configuration can be expanded. -/
theorem expand_allow
    (accepted : Config.parse editor.fromToml text = .ok cfg)
    (proto : Proto) :
    ∃ ports, expand (cfg.allow proto) = .ok ports ∧
      ∀ port, port ∈ ports ↔ PortEdit.Opened (cfg.allow proto) port := by
  have usable := Config.validate_ok.mp (Config.validate_of_parse accepted)
  have expands : ∃ ports, expand (cfg.allow proto) = .ok ports := by
    cases proto with
    | tcp => exact usable.base.tcp
    | udp => exact usable.base.udp
  obtain ⟨ports, isPorts⟩ := expands
  exact ⟨ports, isPorts, mem_expand isPorts⟩

/--
A failed edit leaves the file alone.  Opening opens exactly the ports asked
for, and closing closes exactly those, unless an entry besides the first one
that is spelled alike opens one of them.
-/
theorem port_edit_exact_iff
    {path : String}
    {fault : Option DiskFault}
    {result : Except Error Bool}
    {after : ConfigDirectory}
    (sound : directory.Sound)
    (accepted : Config.parse editor.fromToml directory.text = .ok cfg)
    (faithful :
      ∀ proto : Proto, edit.proto = proto.word →
        editor.Faithful others directory.text edit proto cfg)
    (answered :
      editor.setPortOn edit path fault directory = (result, after)) :
    (∀ failure, result = .error failure → after.text = directory.text) ∧
      ∀ changed, result = .ok changed →
        (editor.Exact others edit cfg directory.text after.text ↔
          edit.opens = true ∨
            ∀ proto : Proto, edit.proto = proto.word →
              edit.OpenedOnce (cfg.allow proto)) := by
  obtain ⟨failed, finished⟩ := setPortOn_text sound answered
  refine ⟨failed, fun changed isOk => ?_⟩
  obtain ⟨outcome, edited, isText⟩ := finished changed isOk
  obtain ⟨_, proto, isWord⟩ := word_of_setPort edited
  have only (other : Proto) (isOther : edit.proto = other.word) :
      other = proto :=
    Proto.word_injective (isOther.symm.trans isWord)
  obtain ⟨parsed, sameRest⟩ :=
    setPort_spec (faithful proto isWord) accepted isWord edited
  rw [← isText] at parsed sameRest
  obtain ⟨was, isWas, memWas⟩ := expand_allow accepted proto
  obtain ⟨now, isNow, memNow⟩ := expand_allow parsed proto
  rw [Config.allow_withAllow] at isNow memNow
  have wanted (port : U16) :
      edit.Wanted (· ∈ was) port ↔
        edit.Wanted (PortEdit.Opened (cfg.allow proto)) port := by
    unfold PortEdit.Wanted
    split <;> simp [memWas]
  have isSole :
      (∀ other : Proto, edit.proto = other.word →
          edit.OpenedOnce (cfg.allow other)) ↔
        edit.OpenedOnce (cfg.allow proto) := by
    refine ⟨fun all => all proto isWord, fun once other isOther => ?_⟩
    rw [only other isOther]
    exact once
  rw [isSole, ← edit.opened_edited_iff]
  constructor
  · rintro ⟨other, new, wasFound, nowFound, isOther, isNew, isWasFound,
      isNowFound, exact, _, _⟩ port
    obtain rfl := only other isOther
    rw [parsed] at isNew
    cases isNew
    rw [Config.allow_withAllow, isNow] at isNowFound
    cases isNowFound
    rw [isWas] at isWasFound
    cases isWasFound
    rw [← memNow, ← wanted]
    exact exact port
  · intro exact
    refine ⟨proto, _, was, now, isWord, parsed, isWas, ?_, fun port => ?_,
      ?_, sameRest⟩
    · rw [Config.allow_withAllow]
      exact isNow
    · rw [memNow, wanted]
      exact exact port
    · rw [Config.allow_withAllow]

end

open Commands

/-- The one-line editor and reader agree where they do so on one document. -/
theorem faithful_oneLine
    {text : String}
    {edit : PortEdit}
    {cfg : Config}
    {doc : List Nat}
    (isDoc : oneLine.parse text = .ok doc)
    (listed :
      oneLine.item doc "allow_tcp" =
        .array (cfg.allowTcp.map PortSpec.tomlValue))
    (pushed :
      oneLineEditor.fromToml
          (oneLine.render (oneLine.push doc "allow_tcp" edit.value)) =
        .ok (cfg.withAllow .tcp (cfg.allowTcp ++ [edit.pushed])))
    (removed :
      ∀ index < cfg.allowTcp.length,
        oneLineEditor.fromToml
            (oneLine.render (oneLine.remove doc "allow_tcp" index)) =
          .ok (cfg.withAllow .tcp (cfg.allowTcp.eraseIdx index))) :
    oneLineEditor.Faithful (fun _ => ()) text edit .tcp cfg where
  listed found isFound := by
    obtain rfl := Except.ok.inj (isDoc.symm.trans isFound)
    exact .inl listed
  pushed found isFound := by
    obtain rfl := Except.ok.inj (isDoc.symm.trans isFound)
    have isArray : ¬oneLineEditor.toml.item doc "allow_tcp" = .absent := by
      intro absent
      cases listed.symm.trans absent
    rw [Proto.listKey, if_neg isArray]
    exact ⟨pushed, rfl⟩
  removed found index isFound inBounds := by
    obtain rfl := Except.ok.inj (isDoc.symm.trans isFound)
    exact ⟨removed index inBounds, rfl⟩

theorem tcp_of_word {proto : Proto} (isWord : "tcp" = proto.word) :
    proto = .tcp := by
  revert isWord
  cases proto <;> decide

/-- `open tcp 80` opens port 80 next to port 22. -/
theorem eighty_is_opened :
    let edit : PortEdit := ⟨"tcp", .one 80, true⟩
    let cfg := { Config.default with allowTcp := [.one 22] }
    let answer :=
      oneLineEditor.setPortOn edit "config.toml" none
        (starting "allow_tcp = [22]\n" none)
    answer.1 = .ok true ∧
      oneLineEditor.Exact (fun _ => ()) edit cfg "allow_tcp = [22]\n"
        answer.2.text := by
  intro edit cfg answer
  have isDone : answer.1 = .ok true := by
    decide +kernel
  have accepted :
      Config.parse oneLineEditor.fromToml
        (starting "allow_tcp = [22]\n" none).text = .ok cfg := by
    decide +kernel
  have isDoc : oneLine.parse "allow_tcp = [22]\n" = .ok [22] := by
    decide +kernel
  have agrees (proto : Proto) (isWord : edit.proto = proto.word) :
      oneLineEditor.Faithful (fun _ => ())
        (starting "allow_tcp = [22]\n" none).text edit proto cfg := by
    obtain rfl := tcp_of_word isWord
    refine faithful_oneLine isDoc ?_ ?_ ?_ <;> decide +kernel
  have exact :=
    port_edit_exact_iff (sound_starting "allow_tcp = [22]\n" none) accepted
      agrees (Prod.mk.eta (p := answer)).symm
  exact ⟨isDone, (exact.2 true isDone).mpr (.inl rfl)⟩

/-- `close tcp 22` removes one of two entries, and port 22 stays open. -/
theorem twice_listed_port_stays_open :
    let edit : PortEdit := ⟨"tcp", .one 22, false⟩
    let cfg := { Config.default with allowTcp := [.one 22, .one 22] }
    let text := "allow_tcp = [22, 22]\n"
    let answer :=
      oneLineEditor.setPortOn edit "config.toml" none (starting text none)
    Config.parse oneLineEditor.fromToml text = .ok cfg ∧
      oneLineEditor.Faithful (fun _ => ()) text edit .tcp cfg ∧
      answer.1 = .ok true ∧
      ¬oneLineEditor.Exact (fun _ => ()) edit cfg text answer.2.text := by
  intro edit cfg text answer
  have isDoc : oneLine.parse text = .ok [22, 22] := by
    decide +kernel
  refine ⟨by decide +kernel, ?_, by decide +kernel, ?_⟩
  · refine faithful_oneLine isDoc ?_ ?_ ?_ <;> decide +kernel
  · rintro ⟨proto, new, was, now, isWord, isNew, isWas, isNow, exact, _⟩
    obtain rfl := tcp_of_word isWord
    have after :
        Config.parse oneLineEditor.fromToml answer.2.text =
          .ok { Config.default with allowTcp := [.one 22] } := by
      decide +kernel
    rw [after] at isNew
    cases isNew
    have stays : (22 : U16) ∈ now := by
      rw [mem_expand isNow]
      exact ⟨.one 22, List.mem_singleton.mpr rfl, by decide⟩
    have closed := ((exact 22).mp stays).2
    revert closed
    decide

end ConfigEditor

end AiFirewall
