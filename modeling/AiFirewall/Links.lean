import AiFirewall.Common
import AiFirewall.Runs

namespace AiFirewall

/-!
# Pinned attachments

Both programs are attached through links pinned in the BPF file system, one
of each kind for an interface, and a file beside records the interface index
of a pin.  `heal` moves the attachment after the default route; the pins
outlive the daemon.  What the kernel answers to an attach is an input here.
-/

/-- The kinds of links: the filter and the egress program. -/
inductive LinkKind where
  | xdp
  | tc
  deriving Repr, DecidableEq

/-- A pinned link: its path, and the interface index it was made for. -/
structure PinnedLink where
  kind : LinkKind
  iface : String
  ifindex : U32
  deriving Repr, DecidableEq

/-- `pin_path`, by what it is made of. -/
def PinnedLink.path (pin : PinnedLink) : LinkKind × String :=
  (pin.kind, pin.iface)

/--
The pin directory, which holds one file at a path, and the record beside
each pin: "ifindex mode".
-/
structure Links where
  pins : List PinnedLink
  records : LinkKind → String → Option (U32 × String)
  onePath : (pins.map PinnedLink.path).Nodup

namespace Links

/-- `pin.exists()`. -/
def isPinned (links : Links) (kind : LinkKind) (iface : String) : Bool :=
  links.pins.any fun pin => pin.path = (kind, iface)

/-- `read_meta`. -/
def readMeta
    (links : Links)
    (kind : LinkKind)
    (iface : String) : Option (U32 × String) :=
  links.records kind iface

/-- `unpin`: removes the pin and its record. -/
def unpin (links : Links) (kind : LinkKind) (iface : String) : Links where
  pins := links.pins.filter fun pin => pin.path ≠ (kind, iface)
  records := fun other name =>
    if (other, name) = (kind, iface) then none else links.records other name
  onePath := links.onePath.sublist (List.filter_sublist.map _)

/-- Both pins of an interface. -/
def unpinBoth (links : Links) (iface : String) : Links :=
  (links.unpin .xdp iface).unpin .tc iface

/--
`pinned_ifaces`: every interface with a pinned XDP link.  A name that ends
in `.meta` is taken for the record of a pin and left out.
-/
def pinnedIfaces (links : Links) : List String :=
  links.pins.filterMap fun pin =>
    if pin.kind = .xdp ∧ ¬".meta".toList.isSuffixOf pin.iface.toList then
      some pin.iface
    else
      none

/-- `unpin_all`: removes the links of every interface listed. -/
def unpinAll (links : Links) : Links :=
  links.pinnedIfaces.foldl unpinBoth links

/--
What the kernel answers while one program is attached: whether it can be
swapped into the running link, whether the swapped link is handed back, the
mode in which a new link was attached and pinned, and whether its record
could be written.
-/
structure Attempt where
  swaps : Bool
  taken : Bool
  attached : Option String
  recorded : Bool
  deriving Repr, DecidableEq

/-- The pin's record is of this interface, and the link is not a dead one. -/
def takesOver
    (links : Links)
    (kind : LinkKind)
    (iface : String)
    (ifindex : U32)
    (attempt : Attempt) : Bool :=
  links.pins.any (· = ⟨kind, iface, ifindex⟩) &&
    (links.readMeta kind iface).any (·.1 = ifindex) && attempt.swaps

/-- The pins with a new one, at a path that is free. -/
def pinNew
    (links : Links)
    (pin : PinnedLink)
    (free : ¬links.isPinned pin.kind pin.iface = true) : Links where
  pins := pin :: links.pins
  records := links.records
  onePath := by
    rw [List.map_cons, List.nodup_cons]
    refine ⟨fun member => free ?_, links.onePath⟩
    obtain ⟨other, isPin, samePath⟩ := List.mem_map.mp member
    exact List.any_eq_true.mpr ⟨other, isPin, decide_eq_true samePath⟩

/-- `write_meta`. -/
def writeMeta
    (links : Links)
    (kind : LinkKind)
    (iface : String)
    (ifindex : U32)
    (mode : String) : Links :=
  { links with
    records := fun other name =>
      if (other, name) = (kind, iface) then
        some (ifindex, mode)
      else
        links.records other name }

/-- A new link, attached, pinned at a free path and recorded. -/
def attachNew
    (links : Links)
    (kind : LinkKind)
    (iface : String)
    (ifindex : U32)
    (attempt : Attempt) : Links × Option (String × Bool) :=
  match attempt.attached with
  | none => (links, none)
  | some mode =>
      if taken : links.isPinned kind iface = true then
        (links, none)
      else
        let links := links.pinNew ⟨kind, iface, ifindex⟩ taken
        let links :=
          if attempt.recorded = true then
            links.writeMeta kind iface ifindex mode
          else
            links
        (links, some (mode, false))

/-- Before a new link is attached, the path is cleared. -/
def cleared (links : Links) (kind : LinkKind) (iface : String) : Links :=
  if links.isPinned kind iface = true then
    links.unpin kind iface
  else
    links

/--
Attaching one program: into the running link where that works, else anew.
The result is the mode, and whether the running link was taken over.
-/
def attach
    (kind : LinkKind)
    (links : Links)
    (iface : String)
    (ifindex : U32)
    (attempt : Attempt) : Links × Option (String × Bool) :=
  if links.takesOver kind iface ifindex attempt = true then
    if attempt.taken = true then
      (links, (links.readMeta kind iface).map fun record => (record.2, true))
    else
      (links, none)
  else
    (links.cleared kind iface).attachNew kind iface ifindex attempt

/-- `attach_xdp`, in native or generic mode. -/
def attachXdp :
    Links → String → U32 → Attempt → Links × Option (String × Bool) :=
  attach .xdp

/-- `attach_tc`; its mode is recorded as "tcx" and not given back. -/
def attachTc
    (links : Links)
    (iface : String)
    (ifindex : U32)
    (attempt : Attempt) : Links × Bool :=
  let attempt := { attempt with attached := attempt.attached.map fun _ => "tcx" }
  let (links, result) := attach .tc links iface ifindex attempt
  (links, result.isSome)

/-! What an unpinning and an attach leave pinned. -/

@[simp] theorem mem_unpin
    {links : Links}
    {kind : LinkKind}
    {iface : String}
    {pin : PinnedLink} :
    pin ∈ (links.unpin kind iface).pins ↔
      pin ∈ links.pins ∧ pin.path ≠ (kind, iface) := by
  simp [unpin]

@[simp] theorem mem_unpinBoth
    {links : Links}
    {iface : String}
    {pin : PinnedLink} :
    pin ∈ (links.unpinBoth iface).pins ↔
      pin ∈ links.pins ∧ pin.iface ≠ iface := by
  cases pin with
  | mk kind name ifindex =>
      cases kind <;> simp [unpinBoth, PinnedLink.path]

/-- Unpinning a list of interfaces keeps the pins of all others. -/
theorem mem_foldl_unpinBoth
    {links : Links}
    (ifaces : List String)
    {pin : PinnedLink} :
    pin ∈ (ifaces.foldl unpinBoth links).pins ↔
      pin ∈ links.pins ∧ pin.iface ∉ ifaces := by
  induction ifaces generalizing links with
  | nil =>
      simp
  | cons iface rest inductionHypothesis =>
      rw [List.foldl_cons, inductionHypothesis, mem_unpinBoth,
        List.mem_cons, not_or, and_assoc]

theorem mem_pinnedIfaces
    {links : Links}
    {iface : String} :
    iface ∈ links.pinnedIfaces ↔
      ¬".meta".toList.isSuffixOf iface.toList ∧
        ∃ ifindex, ⟨.xdp, iface, ifindex⟩ ∈ links.pins := by
  unfold pinnedIfaces
  rw [List.mem_filterMap]
  constructor
  · rintro ⟨⟨kind, name, ifindex⟩, member, isName⟩
    split at isName
    case isFalse => cases isName
    case isTrue listed =>
      obtain rfl := Option.some.inj isName
      obtain ⟨rfl, plain⟩ := listed
      exact ⟨plain, ifindex, member⟩
  · rintro ⟨plain, ifindex, member⟩
    exact ⟨_, member, if_pos ⟨rfl, plain⟩⟩

theorem isPinned_iff
    {links : Links}
    {kind : LinkKind}
    {iface : String} :
    links.isPinned kind iface = true ↔
      ∃ pin ∈ links.pins, pin.path = (kind, iface) := by
  simp [isPinned]

/-- One path holds one pin. -/
theorem eq_of_path
    {links : Links}
    {pin other : PinnedLink}
    (member : pin ∈ links.pins)
    (also : other ∈ links.pins)
    (same : pin.path = other.path) :
    pin = other :=
  List.inj_on_of_nodup_map links.onePath member also same

theorem mem_cleared
    {links : Links}
    {kind : LinkKind}
    {iface : String}
    {pin : PinnedLink} :
    pin ∈ (links.cleared kind iface).pins ↔
      pin ∈ links.pins ∧ pin.path ≠ (kind, iface) := by
  unfold cleared
  split
  case isTrue =>
    exact mem_unpin
  case isFalse absent =>
    refine ⟨fun member => ⟨member, fun same => ?_⟩, And.left⟩
    exact absent (isPinned_iff.mpr ⟨pin, member, same⟩)

theorem attachNew_cases
    {links : Links}
    {kind : LinkKind}
    {iface : String}
    (free : ¬links.isPinned kind iface = true)
    (ifindex : U32)
    (attempt : Attempt) :
    (attempt.attached = none ∧
      links.attachNew kind iface ifindex attempt = (links, none)) ∨
    ∃ mode after,
      attempt.attached = some mode ∧
        after.pins = ⟨kind, iface, ifindex⟩ :: links.pins ∧
        links.attachNew kind iface ifindex attempt =
          (after, some (mode, false)) := by
  unfold attachNew
  cases attempt.attached with
  | none =>
      exact Or.inl ⟨rfl, rfl⟩
  | some mode =>
      refine Or.inr ⟨mode, _, rfl, ?_, dif_neg free⟩
      split <;> rfl

/-- An attach leaves a pin behind, new or old. -/
def leaves
    (kind : LinkKind)
    (links : Links)
    (iface : String)
    (ifindex : U32)
    (attempt : Attempt) : Bool :=
  links.takesOver kind iface ifindex attempt || attempt.attached.isSome

/-- An attach works out. -/
def works
    (kind : LinkKind)
    (links : Links)
    (iface : String)
    (ifindex : U32)
    (attempt : Attempt) : Bool :=
  if links.takesOver kind iface ifindex attempt = true then
    attempt.taken
  else
    attempt.attached.isSome

theorem takesOver_spec
    {kind : LinkKind}
    {links : Links}
    {iface : String}
    {ifindex : U32}
    {attempt : Attempt}
    (takes : links.takesOver kind iface ifindex attempt = true) :
    ⟨kind, iface, ifindex⟩ ∈ links.pins ∧
      ∃ record, links.readMeta kind iface = some record := by
  simp only [takesOver, Bool.and_eq_true, List.any_eq_true,
    decide_eq_true_eq] at takes
  obtain ⟨⟨⟨pin, member, rfl⟩, recorded⟩, _⟩ := takes
  obtain ⟨record, isRecord, _⟩ := (Option.any_eq_true _ _).mp recorded
  exact ⟨member, record, isRecord⟩

theorem attach_eq
    (kind : LinkKind)
    (links : Links)
    (iface : String)
    (ifindex : U32)
    (attempt : Attempt) :
    (links.takesOver kind iface ifindex attempt = true ∧
      (attach kind links iface ifindex attempt).1 = links ∧
      (attach kind links iface ifindex attempt).2.isSome = attempt.taken) ∨
    (links.takesOver kind iface ifindex attempt = false ∧
      (∀ pin,
        pin ∈ (attach kind links iface ifindex attempt).1.pins ↔
          (pin = ⟨kind, iface, ifindex⟩ ∧ attempt.attached.isSome = true) ∨
            (pin ∈ links.pins ∧ pin.path ≠ (kind, iface))) ∧
      (attach kind links iface ifindex attempt).2.isSome =
        attempt.attached.isSome) := by
  unfold attach
  split
  case isTrue takes =>
    obtain ⟨_, record, isRecord⟩ := takesOver_spec takes
    refine Or.inl ⟨takes, ?_⟩
    cases attempt.taken <;> simp [isRecord]
  case isFalse noTake =>
    have free : ¬(links.cleared kind iface).isPinned kind iface = true := by
      rw [isPinned_iff]
      rintro ⟨pin, member, same⟩
      exact (mem_cleared.mp member).2 same
    refine Or.inr ⟨Bool.eq_false_iff.mpr noTake, ?_⟩
    rcases attachNew_cases free ifindex attempt with
      ⟨unattached, result⟩ | ⟨mode, after, attached, pins, result⟩
    · rw [result, unattached]
      refine ⟨fun pin => ?_, rfl⟩
      simp [mem_cleared]
    · rw [result, attached]
      refine ⟨fun pin => ?_, rfl⟩
      rw [pins, List.mem_cons, mem_cleared]
      simp

/-- What an attach leaves at its own path, and whether it works out. -/
theorem attach_own
    (kind : LinkKind)
    (links : Links)
    (iface : String)
    (ifindex : U32)
    (attempt : Attempt) :
    (attach kind links iface ifindex attempt).2.isSome =
        links.works kind iface ifindex attempt ∧
      ∀ pin, pin.path = (kind, iface) →
        (pin ∈ (attach kind links iface ifindex attempt).1.pins ↔
          links.leaves kind iface ifindex attempt = true ∧
            pin.ifindex = ifindex) := by
  unfold works leaves
  rcases attach_eq kind links iface ifindex attempt with
    ⟨takes, unchanged, result⟩ | ⟨noTake, pins, result⟩
  · obtain ⟨running, _⟩ := takesOver_spec takes
    rw [takes, unchanged, result]
    refine ⟨rfl, fun pin own => ?_⟩
    simp only [Bool.true_or, true_and]
    constructor
    · intro member
      rw [eq_of_path member running own]
    · rintro rfl
      obtain ⟨rfl, rfl⟩ := Prod.mk.inj own
      exact running
  · rw [noTake, result]
    refine ⟨rfl, fun pin own => ?_⟩
    rw [pins]
    simp only [own, ne_eq, not_true_eq_false, and_false, or_false,
      Bool.false_or]
    rw [and_comm]
    refine and_congr_right fun _ => ⟨fun same => by rw [same], ?_⟩
    rintro rfl
    obtain ⟨rfl, rfl⟩ := Prod.mk.inj own
    rfl

/-- Pins of other paths are left alone. -/
theorem attach_other
    {kind : LinkKind}
    {links : Links}
    {iface : String}
    {ifindex : U32}
    {attempt : Attempt}
    {pin : PinnedLink}
    (other : pin.path ≠ (kind, iface)) :
    pin ∈ (attach kind links iface ifindex attempt).1.pins ↔
      pin ∈ links.pins := by
  rcases attach_eq kind links iface ifindex attempt with
    ⟨_, unchanged, _⟩ | ⟨_, pins, _⟩
  · rw [unchanged]
  · rw [pins]
    have notNew : pin ≠ ⟨kind, iface, ifindex⟩ := by
      rintro rfl
      exact other rfl
    simp [notNew, other]

/-! The records follow their pins. -/

theorem records_unpinBoth
    {links : Links}
    {iface name : String}
    (other : name ≠ iface)
    (kind : LinkKind) :
    (links.unpinBoth iface).records kind name = links.records kind name := by
  simp [unpinBoth, unpin, other]

theorem records_foldl_unpinBoth
    {links : Links}
    {ifaces : List String}
    {name : String}
    (other : name ∉ ifaces)
    (kind : LinkKind) :
    (ifaces.foldl unpinBoth links).records kind name =
      links.records kind name := by
  induction ifaces generalizing links with
  | nil =>
      rfl
  | cons iface rest inductionHypothesis =>
      rw [List.mem_cons, not_or] at other
      rw [List.foldl_cons, inductionHypothesis other.2,
        records_unpinBoth other.1]

theorem records_attach
    {kind other : LinkKind}
    {links : Links}
    {iface name : String}
    {ifindex : U32}
    {attempt : Attempt}
    (different : (other, name) ≠ (kind, iface)) :
    (attach kind links iface ifindex attempt).1.records other name =
      links.records other name := by
  have isCleared :
      (links.cleared kind iface).records other name =
        links.records other name := by
    unfold cleared
    split
    · exact if_neg different
    · rfl
  unfold attach attachNew
  split
  · split <;> rfl
  · cases attempt.attached with
    | none =>
        exact isCleared
    | some mode =>
        dsimp only
        split
        · exact isCleared
        · dsimp only
          split
          · exact (if_neg different).trans isCleared
          · exact isCleared

/-- Whether an attach works out is a matter of its own path. -/
theorem takesOver_congr
    {kind : LinkKind}
    {links other : Links}
    {iface : String}
    {ifindex : U32}
    {attempt : Attempt}
    (samePin :
      (⟨kind, iface, ifindex⟩ : PinnedLink) ∈ other.pins ↔
        ⟨kind, iface, ifindex⟩ ∈ links.pins)
    (sameRecord : other.records kind iface = links.records kind iface) :
    other.takesOver kind iface ifindex attempt =
      links.takesOver kind iface ifindex attempt := by
  have sameAny :
      other.pins.any (· = ⟨kind, iface, ifindex⟩) =
        links.pins.any (· = ⟨kind, iface, ifindex⟩) := by
    rw [Bool.eq_iff_iff]
    simpa using samePin
  unfold takesOver readMeta
  rw [sameAny, sameRecord]

end Links

/-- What `heal` keeps in mind about the attachment it made. -/
structure Attachment where
  iface : String
  ifindex : U32
  mode : String
  /-- The egress program is attached, so strict UDP can be switched on. -/
  egress : Bool
  deriving Repr, DecidableEq

/-- What one call of `heal` reads and meets. -/
structure HealInput where
  /-- `cfg.interface`. -/
  interface : String
  /-- `net::default_route`. -/
  defaultRoute : Option String
  /-- `net::ifindex`, when the attachment is looked after. -/
  current : String → Option U32
  /-- `net::ifindex`, when the interface to attach to is looked up. -/
  found : String → Option U32
  tc : Links.Attempt
  xdp : Links.Attempt

/-- The interface that should be guarded. -/
def HealInput.wanted
    (input : HealInput)
    (attachment : Option Attachment) : Option String :=
  if input.interface = "auto" then
    input.defaultRoute.or (attachment.map Attachment.iface)
  else
    some input.interface

/-- The pins, and the attachment of the daemon that runs. -/
structure Guard where
  links : Links
  attachment : Option Attachment

namespace Guard

/-- The attachment is on the wanted interface, as it is now. -/
def unchanged (guard : Guard) (input : HealInput) : Bool :=
  guard.attachment.any fun a =>
    input.wanted guard.attachment = some a.iface ∧
      input.current a.iface = some a.ifindex

/-- The attachment that has to go, with its pins. -/
def released (guard : Guard) : Guard :=
  match guard.attachment with
  | some a => { links := guard.links.unpinBoth a.iface, attachment := none }
  | none => guard

/-- `heal`, from the links left on other interfaces on. -/
def attachTo
    (guard : Guard)
    (iface : String)
    (ifindex : U32)
    (input : HealInput) : Guard × Bool :=
  let stale := guard.links.pinnedIfaces.filter (· ≠ iface)
  let links := stale.foldl Links.unpinBoth guard.links
  -- Egress first, so flows are recorded before strict UDP checks them.
  let (links, egress) := links.attachTc iface ifindex input.tc
  match links.attachXdp iface ifindex input.xdp with
  | (links, some (mode, _)) =>
      ({ links := links
         attachment := some
          { iface := iface, ifindex := ifindex, mode := mode,
            egress := egress } },
        true)
  | (links, none) => ({ guard with links := links }, false)

/-- `heal`: true when it had to attach, or to attach again. -/
def heal (guard : Guard) (input : HealInput) : Guard × Bool :=
  if guard.unchanged input = true then
    (guard, false)
  else
    let wanted := input.wanted guard.attachment
    let guard := guard.released
    match wanted with
    | none => (guard, false)
    | some iface =>
        match input.found iface with
        | none => (guard, false)
        | some ifindex => guard.attachTo iface ifindex input

/-- What happens to the pins and to the daemon. -/
inductive Event where
  | heal (input : HealInput)
  /-- The daemon is restarted; it keeps no link of its own. -/
  | restart
  /-- `ai-firewall off`, which asks for the daemon to be stopped. -/
  | off (stopped : Bool)

def step (guard : Guard) : Event → Guard
  | .heal input => (guard.heal input).1
  | .restart => { guard with attachment := none }
  | .off stopped =>
      { links := guard.links.unpinAll
        attachment := if stopped then none else guard.attachment }

end Guard

end AiFirewall
