import AiFirewall.Links

namespace AiFirewall

/-!
# Links left behind

The clean-up looks for interfaces with a pinned XDP link.  An egress link
without one beside it is overlooked: by the next `heal` for another interface
and by `off`.  Only a `heal` that pinned the egress link and then could not
attach XDP leaves such a link.
-/

open Runs

namespace Guard

/-- The interface that `heal` goes on to attach to. -/
def target (guard : Guard) (input : HealInput) : Option (String × U32) :=
  if guard.unchanged input = true then
    none
  else do
    let iface ← input.wanted guard.attachment
    let ifindex ← input.found iface
    some (iface, ifindex)

/-- `heal` with an interface to attach to. -/
theorem heal_of_target
    {guard : Guard}
    {input : HealInput}
    {iface : String}
    {ifindex : U32}
    (aims : guard.target input = some (iface, ifindex)) :
    guard.heal input = guard.released.attachTo iface ifindex input := by
  unfold target at aims
  split at aims
  case isTrue => cases aims
  case isFalse changed =>
    obtain ⟨name, isWanted, remaining⟩ := Option.bind_eq_some_iff.mp aims
    obtain ⟨index, isFound, same⟩ := Option.bind_eq_some_iff.mp remaining
    cases same
    unfold heal
    rw [if_neg changed, isWanted]
    dsimp only
    rw [isFound]

/-- `heal` without one: nothing is attached. -/
theorem heal_of_no_target
    {guard : Guard}
    {input : HealInput}
    (aimless : guard.target input = none) :
    (guard.heal input).2 = false ∧
      ((guard.heal input).1 = guard ∨
        (guard.heal input).1 = guard.released) := by
  unfold target at aimless
  unfold heal
  split at aimless
  case isTrue same =>
    rw [if_pos same]
    exact ⟨rfl, Or.inl rfl⟩
  case isFalse changed =>
    rw [if_neg changed]
    cases isWanted : input.wanted guard.attachment with
    | none =>
        exact ⟨rfl, Or.inr rfl⟩
    | some iface =>
        cases isFound : input.found iface with
        | none =>
            dsimp only
            rw [isFound]
            exact ⟨rfl, Or.inr rfl⟩
        | some ifindex =>
            simp [isWanted, isFound] at aimless

/-- The pins of the attachment go, and no others. -/
theorem mem_released
    {guard : Guard}
    {pin : PinnedLink} :
    pin ∈ guard.released.links.pins ↔
      pin ∈ guard.links.pins ∧
        ∀ a, guard.attachment = some a → pin.iface ≠ a.iface := by
  unfold released
  cases guard.attachment with
  | none => simp
  | some a => simp

theorem released_attachment
    (guard : Guard) :
    guard.released.attachment = none := by
  unfold released
  cases isAttached : guard.attachment with
  | none => exact isAttached
  | some a => rfl

/-- The links once those of other listed interfaces are gone. -/
def swept (guard : Guard) (iface : String) : Links :=
  (guard.links.pinnedIfaces.filter (· ≠ iface)).foldl Links.unpinBoth
    guard.links

theorem mem_swept
    {guard : Guard}
    {iface : String}
    {pin : PinnedLink} :
    pin ∈ (guard.swept iface).pins ↔
      pin ∈ guard.links.pins ∧
        (pin.iface = iface ∨ pin.iface ∉ guard.links.pinnedIfaces) := by
  unfold swept
  rw [Links.mem_foldl_unpinBoth]
  simp only [List.mem_filter, decide_eq_true_eq]
  tauto

theorem records_swept
    (guard : Guard)
    (iface : String)
    (kind : LinkKind) :
    (guard.swept iface).records kind iface =
      guard.links.records kind iface :=
  Links.records_foldl_unpinBoth (by simp) kind

/-- The links once the egress program has had its turn. -/
def recording
    (guard : Guard)
    (iface : String)
    (ifindex : U32)
    (input : HealInput) : Links :=
  ((guard.swept iface).attachTc iface ifindex input.tc).1

theorem mem_recording_of_xdp
    {guard : Guard}
    {iface : String}
    {ifindex : U32}
    {input : HealInput}
    {pin : PinnedLink}
    (other : pin.path ≠ (.tc, iface)) :
    pin ∈ (guard.recording iface ifindex input).pins ↔
      pin ∈ (guard.swept iface).pins :=
  Links.attach_other other

/-- Nothing before it touches the path of the filter. -/
theorem takesOver_recording
    (guard : Guard)
    (iface : String)
    (ifindex : U32)
    (input : HealInput) :
    (guard.recording iface ifindex input).takesOver .xdp iface ifindex
        input.xdp =
      guard.links.takesOver .xdp iface ifindex input.xdp := by
  refine Links.takesOver_congr ?_ ?_
  · rw [mem_recording_of_xdp (by simp [PinnedLink.path]), mem_swept]
    simp
  · have kept :
        (guard.recording iface ifindex input).records .xdp iface =
          (guard.swept iface).records .xdp iface :=
      Links.records_attach (by simp)
    rw [kept, records_swept]

theorem takesOver_swept
    (guard : Guard)
    (iface : String)
    (ifindex : U32)
    (attempt : Links.Attempt) :
    (guard.swept iface).takesOver .tc iface ifindex attempt =
      guard.links.takesOver .tc iface ifindex attempt := by
  refine Links.takesOver_congr ?_ (records_swept guard iface .tc)
  rw [mem_swept]
  simp

/-- The filter's attempt, after the egress program's. -/
theorem attachTo_eq
    (guard : Guard)
    (iface : String)
    (ifindex : U32)
    (input : HealInput) :
    guard.attachTo iface ifindex input =
      match (guard.recording iface ifindex input).attachXdp iface ifindex
          input.xdp with
      | (links, some (mode, _)) =>
          ({ links := links
             attachment := some
              { iface := iface, ifindex := ifindex, mode := mode,
                egress :=
                  ((guard.swept iface).attachTc iface ifindex
                    input.tc).2 } },
            true)
      | (links, none) => ({ guard with links := links }, false) :=
  rfl

/-- What attaching comes to, pin by pin. -/
theorem mem_attachTo
    {guard : Guard}
    {iface : String}
    {ifindex : U32}
    {input : HealInput}
    {pin : PinnedLink} :
    pin ∈ (guard.attachTo iface ifindex input).1.links.pins ↔
      if pin.iface = iface then
        pin.ifindex = ifindex ∧
          (match pin.kind with
            | .xdp => guard.links.leaves .xdp iface ifindex input.xdp
            | .tc => guard.links.leaves .tc iface ifindex input.tc) = true
      else
        pin ∈ guard.links.pins ∧ pin.iface ∉ guard.links.pinnedIfaces := by
  have sameLinks :
      (guard.attachTo iface ifindex input).1.links =
        ((guard.recording iface ifindex input).attachXdp iface ifindex
          input.xdp).1 := by
    rw [attachTo_eq]
    split <;> rename_i result <;> rw [result]
  rw [sameLinks]
  split
  case isFalse other =>
    have offXdp : pin.path ≠ (.xdp, iface) := by
      simp [PinnedLink.path, other]
    have offTc : pin.path ≠ (.tc, iface) := by
      simp [PinnedLink.path, other]
    rw [Links.attachXdp, Links.attach_other offXdp,
      mem_recording_of_xdp offTc, mem_swept]
    simp [other]
  case isTrue own =>
    cases pin with
    | mk kind name index =>
        obtain rfl : name = iface := own
        cases kind with
        | xdp =>
            have left :=
              (Links.attach_own .xdp (guard.recording name ifindex input)
                name ifindex input.xdp).2 ⟨.xdp, name, index⟩ rfl
            rw [Links.attachXdp, left, Links.leaves, takesOver_recording,
              ← Links.leaves, and_comm]
        | tc =>
            have offXdp : (⟨.tc, name, index⟩ : PinnedLink).path ≠
                (.xdp, name) := by
              simp [PinnedLink.path]
            have left :=
              (Links.attach_own .tc (guard.swept name) name ifindex
                { input.tc with
                  attached := input.tc.attached.map fun _ => "tcx" }).2
                ⟨.tc, name, index⟩ rfl
            rw [Links.attachXdp, Links.attach_other offXdp]
            refine left.trans ?_
            rw [Links.leaves, takesOver_swept, Option.isSome_map, and_comm]
            rfl

/-- An attachment is made exactly when the filter's attempt works out. -/
theorem attachTo_works
    (guard : Guard)
    (iface : String)
    (ifindex : U32)
    (input : HealInput) :
    (guard.attachTo iface ifindex input).2 =
        guard.links.works .xdp iface ifindex input.xdp ∧
      (match (guard.attachTo iface ifindex input).1.attachment with
        | some a =>
            (a.iface = iface ∧ a.ifindex = ifindex) ∨
              guard.attachment = some a
        | none => (guard.attachTo iface ifindex input).2 = false) := by
  have sameWorks :
      ((guard.recording iface ifindex input).attachXdp iface ifindex
          input.xdp).2.isSome =
        guard.links.works .xdp iface ifindex input.xdp := by
    rw [Links.attachXdp, (Links.attach_own _ _ _ _ _).1, Links.works,
      takesOver_recording, ← Links.works]
  rw [attachTo_eq, ← sameWorks]
  split
  case h_1 links mode reused result =>
    rw [result]
    exact ⟨rfl, Or.inl ⟨rfl, rfl⟩⟩
  case h_2 links result =>
    rw [result]
    refine ⟨rfl, ?_⟩
    cases guard.attachment with
    | none => rfl
    | some a => exact Or.inr rfl

/-- Every pinned link is of the interface in the attachment. -/
def OnlyGuarded (guard : Guard) : Prop :=
  ∀ pin ∈ guard.links.pins,
    ∃ a, guard.attachment = some a ∧ pin.iface = a.iface ∧
      pin.ifindex = a.ifindex

/--
Nothing is left behind: not by a `heal` that attached, nor by `off`.
-/
def Tidy (guard : Guard) : Event → Prop
  | .heal input =>
      (guard.heal input).2 = true → (guard.heal input).1.OnlyGuarded
  | .restart => True
  | .off stopped => (guard.step (.off stopped)).links.pins = []

/--
The clean-up can see every link that has to go.  Before a `heal` attaches to
an interface, each pinned link of another one (but for those of the
attachment, which go by name) has an XDP link pinned beside it; before `off`
each pinned link has.
-/
def Covered (guard : Guard) : Event → Prop
  | .heal input =>
      ∀ iface ifindex,
        guard.target input = some (iface, ifindex) →
        guard.released.links.works .xdp iface ifindex input.xdp = true →
        ∀ pin ∈ guard.released.links.pins, pin.iface ≠ iface →
          pin.iface ∈ guard.released.links.pinnedIfaces
  | .restart => True
  | .off _ =>
      ∀ pin ∈ guard.links.pins, pin.iface ∈ guard.links.pinnedIfaces

/-- An attaching `heal` leaves exactly what its clean-up overlooks. -/
theorem tidy_heal_iff
    (guard : Guard)
    (input : HealInput) :
    guard.Tidy (.heal input) ↔ guard.Covered (.heal input) := by
  unfold Tidy Covered
  dsimp only
  cases aims : guard.target input with
  | none =>
      simp [(heal_of_no_target aims).1]
  | some goal =>
      obtain ⟨iface, ifindex⟩ := goal
      obtain ⟨sameWorks, attached⟩ :=
        attachTo_works guard.released iface ifindex input
      rw [released_attachment] at attached
      rw [heal_of_target aims, sameWorks]
      constructor
      · intro tidy name index same works pin member other
        cases same
        by_contra overlooked
        obtain ⟨a, isAttached, sameIface, _⟩ := tidy works pin
          (mem_attachTo.mpr (by rw [if_neg other]; exact ⟨member, overlooked⟩))
        rw [isAttached] at attached
        obtain ⟨rfl, _⟩ := attached.resolve_right (by simp)
        exact other sameIface
      · intro covered works pin member
        rw [mem_attachTo] at member
        split at member
        case isTrue own =>
          cases isAttached :
              (guard.released.attachTo iface ifindex input).1.attachment with
          | none =>
              rw [isAttached] at attached
              rw [sameWorks, works] at attached
              cases attached
          | some a =>
              rw [isAttached] at attached
              obtain ⟨sameIface, sameIndex⟩ :=
                attached.resolve_right (by simp)
              exact ⟨a, rfl, own.trans sameIface.symm,
                member.1.trans sameIndex.symm⟩
        case isFalse other =>
          exact absurd (covered iface ifindex rfl works pin member.1 other)
            member.2

/-- `off` leaves exactly what it does not list. -/
theorem tidy_off_iff
    (guard : Guard)
    (stopped : Bool) :
    guard.Tidy (.off stopped) ↔ guard.Covered (.off stopped) := by
  unfold Tidy Covered step Links.unpinAll
  dsimp only
  rw [List.eq_nil_iff_forall_not_mem]
  refine forall_congr' fun pin => ?_
  rw [Links.mem_foldl_unpinBoth]
  tauto

theorem tidy_iff
    (guard : Guard)
    (event : Event) :
    guard.Tidy event ↔ guard.Covered event := by
  cases event with
  | heal input => exact tidy_heal_iff guard input
  | restart => exact Iff.rfl
  | off stopped => exact tidy_off_iff guard stopped

/-- The pins and the daemon after some events. -/
def after (start : Guard) (past : List Event) : Guard :=
  run step start past

@[simp] theorem after_concat
    (start : Guard)
    (past : List Event)
    (event : Event) :
    after start (past ++ [event]) = (after start past).step event := by
  simp [after]

/-- An event aims at an interface: a `heal` that goes on to attach to it. -/
def Targets (guard : Guard) (event : Event) (iface : String) : Prop :=
  ∃ input ifindex,
    event = .heal input ∧ guard.target input = some (iface, ifindex)

/--
The last `heal` for an interface left its egress link pinned, and no XDP
link.
-/
def HalfAttached
    (start : Guard)
    (past : List Event)
    (iface : String) : Prop :=
  ∃ earlier input later ifindex,
    past = earlier ++ .heal input :: later ∧
      (after start earlier).target input = some (iface, ifindex) ∧
      (after start earlier).released.links.leaves .tc iface ifindex
        input.tc = true ∧
      (after start earlier).released.links.leaves .xdp iface ifindex
        input.xdp = false ∧
      Stepwise
        (fun between event =>
          ¬(after start (earlier ++ .heal input :: between)).Targets event
            iface)
        later

theorem HalfAttached.concat
    {start : Guard}
    {past : List Event}
    {iface : String}
    (half : HalfAttached start past iface)
    {event : Event}
    (elsewhere : ¬(after start past).Targets event iface) :
    HalfAttached start (past ++ [event]) iface := by
  obtain ⟨earlier, input, later, ifindex, rfl, aims, tcLeft, xdpGone,
    since⟩ := half
  exact ⟨earlier, input, later ++ [event], ifindex, by simp, aims, tcLeft,
    xdpGone, since.concat elsewhere⟩

/-- A link that the clean-up cannot see, though its name is a plain one. -/
structure Overlooked (links : Links) (pin : PinnedLink) : Prop where
  member : pin ∈ links.pins
  plain : ¬".meta".toList.isSuffixOf pin.iface.toList
  unlisted : pin.iface ∉ links.pinnedIfaces

/-- It is an egress link. -/
theorem Overlooked.kind
    {links : Links}
    {pin : PinnedLink}
    (overlooked : Overlooked links pin) :
    pin.kind = .tc := by
  obtain ⟨member, plain, unlisted⟩ := overlooked
  cases pin with
  | mk kind iface ifindex =>
      cases kind with
      | tc => rfl
      | xdp =>
          exact absurd (Links.mem_pinnedIfaces.mpr ⟨plain, ifindex, member⟩)
            unlisted

/-- What is overlooked without the attachment's pins was so with them. -/
theorem Overlooked.of_released
    {guard : Guard}
    {pin : PinnedLink}
    (overlooked : Overlooked guard.released.links pin) :
    Overlooked guard.links pin := by
  obtain ⟨member, plain, unlisted⟩ := overlooked
  rw [mem_released] at member
  refine ⟨member.1, plain, fun listed => unlisted ?_⟩
  obtain ⟨_, ifindex, beside⟩ := Links.mem_pinnedIfaces.mp listed
  exact Links.mem_pinnedIfaces.mpr
    ⟨plain, ifindex, mem_released.mpr ⟨beside, member.2⟩⟩

/-- A link overlooked after an event was so before, or is half an attach. -/
theorem overlooked_of_step
    {guard : Guard}
    {event : Event}
    {pin : PinnedLink}
    (overlooked : Overlooked (guard.step event).links pin) :
    (Overlooked guard.links pin ∧ ¬guard.Targets event pin.iface) ∨
      ∃ input ifindex, event = .heal input ∧
        guard.target input = some (pin.iface, ifindex) ∧
        guard.released.links.leaves .tc pin.iface ifindex input.tc = true ∧
        guard.released.links.leaves .xdp pin.iface ifindex input.xdp =
          false := by
  cases event with
  | restart =>
      refine Or.inl ⟨overlooked, ?_⟩
      rintro ⟨_, _, same, _⟩
      cases same
  | off stopped =>
      have isKind := overlooked.kind
      obtain ⟨member, plain, _⟩ := overlooked
      obtain ⟨before, unlisted⟩ := (Links.mem_foldl_unpinBoth _).mp member
      refine Or.inl ⟨⟨before, plain, unlisted⟩, ?_⟩
      rintro ⟨_, _, same, _⟩
      cases same
  | heal input =>
      cases aims : guard.target input with
      | none =>
          have aimless : ¬guard.Targets (.heal input) pin.iface := by
            rintro ⟨_, _, same, isTarget⟩
            cases same
            rw [aims] at isTarget
            cases isTarget
          refine Or.inl ⟨?_, aimless⟩
          rcases (heal_of_no_target aims).2 with same | same
          · rw [step, same] at overlooked
            exact overlooked
          · rw [step, same] at overlooked
            exact overlooked.of_released
      | some goal =>
          obtain ⟨iface, ifindex⟩ := goal
          have isKind := overlooked.kind
          obtain ⟨member, plain, unlisted⟩ := overlooked
          rw [step, heal_of_target aims] at member unlisted
          have atPin := mem_attachTo.mp member
          split at atPin
          case isTrue own =>
            subst own
            rw [isKind] at atPin
            refine Or.inr ⟨input, ifindex, rfl, aims, atPin.2, ?_⟩
            refine Bool.eq_false_iff.mpr fun xdpLeft => unlisted ?_
            refine Links.mem_pinnedIfaces.mpr ⟨plain, ifindex, ?_⟩
            rw [mem_attachTo, if_pos rfl]
            exact ⟨rfl, xdpLeft⟩
          case isFalse other =>
            refine Or.inl ⟨Overlooked.of_released
              ⟨atPin.1, plain, atPin.2⟩, ?_⟩
            rintro ⟨_, _, same, isTarget⟩
            cases same
            rw [aims] at isTarget
            cases isTarget
            exact other rfl

/-- An overlooked link is what half an attach left. -/
theorem halfAttached_of_overlooked
    {start : Guard}
    (empty : start.links.pins = [])
    {past : List Event}
    {pin : PinnedLink}
    (overlooked : Overlooked (after start past).links pin) :
    HalfAttached start past pin.iface := by
  induction past using List.reverseRecOn with
  | nil =>
      have member := overlooked.member
      rw [after, run_nil, empty] at member
      cases member
  | append_singleton past event inductionHypothesis =>
      rw [after_concat] at overlooked
      rcases overlooked_of_step overlooked with
        ⟨before, elsewhere⟩ | ⟨input, ifindex, rfl, aims, tcLeft, xdpGone⟩
      · exact (inductionHypothesis before).concat elsewhere
      · exact ⟨past, input, [], ifindex, rfl, aims, tcLeft, xdpGone,
          Stepwise.nil⟩

/-- The pins after a boot: none, whatever records an earlier boot left. -/
def fresh (records : LinkKind → String → Option (U32 × String)) : Guard where
  links := { pins := [], records := records, onePath := List.nodup_nil }
  attachment := none

/--
In every run no link is left behind, exactly when at each event the clean-up
can see what has to go; and what it cannot see under a plain name is the
egress link of half an attach.
-/
theorem no_link_left_iff
    (records : LinkKind → String → Option (U32 × String))
    (events : List Event) :
    (Stepwise (fun past event => (after (fresh records) past).Tidy event)
        events ↔
      Stepwise (fun past event => (after (fresh records) past).Covered event)
        events) ∧
    ∀ past pin, Overlooked (after (fresh records) past).links pin →
      pin.kind = .tc ∧ HalfAttached (fresh records) past pin.iface := by
  constructor
  · simp only [tidy_iff]
  · intro past pin overlooked
    exact ⟨overlooked.kind, halfAttached_of_overlooked rfl overlooked⟩

/-- The default route at a call of `heal`, and whether XDP can be attached. -/
def routedTo (iface : String) (xdpMode : Option String) : HealInput where
  interface := "auto"
  defaultRoute := some iface
  current name := if name = "wlan0" then some 3 else some 2
  found name := if name = "wlan0" then some 3 else some 2
  tc := { swaps := false, taken := false, attached := some "tcx",
          recorded := true }
  xdp := { swaps := false, taken := false, attached := xdpMode,
           recorded := true }

/--
Another program holds the XDP hook of the first interface; then the default
route moves, and the egress link of the first interface stays.
-/
theorem egress_link_is_left :
    ¬Stepwise
      (fun past event => (after (fresh fun _ _ => none) past).Tidy event)
      [.heal (routedTo "wlan0" none),
        .heal (routedTo "eth0" (some "native"))] := by
  intro tidy
  have guarded := tidy [.heal (routedTo "wlan0" none)]
    (.heal (routedTo "eth0" (some "native"))) [] rfl (by decide +kernel)
  obtain ⟨a, isAttached, sameIface, _⟩ :=
    guarded ⟨.tc, "wlan0", 3⟩ (by decide +kernel)
  have onEth0 :
      ((after (fresh fun _ _ => none) [.heal (routedTo "wlan0" none)]).heal
          (routedTo "eth0" (some "native"))).1.attachment.map
        Attachment.iface = some "eth0" := by
    decide +kernel
  rw [isAttached, Option.map_some, ← sameIface] at onEth0
  exact absurd onEth0 (by decide)

end Guard

end AiFirewall
