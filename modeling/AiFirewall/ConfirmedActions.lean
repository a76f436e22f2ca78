import AiFirewall.AskPanel

namespace AiFirewall

/-!
# What the Ask panel carries out

An action is chosen by its digit and run by a `y`.  While it waits, no
message can change which action it is, because no worker is attached then.
The digits reach further than the rows: nine digits choose, but at most five
rows are drawn, fewer when the area is short and none without a status.
-/

open Runs

namespace Chat

/-- What holds of the panel between any two turns. -/
structure Settled (chat : Chat) : Prop where
  /-- While a worker is attached there is nothing to choose from. -/
  busy : chat.streaming = true → chat.actions = [] ∧ chat.confirm = none
  /-- What waits is an action of the list, and not a test. -/
  waiting :
    ∀ index, chat.confirm = some index →
      ∃ action, chat.actions[index]? = some action ∧
        ∀ name, action ≠ .test name

theorem settled_default : Settled .default where
  busy := by
    intro streaming
    cases streaming
  waiting := by
    intro index isWaiting
    cases isWaiting

/-- Messages alone touch neither the list nor what waits. -/
theorem drain_keeps
    (chat : Chat)
    (finished : Option (List Char × Option (List Action)))
    (messages : List ChatMsg) :
    match chat.drain finished messages with
    | .idle drained =>
        drained.actions = chat.actions ∧ drained.confirm = chat.confirm ∧
          drained.streaming = false
    | .read drained _ =>
        drained.actions = chat.actions ∧ drained.confirm = chat.confirm ∧
          drained.streaming = chat.streaming := by
  induction messages generalizing chat finished with
  | nil =>
      exact ⟨rfl, rfl, rfl⟩
  | cons message rest inductionHypothesis =>
      cases message with
      | idle =>
          exact ⟨rfl, rfl, rfl⟩
      | _ =>
          exact inductionHypothesis _ _

/-- Nothing waits in a panel without a list entry to wait for. -/
theorem settled_of_not_waiting
    {chat : Chat}
    (noConfirm : chat.confirm = none)
    (busy : chat.streaming = true → chat.actions = []) :
    chat.Settled where
  busy := fun streaming => ⟨busy streaming, noConfirm⟩
  waiting := by
    intro index isWaiting
    rw [noConfirm] at isWaiting
    cases isWaiting

/-- A poll brings nothing into waiting and lists nothing while it goes on. -/
theorem poll_keeps
    (ipv6 : Ipv6Text)
    (chat : Chat)
    (messages : List ChatMsg) :
    (chat.poll ipv6 messages).confirm = chat.confirm ∧
      ((chat.poll ipv6 messages).streaming = true →
        (chat.poll ipv6 messages).actions = chat.actions) := by
  unfold Chat.poll
  split
  case isFalse =>
    exact ⟨rfl, fun _ => rfl⟩
  case isTrue streaming =>
    have kept := drain_keeps chat none messages
    cases drained : chat.drain none messages with
    | idle after =>
        rw [drained] at kept
        exact ⟨kept.2.1, fun _ => kept.1⟩
    | read after finished =>
        rw [drained] at kept
        cases finished with
        | none =>
            exact ⟨kept.2.1, fun _ => kept.1⟩
        | some reply =>
            exact ⟨kept.2.1, fun stillBusy => by cases stillBusy⟩

/-- No message reaches a panel in which an action waits. -/
theorem Settled.poll_of_waiting
    (ipv6 : Ipv6Text)
    {chat : Chat}
    (settled : chat.Settled)
    {index : Nat}
    (isWaiting : chat.confirm = some index)
    (messages : List ChatMsg) :
    chat.poll ipv6 messages = chat := by
  unfold Chat.poll
  rw [if_neg]
  intro streaming
  rw [(settled.busy streaming).2] at isWaiting
  cases isWaiting

/-- A poll keeps the panel settled, whatever the worker sends. -/
theorem Settled.poll
    (ipv6 : Ipv6Text)
    {chat : Chat}
    (settled : chat.Settled)
    (messages : List ChatMsg) :
    (chat.poll ipv6 messages).Settled := by
  by_cases streaming : chat.streaming = true
  · obtain ⟨noActions, noConfirm⟩ := settled.busy streaming
    obtain ⟨sameConfirm, sameActions⟩ := poll_keeps ipv6 chat messages
    exact settled_of_not_waiting (sameConfirm.trans noConfirm)
      fun stillBusy => (sameActions stillBusy).trans noActions
  · unfold Chat.poll
    rw [if_neg streaming]
    exact settled

/-- Nothing waits in a panel that a test or a question has taken over. -/
theorem Settled.runTest
    {chat : Chat}
    (settled : chat.Settled)
    (free : chat.confirm = none)
    (name : String) :
    (chat.runTest name).Settled ∧ (chat.runTest name).confirm = none := by
  unfold Chat.runTest
  split
  · exact ⟨settled, free⟩
  · exact ⟨settled_of_not_waiting rfl fun _ => rfl, rfl⟩

theorem Settled.send
    {chat : Chat}
    (settled : chat.Settled)
    (free : chat.confirm = none) :
    chat.send.Settled ∧ chat.send.confirm = none := by
  unfold Chat.send
  dsimp only
  split
  · exact ⟨⟨settled.busy, settled.waiting⟩, free⟩
  · exact ⟨settled_of_not_waiting rfl fun _ => rfl, rfl⟩

theorem Settled.typed
    {chat : Chat}
    (settled : chat.Settled)
    (free : chat.confirm = none)
    (input : List Char) :
    ({ chat with input := input } : Chat).Settled ∧
      ({ chat with input := input } : Chat).confirm = none :=
  ⟨⟨settled.busy, settled.waiting⟩, free⟩

/-- The row of each of the first five actions. -/
theorem actionRows_getElem?
    (ipv6 : Ipv6Text)
    (chat : Chat)
    (index : Nat) :
    (chat.actionRows ipv6)[index]? =
      if index < 5 then
        (chat.actions[index]?).map fun action =>
          { digit := index + 1
            text := action.describe ipv6
            selected := chat.confirm = some index }
      else
        none := by
  unfold Chat.actionRows
  rw [List.getElem?_map, List.getElem?_zipIdx, List.getElem?_take]
  split
  · cases chat.actions[index]? <;> simp
  · rfl

/-- A key chooses an action: its digit, in an empty line. -/
structure Chooses
    (chat : Chat)
    (key : Key)
    (index : Nat)
    (action : Action) : Prop where
  free : chat.confirm = none
  blank : chat.input = []
  digit : ∃ char, key.code = .char char ∧ App.digitIndex char = some index
  listed : chat.actions[index]? = some action

end Chat

/-- A key that confirms: `y` or `Y`. -/
def Key.Confirms (key : Key) : Prop :=
  key.code = .char 'y' ∨ key.code = .char 'Y'

instance (key : Key) : Decidable key.Confirms :=
  inferInstanceAs (Decidable (_ ∨ _))

namespace App

/-- A key while an action waits. -/
theorem chatKey_of_waiting
    (app : App)
    {chat : Chat}
    {index : Nat}
    {action : Action}
    (isWaiting : chat.confirm = some index)
    (listed : chat.actions[index]? = some action)
    (key : Key)
    (status : Bool) :
    (app.chatKey chat key status).1.chat =
        some { chat with confirm := none } ∧
      (app.chatKey chat key status).1.left = app.left ∧
      (app.chatKey chat key status).2 =
        if key.Confirms then [.action action] else [] := by
  have both : app.chatKey chat key status =
      app.confirmKey chat index key status := by
    rw [chatKey, isWaiting]
  rw [both, confirmKey, listed]
  by_cases confirms : key.Confirms
  · have isYes : key.code = .char 'y' ∨ key.code = .char 'Y' := confirms
    dsimp only
    rw [if_pos isYes, if_pos confirms]
    exact ⟨rfl, rfl, rfl⟩
  · have isNo : ¬(key.code = .char 'y' ∨ key.code = .char 'Y') := confirms
    dsimp only
    rw [if_neg isNo, if_neg confirms]
    exact ⟨rfl, rfl, rfl⟩

/-- A key that chooses an action, by whether the action is a test. -/
theorem chatKey_of_chooses
    (app : App)
    {chat : Chat}
    {key : Key}
    {index : Nat}
    {action : Action}
    (chooses : chat.Chooses key index action)
    (status : Bool) :
    app.chatKey chat key status =
      match action with
      | .test name =>
          ({ app with chat := some (chat.runTest name) },
            if chat.streaming = true then [] else [.action (.test name)])
      | _ =>
          ({ app with chat := some { chat with confirm := some index } },
            []) := by
  obtain ⟨char, isChar, isDigit⟩ := chooses.digit
  unfold chatKey
  rw [chooses.free]
  simp only [isChar, if_pos chooses.blank, isDigit, digitKey,
    chooses.listed]
  cases action <;> rfl

/-- A key that chooses nothing brings nothing into waiting. -/
theorem chatKey_of_not_chooses
    {app : App}
    {chat : Chat}
    (shown : app.chat = some chat)
    (settled : chat.Settled)
    (free : chat.confirm = none)
    {key : Key}
    (nothing : ∀ index action, ¬chat.Chooses key index action)
    (status : Bool) :
    (app.chatKey chat key status).1.left = app.left ∧
      (∀ action, .action action ∉ (app.chatKey chat key status).2) ∧
      ∀ next, (app.chatKey chat key status).1.chat = some next →
        next.Settled ∧ next.confirm = none := by
  unfold chatKey
  split
  case h_1 index isWaiting =>
    rw [free] at isWaiting
    cases isWaiting
  case h_2 =>
    cases code : key.code with
    | esc =>
        refine ⟨rfl, fun _ => List.not_mem_nil, fun next isNext => ?_⟩
        cases isNext
    | enter =>
        cases typed : chat.typedTest with
        | none =>
            refine ⟨rfl, fun _ => List.not_mem_nil,
              fun next isNext => ?_⟩
            cases isNext
            exact settled.send free
        | some asked =>
            cases asked with
            | error complaint =>
                refine ⟨rfl, fun _ => List.not_mem_nil,
                  fun next isNext => ?_⟩
                cases isNext
                exact settled.typed free []
            | ok name =>
                refine ⟨rfl, fun action member => ?_, fun next isNext => ?_⟩
                · dsimp only at member
                  split at member <;> simp at member
                · cases isNext
                  exact settled.runTest free name
    | backspace =>
        refine ⟨rfl, fun _ => List.not_mem_nil, fun next isNext => ?_⟩
        cases isNext
        exact settled.typed free chat.input.dropLast
    | char char =>
        dsimp only
        split
        case h_1 index isIndex =>
          split at isIndex
          case isFalse => cases isIndex
          case isTrue blank =>
            have unlisted : chat.actions[index]? = none := by
              by_contra listed
              obtain ⟨action, isAction⟩ :=
                Option.ne_none_iff_exists'.mp listed
              exact nothing index action
                ⟨free, blank, ⟨char, code, isIndex⟩, isAction⟩
            unfold digitKey
            rw [unlisted]
            refine ⟨rfl, fun _ => List.not_mem_nil,
              fun next isNext => ?_⟩
            cases isNext
            exact settled.typed free (chat.input ++ [char])
        case h_2 =>
          refine ⟨rfl, fun _ => List.not_mem_nil,
            fun next isNext => ?_⟩
          cases isNext
          exact settled.typed free (chat.input ++ [char])
    | other =>
        refine ⟨rfl, fun _ => List.not_mem_nil, fun next isNext => ?_⟩
        rw [shown] at isNext
        cases isNext
        exact ⟨settled, free⟩

/-- The panel is settled whenever it is open. -/
def Settled (app : App) : Prop :=
  ∀ chat, app.chat = some chat → chat.Settled

/-- A turn's key chooses an action of the open panel. -/
def Chooses
    (ipv6 : Ipv6Text)
    (app : App)
    (turn : Turn)
    (index : Nat)
    (action : Action) : Prop :=
  app.left = false ∧
    ∃ chat key, app.chat = some chat ∧ turn.input = .press key ∧
      (chat.poll ipv6 turn.messages).Chooses key index action

end App

/-- A turn in which no key is pressed. -/
def Turn.Quiet (turn : Turn) : Prop :=
  ∀ key, turn.input ≠ .press key

/-- A turn that presses `y` or `Y`. -/
def Turn.Confirms (turn : Turn) : Prop :=
  ∃ key, turn.input = .press key ∧ key.Confirms

theorem Turn.quiet_or_press (turn : Turn) :
    turn.Quiet ∨ ∃ key, turn.input = .press key := by
  cases input : turn.input with
  | press key =>
      exact Or.inr ⟨key, rfl⟩
  | _ =>
      refine Or.inl fun key isPress => ?_
      rw [input] at isPress
      cases isPress

namespace App

variable (ipv6 : Ipv6Text) {app : App} {turn : Turn}

/-- A waiting action, by its place in the list. -/
theorem awaiting_eq_some
    {action : Action} :
    app.awaiting = some action ↔
      ∃ chat index, app.chat = some chat ∧ chat.confirm = some index ∧
        chat.actions[index]? = some action := by
  simp [awaiting, Chat.awaiting, Option.bind_eq_some_iff]

theorem awaiting_eq_none
    (settled : app.Settled)
    (nothing : app.awaiting = none)
    {chat : Chat}
    (shown : app.chat = some chat) :
    chat.confirm = none := by
  cases isWaiting : chat.confirm with
  | none =>
      rfl
  | some index =>
      obtain ⟨action, listed, _⟩ :=
        (settled chat shown).waiting index isWaiting
      have waits : app.awaiting = some action :=
        awaiting_eq_some.mpr ⟨chat, index, shown, isWaiting, listed⟩
      rw [nothing] at waits
      cases waits

theorem awaiting_none_of_confirm
    (free : ∀ chat, app.chat = some chat → chat.confirm = none) :
    app.awaiting = none := by
  cases waits : app.awaiting with
  | none =>
      rfl
  | some action =>
      obtain ⟨chat, index, shown, isWaiting, _⟩ := awaiting_eq_some.mp waits
      rw [free chat shown] at isWaiting
      cases isWaiting

/-- Messages do not change which action waits. -/
theorem awaiting_poll
    (settled : app.Settled)
    {action : Action}
    (waits : app.awaiting = some action)
    (messages : List ChatMsg) :
    (app.poll ipv6 messages).chat = app.chat := by
  obtain ⟨chat, index, shown, isWaiting, _⟩ := awaiting_eq_some.mp waits
  rw [poll, shown, Option.map_some,
    (settled chat shown).poll_of_waiting ipv6 isWaiting]

theorem settled_poll
    (settled : app.Settled)
    (messages : List ChatMsg) :
    (app.poll ipv6 messages).Settled := by
  intro next isNext
  obtain ⟨chat, shown, rfl⟩ := Option.map_eq_some_iff.mp isNext
  exact (settled chat shown).poll ipv6 messages

theorem awaiting_poll_none
    (settled : app.Settled)
    (nothing : app.awaiting = none)
    (messages : List ChatMsg) :
    (app.poll ipv6 messages).awaiting = none := by
  refine awaiting_none_of_confirm fun next isNext => ?_
  obtain ⟨chat, shown, rfl⟩ := Option.map_eq_some_iff.mp isNext
  rw [(Chat.poll_keeps ipv6 chat messages).1]
  exact awaiting_eq_none settled nothing shown

/-- A turn without a key carries nothing out. -/
theorem turn_of_quiet
    (running : app.left = false)
    (quiet : turn.Quiet) :
    app.carried ipv6 turn = [] ∧
      (app.step ipv6 turn).left = false ∧
      (app.step ipv6 turn).chat =
        (app.poll ipv6 turn.messages).chat := by
  have isRunning : ¬app.left = true := by
    rw [running]
    exact Bool.false_ne_true
  unfold carried step takeTurn
  rw [if_neg isRunning]
  cases input : turn.input with
  | timeout =>
      exact ⟨rfl, running, rfl⟩
  | notPress =>
      exact ⟨rfl, running, rfl⟩
  | press key =>
      exact absurd input (quiet key)

/-- What a key does in the open panel, apart from leaving the dashboard. -/
theorem turn_of_press
    (running : app.left = false)
    {key : Key}
    (pressed : turn.input = .press key)
    (stays : ¬(key.code = .char 'c' ∧ key.control = true))
    {chat : Chat}
    (shown : app.chat = some chat) :
    app.takeTurn ipv6 turn =
      (app.poll ipv6 turn.messages).chatKey
        (chat.poll ipv6 turn.messages) key turn.status := by
  have isRunning : ¬app.left = true := by
    rw [running]
    exact Bool.false_ne_true
  unfold takeTurn
  rw [if_neg isRunning, pressed]
  dsimp only
  unfold press
  rw [if_neg stays]
  simp [poll, shown]

/-- Control-C leaves, and carries nothing out. -/
theorem turn_of_leaving
    (running : app.left = false)
    {key : Key}
    (pressed : turn.input = .press key)
    (leaves : key.code = .char 'c' ∧ key.control = true) :
    app.takeTurn ipv6 turn =
      ({ app.poll ipv6 turn.messages with left := true }, []) := by
  have isRunning : ¬app.left = true := by
    rw [running]
    exact Bool.false_ne_true
  unfold takeTurn
  rw [if_neg isRunning, pressed]
  dsimp only
  unfold press
  rw [if_pos leaves]

/-- A key while an action waits runs it or drops it. -/
theorem turn_of_waiting
    (running : app.left = false)
    (settled : app.Settled)
    {key : Key}
    (pressed : turn.input = .press key)
    {action : Action}
    (waits : app.awaiting = some action) :
    app.carried ipv6 turn =
        (if key.Confirms then [.action action] else []) ∧
      (app.step ipv6 turn).Settled ∧
      ((app.step ipv6 turn).left = false →
        (app.step ipv6 turn).awaiting = none) := by
  obtain ⟨chat, index, shown, isWaiting, listed⟩ := awaiting_eq_some.mp waits
  have isSettled := settled chat shown
  by_cases leaves : key.code = .char 'c' ∧ key.control = true
  · have noConfirm : ¬key.Confirms := by
      rintro (isYes | isYes) <;>
      · rw [leaves.1] at isYes
        cases isYes
    unfold carried step
    rw [turn_of_leaving ipv6 running pressed leaves, if_neg noConfirm]
    refine ⟨rfl, fun next isNext => ?_, fun stays => by cases stays⟩
    have same := awaiting_poll ipv6 settled waits turn.messages
    exact settled next (same ▸ isNext)
  · have unchanged := isSettled.poll_of_waiting ipv6 isWaiting turn.messages
    have result := turn_of_press ipv6 running pressed leaves shown
    rw [unchanged] at result
    obtain ⟨sameChat, _, sameCarried⟩ :=
      chatKey_of_waiting (app.poll ipv6 turn.messages) isWaiting listed
        key turn.status
    unfold carried step
    rw [result]
    refine ⟨sameCarried, fun next isNext => ?_, fun _ => ?_⟩
    · rw [sameChat] at isNext
      cases isNext
      exact Chat.settled_of_not_waiting rfl fun busy =>
        (isSettled.busy busy).1
    · refine awaiting_none_of_confirm fun next isNext => ?_
      rw [sameChat] at isNext
      cases isNext
      rfl

/-- One key chooses one action. -/
theorem Chooses.unique
    {ipv6 : Ipv6Text}
    {index other : Nat}
    {action another : Action}
    (chooses : app.Chooses ipv6 turn index action)
    (also : app.Chooses ipv6 turn other another) :
    index = other ∧ action = another := by
  obtain ⟨_, chat, key, shown, pressed, first⟩ := chooses
  obtain ⟨_, chat', key', shown', pressed', second⟩ := also
  obtain rfl := Option.some.inj (shown.symm.trans shown')
  obtain rfl := Input.press.inj (pressed.symm.trans pressed')
  obtain ⟨char, isChar, isDigit⟩ := first.digit
  obtain ⟨char', isChar', isDigit'⟩ := second.digit
  obtain rfl := KeyCode.char.inj (isChar.symm.trans isChar')
  obtain rfl := Option.some.inj (isDigit.symm.trans isDigit')
  exact ⟨rfl, Option.some.inj (first.listed.symm.trans second.listed)⟩

/-- Nothing waits where a key chooses. -/
theorem Chooses.awaiting_none
    {ipv6 : Ipv6Text}
    {index : Nat}
    {action : Action}
    (chooses : app.Chooses ipv6 turn index action) :
    app.awaiting = none := by
  obtain ⟨_, chat, key, shown, _, keyChooses⟩ := chooses
  refine awaiting_none_of_confirm fun next isNext => ?_
  obtain rfl := Option.some.inj (shown.symm.trans isNext)
  rw [← (Chat.poll_keeps ipv6 chat turn.messages).1]
  exact keyChooses.free

/-- A digit is no `y`. -/
theorem Chooses.not_confirms
    {ipv6 : Ipv6Text}
    {index : Nat}
    {action : Action}
    (chooses : app.Chooses ipv6 turn index action) :
    ¬turn.Confirms := by
  rintro ⟨key', pressed', confirms⟩
  obtain ⟨_, chat, key, _, pressed, keyChooses⟩ := chooses
  obtain rfl := Input.press.inj (pressed.symm.trans pressed')
  obtain ⟨char, isChar, isDigit⟩ := keyChooses.digit
  rcases confirms with isYes | isYes <;>
  · obtain rfl := KeyCode.char.inj (isChar.symm.trans isYes)
    cases isDigit

/-- A key that chooses an action runs a test, and lets the rest wait. -/
theorem turn_of_choice
    (settled : app.Settled)
    {index : Nat}
    {action : Action}
    (chooses : app.Chooses ipv6 turn index action) :
    (app.step ipv6 turn).Settled ∧ (app.step ipv6 turn).left = false ∧
      ((∃ name, action = .test name ∧
          app.carried ipv6 turn = [.action action] ∧
          (app.step ipv6 turn).awaiting = none) ∨
        ((∀ name, action ≠ .test name) ∧
          app.carried ipv6 turn = [] ∧
          (app.step ipv6 turn).awaiting = some action)) := by
  obtain ⟨running, chat, key, shown, pressed, keyChooses⟩ := chooses
  have isSettled := (settled chat shown).poll ipv6 turn.messages
  have stays : ¬(key.code = .char 'c' ∧ key.control = true) := by
    rintro ⟨isC, _⟩
    obtain ⟨char, isChar, isDigit⟩ := keyChooses.digit
    rw [isC] at isChar
    cases isChar
    cases isDigit
  have idle : (chat.poll ipv6 turn.messages).streaming = false := by
    refine Bool.eq_false_iff.mpr fun busy => ?_
    have listed := keyChooses.listed
    rw [(isSettled.busy busy).1] at listed
    cases listed
  have result := turn_of_press ipv6 running pressed stays shown
  rw [chatKey_of_chooses _ keyChooses] at result
  unfold carried step
  rw [result]
  cases action with
  | test name =>
      have taken := isSettled.runTest keyChooses.free name
      refine ⟨fun next isNext => ?_, running,
        Or.inl ⟨name, rfl, ?_, ?_⟩⟩
      · cases isNext
        exact taken.1
      · dsimp only
        rw [idle, if_neg Bool.false_ne_true]
      · refine awaiting_none_of_confirm fun next isNext => ?_
        cases isNext
        exact taken.2
  | _ =>
      refine ⟨fun next isNext => ?_, running,
        Or.inr ⟨fun name => by simp, rfl, ?_⟩⟩
      · cases isNext
        refine ⟨fun busy => ?_, fun other isWaiting => ?_⟩
        · rw [idle] at busy
          cases busy
        · cases isWaiting
          exact ⟨_, keyChooses.listed, fun name => by simp⟩
      · exact awaiting_eq_some.mpr
          ⟨_, index, rfl, rfl, keyChooses.listed⟩

/-- A key of the dashboard opens the panel empty, if at all. -/
theorem dashboardKey_chat
    (hidden : app.chat = none)
    (key : Key)
    {next : Chat}
    (isNext : (app.dashboardKey key).chat = some next) :
    next = .default := by
  unfold dashboardKey at isNext
  grind

/-- A key that neither meets a waiting action nor chooses one. -/
theorem turn_of_other
    (running : app.left = false)
    (settled : app.Settled)
    {key : Key}
    (pressed : turn.input = .press key)
    (nothing : app.awaiting = none)
    (unchosen : ∀ index action, ¬app.Chooses ipv6 turn index action) :
    (∀ action, .action action ∉ app.carried ipv6 turn) ∧
      (app.step ipv6 turn).Settled ∧
      (app.step ipv6 turn).awaiting = none := by
  by_cases leaves : key.code = .char 'c' ∧ key.control = true
  · unfold carried step
    rw [turn_of_leaving ipv6 running pressed leaves]
    exact ⟨fun _ => List.not_mem_nil,
      settled_poll ipv6 settled turn.messages,
      awaiting_poll_none ipv6 settled nothing turn.messages⟩
  · cases shown : app.chat with
    | none =>
        have hidden : (app.poll ipv6 turn.messages).chat = none := by
          rw [poll, shown, Option.map_none]
        have result :
            app.takeTurn ipv6 turn =
              ((app.poll ipv6 turn.messages).dashboardKey key, []) := by
          unfold takeTurn
          rw [running, if_neg Bool.false_ne_true, pressed]
          dsimp only
          unfold press
          rw [if_neg leaves, hidden]
        unfold carried step
        rw [result]
        refine ⟨fun _ => List.not_mem_nil, fun next isNext => ?_,
          awaiting_none_of_confirm fun next isNext => ?_⟩
        · rw [dashboardKey_chat hidden key isNext]
          exact Chat.settled_default
        · rw [dashboardKey_chat hidden key isNext]
          rfl
    | some chat =>
        have free : (chat.poll ipv6 turn.messages).confirm = none := by
          rw [(Chat.poll_keeps ipv6 chat turn.messages).1]
          exact awaiting_eq_none settled nothing shown
        have unchosenKey :
            ∀ index action,
              ¬(chat.poll ipv6 turn.messages).Chooses key index action :=
          fun index action keyChooses =>
            unchosen index action
              ⟨running, chat, key, shown, pressed, keyChooses⟩
        have polled :
            (app.poll ipv6 turn.messages).chat =
              some (chat.poll ipv6 turn.messages) := by
          rw [poll, shown, Option.map_some]
        obtain ⟨_, noAction, next⟩ :=
          chatKey_of_not_chooses polled
            ((settled chat shown).poll ipv6 turn.messages) free unchosenKey
            turn.status
        unfold carried step
        rw [turn_of_press ipv6 running pressed leaves shown]
        exact ⟨noAction, fun after isAfter => (next after isAfter).1,
          awaiting_none_of_confirm fun after isAfter =>
            (next after isAfter).2⟩

/-- Every turn keeps the panel settled. -/
theorem settled_step
    (settled : app.Settled) :
    (app.step ipv6 turn).Settled := by
  by_cases running : app.left = false
  · rcases turn.quiet_or_press with quiet | ⟨key, pressed⟩
    · have polled := settled_poll ipv6 settled turn.messages
      intro next isNext
      rw [(turn_of_quiet ipv6 running quiet).2.2] at isNext
      exact polled next isNext
    · cases waits : app.awaiting with
      | some action =>
          exact (turn_of_waiting ipv6 running settled pressed waits).2.1
      | none =>
          by_cases chosen : ∃ index action, app.Chooses ipv6 turn index action
          · obtain ⟨index, action, chooses⟩ := chosen
            exact (turn_of_choice ipv6 settled chooses).1
          · push Not at chosen
            exact (turn_of_other ipv6 running settled pressed waits
              chosen).2.1
  · have hasLeft : app.left = true := by simpa using running
    unfold step takeTurn
    rw [if_pos hasLeft]
    exact settled

/-- What a turn carries out of the list of actions. -/
theorem carried_iff
    (settled : app.Settled)
    {action : Action} :
    .action action ∈ app.carried ipv6 turn ↔
      app.left = false ∧
        ((∃ name index,
            action = .test name ∧ app.Chooses ipv6 turn index action) ∨
          (turn.Confirms ∧ app.awaiting = some action)) := by
  by_cases running : app.left = false
  · simp only [running, true_and]
    rcases turn.quiet_or_press with quiet | ⟨key, pressed⟩
    · rw [(turn_of_quiet ipv6 running quiet).1]
      simp only [List.not_mem_nil, false_iff, not_or, not_exists, not_and]
      refine ⟨fun name index _ chooses => ?_, fun confirms _ => ?_⟩
      · obtain ⟨_, _, key, _, pressed, _⟩ := chooses
        exact quiet key pressed
      · obtain ⟨key, pressed, _⟩ := confirms
        exact quiet key pressed
    · cases waits : app.awaiting with
      | some waiting =>
          have unchosen : ∀ index, ¬app.Chooses ipv6 turn index action := by
            intro index chooses
            rw [chooses.awaiting_none] at waits
            cases waits
          have confirms : turn.Confirms ↔ key.Confirms := by
            simp [Turn.Confirms, pressed]
          rw [(turn_of_waiting ipv6 running settled pressed waits).1,
            confirms]
          by_cases isYes : key.Confirms
          · simp [isYes, unchosen, eq_comm]
          · simp [isYes, unchosen]
      | none =>
          simp only [reduceCtorEq, and_false, or_false]
          by_cases chosen : ∃ index other, app.Chooses ipv6 turn index other
          · obtain ⟨index, other, chooses⟩ := chosen
            obtain ⟨_, _, isTest | isOther⟩ :=
              turn_of_choice ipv6 settled chooses
            · obtain ⟨name, rfl, tested, _⟩ := isTest
              rw [tested, List.mem_singleton, Carried.action.injEq]
              constructor
              · rintro rfl
                exact ⟨name, index, rfl, chooses⟩
              · rintro ⟨_, _, _, also⟩
                exact (also.unique chooses).2
            · obtain ⟨notTest, nothing, _⟩ := isOther
              rw [nothing]
              simp only [List.not_mem_nil, false_iff, not_exists, not_and]
              rintro name place rfl also
              exact notTest name (chooses.unique also).2
          · push Not at chosen
            have nothing :=
              (turn_of_other ipv6 running settled pressed waits chosen).1
            simp [nothing action, chosen]
  · have hasLeft : app.left = true := by simpa using running
    unfold carried takeTurn
    rw [if_pos hasLeft]
    simp [hasLeft]

theorem awaiting_poll_eq
    (settled : app.Settled)
    (messages : List ChatMsg) :
    (app.poll ipv6 messages).awaiting = app.awaiting := by
  cases waits : app.awaiting with
  | none =>
      exact awaiting_poll_none ipv6 settled waits messages
  | some action =>
      rw [awaiting, awaiting_poll ipv6 settled waits, ← waits]
      rfl

theorem step_of_left
    (hasLeft : app.left = true) :
    app.step ipv6 turn = app := by
  unfold step takeTurn
  rw [if_pos hasLeft]

/-- What waits after a turn waited before it or was chosen in it. -/
theorem awaiting_step_iff
    (settled : app.Settled)
    (stays : (app.step ipv6 turn).left = false)
    {action : Action} :
    (app.step ipv6 turn).awaiting = some action ↔
      (turn.Quiet ∧ app.awaiting = some action) ∨
        ∃ index, app.Chooses ipv6 turn index action ∧
          ∀ name, action ≠ .test name := by
  have running : app.left = false := by
    refine Bool.eq_false_iff.mpr fun hasLeft => ?_
    rw [step_of_left ipv6 hasLeft, hasLeft] at stays
    cases stays
  rcases turn.quiet_or_press with quiet | ⟨key, pressed⟩
  · have unchosen : ∀ index, ¬app.Chooses ipv6 turn index action := by
      rintro index ⟨_, _, key, _, pressed, _⟩
      exact quiet key pressed
    rw [awaiting, (turn_of_quiet ipv6 running quiet).2.2, ← awaiting,
      awaiting_poll_eq ipv6 settled]
    simp [quiet, unchosen]
  · have isPress : ¬turn.Quiet := fun quiet => quiet key pressed
    simp only [isPress, false_and, false_or]
    cases waits : app.awaiting with
    | some waiting =>
        have dropped :=
          (turn_of_waiting ipv6 running settled pressed waits).2.2 stays
        simp only [dropped, reduceCtorEq, false_iff, not_exists, not_and]
        intro index chooses
        rw [chooses.awaiting_none] at waits
        cases waits
    | none =>
        by_cases chosen : ∃ index other, app.Chooses ipv6 turn index other
        · obtain ⟨index, other, chooses⟩ := chosen
          obtain ⟨_, _, isTest | isOther⟩ :=
            turn_of_choice ipv6 settled chooses
          · obtain ⟨name, rfl, _, free⟩ := isTest
            simp only [free, reduceCtorEq, false_iff, not_exists, not_and,
              not_forall, not_not]
            intro place also
            exact ⟨name, (also.unique chooses).2⟩
          · obtain ⟨notTest, _, nowWaits⟩ := isOther
            rw [nowWaits, Option.some.injEq]
            constructor
            · rintro rfl
              exact ⟨index, chooses, notTest⟩
            · rintro ⟨place, also, _⟩
              exact (chooses.unique also).2
        · push Not at chosen
          have free :=
            (turn_of_other ipv6 running settled pressed waits chosen).2.2
          simp [free, chosen]

/-- The row of an action was on the screen, under its digit. -/
def Seen
    (ipv6 : Ipv6Text)
    (app : App)
    (turn : Turn)
    (index : Nat)
    (action : Action) : Prop :=
  ∃ row ∈ app.screen ipv6 turn,
    row.digit = index + 1 ∧ row.text = action.describe ipv6

/--
The digit is one of the rows drawn: there is a status, so that the panel is
drawn at all, and the row is among the first five and within the area.
-/
def InView (app : App) (turn : Turn) (index : Nat) : Prop :=
  app.status = true ∧ index < 5 ∧ index + 1 < turn.room

instance (app : App) (turn : Turn) (index : Nat) :
    Decidable (app.InView turn index) :=
  inferInstanceAs (Decidable (_ ∧ _ ∧ _))

/-- A chosen action is seen exactly when its digit is in view. -/
theorem Chooses.seen_iff
    {ipv6 : Ipv6Text}
    {index : Nat}
    {action : Action}
    (chooses : app.Chooses ipv6 turn index action) :
    app.Seen ipv6 turn index action ↔ app.InView turn index := by
  obtain ⟨_, chat, key, shown, _, keyChooses⟩ := chooses
  have listed := keyChooses.listed
  have screen :
      app.screen ipv6 turn =
        if app.status = true then
          ((chat.poll ipv6 turn.messages).actionRows ipv6).take
            (turn.room - 1)
        else
          [] := by
    simp [App.screen, draw, poll, shown]
  unfold Seen InView
  rw [screen]
  split
  case isFalse noStatus =>
    simp [noStatus]
  case isTrue status =>
    simp only [status, true_and]
    constructor
    · rintro ⟨row, member, sameDigit, _⟩
      obtain ⟨place, isRow⟩ := List.mem_iff_getElem?.mp member
      rw [List.getElem?_take, Chat.actionRows_getElem?] at isRow
      split at isRow
      case isFalse => cases isRow
      case isTrue inRoom =>
        split at isRow
        case isFalse => cases isRow
        case isTrue inFive =>
          obtain ⟨_, _, rfl⟩ := Option.map_eq_some_iff.mp isRow
          have same : place = index := Nat.succ.inj sameDigit
          omega
    · rintro ⟨inFive, inRoom⟩
      refine
        ⟨{ digit := index + 1
           text := action.describe ipv6
           selected :=
            (chat.poll ipv6 turn.messages).confirm = some index },
          List.mem_iff_getElem?.mpr ⟨index, ?_⟩, rfl, rfl⟩
      rw [List.getElem?_take, if_pos (by omega),
        Chat.actionRows_getElem?, if_pos inFive, listed]
      rfl

/-- The dashboard after some turns. -/
def after (ipv6 : Ipv6Text) (start : App) (past : List Turn) : App :=
  run (step ipv6) start past

variable {start : App}

@[simp] theorem after_concat
    (past : List Turn)
    (turn : Turn) :
    after ipv6 start (past ++ [turn]) =
      (after ipv6 start past).step ipv6 turn := by
  simp [after]

theorem settled_after
    (settled : start.Settled)
    (past : List Turn) :
    (after ipv6 start past).Settled := by
  induction past using List.reverseRecOn with
  | nil =>
      exact settled
  | append_singleton past turn inductionHypothesis =>
      rw [after_concat]
      exact settled_step ipv6 inductionHypothesis

/-- What waits was chosen once, and has waited ever since. -/
theorem chosen_before
    (settled : start.Settled)
    (free : start.awaiting = none)
    {past : List Turn}
    (stays : (after ipv6 start past).left = false)
    {action : Action}
    (waits : (after ipv6 start past).awaiting = some action) :
    ∃ earlier choice quiet index,
      past = earlier ++ choice :: quiet ∧
        (after ipv6 start earlier).Chooses ipv6 choice index action ∧
        (∀ name, action ≠ .test name) ∧
        (∀ turn ∈ quiet, turn.Quiet) ∧
        ∀ shown, shown <+: quiet →
          (after ipv6 start (earlier ++ choice :: shown)).awaiting =
            some action := by
  induction past using List.reverseRecOn with
  | nil =>
      rw [after, run_nil, free] at waits
      cases waits
  | append_singleton past turn inductionHypothesis =>
      have nowWaits := waits
      rw [after_concat] at stays waits
      have running : (after ipv6 start past).left = false := by
        refine Bool.eq_false_iff.mpr fun hasLeft => ?_
        rw [step_of_left ipv6 hasLeft, hasLeft] at stays
        cases stays
      rcases (awaiting_step_iff ipv6 (settled_after ipv6 settled past)
          stays).mp waits with ⟨isQuiet, waited⟩ | ⟨index, chooses, notTest⟩
      · obtain ⟨earlier, choice, quiet, index, rfl, chooses, notTest,
          allQuiet, waiting⟩ := inductionHypothesis running waited
        refine ⟨earlier, choice, quiet ++ [turn], index, by simp, chooses,
          notTest, ?_, fun shown isPrefix => ?_⟩
        · intro other member
          rcases List.mem_append.mp member with before | isLast
          · exact allQuiet other before
          · obtain rfl := List.mem_singleton.mp isLast
            exact isQuiet
        · rcases List.prefix_concat_iff.mp isPrefix with rfl | shorter
          · simpa using nowWaits
          · exact waiting shown shorter
      · refine ⟨past, turn, [], index, rfl, chooses, notTest,
          List.forall_mem_nil _, fun shown isPrefix => ?_⟩
        rw [List.prefix_nil.mp isPrefix]
        exact nowWaits

/-- A chosen action waits as long as no key is pressed. -/
theorem waits_after_choice
    (settled : start.Settled)
    {past : List Turn}
    {choice : Turn}
    {index : Nat}
    {action : Action}
    (chooses : (after ipv6 start past).Chooses ipv6 choice index action)
    (notTest : ∀ name, action ≠ .test name)
    {quiet : List Turn}
    (allQuiet : ∀ turn ∈ quiet, turn.Quiet) :
    (after ipv6 start (past ++ choice :: quiet)).left = false ∧
      (after ipv6 start (past ++ choice :: quiet)).awaiting =
        some action := by
  induction quiet using List.reverseRecOn with
  | nil =>
      rw [after_concat]
      have isSettled := settled_after ipv6 settled past
      obtain ⟨_, stays, _⟩ := turn_of_choice ipv6 isSettled chooses
      exact ⟨stays, (awaiting_step_iff ipv6 isSettled stays).mpr
        (Or.inr ⟨index, chooses, notTest⟩)⟩
  | append_singleton quiet turn inductionHypothesis =>
      obtain ⟨running, waits⟩ := inductionHypothesis fun other member =>
        allQuiet other (List.mem_append_left _ member)
      have isQuiet : turn.Quiet := allQuiet turn (by simp)
      rw [← List.cons_append, ← List.append_assoc, after_concat]
      have stays := (turn_of_quiet ipv6 running isQuiet).2.1
      exact ⟨stays, (awaiting_step_iff ipv6
        (settled_after ipv6 settled _) stays).mpr
          (Or.inl ⟨isQuiet, waits⟩)⟩

/-- A run has one last key. -/
theorem last_press_unique
    {earlier past quiet later : List Turn}
    {choice turn : Turn}
    (same : earlier ++ choice :: quiet = past ++ turn :: later)
    (choicePress : ¬choice.Quiet)
    (turnPress : ¬turn.Quiet)
    (allQuiet : ∀ other ∈ quiet, other.Quiet)
    (laterQuiet : ∀ other ∈ later, other.Quiet) :
    earlier = past ∧ choice = turn ∧ quiet = later := by
  rcases List.append_eq_append_iff.mp same with
    ⟨between, rfl, tail⟩ | ⟨between, rfl, tail⟩
  · cases between with
    | nil =>
        obtain ⟨rfl, rfl⟩ := List.cons.inj tail
        exact ⟨(List.append_nil earlier).symm, rfl, rfl⟩
    | cons first rest =>
        obtain ⟨_, rfl⟩ := List.cons.inj tail
        exact absurd (allQuiet turn (by simp)) turnPress
  · cases between with
    | nil =>
        obtain ⟨rfl, rfl⟩ := List.cons.inj tail
        exact ⟨List.append_nil past, rfl, rfl⟩
    | cons first rest =>
        obtain ⟨_, rfl⟩ := List.cons.inj tail
        exact absurd (laterQuiet choice (by simp)) choicePress

theorem Chooses.is_press
    {ipv6 : Ipv6Text}
    {index : Nat}
    {action : Action}
    (chooses : app.Chooses ipv6 turn index action) :
    ¬turn.Quiet := by
  obtain ⟨_, _, key, _, pressed, _⟩ := chooses
  exact fun quiet => quiet key pressed

/-- Who asked for what a turn carries out. -/
structure Asked
    (ipv6 : Ipv6Text)
    (start : App)
    (past : List Turn)
    (turn : Turn) : Prop where
  /-- A test without a row was typed, with its name, into the input line. -/
  typed :
    ∀ name, .typedTest name ∈ (after ipv6 start past).carried ipv6 turn →
      ∃ chat key, (after ipv6 start past).chat = some chat ∧
        turn.input = .press key ∧ key.code = .enter ∧
        (chat.poll ipv6 turn.messages).typedTest = some (.ok name)
  /--
  An action was on the screen when its digit was pressed; unless it is a
  test, a `y` came next, and the action has waited ever since its digit.
  -/
  confirmed :
    ∀ action, .action action ∈ (after ipv6 start past).carried ipv6 turn →
      (∃ name index, action = .test name ∧
        (after ipv6 start past).Chooses ipv6 turn index action ∧
        (after ipv6 start past).Seen ipv6 turn index action) ∨
      (turn.Confirms ∧
        ∃ earlier choice quiet index,
          past = earlier ++ choice :: quiet ∧
            (after ipv6 start earlier).Chooses ipv6 choice index action ∧
            (after ipv6 start earlier).Seen ipv6 choice index action ∧
            (∀ other ∈ quiet, other.Quiet) ∧
            ∀ shown, shown <+: quiet →
              (after ipv6 start (earlier ++ choice :: shown)).awaiting =
                some action)

/-- Nothing runs that was not seen and confirmed. -/
def SeenAndConfirmed
    (ipv6 : Ipv6Text)
    (start : App)
    (turns : List Turn) : Prop :=
  ∀ past turn later, turns = past ++ turn :: later →
    Asked ipv6 start past turn

/-- A chosen action is carried out: a test at once, others by the next key. -/
def CarriedThrough (action : Action) (later : List Turn) : Prop :=
  (∃ name, action = .test name) ∨
    ∃ quiet confirm rest, later = quiet ++ confirm :: rest ∧
      (∀ other ∈ quiet, other.Quiet) ∧ confirm.Confirms

/-- Each digit whose action is carried out is pressed with its row in view. -/
def ChosenInView
    (ipv6 : Ipv6Text)
    (start : App)
    (turns : List Turn) : Prop :=
  ∀ past turn later index action, turns = past ++ turn :: later →
    (after ipv6 start past).Chooses ipv6 turn index action →
    CarriedThrough action later →
    (after ipv6 start past).InView turn index

theorem typed_of_chatKey
    {chat : Chat}
    {key : Key}
    {status : Bool}
    {name : String}
    (member : .typedTest name ∈ (app.chatKey chat key status).2) :
    key.code = .enter ∧ chat.typedTest = some (.ok name) := by
  unfold chatKey at member
  split at member
  · unfold confirmKey at member
    grind
  · cases code : key.code with
    | enter =>
        rw [code] at member
        grind
    | char char =>
        rw [code] at member
        unfold digitKey at member
        grind
    | _ =>
        rw [code] at member
        cases member

/-- A test without a row is one that was typed. -/
theorem typed_of_carried
    {name : String}
    (member : .typedTest name ∈ app.carried ipv6 turn) :
    ∃ chat key, app.chat = some chat ∧ turn.input = .press key ∧
      key.code = .enter ∧
      (chat.poll ipv6 turn.messages).typedTest = some (.ok name) := by
  unfold carried takeTurn at member
  split at member
  case isTrue => cases member
  case isFalse =>
    cases input : turn.input with
    | press key =>
        rw [input] at member
        dsimp only at member
        unfold press at member
        split at member
        case isTrue => cases member
        case isFalse =>
          cases shown : app.chat with
          | none =>
              simp [poll, shown] at member
          | some chat =>
              have polled :
                  (app.poll ipv6 turn.messages).chat =
                    some (chat.poll ipv6 turn.messages) := by
                rw [poll, shown, Option.map_some]
              rw [polled] at member
              obtain ⟨isEnter, typed⟩ := typed_of_chatKey member
              exact ⟨chat, key, rfl, rfl, isEnter, typed⟩
    | _ =>
        rw [input] at member
        cases member

theorem settled_opened (ask status : Bool) :
    (opened ask status).Settled ∧ (opened ask status).awaiting = none := by
  cases ask with
  | false =>
      refine ⟨fun chat shown => ?_, rfl⟩
      cases shown
  | true =>
      refine ⟨fun chat shown => ?_, rfl⟩
      cases shown
      exact Chat.settled_default

/-- What was carried out and seen had been chosen in view. -/
theorem chosenInView_of_seenAndConfirmed
    {start : App}
    (settled : start.Settled)
    {turns : List Turn}
    (asked : SeenAndConfirmed ipv6 start turns) :
    ChosenInView ipv6 start turns := by
  intro past turn later index action shape chooses through
  rw [← chooses.seen_iff]
  have isSettled := settled_after ipv6 settled past
  by_cases isTest : ∃ name, action = .test name
  · obtain ⟨name, rfl⟩ := isTest
    have ran :
        .action (.test name) ∈ (after ipv6 start past).carried ipv6 turn :=
      (carried_iff ipv6 isSettled).mpr
        ⟨chooses.1, Or.inl ⟨name, index, rfl, chooses⟩⟩
    rcases (asked past turn later shape).confirmed _ ran with
      ⟨_, place, _, also, seen⟩ | ⟨confirms, _⟩
    · rw [(chooses.unique also).1]
      exact seen
    · exact absurd confirms chooses.not_confirms
  · have notTest : ∀ name, action ≠ .test name :=
      fun name same => isTest ⟨name, same⟩
    obtain ⟨quiet, confirm, rest, rfl, allQuiet, confirms⟩ :=
      through.resolve_left isTest
    obtain ⟨running, waits⟩ :=
      waits_after_choice ipv6 settled chooses notTest allQuiet
    have ran := (carried_iff ipv6 (settled_after ipv6 settled _)).mpr
      ⟨running, Or.inr ⟨confirms, waits⟩⟩
    rcases (asked (past ++ turn :: quiet) confirm rest
        (by simpa using shape)).confirmed action ran with
      ⟨name, _, same, _⟩ |
      ⟨_, earlier, choice, between, place, split, also, seen, betweenQuiet, _⟩
    · exact absurd same (notTest name)
    · obtain ⟨rfl, rfl, _⟩ := last_press_unique split chooses.is_press
        also.is_press allQuiet betweenQuiet
      rw [(chooses.unique also).1]
      exact seen

/-- What is chosen in view is seen, and waits for its confirmation. -/
theorem seenAndConfirmed_of_chosenInView
    {start : App}
    (settled : start.Settled)
    (free : start.awaiting = none)
    {turns : List Turn}
    (inView : ChosenInView ipv6 start turns) :
    SeenAndConfirmed ipv6 start turns := by
  intro past turn later shape
  refine ⟨fun name => typed_of_carried ipv6, fun action member => ?_⟩
  obtain ⟨running, chosen | ⟨confirms, waits⟩⟩ :=
    (carried_iff ipv6 (settled_after ipv6 settled past)).mp member
  · obtain ⟨name, index, rfl, chooses⟩ := chosen
    exact Or.inl ⟨name, index, rfl, chooses, chooses.seen_iff.mpr
      (inView past turn later index _ shape chooses (Or.inl ⟨name, rfl⟩))⟩
  · obtain ⟨earlier, choice, quiet, index, rfl, chooses, _, allQuiet,
      waiting⟩ := chosen_before ipv6 settled free running waits
    refine Or.inr ⟨confirms, earlier, choice, quiet, index, rfl, chooses,
      chooses.seen_iff.mpr ?_, allQuiet, waiting⟩
    exact inView earlier choice (quiet ++ turn :: later) index action
      (by simpa using shape) chooses
      (Or.inr ⟨quiet, turn, later, rfl, allQuiet, confirms⟩)

/--
Nothing runs that was not seen and confirmed, exactly when each digit whose
action is carried out is pressed while its row is in view.
-/
theorem seen_and_confirmed_iff
    (ipv6 : Ipv6Text)
    (ask status : Bool)
    (turns : List Turn) :
    SeenAndConfirmed ipv6 (opened ask status) turns ↔
      ChosenInView ipv6 (opened ask status) turns := by
  obtain ⟨settled, free⟩ := settled_opened ask status
  exact ⟨chosenInView_of_seenAndConfirmed ipv6 settled,
    seenAndConfirmed_of_chosenInView ipv6 settled free⟩

/-- A turn with one key and nothing from a worker, in an area for five rows. -/
def pressing (code : KeyCode) : Turn where
  messages := []
  room := 6
  input := .press ⟨code, false⟩
  status := true

/-- A reply that proposes six actions. -/
def sixProposals : List Char :=
  ("ACTION: open tcp 1001\nACTION: open tcp 1002\n" ++
    "ACTION: open tcp 1003\nACTION: open tcp 1004\n" ++
    "ACTION: open tcp 1005\nACTION: open tcp 1006").toList

/-- The standard library's IPv6 texts are not met in these turns. -/
def unmetIpv6 : Ipv6Text where
  print _ := []
  parse _ := none

/-- The sixth action is chosen and confirmed, though five rows are drawn. -/
theorem sixth_action_runs_unseen :
    ¬SeenAndConfirmed unmetIpv6 (opened true true)
      [pressing (.char 'h'), pressing .enter,
        { pressing (.char '6') with messages := [.done sixProposals] },
        pressing (.char 'y')] := by
  intro asked
  have inView := chosenInView_of_seenAndConfirmed unmetIpv6
    (settled_opened true true).1 asked
  have reached :
      (after unmetIpv6 (opened true true)
        [pressing (.char 'h'), pressing .enter]).chat =
      some
        { Chat.default with
          history := [("user", ['h'])]
          raw := [("user", ['h'])]
          streaming := true } := by
    decide +kernel
  have outOfView := inView
    [pressing (.char 'h'), pressing .enter]
    { pressing (.char '6') with messages := [.done sixProposals] }
    [pressing (.char 'y')] 5 (.openPort "tcp" 1006) rfl
    ⟨by decide +kernel, _, ⟨.char '6', false⟩, reached, rfl,
      ⟨by decide +kernel, by decide +kernel, ⟨'6', rfl, by decide⟩,
        by decide +kernel⟩⟩
    (Or.inr ⟨[], pressing (.char 'y'), [], rfl, List.forall_mem_nil _,
      ⟨.char 'y', false⟩, rfl, Or.inl rfl⟩)
  exact absurd outOfView (by decide +kernel)

end App

end AiFirewall
