import AiFirewall.Assistant
import AiFirewall.Runs

namespace AiFirewall

/-!
# The Ask panel

The panel of the dashboard that talks to the assistant.  Each turn of the
dashboard's loop takes what the worker has sent, draws the panel and then
handles at most one key.  A worker is known here by what it sends, which may
be anything in any order.
-/

open RustText

/-- What a worker sends to the panel. -/
inductive ChatMsg where
  | backend (model : List Char)
  | chunk (piece : List Char)
  | done (full : List Char)
  | offline (text : List Char) (actions : List Action)
  | error (why : List Char)
  | tests (text : List Char)
  | idle
  deriving Repr, DecidableEq

/-- The panel's state. -/
structure Chat where
  input : List Char
  /-- Role and text; an assistant's text comes without its ACTION lines. -/
  history : List (String × List Char)
  /-- The replies as they came. -/
  raw : List (String × List Char)
  /-- A worker is attached. -/
  streaming : Bool
  current : List Char
  actions : List Action
  /-- The action that waits for a y / n, by its place in the list. -/
  confirm : Option Nat
  model : Option (List Char)
  testing : Bool
  deriving Repr, DecidableEq

/-- Something that was carried out for the panel. -/
inductive Carried where
  /-- An action of the list, run or tested. -/
  | action (action : Action)
  /-- A test that the user asked for by typing its name. -/
  | typedTest (name : String)
  deriving Repr, DecidableEq

namespace Chat

def default : Chat where
  input := []
  history := []
  raw := []
  streaming := false
  current := []
  actions := []
  confirm := none
  model := none
  testing := false

/-- `send`: ask what was typed, unless it is blank or a worker is busy. -/
def send (chat : Chat) : Chat :=
  let question := trim chat.input
  if question = [] ∨ chat.streaming = true then
    { chat with input := [] }
  else
    { chat with
      input := []
      history := chat.history ++ [("user", question)]
      raw := chat.raw ++ [("user", question)]
      actions := []
      confirm := none
      current := []
      streaming := true }

/-- `run_test`: nothing while a worker is busy. -/
def runTest (chat : Chat) (name : String) : Chat :=
  if chat.streaming = true then
    chat
  else
    { chat with
      input := []
      history := chat.history ++ [("user", "/test ".toList ++ name.toList)]
      actions := []
      confirm := none
      current := []
      testing := true
      streaming := true }

/-- `typed_test`: a test asked for by name, or the complaint about it. -/
def typedTest (chat : Chat) : Option (Except String String) := do
  let rest ← (trim chat.input).dropPrefix? "/test".toList
  let name := String.ofList (trim rest)
  if name = "" ∨ name = "all" then
    some (.ok "all")
  else
    match selftests.find? (· = name) with
    | some known => some (.ok known)
    | none =>
        some (.error ("unknown test " ++ debugText name ++
          "; known: all, " ++ ", ".intercalate selftests))

/-- What the messages of one poll come to. -/
inductive Drained where
  /-- An `Idle` ends the poll at once, and with it the worker. -/
  | idle (chat : Chat)
  /-- All messages read; the last reply among them, if there is one. -/
  | read (chat : Chat) (finished : Option (List Char × Option (List Action)))

/-- The messages of one poll, in order. -/
def drain
    (chat : Chat)
    (finished : Option (List Char × Option (List Action))) :
    List ChatMsg → Drained
  | [] => .read chat finished
  | .backend model :: rest =>
      drain { chat with model := some model } finished rest
  | .chunk piece :: rest =>
      drain { chat with current := chat.current ++ piece } finished rest
  | .done full :: rest => drain chat (some (full, none)) rest
  | .offline text actions :: rest =>
      drain chat (some (text, some actions)) rest
  | .error why :: rest =>
      drain chat (some ("The model failed: ".toList ++ why, some [])) rest
  | .tests text :: rest =>
      drain
        { chat with
          testing := false
          raw := chat.raw ++
            [("user", "Live test results:\n".toList ++ text)]
          history := chat.history ++ [("test", text)] }
        finished rest
  | .idle :: _ =>
      .idle { chat with testing := false, streaming := false }

/-- `poll`: drains whatever the worker sent. -/
def poll (ipv6 : Ipv6Text) (chat : Chat) (messages : List ChatMsg) : Chat :=
  if chat.streaming = true then
    match chat.drain none messages with
    | .idle drained => drained
    | .read drained none => drained
    | .read drained (some (text, actions)) =>
        { drained with
          actions := actions.getD (Assistant.parseActions ipv6 text)
          history := drained.history ++
            [("assistant", Assistant.stripActions text)]
          raw := drained.raw ++ [("assistant", text)]
          current := []
          streaming := false }
  else
    chat

/-- The action that waits for its confirmation. -/
def awaiting (chat : Chat) : Option Action :=
  chat.confirm.bind fun index => chat.actions[index]?

end Chat

/-- One row of the panel's list of actions. -/
structure ActionRow where
  digit : Nat
  text : String
  selected : Bool
  deriving Repr, DecidableEq

/-- The rows that `draw_chat` lays out: the first five actions. -/
def Chat.actionRows (ipv6 : Ipv6Text) (chat : Chat) : List ActionRow :=
  ((chat.actions.take 5).zipIdx).map fun (action, index) =>
    { digit := index + 1
      text := action.describe ipv6
      selected := chat.confirm = some index }

/-- A key, as far as the panel tells keys apart. -/
inductive KeyCode where
  | esc
  | enter
  | backspace
  | char (char : Char)
  | other
  deriving Repr, DecidableEq

structure Key where
  code : KeyCode
  control : Bool
  deriving Repr, DecidableEq

/-- What ends a turn: a timeout, something that is no key press, or a key. -/
inductive Input where
  | timeout
  | notPress
  | press (key : Key)
  deriving Repr, DecidableEq

/--
One turn of the loop: what the worker has sent, the height that the layout
leaves for the rows, the input, and whether the status file can be read if
the turn reads it.
-/
structure Turn where
  messages : List ChatMsg
  room : Nat
  input : Input
  status : Bool
  deriving Repr, DecidableEq

/-- The dashboard, as far as the panel goes. -/
structure App where
  chat : Option Chat
  /-- The status file could be read. -/
  status : Bool
  /-- The prompt for an address to ban is open. -/
  prompting : Bool
  /-- The dashboard has been left. -/
  left : Bool
  deriving Repr, DecidableEq

namespace App

/-- The dashboard when it starts, with the panel open or not. -/
def opened (ask status : Bool) : App where
  chat := if ask then some .default else none
  status := status
  prompting := false
  left := false

/-- The panel takes what the worker has sent. -/
def poll (ipv6 : Ipv6Text) (app : App) (messages : List ChatMsg) : App :=
  { app with chat := app.chat.map fun chat => chat.poll ipv6 messages }

/--
`draw`: the action rows on the screen.  Without a status the panel is not
drawn; the first line of the area stays blank, and what does not fit the
area is cut off.
-/
def draw (ipv6 : Ipv6Text) (app : App) (room : Nat) : List ActionRow :=
  match app.chat with
  | none => []
  | some chat =>
      if app.status = true then
        (chat.actionRows ipv6).take (room - 1)
      else
        []

/-- `refresh`, and what it reads of the status file. -/
def refresh (app : App) (status : Bool) : App :=
  { app with status := status }

/-- A key while an action waits: `y` runs it, and any key ends the waiting. -/
def confirmKey
    (app : App)
    (chat : Chat)
    (index : Nat)
    (key : Key)
    (status : Bool) : App × List Carried :=
  let app := { app with chat := some { chat with confirm := none } }
  match chat.actions[index]? with
  | some action =>
      if key.code = .char 'y' ∨ key.code = .char 'Y' then
        (app.refresh status, [.action action])
      else
        (app, [])
  | none => (app, [])

/-- The place in the list that a digit from 1 to 9 names. -/
def digitIndex (char : Char) : Option Nat :=
  if '1' ≤ char ∧ char ≤ '9' then
    some (char.toNat - '1'.toNat)
  else
    none

/-- A digit in an empty input line chooses an action, if there is one. -/
def digitKey (chat : Chat) (index : Nat) (char : Char) :
    Chat × List Carried :=
  match chat.actions[index]? with
  | some (.test name) =>
      (chat.runTest name,
        if chat.streaming = true then [] else [.action (.test name)])
  | some _ => ({ chat with confirm := some index }, [])
  | none => ({ chat with input := chat.input ++ [char] }, [])

/-- A key in the open panel. -/
def chatKey (app : App) (chat : Chat) (key : Key) (status : Bool) :
    App × List Carried :=
  match chat.confirm with
  | some index => app.confirmKey chat index key status
  | none =>
      match key.code with
      | .esc => ({ app with chat := none }, [])
      | .enter =>
          match chat.typedTest with
          | some (.ok name) =>
              ({ app with chat := some (chat.runTest name) },
                if chat.streaming = true then [] else [.typedTest name])
          | some (.error _) =>
              ({ app with chat := some { chat with input := [] } }, [])
          | none => ({ app with chat := some chat.send }, [])
      | .backspace =>
          ({ app with
              chat := some { chat with input := chat.input.dropLast } }, [])
      | .char char =>
          match (if chat.input = [] then digitIndex char else none) with
          | some index =>
              let (chat, carried) := digitKey chat index char
              ({ app with chat := some chat }, carried)
          | none =>
              ({ app with
                  chat := some { chat with input := chat.input ++ [char] } },
                [])
      | .other => (app, [])

/--
A key in the dashboard without the panel.  Its commands on the selected ban
and its ban prompt are not the panel's; what they do to the panel is here.
-/
def dashboardKey (app : App) (key : Key) : App :=
  if app.prompting = true then
    match key.code with
    | .esc => { app with prompting := false }
    | .enter => { app with prompting := false }
    | _ => app
  else
    match key.code with
    | .char 'q' => { app with left := true }
    | .esc => { app with left := true }
    | .char 'b' => { app with prompting := true }
    | .char 'a' => { app with chat := some .default }
    | .char '?' => { app with chat := some .default }
    | _ => app

/-- A key of the dashboard. -/
def press (app : App) (key : Key) (status : Bool) : App × List Carried :=
  if key.code = .char 'c' ∧ key.control = true then
    ({ app with left := true }, [])
  else
    match app.chat with
    | some chat => app.chatKey chat key status
    | none => (app.dashboardKey key, [])

/-- One turn of the loop, and what it carries out. -/
def takeTurn (ipv6 : Ipv6Text) (app : App) (turn : Turn) :
    App × List Carried :=
  if app.left = true then
    (app, [])
  else
    let app := app.poll ipv6 turn.messages
    match turn.input with
    | .timeout => (app.refresh turn.status, [])
    | .notPress => (app, [])
    | .press key => app.press key turn.status

def step (ipv6 : Ipv6Text) (app : App) (turn : Turn) : App :=
  (app.takeTurn ipv6 turn).1

/-- What a turn carries out. -/
def carried (ipv6 : Ipv6Text) (app : App) (turn : Turn) : List Carried :=
  (app.takeTurn ipv6 turn).2

/-- The rows on the screen when the input of a turn arrives. -/
def screen (ipv6 : Ipv6Text) (app : App) (turn : Turn) : List ActionRow :=
  (app.poll ipv6 turn.messages).draw ipv6 turn.room

/-- The action that waits for its confirmation. -/
def awaiting (app : App) : Option Action :=
  app.chat.bind Chat.awaiting

end App

end AiFirewall
