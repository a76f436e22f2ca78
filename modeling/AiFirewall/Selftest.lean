import AiFirewall.Detector
import AiFirewall.PolicyCompile

namespace AiFirewall

/-!
# Live tests

What the tests of a running firewall report.  The detector's test replays
simulated packets through a detector of its own; how long that took is an
argument.
-/


/-- `tui::duration`. -/
def duration (secs : U64) : String :=
  let secs := secs.toNat
  if secs = 0 then
    "forever"
  else if secs < 120 then
    Nat.repr secs ++ "s"
  else if secs < 7200 then
    Nat.repr (secs / 60) ++ "m"
  else
    let minutes := secs % 3600 / 60
    Nat.repr (secs / 3600) ++ "h" ++ (if minutes < 10 then "0" else "") ++
      Nat.repr minutes ++ "m"

/-- `Report`. -/
structure TestReport where
  test : String
  ok : Bool
  summary : String
  /-- Label and value, in display order. -/
  stats : List (String × String)
  deriving Repr, DecidableEq

/-- Single ports only: a range is for clients, not for one service. -/
def singles (specs : List PortSpec) : List U16 :=
  let ranges := specs.filterMap fun spec => spec.ports.toOption
  (ranges.filter fun range => range.1 = range.2).map Prod.fst

/-- `MAX_SIM_EVENTS`: simulated packets per scenario, at most. -/
def maxSimEvents : Nat := 2000

def simEvent
    (src : U32)
    (proto flags : U8)
    (port : U16)
    (verdict : U8) : PacketEvent where
  src6 := 0
  srcIp := src
  dstPort := port
  srcPort := 40000
  protocol := proto
  tcpFlags := flags
  payloadLen := 0
  verdict := verdict
  family := familyV4

structure Scenario where
  name : String
  expectBan : Bool
  isProtected : Bool
  /-- Each event with its simulated second. -/
  events : List (PacketEvent × U64)

/-- 198.51.100.7, of a range for documentation: never routed. -/
def simSource : U32 := 0xc6336407

/-- So many events in a second. -/
def perSec (rate index : Nat) : U64 :=
  BitVec.ofNat 64 (index / max rate 1)

def xmasFlags : U8 := tcpFlagFin ||| tcpFlagPsh ||| tcpFlagUrg

/-- The port that the scenarios of allowed traffic go to. -/
def simPort (cfg : Config) : U16 :=
  (singles cfg.allowTcp).head?.getD 22

def scanEvent (index : Nat) : PacketEvent :=
  simEvent simSource protoTcp tcpFlagSyn (1000 + BitVec.ofNat 16 index)
    verdictDropPolicy

def openEvent (cfg : Config) : PacketEvent :=
  simEvent simSource protoTcp tcpFlagSyn (simPort cfg) verdictPass

def datagramEvent : PacketEvent :=
  simEvent simSource protoUdp 0 40000 verdictDropPolicy

def stealthEvent (index : Nat) : PacketEvent :=
  simEvent simSource protoTcp xmasFlags (80 + BitVec.ofNat 16 index)
    verdictDropPolicy

def scenarios (cfg : Config) : List Scenario :=
  let scan :=
    (List.range 200).map fun index => (scanEvent index, perSec 20 index)
  let all : List Scenario :=
    [{ name := "port scan"
       expectBan := true
       isProtected := false
       events := scan },
     { name := "connection flood"
       expectBan := true
       isProtected := false
       events :=
         (List.range 400).map fun index =>
           (openEvent cfg, perSec 200 index) },
     { name := "udp flood"
       expectBan := true
       isProtected := false
       events :=
         (List.range 1000).map fun index =>
           (datagramEvent, perSec 500 index) },
     { name := "stealth scan"
       expectBan := true
       isProtected := false
       events := (List.range 10).map fun index => (stealthEvent index, 0) },
     { name := "normal use"
       expectBan := false
       isProtected := false
       events :=
         (List.range 180).map fun index =>
           (openEvent cfg, perSec 3 index) },
     { name := "trusted source scans"
       expectBan := false
       isProtected := true
       events := scan }]
  all.map fun scenario =>
    { scenario with events := scenario.events.take maxSimEvents }

section

variable (Score : Type) [ScoreArith Score]

/-- The first ban that events make, after how many, and in which second. -/
def Detector.firstBan :
    Detector → Nat → List (PacketEvent × U64) →
      Option (Nat × U64 × Ban Score)
  | _, _, [] => none
  | detector, seen, (event, second) :: rest =>
      match detector.observe Score event (1000000 + second) with
      | (some ban, _) => some (seen + 1, second, ban)
      | (none, next) => next.firstBan (seen + 1) rest

/-- The detector that a scenario is replayed through. -/
def Scenario.detector (scenario : Scenario) (cfg : Config) : Detector :=
  let fresh := Detector.new cfg.detector cfg.bans
  if scenario.isProtected then
    fresh.setProtected [Cidr.single simSource] []
  else
    fresh

def Scenario.hit
    (scenario : Scenario)
    (cfg : Config) : Option (Nat × U64 × Ban Score) :=
  (scenario.detector cfg).firstBan Score 0 scenario.events

/-- The events of a scenario that the detector got to see. -/
def Scenario.replayed (scenario : Scenario) (cfg : Config) : Nat :=
  match scenario.hit Score cfg with
  | some (count, _, _) => count
  | none => scenario.events.length

def Scenario.value (scenario : Scenario) (cfg : Config) : String :=
  match scenario.hit Score cfg with
  | some (count, second, ban) =>
      "banned after " ++ Nat.repr count ++ " packets / " ++
        Nat.repr second.toNat ++ "s · " ++ ban.reason ++ " · " ++
        duration ban.secs
  | none =>
      "not banned (" ++ Nat.repr scenario.events.length ++ " packets)"

/-- The scenarios that did not end as they should. -/
def unexpected (cfg : Config) : List String :=
  ((scenarios cfg).filter fun scenario =>
    (scenario.hit Score cfg).isSome != scenario.expectBan).map
      Scenario.name

/-- `detector`, when the replay took so many nanoseconds. -/
def detectorTest (cfg : Config) (nanos : U64) : TestReport :=
  let failed := unexpected Score cfg
  let total :=
    ((scenarios cfg).map fun scenario => scenario.replayed Score cfg).sum
  { test := "detector"
    ok := failed = []
    summary :=
      if failed = [] then
        "attacks banned, normal use and trusted sources left alone"
      else
        "unexpected result: " ++ ", ".intercalate failed
    stats :=
      ((scenarios cfg).map fun scenario =>
        (scenario.name, scenario.value Score cfg)) ++
      [("cost per packet",
          Nat.repr (nanos.toNat / max total 1) ++ " ns"),
        ("thresholds",
          "window " ++ Nat.repr cfg.detector.windowSecs.toNat ++
            "s · syn " ++ Nat.repr cfg.detector.synLimit.toNat ++
            " · ports " ++ Nat.repr cfg.detector.portLimit.toNat ++
            " · udp " ++ Nat.repr cfg.detector.udpLimit.toNat ++
            " · drops " ++ Nat.repr cfg.detector.dropLimit.toNat)] }

end

end AiFirewall
