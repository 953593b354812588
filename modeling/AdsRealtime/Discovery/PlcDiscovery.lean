import AdsRealtime.Shared.InFlight
import AdsRealtime.Shared.Runs

set_option autoImplicit false

namespace AdsRealtime.PlcDiscovery

open InFlight (advance)

structure PlcRoute where
  name : String
  amsNetId : String
  ipAddress : String
  port : UInt16
  connected : Bool
  lastSeen : UInt64
  deriving DecidableEq

structure SymbolInfo where
  name : String
  type : String
  indexGroup : UInt32
  indexOffset : UInt32
  size : UInt32
  comment : String
  deriving DecidableEq

-- The maps under the mutex: of the connections only the keys, since nothing is ever kept there.
structure Tables where
  connections_ : List String
  symbols_ : List (String × List SymbolInfo)
  deriving DecidableEq

def addRoute (_ : PlcRoute) (tables : Tables) : Bool × Tables :=
  (true, tables)

def removeRoute (amsNetId : String) (tables : Tables) : Bool × Tables :=
  if amsNetId ∈ tables.connections_ then
    (true,
      { connections_ := tables.connections_.filter fun key => key ≠ amsNetId
        symbols_ := tables.symbols_.filter fun entry => entry.1 ≠ amsNetId })
  else
    (false, tables)

def getRoutes (_ : Tables) : List PlcRoute :=
  []

def connectToPlc (_ : String) (tables : Tables) : Bool × Tables :=
  (true, tables)

def disconnectFromPlc (amsNetId : String) (tables : Tables) : Tables :=
  { tables with connections_ := tables.connections_.filter fun key => key ≠ amsNetId }

def discoverSymbols (amsNetId : String) (tables : Tables) : List SymbolInfo × Tables :=
  let symbols := []
  (symbols,
    { tables with
      symbols_ := (amsNetId, symbols) ::
        tables.symbols_.filter fun entry => entry.1 ≠ amsNetId })

def subscribeToSymbol (_ : String) (_ : SymbolInfo) (tables : Tables) : Bool × Tables :=
  (true, tables)

def unsubscribeFromSymbol (_ _ : String) (tables : Tables) : Tables :=
  tables

inductive TablesCall where
  | addRoute (route : PlcRoute)
  | removeRoute (amsNetId : String)
  | connectToPlc (amsNetId : String)
  | disconnectFromPlc (amsNetId : String)
  | discoverSymbols (amsNetId : String)
  | subscribeToSymbol (amsNetId : String) (symbol : SymbolInfo)
  | unsubscribeFromSymbol (amsNetId symbolName : String)

def tablesStep (tables : Tables) : TablesCall → Tables
  | .addRoute route => (addRoute route tables).2
  | .removeRoute amsNetId => (removeRoute amsNetId tables).2
  | .connectToPlc amsNetId => (connectToPlc amsNetId tables).2
  | .disconnectFromPlc amsNetId => disconnectFromPlc amsNetId tables
  | .discoverSymbols amsNetId => (discoverSymbols amsNetId tables).2
  | .subscribeToSymbol amsNetId symbol => (subscribeToSymbol amsNetId symbol tables).2
  | .unsubscribeFromSymbol amsNetId symbolName => unsubscribeFromSymbol amsNetId symbolName tables

structure Inert (tables : Tables) : Prop where
  none_ : tables.connections_ = []
  empty : ∀ entry ∈ tables.symbols_, entry.2 = []

theorem tablesStep_inert {tables : Tables} (inert : Inert tables) (call : TablesCall) :
    Inert (tablesStep tables call) := by
  obtain ⟨none_, empty⟩ := inert
  cases call with
  | addRoute route => exact ⟨none_, empty⟩
  | removeRoute amsNetId =>
    rw [tablesStep, removeRoute, none_, if_neg List.not_mem_nil]
    exact ⟨none_, empty⟩
  | connectToPlc amsNetId => exact ⟨none_, empty⟩
  | disconnectFromPlc amsNetId =>
    rw [tablesStep, disconnectFromPlc, none_]
    exact ⟨rfl, empty⟩
  | discoverSymbols amsNetId =>
    refine ⟨none_, ?_⟩
    intro entry member
    rcases List.mem_cons.mp member with rfl | old
    · rfl
    · exact empty entry (List.mem_of_mem_filter old)
  | subscribeToSymbol amsNetId symbol => exact ⟨none_, empty⟩
  | unsubscribeFromSymbol amsNetId symbolName => exact ⟨none_, empty⟩

theorem tables_inert (calls : List TablesCall) (amsNetId : String) :
    removeRoute amsNetId (Runs.after tablesStep { connections_ := [], symbols_ := [] } calls) =
        (false, Runs.after tablesStep { connections_ := [], symbols_ := [] } calls) ∧
      ∀ entry ∈ (Runs.after tablesStep { connections_ := [], symbols_ := [] } calls).symbols_,
        entry.2 = [] := by
  have inert := Runs.invariant_of_step Inert (fun _ call inert => tablesStep_inert inert call)
    (show Inert { connections_ := [], symbols_ := [] } from ⟨rfl, by simp⟩) calls
  refine ⟨?_, inert.empty⟩
  rw [removeRoute, inert.none_, if_neg List.not_mem_nil]

def adsPort : UInt16 := 48898

def testIps : List String :=
  ["192.168.3.42", "192.168.3.151", "192.168.0.100"]

def routeOf (ip : String) (now : UInt64) : PlcRoute :=
  { name := "PLC_" ++ ip
    amsNetId := ip ++ ".1.1"
    ipAddress := ip
    port := adsPort
    connected := false
    lastSeen := now }

inductive Event where
  | spawned
  | joined
  | terminated
  | startup
  | cleanup
  | opened (sock : Int)
  | closed (sock : Int)
  deriving DecidableEq

-- Where pingPlc is, in the Windows build.
inductive PingAt where
  | starting
  | creating
  | connecting (sock : Int)
  | closing (sock : Int) (result : Bool)
  | cleaning (result : Bool)
  deriving DecidableEq

structure Reply where
  success : Bool
  sock : Int
  now : UInt64

def pingStep (reply : Reply) : PingAt → Except Bool PingAt × List Event
  | .starting => if reply.success then (.ok .creating, [.startup]) else (.error false, [])
  | .creating =>
    if reply.sock < 0 then (.error false, [.cleanup])
    else (.ok (.connecting reply.sock), [.opened reply.sock])
  | .connecting sock => (.ok (.closing sock reply.success), [])
  | .closing sock result => (.ok (.cleaning result), [.closed sock])
  | .cleaning result => (.error result, [.cleanup])

inductive LoopAt where
  | checking
  | scanning (ips : List String) (found : List PlcRoute)
  | pinging (ip : String) (ping : PingAt) (ips : List String) (found : List PlcRoute)
  | adding (found : List PlcRoute)
  | waiting (i : Nat)
  | ended
  deriving DecidableEq

inductive CallAt where
  | startChecking (intervalSeconds : UInt32)
  | startSetting (intervalSeconds : UInt32)
  | startSpawning (intervalSeconds : UInt32)
  | stopChecking
  | stopClearing
  | stopJoining
  deriving DecidableEq

structure Thread where
  intervalSeconds : UInt32
  position : LoopAt
  deriving DecidableEq

-- The flag is a plain bool that two threads use; its loads and stores are taken as atomic and
-- sequentially consistent.
structure Discovery where
  tables : Tables
  autoDiscoveryRunning : Bool
  autoDiscoveryThread : Option Thread
  calls : List CallAt
  log : List Event

def Discovery.new : Discovery :=
  { tables := { connections_ := [], symbols_ := [] }
    autoDiscoveryRunning := false
    autoDiscoveryThread := none
    calls := []
    log := [] }

def loopStep (reply : Reply) (running : Bool) (thread : Thread) : LoopAt × List Event :=
  match thread.position with
  | .checking => (if running then .scanning testIps [] else .ended, [])
  | .scanning [] found => (.adding found, [])
  | .scanning (ip :: ips) found => (.pinging ip .starting ips found, [])
  | .pinging ip ping ips found =>
    match pingStep reply ping with
    | (.ok next, events) => (.pinging ip next ips found, events)
    | (.error true, events) => (.scanning ips (found ++ [routeOf ip reply.now]), events)
    | (.error false, events) => (.scanning ips found, events)
  | .adding [] => (.waiting 0, [])
  | .adding (_ :: found) => (.adding found, [])
  | .waiting i =>
    (if i < thread.intervalSeconds.toNat ∧ running = true then .waiting (i + 1) else .checking, [])
  | .ended => (.ended, [])

def loopTables (tables : Tables) (thread : Thread) : Tables :=
  match thread.position with
  | .adding (route :: _) => (addRoute route tables).2
  | .adding [] | .checking | .scanning _ _ | .pinging _ _ _ _ | .waiting _ | .ended => tables

def threadStep (reply : Reply) (discovery : Discovery) : Discovery :=
  match discovery.autoDiscoveryThread with
  | none => discovery
  | some thread =>
    let (position, events) := loopStep reply discovery.autoDiscoveryRunning thread
    { discovery with
      tables := loopTables discovery.tables thread
      autoDiscoveryThread := some { thread with position := position }
      log := discovery.log ++ events }

def goOn (place : Nat) (next : Option CallAt) (discovery : Discovery) : Discovery :=
  { discovery with calls := advance discovery.calls place next }

-- Assigning to a thread that has not been joined ends the program; joining waits for its end.
-- The system has a thread to give: the constructor of std::thread does not throw.
def callStep (place : Nat) (discovery : Discovery) : Discovery :=
  match discovery.calls[place]? with
  | none => discovery
  | some (.startChecking intervalSeconds) =>
    goOn place
      (if discovery.autoDiscoveryRunning then none else some (.startSetting intervalSeconds))
      discovery
  | some (.startSetting intervalSeconds) =>
    { goOn place (some (.startSpawning intervalSeconds)) discovery with
      autoDiscoveryRunning := true }
  | some (.startSpawning intervalSeconds) =>
    { goOn place none discovery with
      autoDiscoveryThread := some { intervalSeconds := intervalSeconds, position := .checking }
      log := discovery.log ++
        if discovery.autoDiscoveryThread.isSome then [.terminated] else [.spawned] }
  | some .stopChecking =>
    goOn place (if discovery.autoDiscoveryRunning then some .stopClearing else none) discovery
  | some .stopClearing =>
    { goOn place (some .stopJoining) discovery with autoDiscoveryRunning := false }
  | some .stopJoining =>
    match discovery.autoDiscoveryThread with
    | none => goOn place none discovery
    | some thread =>
      if thread.position = .ended then
        { goOn place none discovery with
          autoDiscoveryThread := none
          log := discovery.log ++ [.joined] }
      else
        discovery

inductive Action where
  | start (intervalSeconds : UInt32)
  | stop
  | call (place : Nat)
  | thread (reply : Reply)

-- The destructor calls stopAutoDiscovery.
def perform (discovery : Discovery) : Action → Discovery
  | .start intervalSeconds =>
    { discovery with calls := .startChecking intervalSeconds :: discovery.calls }
  | .stop => { discovery with calls := .stopChecking :: discovery.calls }
  | .call place => callStep place discovery
  | .thread reply => threadStep reply discovery

def OneAtATime (discovery : Discovery) : Action → Prop
  | .start _ | .stop => discovery.calls = []
  | .call _ | .thread _ => True

instance (discovery : Discovery) (action : Action) : Decidable (OneAtATime discovery action) :=
  match action with
  | .start _ => inferInstanceAs (Decidable (discovery.calls = []))
  | .stop => inferInstanceAs (Decidable (discovery.calls = []))
  | .call _ => inferInstanceAs (Decidable True)
  | .thread _ => inferInstanceAs (Decidable True)

end AdsRealtime.PlcDiscovery
