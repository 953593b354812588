import AdsRealtime.Shared.Runs

set_option autoImplicit false

namespace AdsRealtime

structure RealtimeConfig where
  adsPort : UInt16 := 851
  notificationCycleUs : UInt32 := 100

structure AmsAddr where
  netId : List UInt8
  port : UInt16
  deriving DecidableEq

inductive AdsTransMode where
  | noTrans
  | clientCycle
  | client1Req
  | serverCycle
  | serverOnCha
  deriving DecidableEq

structure AdsNotificationAttrib where
  cbLength : UInt32
  nTransMode : AdsTransMode
  nMaxDelay : UInt32
  nCycleTime : UInt32
  deriving DecidableEq

def ADSIGRP_SYM_VALBYHND : UInt32 := 0xF005

-- The arguments of `AdsSyncAddDeviceNotificationReqEx`.
structure NotificationRequest where
  port : Int
  addr : AmsAddr
  indexGroup : UInt32
  indexOffset : UInt32
  attrib : AdsNotificationAttrib
  hUser : UInt32
  deriving DecidableEq

/--
What the three ADS requests of `add_variable` give back: the result codes and the out values.
-/
structure AdsReplies where
  symbolResult : Int
  symbolHandle : UInt32
  infoResult : Int
  symbolSize : UInt32
  notificationResult : Int
  notificationHandle : UInt32

namespace AdsRealtimeEngine

variable {κ : Type}

-- The object number tells allocations apart whose addresses may be the same one after the other.
structure VariableHandle (κ : Type) where
  object : Nat
  address : UInt64
  handle : UInt32
  notificationHandle : UInt32
  callback : Option κ
  name : String
  dataSize : Nat

inductive Event where
  | portOpened (port : Int)
  | portClosed (port : Int)
  | symbolHandleAcquired (name : String) (handle : UInt32)
  | notificationAdded (request : NotificationRequest) (object : Nat) (notification : UInt32)
  | notificationDeleted (port : Int) (addr : AmsAddr) (notification : UInt32)
  | variableFreed (object : Nat)
  deriving DecidableEq

structure Engine (κ : Type) where
  config : RealtimeConfig
  amsAddr : AmsAddr
  adsPort : Int
  running : Bool
  variables_ : List (UInt32 × VariableHandle κ)
  allocated : Nat
  log : List Event

def construct (config : RealtimeConfig) : Engine κ :=
  { config := config
    amsAddr := { netId := [0, 0, 0, 0, 0, 0], port := 0 }
    adsPort := 0
    running := false
    variables_ := []
    allocated := 0
    log := [] }

def record (events : List Event) (engine : Engine κ) : Engine κ :=
  { engine with log := engine.log ++ events }

-- A failed `AdsPortOpenEx` gives 0, which also replaces the port of an earlier connection.
def connect (opened : Int) (engine : Engine κ) : Bool × Engine κ :=
  let engine := { engine with adsPort := opened }
  if opened = 0 then
    (false, engine)
  else
    let addr := { netId := [127, 0, 0, 1, 1, 1], port := engine.config.adsPort }
    (true, record [.portOpened opened] { engine with amsAddr := addr })

-- `variables_[key] = std::move(var_handle)`: what the key held before is freed.
def assign (key : UInt32) (varHandle : VariableHandle κ) :
    List (UInt32 × VariableHandle κ) → List (UInt32 × VariableHandle κ) × List Event
  | [] => ([(key, varHandle)], [])
  | (other, held) :: rest =>
    if other = key then
      ((other, varHandle) :: rest, [.variableFreed held.object])
    else
      let (rest, events) := assign key varHandle rest
      ((other, held) :: rest, events)

def dataSize (replies : AdsReplies) : Nat :=
  if replies.infoResult ≠ 0 then 4 else replies.symbolSize.toNat

-- The user handle is the address of the new `VariableHandle`, cast to 32 bits.
def notificationRequest (replies : AdsReplies) (address : UInt64) (engine : Engine κ) :
    NotificationRequest :=
  { port := engine.adsPort
    addr := engine.amsAddr
    indexGroup := ADSIGRP_SYM_VALBYHND
    indexOffset := replies.symbolHandle
    attrib :=
      { cbLength := UInt32.ofNat (dataSize replies)
        nTransMode := .serverCycle
        nMaxDelay := 0
        nCycleTime := engine.config.notificationCycleUs / 1000 }
    hUser := address.toUInt32 }

def makeVarHandle (name : String) (callback : Option κ) (replies : AdsReplies) (address : UInt64)
    (engine : Engine κ) : VariableHandle κ :=
  { object := engine.allocated
    address := address
    handle := replies.symbolHandle
    notificationHandle := replies.notificationHandle
    callback := callback
    name := name
    dataSize := dataSize replies }

def addVariable (name : String) (callback : Option κ) (replies : AdsReplies) (address : UInt64)
    (engine : Engine κ) : Bool × Engine κ :=
  let object := engine.allocated
  let acquired := Event.symbolHandleAcquired name replies.symbolHandle
  if callback.isNone then
    (false, engine)
  else if replies.symbolResult ≠ 0 then
    (false, record [.variableFreed object] { engine with allocated := object + 1 })
  else if replies.notificationResult ≠ 0 then
    (false, record [acquired, .variableFreed object] { engine with allocated := object + 1 })
  else
    let added := Event.notificationAdded (notificationRequest replies address engine) object
      replies.notificationHandle
    let (variables_, freed) := assign replies.notificationHandle
      (makeVarHandle name callback replies address engine) engine.variables_
    (true, record (acquired :: added :: freed)
      { engine with allocated := object + 1, variables_ := variables_ })

def start (engine : Engine κ) : Engine κ :=
  { engine with running := true }

def deletions (engine : Engine κ) : List Event :=
  (engine.variables_.filter fun entry => entry.2.notificationHandle ≠ 0).map fun entry =>
    .notificationDeleted engine.adsPort engine.amsAddr entry.2.notificationHandle

def frees (engine : Engine κ) : List Event :=
  engine.variables_.map fun entry => .variableFreed entry.2.object

def stop (engine : Engine κ) : Engine κ :=
  if engine.running then
    { record (deletions engine ++ frees engine) engine with running := false, variables_ := [] }
  else
    engine

-- The destructor: whatever `stop` leaves in `variables_` is freed with the other members.
def destroy (engine : Engine κ) : Engine κ :=
  let engine := stop engine
  let engine := if engine.adsPort ≠ 0 then record [.portClosed engine.adsPort] engine else engine
  { record (frees engine) engine with variables_ := [] }

inductive Call (κ : Type) where
  | connect (opened : Int)
  | addVariable (name : String) (callback : Option κ) (replies : AdsReplies) (address : UInt64)
  | start
  | stop

def perform (engine : Engine κ) : Call κ → Engine κ
  | .connect opened => (connect opened engine).2
  | .addVariable name callback replies address =>
    (addVariable name callback replies address engine).2
  | .start => start engine
  | .stop => stop engine

end AdsRealtimeEngine

end AdsRealtime
