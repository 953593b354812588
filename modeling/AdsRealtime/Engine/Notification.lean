import AdsRealtime.Engine.AdsRealtimeEngine
import AdsRealtime.Shared.Circular
import AdsRealtime.Shared.LittleEndian

set_option autoImplicit false

namespace AdsRealtime.AdsRealtimeEngine

variable {κ : Type}

def ANYSIZE_ARRAY : Nat := 1

-- `AdsNotificationHeader` under pack(1): hNotification, nTimeStamp, cbSampleSize, data[].
def notificationHeaderFields : List Nat :=
  [4, 8, 4, ANYSIZE_ARRAY]

def sizeofAdsNotificationHeader : Nat :=
  notificationHeaderFields.sum

def offsetOf (field : Nat) : Nat :=
  (notificationHeaderFields.take field).sum

def readField (memory : Nat → UInt8) (pNotification field : Nat) : Nat :=
  LittleEndian.decode (Circular.loadAll memory
    (List.range' (pNotification + offsetOf field) (notificationHeaderFields.getD field 0)))

def nTimeStamp (memory : Nat → UInt8) (pNotification : Nat) : Nat :=
  readField memory pNotification 1

def cbSampleSize (memory : Nat → UInt8) (pNotification : Nat) : Nat :=
  readField memory pNotification 2

def sampleAddresses (memory : Nat → UInt8) (pNotification : Nat) : List Nat :=
  List.range' (pNotification + offsetOf 3) (cbSampleSize memory pNotification)

structure CallbackArguments where
  variableName : String
  data : Nat
  dataSize : Nat
  timestampNs : Nat

/-- What becomes of a notification; the user handle may not be the address of any handle object. -/
inductive Notified (κ : Type) where
  | ignored
  | dangling
  | silent
  | called (callback : κ) (arguments : CallbackArguments)

def adsNotificationCallback (heap : UInt64 → Option (VariableHandle κ)) (memory : Nat → UInt8)
    (pNotification : Nat) (hUser : UInt32) : Notified κ :=
  let varHandle := hUser.toUInt64
  if varHandle = 0 then
    .ignored
  else
    match heap varHandle with
    | none => .dangling
    | some varHandle =>
      match varHandle.callback with
      | none => .silent
      | some callback =>
        .called callback
          { variableName := varHandle.name
            data := pNotification + sizeofAdsNotificationHeader
            dataSize := cbSampleSize memory pNotification
            timestampNs := nTimeStamp memory pNotification }

structure Message where
  topic : String
  payload : String
  qos : Nat
  retained : Bool
  deriving DecidableEq

def publish (connected : Bool) (topic payload : String) : List Message :=
  if connected then [{ topic := topic, payload := payload, qos := 0, retained := false }] else []

-- `*static_cast<const int32_t*>(data)`
def int32At (memory : Nat → UInt8) (data : Nat) : Int :=
  (BitVec.ofNat 32 (LittleEndian.decode (Circular.loadAll memory (List.range' data 4)))).toInt

def mainCallback (connected : Bool) (memory : Nat → UInt8) (arguments : CallbackArguments) :
    List Message :=
  publish connected ("ads/" ++ arguments.variableName)
    (toString (int32At memory arguments.data))

def readable (arguments : CallbackArguments) : List Nat :=
  List.range' arguments.data arguments.dataSize

/--
What the bridge owes the callback: the sample and nothing else, and the number in it on MQTT.
-/
structure HandsSample (memory : Nat → UInt8) (pNotification : Nat)
    (arguments : CallbackArguments) : Prop where
  exactly : readable arguments = sampleAddresses memory pNotification
  published : cbSampleSize memory pNotification = 4 →
    mainCallback true memory arguments =
      publish true ("ads/" ++ arguments.variableName)
        (toString (int32At memory (pNotification + offsetOf 3)))

theorem adsNotificationCallback_called {heap : UInt64 → Option (VariableHandle κ)}
    {hUser : UInt32} {varHandle : VariableHandle κ} {callback : κ} (notNull : hUser ≠ 0)
    (registered : heap hUser.toUInt64 = some varHandle)
    (present : varHandle.callback = some callback) (memory : Nat → UInt8) (pNotification : Nat) :
    adsNotificationCallback heap memory pNotification hUser =
      .called callback
        { variableName := varHandle.name
          data := pNotification + sizeofAdsNotificationHeader
          dataSize := cbSampleSize memory pNotification
          timestampNs := nTimeStamp memory pNotification } := by
  have notZero : hUser.toUInt64 ≠ 0 := by
    intro zero
    apply notNull
    have low := congrArg UInt64.toUInt32 zero
    simpa using low
  simp only [adsNotificationCallback, if_neg notZero, registered, present]

-- `pNotification + 1` is one byte past the start of `data`.
theorem sizeof_eq : sizeofAdsNotificationHeader = offsetOf 3 + 1 :=
  rfl

theorem range'_shift_iff (start count : Nat) :
    List.range' (start + 1) count = List.range' start count ↔ count = 0 := by
  cases count with
  | zero => simp
  | succ count => simp [List.range'_succ]

theorem loadAll_four (memory : Nat → UInt8) (start : Nat) :
    Circular.loadAll memory (List.range' start 4) =
      [memory start, memory (start + 1), memory (start + 2), memory (start + 3)] :=
  rfl

theorem int32At_inj (memory : Nat → UInt8) (a b : Nat) :
    int32At memory a = int32At memory b ↔
      Circular.loadAll memory (List.range' a 4) = Circular.loadAll memory (List.range' b 4) := by
  have bound : ∀ start,
      LittleEndian.decode (Circular.loadAll memory (List.range' start 4)) < 2 ^ 32 := by
    intro start
    have below := LittleEndian.decode_lt (Circular.loadAll memory (List.range' start 4))
    simpa [loadAll_four] using below
  rw [int32At, int32At, BitVec.toInt_inj, ← BitVec.toNat_inj, BitVec.toNat_ofNat,
    BitVec.toNat_ofNat, Nat.mod_eq_of_lt (bound a), Nat.mod_eq_of_lt (bound b)]
  exact LittleEndian.decode_inj rfl

theorem loadAll_shift_iff (memory : Nat → UInt8) (start count : Nat) :
    Circular.loadAll memory (List.range' (start + 1) count) =
        Circular.loadAll memory (List.range' start count) ↔
      ∀ k < count, memory (start + k + 1) = memory (start + k) := by
  simp only [Circular.loadAll, List.range'_eq_map_range, List.map_map, List.map_inj_left,
    List.mem_range, Function.comp, Nat.add_right_comm start 1]

-- The number on MQTT is right only by coincidence: each sample byte equals the byte behind it.
theorem int32At_published_iff (memory : Nat → UInt8) (pNotification : Nat)
    (arguments : CallbackArguments)
    (handed : arguments.data = pNotification + sizeofAdsNotificationHeader) :
    int32At memory arguments.data = int32At memory (pNotification + offsetOf 3) ↔
      ∀ k < 4, memory (pNotification + offsetOf 3 + k + 1) =
        memory (pNotification + offsetOf 3 + k) := by
  rw [handed, sizeof_eq, ← Nat.add_assoc, int32At_inj, loadAll_shift_iff]

theorem adsNotificationCallback_handsSample_iff {heap : UInt64 → Option (VariableHandle κ)}
    {hUser : UInt32} {varHandle : VariableHandle κ} {callback : κ} (notNull : hUser ≠ 0)
    (registered : heap hUser.toUInt64 = some varHandle)
    (present : varHandle.callback = some callback) (memory : Nat → UInt8) (pNotification : Nat) :
    (∃ arguments,
        adsNotificationCallback heap memory pNotification hUser = .called callback arguments ∧
          HandsSample memory pNotification arguments) ↔
      cbSampleSize memory pNotification = 0 := by
  rw [adsNotificationCallback_called notNull registered present]
  constructor
  · rintro ⟨arguments, called, hands⟩
    have shifted := hands.exactly
    obtain ⟨_, rfl⟩ := Notified.called.inj called
    rw [readable, sizeof_eq, sampleAddresses, ← Nat.add_assoc, range'_shift_iff] at shifted
    exact shifted
  · intro empty
    refine ⟨_, rfl, ?_, ?_⟩
    · rw [readable, sampleAddresses, empty]
      rfl
    · intro four
      rw [empty] at four
      cases four

def abcHandle : VariableHandle Unit :=
  { object := 0
    address := 0x1000
    handle := 1
    notificationHandle := 7
    callback := some ()
    name := "GVL.abc"
    dataSize := 4 }

-- A header with cbSampleSize = 4, followed at its data member by the number 1.
def oneSample (address : Nat) : UInt8 :=
  let hNotification : List UInt8 := [7, 0, 0, 0]
  let nTimeStamp : List UInt8 := [0, 0, 0, 0, 0, 0, 0, 0]
  let cbSampleSize : List UInt8 := [4, 0, 0, 0]
  let data : List UInt8 := [1, 0, 0, 0]
  (hNotification ++ nTimeStamp ++ cbSampleSize ++ data).getD address 0

theorem adsNotificationCallback_handsSample_abc :
    (∃ arguments,
        adsNotificationCallback (fun _ => some abcHandle) oneSample 0 0x1000 =
            .called () arguments ∧
          HandsSample oneSample 0 arguments) ↔
      cbSampleSize oneSample 0 = 0 :=
  adsNotificationCallback_handsSample_iff (by decide) rfl rfl oneSample 0

theorem one_published_as_zero :
    ∃ arguments,
      adsNotificationCallback (fun _ => some abcHandle) oneSample 0 0x1000 =
          .called () arguments ∧
        mainCallback true oneSample arguments = publish true "ads/GVL.abc" "0" ∧
        ¬ HandsSample oneSample 0 arguments := by
  refine ⟨_, rfl, by decide, ?_⟩
  intro hands
  have shifted := hands.exactly
  revert shifted
  decide

end AdsRealtime.AdsRealtimeEngine
