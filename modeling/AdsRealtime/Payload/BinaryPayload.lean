import AdsRealtime.Shared.LittleEndian

set_option autoImplicit false

namespace AdsRealtime

open LittleEndian

structure BinaryPayloadHeader where
  version : UInt8
  type : UInt8
  variableCount : UInt16
  totalSize : UInt32
  timestampUs : UInt64
  sequenceNumber : UInt32
  deriving DecidableEq, Repr

structure VariableHeader where
  nameLength : UInt16
  dataType : UInt8
  dataLength : UInt32
  timestampUs : UInt64
  deriving DecidableEq, Repr

inductive PayloadType where
  | single
  | batch
  | compressed
  deriving DecidableEq, Repr

def PayloadType.code : PayloadType → UInt8
  | .single => 0
  | .batch => 1
  | .compressed => 2

inductive AdsDataType where
  | bool
  | byte
  | word
  | dword
  | int16
  | int32
  | int64
  | real32
  | real64
  | string
  | custom
  deriving DecidableEq, Repr

def AdsDataType.code : AdsDataType → UInt8
  | .bool => 1
  | .byte => 2
  | .word => 3
  | .dword => 4
  | .int16 => 5
  | .int32 => 6
  | .int64 => 7
  | .real32 => 8
  | .real64 => 9
  | .string => 10
  | .custom => 255

theorem AdsDataType.code_inj {a b : AdsDataType} : a.code = b.code ↔ a = b := by
  cases a <;> cases b <;> decide

def BinaryPayloadHeader.widths : List Nat := [1, 1, 2, 4, 8, 4]
def VariableHeader.widths : List Nat := [2, 1, 4, 8]

def sizeofBinaryPayloadHeader : Nat := BinaryPayloadHeader.widths.sum
def sizeofVariableHeader : Nat := VariableHeader.widths.sum

@[simp] theorem sizeofBinaryPayloadHeader_eq : sizeofBinaryPayloadHeader = 20 := rfl
@[simp] theorem sizeofVariableHeader_eq : sizeofVariableHeader = 15 := rfl

def BinaryPayloadHeader.bytes (header : BinaryPayloadHeader) : List UInt8 :=
  pack widths [header.version.toNat, header.type.toNat, header.variableCount.toNat,
    header.totalSize.toNat, header.timestampUs.toNat, header.sequenceNumber.toNat]

def BinaryPayloadHeader.ofBytes (data : List UInt8) : BinaryPayloadHeader :=
  match unpack widths data with
  | [version, type, variableCount, totalSize, timestampUs, sequenceNumber] =>
      { version := .ofNat version
        type := .ofNat type
        variableCount := .ofNat variableCount
        totalSize := .ofNat totalSize
        timestampUs := .ofNat timestampUs
        sequenceNumber := .ofNat sequenceNumber }
  | _ => ⟨0, 0, 0, 0, 0, 0⟩

def VariableHeader.bytes (header : VariableHeader) : List UInt8 :=
  pack widths [header.nameLength.toNat, header.dataType.toNat, header.dataLength.toNat,
    header.timestampUs.toNat]

def VariableHeader.ofBytes (data : List UInt8) : VariableHeader :=
  match unpack widths data with
  | [nameLength, dataType, dataLength, timestampUs] =>
      { nameLength := .ofNat nameLength
        dataType := .ofNat dataType
        dataLength := .ofNat dataLength
        timestampUs := .ofNat timestampUs }
  | _ => ⟨0, 0, 0, 0⟩

@[simp] theorem BinaryPayloadHeader.length_bytes (header : BinaryPayloadHeader) :
    header.bytes.length = 20 :=
  length_pack _ _ rfl

@[simp] theorem VariableHeader.length_bytes (header : VariableHeader) : header.bytes.length = 15 :=
  length_pack _ _ rfl

theorem BinaryPayloadHeader.ofBytes_append (header : BinaryPayloadHeader) (rest : List UInt8) :
    ofBytes (header.bytes ++ rest) = header := by
  rw [ofBytes, bytes, unpack_pack_append _ _ _ (by rfl)]
  simp [widths]

theorem VariableHeader.ofBytes_append (header : VariableHeader) (rest : List UInt8) :
    ofBytes (header.bytes ++ rest) = header := by
  rw [ofBytes, bytes, unpack_pack_append _ _ _ (by rfl)]
  simp [widths]

/--
One element of the variables argument: the data pointer and its length as the bytes they name.
-/
structure Variable where
  name : List UInt8
  type : AdsDataType
  data : List UInt8
  deriving DecidableEq, Repr

structure BinaryPayloadBuilder where
  buffer : List UInt8
  sequenceCounter : UInt32
  deriving DecidableEq, Repr

namespace BinaryPayloadBuilder

def new : BinaryPayloadBuilder := { buffer := [], sequenceCounter := 0 }

def appendBytes (buffer bytes : List UInt8) : List UInt8 :=
  buffer ++ bytes

-- clock k is the k-th reading of get_timestamp_us within the call.
def createSingle (builder : BinaryPayloadBuilder) (clock : Nat → UInt64) (name : List UInt8)
    (type : AdsDataType) (data : List UInt8) : List UInt8 × BinaryPayloadBuilder :=
  let header : BinaryPayloadHeader :=
    { version := 1
      type := PayloadType.single.code
      variableCount := 1
      sequenceNumber := builder.sequenceCounter
      timestampUs := clock 0
      totalSize := .ofNat
        (sizeofBinaryPayloadHeader + sizeofVariableHeader + name.length + data.length) }
  let varHeader : VariableHeader :=
    { nameLength := .ofNat name.length
      dataType := type.code
      dataLength := .ofNat data.length
      timestampUs := header.timestampUs }
  let buffer := appendBytes [] header.bytes
  let buffer := appendBytes buffer varHeader.bytes
  let buffer := appendBytes buffer name
  let buffer := appendBytes buffer data
  (buffer, { buffer, sequenceCounter := builder.sequenceCounter + 1 })

def appendVariable (timestampUs : UInt64) (buffer : List UInt8) (var : Variable) : List UInt8 :=
  let varHeader : VariableHeader :=
    { nameLength := .ofNat var.name.length
      dataType := var.type.code
      dataLength := .ofNat var.data.length
      timestampUs }
  let buffer := appendBytes buffer varHeader.bytes
  let buffer := appendBytes buffer var.name
  appendBytes buffer var.data

def appendVariables (clock : Nat → UInt64) : Nat → List UInt8 → List Variable → List UInt8
  | _, buffer, [] => buffer
  | reading, buffer, var :: rest =>
      appendVariables clock (reading + 1) (appendVariable (clock reading) buffer var) rest

def totalSize (vars : List Variable) : Nat :=
  vars.foldl (fun total var =>
    total + (sizeofVariableHeader + var.name.length + var.data.length)) sizeofBinaryPayloadHeader

def createBatch (builder : BinaryPayloadBuilder) (clock : Nat → UInt64)
    (vars : List Variable) : List UInt8 × BinaryPayloadBuilder :=
  let header : BinaryPayloadHeader :=
    { version := 1
      type := PayloadType.batch.code
      variableCount := .ofNat vars.length
      sequenceNumber := builder.sequenceCounter
      timestampUs := clock 0
      totalSize := .ofNat (totalSize vars) }
  let buffer := appendBytes [] header.bytes
  let buffer := appendVariables clock 1 buffer vars
  (buffer, { buffer, sequenceCounter := builder.sequenceCounter + 1 })

-- The header argument is the out parameter as the caller passed it in.
def decodeHeader (data : List UInt8) (header : BinaryPayloadHeader) : Bool × BinaryPayloadHeader :=
  if data.length < sizeofBinaryPayloadHeader then
    (false, header)
  else
    let header := BinaryPayloadHeader.ofBytes data
    (header.version == 1, header)

end BinaryPayloadBuilder

end AdsRealtime
