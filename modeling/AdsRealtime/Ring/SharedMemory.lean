import AdsRealtime.Shared.Circular
import AdsRealtime.Shared.LittleEndian

set_option autoImplicit false

namespace AdsRealtime.SharedMemoryRingBuffer

-- The mapped header and the data area behind it, of which the view shows the first bytes. Both
-- positions are atomics that only one side stores.
structure Mapping where
  writePos : Nat
  readPos : Nat
  bufferSize : Nat
  viewSize : Nat
  dataBuffer : Nat → UInt8

def sizeofHeader : Nat := 32
def sizeofMsgLen : Nat := 4
def pageSize : Nat := 4096

-- CreateFileMappingW takes the size in two double words, of which the high one is always 0.
def sectionSize (bufferSize : Nat) : Nat :=
  (sizeofHeader + bufferSize) % 2 ^ 32

-- MapViewOfFile shows whole pages, and the header comes first.
def viewSize (bufferSize : Nat) : Nat :=
  (sectionSize bufferSize + (pageSize - 1)) / pageSize * pageSize - sizeofHeader

-- What the creating constructor leaves behind: the area itself is not initialised.
def create (bufferSize : Nat) (area : Nat → UInt8) : Mapping :=
  { writePos := 0
    readPos := 0
    bufferSize := bufferSize
    viewSize := viewSize bufferSize
    dataBuffer := area }

structure Granted where
  handle : Bool
  view : Bool

-- A section of no bytes is refused, and one that exists is mapped as it is, whatever the size that
-- is asked for.
def construct (bufferSize : Nat) (create : Bool) (granted : Granted) (area : Nat → UInt8)
    (existing : Option Mapping) : Except String Mapping :=
  let opened : Except String (Mapping × Bool) :=
    if create then
      if granted.handle ∧ sectionSize bufferSize ≠ 0 then
        match existing with
        | none =>
          .ok ({ writePos := 0
                 readPos := 0
                 bufferSize := 0
                 viewSize := viewSize bufferSize
                 dataBuffer := area }, true)
        | some mapping => .ok (mapping, false)
      else .error "CreateFileMapping failed"
    else
      match granted.handle, existing with
      | true, some mapping => .ok (mapping, false)
      | _, _ => .error "OpenFileMapping failed"
  match opened with
  | .error message => .error message
  | .ok (mapping, isCreator) =>
    if granted.view then
      if isCreator then
        .ok { mapping with writePos := 0, readPos := 0, bufferSize := bufferSize }
      else .ok mapping
    else .error "MapViewOfFile failed"

-- The byte stores of `write_wrapped`, in the order its one or two `memcpy` calls make them.
def writeWrappedStores (bufferSize : Nat) (src : List UInt8) (pos : Nat) : List (Nat × UInt8) :=
  let pos := pos % bufferSize
  if pos + src.length ≤ bufferSize then
    (List.range' pos src.length).zip src
  else
    let firstPart := bufferSize - pos
    (List.range' pos firstPart).zip (src.take firstPart) ++
      (List.range' 0 (src.length - firstPart)).zip (src.drop firstPart)

def readWrappedLoads (bufferSize len pos : Nat) : List Nat :=
  let pos := pos % bufferSize
  if pos + len ≤ bufferSize then
    List.range' pos len
  else
    let firstPart := bufferSize - pos
    List.range' pos firstPart ++ List.range' 0 (len - firstPart)

def writeWrapped (bufferSize : Nat) (dataBuffer : Nat → UInt8) (src : List UInt8) (pos : Nat) :
    Nat → UInt8 :=
  Circular.storeAll dataBuffer (writeWrappedStores bufferSize src pos)

def readWrapped (bufferSize : Nat) (dataBuffer : Nat → UInt8) (len pos : Nat) : List UInt8 :=
  Circular.loadAll dataBuffer (readWrappedLoads bufferSize len pos)

def available (bufferSize writePos readPos : Nat) : Nat :=
  if readPos ≤ writePos then bufferSize - (writePos - readPos) else readPos - writePos

def tooLarge (bufferSize len : Nat) : Bool :=
  len > bufferSize / 2

def write (bufferSize : Nat) (data : List UInt8) (ring : Mapping) : Bool × Mapping :=
  if tooLarge bufferSize data.length then
    (false, ring)
  else if available bufferSize ring.writePos ring.readPos < data.length + sizeofMsgLen then
    (false, ring)
  else
    let msgLen := LittleEndian.encode sizeofMsgLen data.length
    let dataPos := (ring.writePos + sizeofMsgLen) % bufferSize
    let dataBuffer := writeWrapped bufferSize ring.dataBuffer msgLen ring.writePos
    let dataBuffer := writeWrapped bufferSize dataBuffer data dataPos
    (true, { ring with
      dataBuffer := dataBuffer
      writePos := (dataPos + data.length) % bufferSize })

structure ReadResult where
  success : Bool
  len : Nat
  data : List UInt8
  deriving DecidableEq

def read (bufferSize : Nat) (len : Nat) (ring : Mapping) : ReadResult × Mapping :=
  if ring.readPos = ring.writePos then
    ({ success := false, len := len, data := [] }, ring)
  else
    let msgLen :=
      LittleEndian.decode (readWrapped bufferSize ring.dataBuffer sizeofMsgLen ring.readPos)
    let dataPos := (ring.readPos + sizeofMsgLen) % bufferSize
    if msgLen > len then
      ({ success := false, len := msgLen, data := [] }, ring)
    else
      let data := readWrapped bufferSize ring.dataBuffer msgLen dataPos
      ({ success := true, len := msgLen, data := data },
        { ring with readPos := (dataPos + msgLen) % bufferSize })

def availableRead (bufferSize : Nat) (ring : Mapping) : Nat :=
  if ring.writePos ≥ ring.readPos then ring.writePos - ring.readPos
  else bufferSize - ring.readPos + ring.writePos

def availableWrite (bufferSize : Nat) (ring : Mapping) : Nat :=
  bufferSize - availableRead bufferSize ring

def isEmpty (ring : Mapping) : Bool :=
  ring.writePos == ring.readPos

theorem construct_fresh {bufferSize : Nat} {granted : Granted} {area : Nat → UInt8}
    {ring : Mapping} (created : construct bufferSize true granted area none = .ok ring) :
    ring = create bufferSize area := by
  unfold construct at created
  by_cases none_ : sectionSize bufferSize = 0
  · simp [none_] at created
  · cases handle : granted.handle <;> cases view : granted.view <;>
      simp [none_, handle, view] at created
    exact created.symm

theorem viewSize_covers {bufferSize : Nat} (whole : sizeofHeader + bufferSize < 2 ^ 32) :
    bufferSize ≤ viewSize bufferSize := by
  rw [viewSize, sectionSize, Nat.mod_eq_of_lt whole]
  simp only [sizeofHeader, pageSize]
  omega

-- A size that is cut leaves one page.
theorem viewSize_cut {bufferSize : Nat} (narrow : bufferSize < 2 ^ 32)
    (cut : 2 ^ 32 ≤ sizeofHeader + bufferSize) : viewSize bufferSize ≤ pageSize := by
  simp only [viewSize, sectionSize, sizeofHeader, pageSize] at *
  omega

theorem length_readWrappedLoads (bufferSize len pos : Nat) :
    (readWrappedLoads bufferSize len pos).length = len := by
  simp only [readWrappedLoads]
  split
  · rw [List.length_range']
  · rw [List.length_append, List.length_range', List.length_range']
    omega

theorem length_readWrapped (bufferSize : Nat) (dataBuffer : Nat → UInt8) (len pos : Nat) :
    (readWrapped bufferSize dataBuffer len pos).length = len := by
  rw [readWrapped, Circular.loadAll, List.length_map, length_readWrappedLoads]

theorem length_writeWrappedStores (bufferSize : Nat) (src : List UInt8) (pos : Nat) :
    (writeWrappedStores bufferSize src pos).length = src.length := by
  simp only [writeWrappedStores]
  split
  · simp
  · simp only [List.length_append, List.length_zip, List.length_range', List.length_take,
      List.length_drop]
    omega

theorem range'_eq_around (size : Nat) {start count : Nat} (fits : start + count ≤ size) :
    List.range' start count = Circular.around size start count := by
  rw [List.range'_eq_map_range]
  apply List.map_congr_left
  intro k member
  have below := List.mem_range.mp member
  exact (Nat.mod_eq_of_lt (by omega)).symm

theorem range'_zero_eq_around (size : Nat) {count : Nat} (fits : count ≤ size) :
    List.range' 0 count = Circular.around size size count := by
  rw [range'_eq_around size (by omega), ← Circular.around_mod size size, Nat.mod_self]

theorem readWrappedLoads_eq {bufferSize len : Nat} (positive : 0 < bufferSize)
    (fits : len ≤ bufferSize) (pos : Nat) :
    readWrappedLoads bufferSize len pos = Circular.around bufferSize pos len := by
  have inside := Nat.mod_lt pos positive
  rw [← Circular.around_mod]
  simp only [readWrappedLoads]
  split
  · rename_i contiguous
    exact range'_eq_around bufferSize contiguous
  · rename_i wraps
    have split :
        len = (bufferSize - pos % bufferSize) + (len - (bufferSize - pos % bufferSize)) := by
      omega
    have whole : pos % bufferSize + (bufferSize - pos % bufferSize) = bufferSize := by
      omega
    conv_rhs => rw [split, Circular.around_append, whole]
    rw [range'_eq_around bufferSize (by omega), range'_zero_eq_around bufferSize (by omega)]

theorem writeWrappedStores_eq {bufferSize : Nat} {src : List UInt8} (positive : 0 < bufferSize)
    (fits : src.length ≤ bufferSize) (pos : Nat) :
    writeWrappedStores bufferSize src pos =
      (Circular.around bufferSize pos src.length).zip src := by
  rw [← readWrappedLoads_eq positive fits]
  simp only [writeWrappedStores, readWrappedLoads]
  split
  · rfl
  · have inside := Nat.mod_lt pos positive
    have same : (List.range' (pos % bufferSize) (bufferSize - pos % bufferSize)).length =
        (src.take (bufferSize - pos % bufferSize)).length := by
      rw [List.length_range', List.length_take]
      omega
    rw [← List.zip_append same, List.take_append_drop]

end AdsRealtime.SharedMemoryRingBuffer
