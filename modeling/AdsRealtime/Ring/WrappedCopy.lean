import AdsRealtime.Ring.SharedMemory

set_option autoImplicit false

namespace AdsRealtime.SharedMemoryRingBuffer

open Circular (around)

-- The test `pos + len <= BufferSize` of both functions, in the arithmetic of their uint64_t.
def contiguous (bufferSize pos len : UInt64) : Bool :=
  pos % bufferSize + len ≤ bufferSize

-- The two functions as they are compiled, for a size_t of 64 bits.
def writeWrappedStores64 (bufferSize : UInt64) (src : List UInt8) (pos : UInt64) :
    List (Nat × UInt8) :=
  let len := UInt64.ofNat src.length
  let start := pos % bufferSize
  if contiguous bufferSize pos len then
    (List.range' start.toNat len.toNat).zip src
  else
    let firstPart := bufferSize - start
    (List.range' start.toNat firstPart.toNat).zip (src.take firstPart.toNat) ++
      (List.range' 0 (len - firstPart).toNat).zip (src.drop firstPart.toNat)

def readWrappedLoads64 (bufferSize len pos : UInt64) : List Nat :=
  let start := pos % bufferSize
  if contiguous bufferSize pos len then
    List.range' start.toNat len.toNat
  else
    let firstPart := bufferSize - start
    List.range' start.toNat firstPart.toNat ++ List.range' 0 (len - firstPart).toNat

section

variable {bufferSize pos len : UInt64}

-- No object in memory has more than 2^63 bytes, and up to there the sum does not wrap.
theorem contiguous_iff (positive : 0 < bufferSize) (fits : len ≤ bufferSize)
    (object : bufferSize.toNat ≤ 2 ^ 63) :
    contiguous bufferSize pos len = true ↔
      pos.toNat % bufferSize.toNat + len.toNat ≤ bufferSize.toNat := by
  have before := Nat.mod_lt pos.toNat (UInt64.lt_iff_toNat_lt.mp positive)
  have small : pos.toNat % bufferSize.toNat + len.toNat < 2 ^ 64 := by
    have := UInt64.le_iff_toNat_le.mp fits
    omega
  rw [contiguous, decide_eq_true_eq, UInt64.le_iff_toNat_le, UInt64.toNat_add, UInt64.toNat_mod,
    Nat.mod_eq_of_lt small]

theorem firstPart_toNat (positive : 0 < bufferSize) :
    (bufferSize - pos % bufferSize).toNat = bufferSize.toNat - pos.toNat % bufferSize.toNat := by
  have before := Nat.mod_lt pos.toNat (UInt64.lt_iff_toNat_lt.mp positive)
  rw [UInt64.toNat_sub_of_le _ _ ?_, UInt64.toNat_mod]
  rw [UInt64.le_iff_toNat_le, UInt64.toNat_mod]
  exact Nat.le_of_lt before

theorem secondPart_toNat (positive : 0 < bufferSize)
    (wraps : ¬ pos.toNat % bufferSize.toNat + len.toNat ≤ bufferSize.toNat) :
    (len - (bufferSize - pos % bufferSize)).toNat =
      len.toNat - (bufferSize.toNat - pos.toNat % bufferSize.toNat) := by
  rw [UInt64.toNat_sub_of_le _ _ ?_, firstPart_toNat positive]
  rw [UInt64.le_iff_toNat_le, firstPart_toNat positive]
  omega

theorem readWrappedLoads64_eq (positive : 0 < bufferSize) (fits : len ≤ bufferSize)
    (object : bufferSize.toNat ≤ 2 ^ 63) :
    readWrappedLoads64 bufferSize len pos =
      readWrappedLoads bufferSize.toNat len.toNat pos.toNat := by
  have test := @contiguous_iff bufferSize pos len positive fits object
  simp only [readWrappedLoads64, readWrappedLoads]
  by_cases whole : pos.toNat % bufferSize.toNat + len.toNat ≤ bufferSize.toNat
  · rw [if_pos (test.mpr whole), if_pos whole, UInt64.toNat_mod]
  · rw [if_neg (mt test.mp whole), if_neg whole, UInt64.toNat_mod, firstPart_toNat positive,
      secondPart_toNat positive whole]

theorem writeWrappedStores64_eq {src : List UInt8} (positive : 0 < bufferSize)
    (fits : src.length ≤ bufferSize.toNat) (object : bufferSize.toNat ≤ 2 ^ 63) :
    writeWrappedStores64 bufferSize src pos =
      writeWrappedStores bufferSize.toNat src pos.toNat := by
  have length : (UInt64.ofNat src.length).toNat = src.length :=
    UInt64.toNat_ofNat_of_lt' (Nat.lt_of_le_of_lt (fits.trans object) (by decide))
  have within : UInt64.ofNat src.length ≤ bufferSize := by
    rwa [UInt64.le_iff_toNat_le, length]
  have test := @contiguous_iff bufferSize pos _ positive within object
  simp only [writeWrappedStores64, writeWrappedStores]
  by_cases whole : pos.toNat % bufferSize.toNat + src.length ≤ bufferSize.toNat
  · rw [if_pos (test.mpr (by rwa [length])), if_pos whole, UInt64.toNat_mod, length]
  · have wraps : ¬ pos.toNat % bufferSize.toNat + (UInt64.ofNat src.length).toNat ≤
        bufferSize.toNat := by
      rwa [length]
    rw [if_neg (mt test.mp wraps), if_neg whole, UInt64.toNat_mod, firstPart_toNat positive,
      secondPart_toNat positive wraps, length]

end

section

variable {bufferSize : Nat} {data : List UInt8}

theorem writeWrapped_eq (positive : 0 < bufferSize) (fits : data.length ≤ bufferSize)
    (dataBuffer : Nat → UInt8) (pos : Nat) :
    writeWrapped bufferSize dataBuffer data pos =
      Circular.storeAll dataBuffer ((around bufferSize pos data.length).zip data) := by
  rw [writeWrapped, writeWrappedStores_eq positive fits]

theorem readWrapped_writeWrapped (positive : 0 < bufferSize) (fits : data.length ≤ bufferSize)
    (dataBuffer : Nat → UInt8) (pos : Nat) :
    readWrapped bufferSize (writeWrapped bufferSize dataBuffer data pos) data.length pos =
      data := by
  rw [readWrapped, readWrappedLoads_eq positive fits, writeWrapped_eq positive fits]
  exact Circular.holds_storeAll dataBuffer pos fits

theorem writeWrapped_frame (positive : 0 < bufferSize) (fits : data.length ≤ bufferSize)
    (dataBuffer : Nat → UInt8) (pos : Nat) {index : Nat}
    (elsewhere : ∀ j, j < data.length → index ≠ (pos + j) % bufferSize) :
    writeWrapped bufferSize dataBuffer data pos index = dataBuffer index := by
  rw [writeWrapped_eq positive fits]
  apply Circular.storeAll_frame
  rw [List.map_fst_zip (by simp)]
  intro member
  obtain ⟨j, inside, rfl⟩ := List.mem_map.mp member
  exact elsewhere j (List.mem_range.mp inside) rfl

theorem writeWrappedStores_inside (positive : 0 < bufferSize) (fits : data.length ≤ bufferSize)
    (pos : Nat) {store : Nat × UInt8} (member : store ∈ writeWrappedStores bufferSize data pos) :
    store.1 < bufferSize := by
  rw [writeWrappedStores_eq positive fits] at member
  exact Circular.around_inside positive (List.of_mem_zip member).1

theorem readWrappedLoads_inside {len : Nat} (positive : 0 < bufferSize) (fits : len ≤ bufferSize)
    (pos : Nat) {index : Nat} (member : index ∈ readWrappedLoads bufferSize len pos) :
    index < bufferSize := by
  rw [readWrappedLoads_eq positive fits] at member
  exact Circular.around_inside positive member

theorem writeWrapped_append {first second : List UInt8} (positive : 0 < bufferSize)
    (fits : first.length + second.length ≤ bufferSize) (dataBuffer : Nat → UInt8) (pos : Nat) :
    writeWrapped bufferSize (writeWrapped bufferSize dataBuffer first pos) second
        ((pos + first.length) % bufferSize) =
      writeWrapped bufferSize dataBuffer (first ++ second) pos := by
  rw [writeWrapped_eq positive (by omega), writeWrapped_eq positive (by omega),
    writeWrapped_eq positive (by rwa [List.length_append]), Circular.around_mod,
    List.length_append, Circular.around_append, List.zip_append (Circular.length_around ..),
    Circular.storeAll_append]

end

/-- What a copy into the area leaves in it, and what it touches on the way. -/
structure CopiesAround (bufferSize : Nat) (dataBuffer : Nat → UInt8) (data : List UInt8)
    (pos : Nat) : Prop where
  readBack :
    readWrapped bufferSize (writeWrapped bufferSize dataBuffer data pos) data.length pos = data
  frame : ∀ index, (∀ j, j < data.length → index ≠ (pos + j) % bufferSize) →
    writeWrapped bufferSize dataBuffer data pos index = dataBuffer index
  storesInside : ∀ store ∈ writeWrappedStores bufferSize data pos, store.1 < bufferSize
  loadsInside : ∀ index ∈ readWrappedLoads bufferSize data.length pos, index < bufferSize

theorem wrappedCopies_exact {bufferSize : Nat} (positive : 0 < bufferSize)
    (dataBuffer : Nat → UInt8) (pos : Nat) :
    (∀ data : List UInt8, data.length ≤ bufferSize →
        CopiesAround bufferSize dataBuffer data pos) ∧
      ∀ first second : List UInt8, first.length + second.length ≤ bufferSize →
        writeWrapped bufferSize (writeWrapped bufferSize dataBuffer first pos) second
            ((pos + first.length) % bufferSize) =
          writeWrapped bufferSize dataBuffer (first ++ second) pos := by
  refine ⟨fun data fits => ?_, fun first second fits => ?_⟩
  · constructor
    · exact readWrapped_writeWrapped positive fits dataBuffer pos
    · intro index elsewhere
      exact writeWrapped_frame positive fits dataBuffer pos elsewhere
    · intro store member
      exact writeWrappedStores_inside positive fits pos member
    · intro index member
      exact readWrappedLoads_inside positive fits pos member
  · exact writeWrapped_append positive fits dataBuffer pos

theorem wrappedCopies_exact_straddling :
    0 < 8 ∧ (∀ data : List UInt8, data.length ≤ 8 → CopiesAround 8 (fun _ => 0) data 30) ∧
      ∀ first second : List UInt8, first.length + second.length ≤ 8 →
        writeWrapped 8 (writeWrapped 8 (fun _ => 0) first 30) second
            ((30 + first.length) % 8) =
          writeWrapped 8 (fun _ => 0) (first ++ second) 30 :=
  ⟨by decide, wrappedCopies_exact (by decide) (fun _ => 0) 30⟩

end AdsRealtime.SharedMemoryRingBuffer
