import AdsRealtime.Shared.LittleEndian

set_option autoImplicit false

namespace Framing

open LittleEndian

def takeExactly (count : Nat) (bytes : List UInt8) : Option (List UInt8 × List UInt8) :=
  if count ≤ bytes.length then some (bytes.take count, bytes.drop count) else none

def readNat (width : Nat) (bytes : List UInt8) : Option (Nat × List UInt8) :=
  (takeExactly width bytes).map fun (word, rest) => (decode word, rest)

-- Overwriting in place, as memcpy does into a vector that has the room.
def patch (buffer : List UInt8) (offset : Nat) (bytes : List UInt8) : List UInt8 :=
  buffer.take offset ++ bytes ++ buffer.drop (offset + bytes.length)

def frame (width : Nat) (record : List UInt8) : List UInt8 :=
  encode width record.length ++ record

def readFrames (width : Nat) : Nat → List UInt8 → Option (List (List UInt8) × List UInt8)
  | 0, bytes => some ([], bytes)
  | count + 1, bytes =>
    match readNat width bytes with
    | none => none
    | some (length, behind) =>
      match takeExactly length behind with
      | none => none
      | some (record, rest) =>
        (readFrames width count rest).map fun (records, rest) => (record :: records, rest)

theorem takeExactly_append (bytes rest : List UInt8) :
    takeExactly bytes.length (bytes ++ rest) = some (bytes, rest) := by
  simp [takeExactly]

theorem takeExactly_append_of_eq {count : Nat} {bytes : List UInt8} (exactly : bytes.length = count)
    (rest : List UInt8) : takeExactly count (bytes ++ rest) = some (bytes, rest) := by
  rw [← exactly, takeExactly_append]

theorem readNat_encode {width value : Nat} (fits : value < 256 ^ width) (rest : List UInt8) :
    readNat width (encode width value ++ rest) = some (value, rest) := by
  rw [readNat, takeExactly_append_of_eq (length_encode width value), Option.map_some]
  simp only [decode_encode_of_lt fits]

theorem patch_append {old new : List UInt8} (same : old.length = new.length)
    (before behind : List UInt8) :
    patch (before ++ old ++ behind) before.length new = before ++ new ++ behind := by
  have kept : (before ++ old ++ behind).take before.length = before := by simp
  have skipped : (before ++ old ++ behind).drop (before.length + new.length) = behind := by
    rw [← same, ← List.length_append, List.drop_left]
  rw [patch, kept, skipped]

theorem readFrames_append (width : Nat) (records : List (List UInt8)) (rest : List UInt8)
    (small : ∀ record ∈ records, record.length < 256 ^ width) :
    readFrames width records.length (records.flatMap (frame width) ++ rest) =
      some (records, rest) := by
  induction records with
  | nil => rfl
  | cons record records ih =>
    have later := ih fun other member => small other (List.mem_cons_of_mem _ member)
    rw [List.flatMap_cons, List.append_assoc, frame, List.append_assoc, List.length_cons,
      readFrames, readNat_encode (small record List.mem_cons_self)]
    simp only [takeExactly_append, later, Option.map_some]

end Framing
