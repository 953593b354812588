import Mathlib.Tactic.Linarith
import Mathlib.Data.List.Basic

set_option autoImplicit false

namespace LittleEndian

def encode : Nat → Nat → List UInt8
  | 0, _ => []
  | width + 1, value => UInt8.ofNat value :: encode width (value / 256)

def decode : List UInt8 → Nat
  | [] => 0
  | byte :: rest => byte.toNat + 256 * decode rest

@[simp] theorem length_encode (width value : Nat) : (encode width value).length = width := by
  induction width generalizing value with
  | zero => rfl
  | succ width ih => simp [encode, ih]

theorem decode_encode (width value : Nat) : decode (encode width value) = value % 256 ^ width := by
  induction width generalizing value with
  | zero => simp [encode, decode, Nat.mod_one]
  | succ width ih =>
    have split : value % 256 ^ (width + 1) = value % 256 + 256 * (value / 256 % 256 ^ width) := by
      rw [Nat.pow_succ', Nat.mod_mul]
    simp only [encode, decode, ih, UInt8.toNat_ofNat', split]

theorem decode_encode_of_lt {width value : Nat} (fits : value < 256 ^ width) :
    decode (encode width value) = value := by
  rw [decode_encode, Nat.mod_eq_of_lt fits]

theorem decode_lt (bytes : List UInt8) : decode bytes < 256 ^ bytes.length := by
  induction bytes with
  | nil => simp [decode]
  | cons byte rest ih =>
    have := byte.toNat_lt
    simp only [decode, List.length_cons, Nat.pow_succ]
    omega

theorem encode_decode (bytes : List UInt8) : encode bytes.length (decode bytes) = bytes := by
  induction bytes with
  | nil => rfl
  | cons byte rest ih =>
    have small := byte.toNat_lt
    have low : UInt8.ofNat (byte.toNat + 256 * decode rest) = byte := by
      apply UInt8.toNat_inj.mp
      rw [UInt8.toNat_ofNat']
      omega
    have high : (byte.toNat + 256 * decode rest) / 256 = decode rest := by omega
    simp only [List.length_cons, decode, encode, low, high, ih]

theorem decode_inj {xs ys : List UInt8} (same : xs.length = ys.length) :
    decode xs = decode ys ↔ xs = ys := by
  constructor
  · intro values
    rw [← encode_decode xs, ← encode_decode ys, same, values]
  · intro bytes
    rw [bytes]

-- A struct under pack(1): the byte widths of its fields, in declaration order.
def pack : List Nat → List Nat → List UInt8
  | width :: widths, value :: values => encode width value ++ pack widths values
  | _, _ => []

def unpack : List Nat → List UInt8 → List Nat
  | [], _ => []
  | width :: widths, bytes => decode (bytes.take width) :: unpack widths (bytes.drop width)

theorem length_pack (widths values : List Nat) (same : widths.length = values.length) :
    (pack widths values).length = widths.sum := by
  induction widths generalizing values with
  | nil => simp [pack]
  | cons width widths ih =>
    cases values with
    | nil => simp at same
    | cons value values => simp [pack, ih values (by simpa using same)]

theorem unpack_pack_append (widths values : List Nat) (rest : List UInt8)
    (same : widths.length = values.length) :
    unpack widths (pack widths values ++ rest) =
      List.zipWith (fun width value => value % 256 ^ width) widths values := by
  induction widths generalizing values with
  | nil => simp [unpack]
  | cons width widths ih =>
    cases values with
    | nil => simp at same
    | cons value values =>
      have head : (encode width value ++ (pack widths values ++ rest)).take width =
          encode width value := by
        simp
      have tail : (encode width value ++ (pack widths values ++ rest)).drop width =
          pack widths values ++ rest := by
        simp
      simp only [pack, unpack, List.append_assoc, head, tail, decode_encode,
        List.zipWith_cons_cons, ih values (by simpa using same)]

end LittleEndian
