import AdsRealtime.Compression.SimpleCompressor
import AdsRealtime.Compression.DictionaryRoundTrip

set_option autoImplicit false

namespace AdsRealtime.PayloadCompressor

open Looping

inductive Method where
  | none
  | rle
  | dictionary
  deriving DecidableEq, Repr

def Method.code : Method → UInt8
  | .none => 0
  | .rle => 1
  | .dictionary => 2

-- size < len * 0.9, in exact rational arithmetic.
def worthwhile (size len : Nat) : Bool :=
  10 * size < 9 * len

def compressAuto (data : List UInt8) : List UInt8 × Method :=
  if data.length < 64 then
    (data, .none)
  else
    let rle := SimpleCompressor.compress data
    let dict := DictionaryCompressor.compress data
    if rle.length < dict.length ∧ worthwhile rle.length data.length then
      (rle, .rle)
    else if worthwhile dict.length data.length then
      (dict, .dictionary)
    else
      (data, .none)

-- The method is the byte of the frame: any value but the two codecs falls to the default case.
def decompressWith (dictionary : List UInt8 → Outcome (List UInt8)) (data : List UInt8)
    (method : UInt8) : Outcome (List UInt8) :=
  if method = Method.rle.code then
    .returned (SimpleCompressor.decompress data)
  else if method = Method.dictionary.code then
    dictionary data
  else
    .returned data

def decompress (data : List UInt8) (method : UInt8) : Outcome (List UInt8) :=
  decompressWith DictionaryCompressor.decompress data method

theorem compressAuto_cases (data : List UInt8) :
    compressAuto data = (data, .none) ∨
      (compressAuto data = (SimpleCompressor.compress data, .rle) ∧
        worthwhile (SimpleCompressor.compress data).length data.length) ∨
      (compressAuto data = (DictionaryCompressor.compress data, .dictionary) ∧
        worthwhile (DictionaryCompressor.compress data).length data.length) := by
  unfold compressAuto
  by_cases small : data.length < 64
  · exact Or.inl (if_pos small)
  · rw [if_neg small]
    dsimp only
    split_ifs with rle dict
    · exact Or.inr (Or.inl ⟨rfl, rle.2⟩)
    · exact Or.inr (Or.inr ⟨rfl, dict⟩)
    · exact Or.inl rfl

theorem compressAuto_worthwhile {data : List UInt8} (used : (compressAuto data).2 ≠ .none) :
    worthwhile (compressAuto data).1.length data.length := by
  rcases compressAuto_cases data with raw | ⟨rle, small⟩ | ⟨dict, small⟩
  · exact absurd (congrArg Prod.snd raw) used
  · rwa [rle]
  · rwa [dict]

theorem compressAuto_used {data : List UInt8} (large : 64 ≤ data.length)
    (small : worthwhile (SimpleCompressor.compress data).length data.length) :
    (compressAuto data).2 ≠ .none := by
  unfold compressAuto
  rw [if_neg (by omega)]
  dsimp only
  split_ifs with rle dict
  · simp
  · simp
  · simp only [worthwhile, decide_eq_true_eq] at small rle dict
    omega

theorem decompress_compressAuto (data : List UInt8) :
    decompress (compressAuto data).1 (compressAuto data).2.code =
      if (compressAuto data).2 = .dictionary then
        DictionaryCompressor.decompress (DictionaryCompressor.compress data)
      else
        .returned data := by
  rcases compressAuto_cases data with raw | ⟨rle, small⟩ | ⟨dict, small⟩
  · rw [raw]
    rfl
  · rw [rle]
    have decoded := SimpleCompressor.decompress_compress_append data []
    simp only [SimpleCompressor.decompress_nil, List.append_nil] at decoded
    exact congrArg Outcome.returned decoded
  · rw [dict]
    rfl

end AdsRealtime.PayloadCompressor
