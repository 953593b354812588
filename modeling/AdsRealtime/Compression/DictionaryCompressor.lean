import AdsRealtime.Shared.Looping
import Mathlib.Tactic.Linarith

set_option autoImplicit false

namespace AdsRealtime.DictionaryCompressor

open Looping

abbrev windowSize : Nat := 4096
abbrev minMatch : Nat := 3
abbrev maxMatch : Nat := 18

-- The inner loop of find_match; the first argument is MAX_MATCH - match_len.
def matchLoop (data : List UInt8) (i pos : Nat) : Nat → Nat → Nat
  | 0, matchLen => matchLen
  | budget + 1, matchLen =>
      if pos + matchLen < data.length ∧ data[i + matchLen]? = data[pos + matchLen]? then
        matchLoop data i pos budget (matchLen + 1)
      else
        matchLen

def matchLen (data : List UInt8) (i pos : Nat) : Nat :=
  matchLoop data i pos maxMatch 0

-- (best_offset, best_length)
def improve (data : List UInt8) (pos : Nat) (best : Nat × Nat) (i : Nat) : Nat × Nat :=
  if minMatch ≤ matchLen data i pos ∧ best.2 < matchLen data i pos then
    (pos - i, matchLen data i pos)
  else
    best

def windowStart (pos : Nat) : Nat :=
  if windowSize ≤ pos then pos - windowSize else 0

def bestMatch (data : List UInt8) (pos : Nat) : Nat × Nat :=
  (List.range' (windowStart pos) (pos - windowStart pos)).foldl (improve data pos) (0, 0)

def findMatch (data : List UInt8) (pos : Nat) : UInt16 × UInt8 :=
  (UInt16.ofNat (bestMatch data pos).1, UInt8.ofNat (bestMatch data pos).2)

-- Match: [1][offset:12bit][length:4bit]
def matchToken (offset : UInt16) (matchLen : UInt8) : List UInt8 :=
  [UInt8.ofNat (0x80 ||| ((offset.toNat >>> 8) &&& 0x0F)), UInt8.ofNat (offset.toNat &&& 0xFF),
    UInt8.ofNat ((matchLen.toNat - minMatch) &&& 0x0F)]

def compressFrom (data : List UInt8) (pos : Nat) : List UInt8 :=
  if h : pos < data.length then
    let found := findMatch data pos
    if minMatch ≤ found.2.toNat then
      matchToken found.1 found.2 ++ compressFrom data (pos + found.2.toNat)
    else
      (data[pos] &&& 0x7F) :: compressFrom data (pos + 1)
  else
    []
termination_by data.length - pos
decreasing_by
  · have advance : 3 ≤ (findMatch data pos).2.toNat := by assumption
    omega
  · omega

def compress (data : List UInt8) : List UInt8 :=
  compressFrom data 0

def copyMatch : Nat → Nat → List UInt8 → Option (List UInt8)
  | 0, _, decompressed => some decompressed
  | remaining + 1, source, decompressed =>
      match decompressed[source]? with
      | some byte => copyMatch remaining (source + 1) (decompressed ++ [byte])
      | none => none

-- A distance past the start wraps copy_pos to the top of size_t: its first read is out of range.
def replay (offset matchLen : Nat) (decompressed : List UInt8) : Option (List UInt8) :=
  if decompressed.length < offset then
    none
  else
    copyMatch matchLen (decompressed.length - offset) decompressed

def matchOffset (byte low : UInt8) : Nat :=
  ((byte &&& 0x0F).toNat <<< 8) ||| low.toNat

def matchLength (packed : UInt8) : Nat :=
  (packed &&& 0x0F).toNat + minMatch

-- The state is the input from index i on, and the output so far.
def turn : List UInt8 × List UInt8 → Turn (List UInt8 × List UInt8) (List UInt8)
  | ([], decompressed) => .exit decompressed
  | (byte :: rest, decompressed) =>
      if byte &&& 0x80 ≠ 0 then
        match rest with
        | low :: packed :: rest' =>
          match replay (matchOffset byte low) (matchLength packed) decompressed with
          | some copied => .again (rest', copied)
          | none => .fault
        -- A match token that is cut off leaves i where it is.
        | _ => .again (byte :: rest, decompressed)
      else
        .again (rest, decompressed ++ [byte])

def decompress (data : List UInt8) : Outcome (List UInt8) :=
  run turn (data.length + 1) (data, [])

theorem turn_literal {byte : UInt8} (plain : byte &&& 0x80 = 0) (rest decompressed : List UInt8) :
    turn (byte :: rest, decompressed) = .again (rest, decompressed ++ [byte]) := by
  simp [turn, plain]

theorem turn_match {byte : UInt8} (marked : byte &&& 0x80 ≠ 0) (low packed : UInt8)
    (rest decompressed : List UInt8) :
    turn (byte :: low :: packed :: rest, decompressed) =
      match replay (matchOffset byte low) (matchLength packed) decompressed with
      | some copied => .again (rest, copied)
      | none => .fault := by
  simp [turn, marked]

theorem turn_cut {byte : UInt8} (marked : byte &&& 0x80 ≠ 0) {rest : List UInt8}
    (short : rest.length < 2) (decompressed : List UInt8) :
    turn (byte :: rest, decompressed) = .again (byte :: rest, decompressed) := by
  match rest, short with
  | [], _ => simp [turn, marked]
  | [_], _ => simp [turn, marked]

end AdsRealtime.DictionaryCompressor
