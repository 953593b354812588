import AdsRealtime.Compression.RunLengthCost

set_option autoImplicit false

namespace AdsRealtime.SimpleCompressor

open MaximalRuns

def repetitionsFrom (previous : UInt8) : List UInt8 → Nat
  | [] => 0
  | byte :: rest => (if byte = previous then 1 else 0) + repetitionsFrom byte rest

def repetitions : List UInt8 → Nat
  | [] => 0
  | first :: rest => repetitionsFrom first rest

def shouldCompress (data : List UInt8) : Bool :=
  if data.length < 64 then
    false
  else
    repetitions (data.take 100) * 100 / min data.length 100 > 20

theorem repetitionsFrom_run {byte : UInt8} {rest : List UInt8} (ends : rest.head? ≠ some byte)
    (more : Nat) :
    repetitionsFrom byte (List.replicate more byte ++ rest) = more + repetitions rest := by
  induction more with
  | zero =>
    cases rest with
    | nil => rfl
    | cons next rest =>
      have other : next ≠ byte := by simpa using ends
      simp [repetitionsFrom, repetitions, other]
  | succ more ih =>
    rw [List.replicate_succ, List.cons_append, repetitionsFrom, ih, if_pos rfl]
    omega

theorem runCost_pos (byte : UInt8) (more : Nat) : 1 ≤ runCost byte (more + 1) := by
  unfold runCost
  split
  next => omega
  next =>
    split <;> omega

theorem length_le_add_repetitions (data : List UInt8) :
    data.length ≤ (compress data).length + repetitions data := by
  induction data using run_induction with
  | nil => simp
  | run count byte rest positive ends ih =>
    obtain ⟨more, rfl⟩ : ∃ more, count = more + 1 := ⟨count - 1, by omega⟩
    have cost := runCost_pos byte more
    have repeated : repetitions (List.replicate (more + 1) byte ++ rest) =
        more + repetitions rest := by
      rw [List.replicate_succ, List.cons_append, repetitions, repetitionsFrom_run ends]
    rw [length_compress_run ends, repeated, List.length_append, List.length_replicate]
    omega

theorem shouldCompress_eq_false_iff {data : List UInt8} (large : 64 ≤ data.length) :
    shouldCompress data = false ↔
      100 * repetitions (data.take 100) < 21 * (data.take 100).length := by
  have sampled : (data.take 100).length = min data.length 100 := by
    rw [List.length_take, Nat.min_comm]
  have positive : 0 < min data.length 100 := by omega
  rw [shouldCompress, if_neg (Nat.not_lt.mpr large), sampled]
  simp only [gt_iff_lt, decide_eq_false_iff_not, Nat.not_lt]
  rw [← Nat.lt_succ_iff, Nat.div_lt_iff_lt_mul positive]
  omega

theorem shouldCompress_sound (data : List UInt8) (large : 64 ≤ data.length)
    (advised : shouldCompress data = false) :
    79 * (data.take 100).length < 100 * (compress (data.take 100)).length := by
  have few := (shouldCompress_eq_false_iff large).mp advised
  have saved := length_le_add_repetitions (data.take 100)
  omega

def distinctBytes : List UInt8 :=
  (List.range 64).map UInt8.ofNat

theorem shouldCompress_sound_distinct :
    79 * (distinctBytes.take 100).length < 100 * (compress (distinctBytes.take 100)).length :=
  shouldCompress_sound distinctBytes (by decide) (by decide)

-- The check counts pairs, of which the encoder makes nothing.
example : shouldCompress ((List.range 64).map fun i => UInt8.ofNat (i / 2)) = true := by
  decide

end AdsRealtime.SimpleCompressor
