import AdsRealtime.Shared.MaximalRuns
import AdsRealtime.Compression.SimpleCompressor

set_option autoImplicit false

namespace AdsRealtime.SimpleCompressor

open MaximalRuns

def runCost (byte : UInt8) (count : Nat) : Nat :=
  3 * (count / 255) +
    if 3 ≤ count % 255 then 3 else count % 255 * if byte = 0xFF then 2 else 1

def cost : List UInt8 → Nat
  | [] => 0
  | byte :: rest => runCost byte (rest.length + 1)

theorem cost_replicate {count : Nat} (positive : 0 < count) (byte : UInt8) :
    cost (List.replicate count byte) = runCost byte count := by
  cases count with
  | zero => exact absurd positive (Nat.lt_irrefl 0)
  | succ count => simp [List.replicate_succ, cost]

theorem runLength_replicate {byte : UInt8} {rest : List UInt8} (ends : rest.head? ≠ some byte)
    (count run : Nat) (small : run ≤ 255) :
    runLength byte (List.replicate count byte ++ rest) run = min (run + count) 255 := by
  induction count generalizing run with
  | zero =>
    cases rest with
    | nil => simp [runLength, Nat.min_eq_left small]
    | cons next rest =>
      have other : next ≠ byte := by simpa using ends
      simp [runLength, other, Nat.min_eq_left small]
  | succ count ih =>
    rw [List.replicate_succ, List.cons_append, runLength]
    by_cases more : run < 255
    · rw [if_pos ⟨rfl, more⟩, ih (run + 1) (by omega)]
      congr 1
      omega
    · rw [if_neg (by simp [more])]
      omega

theorem runCost_long (byte : UInt8) {count : Nat} (long : 3 ≤ count) :
    runCost byte count = 3 + runCost byte (count - min count 255) := by
  rcases Nat.lt_or_ge count 255 with below | full
  · have whole : count / 255 = 0 ∧ count % 255 = count := by omega
    rw [Nat.min_eq_left (by omega), Nat.sub_self, runCost, whole.1, whole.2, if_pos long]
    simp [runCost]
  · have whole : count / 255 = (count - 255) / 255 + 1 := by omega
    have left : count % 255 = (count - 255) % 255 := by omega
    rw [Nat.min_eq_right full, runCost, whole, left, runCost]
    omega

-- A run token covers min count 255 bytes; one or two bytes are written as they are.
theorem compress_long {byte : UInt8} {rest : List UInt8} (ends : rest.head? ≠ some byte)
    {count : Nat} (long : 3 ≤ count) :
    compress (List.replicate count byte ++ rest) =
      0xFF :: UInt8.ofNat (min count 255) :: byte ::
        compress (List.replicate (count - min count 255) byte ++ rest) := by
  obtain ⟨more, rfl⟩ := Nat.exists_eq_add_of_lt (Nat.lt_of_lt_of_le (by decide : 0 < 3) long)
  have scanned := runLength_replicate ends more 1 (by decide)
  have behind : (List.replicate more byte ++ rest).drop (min (1 + more) 255 - 1) =
      List.replicate (1 + more - min (1 + more) 255) byte ++ rest := by
    rw [List.drop_append_of_le_length (by rw [List.length_replicate]; omega), List.drop_replicate]
    congr 2
    omega
  rw [List.replicate_succ, List.cons_append, compress, Nat.zero_add]
  simp only [scanned]
  rw [if_pos (by omega), behind, Nat.add_comm more 1]

theorem compress_short {byte : UInt8} {rest : List UInt8} (ends : rest.head? ≠ some byte)
    {count : Nat} (few : count + 1 < 3) :
    compress (List.replicate (count + 1) byte ++ rest) =
      (if byte = 0xFF then [0xFF, 0x00] else [byte]) ++
        compress (List.replicate count byte ++ rest) := by
  have scanned := runLength_replicate ends count 1 (by decide)
  rw [List.replicate_succ, List.cons_append, compress]
  simp only [scanned]
  rw [if_neg (by omega)]
  split <;> rfl

theorem runCost_few (byte : UInt8) {count : Nat} (few : count < 3) :
    runCost byte count = count * if byte = 0xFF then 2 else 1 := by
  have whole : count / 255 = 0 ∧ count % 255 = count := by omega
  rw [runCost, whole.1, whole.2, if_neg (by omega), Nat.mul_zero, Nat.zero_add]

theorem length_compress_run {byte : UInt8} {rest : List UInt8} (ends : rest.head? ≠ some byte)
    (count : Nat) :
    (compress (List.replicate count byte ++ rest)).length =
      runCost byte count + (compress rest).length := by
  induction count using Nat.strong_induction_on with
  | _ count ih =>
    by_cases long : 3 ≤ count
    · rw [compress_long ends long, runCost_long byte long]
      simp only [List.length_cons]
      rw [ih _ (by omega)]
      omega
    · cases count with
      | zero => simp [runCost]
      | succ count =>
        have few : count + 1 < 3 := by omega
        rw [compress_short ends few, List.length_append, ih count (Nat.lt_succ_self count),
          runCost_few byte few, runCost_few byte (by omega), Nat.succ_mul]
        split <;> simp only [List.length_cons, List.length_nil] <;> omega

theorem length_compress (data : List UInt8) :
    (compress data).length = ((maximalRuns data).map cost).sum := by
  apply eq_sum_maximalRuns (f := fun data => (compress data).length)
  · simp [compress]
  · intro count byte rest positive ends
    rw [cost_replicate positive]
    exact length_compress_run ends count

theorem runCost_le (byte : UInt8) (count : Nat) :
    runCost byte count ≤ count + (List.replicate count byte).count 0xFF := by
  have parts := Nat.div_add_mod count 255
  by_cases marker : byte = 0xFF
  · rw [List.count_replicate, if_pos (by simpa using marker), runCost, if_pos marker]
    split <;> omega
  · rw [runCost, if_neg marker]
    split <;> omega

theorem length_compress_le (data : List UInt8) :
    (compress data).length ≤ data.length + data.count 0xFF := by
  induction data using run_induction with
  | nil => simp [compress]
  | run count byte rest positive ends ih =>
    have here := runCost_le byte count
    rw [length_compress_run ends, List.count_append, List.length_append, List.length_replicate]
    omega

theorem simpleCompressor_length (data : List UInt8) :
    (compress data).length = ((maximalRuns data).map cost).sum ∧
      (compress data).length ≤ data.length + data.count 0xFF :=
  ⟨length_compress data, length_compress_le data⟩

end AdsRealtime.SimpleCompressor
