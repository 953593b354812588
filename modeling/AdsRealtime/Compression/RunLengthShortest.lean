import AdsRealtime.Compression.RunLengthCost
import AdsRealtime.Compression.RunLengthDecoder
import AdsRealtime.Shared.Shortest

set_option autoImplicit false

namespace AdsRealtime.SimpleCompressor

open MaximalRuns Shortest

def literalCost (byte : UInt8) : Nat :=
  if byte = 0xFF then 2 else 1

-- The rest of a run is cheaper as one more run token once its literals cost more than three bytes.
def leastRunCost (byte : UInt8) (count : Nat) : Nat :=
  3 * (count / 255) + min 3 (count % 255 * literalCost byte)

def leastCost : List UInt8 → Nat
  | [] => 0
  | byte :: rest => leastRunCost byte (rest.length + 1)

def leastLength (data : List UInt8) : Nat :=
  ((maximalRuns data).map leastCost).sum

theorem literalCost_cases (byte : UInt8) : literalCost byte = 1 ∨ literalCost byte = 2 := by
  unfold literalCost
  split
  · exact .inr rfl
  · exact .inl rfl

theorem leastRunCost_zero (byte : UInt8) : leastRunCost byte 0 = 0 := by
  simp [leastRunCost]

theorem leastLength_run {byte : UInt8} {rest : List UInt8} (ends : rest.head? ≠ some byte)
    (count : Nat) :
    leastLength (List.replicate count byte ++ rest) =
      leastRunCost byte count + leastLength rest := by
  cases count with
  | zero => rw [leastRunCost_zero, List.replicate_zero, List.nil_append, Nat.zero_add]
  | succ count =>
    rw [leastLength, maximalRuns_replicate_append (Nat.succ_pos count) ends, List.map_cons,
      List.sum_cons, List.replicate_succ, leastCost, List.length_replicate]
    rfl

-- A run token in front of a run saves no more than the three bytes it takes.
theorem leastRunCost_token {count : Nat} (few : count ≤ 255) (byte : UInt8) (more : Nat) :
    leastRunCost byte (count + more) ≤ 3 + leastRunCost byte more := by
  unfold leastRunCost
  rcases literalCost_cases byte with one | two
  · rw [one]
    omega
  · rw [two]
    omega

theorem leastRunCost_literal (byte : UInt8) (more : Nat) :
    leastRunCost byte (1 + more) ≤ literalCost byte + leastRunCost byte more := by
  unfold leastRunCost
  rcases literalCost_cases byte with one | two
  · rw [one]
    omega
  · rw [two]
    omega

theorem leastLength_token {count : Nat} (few : count ≤ 255) (byte : UInt8) (data : List UInt8) :
    leastLength (List.replicate count byte ++ data) ≤ 3 + leastLength data := by
  obtain ⟨more, rest, rfl, ends⟩ := exists_leading byte data
  rw [← List.append_assoc, List.replicate_append_replicate, leastLength_run ends,
    leastLength_run ends, ← Nat.add_assoc]
  exact Nat.add_le_add_right (leastRunCost_token few byte more) _

theorem leastLength_literal (byte : UInt8) (data : List UInt8) :
    leastLength (byte :: data) ≤ literalCost byte + leastLength data := by
  obtain ⟨more, rest, rfl, ends⟩ := exists_leading byte data
  have one : byte :: (List.replicate more byte ++ rest) =
      List.replicate (1 + more) byte ++ rest := by
    rw [Nat.add_comm 1 more, List.replicate_succ, List.cons_append]
  rw [one, leastLength_run ends, leastLength_run ends, ← Nat.add_assoc]
  exact Nat.add_le_add_right (leastRunCost_literal byte more) _

theorem leastLength_decompress (code : List UInt8) :
    leastLength (decompress code) ≤ code.length := by
  induction code using decompress.induct with
  | case1 => simp [leastLength, maximalRuns]
  | case2 rest escaped ih =>
    obtain ⟨behind, rfl⟩ := List.head?_eq_some_iff.mp escaped
    have least := leastLength_literal 0xFF (decompress behind)
    rw [List.tail_cons] at ih
    rw [decompress_escaped]
    simp only [literalCost, if_true, List.length_cons] at least ⊢
    omega
  | case3 count value rest nonzero ih =>
    have other : count ≠ 0 := by simpa using nonzero
    have few : count.toNat ≤ 255 := Nat.le_of_lt_succ count.toNat_lt
    have least := leastLength_token few value (decompress rest)
    rw [decompress_run other]
    simp only [List.length_cons]
    omega
  | case4 next nonzero ih =>
    have other : next ≠ 0 := by simpa using nonzero
    rw [decompress_dangling other]
    exact Nat.le_succ_of_le ih
  | case5 => simp [decompress_marker, leastLength, maximalRuns]
  | case6 byte rest plain ih =>
    have least := leastLength_literal byte (decompress rest)
    rw [decompress_literal plain]
    simp only [literalCost, if_neg plain, List.length_cons] at least ⊢
    omega

theorem exists_literals (byte : UInt8) (count : Nat) :
    ∃ piece, piece.length = count * literalCost byte ∧
      ∀ rest, decompress (piece ++ rest) = List.replicate count byte ++ decompress rest := by
  induction count with
  | zero => exact ⟨[], by simp, fun rest => rfl⟩
  | succ count ih =>
    obtain ⟨piece, size, expands⟩ := ih
    by_cases marker : byte = 0xFF
    · subst marker
      refine ⟨0xFF :: 0x00 :: piece, ?_, ?_⟩
      · simp only [List.length_cons, size, literalCost, if_true]
        omega
      · intro rest
        rw [List.cons_append, List.cons_append, decompress_escaped, expands,
          List.replicate_succ, List.cons_append]
    · refine ⟨byte :: piece, ?_, ?_⟩
      · simp only [List.length_cons, size, literalCost, if_neg marker]
        omega
      · intro rest
        rw [List.cons_append, decompress_literal marker, expands, List.replicate_succ,
          List.cons_append]

theorem exists_piece (byte : UInt8) (count : Nat) :
    ∃ piece, piece.length = leastRunCost byte count ∧
      ∀ rest, decompress (piece ++ rest) = List.replicate count byte ++ decompress rest := by
  induction count using Nat.strong_induction_on with
  | _ count ih =>
    rcases Nat.lt_or_ge count 255 with below | full
    · have whole : count / 255 = 0 ∧ count % 255 = count := by omega
      rw [leastRunCost, whole.1, whole.2, Nat.mul_zero, Nat.zero_add]
      rcases Nat.le_total (count * literalCost byte) 3 with few | many
      · rw [Nat.min_eq_right few]
        exact exists_literals byte count
      · have exact' : (UInt8.ofNat count).toNat = count := by
          rw [UInt8.toNat_ofNat', Nat.mod_eq_of_lt (by omega)]
        have nonzero : UInt8.ofNat count ≠ 0 := by
          intro zero
          rw [← exact', zero] at many
          simp at many
        refine ⟨[0xFF, UInt8.ofNat count, byte], (Nat.min_eq_left many).symm, ?_⟩
        intro rest
        change decompress (0xFF :: UInt8.ofNat count :: byte :: rest) = _
        rw [decompress_run nonzero, exact']
    · obtain ⟨piece, size, expands⟩ := ih (count - 255) (by omega)
      have split : count = 255 + (count - 255) := by omega
      refine ⟨0xFF :: 0xFF :: byte :: piece, ?_, ?_⟩
      · have parts : count / 255 = (count - 255) / 255 + 1 ∧
            count % 255 = (count - 255) % 255 := by
          omega
        rw [leastRunCost] at size ⊢
        simp only [List.length_cons, size, parts.1, parts.2]
        omega
      · intro rest
        change decompress (0xFF :: 0xFF :: byte :: (piece ++ rest)) = _
        rw [decompress_run (by decide), expands, ← List.append_assoc]
        conv_rhs => rw [split, ← List.replicate_append_replicate]
        rfl

theorem leastLength_measures : Measures decompress leastLength where
  bounds := leastLength_decompress
  attained := by
    intro data
    induction data using run_induction with
    | nil => exact ⟨[], by simp, by simp [leastLength, maximalRuns]⟩
    | run count byte rest positive ends ih =>
      obtain ⟨code, decoded, size⟩ := ih
      obtain ⟨piece, cost, expands⟩ := exists_piece byte count
      refine ⟨piece ++ code, ?_, ?_⟩
      · rw [expands, decoded]
      · rw [List.length_append, cost, size, leastLength_run ends]

theorem leastRunCost_le (byte : UInt8) (count : Nat) :
    leastRunCost byte count ≤ runCost byte count := by
  unfold leastRunCost runCost
  change _ ≤ 3 * (count / 255) +
    if 3 ≤ count % 255 then 3 else count % 255 * literalCost byte
  split <;> omega

-- Two markers are written as four bytes, where a run token takes three.
theorem runCost_eq_least_iff (byte : UInt8) (count : Nat) :
    runCost byte count = leastRunCost byte count ↔ ¬ (byte = 0xFF ∧ count % 255 = 2) := by
  unfold leastRunCost runCost literalCost
  by_cases marker : byte = 0xFF
  · simp only [marker, if_true, true_and]
    split <;> omega
  · simp only [marker, if_false, false_and, not_false_eq_true, iff_true]
    split <;> omega

theorem cost_eq_least_iff (run : List UInt8) :
    cost run = leastCost run ↔ (run.head? = some 0xFF → run.length % 255 ≠ 2) := by
  cases run with
  | nil => simp [cost, leastCost]
  | cons byte rest =>
    rw [cost, leastCost, runCost_eq_least_iff]
    simp

theorem compress_isShortest_iff (data : List UInt8) :
    IsShortest decompress (compress data) ↔
      ∀ run ∈ maximalRuns data, run.head? = some 0xFF → run.length % 255 ≠ 2 := by
  have below : ∀ run ∈ maximalRuns data, leastCost run ≤ cost run := by
    intro run _
    cases run with
    | nil => exact Nat.le_refl _
    | cons byte rest => exact leastRunCost_le byte _
  have decoded := decompress_compress_append data []
  simp only [decompress_nil, List.append_nil] at decoded
  rw [leastLength_measures.isShortest_iff, decoded, length_compress, leastLength,
    sum_eq_sum_iff below]
  exact forall₂_congr fun run _ => cost_eq_least_iff run

end AdsRealtime.SimpleCompressor
