import Mathlib.Data.List.Basic

set_option autoImplicit false

namespace AdsRealtime.SimpleCompressor

def runLength (current : UInt8) : List UInt8 → Nat → Nat
  | [], run => run
  | next :: rest, run =>
      if next = current ∧ run < 255 then runLength current rest (run + 1) else run

-- The argument is the input from index i on.
def compress : List UInt8 → List UInt8
  | [] => []
  | current :: rest =>
      let run := runLength current rest 1
      if 3 ≤ run then
        0xFF :: UInt8.ofNat run :: current :: compress (rest.drop (run - 1))
      else if current = 0xFF then
        0xFF :: 0x00 :: compress rest
      else
        current :: compress rest
termination_by data => data.length
decreasing_by all_goals simp only [List.length_drop, List.length_cons]; omega

def decompress : List UInt8 → List UInt8
  | [] => []
  | byte :: rest =>
      if byte = 0xFF then
        if rest.head? = some 0x00 then
          0xFF :: decompress rest.tail
        else
          match rest with
          | count :: value :: rest' => List.replicate count.toNat value ++ decompress rest'
          -- A marker with fewer than two bytes behind it is skipped on its own.
          | [next] => decompress [next]
          | [] => decompress []
      else
        byte :: decompress rest
termination_by data => data.length
decreasing_by all_goals simp only [List.length_tail, List.length_cons, List.length_nil]; omega

theorem runLength_spec (current : UInt8) (rest : List UInt8) (run : Nat) (small : run ≤ 255) :
    ∃ more, runLength current rest run = run + more ∧ run + more ≤ 255 ∧
      rest = List.replicate more current ++ rest.drop more := by
  induction rest generalizing run with
  | nil => exact ⟨0, rfl, small, rfl⟩
  | cons next rest ih =>
    by_cases longer : next = current ∧ run < 255
    · obtain ⟨more, value, bound, split⟩ := ih (run + 1) (by omega)
      refine ⟨more + 1, ?_, by omega, ?_⟩
      · rw [runLength, if_pos longer, value]
        omega
      · rw [longer.1, List.replicate_succ, List.drop_succ_cons, List.cons_append, ← split]
    · exact ⟨0, by rw [runLength, if_neg longer]; rfl, small, rfl⟩

/-- What the encoder can emit: the three shapes the comments of the source give. -/
inductive Token where
  | run (count value : UInt8) (long : 3 ≤ count.toNat)
  | escaped
  | literal (byte : UInt8) (plain : byte ≠ 0xFF)

def Token.bytes : Token → List UInt8
  | .run count value _ => [0xFF, count, value]
  | .escaped => [0xFF, 0x00]
  | .literal byte _ => [byte]

def Token.expand : Token → List UInt8
  | .run count value _ => List.replicate count.toNat value
  | .escaped => [0xFF]
  | .literal byte _ => [byte]

theorem decompress_token (token : Token) (rest : List UInt8) :
    decompress (token.bytes ++ rest) = token.expand ++ decompress rest := by
  cases token with
  | run count value long =>
    have nonzero : count ≠ 0 := by
      rintro rfl
      simp at long
    change decompress (0xFF :: count :: value :: rest) = _
    rw [decompress.eq_def]
    simp [Token.expand, nonzero]
  | escaped =>
    change decompress (0xFF :: 0x00 :: rest) = _
    rw [decompress.eq_def]
    simp [Token.expand]
  | literal byte plain =>
    change decompress (byte :: rest) = _
    rw [decompress.eq_def]
    simp [Token.expand, plain]

theorem decompress_tokens (tokens : List Token) (rest : List UInt8) :
    decompress (tokens.flatMap Token.bytes ++ rest) =
      tokens.flatMap Token.expand ++ decompress rest := by
  induction tokens with
  | nil => rfl
  | cons token tokens ih =>
    simp only [List.flatMap_cons, List.append_assoc, decompress_token, ih]

theorem compress_tokens (data : List UInt8) :
    ∃ tokens : List Token,
      compress data = tokens.flatMap Token.bytes ∧ tokens.flatMap Token.expand = data := by
  induction data using compress.induct with
  | case1 => exact ⟨[], by simp [compress], rfl⟩
  | case2 current rest run long ih =>
    obtain ⟨tokens, bytes, expanded⟩ := ih
    obtain ⟨more, value, bound, split⟩ := runLength_spec current rest 1 (by omega)
    have total : run = 1 + more := value
    have exact : (UInt8.ofNat run).toNat = 1 + more := by
      rw [UInt8.toNat_ofNat', total]
      omega
    refine ⟨.run (UInt8.ofNat run) current (by omega) :: tokens, ?_, ?_⟩
    · rw [compress, if_pos long, List.flatMap_cons, ← bytes]
      rfl
    · have behind : run - 1 = more := by omega
      rw [List.flatMap_cons, expanded, Token.expand, exact, behind, Nat.add_comm 1 more,
        List.replicate_succ, List.cons_append, ← split]
  | case3 rest run short ih =>
    obtain ⟨tokens, bytes, expanded⟩ := ih
    refine ⟨.escaped :: tokens, ?_, by simp [Token.expand, expanded]⟩
    rw [compress, if_neg short, if_pos rfl, bytes]
    rfl
  | case4 current rest run short plain ih =>
    obtain ⟨tokens, bytes, expanded⟩ := ih
    refine ⟨.literal current plain :: tokens, ?_, by simp [Token.expand, expanded]⟩
    rw [compress, if_neg short, if_neg plain, bytes]
    rfl

@[simp] theorem decompress_nil : decompress [] = [] := by
  rw [decompress]

theorem decompress_compress_append (data rest : List UInt8) :
    decompress (compress data ++ rest) = data ++ decompress rest := by
  obtain ⟨tokens, bytes, expanded⟩ := compress_tokens data
  rw [bytes, decompress_tokens, expanded]

theorem simpleCompressor_lossless (data : List UInt8) : decompress (compress data) = data := by
  simpa using decompress_compress_append data []

end AdsRealtime.SimpleCompressor
