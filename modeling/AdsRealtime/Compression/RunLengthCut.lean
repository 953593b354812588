import AdsRealtime.Compression.SimpleCompressor

set_option autoImplicit false

namespace AdsRealtime.SimpleCompressor

theorem count_of_run {current : UInt8} {rest : List UInt8}
    (long : 3 ≤ runLength current rest 1) :
    3 ≤ (UInt8.ofNat (runLength current rest 1)).toNat := by
  obtain ⟨more, value, bound, _⟩ := runLength_spec current rest 1 (by omega)
  rw [UInt8.toNat_ofNat']
  omega

def tokensOf : List UInt8 → List Token
  | [] => []
  | current :: rest =>
    if long : 3 ≤ runLength current rest 1 then
      .run (UInt8.ofNat (runLength current rest 1)) current (count_of_run long) ::
        tokensOf (rest.drop (runLength current rest 1 - 1))
    else if plain : current = 0xFF then
      .escaped :: tokensOf rest
    else
      .literal current plain :: tokensOf rest
termination_by data => data.length
decreasing_by all_goals simp only [List.length_drop, List.length_cons]; omega

theorem bytes_tokensOf (data : List UInt8) :
    (tokensOf data).flatMap Token.bytes = compress data := by
  induction data using tokensOf.induct with
  | case1 => simp [tokensOf, compress]
  | case2 current rest long ih =>
    rw [tokensOf, dif_pos long, compress, if_pos long, List.flatMap_cons, ih]
    rfl
  | case3 rest short ih =>
    rw [tokensOf, dif_neg short, dif_pos rfl, compress, if_neg short, if_pos rfl,
      List.flatMap_cons, ih]
    rfl
  | case4 current rest short plain ih =>
    rw [tokensOf, dif_neg short, dif_neg plain, compress, if_neg short, if_neg plain,
      List.flatMap_cons, ih]
    rfl

theorem expand_tokensOf (data : List UInt8) :
    (tokensOf data).flatMap Token.expand = data := by
  have decoded := decompress_tokens (tokensOf data) []
  rw [bytes_tokensOf, decompress_compress_append] at decoded
  simpa using decoded.symm

/-- The cut ends right behind the count of a run, and this count is neither the marker nor the
value of the run. -/
def EndsBehindCount (data cut : List UInt8) : Prop :=
  ∃ before count value long behind,
    tokensOf data = before ++ Token.run count value long :: behind ∧
      cut = before.flatMap Token.bytes ++ [0xFF, count] ∧ count ≠ 0xFF ∧ count ≠ value

-- The count of a run that is cut off in front of its value is read as a literal.
theorem decompress_count (count : UInt8) (nonzero : count ≠ 0) :
    decompress [0xFF, count] = if count = 0xFF then [] else [count] := by
  by_cases marker : count = 0xFF
  · subst marker
    simp [decompress]
  · simp [decompress, nonzero, marker]

theorem cut_cases (tokens : List Token) (cut : List UInt8)
    (front : cut <+: tokens.flatMap Token.bytes) :
    cut = tokens.flatMap Token.bytes ∨
      ∃ before token behind n, tokens = before ++ token :: behind ∧ n < token.bytes.length ∧
        cut = before.flatMap Token.bytes ++ token.bytes.take n := by
  induction tokens generalizing cut with
  | nil => exact Or.inl (List.prefix_nil.mp front)
  | cons token tokens ih =>
    rw [List.flatMap_cons] at front ⊢
    by_cases whole : token.bytes <+: cut
    · obtain ⟨later, rfl⟩ := whole
      rw [List.prefix_append_right_inj] at front
      rcases ih later front with rfl | ⟨before, next, behind, n, rfl, inside, rfl⟩
      · exact Or.inl rfl
      · refine Or.inr ⟨token :: before, next, behind, n, rfl, inside, ?_⟩
        rw [List.flatMap_cons, List.append_assoc]
    · have part : cut <+: token.bytes :=
        (List.prefix_or_prefix_of_prefix front (List.prefix_append _ _)).resolve_right whole
      have same := List.prefix_iff_eq_take.mp part
      refine Or.inr ⟨[], token, tokens, cut.length, rfl, ?_, same⟩
      by_contra long
      rw [List.take_of_length_le (by omega)] at same
      exact whole (same ▸ List.prefix_refl _)

theorem decompress_take {token : Token} {n : Nat} (inside : n < token.bytes.length) :
    decompress (token.bytes.take n) = [] ∨
      ∃ count value long, token = .run count value long ∧
        token.bytes.take n = [0xFF, count] ∧ count ≠ 0xFF ∧
        decompress (token.bytes.take n) = [count] := by
  match n with
  | 0 => exact Or.inl (by simp)
  | 1 =>
    cases token with
    | run count value long => exact Or.inl (by simp [Token.bytes, decompress])
    | escaped => exact Or.inl (by simp [Token.bytes, decompress])
    | literal byte plain => exact absurd inside (Nat.lt_irrefl 1)
  | n + 2 =>
    cases token with
    | run count value long =>
      obtain rfl : n = 0 := by
        simp only [Token.bytes, List.length_cons, List.length_nil] at inside
        omega
      have nonzero : count ≠ 0 := by
        rintro rfl
        exact absurd long (by decide)
      have read := decompress_count count nonzero
      by_cases marker : count = 0xFF
      · rw [if_pos marker] at read
        exact Or.inl read
      · rw [if_neg marker] at read
        exact Or.inr ⟨count, value, long, rfl, rfl, marker, read⟩
    | escaped => exact absurd inside (by simp [Token.bytes])
    | literal byte plain => exact absurd inside (by simp [Token.bytes])

theorem count_prefix_run {count value : UInt8} (long : 3 ≤ count.toNat) (behind : List UInt8) :
    [count] <+: List.replicate count.toNat value ++ behind ↔ count = value := by
  obtain ⟨more, total⟩ : ∃ more, count.toNat = more + 1 := ⟨count.toNat - 1, by omega⟩
  rw [total, List.replicate_succ, List.cons_append, List.cons_prefix_cons]
  simp

theorem decompress_cut {data cut : List UInt8} (front : cut <+: compress data) :
    decompress cut <+: data ∨ EndsBehindCount data cut := by
  have expanded := expand_tokensOf data
  rw [← bytes_tokensOf] at front
  rcases cut_cases (tokensOf data) cut front with
    rfl | ⟨before, token, behind, n, list, inside, rfl⟩
  · have decoded := decompress_tokens (tokensOf data) []
    simp only [expanded, decompress_nil, List.append_nil] at decoded
    rw [decoded]
    exact Or.inl (List.prefix_refl data)
  · rw [decompress_tokens]
    rw [list, List.flatMap_append, List.flatMap_cons] at expanded
    rcases decompress_take inside with nothing | ⟨count, value, long, rfl, part, marker, read⟩
    · rw [nothing, List.append_nil, ← expanded]
      exact Or.inl (List.prefix_append _ _)
    · by_cases same : count = value
      · left
        rw [read, ← expanded, List.prefix_append_right_inj, Token.expand,
          count_prefix_run long]
        exact same
      · rw [part]
        exact Or.inr ⟨before, count, value, long, behind, list, rfl, marker, same⟩

theorem decompress_endsBehindCount {data cut : List UInt8} (ends : EndsBehindCount data cut) :
    ¬ decompress cut <+: data := by
  obtain ⟨before, count, value, long, behind, list, rfl, marker, other⟩ := ends
  have expanded := expand_tokensOf data
  have nonzero : count ≠ 0 := by
    rintro rfl
    exact absurd long (by decide)
  rw [list, List.flatMap_append, List.flatMap_cons] at expanded
  rw [decompress_tokens, decompress_count count nonzero, if_neg marker, ← expanded,
    List.prefix_append_right_inj, Token.expand, count_prefix_run long]
  exact other

theorem simpleCompressor_cut_iff (data cut : List UInt8) (front : cut <+: compress data) :
    decompress cut <+: data ↔ ¬ EndsBehindCount data cut := by
  constructor
  · intro shown ends
    exact decompress_endsBehindCount ends shown
  · exact (decompress_cut front).resolve_right

theorem simpleCompressor_cut_iff_fives :
    [0xFF, 0x03] <+: compress [5, 5, 5] ∧
      (decompress [0xFF, 0x03] <+: [5, 5, 5] ↔ ¬ EndsBehindCount [5, 5, 5] [0xFF, 0x03]) :=
  ⟨by decide +kernel, simpleCompressor_cut_iff [5, 5, 5] [0xFF, 0x03] (by decide +kernel)⟩

theorem simpleCompressor_cut_fabricates :
    ¬ ∀ data cut, cut <+: compress data → decompress cut <+: data := by
  intro claimed
  exact absurd (claimed [5, 5, 5] [0xFF, 0x03] (by decide +kernel)) (by decide +kernel)

end AdsRealtime.SimpleCompressor
