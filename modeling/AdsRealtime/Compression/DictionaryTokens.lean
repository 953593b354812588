import AdsRealtime.Compression.DictionaryCompressor

set_option autoImplicit false

namespace AdsRealtime.DictionaryCompressor

open Looping

/-- What the decoder reads off its input, whoever wrote it. -/
inductive Token where
  | literal (byte : UInt8)
  | copy (offset length : Nat)
  deriving DecidableEq, Repr

-- The tokens up to the end of the input, or up to a match token of which bytes are missing.
def tokens : List UInt8 → List Token
  | [] => []
  | byte :: rest =>
    if byte &&& 0x80 ≠ 0 then
      match rest with
      | low :: packed :: rest' =>
        .copy (matchOffset byte low) (matchLength packed) :: tokens rest'
      | _ => []
    else
      .literal byte :: tokens rest

def cutOff : List UInt8 → Bool
  | [] => false
  | byte :: rest =>
    if byte &&& 0x80 ≠ 0 then
      match rest with
      | _ :: _ :: rest' => cutOff rest'
      | _ => true
    else
      cutOff rest

def Token.size : Token → Nat
  | .literal _ => 1
  | .copy _ length => length

def CopiesInside : Nat → List Token → Prop
  | _, [] => True
  | size, .literal _ :: rest => CopiesInside (size + 1) rest
  | size, .copy offset length :: rest =>
    (1 ≤ offset ∧ offset ≤ size) ∧ CopiesInside (size + length) rest

instance decidableCopiesInside : (size : Nat) → (list : List Token) →
    Decidable (CopiesInside size list)
  | _, [] => inferInstanceAs (Decidable True)
  | size, .literal _ :: rest => decidableCopiesInside (size + 1) rest
  | size, .copy offset length :: rest =>
    have := decidableCopiesInside (size + length) rest
    inferInstanceAs (Decidable ((1 ≤ offset ∧ offset ≤ size) ∧ CopiesInside (size + length) rest))

def Token.emit (decompressed : List UInt8) : Token → Option (List UInt8)
  | .literal byte => some (decompressed ++ [byte])
  | .copy offset length => replay offset length decompressed

def interpret : List UInt8 → List Token → Option (List UInt8)
  | decompressed, [] => some decompressed
  | decompressed, token :: rest =>
    match token.emit decompressed with
    | some longer => interpret longer rest
    | none => none

theorem copyMatch_inside {source : Nat} {decompressed : List UInt8}
    (inside : source < decompressed.length) (length : Nat) :
    ∃ copied, copyMatch length source decompressed = some copied ∧
      copied.length = decompressed.length + length := by
  induction length generalizing source decompressed with
  | zero => exact ⟨decompressed, rfl, rfl⟩
  | succ length ih =>
    have longer : source + 1 < (decompressed ++ [decompressed[source]]).length := by
      rw [List.length_append, List.length_singleton]
      omega
    obtain ⟨copied, copies, size⟩ := ih longer
    refine ⟨copied, ?_, ?_⟩
    · rw [copyMatch, List.getElem?_eq_getElem inside]
      exact copies
    · rw [size, List.length_append, List.length_singleton, Nat.add_right_comm, Nat.add_assoc]

-- Once the first byte has been read inside the output, the output grows as fast as the copy reads.
theorem replay_inside {offset : Nat} {decompressed : List UInt8} (back : 1 ≤ offset)
    (inside : offset ≤ decompressed.length) (length : Nat) :
    ∃ copied, replay offset length decompressed = some copied ∧
      copied.length = decompressed.length + length := by
  rw [replay, if_neg (Nat.not_lt.mpr inside)]
  exact copyMatch_inside (by omega) length

theorem replay_outside {offset length : Nat} {decompressed : List UInt8} (positive : 0 < length)
    (outside : ¬ (1 ≤ offset ∧ offset ≤ decompressed.length)) :
    replay offset length decompressed = none := by
  unfold replay
  split
  · rfl
  · have none_ : decompressed[decompressed.length - offset]? = none := by
      rw [List.getElem?_eq_none_iff]
      omega
    obtain ⟨rest, rfl⟩ := Nat.exists_eq_add_of_lt positive
    rw [Nat.zero_add, copyMatch, none_]

theorem matchLength_pos (packed : UInt8) : 0 < matchLength packed :=
  Nat.lt_of_lt_of_le (by decide) (Nat.le_add_left minMatch _)

theorem tokens_literal {byte : UInt8} (plain : byte &&& 0x80 = 0) (rest : List UInt8) :
    tokens (byte :: rest) = .literal byte :: tokens rest ∧ cutOff (byte :: rest) = cutOff rest := by
  rw [tokens.eq_def (byte :: rest), cutOff.eq_def (byte :: rest)]
  simp [plain]

theorem tokens_copy {byte : UInt8} (marked : byte &&& 0x80 ≠ 0) (low packed : UInt8)
    (rest : List UInt8) :
    tokens (byte :: low :: packed :: rest) =
        .copy (matchOffset byte low) (matchLength packed) :: tokens rest ∧
      cutOff (byte :: low :: packed :: rest) = cutOff rest := by
  simp [tokens, cutOff, marked]

theorem tokens_cut {byte : UInt8} (marked : byte &&& 0x80 ≠ 0) {rest : List UInt8}
    (short : rest.length < 2) :
    tokens (byte :: rest) = [] ∧ cutOff (byte :: rest) = true := by
  match rest, short with
  | [], _ => simp [tokens, cutOff, marked]
  | [_], _ => simp [tokens, cutOff, marked]

theorem run_tokens (data decompressed : List UInt8) (fuel : Nat) (enough : data.length < fuel) :
    run turn fuel (data, decompressed) =
      match interpret decompressed (tokens data) with
      | none => .fault
      | some result => if cutOff data then .running else .returned result := by
  induction fuel generalizing data decompressed with
  | zero => omega
  | succ fuel ih =>
    match data with
    | [] => rfl
    | byte :: rest =>
      rw [List.length_cons] at enough
      by_cases plain : byte &&& 0x80 = 0
      · obtain ⟨read, cut⟩ := tokens_literal plain rest
        rw [run_again (turn_literal plain rest decompressed), ih _ _ (by omega), read, cut]
        rfl
      · rcases Nat.lt_or_ge rest.length 2 with short | long
        · obtain ⟨read, cut⟩ := tokens_cut plain short
          rw [diverges_of_stuck (turn_cut plain short decompressed), read, cut]
          rfl
        · match rest, long with
          | low :: packed :: rest, _ =>
            obtain ⟨read, cut⟩ := tokens_copy plain low packed rest
            have step := turn_match plain low packed rest decompressed
            rw [read, cut, interpret, Token.emit]
            cases copied : replay (matchOffset byte low) (matchLength packed) decompressed with
            | none =>
              rw [copied] at step
              exact run_fault step fuel
            | some longer =>
              rw [copied] at step
              simp only [List.length_cons] at enough
              rw [run_again step, ih _ _ (by omega)]

theorem interpret_eq_none_iff (decompressed data : List UInt8) :
    interpret decompressed (tokens data) = none ↔
      ¬ CopiesInside decompressed.length (tokens data) := by
  induction data using tokens.induct generalizing decompressed with
  | case1 => simp [tokens, interpret, CopiesInside]
  | case2 byte marked low packed rest ih =>
    rw [(tokens_copy marked low packed rest).1]
    simp only [interpret, Token.emit, CopiesInside]
    by_cases inside : 1 ≤ matchOffset byte low ∧ matchOffset byte low ≤ decompressed.length
    · obtain ⟨copied, copies, size⟩ := replay_inside inside.1 inside.2 (matchLength packed)
      simp only [copies, inside, and_self, true_and, ← size]
      exact ih copied
    · simp [replay_outside (matchLength_pos packed) inside, inside]
  | case3 byte rest marked short =>
    have few : rest.length < 2 := by
      match rest, short with
      | [], _ => decide
      | [_], _ => simp
      | low :: packed :: rest, short => exact (short low packed rest rfl).elim
    simp [(tokens_cut marked few).1, interpret, CopiesInside]
  | case4 byte rest plain ih =>
    have unmarked : byte &&& 0x80 = 0 := by simpa using plain
    rw [(tokens_literal unmarked rest).1]
    simp only [interpret, Token.emit, CopiesInside]
    simpa using ih (decompressed ++ [byte])

theorem run_fault_iff (data : List UInt8) :
    (∃ fuel, run turn fuel (data, []) = .fault) ↔ ¬ CopiesInside 0 (tokens data) := by
  rw [← List.length_nil (α := UInt8), ← interpret_eq_none_iff]
  have enough := run_tokens data [] (data.length + 1) (Nat.lt_succ_self _)
  constructor
  · rintro ⟨fuel, fault⟩
    have settled : run turn fuel (data, []) ≠ .running := by
      rw [fault]
      simp
    have same := run_stable settled (data.length + 1)
    rw [fault, run_tokens data [] _ (by omega)] at same
    cases read : interpret [] (tokens data) with
    | none => rfl
    | some result =>
      rw [read] at same
      simp only at same
      split at same <;> cases same
  · intro none_
    rw [none_] at enough
    exact ⟨_, enough⟩

theorem decompress_readsInside_iff (data : List UInt8) :
    (∀ fuel, run turn fuel (data, []) ≠ .fault) ↔ CopiesInside 0 (tokens data) := by
  rw [← not_iff_not, ← run_fault_iff]
  simp

theorem decompress_reads_outside :
    ¬ ∀ fuel, run turn fuel ([0x41, 0x80, 0x05, 0x00], []) ≠ .fault := by
  intro inside
  exact inside 3 (by decide)

end AdsRealtime.DictionaryCompressor
