import AdsRealtime.Compression.DictionaryTokens

set_option autoImplicit false

namespace AdsRealtime.DictionaryCompressor

open Looping

-- A read outside the output is undefined: here it gives some byte, where `turn` ends in a fault.
-- The index is below zero for a distance past the start.
def byteAt (outside : List UInt8 → Int → UInt8) (decompressed : List UInt8) : Int → UInt8
  | .ofNat index => decompressed[index]?.getD (outside decompressed index)
  | .negSucc before => outside decompressed (.negSucc before)

def copyReading (outside : List UInt8 → Int → UInt8) : Nat → Int → List UInt8 → List UInt8
  | 0, _, decompressed => decompressed
  | remaining + 1, source, decompressed =>
    copyReading outside remaining (source + 1)
      (decompressed ++ [byteAt outside decompressed source])

def turnReading (outside : List UInt8 → Int → UInt8) :
    List UInt8 × List UInt8 → Turn (List UInt8 × List UInt8) (List UInt8)
  | ([], decompressed) => .exit decompressed
  | (byte :: rest, decompressed) =>
      if byte &&& 0x80 ≠ 0 then
        match rest with
        | low :: packed :: rest' =>
          .again (rest', copyReading outside (matchLength packed)
            (decompressed.length - matchOffset byte low) decompressed)
        | _ => .again (byte :: rest, decompressed)
      else
        .again (rest, decompressed ++ [byte])

def decompressReading (outside : List UInt8 → Int → UInt8) (data : List UInt8) :
    Outcome (List UInt8) :=
  run (turnReading outside) (data.length + 1) (data, [])

section

variable (outside : List UInt8 → Int → UInt8)

theorem turnReading_literal {byte : UInt8} (plain : byte &&& 0x80 = 0)
    (rest decompressed : List UInt8) :
    turnReading outside (byte :: rest, decompressed) = .again (rest, decompressed ++ [byte]) := by
  simp [turnReading, plain]

theorem turnReading_match {byte : UInt8} (marked : byte &&& 0x80 ≠ 0) (low packed : UInt8)
    (rest decompressed : List UInt8) :
    turnReading outside (byte :: low :: packed :: rest, decompressed) =
      .again (rest, copyReading outside (matchLength packed)
        (decompressed.length - matchOffset byte low) decompressed) := by
  simp [turnReading, marked]

theorem turnReading_cut {byte : UInt8} (marked : byte &&& 0x80 ≠ 0) {rest : List UInt8}
    (short : rest.length < 2) (decompressed : List UInt8) :
    turnReading outside (byte :: rest, decompressed) = .again (byte :: rest, decompressed) := by
  match rest, short with
  | [], _ => simp [turnReading, marked]
  | [_], _ => simp [turnReading, marked]

theorem copyReading_eq {source : Nat} {length : Nat} {decompressed copied : List UInt8}
    (copies : copyMatch length source decompressed = some copied) :
    copyReading outside length source decompressed = copied := by
  induction length generalizing source decompressed with
  | zero => exact Option.some.inj copies
  | succ length ih =>
    rw [copyMatch] at copies
    cases read : decompressed[source]? with
    | none => simp [read] at copies
    | some byte =>
      have here : byteAt outside decompressed source = byte := by
        change decompressed[source]?.getD _ = byte
        rw [read, Option.getD_some]
      rw [read] at copies
      rw [copyReading, here]
      exact ih copies

theorem turnReading_eq {state : List UInt8 × List UInt8} (inside : turn state ≠ .fault) :
    turnReading outside state = turn state := by
  obtain ⟨data, decompressed⟩ := state
  match data with
  | [] => rfl
  | byte :: rest =>
    by_cases plain : byte &&& 0x80 = 0
    · rw [turnReading_literal outside plain, turn_literal plain]
    · match rest with
      | low :: packed :: rest' =>
        rw [turn_match plain] at inside ⊢
        rw [turnReading_match outside plain]
        cases copied : replay (matchOffset byte low) (matchLength packed) decompressed with
        | none => simp [copied] at inside
        | some longer =>
          rw [replay] at copied
          split at copied
          · cases copied
          · rename_i reaches
            rw [← Nat.cast_sub (Nat.not_lt.mp reaches), copyReading_eq outside copied]
      | [] | [_] => rw [turnReading_cut outside plain (by simp), turn_cut plain (by simp)]

theorem decompressReading_eq {data : List UInt8} (inside : CopiesInside 0 (tokens data)) :
    decompressReading outside data = decompress data := by
  have faultless := (decompress_readsInside_iff data).mpr inside
  unfold decompressReading decompress
  generalize (data, ([] : List UInt8)) = state at faultless ⊢
  generalize data.length + 1 = fuel
  induction fuel generalizing state with
  | zero => rfl
  | succ fuel ih =>
    have sound : turn state ≠ .fault := fun fault => faultless 1 (run_fault fault 0)
    have same := turnReading_eq outside sound
    cases step : turn state with
    | fault => exact absurd step sound
    | exit result => rw [run_exit step, run_exit (same.trans step)]
    | again next =>
      rw [run_again step, run_again (same.trans step)]
      refine ih next fun more => ?_
      rw [← run_again step]
      exact faultless (more + 1)

-- What a match token copies has no bearing on where the next token begins.
theorem run_reading (data decompressed : List UInt8) {fuel : Nat} (enough : data.length < fuel) :
    (cutOff data = true →
        run (turnReading outside) fuel (data, decompressed) = .running) ∧
      (cutOff data = false →
        ∃ result, run (turnReading outside) fuel (data, decompressed) = .returned result) := by
  induction fuel generalizing data decompressed with
  | zero => omega
  | succ fuel ih =>
    cases data with
    | nil => exact ⟨fun cut => absurd cut (by simp [cutOff]), fun _ => ⟨decompressed, rfl⟩⟩
    | cons byte rest =>
      rw [List.length_cons] at enough
      by_cases plain : byte &&& 0x80 = 0
      · rw [run_again (turnReading_literal outside plain rest decompressed),
          (tokens_literal plain rest).2]
        exact ih _ _ (by omega)
      · rcases Nat.lt_or_ge rest.length 2 with short | long
        · rw [diverges_of_stuck (turnReading_cut outside plain short decompressed),
            (tokens_cut plain short).2]
          exact ⟨fun _ => rfl, fun whole => absurd whole (by simp)⟩
        · obtain ⟨low, packed, rest', rfl⟩ : ∃ low packed rest', rest = low :: packed :: rest' := by
            rcases rest with _ | ⟨low, _ | ⟨packed, rest'⟩⟩
            · simp at long
            · simp at long
            · exact ⟨low, packed, rest', rfl⟩
          simp only [List.length_cons] at enough
          rw [run_again (turnReading_match outside plain low packed rest' decompressed),
            (tokens_copy plain low packed rest').2]
          exact ih _ _ (by omega)

theorem decompressReading_cases (data : List UInt8) :
    (cutOff data = true ∧ decompressReading outside data = .running) ∨
      (cutOff data = false ∧ ∃ result, decompressReading outside data = .returned result) := by
  obtain ⟨stalls, returns⟩ := run_reading outside data [] (Nat.lt_succ_self data.length)
  cases cut : cutOff data with
  | true => exact .inl ⟨rfl, stalls cut⟩
  | false => exact .inr ⟨rfl, returns cut⟩

theorem returns_iff (data : List UInt8) :
    (∃ fuel result, run (turnReading outside) fuel (data, []) = .returned result) ↔
      cutOff data = false := by
  constructor
  · rintro ⟨fuel, result, returned⟩
    by_contra cut
    have settled : run (turnReading outside) fuel (data, []) ≠ .running := by
      rw [returned]
      simp
    have same := run_stable settled (data.length + 1)
    rw [returned, (run_reading outside data [] (by omega)).1 (by simpa using cut)] at same
    cases same
  · intro whole
    exact ⟨_, (run_reading outside data [] (Nat.lt_succ_self _)).2 whole⟩

end

end AdsRealtime.DictionaryCompressor
