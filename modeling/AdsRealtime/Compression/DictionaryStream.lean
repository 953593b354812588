import AdsRealtime.Compression.DictionaryMatch
import AdsRealtime.Compression.DictionaryTokens
import AdsRealtime.Compression.RunLengthDecoder

set_option autoImplicit false

namespace AdsRealtime.DictionaryCompressor

open Looping

theorem length_lt_two {rest : List UInt8}
    (short : ∀ low packed rest', rest = low :: packed :: rest' → False) : rest.length < 2 := by
  match rest, short with
  | [], _ => decide
  | [_], _ => simp
  | low :: packed :: rest, short => exact (short low packed rest rfl).elim

theorem tokens_append {first : List UInt8} (whole : cutOff first = false) (second : List UInt8) :
    tokens (first ++ second) = tokens first ++ tokens second ∧
      cutOff (first ++ second) = cutOff second := by
  induction first using tokens.induct with
  | case1 => simp [tokens]
  | case2 byte marked low packed rest ih =>
    obtain ⟨read, cut⟩ := tokens_copy marked low packed rest
    obtain ⟨readBoth, cutBoth⟩ := tokens_copy marked low packed (rest ++ second)
    rw [cut] at whole
    obtain ⟨ihRead, ihCut⟩ := ih whole
    simp only [List.cons_append]
    rw [readBoth, cutBoth, read, ihRead, ihCut]
    exact ⟨rfl, rfl⟩
  | case3 byte rest marked short =>
    rw [(tokens_cut marked (length_lt_two short)).2] at whole
    cases whole
  | case4 byte rest plain ih =>
    have unmarked : byte &&& 0x80 = 0 := by simpa using plain
    obtain ⟨read, cut⟩ := tokens_literal unmarked rest
    obtain ⟨readBoth, cutBoth⟩ := tokens_literal unmarked (rest ++ second)
    rw [cut] at whole
    obtain ⟨ihRead, ihCut⟩ := ih whole
    rw [List.cons_append, readBoth, cutBoth, read, ihRead, ihCut]
    exact ⟨rfl, rfl⟩

theorem interpret_append (decompressed : List UInt8) (first second : List Token) :
    interpret decompressed (first ++ second) =
      (interpret decompressed first).bind fun longer => interpret longer second := by
  induction first generalizing decompressed with
  | nil => rfl
  | cons token first ih =>
    rw [List.cons_append, interpret, interpret]
    cases token.emit decompressed with
    | none => rfl
    | some longer => exact ih longer

theorem copyMatch_behind (before : List UInt8) (length source : Nat) (decompressed : List UInt8) :
    copyMatch length (before.length + source) (before ++ decompressed) =
      (copyMatch length source decompressed).map (before ++ ·) := by
  induction length generalizing source decompressed with
  | zero => rfl
  | succ length ih =>
    rw [copyMatch, copyMatch, List.getElem?_append_right (Nat.le_add_right _ _),
      Nat.add_sub_cancel_left]
    cases decompressed[source]? with
    | none => rfl
    | some byte =>
      simp only [List.append_assoc, Nat.add_assoc]
      exact ih (source + 1) (decompressed ++ [byte])

-- A copy that stays inside its own part of the output does not see what stands in front of it.
theorem emit_behind (before : List UInt8) {token : Token} {decompressed longer : List UInt8}
    (emitted : token.emit decompressed = some longer) :
    token.emit (before ++ decompressed) = some (before ++ longer) := by
  cases token with
  | literal byte =>
    simp only [Token.emit, Option.some.injEq] at emitted ⊢
    rw [← emitted, List.append_assoc]
  | copy offset length =>
    simp only [Token.emit, replay] at emitted ⊢
    split at emitted
    · cases emitted
    · rename_i reaches
      have source : (before ++ decompressed).length - offset =
          before.length + (decompressed.length - offset) := by
        rw [List.length_append]
        omega
      rw [if_neg (by rw [List.length_append]; omega), source, copyMatch_behind, emitted]
      rfl

theorem interpret_behind (before : List UInt8) {list : List Token}
    {decompressed longer : List UInt8} (interpreted : interpret decompressed list = some longer) :
    interpret (before ++ decompressed) list = some (before ++ longer) := by
  induction list generalizing decompressed with
  | nil =>
    obtain rfl : decompressed = longer := by simpa [interpret] using interpreted
    rfl
  | cons token list ih =>
    rw [interpret] at interpreted ⊢
    cases emitted : token.emit decompressed with
    | none =>
      rw [emitted] at interpreted
      cases interpreted
    | some next =>
      rw [emitted] at interpreted
      rw [emit_behind before emitted]
      exact ih interpreted

theorem decompress_eq (data : List UInt8) :
    decompress data =
      match interpret [] (tokens data) with
      | none => .fault
      | some result => if cutOff data then .running else .returned result :=
  run_tokens data [] (data.length + 1) (Nat.lt_succ_self _)

theorem decompress_returned_iff (data result : List UInt8) :
    decompress data = .returned result ↔
      interpret [] (tokens data) = some result ∧ cutOff data = false := by
  rw [decompress_eq]
  cases interpret [] (tokens data) with
  | none => simp
  | some other =>
    cases cutOff data <;> simp

theorem decompress_append {first second out : List UInt8}
    (returned : decompress first = .returned out) (inside : decompress second ≠ .fault) :
    decompress (first ++ second) = (decompress second).map (out ++ ·) := by
  obtain ⟨interpreted, whole⟩ := (decompress_returned_iff first out).mp returned
  obtain ⟨read, cut⟩ := tokens_append whole second
  rw [decompress_eq] at inside
  rw [decompress_eq (first ++ second), decompress_eq second, read, cut, interpret_append,
    interpreted, Option.bind_some]
  cases later : interpret [] (tokens second) with
  | none => simp [later] at inside
  | some result =>
    have behind := interpret_behind out later
    rw [List.append_nil] at behind
    rw [behind]
    cases cutOff second <;> rfl

theorem length_copyMatch {length source : Nat} {decompressed copied : List UInt8}
    (copies : copyMatch length source decompressed = some copied) :
    copied.length = decompressed.length + length := by
  induction length generalizing source decompressed with
  | zero =>
    obtain rfl : decompressed = copied := by simpa [copyMatch] using copies
    rfl
  | succ length ih =>
    rw [copyMatch] at copies
    cases byte : decompressed[source]? with
    | none =>
      rw [byte] at copies
      cases copies
    | some byte_ =>
      rw [byte] at copies
      have longer := ih copies
      rw [List.length_append, List.length_singleton] at longer
      omega

theorem length_emit {token : Token} {decompressed longer : List UInt8}
    (emitted : token.emit decompressed = some longer) :
    longer.length = decompressed.length + token.size := by
  cases token with
  | literal byte =>
    obtain rfl : decompressed ++ [byte] = longer := by simpa [Token.emit] using emitted
    simp [Token.size]
  | copy offset length =>
    simp only [Token.emit, replay] at emitted
    split at emitted
    · cases emitted
    · exact length_copyMatch emitted

theorem length_interpret {list : List Token} {decompressed longer : List UInt8}
    (interpreted : interpret decompressed list = some longer) :
    longer.length = decompressed.length + (list.map Token.size).sum := by
  induction list generalizing decompressed with
  | nil =>
    obtain rfl : decompressed = longer := by simpa [interpret] using interpreted
    rfl
  | cons token list ih =>
    rw [interpret] at interpreted
    cases emitted : token.emit decompressed with
    | none =>
      rw [emitted] at interpreted
      cases interpreted
    | some next =>
      rw [emitted] at interpreted
      have size := length_emit emitted
      have rest := ih interpreted
      rw [List.map_cons, List.sum_cons]
      omega

theorem matchLength_le (packed : UInt8) : matchLength packed ≤ maxMatch := by
  have low : (packed &&& 0x0F).toNat ≤ 15 := by
    rw [UInt8.toNat_and]
    exact Nat.and_le_right
  simp only [matchLength, minMatch, maxMatch]
  omega

theorem sum_size_tokens_le (data : List UInt8) :
    ((tokens data).map Token.size).sum ≤ 6 * data.length := by
  induction data using tokens.induct with
  | case1 => simp [tokens]
  | case2 byte marked low packed rest ih =>
    have most := matchLength_le packed
    simp only [maxMatch] at most
    rw [(tokens_copy marked low packed rest).1, List.map_cons, List.sum_cons]
    simp only [Token.size, List.length_cons]
    omega
  | case3 byte rest marked short =>
    rw [(tokens_cut marked (length_lt_two short)).1]
    exact Nat.zero_le _
  | case4 byte rest plain ih =>
    have unmarked : byte &&& 0x80 = 0 := by simpa using plain
    rw [(tokens_literal unmarked rest).1, List.map_cons, List.sum_cons]
    simp only [Token.size, List.length_cons]
    omega

theorem length_decompress_le {data result : List UInt8}
    (returned : decompress data = .returned result) : result.length ≤ 6 * data.length := by
  have interpreted := ((decompress_returned_iff data result).mp returned).1
  rw [length_interpret interpreted, List.length_nil, Nat.zero_add]
  exact sum_size_tokens_le data

theorem length_le_compressFrom (data : List UInt8) (pos : Nat) :
    data.length - pos ≤ 6 * (compressFrom data pos).length := by
  induction pos using compressFrom.induct data with
  | case1 pos inside found long ih =>
    have most := (bestMatch_bounds data pos).2
    rw [← (findMatch_toNat data pos).2] at most
    simp only [maxMatch] at most
    have rest : data.length - (pos + (findMatch data pos).2.toNat) ≤
        6 * (compressFrom data (pos + (findMatch data pos).2.toNat)).length := ih
    rw [compressFrom, dif_pos inside, if_pos long, List.length_append]
    simp only [matchToken, List.length_cons, List.length_nil]
    omega
  | case2 pos inside found short ih =>
    rw [compressFrom, dif_pos inside, if_neg short, List.length_cons]
    omega
  | case3 pos outside =>
    omega

theorem length_le_compress (data : List UInt8) : data.length ≤ 6 * (compress data).length :=
  length_le_compressFrom data 0

theorem messages_strung_together :
    (∀ (chunks : List (List UInt8)) (rest : List UInt8), SimpleCompressor.decompress
        (chunks.flatMap SimpleCompressor.compress ++ rest) =
      chunks.flatten ++ SimpleCompressor.decompress rest) ∧
    ∀ first second out, decompress first = .returned out → decompress second ≠ .fault →
      decompress (first ++ second) = (decompress second).map (out ++ ·) :=
  ⟨SimpleCompressor.decompress_chunks, fun _ _ _ => decompress_append⟩

theorem messages_strung_together_twice :
    decompress ([0x41, 0x80, 0x01, 0x00] ++ [0x41, 0x80, 0x01, 0x00]) =
      (decompress [0x41, 0x80, 0x01, 0x00]).map ([0x41, 0x41, 0x41, 0x41] ++ ·) :=
  messages_strung_together.2 _ _ _ (by decide) (by decide)

end AdsRealtime.DictionaryCompressor
