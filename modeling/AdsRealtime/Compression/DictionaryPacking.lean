import AdsRealtime.Compression.DictionaryRoundTrip
import AdsRealtime.Compression.DictionaryTokens

set_option autoImplicit false

namespace AdsRealtime.DictionaryCompressor

open Looping

/-- The token read for a position at which the encoder took a match: the distance and the length
of that match, and the distance stays inside the bytes encoded before it. -/
def ReadsMatch (data : List UInt8) (pos : Nat) (token : Token) : Prop :=
  minMatch ≤ (findMatch data pos).2.toNat →
    token = .copy (findMatch data pos).1.toNat (findMatch data pos).2.toNat ∧
      1 ≤ (findMatch data pos).1.toNat ∧ (findMatch data pos).1.toNat ≤ pos

theorem tokens_matchToken {data : List UInt8} {pos : Nat} {offset : UInt16} {length : UInt8}
    (found : IsMatch data pos offset.toNat length.toNat) (rest : List UInt8) :
    tokens (matchToken offset length ++ rest) =
      .copy (offset.toNat % windowSize) length.toNat :: tokens rest := by
  have high : (offset.toNat >>> 8) &&& 0x0F < 16 :=
    Nat.lt_of_le_of_lt Nat.and_le_right (by omega)
  change tokens (_ :: _ :: _ :: rest) = _
  rw [(tokens_copy (high_nibble _ high).1 _ _ rest).1, matchOffset_packed,
    matchLength_packed found.long found.short]

theorem readsMatch_full_iff {data : List UInt8} {pos : Nat}
    (found : minMatch ≤ (findMatch data pos).2.toNat) :
    ReadsMatch data pos
        (.copy ((findMatch data pos).1.toNat % windowSize) (findMatch data pos).2.toNat) ↔
      ¬ FullWindowMatch data pos := by
  have isMatch := findMatch_isMatch found
  have back := isMatch.back
  have window := isMatch.window
  rw [← findMatch_full_iff]
  simp only [windowSize] at window ⊢
  constructor
  · intro reads
    have distance := (Token.copy.inj (reads found).1).1
    omega
  · intro near _
    exact ⟨by rw [Nat.mod_eq_of_lt near], back, isMatch.inside⟩

theorem readsMatch_compressFrom (data : List UInt8) (pos : Nat) :
    List.Forall₂ (ReadsMatch data) (visited data pos) (tokens (compressFrom data pos)) ↔
      ∀ p ∈ visited data pos, ¬ FullWindowMatch data p := by
  induction pos using compressFrom.induct data with
  | case1 pos inside found long ih =>
    simp only [found] at long ih
    rw [compressFrom, dif_pos inside, if_pos long, visited, if_pos inside, if_pos long,
      tokens_matchToken (findMatch_isMatch long), List.forall₂_cons, List.forall_mem_cons, ih,
      readsMatch_full_iff long]
  | case2 pos inside found short ih =>
    simp only [found] at short ih
    have unmatched : ¬ FullWindowMatch data pos := by
      rw [← bestMatch_full_iff]
      rw [(findMatch_toNat data pos).2] at short
      rcases bestMatch_cases data pos with none_ | ⟨i, first, before, long, value⟩
      · simp [none_, windowSize]
      · rw [value] at short
        exact absurd long short
    rw [compressFrom, dif_pos inside, if_neg short, visited, if_pos inside, if_neg short,
      (tokens_literal (mask_literal data[pos]) _).1, List.forall₂_cons, List.forall_mem_cons, ih]
    exact and_congr_left fun _ =>
      ⟨fun _ => unmatched, fun _ long => absurd long short⟩
  | case3 pos outside =>
    rw [compressFrom, dif_neg outside, visited, if_neg outside]
    simp [tokens]

theorem dictionaryCompressor_matches_iff (data : List UInt8) :
    List.Forall₂ (ReadsMatch data) (visited data 0) (tokens (compress data)) ↔
      ∀ pos ∈ visited data 0, ¬ FullWindowMatch data pos :=
  readsMatch_compressFrom data 0

theorem mem_visited_of_fresh {data : List UInt8} {fresh : Nat} (inside : fresh < data.length)
    (unseen : ∀ i, 0 < i → i < fresh → data[i]? ≠ data[fresh]?) (pos : Nat) (before : pos ≤ fresh) :
    fresh ∈ visited data pos := by
  induction pos using visited.induct data with
  | case1 pos here found long ih =>
    simp only [found] at long ih
    rw [visited, if_pos here, if_pos long]
    rcases Nat.eq_or_lt_of_le before with rfl | later
    · exact List.mem_cons_self
    · apply List.mem_cons_of_mem
      apply ih
      by_contra across
      obtain ⟨back, reaches, window, least, most, fits, same⟩ := findMatch_isMatch long
      have copied := same (fresh - pos) (by omega)
      have target : pos + (fresh - pos) = fresh := by omega
      rw [target] at copied
      exact unseen _ (by omega) (by omega) copied
  | case2 pos here found short ih =>
    simp only [found] at short ih
    rw [visited, if_pos here, if_neg short]
    rcases Nat.eq_or_lt_of_le before with rfl | later
    · exact List.mem_cons_self
    · exact List.mem_cons_of_mem _ (ih later)
  | case3 pos outside => omega

def echo (gap : Nat) : List UInt8 :=
  [1, 2, 3] ++ (List.replicate gap 0 ++ [1, 2, 3])

theorem echo_second (gap k : Nat) : (echo gap)[gap + 3 + k]? = [1, 2, 3][k]? := by
  have shift : gap + 3 + k = 3 + (gap + k) := by omega
  rw [echo, shift, List.getElem?_append_right (by simp), List.length_cons,
    List.getElem?_append_right (by simp)]
  simp

theorem echo_unseen (gap i : Nat) (after : 0 < i) (before : i < gap + 3) :
    (echo gap)[i]? ≠ (echo gap)[gap + 3]? := by
  have second := echo_second gap 0
  rw [Nat.add_zero] at second
  rw [second]
  match i with
  | 0 => omega
  | 1 => simp [echo]
  | 2 => simp [echo]
  | i + 3 =>
    have zero : (echo gap)[i + 3]? = some 0 := by
      rw [echo, Nat.add_comm i 3, List.getElem?_append_right (by simp)]
      simp only [List.length_cons, List.length_nil, Nat.zero_add, Nat.add_sub_cancel_left]
      rw [List.getElem?_append_left (by simp; omega), List.getElem?_replicate_of_lt (by omega)]
    simp [zero]

theorem echo_full : FullWindowMatch (echo 4093) 4096 := by
  have first : minMatch ≤ matchLen (echo 4093) 0 4096 := by
    apply le_matchLen (by decide)
    intro k few
    have second := echo_second 4093 k
    rw [second]
    refine ⟨?_, ?_⟩
    · rw [echo, List.length_append, List.length_append, List.length_replicate]
      simp only [List.length_cons, List.length_nil, minMatch] at few ⊢
      omega
    · rw [echo, Nat.zero_add, List.getElem?_append_left (by simpa using few)]
  refine ⟨Nat.le_refl _, first, ?_⟩
  intro i after before
  have none_ : matchLen (echo 4093) i 4096 = 0 := by
    by_contra found
    have same := (matchLen_agrees (echo 4093) i 4096 0 (Nat.pos_of_ne_zero found)).2
    exact echo_unseen 4093 i after before same
  rw [none_]
  exact Nat.zero_le _

theorem dictionaryCompressor_misreads_full_window :
    ¬ ∀ data, List.Forall₂ (ReadsMatch data) (visited data 0) (tokens (compress data)) := by
  intro claimed
  have near := (readsMatch_compressFrom (echo 4093) 0).mp (claimed (echo 4093))
  have inside : 4096 < (echo 4093).length := by
    rw [echo, List.length_append, List.length_append, List.length_replicate]
    decide
  have here : 4096 ∈ visited (echo 4093) 0 :=
    mem_visited_of_fresh inside (echo_unseen 4093) 0 (Nat.zero_le _)
  exact near 4096 here echo_full

theorem dictionaryCompressor_exact_loss (data : List UInt8)
    (near : ∀ pos ∈ visited data 0, (findMatch data pos).1.toNat ≤ 4095) :
    ∃ out : List UInt8, decompress (compress data) = .returned out ∧ out.length = data.length ∧
      ∀ k : Nat, out[k]? = data[k]?.map (· &&& 0x7F) := by
  refine ⟨mask data, ?_, by simp [mask], fun k => by simp [mask]⟩
  rw [decompress_compress, if_pos]
  exact fun pos member => Nat.lt_succ_of_le (near pos member)

theorem dictionaryCompressor_exact_loss_overlap :
    ∃ out : List UInt8, decompress (compress (List.replicate 5 0xC1)) = .returned out ∧
      out.length = 5 ∧ ∀ k : Nat, out[k]? = (List.replicate 5 0xC1)[k]?.map (· &&& 0x7F) :=
  dictionaryCompressor_exact_loss (List.replicate 5 0xC1) (by decide +kernel)

end AdsRealtime.DictionaryCompressor
