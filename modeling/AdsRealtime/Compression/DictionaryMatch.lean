import AdsRealtime.Compression.DictionaryCompressor
import AdsRealtime.Shared.Search

set_option autoImplicit false

namespace AdsRealtime.DictionaryCompressor

theorem matchLoop_spec (data : List UInt8) (i pos budget start : Nat) :
    start ≤ matchLoop data i pos budget start ∧
      matchLoop data i pos budget start ≤ start + budget ∧
      ∀ k, start ≤ k → k < matchLoop data i pos budget start →
        pos + k < data.length ∧ data[i + k]? = data[pos + k]? := by
  induction budget generalizing start with
  | zero =>
    refine ⟨Nat.le_refl _, Nat.le_refl _, ?_⟩
    intro k low high
    simp only [matchLoop] at high
    omega
  | succ budget ih =>
    by_cases same : pos + start < data.length ∧ data[i + start]? = data[pos + start]?
    · obtain ⟨lower, upper, agree⟩ := ih (start + 1)
      rw [matchLoop, if_pos same]
      refine ⟨by omega, by omega, ?_⟩
      intro k low high
      rcases Nat.eq_or_lt_of_le low with rfl | later
      · exact same
      · exact agree k later high
    · rw [matchLoop, if_neg same]
      exact ⟨Nat.le_refl _, by omega, fun k low high => by omega⟩

theorem matchLen_le (data : List UInt8) (i pos : Nat) : matchLen data i pos ≤ maxMatch := by
  have := (matchLoop_spec data i pos maxMatch 0).2.1
  simpa [matchLen] using this

theorem matchLen_agrees (data : List UInt8) (i pos k : Nat) (inside : k < matchLen data i pos) :
    pos + k < data.length ∧ data[i + k]? = data[pos + k]? :=
  (matchLoop_spec data i pos maxMatch 0).2.2 k (Nat.zero_le k) inside

theorem le_matchLoop {data : List UInt8} {i pos stop : Nat} (budget start : Nat)
    (room : stop ≤ start + budget)
    (agrees : ∀ k, start ≤ k → k < stop →
      pos + k < data.length ∧ data[i + k]? = data[pos + k]?) :
    stop ≤ matchLoop data i pos budget start := by
  induction budget generalizing start with
  | zero => exact room
  | succ budget ih =>
    by_cases same : pos + start < data.length ∧ data[i + start]? = data[pos + start]?
    · rw [matchLoop, if_pos same]
      exact ih (start + 1) (by omega) fun k low high => agrees k (by omega) high
    · rw [matchLoop, if_neg same]
      by_contra reached
      exact same (agrees start (Nat.le_refl start) (by omega))

theorem le_matchLen {data : List UInt8} {i pos stop : Nat} (room : stop ≤ maxMatch)
    (agrees : ∀ k, k < stop → pos + k < data.length ∧ data[i + k]? = data[pos + k]?) :
    stop ≤ matchLen data i pos :=
  le_matchLoop maxMatch 0 (by omega) fun k _ high => agrees k high

section Best

variable {data : List UInt8} {pos i : Nat}

def outcome (data : List UInt8) (pos : Nat) : Option Nat → Nat × Nat
  | none => (0, 0)
  | some i => if minMatch ≤ matchLen data i pos then (pos - i, matchLen data i pos) else (0, 0)

theorem outcome_long (long : minMatch ≤ matchLen data i pos) :
    outcome data pos (some i) = (pos - i, matchLen data i pos) :=
  if_pos long

theorem outcome_short (short : ¬ minMatch ≤ matchLen data i pos) :
    outcome data pos (some i) = (0, 0) :=
  if_neg short

theorem improve_longer {best : Nat × Nat} (long : minMatch ≤ matchLen data i pos)
    (longer : best.2 < matchLen data i pos) :
    improve data pos best i = outcome data pos (some i) := by
  rw [improve, if_pos ⟨long, longer⟩, outcome_long long]

theorem improve_keeps {best : Nat × Nat}
    (worse : minMatch ≤ matchLen data i pos → matchLen data i pos ≤ best.2) :
    improve data pos best i = best := by
  rw [improve, if_neg]
  rintro ⟨long, longer⟩
  exact Nat.not_lt.mpr (worse long) longer

-- A start replaces the best one so far only if its match is longer: the first of the longest stays.
theorem improve_outcome (best : Option Nat) (i : Nat) :
    improve data pos (outcome data pos best) i =
      outcome data pos (Option.casesOn best (some i) fun first =>
        if matchLen data first pos < matchLen data i pos then some i else some first) := by
  cases best with
  | none =>
    by_cases long : minMatch ≤ matchLen data i pos
    · exact improve_longer long (Nat.lt_of_lt_of_le (by decide : 0 < minMatch) long)
    · exact (improve_keeps fun long' => absurd long' long).trans (outcome_short long).symm
  | some first =>
    simp only
    by_cases longer : matchLen data first pos < matchLen data i pos
    · rw [if_pos longer]
      by_cases long : minMatch ≤ matchLen data first pos
      · rw [outcome_long long]
        exact improve_longer (by omega) longer
      · rw [outcome_short long]
        by_cases enough : minMatch ≤ matchLen data i pos
        · exact improve_longer enough (Nat.lt_of_lt_of_le (by decide : 0 < minMatch) enough)
        · rw [outcome_short enough]
          exact improve_keeps fun long' => absurd long' enough
    · rw [if_neg longer]
      apply improve_keeps
      intro enough
      rw [outcome_long (by omega)]
      exact Nat.not_lt.mp longer

theorem foldl_improve_eq (starts : List Nat) :
    starts.foldl (improve data pos) (0, 0) =
      outcome data pos (starts.argmax fun i => matchLen data i pos) := by
  induction starts using List.reverseRecOn with
  | nil => rfl
  | append_singleton starts i ih =>
    rw [List.foldl_append, ih, List.foldl_cons, List.foldl_nil, improve_outcome,
      List.argmax_concat]

end Best

def window (pos : Nat) : List Nat :=
  List.range' (windowStart pos) (pos - windowStart pos)

theorem mem_window {pos start : Nat} :
    start ∈ window pos ↔ pos - windowSize ≤ start ∧ start < pos := by
  rw [window, List.mem_range'_1, windowStart]
  split <;> omega

theorem bestMatch_eq (data : List UInt8) (pos : Nat) :
    bestMatch data pos = outcome data pos ((window pos).argmax fun i => matchLen data i pos) :=
  foldl_improve_eq (window pos)

theorem bestMatch_cases (data : List UInt8) (pos : Nat) :
    bestMatch data pos = (0, 0) ∨
      ∃ i, pos - windowSize ≤ i ∧ i < pos ∧ minMatch ≤ matchLen data i pos ∧
        bestMatch data pos = (pos - i, matchLen data i pos) := by
  rw [bestMatch_eq]
  cases found : (window pos).argmax fun i => matchLen data i pos with
  | none => exact Or.inl rfl
  | some i =>
    by_cases long : minMatch ≤ matchLen data i pos
    · obtain ⟨inWindow, before⟩ := mem_window.mp (List.argmax_mem found)
      exact Or.inr ⟨i, inWindow, before, long, outcome_long long⟩
    · exact Or.inl (outcome_short long)

theorem bestMatch_first {data : List UInt8} {pos start : Nat} (inWindow : start ∈ window pos)
    (long : minMatch ≤ matchLen data start pos) :
    ∃ i, IsGreatest {value | ∃ other ∈ window pos, value = matchLen data other pos}
        (matchLen data i pos) ∧
      IsLeast {other | other ∈ window pos ∧ matchLen data other pos = matchLen data i pos} i ∧
        bestMatch data pos = (pos - i, matchLen data i pos) := by
  have increasing : (window pos).SortedLT := List.sortedLT_range' _ _ Nat.one_ne_zero
  rw [bestMatch_eq]
  cases found : (window pos).argmax fun i => matchLen data i pos with
  | none =>
    rw [List.argmax_eq_none.mp found] at inWindow
    exact absurd inWindow List.not_mem_nil
  | some i =>
    obtain ⟨longest, first⟩ := Search.isLeast_of_mem_argmax increasing found
    have enough := Nat.le_trans long (longest.2 ⟨start, inWindow, rfl⟩)
    exact ⟨i, longest, first, outcome_long enough⟩

/-- What the encoder relies on when it emits a match of this distance and length at pos. -/
structure IsMatch (data : List UInt8) (pos offset length : Nat) : Prop where
  back : 1 ≤ offset
  inside : offset ≤ pos
  window : offset ≤ windowSize
  long : minMatch ≤ length
  short : length ≤ maxMatch
  fits : pos + length ≤ data.length
  same : ∀ k, k < length → data[pos - offset + k]? = data[pos + k]?

theorem bestMatch_isMatch {data : List UInt8} {pos : Nat}
    (found : minMatch ≤ (bestMatch data pos).2) :
    IsMatch data pos (bestMatch data pos).1 (bestMatch data pos).2 := by
  rcases bestMatch_cases data pos with none_ | ⟨i, first, before, long, value⟩
  · simp [none_, minMatch] at found
  · have last := matchLen_agrees data i pos (matchLen data i pos - 1) (by
      simp only [minMatch] at long
      omega)
    rw [value]
    constructor <;> simp only [minMatch, windowSize] at *
    · omega
    · omega
    · omega
    · exact long
    · exact matchLen_le data i pos
    · omega
    · intro k inside
      have at_ : pos - (pos - i) + k = i + k := by omega
      rw [at_]
      exact (matchLen_agrees data i pos k inside).2

theorem bestMatch_bounds (data : List UInt8) (pos : Nat) :
    (bestMatch data pos).1 ≤ windowSize ∧ (bestMatch data pos).2 ≤ maxMatch := by
  rcases bestMatch_cases data pos with none_ | ⟨i, first, before, long, value⟩
  · simp [none_]
  · have found : minMatch ≤ (bestMatch data pos).2 := by rw [value]; exact long
    exact ⟨(bestMatch_isMatch found).window, (bestMatch_isMatch found).short⟩

-- The casts of find_match's result to 16 and 8 bits lose nothing.
theorem findMatch_toNat (data : List UInt8) (pos : Nat) :
    (findMatch data pos).1.toNat = (bestMatch data pos).1 ∧
      (findMatch data pos).2.toNat = (bestMatch data pos).2 := by
  obtain ⟨offset, length⟩ := bestMatch_bounds data pos
  simp only [windowSize, maxMatch] at offset length
  constructor
  · rw [findMatch, UInt16.toNat_ofNat']
    omega
  · rw [findMatch, UInt8.toNat_ofNat']
    omega

theorem findMatch_isMatch {data : List UInt8} {pos : Nat}
    (found : minMatch ≤ (findMatch data pos).2.toNat) :
    IsMatch data pos (findMatch data pos).1.toNat (findMatch data pos).2.toNat := by
  rw [(findMatch_toNat data pos).2] at found
  rw [(findMatch_toNat data pos).1, (findMatch_toNat data pos).2]
  exact bestMatch_isMatch found

/-- The bytes a full window back match, and no nearer start gives a longer match. -/
def FullWindowMatch (data : List UInt8) (pos : Nat) : Prop :=
  windowSize ≤ pos ∧ minMatch ≤ matchLen data (pos - windowSize) pos ∧
    ∀ i, pos - windowSize < i → i < pos →
      matchLen data i pos ≤ matchLen data (pos - windowSize) pos

-- The start of the window is tried first, and only a longer match replaces it.
theorem bestMatch_full_iff (data : List UInt8) (pos : Nat) :
    (bestMatch data pos).1 = windowSize ↔ FullWindowMatch data pos := by
  constructor
  · intro full
    rcases bestMatch_cases data pos with none_ | ⟨start, inWindow, before, long, _⟩
    · simp [none_, windowSize] at full
    · obtain ⟨i, longest, first, value⟩ :=
        bestMatch_first (mem_window.mpr ⟨inWindow, before⟩) long
      have enough := longest.2 ⟨start, mem_window.mpr ⟨inWindow, before⟩, rfl⟩
      have inside := (mem_window.mp first.1.1).2
      rw [value] at full
      have deep : windowSize ≤ pos := by
        omega
      have far : pos - windowSize = i := by
        omega
      rw [FullWindowMatch, far]
      refine ⟨deep, Nat.le_trans long enough, ?_⟩
      intro j after less
      exact longest.2 ⟨j, mem_window.mpr ⟨by omega, less⟩, rfl⟩
  · rintro ⟨deep, long, longest⟩
    have far : pos - windowSize ∈ window pos :=
      mem_window.mpr ⟨Nat.le_refl _, by simp only [windowSize] at deep ⊢; omega⟩
    obtain ⟨i, greatest, first, value⟩ := bestMatch_first far long
    obtain ⟨inWindow, before⟩ := mem_window.mp first.1.1
    have same : i = pos - windowSize := by
      rcases Nat.eq_or_lt_of_le inWindow with equal | after
      · exact equal.symm
      · have tied := Nat.le_antisymm (greatest.2 ⟨_, far, rfl⟩) (longest i after before)
        exact Nat.le_antisymm (first.2 ⟨far, tied⟩) inWindow
    rw [value, same]
    exact Nat.sub_sub_self deep

theorem findMatch_full_iff (data : List UInt8) (pos : Nat) :
    (findMatch data pos).1.toNat < windowSize ↔ ¬ FullWindowMatch data pos := by
  have bound := (bestMatch_bounds data pos).1
  rw [← bestMatch_full_iff, (findMatch_toNat data pos).1]
  omega

end AdsRealtime.DictionaryCompressor
