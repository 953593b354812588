import AdsRealtime.Compression.DictionaryMatch

set_option autoImplicit false

namespace AdsRealtime.DictionaryCompressor

def matchLoopReads (data : List UInt8) (i pos : Nat) : Nat → Nat → List Nat
  | 0, _ => []
  | budget + 1, matchLen =>
    if pos + matchLen < data.length then
      (i + matchLen) :: (pos + matchLen) ::
        if data[i + matchLen]? = data[pos + matchLen]? then
          matchLoopReads data i pos budget (matchLen + 1)
        else []
    else []

def findMatchReads (data : List UInt8) (pos : Nat) : List Nat :=
  (window pos).flatMap fun i => matchLoopReads data i pos maxMatch 0

theorem matchLoopReads_inside {data : List UInt8} {i pos : Nat} (before : i < pos)
    (budget matchLen : Nat) :
    ∀ index ∈ matchLoopReads data i pos budget matchLen, index < data.length := by
  induction budget generalizing matchLen with
  | zero => simp [matchLoopReads]
  | succ budget ih =>
    intro index read
    by_cases inside : pos + matchLen < data.length
    · rw [matchLoopReads, if_pos inside, List.mem_cons, List.mem_cons] at read
      rcases read with rfl | rfl | later
      · omega
      · exact inside
      · split at later
        · exact ih (matchLen + 1) index later
        · simp at later
    · simp [matchLoopReads, inside] at read

theorem findMatchReads_inside {data : List UInt8} {pos : Nat} :
    ∀ index ∈ findMatchReads data pos, index < data.length := by
  intro index read
  obtain ⟨i, inWindow, read⟩ := List.mem_flatMap.mp read
  exact matchLoopReads_inside (mem_window.mp inWindow).2 maxMatch 0 index read

section Reads

variable {data other : List UInt8} {pos : Nat}

theorem matchLoop_congr (same : data.length = other.length) {i : Nat} (budget matchLen : Nat)
    (agree : ∀ index ∈ matchLoopReads data i pos budget matchLen, data[index]? = other[index]?) :
    matchLoop data i pos budget matchLen = matchLoop other i pos budget matchLen := by
  induction budget generalizing matchLen with
  | zero => rfl
  | succ budget ih =>
    by_cases inside : pos + matchLen < data.length
    · rw [matchLoopReads, if_pos inside, List.forall_mem_cons, List.forall_mem_cons] at agree
      obtain ⟨atStart, atPos, later⟩ := agree
      rw [matchLoop, matchLoop, ← same, ← atStart, ← atPos]
      by_cases equal : data[i + matchLen]? = data[pos + matchLen]?
      · rw [if_pos equal] at later
        rw [if_pos ⟨inside, equal⟩, if_pos ⟨inside, equal⟩, ih (matchLen + 1) later]
      · rw [if_neg fun both => equal both.2, if_neg fun both => equal both.2]
    · rw [matchLoop, matchLoop, if_neg fun both => inside both.1,
        if_neg fun both => inside (same ▸ both.1)]

theorem findMatch_congr (same : data.length = other.length)
    (agree : ∀ index ∈ findMatchReads data pos, data[index]? = other[index]?) :
    findMatch data pos = findMatch other pos := by
  have best : bestMatch data pos = bestMatch other pos := by
    apply List.foldl_ext
    intro best i inWindow
    have length : matchLen data i pos = matchLen other i pos :=
      matchLoop_congr same maxMatch 0 fun index read =>
        agree index (List.mem_flatMap.mpr ⟨i, inWindow, read⟩)
    rw [improve, improve, length]
  rw [findMatch, findMatch, best]

end Reads

-- How far the input at i and the input at pos agree; both run on to the end of the input.
def commonPrefix (data : List UInt8) (i pos : Nat) : Nat :=
  Search.agreement (data.drop i) (data.drop pos)

theorem matchLen_eq (data : List UInt8) (i pos : Nat) :
    matchLen data i pos = min (commonPrefix data i pos) maxMatch := by
  apply eq_of_forall_le_iff
  intro stop
  rw [le_min_iff, commonPrefix, Search.le_agreement_iff]
  simp only [List.getElem?_drop]
  constructor
  · intro within
    refine ⟨?_, Nat.le_trans within (matchLen_le data i pos)⟩
    intro k below
    obtain ⟨inside, equal⟩ := matchLen_agrees data i pos k (by omega)
    have here := List.getElem?_eq_getElem inside
    exact ⟨data[pos + k], equal.trans here, here⟩
  · rintro ⟨agree, cap⟩
    apply le_matchLen cap
    intro k below
    obtain ⟨value, atStart, atPos⟩ := agree k below
    exact ⟨(List.getElem?_eq_some_iff.mp atPos).1, atStart.trans atPos.symm⟩

/-- The longest match that find_match may give, and the first start that has it. -/
structure LongestMatch (data : List UInt8) (pos i length : Nat) : Prop where
  longest : IsGreatest {value | ∃ start, pos - windowSize ≤ start ∧ start < pos ∧
    value = min (commonPrefix data start pos) maxMatch} length
  first : IsLeast {start | pos - windowSize ≤ start ∧ start < pos ∧
    min (commonPrefix data start pos) maxMatch = length} i

theorem bestMatch_none {data : List UInt8} {pos : Nat}
    (short : ∀ start, pos - windowSize ≤ start → start < pos →
      commonPrefix data start pos < minMatch) :
    bestMatch data pos = (0, 0) := by
  rcases bestMatch_cases data pos with none_ | ⟨i, inWindow, before, long, _⟩
  · exact none_
  · have here := short i inWindow before
    rw [matchLen_eq] at long
    omega

theorem bestMatch_longest {data : List UInt8} {pos start : Nat}
    (inWindow : pos - windowSize ≤ start) (before : start < pos)
    (long : minMatch ≤ commonPrefix data start pos) :
    ∃ i, LongestMatch data pos i (matchLen data i pos) ∧
      bestMatch data pos = (pos - i, matchLen data i pos) := by
  have enough : minMatch ≤ matchLen data start pos := by
    rw [matchLen_eq]
    exact le_min long (by decide)
  obtain ⟨i, longest, first, value⟩ :=
    bestMatch_first (mem_window.mpr ⟨inWindow, before⟩) enough
  refine ⟨i, ?_, value⟩
  simp only [mem_window, matchLen_eq, and_assoc] at longest first
  rw [matchLen_eq]
  exact ⟨longest, first⟩

theorem findMatch_exact (data : List UInt8) (pos : Nat) :
    ((∀ start, pos - windowSize ≤ start → start < pos →
        commonPrefix data start pos < minMatch) → findMatch data pos = (0, 0)) ∧
      (∀ start, pos - windowSize ≤ start → start < pos →
        minMatch ≤ commonPrefix data start pos →
          ∃ i length, LongestMatch data pos i length ∧
            (findMatch data pos).1.toNat = pos - i ∧ (findMatch data pos).2.toNat = length) ∧
        (∀ index ∈ findMatchReads data pos, index < data.length) ∧
          (findMatch data pos).1.toNat = (bestMatch data pos).1 ∧
            (findMatch data pos).2.toNat = (bestMatch data pos).2 := by
  have casts := findMatch_toNat data pos
  refine ⟨?_, ?_, findMatchReads_inside, casts⟩
  · intro short
    rw [findMatch, bestMatch_none short]
    rfl
  · intro start inWindow before long
    obtain ⟨i, longest, value⟩ := bestMatch_longest inWindow before long
    rw [casts.1, casts.2, value]
    exact ⟨i, _, longest, rfl, rfl⟩

end AdsRealtime.DictionaryCompressor
