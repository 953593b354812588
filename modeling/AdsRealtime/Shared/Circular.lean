import Mathlib.Data.List.Nodup
import Mathlib.Data.List.Range
import Mathlib.Data.Nat.ModEq
import Mathlib.Tactic.Linarith

set_option autoImplicit false

namespace Circular

variable {α : Type}

def storeAll (memory : Nat → α) : List (Nat × α) → Nat → α
  | [] => memory
  | (address, value) :: rest => storeAll (Function.update memory address value) rest

def loadAll (memory : Nat → α) (addresses : List Nat) : List α :=
  addresses.map memory

theorem storeAll_append (memory : Nat → α) (xs ys : List (Nat × α)) :
    storeAll memory (xs ++ ys) = storeAll (storeAll memory xs) ys := by
  induction xs generalizing memory with
  | nil => rfl
  | cons x xs ih => exact ih _

theorem storeAll_frame (memory : Nat → α) (stores : List (Nat × α)) (address : Nat)
    (outside : address ∉ stores.map Prod.fst) :
    storeAll memory stores address = memory address := by
  induction stores generalizing memory with
  | nil => rfl
  | cons store rest ih =>
    simp only [List.map_cons, List.mem_cons, not_or] at outside
    rw [storeAll, ih _ outside.2, Function.update_of_ne outside.1]

theorem loadAll_frame (memory : Nat → α) (stores : List (Nat × α)) (addresses : List Nat)
    (outside : ∀ address ∈ addresses, address ∉ stores.map Prod.fst) :
    loadAll (storeAll memory stores) addresses = loadAll memory addresses :=
  List.map_congr_left fun address member =>
    storeAll_frame memory stores address (outside address member)

theorem loadAll_append (memory : Nat → α) (xs ys : List Nat) :
    loadAll memory (xs ++ ys) = loadAll memory xs ++ loadAll memory ys :=
  List.map_append

theorem loadAll_storeAll_zip (memory : Nat → α) (addresses : List Nat) (values : List α)
    (distinct : addresses.Nodup) (same : addresses.length = values.length) :
    loadAll (storeAll memory (addresses.zip values)) addresses = values := by
  induction addresses generalizing memory values with
  | nil =>
    cases values with
    | nil => rfl
    | cons value values => simp at same
  | cons address addresses ih =>
    cases values with
    | nil => simp at same
    | cons value values =>
      obtain ⟨fresh, distinct⟩ := List.nodup_cons.mp distinct
      have sameRest : addresses.length = values.length := by simpa using same
      have kept : storeAll (Function.update memory address value) (addresses.zip values) address =
          value := by
        rw [storeAll_frame, Function.update_self]
        rw [List.map_fst_zip (Nat.le_of_eq sameRest)]
        exact fresh
      have rest := ih (Function.update memory address value) values distinct sameRest
      simp only [loadAll, List.zip_cons_cons, List.map_cons, storeAll] at rest ⊢
      rw [kept, rest]

/-- The addresses from start on in an area of the given size, wrapping around at its end. -/
def around (size start count : Nat) : List Nat :=
  (List.range count).map fun k => (start + k) % size

@[simp] theorem length_around (size start count : Nat) :
    (around size start count).length = count := by
  simp [around]

theorem around_append (size start a b : Nat) :
    around size start (a + b) = around size start a ++ around size (start + a) b := by
  simp only [around, List.range_add, List.map_append, List.map_map]
  congr 1
  apply List.map_congr_left
  intro k _
  simp only [Function.comp, Nat.add_assoc]

theorem around_mod (size start count : Nat) :
    around size (start % size) count = around size start count := by
  apply List.map_congr_left
  intro k _
  rw [Nat.mod_add_mod]

theorem around_inside {size start count address : Nat} (positive : 0 < size)
    (member : address ∈ around size start count) : address < size := by
  obtain ⟨k, _, rfl⟩ := List.mem_map.mp member
  exact Nat.mod_lt _ positive

theorem mem_around_self {size address : Nat} (start : Nat) (inside : address < size) :
    address ∈ around size start size := by
  have positive : 0 < size := Nat.zero_lt_of_lt inside
  have before := Nat.mod_lt start positive
  refine List.mem_map.mpr ⟨(address + (size - start % size)) % size,
    List.mem_range.mpr (Nat.mod_lt _ positive), ?_⟩
  have back : start % size + (address + (size - start % size)) = address + size := by
    omega
  rw [Nat.add_mod_mod, ← Nat.mod_add_mod, back, Nat.add_mod_right, Nat.mod_eq_of_lt inside]

theorem around_subset {size start a b : Nat} (fewer : a ≤ b) :
    around size start a ⊆ around size start b := by
  obtain ⟨more, rfl⟩ := Nat.exists_eq_add_of_le fewer
  rw [around_append]
  exact List.subset_append_left _ _

theorem around_nodup {size start count : Nat} (fits : count ≤ size) :
    (around size start count).Nodup := by
  apply List.Nodup.map_on _ List.nodup_range
  intro i memberI j memberJ same
  have below := List.mem_range.mp memberI
  have below' := List.mem_range.mp memberJ
  have congr : i ≡ j [MOD size] := Nat.ModEq.add_left_cancel' start same
  rwa [Nat.ModEq, Nat.mod_eq_of_lt (by omega), Nat.mod_eq_of_lt (by omega)] at congr

theorem around_perm_range (size start : Nat) :
    (around size start size).Perm (List.range size) := by
  rw [List.perm_ext_iff_of_nodup (around_nodup (Nat.le_refl size)) List.nodup_range]
  intro address
  rw [List.mem_range]
  constructor
  · intro member
    have some_ := List.length_pos_of_mem member
    rw [length_around] at some_
    exact around_inside some_ member
  · exact mem_around_self start

theorem around_disjoint {size start a b address : Nat} (fits : a + b ≤ size)
    (member : address ∈ around size (start + a) b) : address ∉ around size start a := by
  have distinct := @around_nodup size start _ fits
  rw [around_append] at distinct
  exact fun other => (List.nodup_append.mp distinct).2.2 address other address member rfl

def Holds (memory : Nat → α) (size start : Nat) (contents : List α) : Prop :=
  loadAll memory (around size start contents.length) = contents

@[simp] theorem holds_nil (memory : Nat → α) (size start : Nat) : Holds memory size start [] :=
  rfl

theorem holds_append {memory : Nat → α} {size start : Nat} {xs ys : List α} :
    Holds memory size start (xs ++ ys) ↔
      Holds memory size start xs ∧ Holds memory size (start + xs.length) ys := by
  unfold Holds
  rw [List.length_append, around_append, loadAll_append]
  constructor
  · intro same
    exact List.append_inj same (by simp [loadAll])
  · rintro ⟨left, right⟩
    rw [left, right]

theorem holds_mod {memory : Nat → α} {size start : Nat} {contents : List α} :
    Holds memory size (start % size) contents ↔ Holds memory size start contents := by
  rw [Holds, around_mod, Holds]

theorem holds_frame {memory : Nat → α} {size start : Nat} {contents : List α}
    (holds : Holds memory size start contents) (stores : List (Nat × α))
    (outside : ∀ address ∈ around size start contents.length, address ∉ stores.map Prod.fst) :
    Holds (storeAll memory stores) size start contents := by
  rw [Holds, loadAll_frame _ _ _ outside]
  exact holds

theorem holds_storeAll (memory : Nat → α) {size : Nat} (start : Nat) {contents : List α}
    (fits : contents.length ≤ size) :
    Holds (storeAll memory ((around size start contents.length).zip contents)) size start
      contents :=
  loadAll_storeAll_zip memory _ contents (around_nodup fits) (by simp)

end Circular
