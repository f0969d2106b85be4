import Collectives.Proofs.Offsets

/-!
# Indices as an odometer meets them

An odometer that has stepped `k` times shows the digits of `k` in the mixed radix of its shape: the last place counts
single steps, and every other place counts how often the one behind it has started again. Each index of a shape is shown
once before all places start again, so the elements of a buffer are listed in row-major order. The walk over the cells,
one dimension inside the other, lists the same offsets.
-/

namespace Collectives

/-- The digits of a number in the mixed radix of a shape, the last dimension fastest. -/
def digits : List Nat → Nat → List Nat
  | [], _ => []
  | dim :: dims, k => k / dims.prod % dim :: digits dims k

/-- How many indices come before the given one in row-major order. -/
def position : List Nat → List Nat → Nat
  | _ :: dims, i :: index => i * dims.prod + position dims index
  | _, _ => 0

/-- An index has one entry for each dimension, below its size. -/
def InShape (shape index : List Nat) : Prop := List.Forall₂ (· < ·) index shape

variable {shape dims index : List Nat} {dim i k : Nat}

/-! ## Digits -/

theorem digits_zero (shape : List Nat) : digits shape 0 = List.replicate shape.length 0 := by
  induction shape with
  | nil => rfl
  | cons dim dims ih => rw [digits, ih, Nat.zero_div, Nat.zero_mod, List.length_cons, List.replicate_succ]

/-- The digits of a shape start again after as many numbers as there are indices. -/
theorem digits_add_mul (shape : List Nat) (k turns : Nat) : digits shape (k + turns * shape.prod) = digits shape k := by
  induction shape generalizing turns with
  | nil => rfl
  | cons dim dims ih =>
    have hturns : turns * (dim * dims.prod) = turns * dim * dims.prod := (Nat.mul_assoc ..).symm
    have hfirst : (k + turns * dim * dims.prod) / dims.prod % dim = k / dims.prod % dim := by
      rcases Nat.eq_zero_or_pos dims.prod with hzero | hpos
      · rw [hzero, Nat.mul_zero, Nat.add_zero]
      · rw [Nat.add_mul_div_right _ _ hpos, Nat.add_mul_mod_self_right]
    rw [List.prod_cons, hturns, digits, hfirst, ih, digits]

/-- Digits are an index of the shape if no dimension is empty. -/
theorem inShape_digits (hsome : 0 ∉ shape) (k : Nat) : InShape shape (digits shape k) := by
  induction shape with
  | nil => exact .nil
  | cons dim dims ih =>
    rw [List.mem_cons, not_or] at hsome
    exact .cons (Nat.mod_lt _ (Nat.pos_of_ne_zero (Ne.symm hsome.1))) (ih hsome.2)

/-! ## Positions -/

/-- The digits of a number tell the number, up to full turns. -/
theorem position_digits (shape : List Nat) (k : Nat) : position shape (digits shape k) = k % shape.prod := by
  induction shape with
  | nil => exact (Nat.mod_one k).symm
  | cons dim dims ih => rw [digits, position, ih, List.prod_cons, Nat.mul_comm dim, Nat.mod_mul, Nat.mul_comm, Nat.add_comm]

/-- There are only as many positions as indices. -/
theorem position_lt (hindex : InShape shape index) : position shape index < shape.prod := by
  induction hindex with
  | nil => exact Nat.zero_lt_one
  | @cons i dim index dims hi _ ih =>
    calc i * dims.prod + position dims index < i * dims.prod + dims.prod := Nat.add_lt_add_left ih _
      _ = (i + 1) * dims.prod := (Nat.succ_mul ..).symm
      _ ≤ dim * dims.prod := Nat.mul_le_mul_right _ hi

/-- An index is made of the digits of its position. -/
theorem digits_position (hindex : InShape shape index) : digits shape (position shape index) = index := by
  induction hindex with
  | nil => rfl
  | @cons i dim index dims hi hrest ih =>
    have hlt := position_lt hrest
    have hfirst : (position dims index + i * dims.prod) / dims.prod % dim = i := by
      rw [Nat.add_mul_div_right _ _ (Nat.zero_lt_of_lt hlt), Nat.div_eq_of_lt hlt, Nat.zero_add, Nat.mod_eq_of_lt hi]
    rw [position, Nat.add_comm, digits, hfirst, digits_add_mul, ih]

/-! ## Steps -/

/-- Adding one raises the last digit if it has room, and sets it back if it has none. -/
private theorem succ_mod (hdim : dim ≠ 0) (k : Nat) :
    (k + 1) % dim = if k % dim + 1 < dim then k % dim + 1 else 0 := by
  rw [← Nat.mod_add_mod]
  split
  · rename_i hroom
    exact Nat.mod_eq_of_lt hroom
  · rename_i hfull
    have hlast : k % dim + 1 = dim := Nat.le_antisymm (Nat.mod_lt k (Nat.pos_of_ne_zero hdim)) (Nat.not_lt.mp hfull)
    rw [hlast, Nat.mod_self]

/-- One step of the odometer turns the digits of a number into those of the next. It goes through every place when a
turn of all of them is full. -/
theorem advance_digits (hsome : 0 ∉ shape) (k : Nat) :
    advance shape (digits shape k) = (decide (shape.prod ∣ k + 1), digits shape (k + 1)) := by
  induction shape with
  | nil => simp [advance, digits]
  | cons dim dims ih =>
    rw [List.mem_cons, not_or] at hsome
    obtain ⟨hdim, hdims⟩ := hsome
    rw [digits, advance, ih hdims, List.prod_cons, digits]
    by_cases hturn : dims.prod ∣ k + 1
    · -- The places behind have made a full turn, so this one steps.
      have hfull : dim * dims.prod ∣ k + 1 ↔ (k / dims.prod + 1) % dim = 0 := by
        rw [Nat.mul_comm, ← Nat.dvd_div_iff_mul_dvd hturn, Nat.succ_div_of_dvd hturn, Nat.dvd_iff_mod_eq_zero]
      rw [decide_eq_true hturn, Nat.succ_div_of_dvd hturn]
      simp only [hfull, succ_mod (Ne.symm hdim)]
      split
      · rfl
      · rfl
    · have hpart : ¬dim * dims.prod ∣ k + 1 := fun hfull => hturn ((Nat.dvd_mul_left dims.prod dim).trans hfull)
      rw [decide_eq_false hturn, decide_eq_false hpart, Nat.succ_div_of_not_dvd hturn]

/-- The indices that are met are made of the digits of consecutive numbers. -/
theorem indicesFrom_digits (hsome : 0 ∉ shape) (count k : Nat) :
    indicesFrom shape count (digits shape k) = (List.range' k count).map (digits shape) := by
  induction count generalizing k with
  | zero => rfl
  | succ count ih => rw [indicesFrom, advance_digits hsome, ih, List.range'_succ, List.map_cons]

/-- Nothing is passed on the way to the first index. -/
theorem sum_zipWith_zeros (n : Nat) (strides : List Nat) :
    (List.zipWith (· * ·) (List.replicate n 0) strides).sum = 0 := by
  induction n generalizing strides with
  | zero => rfl
  | succ n ih =>
    cases strides with
    | nil => rfl
    | cons stride strides => rw [List.replicate_succ, List.zipWith_cons_cons, List.sum_cons, ih, Nat.zero_mul]

namespace Buffer

variable {b : Buffer}

/-- The indices of a buffer are made of the digits of the numbers from zero on. -/
theorem indices_eq (b : Buffer) : b.indices = (List.range b.shape.prod).map (digits b.shape) := by
  rw [indices, ← digits_zero, ← List.prod_eq_foldr]
  by_cases hz : 0 ∈ b.shape
  · rw [List.prod_eq_zero hz]
    rfl
  · rw [indicesFrom_digits hz, List.range_eq_range']

/-- The indices that are met are those of the shape. -/
theorem mem_indices_iff : index ∈ b.indices ↔ InShape b.shape index := by
  rw [indices_eq, List.mem_map]
  constructor
  · rintro ⟨k, hk, rfl⟩
    refine inShape_digits (fun hz => ?_) k
    rw [List.prod_eq_zero hz] at hk
    exact absurd (List.mem_range.mp hk) (Nat.not_lt_zero k)
  · intro hindex
    exact ⟨_, List.mem_range.mpr (position_lt hindex), digits_position hindex⟩

/-- There is one offset for every index. -/
theorem length_offsets_eq_prod (b : Buffer) : b.offsets.length = b.shape.prod := by
  rw [offsets, List.length_map, indices_eq, List.length_map, List.length_range]

theorem offsetAt_eq (b : Buffer) (index : List Nat) :
    b.offsetAt index = b.offset + (List.zipWith (· * ·) index b.strides).sum := rfl

end Buffer

/-! ## Offsets -/

/-- The odometer and the walk over the cells list the same offsets. -/
theorem map_digits_eq_offsetsFrom {strides : List Nat} (hr : shape.length = strides.length) (start : Nat) :
    (List.range shape.prod).map (fun k => start + (List.zipWith (· * ·) (digits shape k) strides).sum) =
      offsetsFrom start (shape.zip strides) := by
  induction shape generalizing strides start with
  | nil => rfl
  | cons dim dims ih =>
    obtain ⟨stride, strides, rfl⟩ := List.exists_cons_of_length_eq_add_one hr.symm
    have hrows : List.range (dim * dims.prod) =
        (List.range dim).flatMap fun i => (List.range dims.prod).map (· + i * dims.prod) := by
      rw [List.range_eq_range', ← flatMap_range']
      refine List.flatMap_congr fun i _ => ?_
      rw [List.range'_eq_map_range]
      refine List.map_congr_left fun k _ => ?_
      omega
    rw [List.prod_cons, hrows, List.map_flatMap, List.zip_cons_cons, offsetsFrom]
    refine List.flatMap_congr fun i hi => ?_
    rw [← ih (by simpa using hr), List.map_map]
    refine List.map_congr_left fun k hk => ?_
    have hk := List.mem_range.mp hk
    have hfirst : (k + i * dims.prod) / dims.prod % dim = i := by
      rw [Nat.add_mul_div_right _ _ (Nat.zero_lt_of_lt hk), Nat.div_eq_of_lt hk, Nat.zero_add,
        Nat.mod_eq_of_lt (List.mem_range.mp hi)]
    rw [Function.comp_apply, digits, hfirst, digits_add_mul, List.zipWith_cons_cons, List.sum_cons, Nat.add_assoc]

theorem Buffer.offsets_eq {b : Buffer} (hr : b.shape.length = b.strides.length) :
    b.offsets = offsetsFrom b.offset (b.shape.zip b.strides) := by
  rw [offsets, indices_eq, List.map_map]
  exact map_digits_eq_offsetsFrom hr b.offset

end Collectives
