import Collectives.Memory.Buffer
import Collectives.Proofs.Checked

/-!
# Where the elements of a view lie

`offsetsFrom` walks over cells, pairs of a dimension and its stride, one inside the other. It meets one offset for every
index, another order of the cells gives the same offsets in another order, and fewer steps along the first cell give
some of the offsets. Over row-major cells, those that `gapless` accepts and those that `contiguousStrides`
makes, the offsets are an interval, met from its lower end on; over cells that are not empty and not row-major, they
are not.
-/

namespace Collectives

/-- Offsets of all elements in row-major order, the last dimension fastest. -/
def offsetsFrom (start : Nat) : List (Nat × Nat) → List Nat
  | [] => [start]
  | (dim, stride) :: rest =>
    (List.range dim).flatMap fun i => offsetsFrom (start + i * stride) rest

variable {start : Nat} {cells cells' : List (Nat × Nat)}

/-- There is one offset for every index. -/
theorem length_offsetsFrom : (offsetsFrom start cells).length = (cells.map Prod.fst).prod := by
  induction cells generalizing start with
  | nil => rfl
  | cons cell cells ih =>
    simp only [offsetsFrom, List.length_flatMap, ih, List.map_cons, List.prod_cons]
    rw [List.map_const', List.sum_replicate, List.length_range, smul_eq_mul]

/-- A walk meets no offset before its start. -/
theorem le_of_mem_offsetsFrom {i : Nat} (hi : i ∈ offsetsFrom start cells) : start ≤ i := by
  induction cells generalizing start with
  | nil => exact (List.mem_singleton.mp hi).ge
  | cons cell cells ih =>
    obtain ⟨step, -, hi⟩ := List.mem_flatMap.mp hi
    exact (Nat.le_add_right _ _).trans (ih hi)

/-- Two nested walks can be exchanged. -/
private theorem flatMap_flatMap_perm (xs ys : List Nat) (f : Nat → Nat → List Nat) :
    (xs.flatMap fun x => ys.flatMap (f x)).Perm (ys.flatMap fun y => xs.flatMap (f · y)) := by
  rw [← Multiset.coe_eq_coe]
  simp only [← Multiset.coe_bind]
  exact Multiset.bind_bind ..

/-- The order of the cells is the order of the walk only. -/
theorem offsetsFrom_perm (h : cells.Perm cells') :
    (offsetsFrom start cells).Perm (offsetsFrom start cells') := by
  induction h generalizing start with
  | nil => exact .rfl
  | cons cell _ ih => exact List.Perm.flatMap_left _ fun i _ => ih
  | swap first second cells =>
    have hplace (i j : Nat) : start + i * second.2 + j * first.2 = start + j * first.2 + i * second.2 := by omega
    -- Both walks meet the same places, one row by row and the other column by column.
    simp only [offsetsFrom, hplace]
    exact flatMap_flatMap_perm ..
  | trans _ _ ih₁ ih₂ => exact ih₁.trans ih₂

/-- Some consecutive steps along the first cell meet some of the offsets. -/
theorem offsetsFrom_sublist {rows skipped length stride : Nat} (h : skipped + length ≤ rows) :
    (offsetsFrom (start + skipped * stride) ((length, stride) :: cells)).Sublist
      (offsetsFrom start ((rows, stride) :: cells)) := by
  have hplace (i : Nat) : start + skipped * stride + i * stride = start + (skipped + i) * stride := by
    rw [Nat.add_mul, Nat.add_assoc]
  have hsteps : offsetsFrom (start + skipped * stride) ((length, stride) :: cells) =
      ((List.range length).map (skipped + ·)).flatMap fun i => offsetsFrom (start + i * stride) cells := by
    simp only [offsetsFrom, hplace, List.flatMap_map]
  have hrows : rows = skipped + length + (rows - (skipped + length)) := by omega
  -- The rows before and after are left out of the whole walk.
  rw [hsteps, offsetsFrom, hrows, List.range_add, List.range_add]
  refine List.Sublist.flatMap ?_ _
  exact (List.sublist_append_right ..).trans (List.sublist_append_left ..)

/-! ## Row-major cells -/

/-- Steps from interval to interval that touch walk over one interval. -/
theorem flatMap_range' (start length dim : Nat) :
    ((List.range dim).flatMap fun i => List.range' (start + i * length) length) =
      List.range' start (dim * length) := by
  induction dim with
  | zero => simp
  | succ dim ih =>
    rw [List.range_succ, List.flatMap_append, ih, List.flatMap_singleton, List.range'_append_1, Nat.succ_mul]

private theorem gapless_concat (passed : Nat) (cell : Nat × Nat) :
    gapless passed (cells ++ [cell]) =
      (gapless passed cells && (cell.1 == 1 || cell.2 == passed * (cells.map Prod.fst).prod)) := by
  induction cells generalizing passed with
  | nil => simp [gapless]
  | cons first cells ih =>
    simp only [List.cons_append, gapless, ih, List.map_cons, List.prod_cons, Nat.mul_assoc, Bool.and_assoc]

/-- A dimension steps over all that follow it, unless it has only one place. -/
theorem gapless_reverse_cons (dim stride : Nat) :
    gapless 1 ((dim, stride) :: cells).reverse = true ↔
      gapless 1 cells.reverse = true ∧ (dim = 1 ∨ stride = (cells.map Prod.fst).prod) := by
  rw [List.reverse_cons, gapless_concat]
  simp

/-- The offsets of row-major cells are an interval. -/
theorem offsetsFrom_eq_range' (h : gapless 1 cells.reverse = true) :
    offsetsFrom start cells = List.range' start (cells.map Prod.fst).prod := by
  induction cells generalizing start with
  | nil => rfl
  | cons cell cells ih =>
    obtain ⟨dim, stride⟩ := cell
    obtain ⟨hrest, hstride⟩ := (gapless_reverse_cons dim stride).mp h
    simp only [offsetsFrom, ih hrest, List.map_cons, List.prod_cons]
    rcases hstride with rfl | rfl
    · simp
    · exact flatMap_range' ..

/-- A walk over cells that are not empty begins at its start. -/
theorem head?_offsetsFrom (hsome : 0 ∉ cells.map Prod.fst) : (offsetsFrom start cells).head? = some start := by
  induction cells generalizing start with
  | nil => rfl
  | cons cell cells ih =>
    obtain ⟨dim, stride⟩ := cell
    rw [List.map_cons, List.mem_cons, not_or] at hsome
    obtain ⟨steps, rfl⟩ := Nat.exists_eq_succ_of_ne_zero (Ne.symm hsome.1)
    simp only [offsetsFrom, List.range_succ_eq_map, List.flatMap_cons, Nat.zero_mul, Nat.add_zero]
    rw [List.head?_append, ih hsome.2, Option.some_or]

/-- Cells whose offsets are an interval, met from its lower end on, are row-major. -/
theorem gapless_of_offsetsFrom (hsome : 0 ∉ cells.map Prod.fst)
    (h : offsetsFrom start cells = List.range' start (cells.map Prod.fst).prod) : gapless 1 cells.reverse = true := by
  induction cells generalizing start with
  | nil => rfl
  | cons cell cells ih =>
    obtain ⟨dim, stride⟩ := cell
    rw [List.map_cons, List.mem_cons, not_or] at hsome
    obtain ⟨hdim, hcells⟩ := hsome
    obtain ⟨steps, rfl⟩ := Nat.exists_eq_succ_of_ne_zero (Ne.symm hdim)
    have hpos : 0 < (cells.map Prod.fst).prod := Nat.pos_of_ne_zero fun hz => hcells (List.prod_eq_zero_iff.mp hz)
    have hwalk : offsetsFrom start ((steps + 1, stride) :: cells) = offsetsFrom start cells ++
        (List.range steps).flatMap fun i => offsetsFrom (start + (i + 1) * stride) cells := by
      simp only [offsetsFrom, List.range_succ_eq_map, List.flatMap_cons, List.flatMap_map, Nat.zero_mul, Nat.add_zero]
    have hinterval : List.range' start ((steps + 1) * (cells.map Prod.fst).prod) =
        List.range' start (cells.map Prod.fst).prod ++
          List.range' (start + (cells.map Prod.fst).prod) (steps * (cells.map Prod.fst).prod) := by
      rw [Nat.succ_mul, Nat.add_comm (steps * _), List.range'_append_1]
    rw [List.map_cons, List.prod_cons, hwalk, hinterval] at h
    -- The first step along the first cell meets the lower part of the interval.
    obtain ⟨hfirst, hlater⟩ := List.append_inj h (by rw [length_offsetsFrom, List.length_range'])
    rw [gapless_reverse_cons]
    refine ⟨ih hcells hfirst, ?_⟩
    cases steps with
    | zero => exact .inl rfl
    | succ steps =>
      -- The second step begins where the first one ends.
      have hhead := congrArg List.head? hlater
      rw [List.range_succ_eq_map, List.flatMap_cons, List.head?_append, head?_offsetsFrom hcells, Option.some_or,
        List.head?_range', if_neg (Nat.mul_pos (Nat.succ_pos steps) hpos).ne', Option.some.injEq] at hhead
      omega

/-- The offsets of cells are an interval exactly if the cells are row-major. -/
theorem offsetsFrom_eq_range'_iff (hsome : 0 ∉ cells.map Prod.fst) :
    offsetsFrom start cells = List.range' start (cells.map Prod.fst).prod ↔ gapless 1 cells.reverse = true :=
  ⟨gapless_of_offsetsFrom hsome, offsetsFrom_eq_range'⟩

/-- The first of contiguous strides steps over all that follow, an empty dimension counting as one. -/
theorem head_of_contiguousStrides {dim : Nat} {shape strides : List Nat}
    (h : contiguousStrides (dim :: shape) = .ok strides) :
    ∃ tail, strides = (shape.map (max · 1)).prod :: tail ∧ contiguousStrides shape = .ok tail := by
  induction shape generalizing dim strides with
  | nil =>
    cases h
    exact ⟨[], rfl, rfl⟩
  | cons next shape ih =>
    rw [contiguousStrides] at h
    obtain ⟨tail, htail, h⟩ := exists_of_bind_eq_ok h
    obtain ⟨rest, rfl, -⟩ := ih htail
    obtain ⟨step, hstep, h⟩ := exists_of_bind_eq_ok h
    unfold mulSize at hstep
    split at hstep
    · cases hstep
      cases h
      exact ⟨_, by rw [List.map_cons, List.prod_cons, Nat.mul_comm], htail⟩
    · cases hstep

theorem length_of_contiguousStrides {shape strides : List Nat} (h : contiguousStrides shape = .ok strides) :
    strides.length = shape.length := by
  induction shape generalizing strides with
  | nil =>
    cases h
    rfl
  | cons dim shape ih =>
    obtain ⟨tail, rfl, htail⟩ := head_of_contiguousStrides h
    exact congrArg (· + 1) (ih htail)

/-- The dimensions of a shape laid over strides of the same number. -/
theorem map_fst_zip {shape strides : List Nat} (h : shape.length = strides.length) :
    (shape.zip strides).map Prod.fst = shape :=
  List.map_fst_zip h.le

/-- Contiguous strides are row-major where no dimension is empty. -/
theorem gapless_of_contiguousStrides {shape strides : List Nat} (h : contiguousStrides shape = .ok strides)
    (hpos : 0 ∉ shape) : gapless 1 (shape.zip strides).reverse = true := by
  induction shape generalizing strides with
  | nil => rfl
  | cons dim shape ih =>
    obtain ⟨tail, rfl, htail⟩ := head_of_contiguousStrides h
    have hrest : 0 ∉ shape := fun hz => hpos (List.mem_cons_of_mem dim hz)
    -- No dimension is empty, so none was counted as one in its stead.
    have hmax : shape.map (max · 1) = shape := by
      refine (List.map_congr_left fun d hd => ?_).trans (List.map_id shape)
      have hd : d ≠ 0 := fun hz => hrest (hz ▸ hd)
      exact max_eq_left (Nat.one_le_iff_ne_zero.mpr hd)
    rw [List.zip_cons_cons, gapless_reverse_cons, map_fst_zip (length_of_contiguousStrides htail).symm, hmax]
    exact ⟨ih htail hrest, .inr rfl⟩

end Collectives
