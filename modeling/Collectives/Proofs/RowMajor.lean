import Collectives.Proofs.Holding
import Collectives.Proofs.SplitExchange

/-!
# Elements in row-major order

The offsets of a buffer are listed in row-major order: element `k` lies as many strides from the first one, along each
dimension, as the digit of `k` in that place says. Computing them in sizes does not overflow if the offsets themselves are
sizes, which they are for every buffer that can be held. So the elements of a transposed buffer are those at the swapped
indices, and the elements of a band of rows those of the rows further on.
-/

namespace Collectives

namespace Buffer

/-- Elements passed on the way along some dimensions, each given by how many steps are made and its stride. Every product
and every sum is checked. -/
def passed (before : Nat) : List (Nat × Nat) → Except Fault Nat
  | [] => .ok before
  | (steps, stride) :: cells => do passed (← addSize before (← mulSize steps stride)) cells

/-- The offset of the element at an index, with every product and every sum checked. -/
def checkedOffset (b : Buffer) (index : List Nat) : Except Fault Nat := do
  addSize b.offset (← passed 0 (index.zip b.strides))

/-- The offsets of the elements as they are computed in sizes: the elements are counted, a table of as many entries is made,
and the odometer goes as many steps from the first index on. -/
def computeOffsets (b : Buffer) : Except Fault (List Nat) := do
  let n ← b.numel
  checkTable n
  (indicesFrom b.shape n (List.replicate b.shape.length 0)).mapM b.checkedOffset

/-- The offset that is listed where the element at an index comes in row-major order. -/
def listed (b : Buffer) (index : List Nat) : Option Nat := b.offsets[position b.shape index]?

/-- There is at least one element, and the offset of each is a size. -/
structure Listable (b : Buffer) : Prop where
  /-- Every dimension has its stride. -/
  ranked : b.shape.length = b.strides.length
  sized : ∀ dim ∈ b.shape, dim < sizeLimit
  nonempty : 0 ∉ b.shape
  fits : ∀ index, InShape b.shape index → b.offsetAt index < sizeLimit

/-- The offsets of the elements are computed in row-major order. -/
structure RowMajor (b : Buffer) : Prop where
  counted : b.count < sizeLimit → b.numel = .ok b.count
  /-- Only a table that is too large to be made is not computed. -/
  computed : b.computeOffsets = .ok b.offsets ↔ b.count < 2 ^ 60
  length : b.offsets.length = b.count
  /-- The digits of `k` are the index that comes after `k` others. -/
  index : ∀ k < b.count, InShape b.shape (digits b.shape k) ∧ position b.shape (digits b.shape k) = k
  /-- Element `k` lies as many strides along each dimension as its digits say. -/
  place : ∀ k < b.count, b.offsets[k]? = some (b.offset + (List.zipWith (· * ·) (digits b.shape k) b.strides).sum)

variable {b : Buffer} {index : List Nat} {dim0 dim1 start length : Nat}

/-! ## Computing offsets -/

/-- Going along the strides does not overflow where the sum of all steps is a size. -/
theorem passed_eq_ok {index strides : List Nat} {before : Nat}
    (h : before + (List.zipWith (· * ·) index strides).sum < sizeLimit) :
    passed before (index.zip strides) = .ok (before + (List.zipWith (· * ·) index strides).sum) := by
  induction index generalizing strides before with
  | nil => rfl
  | cons i index ih =>
    cases strides with
    | nil => rfl
    | cons stride strides =>
      rw [List.zipWith_cons_cons, List.sum_cons, ← Nat.add_assoc] at h ⊢
      have hstep : mulSize i stride = .ok (i * stride) := mulSize_eq_ok (by omega)
      have hsum : addSize before (i * stride) = .ok (before + i * stride) := addSize_eq_ok (by omega)
      rw [List.zip_cons_cons, passed, hstep, ok_bind, hsum, ok_bind, ih h]

theorem checkedOffset_eq_ok (h : b.offsetAt index < sizeLimit) : b.checkedOffset index = .ok (b.offsetAt index) := by
  rw [offsetAt_eq] at h ⊢
  rw [checkedOffset, passed_eq_ok (by omega), ok_bind, Nat.zero_add, addSize_eq_ok h]

/-- Offsets that are sizes are computed, unless a table of them is too large. -/
theorem computeOffsets_eq_ok_iff {n : Nat} (hn : b.numel = .ok n)
    (hfits : ∀ index, InShape b.shape index → b.offsetAt index < sizeLimit) :
    b.computeOffsets = .ok b.offsets ↔ n < 2 ^ 60 := by
  have hall : (indicesFrom b.shape n (List.replicate b.shape.length 0)).mapM b.checkedOffset = .ok b.offsets := by
    rw [eq_of_productSizes hn]
    exact mapM_eq_ok_map fun index hindex => checkedOffset_eq_ok (hfits index (mem_indices_iff.mp hindex))
  rw [computeOffsets, hn, ok_bind, hall]
  constructor
  · intro hcomputed
    obtain ⟨_, htable, -⟩ := exists_of_bind_eq_ok hcomputed
    by_contra hlarge
    rw [checkTable, if_neg (by omega)] at htable
    cases htable
  · intro hsmall
    rw [checkTable, if_pos (by omega)]
    rfl

/-! ## Places in the list -/

theorem getElem?_offsets {k : Nat} (hk : k < b.shape.prod) :
    b.offsets[k]? = some (b.offsetAt (digits b.shape k)) := by
  rw [offsets, indices_eq, List.getElem?_map, List.getElem?_map, List.getElem?_range hk, Option.map_some, Option.map_some]

/-- The element at an index is listed where its position says. -/
theorem listed_eq_some (hindex : InShape b.shape index) : b.listed index = some (b.offsetAt index) := by
  rw [listed, getElem?_offsets (position_lt hindex), digits_position hindex]

/-- No empty dimension hides that the number of elements is no size. -/
theorem Listable.numel_eq_ok (hb : b.Listable) (hcount : b.count < sizeLimit) : b.numel = .ok b.count :=
  productSizes_of_pos (Nat.pos_of_ne_zero fun hzero => hb.nonempty (List.prod_eq_zero_iff.mp hzero)) hcount

/-- A buffer whose elements can be listed lists them in row-major order. -/
theorem Listable.rowMajor (hb : b.Listable) : b.RowMajor where
  counted := hb.numel_eq_ok
  computed := by
    constructor
    · intro hcomputed
      obtain ⟨n, hn, -⟩ := exists_of_bind_eq_ok hcomputed
      rw [count, ← eq_of_productSizes hn]
      exact (computeOffsets_eq_ok_iff hn hb.fits).mp hcomputed
    · intro hcount
      have hsize : b.count < sizeLimit := hcount.trans (by decide)
      exact (computeOffsets_eq_ok_iff (hb.numel_eq_ok hsize) hb.fits).mpr hcount
  length := b.length_offsets_eq_prod
  index k hk := by
    refine ⟨inShape_digits hb.nonempty k, ?_⟩
    rw [position_digits]
    exact Nat.mod_eq_of_lt hk
  place k hk := getElem?_offsets hk

/-! ## Transposed buffers -/

theorem length_swapped (xs : List Nat) (i j : Nat) : (swapped xs i j).length = xs.length := by
  rw [swapped, List.length_set, List.length_set]

/-- Swapping two entries twice changes nothing. -/
theorem swapped_swapped {xs : List Nat} {i j : Nat} (hi : i < xs.length) (hj : j < xs.length) :
    swapped (swapped xs i j) i j = xs := by
  refine List.ext_getElem (by rw [length_swapped, length_swapped]) fun k hk hk' => ?_
  simp only [swapped, List.getD_eq_getElem?_getD]
  grind

/-- An index and a list of as many entries, both swapped, have the same entries side by side. -/
theorem zip_swapped_perm_zip {index xs : List Nat} {i j : Nat} (hlength : index.length = xs.length) (hi : i < xs.length)
    (hj : j < xs.length) : ((swapped index i j).zip xs).Perm (index.zip (swapped xs i j)) := by
  have hperm : ((swapped index i j).zip (swapped (swapped xs i j) i j)).Perm (index.zip (swapped xs i j)) :=
    Sound.zip_swapped_perm (hlength.trans (length_swapped ..).symm) (hlength ▸ hi) (hlength ▸ hj)
  rwa [swapped_swapped hi hj] at hperm

theorem inShape_swapped {shape : List Nat} (hi : dim0 < shape.length) (hj : dim1 < shape.length)
    (hindex : InShape (swapped shape dim0 dim1) index) : InShape shape (swapped index dim0 dim1) := by
  obtain ⟨hlength, hbelow⟩ := List.forall₂_iff_zip.mp hindex
  rw [length_swapped] at hlength
  refine List.forall₂_iff_zip.mpr ⟨(length_swapped ..).trans hlength, fun hmem => hbelow ?_⟩
  exact (zip_swapped_perm_zip hlength hi hj).mem_iff.mp hmem

/-- Along swapped strides an index leads where the swapped index leads along the strides. -/
theorem sum_zipWith_swapped {strides : List Nat} (hlength : index.length = strides.length) (hi : dim0 < strides.length)
    (hj : dim1 < strides.length) : (List.zipWith (· * ·) index (swapped strides dim0 dim1)).sum =
      (List.zipWith (· * ·) (swapped index dim0 dim1) strides).sum := by
  have hperm := (zip_swapped_perm_zip hlength hi hj).map (Function.uncurry (· * ·))
  rw [List.map_uncurry_zip_eq_zipWith, List.map_uncurry_zip_eq_zipWith] at hperm
  exact hperm.sum_eq.symm

/-- The buffer with two dimensions swapped. -/
def crossed (b : Buffer) (dim0 dim1 : Nat) : Buffer :=
  { b with shape := swapped b.shape dim0 dim1, strides := swapped b.strides dim0 dim1 }

theorem transpose_eq_ok (hi : dim0 < b.shape.length) (hj : dim1 < b.shape.length) :
    b.transpose dim0 dim1 = .ok (b.crossed dim0 dim1) := by
  have hdims : require (decide (dim0 < b.shape.length) && decide (dim1 < b.shape.length))
      (.swapDims dim0 dim1 b.shape.length) = .ok () := by
    rw [decide_eq_true hi, decide_eq_true hj]
    rfl
  unfold transpose
  dsimp only
  rw [hdims]
  rfl

/-- The element of a transposed buffer at an index is the one at the swapped index. -/
theorem offsetAt_crossed (hr : b.shape.length = b.strides.length) (hi : dim0 < b.shape.length)
    (hj : dim1 < b.shape.length) (hindex : InShape (b.crossed dim0 dim1).shape index) :
    (b.crossed dim0 dim1).offsetAt index = b.offsetAt (swapped index dim0 dim1) := by
  have hlength : index.length = b.strides.length := hindex.length_eq.trans ((length_swapped ..).trans hr)
  rw [offsetAt_eq, offsetAt_eq, crossed, sum_zipWith_swapped hlength (hr ▸ hi) (hr ▸ hj)]

/-! ## Bands of rows -/

/-- An index of a band is that of the buffer so many rows further on. -/
theorem inShape_band {i rows : Nat} {dims : List Nat} (hshape : b.shape = rows :: dims) (hin : start + length ≤ rows)
    (hindex : InShape (b.band start length).shape (i :: index)) : InShape b.shape ((start + i) :: index) := by
  rw [shape_band hshape] at hindex
  obtain ⟨hi, hrest⟩ := List.forall₂_cons.mp hindex
  rw [hshape]
  exact .cons (by omega) hrest

/-- The element of a band at an index is the one so many rows further on. -/
theorem offsetAt_band {i : Nat} {stride : Nat} {others : List Nat} (hstrides : b.strides = stride :: others) :
    (b.band start length).offsetAt (i :: index) = b.offsetAt ((start + i) :: index) := by
  simp only [offsetAt_eq, band, hstrides, List.headD_cons, List.zipWith_cons_cons, List.sum_cons, Nat.add_mul,
    Nat.add_assoc]

namespace Listable

/-- A transposed buffer has the same elements, so their offsets are sizes. -/
theorem crossed (hb : b.Listable) (hi : dim0 < b.shape.length) (hj : dim1 < b.shape.length) :
    (b.crossed dim0 dim1).Listable := by
  have hperm : (swapped b.shape dim0 dim1).Perm b.shape := Sound.swapped_perm hi hj
  refine ⟨?_, fun dim hdim => hb.sized dim (hperm.mem_iff.mp hdim), fun hz => hb.nonempty (hperm.mem_iff.mp hz),
    fun index hindex => ?_⟩
  · rw [Buffer.crossed, length_swapped, length_swapped]
    exact hb.ranked
  · rw [offsetAt_crossed hb.ranked hi hj hindex]
    exact hb.fits _ (inShape_swapped hi hj hindex)

/-- Each of the rows begins at an offset that is a size. -/
theorem row_lt {rows : Nat} {dims : List Nat} (hb : b.Listable) (hshape : b.shape = rows :: dims)
    (hstart : start < rows) : b.offset + start * b.strides.headD 0 < sizeLimit := by
  have hdims : 0 ∉ dims := fun hz => hb.nonempty (hshape ▸ List.mem_cons_of_mem rows hz)
  obtain ⟨stride, others, hstrides⟩ := exists_strides hb.ranked hshape
  have hfirst : InShape b.shape (start :: List.replicate dims.length 0) := by
    rw [hshape, ← digits_zero]
    exact .cons hstart (inShape_digits hdims 0)
  have hfits := hb.fits _ hfirst
  rw [offsetAt_eq, hstrides, List.zipWith_cons_cons, List.sum_cons, sum_zipWith_zeros, Nat.add_zero] at hfits
  rwa [hstrides, List.headD_cons]

/-- A band of rows has elements of the buffer, whose offsets are sizes. -/
theorem band {rows : Nat} {dims : List Nat} (hb : b.Listable) (hshape : b.shape = rows :: dims) (hlength : 0 < length)
    (hin : start + length ≤ rows) : (b.band start length).Listable := by
  obtain ⟨stride, others, hstrides⟩ := exists_strides hb.ranked hshape
  have hband : (b.band start length).shape = length :: dims := shape_band hshape start length
  obtain ⟨hrows, hdims⟩ := List.forall_mem_cons.mp (hshape ▸ hb.sized)
  refine ⟨ranked_band hb.ranked hshape start length, ?_, ?_, fun index hindex => ?_⟩
  · rw [hband]
    exact List.forall_mem_cons.mpr ⟨by omega, hdims⟩
  · rw [hband, List.mem_cons, not_or]
    exact ⟨Nat.ne_of_lt hlength, fun hz => hb.nonempty (hshape ▸ List.mem_cons_of_mem rows hz)⟩
  · cases index with
    | nil =>
      rw [hband] at hindex
      cases hindex
    | cons i index =>
      rw [offsetAt_band hstrides]
      exact hb.fits _ (inShape_band hshape hin hindex)

end Listable

/-- The offsets of a buffer that has elements, whose offsets are sizes, are computed in row-major order, unless a table of
them is too large. Two dimensions can be swapped; then the same holds, and the element at an index is the
one that was at the index with these coordinates swapped. Some of the rows can be taken; then the same holds, and the
element at an index is the one that was as many rows further on as are left out before. -/
theorem Listable.listed_in_row_major_order (hb : b.Listable) :
    b.RowMajor ∧
      (∀ dim0 dim1, dim0 < b.shape.length → dim1 < b.shape.length → ∃ b', b.transpose dim0 dim1 = .ok b' ∧
        b.Beside b' ∧ b'.shape = swapped b.shape dim0 dim1 ∧ b'.RowMajor ∧
        ∀ index, InShape b'.shape index → ∃ place, b'.listed index = some place ∧
          b.listed (swapped index dim0 dim1) = some place) ∧
      ∀ start length, 0 < length → start + length ≤ b.rows → ∃ b', b.narrow start length = .ok b' ∧ b.Beside b' ∧
        b'.shape = length :: b.shape.tail ∧ b'.RowMajor ∧
        ∀ i index, InShape b'.shape (i :: index) → ∃ place, b'.listed (i :: index) = some place ∧
          b.listed ((start + i) :: index) = some place := by
  refine ⟨hb.rowMajor, fun dim0 dim1 hi hj => ?_, fun start length hlength hin => ?_⟩
  · refine ⟨b.crossed dim0 dim1, transpose_eq_ok hi hj, ⟨rfl, rfl⟩, rfl, (hb.crossed hi hj).rowMajor,
      fun index hindex => ⟨_, listed_eq_some hindex, ?_⟩⟩
    rw [listed_eq_some (inShape_swapped hi hj hindex), offsetAt_crossed hb.ranked hi hj hindex]
  · cases hshape : b.shape with
    | nil =>
      rw [rows, hshape, List.headD_nil] at hin
      omega
    | cons rows dims =>
      have hrows : rows < sizeLimit := hb.sized rows (hshape ▸ List.mem_cons_self)
      rw [Buffer.rows, hshape, List.headD_cons] at hin
      obtain ⟨stride, others, hstrides⟩ := exists_strides hb.ranked hshape
      have hnarrow : b.narrow start length = .ok (b.band start length) :=
        narrow_eq_ok hshape hin hrows (hb.row_lt hshape (by omega))
      refine ⟨b.band start length, hnarrow, ⟨rfl, rfl⟩, shape_band hshape start length,
        (hb.band hshape hlength hin).rowMajor, fun i index hindex => ⟨_, listed_eq_some hindex, ?_⟩⟩
      rw [listed_eq_some (inShape_band hshape hin hindex), offsetAt_band hstrides]

/-- A buffer of two by one by three elements, of which the middle dimension has a stride that nothing goes along. Element
four is in the second row and the second column. With rows and columns swapped, or from the second row on, elements are
found where they were. -/
theorem listed_in_order_of_six : ∃ b turned lower : Buffer, b.Listable ∧ b.shape = [2, 1, 3] ∧ b.strides = [1, 7, 2] ∧
    b.computeOffsets = .ok [4, 6, 8, 5, 7, 9] ∧ digits b.shape 4 = [1, 0, 1] ∧
    b.offsets[4]? = some (4 + (1 * 1 + 0 * 7 + 1 * 2)) ∧
    b.transpose 0 2 = .ok turned ∧ turned.listed [2, 0, 1] = some 9 ∧ b.listed [1, 0, 2] = some 9 ∧
    b.narrow 1 1 = .ok lower ∧ lower.listed [0, 0, 1] = some 7 ∧ b.listed [1, 0, 1] = some 7 := by
  let b : Buffer := { block := 0, dtype := .i16, shape := [2, 1, 3], strides := [1, 7, 2], offset := 4 }
  have hsizes : ∀ index ∈ b.indices, b.offsetAt index < sizeLimit := by decide
  have hb : b.Listable :=
    ⟨rfl, by decide, by decide, fun index hindex => hsizes index (mem_indices_iff.mpr hindex)⟩
  obtain ⟨horder, hcrossed, hrows⟩ := hb.listed_in_row_major_order
  obtain ⟨turned, hturned, -, hturnedShape, -, hcrossing⟩ := hcrossed 0 2 (by decide) (by decide)
  obtain ⟨lower, hlower, -, hlowerShape, -, hlowering⟩ := hrows 1 1 (by decide) (by decide)
  have hcorner : InShape turned.shape [2, 0, 1] := by
    rw [hturnedShape]
    exact .cons (by decide) (.cons (by decide) (.cons (by decide) .nil))
  have hmiddle : InShape lower.shape [0, 0, 1] := by
    rw [hlowerShape]
    exact .cons (by decide) (.cons (by decide) (.cons (by decide) .nil))
  obtain ⟨place, hplace, hbefore⟩ := hcrossing _ hcorner
  obtain ⟨place', hplace', hbefore'⟩ := hlowering _ _ hmiddle
  have hnine : b.listed [1, 0, 2] = some 9 := rfl
  have hseven : b.listed [1, 0, 1] = some 7 := rfl
  obtain rfl : place = 9 := Option.some.inj (hbefore.symm.trans hnine)
  obtain rfl : place' = 7 := Option.some.inj (hbefore'.symm.trans hseven)
  exact ⟨b, turned, lower, hb, rfl, rfl, horder.computed.mpr (by decide), rfl, horder.place 4 (by decide), hturned, hplace,
    hnine, hlower, hplace', hseven⟩

end Buffer

/-- The offsets of a buffer that can be held are computed, unless a table of them is too large. -/
theorem Holding.offsets_computed {s : Store} {held : List Buffer} {b : Buffer} {n : Nat} (hheld : Holding s held)
    (hb : b ∈ held) (hn : b.numel = .ok n) : b.computeOffsets = .ok b.offsets ↔ n < 2 ^ 60 := by
  have ht := hheld.tenancy
  refine Buffer.computeOffsets_eq_ok_iff hn fun index hindex => ?_
  have hplace : b.offsetAt index ∈ b.offsets := List.mem_map_of_mem (Buffer.mem_indices_iff.mpr hindex)
  have hinside := (ht.sound b hb).inside _ hplace
  have hwidth := Nat.le_mul_of_pos_right (b.offsetAt index + 1) b.dtype.width_pos
  have hblock := ht.bounded b.block
  have hlimit : blockLimit < sizeLimit := by decide
  omega

end Collectives
