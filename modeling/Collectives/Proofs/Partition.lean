import Collectives.Proofs.Contiguity

/-!
# Splitting a buffer into bands of rows

A band is a run of consecutive rows. Splitting makes one band for each size, and each begins where the one before it
ends, so the elements of the bands, one band after the other, are the elements of the buffer in their order. Where a
band begins is computed from the strides. In a buffer with elements this never overflows: strides are no longer than a
block, however the buffer was made.
-/

namespace Collectives

theorem places_cons (x : Nat) (xs : List Nat) : places (x :: xs) = 0 :: (places xs).map (x + ·) := by
  simp [places, List.range_succ_eq_map, Function.comp_def]

theorem le_sum_of_mem_places {xs : List Nat} {place : Nat} (hmem : place ∈ places xs) : place ≤ xs.sum := by
  obtain ⟨i, -, rfl⟩ := List.mem_map.mp hmem
  rw [← List.sum_take_add_sum_drop xs i]
  exact Nat.le_add_right _ _

namespace Buffer

/-! ## Dimensions and strides that are sizes -/

/-- Every dimension is a size, and no two neighbours in a buffer with elements are further apart than a block is long. -/
structure Measured (b : Buffer) : Prop where
  sized : ∀ dim ∈ b.shape, dim < sizeLimit
  near : 0 ∉ b.shape → ∀ stride ∈ b.strides, stride ≤ blockLimit

theorem rowStride_pos (shape : List Nat) : 0 < rowStride shape := by
  induction shape with
  | nil => decide
  | cons dim shape ih =>
    rw [rowStride_cons]
    exact Nat.mul_pos (by omega) ih

theorem le_rowStride_of_mem {shape : List Nat} {dim : Nat} (hmem : dim ∈ shape) : dim ≤ rowStride shape := by
  induction shape with
  | nil => cases hmem
  | cons first shape ih =>
    rw [rowStride_cons]
    rcases List.mem_cons.mp hmem with rfl | hmem
    · exact (le_max_left dim 1).trans (Nat.le_mul_of_pos_right _ (rowStride_pos shape))
    · exact (ih hmem).trans (Nat.le_mul_of_pos_left _ (by omega))

theorem rowStride_lt_of_contiguousStrides {dim : Nat} {shape strides : List Nat}
    (h : contiguousStrides (dim :: shape) = .ok strides) : rowStride shape < sizeLimit := by
  cases shape with
  | nil => decide
  | cons next shape =>
    rw [contiguousStrides] at h
    obtain ⟨tail, htail, h⟩ := exists_of_bind_eq_ok h
    obtain ⟨rest, rfl, -⟩ := head_of_contiguousStrides htail
    obtain ⟨step, hstep, -⟩ := exists_of_bind_eq_ok h
    obtain ⟨hproduct, hsmall⟩ := mulSize_eq_ok_iff.mp hstep
    rw [rowStride_cons, Nat.mul_comm]
    exact hproduct ▸ hsmall

/-- No contiguous stride is longer than the way over all rows. -/
theorem stride_le_rowStride {shape strides : List Nat} (h : contiguousStrides shape = .ok strides) :
    ∀ stride ∈ strides, stride ≤ rowStride shape := by
  induction shape generalizing strides with
  | nil =>
    cases h
    simp
  | cons dim shape ih =>
    obtain ⟨tail, rfl, htail⟩ := head_of_contiguousStrides h
    have hmore : rowStride shape ≤ rowStride (dim :: shape) := by
      rw [rowStride_cons]
      exact Nat.le_mul_of_pos_left _ (by omega)
    refine List.forall_mem_cons.mpr ⟨hmore, fun stride hmem => ?_⟩
    exact (ih htail stride hmem).trans hmore

/-- The dimensions of a shape that is counted and has contiguous strides are sizes. -/
theorem sized_of_contiguousStrides {shape strides : List Nat} {n : Nat} (hn : productSizes shape = .ok n)
    (h : contiguousStrides shape = .ok strides) : ∀ dim ∈ shape, dim < sizeLimit := by
  cases shape with
  | nil => simp
  | cons dim shape =>
    refine List.forall_mem_cons.mpr ⟨?_, fun other hmem => ?_⟩
    · unfold productSizes at hn
      rw [List.foldlM_cons] at hn
      obtain ⟨first, hfirst, -⟩ := exists_of_bind_eq_ok hn
      obtain ⟨rfl, hsmall⟩ := mulSize_eq_ok_iff.mp hfirst
      rwa [Nat.one_mul] at hsmall
    · exact lt_of_le_of_lt (le_rowStride_of_mem hmem) (rowStride_lt_of_contiguousStrides h)

variable {h : Heap} {b b' : Buffer} {s s' : Store} {start rows length : Nat} {shape dims sizes : List Nat}

namespace Measured

/-- A buffer whose strides are contiguous and whose elements fit into a block. -/
theorem of_contiguousStrides {n : Nat} (hn : b.numel = .ok n) (hstrides : contiguousStrides b.shape = .ok b.strides)
    (hblock : 0 ∉ b.shape → b.shape.prod ≤ blockLimit) : b.Measured := by
  refine ⟨sized_of_contiguousStrides hn hstrides, fun hz stride hmem => ?_⟩
  have hpos : 0 < b.shape.prod := Nat.pos_of_ne_zero fun hzero => hz (List.prod_eq_zero_iff.mp hzero)
  have hstride := stride_le_rowStride hstrides stride hmem
  rw [rowStride_eq hpos] at hstride
  exact hstride.trans (hblock hz)

theorem of_fresh {dtype : ElementType} (hf : Fresh dtype shape s s' b) (hbounded : s'.heap.Bounded) : b.Measured := by
  have hstrides := hf.contiguous
  rw [← hf.shaped] at hstrides
  refine of_contiguousStrides hf.count hstrides fun _ => ?_
  have hblock := hbounded b.block
  rw [hf.size, ← hf.shaped] at hblock
  exact (Nat.le_mul_of_pos_right _ dtype.width_pos).trans hblock

/-- Under another shape, a buffer has the strides of that shape. -/
theorem reshape (hs : b.Sound h) (hbounded : h.Bounded) (hv : b.reshape shape = .ok b') : b'.Measured := by
  obtain ⟨n, strides, -, hn, hshape, hstrides, rfl⟩ := exists_of_reshape hv
  refine of_contiguousStrides hshape hstrides fun hz => ?_
  have hsame : shape.prod = b.shape.prod := by rw [← eq_of_productSizes hshape, eq_of_productSizes hn]
  have hz' : 0 ∉ b.shape := by
    rw [← List.prod_eq_zero_iff, ← hsame, List.prod_eq_zero_iff]
    exact hz
  dsimp only
  rw [hsame]
  exact (hs.prod_le hz').trans (hbounded b.block)

/-- Where rows are left, there were some. -/
theorem narrow {start length : Nat} (hm : b.Measured) (hv : b.narrow start length = .ok b') : b'.Measured := by
  obtain ⟨rows, dims, hshape, hin, rfl⟩ := exists_of_narrow hv
  have hsized := hm.sized
  rw [hshape] at hsized
  obtain ⟨hrows, hdims⟩ := List.forall_mem_cons.mp hsized
  refine ⟨?_, fun hz => hm.near fun hz' => hz ?_⟩
  · rw [band, hshape]
    exact List.forall_mem_cons.mpr ⟨by omega, hdims⟩
  · rw [band, hshape]
    rw [hshape] at hz'
    rcases List.mem_cons.mp hz' with hzero | hrest
    · exact List.mem_cons.mpr (.inl (by omega))
    · exact List.mem_cons_of_mem length hrest

theorem transpose {dim0 dim1 : Nat} (hm : b.Measured) (hr : b.shape.length = b.strides.length)
    (hv : b.transpose dim0 dim1 = .ok b') : b'.Measured := by
  obtain ⟨_, hcheck, hv⟩ := exists_of_bind_eq_ok hv
  cases hv
  have hdims := of_require hcheck
  rw [Bool.and_eq_true, decide_eq_true_iff, decide_eq_true_iff] at hdims
  obtain ⟨hi, hj⟩ := hdims
  refine ⟨fun dim hmem => ?_, fun hz stride hmem => ?_⟩
  · exact hm.sized dim ((Sound.swapped_perm hi hj).mem_iff.mp hmem)
  · have hz' : 0 ∉ b.shape := fun hzero => hz ((Sound.swapped_perm hi hj).mem_iff.mpr hzero)
    exact hm.near hz' stride ((Sound.swapped_perm (hr ▸ hi) (hr ▸ hj)).mem_iff.mp hmem)

theorem of_flat (hb : b.Flat length) (hsmall : length < sizeLimit) : b.Measured := by
  refine ⟨?_, fun _ => ?_⟩
  · rw [hb.shaped]
    simpa using hsmall
  · rw [hb.strided]
    decide

end Measured

/-! ## Bands -/

/-- Bands of the given lengths, each beginning where the one before it ends. -/
def bands (b : Buffer) (start : Nat) : List Nat → List Buffer
  | [] => []
  | size :: sizes => b.band start size :: b.bands (start + size) sizes

/-- The offsets of the elements of one row. -/
def rowOffsets (b : Buffer) (i : Nat) : List Nat :=
  offsetsFrom (b.offset + i * b.strides.headD 0) (b.shape.tail.zip b.strides.tail)

theorem length_bands (b : Buffer) (start : Nat) (sizes : List Nat) : (b.bands start sizes).length = sizes.length := by
  induction sizes generalizing start with
  | nil => rfl
  | cons size sizes ih => rw [bands, List.length_cons, ih, List.length_cons]

theorem getElem?_bands (b : Buffer) (start : Nat) (sizes : List Nat) (i : Nat) :
    (b.bands start sizes)[i]? = sizes[i]?.map (b.band (start + (sizes.take i).sum)) := by
  induction sizes generalizing start i with
  | nil => rfl
  | cons size sizes ih =>
    cases i with
    | zero => rfl
    | succ i =>
      rw [bands, List.getElem?_cons_succ, ih, List.getElem?_cons_succ, List.take_succ_cons, List.sum_cons,
        Nat.add_assoc]

theorem band_whole (hshape : b.shape = rows :: dims) : b.band 0 rows = b := by
  unfold band
  rw [Nat.zero_mul, Nat.add_zero, hshape, List.tail_cons, ← hshape]

/-- The elements of a band are those of its rows. -/
theorem offsets_band (hr : b.shape.length = b.strides.length) (hshape : b.shape = rows :: dims) (start length : Nat) :
    (b.band start length).offsets = (List.range' start length).flatMap b.rowOffsets := by
  obtain ⟨stride, others, hstrides⟩ := exists_strides hr hshape
  have hplace (i : Nat) : b.offset + start * stride + i * stride = b.offset + (start + i) * stride := by
    rw [Nat.add_mul, Nat.add_assoc]
  rw [offsets_eq (ranked_band hr hshape start length), shape_band hshape, List.range'_eq_map_range, List.flatMap_map]
  simp only [band, rowOffsets, hshape, hstrides, List.tail_cons, List.headD_cons, List.zip_cons_cons, offsetsFrom, hplace]

/-- The elements of adjacent bands, one band after the other, are those of all their rows. -/
theorem flatMap_offsets_bands (hr : b.shape.length = b.strides.length) (hshape : b.shape = rows :: dims) (start : Nat)
    (sizes : List Nat) : (b.bands start sizes).flatMap offsets = (b.band start sizes.sum).offsets := by
  induction sizes generalizing start with
  | nil => rw [offsets_band hr hshape]; rfl
  | cons size sizes ih =>
    rw [bands, List.flatMap_cons, ih, offsets_band hr hshape, offsets_band hr hshape, offsets_band hr hshape,
      ← List.flatMap_append, List.range'_append_1, List.sum_cons]

/-! ## Splitting -/

/-- Where the bands of some sizes begin is computed without overflow. -/
def StartsFit (b : Buffer) (sizes : List Nat) : Prop :=
  ∀ start ∈ places sizes, b.offset + start * b.strides.headD 0 < sizeLimit

private theorem splitFrom_eq_ok (hshape : b.shape = rows :: dims) (hin : start + sizes.sum ≤ rows)
    (hsized : rows < sizeLimit)
    (hfits : ∀ place ∈ places sizes, b.offset + (start + place) * b.strides.headD 0 < sizeLimit) :
    b.splitFrom start sizes = .ok (b.bands start sizes) := by
  induction sizes generalizing start with
  | nil => rfl
  | cons size sizes ih =>
    rw [List.sum_cons] at hin
    rw [places_cons] at hfits
    obtain ⟨hfirst, hrest⟩ := List.forall_mem_cons.mp hfits
    rw [Nat.add_zero] at hfirst
    have hnext : addSize start size = .ok (start + size) := addSize_eq_ok (by omega)
    have hlater : ∀ place ∈ places sizes, b.offset + (start + size + place) * b.strides.headD 0 < sizeLimit := by
      intro place hmem
      rw [Nat.add_assoc]
      exact hrest _ (List.mem_map_of_mem hmem)
    rw [splitFrom, narrow_eq_ok hshape (by omega) hsized hfirst, ok_bind, lift_size_bind hnext, ih (by omega) hlater]
    rfl

/-- All rows are split into bands of the sizes asked for. -/
theorem split_eq_ok (hshape : b.shape = rows :: dims) (hsum : sizes.sum = rows) (hsized : rows < sizeLimit)
    (hfits : b.StartsFit sizes) : b.split sizes = .ok (b.bands 0 sizes) := by
  have htotal : require (sizes.sum == rows) (.splitTotal sizes.sum rows) = .ok () := if_pos (beq_iff_eq.mpr hsum)
  have hstart : ∀ place ∈ places sizes, b.offset + (0 + place) * b.strides.headD 0 < sizeLimit := by
    simpa only [Nat.zero_add, StartsFit] using hfits
  unfold split
  rw [lift_size_bind (sumSizes_eq_ok (hsum ▸ hsized)), leadingDim_eq hshape, ok_bind, htotal, ok_bind,
    splitFrom_eq_ok hshape (by omega) hsized hstart]

/-- Sizes that do not add up to the rows are refused. -/
theorem split_of_total (hshape : b.shape = rows :: dims) (hsum : sizes.sum ≠ rows) (hsmall : sizes.sum < sizeLimit) :
    b.split sizes = .error (.error (.validation (.splitTotal sizes.sum rows))) := by
  have htotal : require (sizes.sum == rows) (.splitTotal sizes.sum rows) =
      .error (.error (.validation (.splitTotal sizes.sum rows))) := if_neg fun he => hsum (beq_iff_eq.mp he)
  unfold split
  rw [lift_size_bind (sumSizes_eq_ok hsmall), leadingDim_eq hshape, ok_bind, htotal]
  rfl

/-- The rows of a buffer with elements begin at elements. -/
theorem row_mem_offsets (hr : b.shape.length = b.strides.length) (hshape : b.shape = rows :: dims) (hsome : b.count ≠ 0)
    (hstart : start < rows) : b.offset + start * b.strides.headD 0 ∈ b.offsets := by
  have hz : 0 ∉ (b.band start 1).shape := by
    intro hz
    rw [band, hshape, List.tail_cons] at hz
    refine hsome (List.prod_eq_zero ?_)
    rw [hshape]
    exact List.mem_cons_of_mem rows ((List.mem_cons.mp hz).resolve_left Nat.zero_ne_one)
  have hfirst : b.offset + start * b.strides.headD 0 ∈ (b.band start 1).offsets := offset_mem_offsets hz
  have hall := offsets_band hr hshape 0 rows
  rw [band_whole hshape] at hall
  rw [offsets_band hr hshape] at hfirst
  obtain ⟨i, hi, hmem⟩ := List.mem_flatMap.mp hfirst
  rw [hall]
  refine List.mem_flatMap.mpr ⟨i, ?_, hmem⟩
  rw [List.mem_range'_1] at hi ⊢
  omega

/-- The last row of a buffer with elements begins within a block, and one more row is no longer than a block. -/
theorem Sound.rows_fit (hs : b.Sound h) (hbounded : h.Bounded) (hm : b.Measured) (hshape : b.shape = rows :: dims)
    (hsome : b.count ≠ 0) : b.offset + rows * b.strides.headD 0 < sizeLimit := by
  have hz : 0 ∉ b.shape := fun hz => hsome (List.prod_eq_zero hz)
  obtain ⟨stride, others, hstrides⟩ := exists_strides hs.ranked hshape
  have hstride : stride ≤ blockLimit := by
    apply hm.near hz
    rw [hstrides]
    exact List.mem_cons_self
  rw [hshape, List.mem_cons, not_or] at hz
  obtain ⟨last, rfl⟩ := Nat.exists_eq_succ_of_ne_zero (Ne.symm hz.1)
  have hinside := hs.inside _ (row_mem_offsets hs.ranked hshape hsome (Nat.lt_succ_self last))
  have hwidth := Nat.le_mul_of_pos_right (b.offset + last * b.strides.headD 0 + 1) b.dtype.width_pos
  have hblock := hbounded b.block
  have hlimit : 2 * blockLimit < sizeLimit := by decide
  rw [hstrides, List.headD_cons] at hwidth hinside ⊢
  rw [Nat.succ_mul]
  omega

end Buffer

/-! ## Held buffers -/

/-- Dimensions and strides of buffers that are held are sizes, however the buffers were made. -/
theorem Holding.measured {s : Store} {held : List Buffer} (hheld : Holding s held) : ∀ b ∈ held, b.Measured := by
  induction hheld with
  | nothing hbounded => simp
  | zeros hheld h ih =>
    have hbounded := (Holding.zeros hheld h).tenancy.bounded
    exact List.forall_mem_cons.mpr ⟨.of_fresh (Buffer.zeros_run h) hbounded, ih⟩
  | empty hheld h ih =>
    have hbounded := (Holding.empty hheld h).tenancy.bounded
    exact List.forall_mem_cons.mpr ⟨.of_fresh (Buffer.zeros_run h) hbounded, ih⟩
  | ofWords hheld h ih =>
    have hbounded := (Holding.ofWords hheld h).tenancy.bounded
    exact List.forall_mem_cons.mpr ⟨.of_fresh (Buffer.ofWords_run h) hbounded, ih⟩
  | flatLike hheld hsub h ih =>
    have hbounded := (Holding.flatLike hheld hsub h).tenancy.bounded
    obtain ⟨first, rest, -, hfresh⟩ := Buffer.flatLike_run h
    exact List.forall_mem_cons.mpr ⟨.of_fresh hfresh hbounded, ih⟩
  | @view s held v b b' hheld hmem hv ih =>
    have hs := hheld.tenancy.sound b hmem
    have hbounded := hheld.tenancy.bounded
    have hm := ih b hmem
    refine List.forall_mem_cons.mpr ⟨?_, ih⟩
    cases v with
    | whole =>
      cases hv
      exact hm
    | shaped shape => exact .reshape hs hbounded hv
    | flat =>
      obtain ⟨numel, -, hv⟩ := exists_of_lift_bind hv
      exact .reshape hs hbounded hv
    | rows start length => exact hm.narrow hv
    | transposed dim0 dim1 => exact hm.transpose hs.ranked hv
    | layout kind =>
      cases hv
      exact ⟨hm.sized, hm.near⟩
    | device place =>
      cases hv
      exact ⟨hm.sized, hm.near⟩
  | parts hheld hmem hv ih =>
    refine fun c hc => (List.mem_append.mp hc).elim (fun hpart => ?_) (ih c)
    obtain ⟨start, length, hnarrow⟩ := Buffer.exists_narrow_of_split hv c hpart
    exact (ih _ hmem).narrow hnarrow
  | region hheld hsub h ih =>
    have hl := FlatLayout.reconcile_stands h
    exact List.forall_mem_cons.mpr ⟨.of_flat hl.flat hl.small, ih⟩
  | among hheld hsub ih => exact fun b hb => ih b (hsub hb)
  | later hheld hx ih => exact ih

/-- Where the rows of a held buffer begin is computed without overflow, unless it has no elements. -/
theorem Holding.startsFit {s : Store} {held : List Buffer} {b : Buffer} {rows : Nat} {dims sizes : List Nat}
    (hheld : Holding s held) (hb : b ∈ held) (hshape : b.shape = rows :: dims) (hsum : sizes.sum = rows)
    (hfits : b.count = 0 → b.StartsFit sizes) : b.StartsFit sizes := by
  have ht := hheld.tenancy
  by_cases hsome : b.count = 0
  · exact hfits hsome
  · have hrows := (ht.sound b hb).rows_fit ht.bounded (hheld.measured b hb) hshape hsome
    intro start hmem
    have hstart := le_sum_of_mem_places hmem
    rw [hsum] at hstart
    have hplace := Nat.mul_le_mul_right (b.strides.headD 0) hstart
    omega

/-- Splitting a held buffer by sizes that add up to its rows makes one part for each size, with so many of its rows, in
its own block. The elements of the parts, one part after the other, are the elements of the buffer in their order. Sizes
that add up to anything else are refused. -/
theorem Holding.split_partitions {s : Store} {held : List Buffer} {b : Buffer} {rows : Nat} {dims : List Nat}
    (hheld : Holding s held) (hb : b ∈ held) (hshape : b.shape = rows :: dims) (sizes : List Nat) :
    (sizes.sum = rows → (b.count = 0 → b.StartsFit sizes) → ∃ parts : List Buffer, b.split sizes = .ok parts ∧
      parts.length = sizes.length ∧
      (∀ (i size : Nat), sizes[i]? = some size → ∃ part, parts[i]? = some part ∧ b.Beside part ∧ part.shape = size :: dims ∧
        part.strides = b.strides) ∧
      parts.flatMap Buffer.offsets = b.offsets) ∧
      (sizes.sum ≠ rows → sizes.sum < sizeLimit →
        b.split sizes = .error (.error (.validation (.splitTotal sizes.sum rows)))) := by
  have hs := hheld.tenancy.sound b hb
  have hsized : rows < sizeLimit := by
    apply (hheld.measured b hb).sized
    rw [hshape]
    exact List.mem_cons_self
  refine ⟨fun hsum hfits => ?_, Buffer.split_of_total hshape⟩
  have hstarts := hheld.startsFit hb hshape hsum hfits
  refine ⟨b.bands 0 sizes, Buffer.split_eq_ok hshape hsum hsized hstarts, b.length_bands 0 sizes, ?_, ?_⟩
  · intro i size hsize
    refine ⟨b.band (0 + (sizes.take i).sum) size, ?_, ⟨rfl, rfl⟩, ?_, rfl⟩
    · rw [Buffer.getElem?_bands, hsize, Option.map_some]
    · rw [Buffer.band, hshape, List.tail_cons]
  · rw [Buffer.flatMap_offsets_bands hs.ranked hshape, hsum, Buffer.band_whole hshape]

/-- The columns of a table, split into the first one, none, and the other two. -/
theorem Holding.split_partitions_columns :
    ∃ (s : Store) (columns : Buffer), Holding s [columns] ∧ columns.shape = [3, 2] ∧ columns.strides = [1, 3] ∧
      (∃ parts, columns.split [1, 0, 2] = .ok parts ∧ parts.length = 3 ∧
        parts.flatMap Buffer.offsets = [0, 3, 1, 4, 2, 5]) ∧
      columns.split [1, 1] = .error (.error (.validation (.splitTotal 2 3))) := by
  let table : Buffer := { block := 0, dtype := .i16, shape := [2, 3], strides := [3, 1], offset := 0 }
  let columns : Buffer := { table with shape := [3, 2], strides := [1, 3] }
  let s : Store := { heap := { blocks := #[#[1, 0, 2, 0, 3, 0, 4, 0, 5, 0, 6, 0]] } }
  have hbounded : Heap.Bounded {} := fun block => Nat.zero_le _
  have htable : (Buffer.ofWords .i16 [1, 2, 3, 4, 5, 6] [2, 3]).run {} = (.ok table, s) := rfl
  have hcolumns : (View.transposed 0 1).of table = .ok columns := rfl
  have hviews : Holding s [columns, table] := .view (.ofWords (.nothing hbounded) htable) (by decide) hcolumns
  have hheld : Holding s [columns] := .among hviews (by decide)
  have hmem : columns ∈ [columns] := by decide
  have hsome : columns.count = 0 → columns.StartsFit [1, 0, 2] := fun hzero => absurd hzero (by decide)
  obtain ⟨hsplit, -⟩ := hheld.split_partitions hmem rfl [1, 0, 2]
  obtain ⟨-, hrefused⟩ := hheld.split_partitions hmem rfl [1, 1]
  obtain ⟨parts, hparts, hlength, -, hoffsets⟩ := hsplit rfl hsome
  exact ⟨s, columns, hheld, rfl, rfl, ⟨parts, hparts, hlength, hoffsets⟩, hrefused (by decide) (by decide)⟩

end Collectives
