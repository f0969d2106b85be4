import Collectives.Memory.View
import Collectives.Proofs.Locality
import Collectives.Proofs.Odometer
import Collectives.Proofs.Regions

/-!
# Views stay inside their block

A buffer is `Sound` if its elements are distinct and their bytes lie in the block it views. New buffers are
sound, every way to make a buffer out of a sound one makes a sound one, and soundness is kept by whatever
happens to memory later. So every buffer that can be `Obtained` is sound: it has exactly as many offsets as
elements, no two elements share a byte, and nothing that is read or written through it leaves the block.
-/

namespace Collectives

/-- The bytes of all elements lie in the block, and no two elements are the same. -/
structure Buffer.Sound (h : Heap) (b : Buffer) : Prop where
  /-- Every dimension has its stride. -/
  ranked : b.shape.length = b.strides.length
  distinct : b.offsets.Nodup
  inside : ∀ i ∈ b.offsets, (i + 1) * b.dtype.width ≤ h.blockSize b.block

/-- The `length` bytes from an address on lie in the block that the buffer views. -/
def Buffer.Encloses (h : Heap) (b : Buffer) (a : Address) (length : Nat) : Prop :=
  a.block = some b.block ∧ a.pos + length ≤ h.blockSize b.block

/-- Where an element lies. -/
def Buffer.place (b : Buffer) (i : Nat) : Address := { block := some b.block, pos := i * b.dtype.width }

namespace Buffer

variable {h h' : Heap} {b : Buffer} {n : Nat}

theorem offsets_of_mem (hz : 0 ∈ b.shape) : b.offsets = [] := by
  rw [offsets, indices_eq, List.prod_eq_zero hz]
  rfl

theorem zero_mem_iff (hn : b.numel = .ok n) : 0 ∈ b.shape ↔ n = 0 := by
  rw [eq_of_productSizes hn, List.prod_eq_zero_iff]

/-- There is one offset for every element. -/
theorem length_offsets (hr : b.shape.length = b.strides.length) (hn : b.numel = .ok n) :
    b.offsets.length = n := by
  rw [offsets_eq hr, length_offsetsFrom, map_fst_zip hr, eq_of_productSizes hn]

/-- The elements of a row-major buffer lie side by side. -/
theorem offsets_of_gapless (hr : b.shape.length = b.strides.length)
    (hg : gapless 1 (b.shape.zip b.strides).reverse = true) :
    b.offsets = List.range' b.offset b.shape.prod := by
  rw [offsets_eq hr, offsetsFrom_eq_range' hg, map_fst_zip hr]

/-- The test for gaps is exact: it tells whether the elements lie side by side, in row-major order. -/
theorem isContiguous_eq (hr : b.shape.length = b.strides.length) (hn : b.numel = .ok n) :
    b.isContiguous = .ok (decide (b.offsets = List.range' b.offset n)) := by
  unfold isContiguous
  rw [hn, ok_bind]
  by_cases hz : 0 ∈ b.shape
  · have hzero := (zero_mem_iff hn).mp hz
    rw [if_pos hzero, offsets_of_mem hz, hzero, List.range'_zero, decide_eq_true rfl]
    rfl
  · have hsome : 0 ∉ (b.shape.zip b.strides).map Prod.fst := by rwa [map_fst_zip hr]
    have hinterval : b.offsets = List.range' b.offset n ↔ gapless 1 (b.shape.zip b.strides).reverse = true := by
      rw [offsets_eq hr, eq_of_productSizes hn, ← offsetsFrom_eq_range'_iff hsome, map_fst_zip hr]
    simp only [if_neg fun he => hz ((zero_mem_iff hn).mpr he), hinterval, Bool.decide_eq_true, pure_eq_ok]

theorem isContiguous_of_empty (hn : b.numel = .ok 0) : b.isContiguous = .ok true := by
  unfold isContiguous
  rw [hn]
  rfl

/-- The elements of a contiguous buffer lie side by side. -/
theorem offsets_of_isContiguous (hr : b.shape.length = b.strides.length) (hn : b.numel = .ok n)
    (hc : b.isContiguous = .ok true) : b.offsets = List.range' b.offset n := by
  rw [isContiguous_eq hr hn] at hc
  exact of_decide_eq_true (Except.ok.inj hc)

/-- Only a contiguous buffer is given another shape, of as many elements, and it then has the strides of that shape. -/
theorem exists_of_reshape {shape : List Nat} {b' : Buffer} (hv : b.reshape shape = .ok b') :
    ∃ n strides, b.isContiguous = .ok true ∧ b.numel = .ok n ∧ productSizes shape = .ok n ∧
      contiguousStrides shape = .ok strides ∧ b' = { b with shape, strides } := by
  obtain ⟨contiguous, hc, hv⟩ := exists_of_lift_bind hv
  obtain ⟨_, hcheck, hv⟩ := exists_of_bind_eq_ok hv
  obtain ⟨numel, hnumel, hv⟩ := exists_of_lift_bind hv
  obtain ⟨held, hheld, hv⟩ := exists_of_lift_bind hv
  obtain ⟨_, hsame, hv⟩ := exists_of_bind_eq_ok hv
  obtain ⟨strides, hstrides, hv⟩ := exists_of_lift_bind hv
  cases hv
  obtain rfl : numel = held := eq_of_beq (of_require hsame)
  rw [of_require hcheck] at hc
  exact ⟨numel, strides, hc, hheld, hnumel, hstrides, rfl⟩

/-! ## Bands of rows -/

/-- Some consecutive rows. -/
def band (b : Buffer) (start length : Nat) : Buffer :=
  { b with shape := length :: b.shape.tail, offset := b.offset + start * b.strides.headD 0 }

theorem shape_band {rows : Nat} {dims : List Nat} (hshape : b.shape = rows :: dims) (start length : Nat) :
    (b.band start length).shape = length :: dims := by
  rw [band, hshape, List.tail_cons]

theorem ranked_band {rows : Nat} {dims : List Nat} (hr : b.shape.length = b.strides.length)
    (hshape : b.shape = rows :: dims) (start length : Nat) :
    (b.band start length).shape.length = (b.band start length).strides.length := by
  rw [shape_band hshape, band, ← hr, hshape, List.length_cons, List.length_cons]

/-- Rows have a stride. -/
theorem exists_strides {rows : Nat} {dims : List Nat} (hr : b.shape.length = b.strides.length)
    (hshape : b.shape = rows :: dims) : ∃ stride others, b.strides = stride :: others := by
  rw [hshape] at hr
  exact List.exists_cons_of_length_eq_add_one hr.symm

theorem leadingDim_eq {rows : Nat} {dims : List Nat} (hshape : b.shape = rows :: dims) : b.leadingDim = .ok rows := by
  unfold leadingDim
  rw [hshape]

/-- Rows are taken if there are as many and their place is a size. -/
theorem narrow_eq_ok {rows start length : Nat} {dims : List Nat} (hshape : b.shape = rows :: dims)
    (hin : start + length ≤ rows) (hsized : rows < sizeLimit)
    (hfits : b.offset + start * b.strides.headD 0 < sizeLimit) : b.narrow start length = .ok (b.band start length) := by
  have hstop : addSize start length = .ok (start + length) := addSize_eq_ok (by omega)
  have hrange : require (decide (start + length ≤ rows)) (.rowRange start (start + length) rows) = .ok () :=
    if_pos (decide_eq_true hin)
  unfold narrow
  rw [leadingDim_eq hshape, ok_bind, lift_size_bind hstop, hrange, ok_bind, lift_size_bind (mulSize_eq_ok (by omega)),
    lift_size_bind (addSize_eq_ok hfits)]
  rfl

/-- Only rows that are there are taken. -/
theorem exists_of_narrow {start length : Nat} {b' : Buffer} (hv : b.narrow start length = .ok b') :
    ∃ rows dims, b.shape = rows :: dims ∧ start + length ≤ rows ∧ b' = b.band start length := by
  obtain ⟨rows, hrows, hv⟩ := exists_of_bind_eq_ok hv
  obtain ⟨stop, hstop, hv⟩ := exists_of_lift_bind hv
  obtain ⟨_, hcheck, hv⟩ := exists_of_bind_eq_ok hv
  obtain ⟨skipped, hskipped, hv⟩ := exists_of_lift_bind hv
  obtain ⟨offset, hoffset, hv⟩ := exists_of_lift_bind hv
  cases hv
  cases hshape : b.shape with
  | nil =>
    rw [leadingDim, hshape] at hrows
    cases hrows
  | cons first dims =>
    rw [leadingDim_eq hshape] at hrows
    cases hrows
    refine ⟨rows, dims, rfl, ?_, ?_⟩
    · rw [← (addSize_eq_ok_iff.mp hstop).1]
      exact of_decide_eq_true (of_require hcheck)
    · rw [band, hshape, (addSize_eq_ok_iff.mp hoffset).1, (mulSize_eq_ok_iff.mp hskipped).1]

private theorem exists_narrow_of_splitFrom {sizes : List Nat} {start : Nat} {parts : List Buffer}
    (hv : b.splitFrom start sizes = .ok parts) : ∀ part ∈ parts, ∃ first length, b.narrow first length = .ok part := by
  induction sizes generalizing start parts with
  | nil =>
    cases hv
    simp
  | cons size sizes ih =>
    obtain ⟨part, hpart, hv⟩ := exists_of_bind_eq_ok hv
    obtain ⟨next, -, hv⟩ := exists_of_lift_bind hv
    obtain ⟨rest, hrest, hv⟩ := exists_of_bind_eq_ok hv
    cases hv
    exact List.forall_mem_cons.mpr ⟨⟨start, size, hpart⟩, ih hrest⟩

/-- Each part of a buffer that is split is some of its rows. -/
theorem exists_narrow_of_split {sizes : List Nat} {parts : List Buffer} (hv : b.split sizes = .ok parts) :
    ∀ part ∈ parts, ∃ start length, b.narrow start length = .ok part := by
  obtain ⟨total, -, hv⟩ := exists_of_lift_bind hv
  obtain ⟨rows, -, hv⟩ := exists_of_bind_eq_ok hv
  obtain ⟨_, -, hv⟩ := exists_of_bind_eq_ok hv
  exact exists_narrow_of_splitFrom hv

namespace Sound

theorem later (hs : b.Sound h) (hx : h.Extends h') : b.Sound h' := by
  refine ⟨hs.ranked, hs.distinct, fun i hi => ?_⟩
  have hpos : 0 < (i + 1) * b.dtype.width := Nat.mul_pos (Nat.succ_pos i) b.dtype.width_pos
  exact hx.le_blockSize hpos (hs.inside i hi)

/-- A row-major buffer is sound if the last of its elements is in the block. -/
theorem of_rowMajor (hr : b.shape.length = b.strides.length)
    (hg : 0 ∉ b.shape → gapless 1 (b.shape.zip b.strides).reverse = true)
    (hin : 0 ∉ b.shape → (b.offset + b.shape.prod) * b.dtype.width ≤ h.blockSize b.block) : b.Sound h := by
  by_cases hz : 0 ∈ b.shape
  · refine ⟨hr, ?_, ?_⟩
    · rw [offsets_of_mem hz]
      exact List.nodup_nil
    · rw [offsets_of_mem hz]
      simp
  · have hoffsets := offsets_of_gapless hr (hg hz)
    refine ⟨hr, ?_, fun i hi => ?_⟩
    · rw [hoffsets]
      exact List.nodup_range'
    · rw [hoffsets, List.mem_range'_1] at hi
      exact (Nat.mul_le_mul_right _ hi.2).trans (hin hz)

/-- A contiguous buffer with elements ends in its block. -/
theorem contiguous_inside (hs : b.Sound h) (hn : b.numel = .ok n) (hc : b.isContiguous = .ok true)
    (hpos : 0 < n) : (b.offset + n) * b.dtype.width ≤ h.blockSize b.block := by
  have hoffsets := offsets_of_isContiguous hs.ranked hn hc
  have hlast : b.offset + (n - 1) ∈ b.offsets := by
    rw [hoffsets, List.mem_range'_1]
    omega
  have hend := hs.inside _ hlast
  rwa [show b.offset + (n - 1) + 1 = b.offset + n by omega] at hend

/-! ## New buffers and regions -/

/-- A new buffer fills its block. -/
theorem of_fresh {dtype : ElementType} {shape : List Nat} {s s' : Store} (hf : Fresh dtype shape s s' b) :
    b.Sound s'.heap := by
  have hlength := length_of_contiguousStrides hf.contiguous
  refine of_rowMajor ?_ (fun hz => ?_) fun _ => ?_
  · rw [hf.shaped, hlength]
  · rw [hf.shaped] at hz ⊢
    exact gapless_of_contiguousStrides hf.contiguous hz
  · rw [hf.first, hf.shaped, hf.typed, hf.size, Nat.zero_add]

theorem extent {length : Nat} {region : Buffer} (hr : b.extent h length = .ok region) : region.Sound h := by
  obtain ⟨rfl, hin⟩ := extent_eq_ok hr
  refine of_rowMajor rfl (fun _ => by simp [gapless]) fun hz => ?_
  rw [List.prod_singleton]
  exact hin fun he => hz (he ▸ List.mem_singleton_self _)

/-- The region of some buffers is a stretch of one of their blocks, or new. -/
theorem region {buffers : List Buffer} {s s' : Store} {l : FlatLayout}
    (hr : (FlatLayout.reconcile buffers).run s = (.ok l, s')) : l.region.Sound s'.heap := by
  obtain ⟨anchor, hl⟩ := FlatLayout.reconcile_run hr
  rcases hl.region with ⟨hextent, hheap⟩ | ⟨s₁, hfresh, hheap⟩
  · rw [hheap]
    exact .extent hextent
  · rw [hheap]
    exact .of_fresh hfresh

/-! ## Views -/

/-- Only a contiguous buffer can be reshaped, and it becomes row-major. -/
theorem reshape {shape : List Nat} {b' : Buffer} (hs : b.Sound h) (hv : b.reshape shape = .ok b') :
    b'.Sound h := by
  obtain ⟨n, strides, hc, hn, hshape, hstrides, rfl⟩ := exists_of_reshape hv
  have hprod : n = shape.prod := eq_of_productSizes hshape
  refine of_rowMajor (length_of_contiguousStrides hstrides).symm
    (fun hz => gapless_of_contiguousStrides hstrides hz) fun hz => ?_
  have hpos : 0 < n := by
    rw [hprod]
    exact Nat.pos_of_ne_zero fun he => hz (List.prod_eq_zero_iff.mp he)
  have hend := hs.contiguous_inside hn hc hpos
  rwa [hprod] at hend

/-- A view of some of the elements of a sound buffer, in any order, is sound. -/
private theorem of_subperm {b' : Buffer} (hs : b.Sound h) (hr : b'.shape.length = b'.strides.length)
    (hsub : b'.offsets.Subperm b.offsets) (hb : b'.block = b.block) (ht : b'.dtype = b.dtype) : b'.Sound h := by
  refine ⟨hr, ?_, fun i hi => ?_⟩
  · obtain ⟨offsets, hperm, hsublist⟩ := hsub
    exact hperm.nodup_iff.mp (hs.distinct.sublist hsublist)
  · rw [hb, ht]
    exact hs.inside i (hsub.subset hi)

/-- The rows that are left are some of the rows. -/
theorem narrow {start length : Nat} {b' : Buffer} (hs : b.Sound h) (hv : b.narrow start length = .ok b') :
    b'.Sound h := by
  obtain ⟨rows, shape, hshape, hin, rfl⟩ := exists_of_narrow hv
  obtain ⟨stride, strides, hstrides⟩ := exists_strides hs.ranked hshape
  have hranked := ranked_band hs.ranked hshape start length
  refine hs.of_subperm hranked ?_ rfl rfl
  rw [offsets_eq hranked, offsets_eq hs.ranked, band, hshape, hstrides]
  exact (offsetsFrom_sublist hin).subperm

private theorem zip_set (xs ys : List Nat) (i x y : Nat) :
    (xs.set i x).zip (ys.set i y) = (xs.zip ys).set i (x, y) := by
  induction xs generalizing ys i with
  | nil => simp
  | cons first xs ih =>
    cases ys with
    | nil => simp
    | cons second ys =>
      cases i with
      | zero => rfl
      | succ i => simp [ih]

/-- Swapping dimensions and strides alike swaps the cells. -/
theorem zip_swapped_perm {shape strides : List Nat} {i j : Nat} (hr : shape.length = strides.length)
    (hi : i < shape.length) (hj : j < shape.length) :
    ((swapped shape i j).zip (swapped strides i j)).Perm (shape.zip strides) := by
  have hzip : (shape.zip strides).length = shape.length := by rw [List.length_zip, ← hr, min_self]
  have hi' : i < strides.length := hr ▸ hi
  have hj' : j < strides.length := hr ▸ hj
  have hi'' : i < (shape.zip strides).length := hzip.symm ▸ hi
  have hj'' : j < (shape.zip strides).length := hzip.symm ▸ hj
  have hperm := List.set_set_perm hi'' hj''
  rw [List.getElem_zip, List.getElem_zip] at hperm
  rwa [swapped, swapped, List.getD_eq_getElem _ _ hi, List.getD_eq_getElem _ _ hj, List.getD_eq_getElem _ _ hi',
    List.getD_eq_getElem _ _ hj', zip_set, zip_set]

/-- A swap of two entries takes none away and brings none. -/
theorem swapped_perm {xs : List Nat} {i j : Nat} (hi : i < xs.length) (hj : j < xs.length) :
    (swapped xs i j).Perm xs := by
  rw [swapped, List.getD_eq_getElem _ _ hi, List.getD_eq_getElem _ _ hj]
  exact List.set_set_perm hi hj

/-- A transposed buffer has the same elements in another order. -/
theorem transpose {dim0 dim1 : Nat} {b' : Buffer} (hs : b.Sound h) (hv : b.transpose dim0 dim1 = .ok b') :
    b'.Sound h := by
  obtain ⟨_, hcheck, hv⟩ := exists_of_bind_eq_ok hv
  cases hv
  have hdims := of_require hcheck
  rw [Bool.and_eq_true, decide_eq_true_iff, decide_eq_true_iff] at hdims
  obtain ⟨hi, hj⟩ := hdims
  have hranked : (swapped b.shape dim0 dim1).length = (swapped b.strides dim0 dim1).length := by
    simp [swapped, hs.ranked]
  refine hs.of_subperm hranked ?_ rfl rfl
  rw [offsets_eq hranked, offsets_eq hs.ranked]
  exact (offsetsFrom_perm (zip_swapped_perm hs.ranked hi hj)).subperm

theorem flatten {b' : Buffer} (hs : b.Sound h) (hv : b.flatten = .ok b') : b'.Sound h := by
  obtain ⟨numel, -, hv⟩ := exists_of_lift_bind hv
  exact hs.reshape hv

theorem view {v : View} {b' : Buffer} (hs : b.Sound h) (hv : v.of b = .ok b') : b'.Sound h := by
  cases v with
  | whole =>
    cases hv
    exact hs
  | shaped shape => exact hs.reshape hv
  | flat => exact hs.flatten hv
  | rows start length => exact hs.narrow hv
  | transposed dim0 dim1 => exact hs.transpose hv
  | layout kind =>
    cases hv
    exact ⟨hs.ranked, hs.distinct, hs.inside⟩
  | device place =>
    cases hv
    exact ⟨hs.ranked, hs.distinct, hs.inside⟩

theorem split {sizes : List Nat} {parts : List Buffer} (hs : b.Sound h) (hv : b.split sizes = .ok parts) :
    ∀ part ∈ parts, part.Sound h := by
  intro part hmem
  obtain ⟨start, length, hpart⟩ := exists_narrow_of_split hv part hmem
  exact hs.narrow hpart

end Sound

end Buffer

/-! ## Buffers that can be obtained -/

/-- The buffers that a caller can hold: new ones, views and parts of those, and the regions of lists of them. -/
inductive Obtained : Store → Buffer → Prop where
  | zeros {s s' : Store} {dtype : ElementType} {shape : List Nat} {b : Buffer} :
      (Buffer.zeros dtype shape).run s = (.ok b, s') → Obtained s' b
  | empty {s s' : Store} {dtype : ElementType} {b : Buffer} :
      (Buffer.empty dtype).run s = (.ok b, s') → Obtained s' b
  | ofWords {s s' : Store} {dtype : ElementType} {words shape : List Nat} {b : Buffer} :
      (Buffer.ofWords dtype words shape).run s = (.ok b, s') → Obtained s' b
  | flatLike {s s' : Store} {buffers : List Buffer} {b : Buffer} : (∀ c ∈ buffers, Obtained s c) →
      (Buffer.flatLike buffers).run s = (.ok b, s') → Obtained s' b
  | view {s : Store} {v : View} {b b' : Buffer} : Obtained s b → v.of b = .ok b' → Obtained s b'
  | part {s : Store} {sizes : List Nat} {b part : Buffer} {parts : List Buffer} : Obtained s b →
      b.split sizes = .ok parts → part ∈ parts → Obtained s part
  | region {s s' : Store} {buffers : List Buffer} {l : FlatLayout} : (∀ c ∈ buffers, Obtained s c) →
      (FlatLayout.reconcile buffers).run s = (.ok l, s') → Obtained s' l.region
  /-- Whatever happens to memory, the buffer is still held. -/
  | later {s s' : Store} {b : Buffer} : Obtained s b → s.heap.Extends s'.heap → Obtained s' b

/-- Every buffer that a caller can hold is sound. -/
theorem Obtained.sound {s : Store} {b : Buffer} (hb : Obtained s b) : b.Sound s.heap := by
  induction hb with
  | zeros h => exact .of_fresh (Buffer.zeros_run h)
  | empty h => exact .of_fresh (Buffer.zeros_run h)
  | ofWords h => exact .of_fresh (Buffer.ofWords_run h)
  | flatLike _ h =>
    obtain ⟨first, rest, -, hfresh⟩ := Buffer.flatLike_run h
    exact .of_fresh hfresh
  | view _ h ih => exact ih.view h
  | part _ h hpart ih => exact ih.split h _ hpart
  | region _ h => exact .region h
  | later _ hx ih => exact ih.later hx

theorem Buffer.Sound.encloses_place {h : Heap} {b : Buffer} (hs : b.Sound h) {i : Nat} (hi : i ∈ b.offsets) :
    b.Encloses h (b.place i) b.dtype.width := by
  refine ⟨rfl, ?_⟩
  have hinside := hs.inside i hi
  rwa [Nat.succ_mul] at hinside

/-! ## Room for elements -/

/-- The block has room for `n` elements from the buffer's first one on. -/
def Buffer.Room (h : Heap) (b : Buffer) (n : Nat) : Prop :=
  0 < n → (b.offset + n) * b.dtype.width ≤ h.blockSize b.block

namespace Buffer.Room

variable {h h' : Heap} {b : Buffer} {n : Nat}

theorem later (hb : b.Room h n) (hx : h.Extends h') : b.Room h' n := by
  intro hpos
  have hbytes : 0 < (b.offset + n) * b.dtype.width := Nat.mul_pos (by omega) b.dtype.width_pos
  exact hx.le_blockSize hbytes (hb hpos)

theorem of_sound (hs : b.Sound h) (hn : b.numel = .ok n) (hc : b.isContiguous = .ok true) : b.Room h n :=
  hs.contiguous_inside hn hc

theorem of_fresh {dtype : ElementType} {shape : List Nat} {s s' : Store} (hf : Fresh dtype shape s s' b) :
    b.Room s'.heap shape.prod := by
  intro _
  rw [hf.size, hf.first, hf.typed, Nat.zero_add]

/-- The region of a list of buffers has room for all of them and the type of one of them. -/
theorem of_reconcile {buffers : List Buffer} {s s' : Store} {l : FlatLayout}
    (hr : (FlatLayout.reconcile buffers).run s = (.ok l, s')) :
    l.region.Room s'.heap l.lengths.sum ∧ ∃ c ∈ buffers, l.region.dtype = c.dtype := by
  obtain ⟨anchor, hl⟩ := FlatLayout.reconcile_run hr
  rcases hl.region with ⟨hextent, hheap⟩ | ⟨s₁, hfresh, hheap⟩
  · obtain ⟨hregion, hin⟩ := Buffer.extent_eq_ok hextent
    rw [hregion, hheap]
    refine ⟨fun hpos => hin (by omega), anchor, hl.among, rfl⟩
  · rw [hheap]
    have hroom := of_fresh hfresh
    rw [List.prod_singleton] at hroom
    exact ⟨hroom, anchor, hl.among, hfresh.typed⟩

/-- Elements within the room are inside the block. -/
theorem encloses_advance (hb : b.Room h n) {a : Address} (ha : b.address h = .ok a) {place count : Nat}
    (hin : place + count ≤ n) (hpos : 0 < count) :
    b.Encloses h (a.advance (place * b.dtype.width)) (count * b.dtype.width) := by
  have hroom := hb (by omega)
  have hbytes : 0 < (b.offset + n) * b.dtype.width := Nat.mul_pos (by omega) b.dtype.width_pos
  unfold address at ha
  rw [if_neg (by omega)] at ha
  obtain ⟨pos, hp, ha⟩ := exists_of_bind_eq_ok ha
  cases ha
  refine ⟨rfl, ?_⟩
  simp only [Address.advance]
  rw [(mulSize_eq_ok_iff.mp hp).1, ← Nat.add_mul, ← Nat.add_mul]
  exact (Nat.mul_le_mul_right _ (by omega)).trans hroom

theorem encloses (hb : b.Room h n) {a : Address} (ha : b.address h = .ok a) {count : Nat} (hin : count ≤ n)
    (hpos : 0 < count) : b.Encloses h a (count * b.dtype.width) := by
  have hstart : 0 + count ≤ n := by omega
  have hfirst := hb.encloses_advance ha hstart hpos
  rwa [Nat.zero_mul] at hfirst

end Buffer.Room

/-- Different elements have no byte in common. -/
theorem Buffer.place_apart {b : Buffer} {i j block pos : Nat} (hne : i ≠ j)
    (hi : (b.place i).Covers b.dtype.width block pos) : ¬(b.place j).Covers b.dtype.width block pos := by
  rintro ⟨-, hj, hj'⟩
  obtain ⟨-, hi, hi'⟩ := hi
  simp only [place, ← Nat.succ_mul] at hi hi' hj hj'
  have hij : i < j + 1 := Nat.lt_of_mul_lt_mul_right (lt_of_le_of_lt hi hj')
  have hji : j < i + 1 := Nat.lt_of_mul_lt_mul_right (lt_of_le_of_lt hj hi')
  omega

/-! ## What is read and written through a buffer -/

/-- The place is one of the bytes of an element. -/
def Buffer.Holds (b : Buffer) (block pos : Nat) : Prop :=
  ∃ i ∈ b.offsets, (b.place i).Covers b.dtype.width block pos

/-- A buffer holds bytes of its own block only. -/
theorem Buffer.Holds.block_eq {b : Buffer} {block pos : Nat} (hh : b.Holds block pos) : block = b.block := by
  obtain ⟨i, -, hblock, -⟩ := hh
  exact (Option.some.inj hblock).symm

/-- Two memories have the same bytes except in the elements of a buffer. -/
def Buffer.Frame (b : Buffer) (h h' : Heap) : Prop :=
  ∀ block pos, ¬b.Holds block pos → h'.byte? block pos = h.byte? block pos

theorem Buffer.Frame.refl (b : Buffer) (h : Heap) : b.Frame h h := fun _ _ _ => rfl

theorem Buffer.Frame.trans {b : Buffer} {h h' h'' : Heap} (h₁ : b.Frame h h') (h₂ : b.Frame h' h'') :
    b.Frame h h'' := fun block pos hout => (h₂ block pos hout).trans (h₁ block pos hout)

instance (b : Buffer) : IsPreorder Heap b.Frame where
  refl := .refl b
  trans _ _ _ := .trans

namespace Buffer

open Edit.Keeps (check_bind_run size_bind_run)

variable {h : Heap} {b : Buffer}

theorem frame_write {a : Address} {data : Bytes}
    (hin : ∀ block pos, a.Covers data.length block pos → b.Holds block pos) : b.Frame h (h.write a data) :=
  fun block pos hout => Heap.byte?_write_of_not_covers fun hc => hout (hin block pos hc)

/-- Words that are written to elements of a buffer change no other bytes. -/
theorem frame_setWords {indices words : List Nat} (hin : ∀ i ∈ indices, i ∈ b.offsets) :
    b.Frame h (h.setWords b.block b.dtype.width indices words) := by
  induction indices generalizing h words with
  | nil => exact .refl b h
  | cons i indices ih =>
    cases words with
    | nil => exact .refl b h
    | cons word words =>
      obtain ⟨hi, hindices⟩ := List.forall_mem_cons.mp hin
      refine .trans (frame_write fun block pos hc => ⟨i, hi, ?_⟩) (ih hindices)
      rwa [Bytes.length_ofWord] at hc

/-- Elements that are moved into a buffer change no other bytes. -/
theorem frame_moveElements {source : Nat} {moves : List (Nat × Nat)} (hin : ∀ m ∈ moves, m.2 ∈ b.offsets) :
    b.Frame h (h.moveElements source b.block b.dtype.width moves) := by
  induction moves generalizing h with
  | nil => exact .refl b h
  | cons m moves ih =>
    obtain ⟨hm, hmoves⟩ := List.forall_mem_cons.mp hin
    refine .trans (frame_write fun block pos hc => ⟨m.2, hm, ?_⟩) (ih hmoves)
    exact hc.mono (Heap.length_read_le ..)

/-- The bytes of a contiguous buffer are those of its row. -/
theorem holds_iff_covers {n block pos : Nat} (hr : b.shape.length = b.strides.length) (hn : b.numel = .ok n)
    (hc : b.isContiguous = .ok true) :
    b.Holds block pos ↔ (b.place b.offset).Covers (n * b.dtype.width) block pos := by
  have hw := b.dtype.width_pos
  constructor
  · rintro ⟨i, hi, hblock, hlo, hhi⟩
    rw [offsets_of_isContiguous hr hn hc, List.mem_range'_1] at hi
    simp only [place, ← Nat.succ_mul] at hlo hhi
    refine ⟨hblock, ?_, ?_⟩
    · exact (Nat.mul_le_mul_right _ hi.1).trans hlo
    · simp only [place, ← Nat.add_mul]
      exact lt_of_lt_of_le hhi (Nat.mul_le_mul_right _ hi.2)
  · rintro ⟨hblock, hlo, hhi⟩
    simp only [place, ← Nat.add_mul] at hlo hhi
    refine ⟨pos / b.dtype.width, ?_, hblock, Nat.div_mul_le_self .., Nat.lt_div_mul_add hw⟩
    rw [offsets_of_isContiguous hr hn hc, List.mem_range'_1]
    exact ⟨(Nat.le_div_iff_mul_le hw).mpr hlo, (Nat.div_lt_iff_lt_mul hw).mpr hhi⟩

theorem holds_of_covers {n block pos : Nat} (hr : b.shape.length = b.strides.length) (hn : b.numel = .ok n)
    (hc : b.isContiguous = .ok true) {a : Address} (ha : b.address h = .ok a)
    (hcov : a.Covers (n * b.dtype.width) block pos) : b.Holds block pos := by
  unfold address at ha
  split at ha
  · cases ha
    cases hcov.1
  · obtain ⟨start, hstart, ha⟩ := exists_of_bind_eq_ok ha
    cases ha
    rw [(mulSize_eq_ok_iff.mp hstart).1] at hcov
    exact (holds_iff_covers hr hn hc).mpr hcov

/-- Overwriting a buffer changes bytes of its elements only. -/
theorem fill_frame (b : Buffer) (dtype : ElementType) (words : List Nat) : (b.fill dtype words).Keeps b.Frame :=
  .bind (.check _) fun _ => .bind (.size _) fun _ => .bind (.check _) fun _ =>
    .modify fun s => frame_setWords (h := s.heap) fun _ hi => hi

/-- Copying into a buffer changes bytes of its elements only. -/
theorem copyFrom_frame {target : Buffer} (hr : target.shape.length = target.strides.length) (source : Buffer) :
    (target.copyFrom source).Keeps target.Frame := by
  intro s
  refine check_bind_run fun _ _ => size_bind_run fun given _ => size_bind_run fun held hheld => ?_
  refine check_bind_run fun _ _ => ?_
  split
  · exact .refl target s.heap
  · rw [run_get_bind]
    refine size_bind_run fun dense hdense => size_bind_run fun dense' _ => ?_
    split
    · rename_i hboth
      obtain ⟨rfl, -⟩ := Bool.and_eq_true_iff.mp hboth
      refine size_bind_run fun src _ => size_bind_run fun dst hdst => size_bind_run fun length hlength => ?_
      refine frame_write fun block pos hc => holds_of_covers hr hheld hdense hdst ?_
      obtain ⟨n, hn, hlength⟩ := exists_of_bind_eq_ok hlength
      obtain rfl := Except.ok.inj (hn.symm.trans hheld)
      rw [← (mulSize_eq_ok_iff.mp hlength).1]
      exact hc.mono (Heap.length_read_le ..)
    · exact frame_moveElements fun m hm => (List.of_mem_zip hm).2

/-- What is read through a buffer is read from the bytes of its elements. -/
theorem toWords_congr {h' : Heap} (dtype : ElementType)
    (hsame : ∀ block pos, b.Holds block pos → h.byte? block pos = h'.byte? block pos) :
    b.toWords h dtype = b.toWords h' dtype := by
  have hwords : h.words b.block b.dtype.width b.offsets = h'.words b.block b.dtype.width b.offsets := by
    refine List.map_congr_left fun i hi => congrArg Bytes.toWord (Heap.read_congr fun block pos hc => ?_)
    exact hsame block pos ⟨i, hi, hc⟩
  rw [toWords, toWords, hwords]

end Buffer

/-- A buffer has exactly as many offsets as elements, all different and inside its block. Its elements lie in the
block and no two share a byte, and so does a copy of contiguous elements in one go; reading depends on bytes of
the elements only, and writing and copying change no others. -/
theorem Obtained.elements_distinct_inside {s : Store} {b : Buffer} {n : Nat} (hb : Obtained s b) (hn : b.numel = .ok n) :
    b.offsets.length = n ∧ b.offsets.Nodup ∧
      (∀ i ∈ b.offsets, i < s.heap.blockSize b.block / b.dtype.width) ∧
      (∀ i ∈ b.offsets, b.Encloses s.heap (b.place i) b.dtype.width) ∧
      (∀ i ∈ b.offsets, ∀ j ∈ b.offsets, i ≠ j → ∀ block pos, (b.place i).Covers b.dtype.width block pos →
        ¬(b.place j).Covers b.dtype.width block pos) ∧
      (b.isContiguous = .ok true → 0 < n → ∀ a length, b.address s.heap = .ok a → b.nbytes = .ok length →
        b.Encloses s.heap a length) ∧
      (∀ dtype h, (∀ block pos, b.Holds block pos → s.heap.byte? block pos = h.byte? block pos) →
        b.toWords s.heap dtype = b.toWords h dtype) ∧
      (∀ dtype words, (b.fill dtype words).Keeps b.Frame) ∧ ∀ source, (b.copyFrom source).Keeps b.Frame := by
  have hs := hb.sound
  refine ⟨Buffer.length_offsets hs.ranked hn, hs.distinct, ?_, ?_, ?_, ?_, ?_, b.fill_frame, ?_⟩
  · intro i hi
    exact (Nat.le_div_iff_mul_le b.dtype.width_pos).mpr (hs.inside i hi)
  · intro i hi
    exact hs.encloses_place hi
  · intro i _ j _ hne block pos hi
    exact Buffer.place_apart hne hi
  · intro hc hpos a length ha hlength
    obtain ⟨m, hm, hlength⟩ := exists_of_bind_eq_ok hlength
    obtain rfl := Except.ok.inj (hm.symm.trans hn)
    rw [(mulSize_eq_ok_iff.mp hlength).1]
    exact (Buffer.Room.of_sound hs hn hc).encloses ha le_rfl hpos
  · intro dtype h hsame
    exact Buffer.toWords_congr dtype hsame
  · exact Buffer.copyFrom_frame hs.ranked

/-- The second and third column of a table of two rows, as rows. -/
theorem Obtained.elements_of_columns :
    ∃ (s : Store) (b : Buffer), Obtained s b ∧ b.numel = .ok 4 ∧ b.offsets = [1, 4, 2, 5] ∧
      b.offsets.length = 4 ∧ ∀ i ∈ b.offsets, i < s.heap.blockSize b.block / b.dtype.width := by
  let table : Buffer := { block := 0, dtype := .i32, shape := [2, 3], strides := [3, 1], offset := 0 }
  let s : Store := { heap := { blocks := #[Array.replicate 24 0] } }
  let columns : Buffer := { table with shape := [3, 2], strides := [1, 3] }
  let b : Buffer := { columns with shape := [2, 2], offset := 1 }
  have htable : (Buffer.zeros .i32 [2, 3]).run {} = (.ok table, s) := rfl
  have hcolumns : (View.transposed 0 1).of table = .ok columns := rfl
  have hrows : (View.rows 1 2).of columns = .ok b := rfl
  have hb : Obtained s b := .view (.view (.zeros htable) hcolumns) hrows
  have h := hb.elements_distinct_inside (n := 4) rfl
  exact ⟨s, b, hb, rfl, rfl, h.1, h.2.2.1⟩

end Collectives
