import Collectives.Proofs.Holding
import Collectives.Proofs.Settling

/-!
# Contiguous buffers and their shapes

A buffer is taken as contiguous exactly if its elements lie side by side in row-major order, whatever the strides of its
dimensions of size one are. Such a buffer can be given any shape with as many elements; it then has the same elements
in the same order. No other buffer with elements can be given a shape.
-/

namespace Collectives

/-- Where no dimension is empty, contiguous strides are no larger than the number of elements. -/
theorem exists_contiguousStrides_of_pos {shape : List Nat} {n : Nat} (hn : productSizes shape = .ok n) (hpos : 0 < n) :
    ∃ strides, contiguousStrides shape = .ok strides := by
  have hprod := eq_of_productSizes hn
  have hsmall := lt_of_productSizes hn
  cases shape with
  | nil => exact ⟨[], rfl⟩
  | cons dim shape =>
    rw [List.prod_cons] at hprod
    have hdim : 0 < dim := Nat.pos_of_mul_pos_right (hprod ▸ hpos)
    have hrest : 0 < shape.prod := Nat.pos_of_mul_pos_left (hprod ▸ hpos)
    apply exists_contiguousStrides
    rw [Buffer.rowStride_eq hrest]
    exact lt_of_le_of_lt (Nat.le_mul_of_pos_left _ hdim) (hprod ▸ hsmall)

namespace Buffer

variable {h : Heap} {b b' : Buffer} {shape : List Nat} {n : Nat}

/-- A buffer in memory that has elements can be counted. -/
theorem Sound.numel_of_count (hs : b.Sound h) (hbounded : h.Bounded) (hsome : b.count ≠ 0) : b.numel = .ok b.count := by
  have hcount : ¬b.Uncountable := fun hc => hsome (List.prod_eq_zero hc.1)
  obtain ⟨n, hn⟩ := hs.exists_numel hbounded hcount
  rwa [count, ← eq_of_productSizes hn]

/-! ## Shapes -/

/-- A contiguous buffer is given a shape with as many elements. -/
theorem reshape_eq_ok {strides : List Nat} (hc : b.isContiguous = .ok true) (hn : b.numel = .ok n)
    (hshape : productSizes shape = .ok n) (hstrides : contiguousStrides shape = .ok strides) :
    b.reshape shape = .ok { b with shape, strides } := by
  have hcheck : require true .reshapeStrided = .ok () := rfl
  have hcount : require (n == n) (.reshapeCount n shape) = .ok () := if_pos (beq_self_eq_true n)
  unfold reshape
  rw [lift_size_bind hc, hcheck, ok_bind, lift_size_bind hshape, lift_size_bind hn, hcount, ok_bind,
    lift_size_bind hstrides]
  rfl

/-- A buffer with gaps is not given a shape. -/
theorem reshape_of_gaps (hc : b.isContiguous = .ok false) :
    b.reshape shape = .error (.error (.validation .reshapeStrided)) := by
  unfold reshape
  rw [lift_size_bind hc]
  rfl

/-- A buffer is given a shape with as many elements exactly if it is contiguous; one without elements always is. -/
theorem exists_reshape_iff (hn : b.numel = .ok n) (hshape : productSizes shape = .ok n)
    (hfits : n = 0 → ∃ strides, contiguousStrides shape = .ok strides) :
    (∃ b', b.reshape shape = .ok b') ↔ b.isContiguous = .ok true ∨ n = 0 := by
  constructor
  · rintro ⟨b', hv⟩
    obtain ⟨_, strides, hc, -⟩ := exists_of_reshape hv
    exact .inl hc
  · intro hor
    have hc : b.isContiguous = .ok true := by
      rcases hor with hc | rfl
      · exact hc
      · exact isContiguous_of_empty hn
    have hstrides : ∃ strides, contiguousStrides shape = .ok strides := by
      rcases Nat.eq_zero_or_pos n with hzero | hpos
      · exact hfits hzero
      · exact exists_contiguousStrides_of_pos hshape hpos
    obtain ⟨strides, hstrides⟩ := hstrides
    exact ⟨_, reshape_eq_ok hc hn hshape hstrides⟩

/-- A buffer under another shape has the same elements in the same order. -/
theorem offsets_reshape (hs : b.Sound h) (hv : b.reshape shape = .ok b') :
    b'.shape = shape ∧ b'.offset = b.offset ∧ b'.offsets = b.offsets := by
  have hs' := hs.reshape hv
  obtain ⟨n, strides, hc, hn, hshape, hstrides, rfl⟩ := exists_of_reshape hv
  refine ⟨rfl, rfl, ?_⟩
  rw [offsets_of_isContiguous hs.ranked hn hc]
  -- The new strides leave no gaps, so both lists of offsets are the same interval.
  by_cases hz : 0 ∈ shape
  · rw [offsets_of_mem hz, eq_of_productSizes hshape, List.prod_eq_zero hz]
    rfl
  · rw [offsets_of_gapless hs'.ranked (gapless_of_contiguousStrides hstrides hz), eq_of_productSizes hshape]

end Buffer

/-- A held buffer with elements is taken as contiguous exactly if its elements lie side by side in row-major order. A
shape with as many elements as a held buffer has is given to it exactly if it is contiguous or empty, and what it then
has are the same elements in the same order; to any other it is refused. -/
theorem Holding.contiguity_exact {s : Store} {held : List Buffer} {b : Buffer} (hheld : Holding s held)
    (hb : b ∈ held) :
    (b.count ≠ 0 → b.numel = .ok b.count ∧ ∃ contiguous, b.isContiguous = .ok contiguous ∧
      (contiguous = true ↔ b.offsets = List.range' b.offset b.count)) ∧
      ∀ shape n, b.numel = .ok n → productSizes shape = .ok n →
        (n = 0 → ∃ strides, contiguousStrides shape = .ok strides) →
          ((∃ b', b.reshape shape = .ok b') ↔ b.isContiguous = .ok true ∨ n = 0) ∧
            (b.isContiguous = .ok false → b.reshape shape = .error (.error (.validation .reshapeStrided))) ∧
            ∀ b', b.reshape shape = .ok b' → b.Beside b' ∧ b'.shape = shape ∧ b'.offset = b.offset ∧
              b'.offsets = b.offsets := by
  have ht := hheld.tenancy
  have hs := ht.sound b hb
  constructor
  · intro hsome
    have hn := hs.numel_of_count ht.bounded hsome
    refine ⟨hn, _, Buffer.isContiguous_eq hs.ranked hn, ?_⟩
    rw [decide_eq_true_iff]
  · intro shape n hn hshape hfits
    refine ⟨Buffer.exists_reshape_iff hn hshape hfits, Buffer.reshape_of_gaps, fun b' hv => ?_⟩
    exact ⟨Buffer.beside_reshape hv, Buffer.offsets_reshape hs hv⟩

/-- One row turned into a column is contiguous, though its one column has a stride of three, and can be read as a row
again. A table that is turned is not contiguous. -/
theorem Holding.contiguity_of_turned :
    ∃ (s : Store) (column turned : Buffer), Holding s [column, turned] ∧ column.shape = [3, 1] ∧
      column.strides = [1, 3] ∧ column.isContiguous = .ok true ∧
      (∃ row, column.reshape [3] = .ok row ∧ row.offsets = [3, 4, 5]) ∧ turned.offsets = [0, 3, 1, 4, 2, 5] ∧
      turned.isContiguous = .ok false ∧ ¬∃ row, turned.reshape [6] = .ok row := by
  let table : Buffer := { block := 0, dtype := .i16, shape := [2, 3], strides := [3, 1], offset := 0 }
  let row : Buffer := { table with shape := [1, 3], offset := 3 }
  let column : Buffer := { row with shape := [3, 1], strides := [1, 3] }
  let turned : Buffer := { table with shape := [3, 2], strides := [1, 3] }
  let s : Store := { heap := { blocks := #[#[1, 0, 2, 0, 3, 0, 4, 0, 5, 0, 6, 0]] } }
  have hbounded : Heap.Bounded {} := fun block => Nat.zero_le _
  have htable : (Buffer.ofWords .i16 [1, 2, 3, 4, 5, 6] [2, 3]).run {} = (.ok table, s) := rfl
  have hrow : (View.rows 1 1).of table = .ok row := rfl
  have hcolumn : (View.transposed 0 1).of row = .ok column := rfl
  have hturned : (View.transposed 0 1).of table = .ok turned := rfl
  have hviews : Holding s [turned, column, row, table] :=
    .view (.view (.view (.ofWords (.nothing hbounded) htable) (by decide) hrow) (by decide) hcolumn) (by decide) hturned
  have hheld : Holding s [column, turned] := .among hviews (by decide)
  obtain ⟨hexact, hshaped⟩ := hheld.contiguity_exact (b := column) (by decide)
  obtain ⟨-, contiguous, hcontiguous, hiff⟩ := hexact (by decide)
  obtain rfl : contiguous = true := hiff.mpr rfl
  obtain ⟨hgiven, -, hsame⟩ := hshaped [3] 3 rfl rfl fun hzero => absurd hzero (by decide)
  obtain ⟨back, hback⟩ := hgiven.mpr (.inl hcontiguous)
  obtain ⟨-, -, -, hoffsets⟩ := hsame back hback
  obtain ⟨hexact', hshaped'⟩ := hheld.contiguity_exact (b := turned) (by decide)
  obtain ⟨-, contiguous', hcontiguous', hiff'⟩ := hexact' (by decide)
  obtain rfl : contiguous' = false := by
    cases contiguous' with
    | false => rfl
    | true => exact absurd (hiff'.mp rfl) (by decide)
  obtain ⟨hgiven', -, -⟩ := hshaped' [6] 6 rfl rfl fun hzero => absurd hzero (by decide)
  refine ⟨s, column, turned, hheld, rfl, rfl, hcontiguous, ⟨back, hback, hoffsets⟩, rfl, hcontiguous', ?_⟩
  rw [hgiven', hcontiguous']
  decide

end Collectives
