import Collectives.Proofs.SplitTables

/-!
# How views end

Each view checks its arguments, and each check adds or multiplies sizes before it compares. So a view of a held buffer is
made exactly of legal arguments and is refused for all others, as long as no size on the way overflows; where one does,
the call stops, whether the arguments are legal or not. For a buffer with elements only the caller's own numbers can
overflow.
-/

namespace Collectives

/-- A check answers if the arguments are legal and refuses them if they are not, unless sizes overflow, which stops it. -/
structure Decides {α : Type} (legal overflows : Prop) (x : Except Failure α) : Prop where
  answered : (∃ a, x = .ok a) ↔ legal ∧ ¬overflows
  refused : (∃ violation, x = .error (.error (.validation violation))) ↔ ¬legal ∧ ¬overflows
  stopped : (∃ fault, x = .error (.fault fault)) ↔ overflows

namespace Decides

variable {α β : Type} {legal legal' overflows overflows' : Prop}

/-- A check that answers. -/
theorem of_ok (a : α) : Decides True False (.ok a : Except Failure α) := by
  constructor <;> simp

theorem of_require (condition : Bool) (cause : Violation) :
    Decides (condition = true) False (require condition cause) := by
  cases condition <;> constructor <;> simp [require]

/-- A check of sizes refuses nothing. -/
theorem of_sizes {x : Except Fault α} (h : (∃ a, x = .ok a) ↔ ¬overflows) :
    Decides True overflows (liftM x : Except Failure α) := by
  cases x with
  | ok a =>
    have hfits : ¬overflows := h.mp ⟨a, rfl⟩
    constructor <;> simp [liftM, monadLift, MonadLift.monadLift, Except.mapError, hfits]
  | error fault =>
    have hover : overflows := by simpa using h
    constructor <;> simp [liftM, monadLift, MonadLift.monadLift, Except.mapError, hover]

/-- Two checks in a row answer if both do. The second one only matters for arguments that pass the first. -/
theorem bind {x : Except Failure α} {f : α → Except Failure β} (hx : Decides legal overflows x) (legal' overflows' : Prop)
    (hf : ∀ a, x = .ok a → Decides legal' overflows' (f a)) :
    Decides (legal ∧ legal') (overflows ∨ legal ∧ overflows') (x >>= f) := by
  have hfailed (failure : Failure) : (.error failure >>= f) = .error failure := rfl
  by_cases hover : overflows
  · obtain ⟨fault, rfl⟩ := hx.stopped.mpr hover
    rw [hfailed]
    constructor <;> simp [hover]
  · by_cases hlegal : legal
    · obtain ⟨a, rfl⟩ := hx.answered.mpr ⟨hlegal, hover⟩
      simpa [hlegal, hover] using hf a rfl
    · obtain ⟨violation, rfl⟩ := hx.refused.mpr ⟨hlegal, hover⟩
      rw [hfailed]
      constructor <;> simp [hlegal, hover]

/-- A check of sizes is followed by another check. -/
theorem sizes_bind {x : Except Fault α} {f : α → Except Failure β} (hx : (∃ a, x = .ok a) ↔ ¬overflows)
    (legal' overflows' : Prop) (hf : ∀ a, x = .ok a → Decides legal' overflows' (f a)) :
    Decides legal' (overflows ∨ overflows') ((liftM x : Except Failure α) >>= f) := by
  simpa using (of_sizes hx).bind legal' overflows' fun a ha => hf a (of_lift ha)

/-- A condition is required before another check. -/
theorem require_bind {condition : Bool} {cause : Violation} {f : Unit → Except Failure β} (legal' overflows' : Prop)
    (hf : condition = true → Decides legal' overflows' (f ())) :
    Decides (condition = true ∧ legal') (condition = true ∧ overflows') (require condition cause >>= f) := by
  have hrequired := of_require condition cause
  simpa using hrequired.bind legal' overflows' fun _ hpassed => hf (Collectives.of_require hpassed)

/-- What is legal needs to be told only where nothing overflows. -/
theorem congr {x : Except Failure α} (hx : Decides legal overflows x) (hlegal : ¬overflows → (legal ↔ legal'))
    (hover : overflows ↔ overflows') : Decides legal' overflows' x where
  answered := by
    rw [hx.answered, ← hover]
    exact and_congr_left hlegal
  refused := by
    rw [hx.refused, ← hover]
    exact and_congr_left fun hfits => not_congr (hlegal hfits)
  stopped := hx.stopped.trans hover

end Decides

/-! ## Sizes that are computed -/

theorem exists_addSize_iff {a b : Nat} : (∃ c, addSize a b = .ok c) ↔ ¬sizeLimit ≤ a + b := by
  simp [addSize_eq_ok_iff]

theorem exists_mulSize_iff {a b : Nat} : (∃ c, mulSize a b = .ok c) ↔ ¬sizeLimit ≤ a * b := by
  simp [mulSize_eq_ok_iff]

theorem exists_sumSizes_iff {xs : List Nat} : (∃ total, sumSizes xs = .ok total) ↔ ¬sizeLimit ≤ xs.sum := by
  constructor
  · rintro ⟨total, htotal⟩ hlarge
    rw [sumSizes_eq_error hlarge] at htotal
    cases htotal
  · exact fun hsmall => ⟨_, sumSizes_eq_ok (Nat.lt_of_not_le hsmall)⟩

theorem exists_productSizes_iff {xs : List Nat} :
    (∃ product, productSizes xs = .ok product) ↔ ¬∃ k, sizeLimit ≤ (xs.take k).prod := by
  constructor
  · rintro ⟨product, hproduct⟩ ⟨k, hlarge⟩
    exact Nat.not_le_of_lt (prod_take_lt_of_productSizes hproduct k) hlarge
  · intro hsmall
    exact ⟨_, productSizes_eq_ok fun k => Nat.lt_of_not_le fun hlarge => hsmall ⟨k, hlarge⟩⟩

theorem exists_contiguousStrides_iff {shape : List Nat} :
    (∃ strides, contiguousStrides shape = .ok strides) ↔ ¬(shape ≠ [] ∧ sizeLimit ≤ Buffer.rowStride shape.tail) := by
  cases shape with
  | nil => simp [contiguousStrides]
  | cons dim shape =>
    rw [List.tail_cons]
    constructor
    · rintro ⟨strides, hstrides⟩ ⟨-, hlarge⟩
      exact Nat.not_le_of_lt (Buffer.rowStride_lt_of_contiguousStrides hstrides) hlarge
    · exact fun hsmall => exists_contiguousStrides (Nat.lt_of_not_le fun hlarge => hsmall ⟨List.cons_ne_nil _ _, hlarge⟩)

namespace Buffer

variable {h : Heap} {b : Buffer}

/-! ## Sizes that overflow -/

/-- The elements lie side by side, in row-major order. -/
def SideBySide (b : Buffer) : Prop := b.offsets = List.range' b.offset b.count

/-- A size overflows when rows are taken: where they end, or the place of the first one of them. -/
def NarrowOverflows (b : Buffer) (start length : Nat) : Prop :=
  b.shape ≠ [] ∧ (sizeLimit ≤ start + length ∨
    start + length ≤ b.rows ∧ sizeLimit ≤ b.offset + start * b.strides.headD 0)

/-- A size overflows when the rows are split: the sum of the sizes, or the place of one of the parts. -/
def SplitOverflows (b : Buffer) (sizes : List Nat) : Prop :=
  sizeLimit ≤ sizes.sum ∨ b.shape ≠ [] ∧ sizes.sum = b.rows ∧ ¬b.StartsFit sizes

/-- A size overflows when a shape is given: a product of the dimensions that there are, one of those that are asked for,
or a stride of the latter. -/
def ReshapeOverflows (b : Buffer) (shape : List Nat) : Prop :=
  b.Uncountable ∨ b.SideBySide ∧ ((∃ k, sizeLimit ≤ (shape.take k).prod) ∨
    shape.prod = b.count ∧ shape ≠ [] ∧ sizeLimit ≤ rowStride shape.tail)

/-! ## How each view ends -/

theorem leadingDim_decides (b : Buffer) : Decides (b.shape ≠ []) False b.leadingDim := by
  unfold leadingDim
  split <;> constructor <;> simp [*]

/-- Where a row is placed is computed from its number and the strides. -/
theorem place_decides (b : Buffer) (start length : Nat) :
    Decides True (sizeLimit ≤ b.offset + start * b.strides.headD 0) (do
      let skipped ← mulSize start (b.strides.headD 0)
      let offset ← addSize b.offset skipped
      return { b with shape := length :: b.shape.tail, offset } : Except Failure Buffer) := by
  refine (Decides.sizes_bind exists_mulSize_iff True (sizeLimit ≤ b.offset + start * b.strides.headD 0)
    fun skipped hskipped => ?_).congr (fun _ => Iff.rfl) (by omega)
  rw [← (mulSize_eq_ok_iff.mp hskipped).1]
  exact (Decides.sizes_bind exists_addSize_iff True False fun offset _ => .of_ok _).congr (fun _ => Iff.rfl) (by simp)

theorem narrow_decides (b : Buffer) (start length : Nat) :
    Decides (b.shape ≠ [] ∧ start + length ≤ b.rows) (b.NarrowOverflows start length) (b.narrow start length) := by
  refine (b.leadingDim_decides.bind (start + length ≤ b.rows) (sizeLimit ≤ start + length ∨
    start + length ≤ b.rows ∧ sizeLimit ≤ b.offset + start * b.strides.headD 0)
    fun rows hrows => ?_).congr (fun _ => Iff.rfl) (by simp [NarrowOverflows])
  obtain ⟨-, rfl⟩ := rows_of_leadingDim hrows
  refine .sizes_bind exists_addSize_iff _ _ fun stop hstop => ?_
  obtain rfl := (addSize_eq_ok_iff.mp hstop).1
  exact (Decides.require_bind True _ fun _ => b.place_decides start length).congr (by simp) (by simp)

/-- Parts that begin at a row that is there are taken, unless the place of one of them overflows. -/
theorem splitFrom_decides {start : Nat} {sizes : List Nat} (hdims : b.shape ≠ []) (hsized : b.rows < sizeLimit)
    (hin : start + sizes.sum ≤ b.rows) :
    Decides True (∃ place ∈ places sizes, sizeLimit ≤ b.offset + (start + place) * b.strides.headD 0)
      (b.splitFrom start sizes) := by
  induction sizes generalizing start with
  | nil => exact (Decides.of_ok []).congr (fun _ => Iff.rfl) (by simp [places])
  | cons size sizes ih =>
    rw [List.sum_cons] at hin
    have hfirst : Decides True (sizeLimit ≤ b.offset + start * b.strides.headD 0) (b.narrow start size) := by
      refine (b.narrow_decides start size).congr (fun _ => ?_) ?_
      · simp only [ne_eq, hdims, not_false_eq_true, true_and, iff_true]
        omega
      · simp only [NarrowOverflows, ne_eq, hdims, not_false_eq_true, true_and]
        omega
    refine (hfirst.bind True (∃ place ∈ places sizes, sizeLimit ≤ b.offset + (start + size + place) * b.strides.headD 0)
      fun part _ => ?_).congr (by simp) (by simp [places_cons, Nat.add_assoc])
    rw [lift_size_bind (addSize_eq_ok (by omega))]
    exact ((ih (by omega)).bind True False fun rest _ => .of_ok _).congr (by simp) (by simp)

theorem split_decides (hsized : b.rows < sizeLimit) (sizes : List Nat) :
    Decides (b.shape ≠ [] ∧ sizes.sum = b.rows) (b.SplitOverflows sizes) (b.split sizes) := by
  refine .sizes_bind exists_sumSizes_iff _ _ fun total htotal => ?_
  obtain rfl := eq_of_sumSizes htotal
  refine (b.leadingDim_decides.bind (sizes.sum = b.rows) (sizes.sum = b.rows ∧ ¬b.StartsFit sizes)
    fun rows hrows => ?_).congr (fun _ => Iff.rfl) (by simp)
  obtain ⟨hdims, rfl⟩ := rows_of_leadingDim hrows
  refine (Decides.require_bind True (¬b.StartsFit sizes) fun hsum => ?_).congr (by simp) (by simp)
  refine (splitFrom_decides hdims hsized ?_).congr (fun _ => Iff.rfl) (by simp [StartsFit])
  rw [Nat.zero_add]
  exact (beq_iff_eq.mp hsum).le

/-- Whether the elements lie side by side is told of every buffer whose elements are counted. -/
theorem isContiguous_eq_true_iff (hs : b.Sound h) {contiguous : Bool} (hc : b.isContiguous = .ok contiguous) :
    contiguous = true ↔ b.SideBySide := by
  obtain ⟨n, hn, -⟩ := exists_of_bind_eq_ok hc
  rw [isContiguous_eq hs.ranked hn, Except.ok.injEq] at hc
  rw [← hc, decide_eq_true_iff, SideBySide, count, ← eq_of_productSizes hn]

theorem exists_numel_iff (hs : b.Sound h) (hbounded : h.Bounded) : (∃ n, b.numel = .ok n) ↔ ¬b.Uncountable := by
  refine ⟨fun hcounted hover => ?_, hs.exists_numel hbounded⟩
  exact exists_productSizes_iff.mp hcounted hover.2

theorem reshape_decides (hs : b.Sound h) (hbounded : h.Bounded) (shape : List Nat) :
    Decides (b.SideBySide ∧ shape.prod = b.count) (b.ReshapeOverflows shape) (b.reshape shape) := by
  have hcounted := exists_numel_iff hs hbounded
  have hcontiguous : (∃ contiguous, b.isContiguous = .ok contiguous) ↔ ¬b.Uncountable := by
    rw [← hcounted]
    refine ⟨?_, fun ⟨n, hn⟩ => exists_isContiguous hn⟩
    rintro ⟨contiguous, hc⟩
    obtain ⟨n, hn, -⟩ := exists_of_bind_eq_ok hc
    exact ⟨n, hn⟩
  refine .sizes_bind hcontiguous _ _ fun contiguous hc => ?_
  obtain ⟨held, hheld, -⟩ := exists_of_bind_eq_ok hc
  obtain rfl : held = b.count := eq_of_productSizes hheld
  refine (Decides.require_bind (shape.prod = b.count) ((∃ k, sizeLimit ≤ (shape.take k).prod) ∨
    shape.prod = b.count ∧ shape ≠ [] ∧ sizeLimit ≤ rowStride shape.tail) fun _ => ?_).congr
    (by simp [isContiguous_eq_true_iff hs hc]) (by simp [isContiguous_eq_true_iff hs hc])
  refine .sizes_bind exists_productSizes_iff _ _ fun numel hnumel => ?_
  obtain rfl := eq_of_productSizes hnumel
  rw [lift_size_bind hheld]
  refine (Decides.require_bind True (shape ≠ [] ∧ sizeLimit ≤ rowStride shape.tail) fun _ => ?_).congr (by simp) (by simp)
  exact (Decides.sizes_bind exists_contiguousStrides_iff True False fun strides _ => .of_ok _).congr (fun _ => Iff.rfl)
    (by simp)

theorem transpose_decides (b : Buffer) (dim0 dim1 : Nat) :
    Decides (dim0 < b.shape.length ∧ dim1 < b.shape.length) False (b.transpose dim0 dim1) := by
  have hcheck := (Decides.of_require (dim0 < b.shape.length && dim1 < b.shape.length)
    (.swapDims dim0 dim1 b.shape.length)).bind True False fun _ _ => Decides.of_ok
      { b with shape := swapped b.shape dim0 dim1, strides := swapped b.strides dim0 dim1 }
  exact hcheck.congr (by simp) (by simp)

end Buffer

/-! ## Held buffers with elements -/

namespace Holding

variable {s : Store} {held : List Buffer} {b : Buffer} (hheld : Holding s held) (hb : b ∈ held) (hsome : b.count ≠ 0)

include hheld hb hsome

/-- The place of a row of a buffer with elements is a size. -/
theorem narrowOverflows_iff (start length : Nat) :
    b.NarrowOverflows start length ↔ b.shape ≠ [] ∧ sizeLimit ≤ start + length := by
  refine and_congr_right fun hdims => or_iff_left ?_
  rintro ⟨hin, hlarge⟩
  obtain ⟨rows, dims, hshape⟩ := List.exists_cons_of_ne_nil hdims
  have ht := hheld.tenancy
  have hfits := (ht.sound b hb).rows_fit ht.bounded (hheld.measured b hb) hshape hsome
  have hstart : start ≤ rows := by
    rw [Buffer.rows, hshape, List.headD_cons] at hin
    omega
  have hplace := Nat.mul_le_mul_right (b.strides.headD 0) hstart
  omega

/-- The places of the parts of a buffer with elements are sizes. -/
theorem splitOverflows_iff (sizes : List Nat) : b.SplitOverflows sizes ↔ sizeLimit ≤ sizes.sum := by
  refine or_iff_left ?_
  rintro ⟨hdims, hsum, hnot⟩
  obtain ⟨rows, dims, hshape⟩ := List.exists_cons_of_ne_nil hdims
  rw [Buffer.rows, hshape, List.headD_cons] at hsum
  exact hnot (hheld.startsFit hb hshape hsum fun hnone => absurd hnone hsome)

/-- A shape with as many elements as a buffer in memory has strides that are sizes. -/
theorem reshapeOverflows_iff (shape : List Nat) :
    b.ReshapeOverflows shape ↔ b.SideBySide ∧ ∃ k, sizeLimit ≤ (shape.take k).prod := by
  have ht := hheld.tenancy
  have hz : 0 ∉ b.shape := fun hz => hsome (List.prod_eq_zero hz)
  have hcounted : ¬b.Uncountable := fun hover => hz hover.1
  rw [Buffer.ReshapeOverflows, or_iff_right hcounted]
  refine and_congr_right fun _ => or_iff_left ?_
  rintro ⟨hprod, hdims, hlarge⟩
  obtain ⟨dim, dims, rfl⟩ := List.exists_cons_of_ne_nil hdims
  rw [List.prod_cons] at hprod
  have hpos : 0 < dim * dims.prod := Nat.pos_of_ne_zero (hprod ▸ hsome)
  have hmore := Nat.le_mul_of_pos_left dims.prod (Nat.pos_of_mul_pos_right hpos)
  have hblock := ((ht.sound b hb).prod_le hz).trans (ht.bounded b.block)
  have hlimit : blockLimit < sizeLimit := by decide
  rw [List.tail_cons, Buffer.rowStride_eq (Nat.pos_of_mul_pos_left hpos)] at hlarge
  rw [hprod, Buffer.count] at hmore
  omega

end Holding

/-- Each view of a held buffer is made of exactly the legal arguments and refused for exactly the others, told by numbers
that do not overflow, unless a size overflows on the way, and then it stops, however legal the arguments are. Swapping
dimensions computes no sizes. Of a buffer with elements, only sums and products of the caller's own numbers overflow. -/
theorem Holding.views_decided {s : Store} {held : List Buffer} {b : Buffer} (hheld : Holding s held) (hb : b ∈ held) :
    (∀ start length, Decides (b.shape ≠ [] ∧ start + length ≤ b.rows) (b.NarrowOverflows start length)
      (b.narrow start length)) ∧
      (∀ sizes, Decides (b.shape ≠ [] ∧ sizes.sum = b.rows) (b.SplitOverflows sizes) (b.split sizes)) ∧
      (∀ shape, Decides (b.SideBySide ∧ shape.prod = b.count) (b.ReshapeOverflows shape) (b.reshape shape)) ∧
      (∀ dim0 dim1, Decides (dim0 < b.shape.length ∧ dim1 < b.shape.length) False (b.transpose dim0 dim1)) ∧
      (b.count ≠ 0 →
        (∀ start length, b.NarrowOverflows start length ↔ b.shape ≠ [] ∧ sizeLimit ≤ start + length) ∧
        (∀ sizes, b.SplitOverflows sizes ↔ sizeLimit ≤ sizes.sum) ∧
        ∀ shape, b.ReshapeOverflows shape ↔ b.SideBySide ∧ ∃ k, sizeLimit ≤ (shape.take k).prod) := by
  have ht := hheld.tenancy
  refine ⟨b.narrow_decides, Buffer.split_decides (hheld.measured b hb).rows_lt, ?_, b.transpose_decides,
    fun hsome => ⟨?_, ?_, ?_⟩⟩
  · exact Buffer.reshape_decides (ht.sound b hb) ht.bounded
  · exact hheld.narrowOverflows_iff hb hsome
  · exact hheld.splitOverflows_iff hb hsome
  · exact hheld.reshapeOverflows_iff hb hsome

/-- Of four elements, the rows from the second one on are taken and two rows from the last one on are refused. Rows, sizes
and dimensions whose sum or product is `2 ^ 64` or four more than that stop the call. -/
theorem Holding.views_decided_of_four :
    ∃ (s : Store) (b : Buffer), Holding s [b] ∧ b.shape = [4] ∧
      (∃ part, b.narrow 1 3 = .ok part) ∧
      (∃ violation, b.narrow 3 2 = .error (.error (.validation violation))) ∧
      (∃ fault, b.narrow 18446744073709551615 1 = .error (.fault fault)) ∧
      (∃ fault, b.split [9223372036854775808, 9223372036854775812] = .error (.fault fault)) ∧
      (∃ table, b.reshape [2, 2] = .ok table) ∧
      (∃ fault, b.reshape [9223372036854775810, 2] = .error (.fault fault)) ∧
      ∃ violation, b.transpose 0 1 = .error (.error (.validation violation)) := by
  let b : Buffer := { block := 0, dtype := .i16, shape := [4], strides := [1], offset := 0 }
  let s : Store := { heap := { blocks := #[#[1, 0, 2, 0, 3, 0, 4, 0]] } }
  have hbounded : Heap.Bounded {} := fun block => Nat.zero_le _
  have hb : (Buffer.ofWords .i16 [1, 2, 3, 4] [4]).run {} = (.ok b, s) := rfl
  have hheld : Holding s [b] := .ofWords (.nothing hbounded) hb
  have hdims : b.shape ≠ [] := by decide
  have hside : b.SideBySide := by
    unfold Buffer.SideBySide
    decide
  obtain ⟨hnarrow, hsplit, hreshape, htranspose, hover⟩ := hheld.views_decided (b := b) (by decide)
  obtain ⟨hrows, hsizes, hshapes⟩ := hover (by decide)
  refine ⟨s, b, hheld, rfl, ?_, ?_, ?_, ?_, ?_, ?_, ?_⟩
  · refine (hnarrow 1 3).answered.mpr ⟨⟨hdims, by decide⟩, ?_⟩
    rw [hrows]
    decide
  · refine (hnarrow 3 2).refused.mpr ⟨by decide, ?_⟩
    rw [hrows]
    decide
  · exact (hnarrow _ _).stopped.mpr ((hrows _ _).mpr ⟨hdims, by decide⟩)
  · exact (hsplit _).stopped.mpr ((hsizes _).mpr (by decide))
  · refine (hreshape [2, 2]).answered.mpr ⟨⟨hside, by decide⟩, ?_⟩
    rw [hshapes]
    rintro ⟨-, k, hlarge⟩
    exact absurd (hlarge.trans (prod_take_le_rowStride [2, 2] k)) (by decide)
  · exact (hreshape _).stopped.mpr ((hshapes _).mpr ⟨hside, 2, by decide⟩)
  · exact (htranspose 0 1).refused.mpr ⟨by decide, not_false⟩

end Collectives
