import Collectives.Proofs.GatherRows

/-!
# How checks and edits end

A check or an edit settles if it ends with an answer, or with an error that blames the arguments; it ends in a fault
only if sizes overflow. So no other error, and no fault from anything but sizes, can come from the caller's side of the
substrate.
-/

namespace Collectives

/-- Whether an error blames the arguments of a call, or names what is not offered. -/
def Error.blamesCall : Error → Bool
  | .validation _ | .invalidRank .. | .unsupportedType _ | .unsupportedReduction _ | .unsupported _ => true
  | _ => false

/-- There is an answer or an error that blames the call, and a fault only under a condition. -/
def Settles {α : Type} (P : Prop) : Except Failure α → Prop
  | .ok _ => True
  | .error (.error cause) => cause.blamesCall = true
  | .error (.fault _) => P
  | .error (.abort _) => False

/-! ## Checks -/

namespace Settles

variable {α β : Type} {P : Prop} {s : Store}

theorem of_error {failure : Failure} (h : Settles P (.error failure : Except Failure α)) :
    Settles P (.error failure : Except Failure β) := by
  cases failure <;> exact h

theorem mono {P' : Prop} {x : Except Failure α} (h : Settles P x) (hP : P → P') : Settles P' x := by
  match x with
  | .ok _ => trivial
  | .error (.error _) => exact h
  | .error (.fault _) => exact hP h
  | .error (.abort _) => exact h.elim

/-- A check that goes on after another one. -/
theorem bind {x : Except Failure α} {f : α → Except Failure β} (hx : Settles P x)
    (hf : ∀ a, x = .ok a → Settles P (f a)) : Settles P (x >>= f) := by
  cases x with
  | ok a => exact hf a rfl
  | error failure => exact of_error hx

/-- A check that goes on after a check of sizes. -/
theorem size_bind {x : Except Fault α} {f : α → Except Failure β} (hx : (¬∃ a, x = .ok a) → P)
    (hf : ∀ a, x = .ok a → Settles P (f a)) : Settles P ((liftM x : Except Failure α) >>= f) := by
  cases x with
  | ok a => exact hf a rfl
  | error cause => exact hx (by simp)

/-! ## Edits -/

/-- An edit that goes on after a check. -/
theorem check_bind_run {x : Except Failure α} {f : α → Edit β} (hx : Settles P x)
    (hf : ∀ a, x = .ok a → Settles P ((f a).run s).1) : Settles P (((liftM x : Edit α) >>= f).run s).1 := by
  cases x with
  | ok a => exact hf a rfl
  | error failure => exact of_error hx

/-- An edit that goes on after a check of sizes. -/
theorem size_bind_run {x : Except Fault α} {f : α → Edit β} (hx : (¬∃ a, x = .ok a) → P)
    (hf : ∀ a, x = .ok a → Settles P ((f a).run s).1) : Settles P (((liftM x : Edit α) >>= f).run s).1 := by
  cases x with
  | ok a => exact hf a rfl
  | error cause => exact hx (by simp)

/-- An edit that goes on after another one. -/
theorem bind_run {x : Edit α} {f : α → Edit β} (hx : Settles P (x.run s).1)
    (hf : ∀ a s', x.run s = (.ok a, s') → Settles P ((f a).run s').1) : Settles P ((x >>= f).run s).1 := by
  rcases hrun : x.run s with ⟨answer, s'⟩
  cases answer with
  | ok a =>
    rw [run_bind_ok hrun]
    exact hf a s' hrun
  | error failure =>
    rw [run_bind_error hrun]
    rw [hrun] at hx
    exact of_error hx

/-- A traversal by checks of sizes. -/
theorem mapM_run {f : α → Except Fault β} {xs : List α} (hx : ∀ x ∈ xs, (¬∃ y, f x = .ok y) → P) :
    Settles P ((xs.mapM fun x => (liftM (f x) : Edit β)).run s).1 := by
  induction xs with
  | nil => trivial
  | cons x xs ih =>
    obtain ⟨hx, hxs⟩ := List.forall_mem_cons.mp hx
    rw [List.mapM_cons]
    exact size_bind_run hx fun y _ => bind_run (ih hxs) fun ys s' _ => trivial

end Settles

/-! ## Sizes that do not fit -/

/-- The dimensions from the first one on multiply to more than a size, though one of them is empty. -/
def Buffer.Uncountable (b : Buffer) : Prop := 0 ∈ b.shape ∧ ∃ k, sizeLimit ≤ (b.shape.take k).prod

namespace Buffer

variable {b : Buffer} {h : Heap}

/-- The first element of a buffer lies at its offset. -/
theorem offset_mem_offsets (hz : 0 ∉ b.shape) : b.offset ∈ b.offsets := by
  have hfirst : List.replicate b.shape.length 0 ∈ b.indices := by
    rw [mem_indices_iff, ← digits_zero]
    exact inShape_digits hz 0
  have hplace : b.offsetAt (List.replicate b.shape.length 0) = b.offset := by
    rw [offsetAt_eq, sum_zipWith_zeros, Nat.add_zero]
  exact List.mem_map.mpr ⟨_, hfirst, hplace⟩

/-- The elements of a buffer are different places from its offset on, so the block has room for as many there. -/
theorem Sound.offset_add_prod_le (hs : b.Sound h) (hz : 0 ∉ b.shape) :
    (b.offset + b.shape.prod) * b.dtype.width ≤ h.blockSize b.block := by
  have hpos : 0 < b.shape.prod := Nat.pos_of_ne_zero fun hzero => hz (List.prod_eq_zero_iff.mp hzero)
  have hsubset : b.offsets.toFinset ⊆ Finset.Ico b.offset (h.blockSize b.block / b.dtype.width) := by
    intro i hi
    have hi := List.mem_toFinset.mp hi
    have hinside := (Nat.le_div_iff_mul_le b.dtype.width_pos).mpr (hs.inside i hi)
    rw [offsets_eq hs.ranked] at hi
    exact Finset.mem_Ico.mpr ⟨le_of_mem_offsetsFrom hi, hinside⟩
  have hcard := Finset.card_le_card hsubset
  rw [List.toFinset_card_of_nodup hs.distinct, Nat.card_Ico, length_offsets_eq_prod] at hcard
  exact (Nat.le_div_iff_mul_le b.dtype.width_pos).mp (by omega)

/-- A buffer in memory has no more elements than its block has bytes. -/
theorem Sound.prod_le (hs : b.Sound h) (hz : 0 ∉ b.shape) : b.shape.prod ≤ h.blockSize b.block := by
  have hroom := hs.offset_add_prod_le hz
  have hwidth := Nat.le_mul_of_pos_right (b.offset + b.shape.prod) b.dtype.width_pos
  omega

/-- The elements of a buffer in memory are counted, unless an empty dimension comes too late. -/
theorem Sound.exists_numel (hs : b.Sound h) (hbounded : h.Bounded) (hcount : ¬b.Uncountable) :
    ∃ n, b.numel = .ok n := by
  by_cases hz : 0 ∈ b.shape
  · refine ⟨_, productSizes_eq_ok fun k => ?_⟩
    by_contra hlarge
    exact hcount ⟨hz, k, Nat.le_of_not_lt hlarge⟩
  · have hprod := hs.prod_le hz
    have hblock := hbounded b.block
    have hlimit : blockLimit < sizeLimit := by decide
    have hpos : 0 < b.shape.prod := Nat.pos_of_ne_zero fun hzero => hz (List.prod_eq_zero_iff.mp hzero)
    exact ⟨_, productSizes_of_pos hpos (by omega)⟩

theorem exists_isContiguous {n : Nat} (hn : b.numel = .ok n) : ∃ answer, b.isContiguous = .ok answer := by
  unfold isContiguous
  rw [hn, ok_bind]
  split
  · exact ⟨true, rfl⟩
  · exact ⟨_, rfl⟩

end Buffer

/-! ## Checks of operands -/

section Operands

variable {P : Prop} {b reference : Buffer} {bs : List Buffer}

theorem require_settles (condition : Bool) (cause : Violation) : Settles P (require condition cause) := by
  unfold require
  cases condition <;> simp [Settles, Error.blamesCall]

theorem tag_settles (t : ElementType) : Settles P t.tag := by
  unfold ElementType.tag
  cases t.tag? <;> simp [Settles, Error.blamesCall]

theorem operator_settles (r : Reduction) : Settles P r.operator := by
  unfold Reduction.operator
  cases r.operator? <;> simp [Settles, Error.blamesCall]

theorem checkBuffer_settles (hcount : (¬∃ n, b.numel = .ok n) → P) : Settles P (checkBuffer b) := by
  refine .bind (require_settles _ _) fun _ _ => .bind (require_settles _ _) fun _ _ => ?_
  refine .size_bind (fun hnot => hcount ?_) fun _ _ => require_settles _ _
  rintro ⟨n, hn⟩
  exact hnot (Buffer.exists_isContiguous hn)

theorem single_settles (hcount : ∀ b ∈ bs, (¬∃ n, b.numel = .ok n) → P) : Settles P (single bs) := by
  unfold single
  split
  · exact .bind (checkBuffer_settles (hcount _ (List.mem_singleton_self _))) fun _ _ => trivial
  · rfl

theorem checkRank_settles (root size : Nat) : Settles P (checkRank root size) := by
  unfold checkRank
  split
  · trivial
  · rfl

theorem rootList_settles (lists : List (List Buffer)) (size : Nat) (operation side : String) :
    Settles P (rootList lists size operation side) := by
  unfold rootList
  split
  · exact .bind (require_settles _ _) fun _ _ => trivial
  · rfl

theorem checkAlike_settles (hreference : (¬∃ n, reference.numel = .ok n) → P)
    (hcount : ∀ b ∈ bs, (¬∃ n, b.numel = .ok n) → P) : Settles P (checkAlike reference bs) := by
  induction bs with
  | nil => trivial
  | cons b bs ih =>
    obtain ⟨hb, hrest⟩ := List.forall_mem_cons.mp hcount
    refine .size_bind hb fun _ _ => .size_bind hreference fun _ _ => .bind (require_settles _ _) fun _ _ => ?_
    exact .bind (checkBuffer_settles hb) fun _ _ => ih hrest

theorem checkTypes_settles (hcount : ∀ b ∈ bs, (¬∃ n, b.numel = .ok n) → P) : Settles P (checkTypes reference bs) := by
  induction bs with
  | nil => trivial
  | cons b bs ih =>
    obtain ⟨hb, hrest⟩ := List.forall_mem_cons.mp hcount
    exact .bind (require_settles _ _) fun _ _ => .bind (checkBuffer_settles hb) fun _ _ => ih hrest

theorem leadingDim_settles : Settles P b.leadingDim := by
  unfold Buffer.leadingDim
  split
  · trivial
  · rfl

/-- A table of sizes can be made unless it has `2 ^ 60` entries. -/
theorem exists_checkTable {entries : Nat} (h : entries < 2 ^ 60) : ∃ u, checkTable entries = .ok u := by
  refine ⟨(), if_pos ?_⟩
  omega

/-- Rows are shared out, unless the sizes asked for add up to more than a size. -/
theorem splitCounts_settles {sizes : List Nat} {groupSize : Nat} (hcount : (¬∃ n, b.numel = .ok n) → P)
    (hsize : 0 < groupSize) (htable : 2 ^ 60 ≤ groupSize → P) (hsum : sizeLimit ≤ sizes.sum → P) :
    Settles P (splitCounts b sizes groupSize) := by
  refine .bind leadingDim_settles fun rows _ => .size_bind hcount fun numel hnumel => ?_
  split
  · refine .size_bind (fun hnot => ?_) fun left _ => .bind (require_settles _ _) fun _ _ => ?_
    · refine absurd ⟨rows % groupSize, ?_⟩ hnot
      exact if_neg hsize.ne'
    · refine .size_bind (fun hnot => htable ?_) fun _ _ => trivial
      by_contra hsmall
      exact hnot (exists_checkTable (Nat.lt_of_not_le hsmall))
  · refine .bind (require_settles _ _) fun _ _ => .size_bind (fun hnot => hsum ?_) fun total htotal => ?_
    · by_contra hsmall
      exact hnot ⟨_, sumSizes_eq_ok (Nat.lt_of_not_le hsmall)⟩
    · refine .bind (require_settles _ _) fun _ hrows => ?_
      -- No run of rows is longer than all the rows, so it has no more elements than there are.
      have hwhole : sizes.sum = rows := by
        rw [← eq_of_sumSizes htotal]
        exact eq_of_beq (of_require hrows)
      have hlimit := lt_of_productSizes hnumel
      have hcounts : ∀ size ∈ sizes, (liftM (mulSize size (if numel = 0 then 0 else numel / rows)) :
          Except Failure Nat) = .ok (size * if numel = 0 then 0 else numel / rows) := by
        intro size hmem
        have hin : size ≤ rows := hwhole ▸ List.le_sum_of_mem hmem
        have hproduct : size * (if numel = 0 then 0 else numel / rows) ≤ numel := by
          split
          · omega
          · exact (Nat.mul_le_mul_right _ hin).trans (Nat.mul_div_le numel rows)
        rw [mulSize_eq_ok (by omega)]
        rfl
      rw [mapM_eq_ok_map hcounts]
      trivial

end Operands

/-! ## New regions -/

section Regions

variable {P : Prop} {s : Store} {dtype : ElementType}

/-- Contiguous strides are found if the rows are not too far apart. -/
theorem exists_contiguousStrides {dim : Nat} {shape : List Nat} (h : Buffer.rowStride shape < sizeLimit) :
    ∃ strides, contiguousStrides (dim :: shape) = .ok strides := by
  induction shape generalizing dim with
  | nil => exact ⟨[1], rfl⟩
  | cons next shape ih =>
    have hstride : Buffer.rowStride (next :: shape) = Buffer.rowStride shape * max next 1 := by
      rw [Buffer.rowStride_cons, Nat.mul_comm]
    have hone : 0 < max next 1 := by omega
    have hmore := Nat.le_mul_of_pos_right (Buffer.rowStride shape) hone
    have hrest : ∃ strides, contiguousStrides (next :: shape) = .ok strides := ih (by omega)
    obtain ⟨strides, hstrides⟩ := hrest
    obtain ⟨tail, rfl, -⟩ := head_of_contiguousStrides hstrides
    have hstep : mulSize (Buffer.rowStride shape) (max next 1) = .ok (Buffer.rowStride shape * max next 1) :=
      mulSize_eq_ok (by omega)
    refine ⟨(Buffer.rowStride shape * max next 1) :: Buffer.rowStride shape :: tail, ?_⟩
    rw [contiguousStrides, hstrides, ok_bind]
    change (mulSize (Buffer.rowStride shape) (max next 1) >>= fun step => _) = _
    rw [hstep, ok_bind]
    rfl

theorem allocate_settles {bytes : Nat} (h : blockLimit < bytes → P) : Settles P ((allocate bytes).run s).1 := by
  unfold allocate
  split
  · exact h ‹_›
  · trivial

/-- Products of the first few dimensions are no larger than the stride over all of them. -/
theorem prod_take_le_rowStride (shape : List Nat) (k : Nat) : (shape.take k).prod ≤ Buffer.rowStride shape := by
  induction shape generalizing k with
  | nil => simp [Buffer.rowStride]
  | cons dim shape ih =>
    rw [Buffer.rowStride_cons]
    cases k with
    | zero =>
      have hrest := ih 0
      rw [List.take_zero, List.prod_nil] at hrest ⊢
      exact Nat.mul_pos (by omega) hrest
    | succ k =>
      rw [List.take_succ_cons, List.prod_cons]
      exact Nat.mul_le_mul (le_max_left dim 1) (ih k)

/-- A new buffer is made, unless it is too large or its rows are too far apart. -/
theorem zeros_settles {rows : Nat} {shape : List Nat} (hplaces : sizeLimit ≤ max rows 1 * Buffer.rowStride shape → P)
    (hbytes : blockLimit < rows * shape.prod * dtype.width → P) :
    Settles P ((Buffer.zeros dtype (rows :: shape)).run s).1 := by
  by_cases hfar : sizeLimit ≤ max rows 1 * Buffer.rowStride shape
  · have hP := hplaces hfar
    refine .size_bind_run (fun _ => hP) fun numel _ => .size_bind_run (fun _ => hP) fun bytes _ => ?_
    refine .bind_run (allocate_settles fun _ => hP) fun block s₁ _ => ?_
    exact .size_bind_run (fun _ => hP) fun strides _ => trivial
  · have hfar : max rows 1 * Buffer.rowStride shape < sizeLimit := Nat.lt_of_not_le hfar
    have hproduct : productSizes (rows :: shape) = .ok (rows * shape.prod) := by
      rw [productSizes_eq_ok, List.prod_cons]
      intro k
      have hprefix := prod_take_le_rowStride (rows :: shape) k
      unfold Buffer.rowStride at hprefix hfar
      rw [List.map_cons, List.prod_cons] at hprefix
      omega
    refine .size_bind_run (fun hnot => absurd ⟨_, hproduct⟩ hnot) fun numel hnumel => ?_
    obtain rfl : rows * shape.prod = numel := Except.ok.inj (hproduct.symm.trans hnumel)
    have hlimit : blockLimit < sizeLimit := by decide
    refine .size_bind_run (fun hnot => hbytes ?_) fun bytes hsize => ?_
    · by_contra hsmall
      exact hnot ⟨_, mulSize_eq_ok (by omega)⟩
    · refine .bind_run (allocate_settles fun hlarge => hbytes ?_) fun block s₁ _ => ?_
      · rwa [← (mulSize_eq_ok_iff.mp hsize).1]
      · refine .size_bind_run (fun hnot => absurd (exists_contiguousStrides ?_) hnot) fun strides _ => trivial
        exact lt_of_le_of_lt (Nat.le_mul_of_pos_left _ (by omega)) hfar

/-- An empty buffer of one dimension can always be made. -/
theorem empty_settles (dtype : ElementType) : Settles P ((Buffer.empty dtype).run s).1 := by
  apply zeros_settles
  · intro h
    exact absurd h (by decide)
  · intro h
    rw [Nat.zero_mul, Nat.zero_mul] at h
    exact absurd h (Nat.not_lt_zero _)

end Regions

/-! ## Lists that are reconciled -/

/-- Elements of all buffers of a list. -/
def totalCount (buffers : List Buffer) : Nat := (buffers.map Buffer.count).sum

theorem totalCount_of_empty {buffers : List Buffer} (h : ∀ b ∈ buffers, b.count = 0) : totalCount buffers = 0 := by
  refine List.sum_eq_zero fun count hcount => ?_
  obtain ⟨b, hb, rfl⟩ := List.mem_map.mp hcount
  exact h b hb

namespace FlatLayout

variable {s : Store} {buffers rest : List Buffer} {b : Buffer} {w : Walk}

/-- The sizes of a list overflow when it is reconciled. -/
inductive Overflowing (buffers : List Buffer) : Prop where
  /-- The elements of one of the buffers cannot be counted. -/
  | count {b : Buffer} : b ∈ buffers → b.Uncountable → Overflowing buffers
  /-- All the elements together take more bytes than a block can have. -/
  | total {b : Buffer} : b ∈ buffers → blockLimit < totalCount buffers * b.dtype.width → Overflowing buffers
  /-- There are no elements, and the place of the first buffer overflows. -/
  | place {b : Buffer} : buffers.head? = some b → totalCount buffers = 0 → sizeLimit ≤ b.offset * b.dtype.width →
    Overflowing buffers

theorem le_totalCount (hb : b ∈ buffers) : b.count ≤ totalCount buffers :=
  List.le_sum_of_mem (List.mem_map_of_mem hb)

/-- Many elements take many bytes. -/
theorem Overflowing.of_many (hb : b ∈ buffers) (h : blockLimit < totalCount buffers) : Overflowing buffers :=
  .total hb (lt_of_lt_of_le h (Nat.le_mul_of_pos_right _ b.dtype.width_pos))

section Walking

variable (hs : ∀ b ∈ buffers, b.Sound s.heap) (hbounded : s.heap.Bounded)

section Counting

variable {P : Prop} (hcount : ∀ b ∈ buffers, (¬∃ n, b.numel = .ok n) → P) (hmany : blockLimit < totalCount buffers → P)

include hs hbounded hcount hmany

/-- Whether a buffer follows on the ones before can be told, if these are not too many. -/
theorem follows_settles {anchor : Buffer} (hanchor : anchor ∈ buffers) (hb : b ∈ buffers) (hfull : anchor.count ≠ 0)
    {running : Nat} (hrunning : running ≤ totalCount buffers) : Settles P (follows anchor b running) := by
  unfold follows
  split
  · trivial
  · refine .size_bind (fun hnot => hcount b hb ?_) fun dense _ => ?_
    · rintro ⟨n, hn⟩
      exact hnot (Buffer.exists_isContiguous hn)
    · split
      · trivial
      · refine .size_bind (fun hnot => hmany ?_) fun stop _ => trivial
        -- The anchor has an element in its block, so only the count can be too large.
        by_contra hsmall
        apply hnot
        have hz : 0 ∉ anchor.shape := fun hmem => hfull (List.prod_eq_zero hmem)
        have hinside := (hs anchor hanchor).inside _ (Buffer.offset_mem_offsets hz)
        have hblock := hbounded anchor.block
        have hwidth := Nat.le_mul_of_pos_right (anchor.offset + 1) anchor.dtype.width_pos
        have hlimit : blockLimit + blockLimit < sizeLimit := by decide
        exact ⟨_, addSize_eq_ok (by omega)⟩

/-- A step of the walk is made, if the buffers up to here are not too many. -/
theorem step_settles (hanchor : w.anchor ∈ buffers) (hb : b ∈ buffers)
    (hrunning : w.running + b.count ≤ totalCount buffers) : Settles P (w.step b) := by
  refine .size_bind (hcount b hb) fun length hlength => ?_
  refine .size_bind (hcount w.anchor hanchor) fun anchored hanchored => ?_
  obtain rfl : length = b.count := eq_of_productSizes hlength
  obtain rfl : anchored = w.anchor.count := eq_of_productSizes hanchored
  have hrest (inPlace : Bool) : Settles P (do
      let running ← addSize w.running b.count
      return { anchor := if w.anchor.count = 0 ∧ b.count ≠ 0 then b else w.anchor,
               lengths := w.lengths ++ [b.count], running, inPlace } : Except Failure Walk) := by
    refine .size_bind (fun hnot => hmany ?_) fun running _ => trivial
    by_contra hsmall
    have hlimit : blockLimit < sizeLimit := by decide
    exact hnot ⟨_, addSize_eq_ok (by omega)⟩
  by_cases hplace : (w.inPlace && b.count != 0) = true
  · rw [if_pos hplace]
    have hfull : b.count ≠ 0 := by
      rw [Bool.and_eq_true] at hplace
      exact bne_iff_ne.mp hplace.2
    refine .bind (follows_settles hs hbounded hcount hmany ?_ hb ?_ (by omega)) fun inPlace _ => hrest inPlace
    · split
      · exact hb
      · exact hanchor
    · split
      · exact hfull
      · rename_i hnot
        exact fun hzero => hnot ⟨hzero, hfull⟩
  · rw [if_neg hplace]
    exact hrest w.inPlace

/-- A walk over the rest of a list is made, if the elements so far and the rest are not too many. -/
theorem walk_settles (hanchor : w.anchor ∈ buffers) (hrest : ∀ b ∈ rest, b ∈ buffers)
    (hrunning : w.running + totalCount rest ≤ totalCount buffers) : Settles P (rest.foldlM Walk.step w) := by
  induction rest generalizing w with
  | nil => trivial
  | cons b rest ih =>
    obtain ⟨hb, hrest⟩ := List.forall_mem_cons.mp hrest
    have htotal : totalCount (b :: rest) = b.count + totalCount rest := by simp [totalCount]
    rw [htotal] at hrunning
    rw [List.foldlM_cons]
    refine .bind (step_settles hs hbounded hcount hmany hanchor hb (by omega)) fun w' hw' => ?_
    obtain ⟨length, hlength, -, hlater, hbecomes⟩ := step_eq_ok hw'
    obtain rfl : length = b.count := eq_of_productSizes hlength
    apply ih
    · rcases hbecomes with he | he
      · rwa [he]
      · rwa [he]
    · exact hrest
    · omega

end Counting

include hs hbounded

theorem Overflowing.of_not_counted (hb : b ∈ buffers) (hnot : ¬∃ n, b.numel = .ok n) : Overflowing buffers := by
  apply Overflowing.count hb
  by_contra hcount
  exact hnot ((hs b hb).exists_numel hbounded hcount)

/-- The region of a list in place is taken. -/
theorem extent_settles {anchor : Buffer} (hanchor : anchor ∈ buffers)
    (hfirst : totalCount buffers = 0 → buffers.head? = some anchor)
    (hfull : totalCount buffers ≠ 0 → anchor.count ≠ 0) :
    Settles (Overflowing buffers) (anchor.extent s.heap (totalCount buffers)) := by
  -- Either there are no elements and the place overflows, or the anchor lies in memory and there are too many.
  have hlimit : blockLimit + blockLimit < sizeLimit := by decide
  have hstop : sizeLimit ≤ (anchor.offset + totalCount buffers) * anchor.dtype.width → Overflowing buffers := by
    intro hlarge
    rw [Nat.add_mul] at hlarge
    by_cases hzero : totalCount buffers = 0
    · rw [hzero, Nat.zero_mul, Nat.add_zero] at hlarge
      exact .place (hfirst hzero) hzero hlarge
    · apply Overflowing.total hanchor
      have hz : 0 ∉ anchor.shape := fun hmem => hfull hzero (List.prod_eq_zero hmem)
      have hinside := (hs anchor hanchor).inside _ (Buffer.offset_mem_offsets hz)
      have hblock := hbounded anchor.block
      rw [Nat.add_mul] at hinside
      omega
  have hwide := Nat.le_mul_of_pos_right (anchor.offset + totalCount buffers) anchor.dtype.width_pos
  refine .size_bind (fun hnot => hstop ?_) fun stop hstop' => .size_bind (fun hnot => hstop ?_) fun bytes _ =>
    .bind (require_settles _ _) fun _ _ => trivial
  · by_contra hsmall
    exact hnot ⟨_, addSize_eq_ok (by omega)⟩
  · by_contra hsmall
    rw [(addSize_eq_ok_iff.mp hstop').1] at hnot
    exact hnot ⟨_, mulSize_eq_ok (by omega)⟩

/-- A list is reconciled unless its sizes overflow. -/
theorem reconcile_settles : Settles (Overflowing buffers) ((reconcile buffers).run s).1 := by
  cases buffers with
  | nil => rfl
  | cons first others =>
    have hmem : first ∈ first :: others := List.mem_cons_self
    have hwalk : Settles (Overflowing (first :: others)) (walk first (first :: others)) :=
      walk_settles hs hbounded (fun b hb => .of_not_counted hs hbounded hb) (.of_many hmem) hmem (fun b hb => hb)
        (Nat.zero_add _).le
    refine .check_bind_run hwalk fun w hw => ?_
    have hpassed := walk_passed hw rfl
    have hrunning : w.running = totalCount (first :: others) := hpassed.running
    have hanchor : w.anchor ∈ first :: others := by
      rw [hpassed.anchored]
      exact anchor_mem rfl
    have hcases := anchor_cases first (first :: others)
    rw [← hpassed.anchored] at hcases
    rw [hrunning]
    split
    · rw [run_get_bind]
      refine .check_bind_run ?_ fun region _ => trivial
      refine extent_settles hs hbounded hanchor (fun hzero => ?_) fun hne => ?_
      · rcases hcases with ⟨he, -⟩ | ⟨hfull, -⟩
        · rw [he, List.head?_cons]
        · have hle := le_totalCount hanchor
          omega
      · rcases hcases with ⟨-, hempty⟩ | ⟨hfull, -⟩
        · exact absurd (totalCount_of_empty hempty) hne
        · exact hfull
    · refine .bind_run (zeros_settles (fun hfar => ?_) fun hlarge => ?_) fun region s₁ _ => trivial
      · have hone : Buffer.rowStride [] = 1 := rfl
        have hsmall := hpassed.small
        have hlimit : 1 < sizeLimit := by decide
        rw [hone] at hfar
        omega
      · rw [List.prod_nil, Nat.mul_one] at hlarge
        exact .total hanchor hlarge

end Walking

end FlatLayout

end Collectives
