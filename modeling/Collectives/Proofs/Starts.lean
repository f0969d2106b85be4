import Collectives.Proofs.SplitTables

/-!
# Where views start

A buffer with elements starts at one of them, so inside its block. A buffer without elements need not: rows are checked
against the number of rows and not against the block, so skipping rows without elements, or stepping behind the last row
where rows are far apart, leads wherever the strides do. Buffers that are made without such a view start inside their
blocks. But from every buffer that is held a view can be had that has no elements and starts any number of elements
further on, and its address is as far behind the block.
-/

namespace Collectives

/-- Where the first element would be is in the block, or at its end. -/
def Buffer.StartsInside (h : Heap) (b : Buffer) : Prop := b.offset * b.dtype.width ≤ h.blockSize b.block

namespace View

/-- How many elements further on a view of the buffer starts. -/
def skipped (b : Buffer) : View → Nat
  | .rows start _ => start * b.strides.headD 0
  | _ => 0

/-- The view begins behind the last row, or skips rows without elements, and that leads over more elements than there
are. -/
def Strays (b : Buffer) : View → Prop
  | .rows start length => (b.count = 0 ∨ start = b.rows) ∧ b.count < (View.rows start length).skipped b
  | _ => False

end View

namespace Buffer

variable {h h' : Heap} {b b' : Buffer} {s s' : Store}

/-! ## Buffers with elements -/

theorem Sound.offset_add_count_le (hs : b.Sound h) (hsome : b.count ≠ 0) :
    (b.offset + b.count) * b.dtype.width ≤ h.blockSize b.block :=
  hs.offset_add_prod_le fun hz => hsome (List.prod_eq_zero hz)

theorem Sound.startsInside (hs : b.Sound h) (hsome : b.count ≠ 0) : b.StartsInside h :=
  (Nat.mul_le_mul_right _ (Nat.le_add_right _ _)).trans (hs.offset_add_count_le hsome)

/-- Each row of a buffer with elements begins inside the block. -/
theorem Sound.row_inside {start : Nat} (hs : b.Sound h) (hsome : b.count ≠ 0) (hstart : start < b.rows) :
    (b.offset + start * b.strides.headD 0) * b.dtype.width ≤ h.blockSize b.block := by
  cases hshape : b.shape with
  | nil =>
    rw [rows, hshape] at hstart
    exact absurd hstart (Nat.not_lt_zero _)
  | cons rows dims =>
    rw [Buffer.rows, hshape, List.headD_cons] at hstart
    have hrow := hs.inside _ (row_mem_offsets hs.ranked hshape hsome hstart)
    exact (Nat.mul_le_mul_right _ (Nat.le_succ _)).trans hrow

/-! ## Where buffers start that are made -/

theorem Fresh.startsInside {dtype : ElementType} {shape : List Nat} (hf : Fresh dtype shape s s' b) :
    b.StartsInside s'.heap := by
  rw [StartsInside, hf.first, Nat.zero_mul]
  exact Nat.zero_le _

theorem StartsInside.later (hb : b.StartsInside h) (hx : h.Extends h') : b.StartsInside h' := by
  rcases Nat.eq_zero_or_pos (b.offset * b.dtype.width) with hzero | hpos
  · rw [StartsInside, hzero]
    exact Nat.zero_le _
  · exact hx.le_blockSize hpos hb

/-- The region of some buffers is new, or starts where one of them does. -/
theorem StartsInside.region {buffers : List Buffer} {l : FlatLayout} (hb : ∀ b ∈ buffers, b.StartsInside s.heap)
    (h : (FlatLayout.reconcile buffers).run s = (.ok l, s')) : l.region.StartsInside s'.heap := by
  obtain ⟨anchor, hl⟩ := FlatLayout.reconcile_run h
  rcases hl.region with ⟨hextent, hheap⟩ | ⟨s₁, hfresh, hheap⟩
  · rw [(extent_eq_ok hextent).1, hheap]
    exact hb anchor hl.among
  · rw [hheap]
    exact hfresh.startsInside

/-- Only a view of some rows starts elsewhere than the buffer does. -/
theorem offset_of_view {v : View} (hv : v.of b = .ok b') : b'.offset = b.offset + v.skipped b := by
  cases v with
  | whole =>
    cases hv
    rfl
  | shaped shape =>
    obtain ⟨n, strides, -, -, -, -, rfl⟩ := exists_of_reshape hv
    rfl
  | flat =>
    obtain ⟨numel, -, hv⟩ := exists_of_lift_bind hv
    obtain ⟨n, strides, -, -, -, -, rfl⟩ := exists_of_reshape hv
    rfl
  | rows start length =>
    obtain ⟨rows, dims, -, -, rfl⟩ := exists_of_narrow hv
    rfl
  | transposed dim0 dim1 =>
    obtain ⟨_, -, hv⟩ := exists_of_bind_eq_ok hv
    cases hv
    rfl
  | layout kind =>
    cases hv
    rfl
  | device place =>
    cases hv
    rfl

/-- A view starts inside the block exactly if what it skips does not lead out of it. -/
theorem startsInside_of_view {v : View} (hv : v.of b = .ok b') :
    b'.StartsInside h ↔ (b.offset + v.skipped b) * b.dtype.width ≤ h.blockSize b.block := by
  obtain ⟨hblock, hdtype⟩ := beside_view hv
  rw [StartsInside, offset_of_view hv, hblock, hdtype]

/-- A view that does not stray starts inside the block if the buffer does. -/
theorem StartsInside.view {v : View} (hb : b.StartsInside h) (hs : b.Sound h) (hv : v.of b = .ok b')
    (hnot : ¬v.Strays b) : b'.StartsInside h := by
  rw [startsInside_of_view hv]
  cases v with
  | rows start length =>
    obtain ⟨rows, dims, hshape, hin, -⟩ := exists_of_narrow hv
    have hrows : b.rows = rows := by rw [Buffer.rows, hshape, List.headD_cons]
    by_cases hfew : (View.rows start length).skipped b ≤ b.count
    · by_cases hnone : b.count = 0
      · rw [hnone, Nat.le_zero] at hfew
        rw [hfew]
        exact hb
      · exact (Nat.mul_le_mul_right _ (Nat.add_le_add_left hfew _)).trans (hs.offset_add_count_le hnone)
    · have hmany : ¬(b.count = 0 ∨ start = b.rows) := fun hor => hnot ⟨hor, Nat.lt_of_not_le hfew⟩
      rw [not_or] at hmany
      exact hs.row_inside hmany.1 (by omega)
  | _ => exact hb

/-- The buffers that a caller can hold without a view that strays. The parts of a buffer that is split are views of some
of its rows. -/
inductive Steady : Store → Buffer → Prop where
  | fresh {s s' : Store} {dtype : ElementType} {shape : List Nat} {b : Buffer} : Fresh dtype shape s s' b → Steady s' b
  | view {s : Store} {v : View} {b b' : Buffer} : Steady s b → ¬v.Strays b → v.of b = .ok b' → Steady s b'
  | region {s s' : Store} {buffers : List Buffer} {l : FlatLayout} : (∀ b ∈ buffers, Steady s b) →
      (FlatLayout.reconcile buffers).run s = (.ok l, s') → Steady s' l.region
  /-- Whatever happens to memory, the buffer is still held. -/
  | later {s s' : Store} {b : Buffer} : Steady s b → s.heap.Extends s'.heap → Steady s' b

theorem Steady.sound (hb : Steady s b) : b.Sound s.heap := by
  induction hb with
  | fresh hf => exact .of_fresh hf
  | view _ _ hv ih => exact ih.view hv
  | region _ h => exact .region h
  | later _ hx ih => exact ih.later hx

/-- However many views follow each other, none leaves the block unless one strays. -/
theorem Steady.startsInside (hb : Steady s b) : b.StartsInside s.heap := by
  induction hb with
  | fresh hf => exact hf.startsInside
  | view hb hnot hv ih => exact ih.view hb.sound hv hnot
  | region _ h ih => exact .region ih h
  | later _ hx ih => exact ih.later hx

/-! ## Views that stray -/

/-- A buffer that starts with no rows, seen as any number of rows of nothing. -/
theorem reshape_nothing {dims : List Nat} {n : Nat} (hshape : b.shape = 0 :: dims) (hn : n < sizeLimit) :
    b.reshape [n, 0] = .ok { b with shape := [n, 0], strides := [1, 1] } := by
  have hone : 1 < sizeLimit := by decide
  have hlimit : 0 < sizeLimit := by decide
  have hcount : b.numel = .ok 0 := by
    rw [numel, hshape, productSizes_eq_ok, List.prod_cons, Nat.zero_mul]
    intro k
    cases k with
    | zero => exact hone
    | succ k => rwa [List.take_succ_cons, List.prod_cons, Nat.zero_mul]
  have hproduct : productSizes [n, 0] = .ok 0 := by
    have hzero : [n, 0].prod = 0 := by rw [List.prod_cons, List.prod_singleton, Nat.mul_zero]
    rw [productSizes_eq_ok, hzero]
    intro k
    rcases k with _ | _ | k
    · exact hone
    · rwa [List.take_succ_cons, List.take_zero, List.prod_singleton]
    · rwa [List.take_of_length_le (Nat.le_add_left 2 k), hzero]
  exact reshape_eq_ok (isContiguous_of_empty hcount) hcount hproduct rfl

/-- A single element, seen as one row. -/
theorem flatten_single (hshape : b.shape = []) : b.flatten = .ok { b with shape := [1], strides := [1] } := by
  have hcount : b.numel = .ok 1 := by
    rw [numel, hshape]
    rfl
  have hc : b.isContiguous = .ok true := by
    unfold isContiguous
    rw [hcount, hshape]
    rfl
  unfold flatten
  rw [lift_size_bind hcount]
  exact reshape_eq_ok hc hcount rfl rfl

end Buffer

namespace Holding

variable {s : Store} {held : List Buffer} {b b' : Buffer}

/-- A view of a buffer that is held takes its place. -/
private theorem exchange {v : View} (hheld : Holding s (b :: held)) (hv : v.of b = .ok b') : Holding s (b' :: held) :=
  .among (.view hheld List.mem_cons_self hv) (List.cons_subset_cons _ (List.subset_cons_self _ _))

/-- From a buffer with rows, a view without elements can be had that starts any number of elements further on: none of
its rows, as that many rows of nothing, of which all are skipped. -/
theorem exists_stray_of_rows {rows n : Nat} {dims : List Nat} (hheld : Holding s (b :: held))
    (hshape : b.shape = rows :: dims) (hn : b.offset + n < sizeLimit) :
    ∃ b', Holding s (b' :: held) ∧ b.Beside b' ∧ b'.count = 0 ∧ b'.offset = b.offset + n := by
  have hrows := (hheld.measured b List.mem_cons_self).rows_lt
  rw [Buffer.rows, hshape, List.headD_cons] at hrows
  have hnone : (View.rows 0 0).of b = .ok (b.band 0 0) :=
    Buffer.narrow_eq_ok hshape (Nat.zero_le _) hrows (by omega)
  have hempty : (b.band 0 0).shape = 0 :: dims := Buffer.shape_band hshape 0 0
  have hmany := Buffer.reshape_nothing hempty (n := n) (by omega)
  have hplace : (b.band 0 0).offset = b.offset := by simp [Buffer.band]
  generalize hwide : ({ b.band 0 0 with shape := [n, 0], strides := [1, 1] } : Buffer) = wide at hmany
  have hskipped : (View.rows n 0).of wide = .ok (wide.band n 0) := by
    have hlisted : wide.shape = n :: [0] := by rw [← hwide]
    refine Buffer.narrow_eq_ok hlisted (Nat.add_zero n).le (by omega) ?_
    rw [← hwide, List.headD_cons, hplace, Nat.mul_one]
    exact hn
  refine ⟨wide.band n 0, ((hheld.exchange hnone).exchange (v := .shaped [n, 0]) hmany).exchange hskipped, ?_, ?_, ?_⟩
  · rw [← hwide]
    exact ⟨rfl, rfl⟩
  · rw [Buffer.count, Buffer.band, List.prod_cons, Nat.zero_mul]
  · rw [Buffer.band, ← hwide, List.headD_cons, hplace, Nat.mul_one]

/-- From every buffer that is held, a view without elements can be had that starts any number of elements further on. -/
theorem exists_stray {n : Nat} (hheld : Holding s held) (hb : b ∈ held) (hn : b.offset + n < sizeLimit) :
    ∃ b', Holding s (b' :: held) ∧ b.Beside b' ∧ b'.count = 0 ∧ b'.offset = b.offset + n := by
  have hcopy : Holding s (b :: held) := .among hheld (List.cons_subset.mpr ⟨hb, List.Subset.refl held⟩)
  cases hshape : b.shape with
  | nil =>
    have hrow := hcopy.exchange (v := .flat) (Buffer.flatten_single hshape)
    obtain ⟨b', hheld', hbeside, hnone, hoffset⟩ := hrow.exists_stray_of_rows (n := n) rfl hn
    exact ⟨b', hheld', hbeside, hnone, hoffset⟩
  | cons rows dims => exact hcopy.exists_stray_of_rows hshape hn

end Holding

/-- A held buffer starts inside its block if it has elements, or if it was made without a view that strays; a view of it
does exactly if what the view skips does not lead out of the block. But whatever the buffer, a view of it without
elements can be had that starts any number of elements further on; it does not start inside the block as soon as that
leads out of it, and its address is behind the block, unless the block has no bytes at all. -/
theorem Holding.starts_inside {s : Store} {held : List Buffer} {b : Buffer} (hheld : Holding s held) (hb : b ∈ held) :
    (b.count ≠ 0 → b.StartsInside s.heap) ∧ (Buffer.Steady s b → b.StartsInside s.heap) ∧
      (∀ (v : View) (b' : Buffer), v.of b = .ok b' →
        (b'.StartsInside s.heap ↔ (b.offset + v.skipped b) * b.dtype.width ≤ s.heap.blockSize b.block)) ∧
      ∀ n, s.heap.blockSize b.block < (b.offset + n) * b.dtype.width → (b.offset + n) * b.dtype.width < sizeLimit →
        ∃ b', Holding s (b' :: held) ∧ b.Beside b' ∧ b'.count = 0 ∧ b'.offset = b.offset + n ∧
          ¬b'.StartsInside s.heap ∧
          (s.heap.blockSize b.block ≠ 0 → b'.address s.heap = .ok (b.place (b.offset + n))) := by
  refine ⟨(hheld.tenancy.sound b hb).startsInside, Buffer.Steady.startsInside, fun v b' => Buffer.startsInside_of_view,
    fun n hout hfits => ?_⟩
  have hwidth := Nat.le_mul_of_pos_right (b.offset + n) b.dtype.width_pos
  obtain ⟨b', hheld', ⟨hblock, hdtype⟩, hnone, hoffset⟩ := hheld.exists_stray hb (n := n) (by omega)
  refine ⟨b', hheld', ⟨hblock, hdtype⟩, hnone, hoffset, ?_, fun hbytes => ?_⟩
  · rw [Buffer.StartsInside, hoffset, hblock, hdtype]
    exact Nat.not_le_of_lt hout
  · rw [← hblock] at hbytes
    rw [Buffer.address_of_size hbytes (by rwa [hoffset, hdtype]), Buffer.place, Buffer.place, hoffset, hblock, hdtype]

/-- A table of twelve bytes starts inside its block, and a view of it starts two thousand bytes from its start. Where the
rows of two of its columns overlap, stepping behind the last one also leads out of the block. -/
theorem Holding.starts_inside_of_table :
    ∃ (s : Store) (table crossed stepped : Buffer), Holding s [table, crossed] ∧ s.heap.blockSize table.block = 12 ∧
      table.StartsInside s.heap ∧
      (∃ far, Holding s [far, table, crossed] ∧ far.count = 0 ∧ far.offset = 1000 ∧ ¬far.StartsInside s.heap ∧
        far.address s.heap = .ok { block := some table.block, pos := 2000 }) ∧
      crossed.count = 4 ∧ crossed.StartsInside s.heap ∧ (View.rows 2 0).of crossed = .ok stepped ∧
      ¬stepped.StartsInside s.heap := by
  let table : Buffer := { block := 0, dtype := .i16, shape := [2, 3], strides := [3, 1], offset := 0 }
  let columns : Buffer := { table with shape := [3, 2], strides := [1, 3] }
  let last : Buffer := { columns with shape := [2, 2], offset := 1 }
  let crossed : Buffer := { last with strides := [3, 1] }
  let stepped : Buffer := { crossed with shape := [0, 2], offset := 7 }
  let s : Store := { heap := { blocks := #[#[1, 0, 2, 0, 3, 0, 4, 0, 5, 0, 6, 0]] } }
  have hbounded : Heap.Bounded {} := fun block => Nat.zero_le _
  have htable : (Buffer.ofWords .i16 [1, 2, 3, 4, 5, 6] [2, 3]).run {} = (.ok table, s) := rfl
  have hcolumns : (View.transposed 0 1).of table = .ok columns := rfl
  have hlast : (View.rows 1 2).of columns = .ok last := rfl
  have hcrossed : (View.transposed 0 1).of last = .ok crossed := rfl
  have hstepped : (View.rows 2 0).of crossed = .ok stepped := rfl
  have hmade : Holding s [table] := .ofWords (.nothing hbounded) htable
  have hviews : Holding s [crossed, last, columns, table] :=
    .view (.view (.view hmade (by decide) hcolumns) (by decide) hlast) (by decide) hcrossed
  have hheld : Holding s [table, crossed] := .among hviews (by decide)
  obtain ⟨hsome, -, -, hstray⟩ := hheld.starts_inside (b := table) (by decide)
  obtain ⟨far, hfar, -, hnone, hoffset, hout, haddress⟩ := hstray 1000 (by decide) (by decide)
  obtain ⟨hsome', -, hview, -⟩ := hheld.starts_inside (b := crossed) (by decide)
  refine ⟨s, table, crossed, stepped, hheld, rfl, hsome (by decide), ⟨far, hfar, hnone, hoffset, hout, ?_⟩, rfl,
    hsome' (by decide), hstepped, ?_⟩
  · have hplace : table.place (table.offset + 1000) = { block := some table.block, pos := 2000 } := by decide
    rw [haddress (by decide), hplace]
  · rw [hview _ _ hstepped]
    decide

end Collectives
