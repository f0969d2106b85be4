import Collectives.Proofs.ExchangePlans

/-!
# How an all-gather is planned

An all-gather hands over the caller's outputs themselves, or one new region with a row for every rank that is shaped
like the first output. The rows are copied out one after the other. Where an output has no elements, its other
dimensions still count for the stride between rows, so that the place of a row can overflow though nothing lies there.
-/

namespace Collectives

namespace Buffer

/-! ## Rows of a region -/

/-- Elements from each row to the next one in a region whose rows have this shape. -/
def rowStride (shape : List Nat) : Nat := (shape.map (max · 1)).prod

/-- Rows of elements are no further apart than they are long, unless they are empty. -/
theorem rowStride_eq {shape : List Nat} (hpos : 0 < shape.prod) : rowStride shape = shape.prod := by
  unfold rowStride
  congr 1
  apply (List.map_congr_left _).trans (List.map_id shape)
  intro d hd
  have hne : d ≠ 0 := by
    rintro rfl
    exact hpos.ne' (List.prod_eq_zero hd)
  exact max_eq_left (Nat.one_le_iff_ne_zero.mpr hne)

theorem rowStride_cons (dim : Nat) (shape : List Nat) : rowStride (dim :: shape) = max dim 1 * rowStride shape := by
  rw [rowStride, List.map_cons, List.prod_cons, rowStride]

/-- Row `i`, as a buffer of one row. -/
def row (b : Buffer) (i : Nat) : Buffer :=
  { b with shape := 1 :: b.shape.tail, offset := b.offset + i * b.strides.headD 0 }

/-- The buffer is a region of its own, with `n` rows of a shape. -/
structure Rows (b : Buffer) (n : Nat) (shape : List Nat) (h : Heap) : Prop where
  shaped : b.shape = n :: shape
  strided : contiguousStrides (n :: shape) = .ok b.strides
  first : b.offset = 0
  counted : productSizes (n :: shape) = .ok (n * shape.prod)
  room : b.Room h (n * shape.prod)

variable {b : Buffer} {n i c : Nat} {shape : List Nat} {h h' : Heap} {s s' : Store}

theorem Rows.of_fresh {dtype : ElementType} (hf : Fresh dtype (n :: shape) s s' b) : b.Rows n shape s'.heap := by
  have hroom := Room.of_fresh hf
  have hcount := hf.count
  rw [List.prod_cons] at hroom hcount
  unfold numel at hcount
  rw [hf.shaped] at hcount
  exact ⟨hf.shaped, hf.contiguous, hf.first, hcount, hroom⟩

/-- A region like some buffers is a new block, with a row for each of them. -/
theorem exists_of_flatLike {outs : List Buffer} {region : Buffer}
    (h : (flatLike outs).run s = (.ok region, s')) :
    ∃ first, outs.head? = some first ∧ region.dtype = first.dtype ∧ region.block = s.heap.blocks.size ∧
      region.Rows outs.length first.shape s'.heap ∧ ∃ bytes, s'.heap = { blocks := s.heap.blocks.push bytes } := by
  obtain ⟨first, others, rfl, hfresh⟩ := flatLike_run h
  exact ⟨first, rfl, hfresh.typed, hfresh.new, .of_fresh hfresh, zeros_push h⟩

namespace Rows

theorem later (hr : b.Rows n shape h) (hx : h.Extends h') : b.Rows n shape h' :=
  { hr with room := hr.room.later hx }

theorem lt_sizeLimit (hr : b.Rows n shape h) : n < sizeLimit := by
  have hcounted := hr.counted
  unfold productSizes at hcounted
  rw [List.foldlM_cons] at hcounted
  obtain ⟨first, hfirst, -⟩ := exists_of_bind_eq_ok hcounted
  obtain ⟨rfl, hlimit⟩ := mulSize_eq_ok_iff.mp hfirst
  omega

theorem bytes_lt_sizeLimit (hr : b.Rows n shape h) (hbounded : h.Bounded) :
    n * shape.prod * b.dtype.width < sizeLimit := by
  rcases Nat.eq_zero_or_pos (n * shape.prod) with hzero | hpos
  · rw [hzero, Nat.zero_mul]
    decide
  · have hroom := hr.room hpos
    have hblock := hbounded b.block
    have hlimit : blockLimit < sizeLimit := by decide
    rw [hr.first, Nat.zero_add] at hroom
    omega

theorem total_lt_sizeLimit (hr : b.Rows n shape h) (hbounded : h.Bounded) : n * shape.prod < sizeLimit :=
  lt_of_le_of_lt (Nat.le_mul_of_pos_right _ b.dtype.width_pos) (hr.bytes_lt_sizeLimit hbounded)

/-- The first stride of the region steps from row to row. -/
theorem exists_strides (hr : b.Rows n shape h) :
    ∃ tail, b.strides = rowStride shape :: tail ∧ contiguousStrides shape = .ok tail :=
  head_of_contiguousStrides hr.strided

theorem row_offset (hr : b.Rows n shape h) (i : Nat) : (b.row i).offset = i * rowStride shape := by
  obtain ⟨tail, htail, -⟩ := hr.exists_strides
  simp only [row, htail, hr.first, List.headD_cons, Nat.zero_add]

/-- A row is taken unless its place overflows. -/
theorem narrow_eq (hr : b.Rows n shape h) (hi : i < n) :
    b.narrow i 1 = if i * rowStride shape < sizeLimit then .ok (b.row i) else .error (.fault .mulOverflow) := by
  obtain ⟨tail, htail, -⟩ := hr.exists_strides
  have hlimit := hr.lt_sizeLimit
  have hrows : b.leadingDim = .ok n := by
    unfold leadingDim
    rw [hr.shaped]
  have hstop : addSize i 1 = .ok (i + 1) := addSize_eq_ok (by omega)
  have hrange : require (decide (i + 1 ≤ n)) (.rowRange i (i + 1) n) = .ok () := if_pos (decide_eq_true hi)
  unfold narrow
  rw [hrows, ok_bind, lift_size_bind hstop, hrange, ok_bind, htail, List.headD_cons]
  split
  · rename_i hplace
    have hoffset : addSize b.offset (i * rowStride shape) = .ok (b.offset + i * rowStride shape) := by
      apply addSize_eq_ok
      rwa [hr.first, Nat.zero_add]
    rw [lift_size_bind (mulSize_eq_ok hplace), lift_size_bind hoffset]
    simp [row, htail]
  · rename_i hplace
    unfold mulSize
    rw [if_neg hplace]
    rfl

/-- A row has its elements side by side, and lies within the region. -/
theorem row_solid (hr : b.Rows n shape h) (hc : productSizes shape = .ok c) (hi : i < n) : (b.row i).Solid h c := by
  obtain ⟨tail, htail, hstrides⟩ := hr.exists_strides
  obtain rfl : c = shape.prod := eq_of_productSizes hc
  have hlength := length_of_contiguousStrides hstrides
  have hshape : (b.row i).shape = 1 :: shape := by simp [row, hr.shaped]
  have hcount : (b.row i).numel = .ok shape.prod := by
    have hone : 1 * 1 < sizeLimit := by decide
    unfold numel productSizes
    rw [hshape, List.foldlM_cons, mulSize_eq_ok hone, ok_bind]
    exact hc
  constructor
  · rw [hshape]
    simp [row, htail, hlength]
  · exact hcount
  · unfold isContiguous
    rw [hcount, ok_bind]
    split
    · rfl
    · rename_i hne
      have hz : 0 ∉ shape := fun hmem => hne (List.prod_eq_zero hmem)
      have hgapless := gapless_of_contiguousStrides hstrides hz
      have hrow : (b.row i).strides = rowStride shape :: tail := htail
      rw [hshape, hrow, List.zip_cons_cons, (gapless_reverse_cons 1 _).mpr ⟨hgapless, .inl rfl⟩]
      rfl
  · intro hpos
    rw [hr.row_offset, rowStride_eq hpos]
    have hin : i * shape.prod + shape.prod ≤ n * shape.prod := by
      rw [← Nat.succ_mul]
      exact Nat.mul_le_mul_right _ hi
    have hroom := hr.room (by omega)
    rw [hr.first, Nat.zero_add] at hroom
    exact (Nat.mul_le_mul_right _ hin).trans hroom

/-- No two rows have a byte in common. -/
theorem pairwise_apart (hr : b.Rows n shape h) (hc : productSizes shape = .ok c) :
    ((List.range n).map b.row).Pairwise Apart := by
  refine List.pairwise_map.mpr (List.pairwise_lt_range.imp_of_mem fun {i j} hi hj hlt block pos hh hh' => ?_)
  have hi := hr.row_solid hc (List.mem_range.mp hi)
  have hj := hr.row_solid hc (List.mem_range.mp hj)
  have hpos := hi.pos_of_holds hh
  obtain ⟨-, -, hend⟩ := hi.holds_iff.mp hh
  obtain ⟨-, hstart, -⟩ := hj.holds_iff.mp hh'
  obtain rfl : c = shape.prod := eq_of_productSizes hc
  -- The row ends where the next one begins at the latest.
  have hnext := Nat.mul_le_mul_right b.dtype.width (Nat.mul_le_mul_right shape.prod (Nat.succ_le_of_lt hlt))
  have hwidth (i : Nat) : (b.row i).dtype.width = b.dtype.width := rfl
  simp only [place, hr.row_offset, rowStride_eq hpos, hwidth] at hend hstart
  rw [Nat.succ_mul, Nat.add_mul] at hnext
  omega

/-- Rows of elements are found. -/
theorem place_lt_sizeLimit (hr : b.Rows n shape h) (hbounded : h.Bounded) (hpos : 0 < shape.prod) (hi : i < n) :
    i * rowStride shape < sizeLimit := by
  rw [rowStride_eq hpos]
  have htotal := hr.total_lt_sizeLimit hbounded
  have hin := Nat.mul_le_mul_right shape.prod hi.le
  omega

end Rows

end Buffer

/-! ## Copying rows out -/

/-- Each output beside the row that is for it, from row `k` on. -/
def Buffer.rowPairs (region : Buffer) (k : Nat) (outs : List Buffer) : List (Buffer × Buffer) :=
  (outs.zipIdx k).map fun p => (p.1, region.row p.2)

section Copying

variable {region : Buffer} {n c k : Nat} {shape : List Nat} {outs : List Buffer} {h : Heap} {s : Store}

theorem Buffer.rowPairs_cons (region : Buffer) (k : Nat) (out : Buffer) (outs : List Buffer) :
    region.rowPairs k (out :: outs) = (out, region.row k) :: region.rowPairs (k + 1) outs := by
  simp [rowPairs]

/-- Outputs for all rows are beside these rows. -/
theorem Buffer.rowPairs_eq_zip (region : Buffer) (hlength : outs.length = n) :
    region.rowPairs 0 outs = outs.zip ((List.range n).map region.row) := by
  ext1 i
  by_cases hi : i < n
  · simp [rowPairs, List.zip_eq_zipWith, hi, hlength]
  · simp [rowPairs, hi, hlength]

/-- Outputs of the rows' type can be copied out of them. -/
theorem Buffer.Rows.copyable (hr : region.Rows n shape h) (hc : productSizes shape = .ok c)
    (houts : ∀ b ∈ outs, b.Solid h c ∧ b.dtype = region.dtype) (hk : k + outs.length ≤ n) :
    FlatLayout.Copyable h (region.rowPairs k outs) := by
  rintro ⟨b, part⟩ hmem
  obtain ⟨⟨out, i⟩, hout, he⟩ := List.mem_map.mp hmem
  obtain ⟨hstart, hend, hget⟩ := List.mem_zipIdx hout
  cases he
  have hmem : out ∈ outs := by
    rw [hget]
    exact List.getElem_mem _
  have hrow : i < n := by omega
  exact ⟨(houts out hmem).2.symm, c, (houts out hmem).1, hr.row_solid hc hrow⟩

/-- Copying rows out is copying each row to its output, where no place of a row overflows. -/
theorem copyRows_run (hr : region.Rows n shape h) (hk : k + outs.length ≤ n)
    (hplaces : ∀ i < n, i * Buffer.rowStride shape < sizeLimit) (s : Store) :
    (copyRows region k outs).run s = (FlatLayout.copyAll (region.rowPairs k outs)).run s := by
  induction outs generalizing k s with
  | nil => rfl
  | cons out outs ih =>
    rw [List.length_cons] at hk
    have hrow : region.narrow k 1 = .ok (region.row k) := by
      rw [hr.narrow_eq (by omega), if_pos (hplaces k (by omega))]
    rw [Buffer.rowPairs_cons, copyRows, run_check_bind hrow, FlatLayout.copyAll]
    rcases hrun : (out.copyFrom (region.row k)).run s with ⟨answer, s₁⟩
    cases answer with
    | ok _ => rw [run_bind_ok hrun, run_bind_ok hrun, ih (by omega) s₁]
    | error failure => rw [run_bind_error hrun, run_bind_error hrun]

/-- Rows that are copied out are found. -/
theorem places_of_copyRows (hr : region.Rows n shape h) (hk : k + outs.length ≤ n)
    (hrun : ((copyRows region k outs).run s).1 = .ok ()) :
    ∀ i < outs.length, (k + i) * Buffer.rowStride shape < sizeLimit := by
  induction outs generalizing k s with
  | nil => simp
  | cons out outs ih =>
    rw [List.length_cons] at hk
    have hnarrow := hr.narrow_eq (i := k) (by omega)
    by_cases hplace : k * Buffer.rowStride shape < sizeLimit
    · rw [if_pos hplace] at hnarrow
      rw [copyRows, run_check_bind hnarrow] at hrun
      obtain ⟨_, s₁, -, hrest⟩ := exists_of_run_bind (Prod.ext hrun rfl)
      have hlater := ih (k := k + 1) (s := s₁) (by omega) (by rw [hrest])
      rintro (_ | i) hi
      · exact hplace
      · have hi := hlater i (by simpa using hi)
        rwa [Nat.add_assoc, Nat.add_comm 1 i] at hi
    · rw [if_neg hplace] at hnarrow
      rw [copyRows, run_check_bind_error hnarrow] at hrun
      cases hrun

/-- Copying rows out succeeds, unless the outputs are empty and the place of a row overflows. -/
theorem copyRows_ends (hr : region.Rows n shape s.heap) (hc : productSizes shape = .ok c)
    (houts : ∀ b ∈ outs, b.Solid s.heap c ∧ b.dtype = region.dtype) (hk : k + outs.length ≤ n)
    (hbounded : s.heap.Bounded) :
    ((copyRows region k outs).run s).1 = .ok () ∨
      ((copyRows region k outs).run s).1 = .error (.fault .mulOverflow) ∧ shape.prod = 0 ∧
        sizeLimit ≤ n * Buffer.rowStride shape := by
  induction outs generalizing k s with
  | nil => exact .inl rfl
  | cons out outs ih =>
    rw [List.length_cons] at hk
    have hrow : k < n := by omega
    obtain ⟨⟨hout, htype⟩, hrest⟩ := List.forall_mem_cons.mp houts
    by_cases hplace : k * Buffer.rowStride shape < sizeLimit
    · have hnarrow : region.narrow k 1 = .ok (region.row k) := by rw [hr.narrow_eq hrow, if_pos hplace]
      obtain ⟨s₁, hcopy, -⟩ := Buffer.copyFrom_ok hout (hr.row_solid hc hrow) htype.symm hbounded
      have hx := (Buffer.copyFrom_extends out (region.row k)).of_run hcopy
      rw [copyRows, run_check_bind hnarrow, run_bind_ok hcopy]
      exact ih (hr.later hx) (fun b hb => ⟨(hrest b hb).1.later hx, (hrest b hb).2⟩) (by omega) (hx.bounded hbounded)
    · have hnarrow : region.narrow k 1 = .error (.fault .mulOverflow) := by rw [hr.narrow_eq hrow, if_neg hplace]
      rw [copyRows, run_check_bind_error hnarrow]
      have hempty : shape.prod = 0 := by
        by_contra hne
        exact hplace (hr.place_lt_sizeLimit hbounded (Nat.pos_of_ne_zero hne) hrow)
      have hmore := Nat.mul_le_mul_right (Buffer.rowStride shape) hrow.le
      exact .inr ⟨rfl, hempty, by omega⟩

end Copying

/-! ## Where rows are received -/

/-- Blocks of one size start at its multiples. -/
theorem places_replicate (n count : Nat) : places (List.replicate n count) = (List.range n).map (· * count) := by
  ext1 i
  by_cases hi : i < n
  · simp [places, hi, List.take_replicate, Nat.min_eq_left hi.le]
  · simp [places, hi]

section Addresses

variable {n c : Nat} {tag : Tag} {a start : Address} {d : Destination} {recv : List Address}

/-- An all-gather of as much from every rank passes the checks at issue, if there is a place for the block of each. -/
theorem Fabric.contribution_allgatherv (hd : Fabric.addresses n tag (List.replicate n c) d = .ok recv) :
    Fabric.contribution n (.allgatherv a c d (List.replicate n c) tag) =
      .ok { kind := .allgatherv, tag, send := a, recv, sendCounts := [c], recvCounts := List.replicate n c } := by
  have hcounts : Fabric.checkCounts n "recv_counts" (List.replicate n c) = .ok () := if_pos List.length_replicate
  change (Fabric.checkCounts n "recv_counts" _ >>= fun _ => _) = _
  rw [hcounts, ok_bind, hd, ok_bind]
  rfl

/-- The blocks that are received from the start of a region on are its rows. -/
theorem Buffer.Rows.exists_addresses {region : Buffer} {shape : List Nat} {h : Heap} (hr : region.Rows n shape h)
    (hbounded : h.Bounded) (hc : productSizes shape = .ok c) (htag : region.dtype.tag? = some tag)
    (hstart : region.address h = .ok start) :
    ∃ recv, Fabric.addresses n tag (List.replicate n c) (.flat start) = .ok recv ∧
      (0 < c → recv = ((List.range n).map region.row).map fun b => b.place b.offset) := by
  obtain rfl : c = shape.prod := eq_of_productSizes hc
  have hwidth : tag.width = region.dtype.width := ElementType.width_of_tag? htag
  have htotal : (List.replicate n shape.prod).sum < sizeLimit := by
    rw [List.sum_replicate, smul_eq_mul]
    exact hr.total_lt_sizeLimit hbounded
  have hplaces : ∀ place ∈ (List.range n).map (· * shape.prod),
      (do let bytes ← mulSize place tag.width; return start.advance bytes : Except Refusal Address) =
        .ok (start.advance (place * tag.width)) := by
    intro place hplace
    obtain ⟨i, hi, rfl⟩ := List.mem_map.mp hplace
    have hbytes := hr.bytes_lt_sizeLimit hbounded
    have hin := Nat.mul_le_mul_right tag.width (Nat.mul_le_mul_right shape.prod (List.mem_range.mp hi).le)
    rw [← hwidth] at hbytes
    rw [mulSize_eq_ok (lt_of_le_of_lt hin hbytes)]
    rfl
  refine ⟨((List.range n).map (· * shape.prod)).map fun place => start.advance (place * tag.width), ?_, fun hpos => ?_⟩
  · change (liftM (displacements _) >>= fun _ => _) = _
    rw [displacements_eq_ok htotal, places_replicate]
    exact mapM_eq_ok_map hplaces
  · rw [List.map_map, List.map_map]
    refine List.map_congr_left fun i hi => ?_
    have hn := Nat.zero_lt_of_lt (List.mem_range.mp hi)
    rw [Buffer.address_eq hr.room (Nat.mul_pos hn hpos) hstart]
    simp only [Function.comp_apply, Buffer.place, Address.advance, hr.first, hr.row_offset, Buffer.rowStride_eq hpos,
      hwidth, Nat.zero_mul, Nat.zero_add]
    rfl

end Addresses

/-! ## How an all-gather is planned -/

namespace Group

variable {g : Group} {s s' : Store} {p : Plan}

/-- An all-gather as it was planned. Every rank's block is for one output, directly or through a row of a new region. -/
structure PlansAllgather (g : Group) (outs : List Buffer) (input : Buffer) (tag : Tag) (destination : Destination)
    (p : Plan) (s s' : Store) : Prop where
  operation : p.operation = "allgather"
  length : outs.length = g.size
  counted : input.numel = .ok input.count
  contiguous : input.isContiguous = .ok true
  tagged : input.dtype.tag? = some tag
  alike : ∀ b ∈ outs, b.numel = .ok input.count ∧ b.dtype = input.dtype ∧ b.isContiguous = .ok true
  called : p.call = (input.address s'.heap).map fun a =>
    Call.allgatherv a input.count destination (List.replicate g.size input.count) tag
  vector : g.mode = .vector → p.copyOut = none ∧ s'.heap = s.heap ∧
    ∃ starts, outs.mapM (Buffer.address s.heap) = .ok starts ∧ destination = .perRank starts
  flat : g.mode = .flat → ∃ first region start, outs.head? = some first ∧ p.copyOut = some (.rows region outs) ∧
    region.dtype = input.dtype ∧ region.block = s.heap.blocks.size ∧ region.Rows g.size first.shape s'.heap ∧
    region.address s'.heap = .ok start ∧ destination = .flat start ∧
    ∃ bytes, s'.heap = { blocks := s.heap.blocks.push bytes }

/-- What an all-gather is planned as: one list of outputs, and one input. -/
theorem exists_of_planAllgather {outputs : List (List Buffer)} {inputs : List Buffer}
    (h : (g.planAllgather outputs inputs).run s = (.ok p, s')) :
    ∃ outs input tag destination, outputs = [outs] ∧ inputs = [input] ∧
      g.PlansAllgather outs input tag destination p s s' := by
  obtain ⟨input, hsingle, h⟩ := exists_of_check_bind h
  obtain ⟨hinputs, hc⟩ := single_eq_ok hsingle
  rcases outputs with _ | ⟨outs, _ | ⟨more, rest⟩⟩
  · cases h
  · obtain ⟨_, hlength, h⟩ := exists_of_check_bind h
    obtain ⟨_, halike, h⟩ := exists_of_check_bind h
    obtain ⟨tag, htag, h⟩ := exists_of_check_bind h
    obtain ⟨count, hcount, h⟩ := exists_of_size_bind h
    obtain ⟨_, s₁, hreport, h⟩ := exists_of_run_bind h
    obtain rfl : count = input.count := eq_of_productSizes hcount
    have hsize : outs.length = g.size := eq_of_beq (of_require hlength)
    have halike := checkAlike_eq_ok hcount halike
    have hheap := report_run hreport
    cases hmode : g.mode with
    | vector =>
      rw [hmode, run_get_bind] at h
      obtain ⟨starts, s₂, hmapM, h⟩ := exists_of_run_bind h
      obtain ⟨hstarts, rfl⟩ := of_run_mapM hmapM
      cases h
      rw [hheap] at hstarts
      refine ⟨outs, input, tag, .perRank starts, rfl, hinputs, ?_⟩
      constructor
      · rfl
      · exact hsize
      · exact hcount
      · exact checkBuffer_eq_ok hc
      · exact tag_eq_ok htag
      · exact halike
      · cases input.address s'.heap <;> rfl
      · exact fun _ => ⟨rfl, hheap, starts, hstarts, rfl⟩
      · intro hflat
        rw [hmode] at hflat
        cases hflat
    | flat =>
      rw [hmode] at h
      obtain ⟨region, s₂, hregion, h⟩ := exists_of_run_bind h
      rw [run_get_bind] at h
      obtain ⟨start, hstart, h⟩ := exists_of_size_bind h
      cases h
      obtain ⟨first, hfirst, htype, hnew, hrows, hpush⟩ := Buffer.exists_of_flatLike hregion
      rw [hheap] at hnew hpush
      rw [hsize] at hrows
      have hmem : first ∈ outs := List.mem_of_mem_head? hfirst
      refine ⟨outs, input, tag, .flat start, rfl, hinputs, ?_⟩
      constructor
      · rfl
      · exact hsize
      · exact hcount
      · exact checkBuffer_eq_ok hc
      · exact tag_eq_ok htag
      · exact halike
      · cases input.address s'.heap <;> rfl
      · intro hvector
        rw [hmode] at hvector
        cases hvector
      · intro _
        exact ⟨first, region, start, hfirst, rfl, htype.trans (halike first hmem).2.1, hnew, hrows, hstart, rfl, hpush⟩
  · cases h

end Group

end Collectives
