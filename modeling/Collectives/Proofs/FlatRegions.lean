import Collectives.Proofs.Copies

/-!
# Lists of buffers as parts of a region

The region of a list has one part for each buffer: as many elements as the buffer has, after the parts of the buffers
before it. If the buffers lie back to back, the parts are the buffers themselves. Otherwise the region is a new block,
and `pack` and `unpack` copy between each buffer and its part.
-/

namespace Collectives

/-! ## Stretches of a region -/

namespace Buffer

/-- Some adjacent elements, in one dimension. -/
def stretch (b : Buffer) (start length : Nat) : Buffer :=
  { b with shape := [length], strides := [1], offset := b.offset + start }

/-- Adjacent stretches, one for each length. -/
def stretches (b : Buffer) (start : Nat) : List Nat → List Buffer
  | [] => []
  | length :: lengths => b.stretch start length :: b.stretches (start + length) lengths

/-- The buffer has one dimension, without gaps. -/
structure Flat (b : Buffer) (total : Nat) : Prop where
  shaped : b.shape = [total]
  strided : b.strides = [1]

variable {h : Heap} {b : Buffer} {start length total : Nat} {lengths : List Nat}

theorem getElem?_stretches (b : Buffer) (start : Nat) (lengths : List Nat) (i : Nat) :
    (b.stretches start lengths)[i]? =
      lengths[i]?.map fun length => b.stretch (start + (lengths.take i).sum) length := by
  induction lengths generalizing start i with
  | nil => rfl
  | cons length lengths ih =>
    cases i with
    | zero => rfl
    | succ i =>
      rw [stretches, List.getElem?_cons_succ, ih, List.getElem?_cons_succ, List.take_succ_cons, List.sum_cons,
        Nat.add_assoc]

/-- A stretch of a region that its block has room for. -/
theorem Room.stretch (hroom : b.Room h total) (hin : start + length ≤ total) (hsmall : length < sizeLimit) :
    (b.stretch start length).Solid h length := by
  have hcount : (b.stretch start length).numel = .ok length := by
    have hone : 1 * length < sizeLimit := by rwa [Nat.one_mul]
    change (mulSize 1 length >>= fun product => pure product) = _
    rw [mulSize_eq_ok hone, Nat.one_mul]
    rfl
  refine ⟨rfl, hcount, ?_, fun hpos => ?_⟩
  · have hgapless : gapless 1 ((b.stretch start length).shape.zip (b.stretch start length).strides).reverse = true := by
      simp [Buffer.stretch, gapless]
    unfold isContiguous
    rw [hcount, ok_bind, hgapless]
    split <;> rfl
  · exact (Nat.mul_le_mul_right _ (by simp only [Buffer.stretch]; omega)).trans (hroom (by omega))

/-- Rows of a region of one dimension are a stretch of it. -/
theorem Flat.narrow_eq_ok (hb : b.Flat total) (hin : start + length ≤ total) (hsize : b.offset + total < sizeLimit) :
    b.narrow start length = .ok (b.stretch start length) := by
  have hstride : b.strides.headD 0 = 1 := by rw [hb.strided, List.headD_cons]
  have hband : b.band start length = b.stretch start length := by
    rw [band, stretch, hstride, Nat.mul_one, hb.shaped, hb.strided, List.tail_cons]
  rw [← hband]
  apply Buffer.narrow_eq_ok hb.shaped hin (by omega)
  rw [hstride]
  omega

private theorem Flat.splitFrom_eq_ok (hb : b.Flat total) (hin : start + lengths.sum ≤ total)
    (hsize : b.offset + total < sizeLimit) : b.splitFrom start lengths = .ok (b.stretches start lengths) := by
  induction lengths generalizing start with
  | nil => rfl
  | cons length lengths ih =>
    rw [List.sum_cons] at hin
    have hnext : addSize start length = .ok (start + length) := addSize_eq_ok (by omega)
    rw [splitFrom, hb.narrow_eq_ok (by omega) hsize, ok_bind, lift_size_bind hnext, ih (by omega)]
    rfl

/-- A region of one dimension can be split into stretches that fill it. -/
theorem Flat.split_eq_ok (hb : b.Flat lengths.sum) (hsize : b.offset + lengths.sum < sizeLimit) :
    b.split lengths = .ok (b.stretches 0 lengths) := by
  have htotal : require (lengths.sum == lengths.sum) (.splitTotal lengths.sum lengths.sum) = .ok () :=
    if_pos (beq_self_eq_true _)
  have hsum : 0 + lengths.sum ≤ lengths.sum := by omega
  unfold split
  rw [lift_size_bind (sumSizes_eq_ok (by omega)), leadingDim_eq hb.shaped, ok_bind, htotal, ok_bind,
    hb.splitFrom_eq_ok hsum hsize]

/-- A stretch has adjacent elements. -/
theorem offsets_stretch (b : Buffer) (start length : Nat) :
    (b.stretch start length).offsets = List.range' (b.offset + start) length := by
  rw [offsets_of_gapless rfl (by simp [stretch, gapless])]
  simp [stretch]

/-- A region of one dimension is the stretch of all its elements. -/
theorem Flat.eq_stretch (hb : b.Flat total) : b.stretch 0 total = b := by
  obtain ⟨block, dtype, shape, strides, offset, layout, device⟩ := b
  obtain ⟨hshape, hstrides⟩ := hb
  dsimp only at hshape hstrides
  rw [hshape, hstrides]
  rfl

/-- A stretch of a region has bytes of the region only. -/
theorem Flat.holds_of_stretch {block pos : Nat} (hb : b.Flat total) (hin : start + length ≤ total)
    (hh : (b.stretch start length).Holds block pos) : b.Holds block pos := by
  obtain ⟨i, hi, hcovers⟩ := hh
  refine ⟨i, ?_, hcovers⟩
  rw [← hb.eq_stretch, offsets_stretch, List.mem_range'_1]
  rw [offsets_stretch, List.mem_range'_1] at hi
  omega

/-- The bytes of a stretch. -/
theorem holds_stretch {block pos : Nat} (hh : (b.stretch start length).Holds block pos) :
    block = b.block ∧ (b.offset + start) * b.dtype.width ≤ pos ∧ pos < (b.offset + start + length) * b.dtype.width := by
  obtain ⟨i, hi, hblock, hlo, hhi⟩ := hh
  rw [offsets_stretch, List.mem_range'_1] at hi
  simp only [place, ← Nat.succ_mul] at hblock hlo hhi
  refine ⟨(Option.some.inj hblock).symm, ?_, ?_⟩
  · exact (Nat.mul_le_mul_right _ hi.1).trans hlo
  · exact lt_of_lt_of_le hhi (Nat.mul_le_mul_right _ hi.2)

/-- Adjacent stretches have no byte in common. -/
theorem apart_stretches (b : Buffer) (start : Nat) (lengths : List Nat) :
    (b.stretches start lengths).Pairwise Apart := by
  have hlater : ∀ (lengths : List Nat) (start : Nat), ∀ c ∈ b.stretches start lengths, ∀ block pos, c.Holds block pos →
      (b.offset + start) * b.dtype.width ≤ pos := by
    intro lengths
    induction lengths with
    | nil => simp [stretches]
    | cons length lengths ih =>
      intro start c hc block pos hh
      rcases List.mem_cons.mp hc with rfl | hc
      · exact (holds_stretch hh).2.1
      · have hbound := ih (start + length) c hc block pos hh
        exact (Nat.mul_le_mul_right _ (by omega)).trans hbound
  induction lengths generalizing start with
  | nil => exact .nil
  | cons length lengths ih =>
    refine List.pairwise_cons.mpr ⟨fun c hc block pos hh hc' => ?_, ih _⟩
    have hbefore := (holds_stretch hh).2.2
    have hafter := hlater lengths (start + length) c hc block pos hc'
    rw [← Nat.add_assoc] at hafter
    omega

end Buffer

/-! ## Buffers that lie back to back -/

/-- Elements of all the buffers before one. -/
def elementsBefore (buffers : List Buffer) (i : Nat) : Nat := ((buffers.take i).map Buffer.count).sum

/-- Every buffer of a list that has elements is contiguous, in one and the same block, and begins `start` and then the
elements of the buffers before it from the start of the block. -/
def LieFrom (buffers : List Buffer) (block start : Nat) : Prop :=
  ∀ i b, buffers[i]? = some b → b.count ≠ 0 →
    b.block = block ∧ b.isContiguous = .ok true ∧ b.offset = start + elementsBefore buffers i

/-- The buffers lie end to end in one block; those without elements may be anywhere. -/
def BackToBack (buffers : List Buffer) : Prop := ∃ block start, LieFrom buffers block start

/-- The first buffer that has elements, or else the first one. -/
def FlatLayout.anchorOf (first : Buffer) (buffers : List Buffer) : Buffer :=
  (buffers.find? fun b => b.count ≠ 0).getD first

/-- One dimension over all the elements of a list, from the anchor on. -/
def FlatLayout.spanning (first : Buffer) (buffers : List Buffer) : Buffer :=
  { anchorOf first buffers with shape := [(buffers.map Buffer.count).sum], strides := [1] }

section BackToBack

variable {buffers : List Buffer} {b first : Buffer} {block start : Nat}

theorem elementsBefore_concat {i : Nat} (hi : i ≤ buffers.length) :
    elementsBefore (buffers ++ [b]) i = elementsBefore buffers i := by
  rw [elementsBefore, List.take_append_of_le_length hi, elementsBefore]

/-- One more buffer lies there if it begins where the others end. -/
theorem lieFrom_concat : LieFrom (buffers ++ [b]) block start ↔ LieFrom buffers block start ∧ (b.count ≠ 0 →
    b.block = block ∧ b.isContiguous = .ok true ∧ b.offset = start + (buffers.map Buffer.count).sum) := by
  have hall : elementsBefore (buffers ++ [b]) buffers.length = (buffers.map Buffer.count).sum := by
    rw [elementsBefore_concat le_rfl, elementsBefore, List.take_length]
  constructor
  · intro h
    refine ⟨fun i c hc hne => ?_, fun hne => ?_⟩
    · have hi := (List.getElem?_eq_some_iff.mp hc).1
      have hlie := h i c (by rwa [List.getElem?_append_left hi]) hne
      rwa [elementsBefore_concat hi.le] at hlie
    · have hlie := h buffers.length b List.getElem?_concat_length hne
      rwa [hall] at hlie
  · rintro ⟨h, hlast⟩ i c hc hne
    rcases Nat.lt_trichotomy i buffers.length with hi | hi | hi
    · rw [List.getElem?_append_left hi] at hc
      rw [elementsBefore_concat hi.le]
      exact h i c hc hne
    · subst hi
      rw [List.getElem?_concat_length, Option.some.injEq] at hc
      subst hc
      rw [hall]
      exact hlast hne
    · rw [List.getElem?_eq_none (by simp only [List.length_append, List.length_singleton]; omega)] at hc
      cases hc

/-- Where no buffer has elements, they lie anywhere. -/
theorem lieFrom_of_empty (h : ∀ b ∈ buffers, b.count = 0) : LieFrom buffers block start :=
  fun _ b hb hne => absurd (h b (List.mem_of_getElem? hb)) hne

/-- Either no buffer has elements, or the anchor is the first that has. -/
theorem anchor_cases (first : Buffer) (buffers : List Buffer) :
    (FlatLayout.anchorOf first buffers = first ∧ ∀ b ∈ buffers, b.count = 0) ∨
      (FlatLayout.anchorOf first buffers).count ≠ 0 ∧ ∃ i, buffers[i]? = some (FlatLayout.anchorOf first buffers) ∧
        elementsBefore buffers i = 0 := by
  unfold FlatLayout.anchorOf
  cases hfind : buffers.find? fun b => b.count ≠ 0 with
  | none =>
    refine .inl ⟨rfl, fun b hb => ?_⟩
    simpa using List.find?_eq_none.mp hfind b hb
  | some b =>
    obtain ⟨hne, before, after, rfl, hbefore⟩ := List.find?_eq_some_iff_append.mp hfind
    refine .inr ⟨of_decide_eq_true hne, before.length, by simp, ?_⟩
    rw [elementsBefore, List.take_left']
    · refine List.sum_eq_zero fun x hx => ?_
      obtain ⟨c, hc, rfl⟩ := List.mem_map.mp hx
      simpa using hbefore c hc
    · rfl

/-- Buffers that lie back to back do so from their anchor on. -/
theorem backToBack_iff (first : Buffer) : BackToBack buffers ↔
    LieFrom buffers (FlatLayout.anchorOf first buffers).block (FlatLayout.anchorOf first buffers).offset := by
  refine ⟨?_, fun h => ⟨_, _, h⟩⟩
  rintro ⟨block, start, h⟩
  rcases anchor_cases first buffers with ⟨-, hempty⟩ | ⟨hne, i, hi, hbefore⟩
  · exact lieFrom_of_empty hempty
  · obtain ⟨hblock, -, hoffset⟩ := h i _ hi hne
    rw [hbefore, Nat.add_zero] at hoffset
    rwa [hblock, hoffset]

end BackToBack

/-! ## The walk over a list -/

namespace FlatLayout

/-- Where a walk stands that began at a buffer and has passed some. -/
structure Walk.Passed (w : Walk) (first : Buffer) (passed : List Buffer) : Prop where
  counted : ∀ b ∈ passed, b.numel = .ok b.count
  lengths : w.lengths = passed.map Buffer.count
  running : w.running = (passed.map Buffer.count).sum
  small : w.running < sizeLimit
  anchored : w.anchor = anchorOf first passed
  inPlace : w.inPlace = true ↔ LieFrom passed w.anchor.block w.anchor.offset

variable {first b : Buffer} {passed buffers : List Buffer} {w w' : Walk} {s s' : Store}

/-- A buffer with elements follows the anchor if it begins so many elements after it, without gaps. -/
private theorem follows_eq_ok {anchor : Buffer} {running : Nat} {answer : Bool}
    (h : follows anchor b running = .ok answer) :
    answer = true ↔ b.block = anchor.block ∧ b.isContiguous = .ok true ∧ b.offset = anchor.offset + running := by
  unfold follows at h
  by_cases hblock : anchor.sameStorage b = true
  · rw [hblock] at h
    have hsame : b.block = anchor.block := (beq_iff_eq.mp hblock).symm
    obtain ⟨contiguous, hc, h⟩ := exists_of_lift_bind h
    cases contiguous with
    | false =>
      cases h
      simp [hc]
    | true =>
      obtain ⟨place, hplace, h⟩ := exists_of_lift_bind h
      cases h
      simp [hsame, hc, (addSize_eq_ok_iff.mp hplace).1]
  · rw [Bool.eq_false_iff.mpr hblock] at h
    cases h
    have hother : b.block ≠ anchor.block := fun he => hblock (beq_iff_eq.mpr he.symm)
    simp [hother]

/-- A buffer without elements is passed over; the first one with elements becomes the anchor. -/
private theorem anchor_concat (h : (passed ++ [b]).head? = some first) :
    anchorOf first (passed ++ [b]) =
      if (anchorOf first passed).count = 0 ∧ b.count ≠ 0 then b else anchorOf first passed := by
  have hconcat : anchorOf first (passed ++ [b]) =
      ((passed.find? fun b => b.count ≠ 0).or ([b].find? fun b => b.count ≠ 0)).getD first := by
    rw [anchorOf, List.find?_append]
  rw [hconcat]
  rcases anchor_cases first passed with ⟨hfirst, hempty⟩ | ⟨hne, -⟩
  · have hnone : (passed.find? fun b => b.count ≠ 0) = none := List.find?_eq_none.mpr fun c hc => by simp [hempty c hc]
    rw [hfirst, hnone, Option.none_or]
    by_cases hb : b.count = 0
    · simp [hb]
    · -- The list begins with `first`, which is `b` itself or a buffer that was passed over.
      have hzero : first.count = 0 ∨ first = b := by
        cases passed with
        | nil => exact .inr (Option.some.inj h).symm
        | cons c passed => exact .inl (Option.some.inj h ▸ hempty c List.mem_cons_self)
      rcases hzero with hzero | rfl
      · simp [hb, hzero]
      · simp [hb]
  · rw [if_neg fun hc => hne hc.1]
    unfold anchorOf at hne ⊢
    cases hfind : passed.find? fun b => b.count ≠ 0 with
    | some c => rfl
    | none =>
      rw [hfind, Option.getD_none] at hne
      rw [Option.none_or, Option.getD_none]
      have hone : ∀ c, [b].find? (fun b => b.count ≠ 0) = some c → c = b := by
        intro c hc
        exact List.mem_singleton.mp (List.mem_of_find?_eq_some hc)
      cases hb : [b].find? fun b => b.count ≠ 0 with
      | none => rfl
      | some c =>
        rw [hone c hb, Option.getD_some]
        cases passed with
        | nil => exact Option.some.inj h
        | cons c' passed =>
          have hc' : first = c' := (Option.some.inj h).symm
          have hzero := List.find?_eq_none.mp hfind c' List.mem_cons_self
          rw [hc'] at hne
          exact absurd (by simpa using hzero) hne

/-- One more step of a walk. -/
private theorem Walk.Passed.step (hw : w.Passed first passed) (hfirst : (passed ++ [b]).head? = some first)
    (h : w.step b = .ok w') : w'.Passed first (passed ++ [b]) := by
  obtain ⟨length, hlength, h⟩ := exists_of_lift_bind h
  obtain ⟨anchored, hanchored, h⟩ := exists_of_lift_bind h
  obtain rfl : length = b.count := eq_of_productSizes hlength
  obtain rfl : anchored = w.anchor.count := eq_of_productSizes hanchored
  obtain ⟨inPlace, hplace, running, hrunning, h⟩ : ∃ inPlace,
      (if (w.inPlace && b.count != 0) = true then follows w'.anchor b w.running else pure w.inPlace) = .ok inPlace ∧
      ∃ running, addSize w.running b.count = .ok running ∧ w' =
        { anchor := if w.anchor.count = 0 ∧ b.count ≠ 0 then b else w.anchor, lengths := w.lengths ++ [b.count],
          running, inPlace } := by
    by_cases hcheck : (w.inPlace && b.count != 0) = true
    · rw [if_pos hcheck] at h ⊢
      obtain ⟨inPlace, hplace, h⟩ := exists_of_bind_eq_ok h
      obtain ⟨running, hrunning, h⟩ := exists_of_lift_bind h
      cases h
      exact ⟨inPlace, hplace, running, hrunning, rfl⟩
    · rw [if_neg hcheck] at h ⊢
      obtain ⟨running, hrunning, h⟩ := exists_of_lift_bind h
      cases h
      exact ⟨_, rfl, running, hrunning, rfl⟩
  subst h
  dsimp only at hplace
  obtain ⟨hsum, hsmall⟩ := addSize_eq_ok_iff.mp hrunning
  have hanchor : (if w.anchor.count = 0 ∧ b.count ≠ 0 then b else w.anchor) = anchorOf first (passed ++ [b]) := by
    rw [anchor_concat hfirst, ← hw.anchored]
  refine ⟨?_, ?_, ?_, hsmall, hanchor, ?_⟩
  · intro c hc
    rcases List.mem_append.mp hc with hc | hc
    · exact hw.counted c hc
    · rw [List.mem_singleton.mp hc]
      exact hlength
  · rw [hw.lengths, List.map_append, List.map_singleton]
  · rw [hsum, hw.running, List.map_append, List.sum_append, List.map_singleton, List.sum_singleton]
  · dsimp only
    -- With a new anchor none of the buffers that were passed has elements.
    have hpassed : LieFrom passed (if w.anchor.count = 0 ∧ b.count ≠ 0 then b else w.anchor).block
        (if w.anchor.count = 0 ∧ b.count ≠ 0 then b else w.anchor).offset ↔ w.inPlace = true := by
      split
      · rename_i hnew
        have hempty : ∀ c ∈ passed, c.count = 0 := by
          rcases anchor_cases first passed with ⟨-, hempty⟩ | ⟨hne, -⟩
          · exact hempty
          · exact absurd (hw.anchored ▸ hnew.1) hne
        exact iff_of_true (lieFrom_of_empty hempty) (hw.inPlace.mpr (lieFrom_of_empty hempty))
      · exact hw.inPlace.symm
    rw [lieFrom_concat, hpassed, ← hw.running]
    by_cases hzero : b.count = 0
    · rw [hzero] at hplace
      simp only [bne_self_eq_false, Bool.and_false, Bool.false_eq_true, if_false] at hplace
      cases hplace
      simp [hzero]
    · cases hin : w.inPlace with
      | false =>
        rw [hin] at hplace
        cases hplace
        simp
      | true =>
        have hne : (b.count != 0) = true := bne_iff_ne.mpr hzero
        rw [hin, hne, Bool.and_self, if_pos rfl] at hplace
        rw [follows_eq_ok hplace]
        simp [hzero]

/-- A walk over a whole list. -/
theorem walk_passed (h : walk first buffers = .ok w) (hfirst : buffers.head? = some first) :
    w.Passed first buffers := by
  have hwalk {w₀ : Walk} {passed rest : List Buffer} (hw : w₀.Passed first passed)
      (hhead : ∀ b rest', rest = b :: rest' → (passed ++ [b]).head? = some first)
      (h : rest.foldlM Walk.step w₀ = .ok w) : w.Passed first (passed ++ rest) := by
    induction rest generalizing w₀ passed with
    | nil =>
      cases h
      rwa [List.append_nil]
    | cons b rest ih =>
      rw [List.foldlM_cons] at h
      obtain ⟨w₁, hstep, h⟩ := exists_of_bind_eq_ok h
      have hb := hhead b rest rfl
      have hnext := ih (hw.step hb hstep) (fun b' rest' _ => ?_) h
      · rwa [List.append_assoc, List.singleton_append] at hnext
      · rw [List.head?_append, hb, Option.some_or]
  have hstart : ({ anchor := first } : Walk).Passed first [] := by
    have hzero : 0 < sizeLimit := by decide
    exact ⟨by simp, rfl, rfl, hzero, rfl, iff_of_true rfl (lieFrom_of_empty (by simp))⟩
  have hall := hwalk hstart (fun b rest hb => by rw [hb] at hfirst; exact hfirst) h
  rwa [List.nil_append] at hall

/-! ## Regions -/

/-- What a list of buffers is reconciled to: one dimension over all elements, from the anchor on if the buffers lie back
to back, and otherwise in a new block. -/
structure Stands (l : FlatLayout) (buffers : List Buffer) (s s' : Store) : Prop where
  counted : ∀ b ∈ buffers, b.numel = .ok b.count
  lengths : l.lengths = buffers.map Buffer.count
  small : l.lengths.sum < sizeLimit
  flat : l.region.Flat l.lengths.sum
  inPlace : l.inPlace = true ↔ BackToBack buffers
  typed : ∃ b ∈ buffers, l.region.dtype = b.dtype
  room : l.region.Room s'.heap l.lengths.sum
  placed : l.inPlace = true → s'.heap = s.heap ∧ ∃ first, buffers.head? = some first ∧
    l.region = spanning first buffers
  staged : l.inPlace = false → l.region.block = s.heap.blocks.size ∧ l.region.offset = 0 ∧
    ∃ bytes, s'.heap = { blocks := s.heap.blocks.push bytes }

end FlatLayout

/-- Zeros are made in a block of their own, after all others. -/
theorem Buffer.zeros_push {dtype : ElementType} {shape : List Nat} {b : Buffer} {s s' : Store}
    (h : (zeros dtype shape).run s = (.ok b, s')) : ∃ bytes, s'.heap = { blocks := s.heap.blocks.push bytes } := by
  obtain ⟨numel, -, h⟩ := exists_of_size_bind h
  obtain ⟨bytes, -, h⟩ := exists_of_size_bind h
  obtain ⟨block, s₁, halloc, h⟩ := exists_of_run_bind h
  obtain ⟨strides, -, h⟩ := exists_of_size_bind h
  cases h
  exact ⟨_, (allocate_run halloc).2⟩

namespace FlatLayout

variable {buffers : List Buffer} {s s' : Store} {l : FlatLayout}

theorem anchor_mem {first : Buffer} (hfirst : buffers.head? = some first) : anchorOf first buffers ∈ buffers := by
  rcases anchor_cases first buffers with ⟨hanchor, -⟩ | ⟨-, i, hi, -⟩
  · rw [hanchor]
    exact List.mem_of_mem_head? hfirst
  · exact List.mem_of_getElem? hi

/-- Every list of buffers is reconciled to a region that stands for it. -/
theorem reconcile_stands (h : (reconcile buffers).run s = (.ok l, s')) : l.Stands buffers s s' := by
  have hroom := (Buffer.Room.of_reconcile h).1
  cases buffers with
  | nil => cases h
  | cons first rest =>
    obtain ⟨w, hw, h⟩ := exists_of_check_bind h
    have hpassed := walk_passed hw rfl
    have hanchor : w.anchor ∈ first :: rest := by
      rw [hpassed.anchored]
      exact anchor_mem rfl
    have hsum : w.running = w.lengths.sum := hpassed.running.trans (congrArg List.sum hpassed.lengths.symm)
    have hsmall := hpassed.small
    have hplace : w.inPlace = true ↔ BackToBack (first :: rest) := by
      rw [hpassed.inPlace, backToBack_iff first, hpassed.anchored]
    rw [hsum] at hsmall h
    cases hin : w.inPlace with
    | true =>
      rw [hin, if_pos rfl, run_get_bind] at h
      obtain ⟨region, hregion, h⟩ := exists_of_check_bind h
      cases h
      obtain ⟨hextent, -⟩ := Buffer.extent_eq_ok hregion
      refine ⟨hpassed.counted, hpassed.lengths, hsmall, ⟨by rw [hextent], by rw [hextent]⟩, ?_, ⟨_, hanchor, ?_⟩,
        hroom, ?_, ?_⟩
      · exact (iff_of_eq (congrArg (· = true) hin.symm)).trans hplace
      · rw [hextent]
      · refine fun _ => ⟨rfl, first, rfl, ?_⟩
        rw [hextent, hpassed.anchored, spanning, ← hpassed.lengths]
      · intro hno
        cases hno
    | false =>
      rw [hin, if_neg Bool.false_ne_true] at h
      obtain ⟨region, s₁, hregion, h⟩ := exists_of_run_bind h
      cases h
      have hfresh := Buffer.zeros_run hregion
      obtain ⟨bytes, hbytes⟩ := Buffer.zeros_push hregion
      have hstrides : region.strides = [1] := (Except.ok.inj hfresh.contiguous).symm
      refine ⟨hpassed.counted, hpassed.lengths, hsmall, ⟨hfresh.shaped, hstrides⟩, ?_, ⟨_, hanchor, hfresh.typed⟩,
        hroom, ?_, ?_⟩
      · exact (iff_of_eq (congrArg (· = true) hin.symm)).trans hplace
      · intro hno
        cases hno
      · exact fun _ => ⟨hfresh.new, hfresh.first, bytes, hbytes⟩

namespace Stands

variable {i : Nat} {b : Buffer} {h : Heap}

theorem sum_take (hl : l.Stands buffers s s') (i : Nat) : (l.lengths.take i).sum = elementsBefore buffers i := by
  rw [hl.lengths, ← List.map_take, elementsBefore]

theorem getElem?_lengths (hl : l.Stands buffers s s') (hb : buffers[i]? = some b) : l.lengths[i]? = some b.count := by
  rw [hl.lengths, List.getElem?_map, hb, Option.map_some]

/-- The part of a buffer ends within the region. -/
theorem elementsBefore_add_le (hl : l.Stands buffers s s') (hb : buffers[i]? = some b) :
    elementsBefore buffers i + b.count ≤ l.lengths.sum := by
  rw [← hl.sum_take]
  exact sum_take_add_le (hl.getElem?_lengths hb)

/-- The part of the region that stands for a buffer has the buffer's elements. -/
theorem part_solid (hl : l.Stands buffers s s') (hb : buffers[i]? = some b) (hx : s'.heap.Extends h) :
    (l.region.stretch (elementsBefore buffers i) b.count).Solid h b.count := by
  have hin := hl.elementsBefore_add_le hb
  have hsmall := hl.small
  exact (hl.room.later hx).stretch hin (by omega)

/-- Where the buffers lie back to back, each of them with elements is its part of the region. -/
theorem place_eq (hl : l.Stands buffers s s') (hin : l.inPlace = true) (hb : buffers[i]? = some b) (hne : b.count ≠ 0) :
    b.block = l.region.block ∧ b.offset = l.region.offset + elementsBefore buffers i := by
  obtain ⟨-, first, hfirst, hregion⟩ := hl.placed hin
  obtain ⟨hblock, -, hoffset⟩ := (backToBack_iff first).mp (hl.inPlace.mp hin) i b hb hne
  rw [hregion]
  exact ⟨hblock, hoffset⟩

/-- A part of a region over buffers that lie back to back reads as its buffer does, and has the same bytes. -/
theorem part_inPlace (hl : l.Stands buffers s s') (hin : l.inPlace = true) (hb : buffers[i]? = some b)
    (hsolid : b.Solid h b.count) (htype : b.dtype = l.region.dtype) (h' : Heap) :
    (l.region.stretch (elementsBefore buffers i) b.count).words h' = b.words h' ∧
      ∀ block pos, (l.region.stretch (elementsBefore buffers i) b.count).Holds block pos ↔ b.Holds block pos := by
  have hpart := hl.part_solid hb (.refl s'.heap)
  have hwidth : (l.region.stretch (elementsBefore buffers i) b.count).dtype.width = b.dtype.width :=
    (congrArg ElementType.width htype).symm
  by_cases hzero : b.count = 0
  · constructor
    · rw [hpart.words_eq, hsolid.words_eq, hzero]
      rfl
    · intro block pos
      constructor
      · intro hh
        exact absurd (hpart.pos_of_holds hh) (by omega)
      · intro hh
        exact absurd (hsolid.pos_of_holds hh) (by omega)
  · obtain ⟨hblock, hoffset⟩ := hl.place_eq hin hb hzero
    have hplace : (l.region.stretch (elementsBefore buffers i) b.count).place
        (l.region.stretch (elementsBefore buffers i) b.count).offset = b.place b.offset := by
      unfold Buffer.place
      rw [hwidth, hoffset, hblock]
      rfl
    refine ⟨?_, fun block pos => ?_⟩
    · rw [hpart.words_eq, hsolid.words_eq, hplace, hwidth]
    · rw [hpart.holds_iff, hsolid.holds_iff, hplace, hwidth]

/-! ## Staging regions -/

/-- The parts of a staging region, in the order of the buffers. -/
theorem slices_eq_ok (hl : l.Stands buffers s s') (hstaged : l.inPlace = false) :
    l.slices = .ok (l.region.stretches 0 l.lengths) := by
  obtain ⟨-, hoffset, -⟩ := hl.staged hstaged
  have hsmall := hl.small
  exact hl.flat.split_eq_ok (by omega)

/-- Each part is beside the buffer that it stands for. -/
theorem getElem?_parts (hl : l.Stands buffers s s') (hb : buffers[i]? = some b) :
    (l.region.stretches 0 l.lengths)[i]? = some (l.region.stretch (elementsBefore buffers i) b.count) := by
  rw [Buffer.getElem?_stretches, hl.getElem?_lengths hb, Option.map_some, hl.sum_take, Nat.zero_add]

/-- A buffer and the part that stands for it, out of a list of such pairs. -/
theorem exists_of_mem_zip (hl : l.Stands buffers s s') {part : Buffer}
    (hmem : (b, part) ∈ buffers.zip (l.region.stretches 0 l.lengths)) :
    ∃ i, buffers[i]? = some b ∧ part = l.region.stretch (elementsBefore buffers i) b.count := by
  obtain ⟨i, hi⟩ := List.mem_iff_getElem?.mp hmem
  obtain ⟨hb, hpart⟩ := List.getElem?_zip_eq_some.mp hi
  rw [hl.getElem?_parts hb] at hpart
  exact ⟨i, hb, (Option.some.inj hpart).symm⟩

theorem mem_zip (hl : l.Stands buffers s s') (hb : buffers[i]? = some b) :
    (b, l.region.stretch (elementsBefore buffers i) b.count) ∈ buffers.zip (l.region.stretches 0 l.lengths) :=
  List.mem_of_getElem? (List.getElem?_zip_eq_some.mpr ⟨hb, hl.getElem?_parts hb⟩)

/-- Buffers of the region's type, in other blocks, can be copied out of their parts. -/
theorem copyable (hl : l.Stands buffers s s') (hx : s'.heap.Extends h)
    (hsolid : ∀ b ∈ buffers, b.Solid h b.count ∧ b.dtype = l.region.dtype) :
    Copyable h (buffers.zip (l.region.stretches 0 l.lengths)) := by
  rintro ⟨b, part⟩ hmem
  obtain ⟨i, hb, rfl⟩ := hl.exists_of_mem_zip hmem
  obtain ⟨hb', htype⟩ := hsolid b (List.mem_of_getElem? hb)
  exact ⟨htype.symm, b.count, hb', hl.part_solid hb hx⟩

/-- Unpacking a staging region copies each part out. -/
theorem unpack_run (hl : l.Stands buffers s s') (hstaged : l.inPlace = false) (store : Store) :
    (l.unpack buffers).run store = (copyAll (buffers.zip (l.region.stretches 0 l.lengths))).run store := by
  unfold unpack
  rw [if_neg (by rw [hstaged]; exact Bool.false_ne_true)]
  exact run_check_bind (hl.slices_eq_ok hstaged) _ store

/-- A place of the list where packing copies a buffer into its part. -/
theorem exists_of_mem_zip_parts (hl : l.Stands buffers s s') {p : Buffer × Buffer}
    (hmem : p ∈ (l.region.stretches 0 l.lengths).zip buffers) : ∃ i, buffers[i]? = some p.2 ∧
      p.1 = l.region.stretch (elementsBefore buffers i) p.2.count := by
  obtain ⟨i, hi⟩ := List.mem_iff_getElem?.mp hmem
  obtain ⟨hpart, hb⟩ := List.getElem?_zip_eq_some.mp hi
  rw [hl.getElem?_parts hb] at hpart
  exact ⟨i, hb, (Option.some.inj hpart).symm⟩

/-- Buffers of the region's type match their parts. -/
theorem parts_matches (hl : l.Stands buffers s s') (hx : s'.heap.Extends h)
    (hsound : ∀ b ∈ buffers, b.Sound h ∧ b.dtype = l.region.dtype) :
    ∀ p ∈ (l.region.stretches 0 l.lengths).zip buffers, p.1.Matches h p.2 := by
  intro p hmem
  obtain ⟨i, hb, hpart⟩ := hl.exists_of_mem_zip_parts hmem
  have hlisted := List.mem_of_getElem? hb
  obtain ⟨hb', htype⟩ := hsound p.2 hlisted
  have hsolid := hl.part_solid hb hx
  rw [hpart]
  exact ⟨htype, hsolid.sound, hb', p.2.count, hsolid.counted, hl.counted p.2 hlisted⟩

/-- Packing a staging region copies each buffer into its part. -/
theorem pack_eq (hl : l.Stands buffers s s') (hstaged : l.inPlace = false) (store : Store) :
    (l.pack buffers).run store = (copyAll ((l.region.stretches 0 l.lengths).zip buffers)).run store := by
  unfold pack
  rw [if_neg (by rw [hstaged]; exact Bool.false_ne_true)]
  exact run_check_bind (hl.slices_eq_ok hstaged) (fun parts => copyAll (parts.zip buffers)) store

/-- Nothing is packed into a region in place. -/
theorem pack_inPlace (hin : l.inPlace = true) {s₁ s₂ : Store} (h : (l.pack buffers).run s₁ = (.ok (), s₂)) :
    s₂ = s₁ := by
  unfold pack at h
  rw [if_pos hin] at h
  cases h
  rfl

/-- Buffers of the region's type are packed. -/
theorem exists_pack (hl : l.Stands buffers s s') {s₁ : Store} (hx : s'.heap.Extends s₁.heap)
    (hbounded : s₁.heap.Bounded) (hsound : ∀ b ∈ buffers, b.Sound s₁.heap ∧ b.dtype = l.region.dtype) :
    ∃ s₂, (l.pack buffers).run s₁ = (.ok (), s₂) := by
  cases hin : l.inPlace with
  | true =>
    refine ⟨s₁, ?_⟩
    unfold pack
    rw [if_pos hin]
    rfl
  | false =>
    obtain ⟨s₂, hrun, -⟩ := copyAll_ok (hl.parts_matches hx hsound) hbounded
    exact ⟨s₂, (hl.pack_eq hin s₁).trans hrun⟩

/-- Packing into a staging region makes every part read as its buffer did, and writes to the region only. -/
theorem pack_run (hl : l.Stands buffers s s') (hstaged : l.inPlace = false) {s₁ s₂ : Store}
    (hx : s'.heap.Extends s₁.heap) (hbounded : s₁.heap.Bounded)
    (hsound : ∀ b ∈ buffers, b.Sound s₁.heap ∧ b.dtype = l.region.dtype)
    (houtside : ∀ b ∈ buffers, ∀ block pos, b.Holds block pos → block ≠ l.region.block)
    (h : (l.pack buffers).run s₁ = (.ok (), s₂)) :
    (∀ i b, buffers[i]? = some b →
      (l.region.stretch (elementsBefore buffers i) b.count).words s₂.heap = b.words s₁.heap) ∧
      l.region.Frame s₁.heap s₂.heap := by
  have hrun : (copyAll ((l.region.stretches 0 l.lengths).zip buffers)).run s₁ = (.ok (), s₂) :=
    (hl.pack_eq hstaged s₁).symm.trans h
  have hmatches := hl.parts_matches hx hsound
  have hregion : ∀ p ∈ (l.region.stretches 0 l.lengths).zip buffers, ∀ block pos, p.1.Holds block pos →
      l.region.Holds block pos := by
    intro p hmem block pos hh
    obtain ⟨i, hb, hpart⟩ := hl.exists_of_mem_zip_parts hmem
    rw [hpart] at hh
    exact hl.flat.holds_of_stretch (hl.elementsBefore_add_le hb) hh
  have happart : ((l.region.stretches 0 l.lengths).zip buffers).Pairwise fun p q => p.1.Apart q.1 :=
    pairwise_zip (l.region.apart_stretches 0 l.lengths)
  have hsources : ∀ p ∈ (l.region.stretches 0 l.lengths).zip buffers,
      ∀ q ∈ (l.region.stretches 0 l.lengths).zip buffers, p.1.Apart q.2 := by
    intro p hp q hq block pos hh hheld
    obtain ⟨i, hb, -⟩ := hl.exists_of_mem_zip_parts hq
    exact houtside q.2 (List.mem_of_getElem? hb) block pos hheld (hregion p hp block pos hh).block_eq
  obtain ⟨s₃, hcopied, hkept⟩ := copyAll_ok hmatches hbounded
  have hsame : s₃ = s₂ := congrArg Prod.snd (hcopied.symm.trans hrun)
  subst hsame
  refine ⟨fun i b hb => ?_, fun block pos hout => ?_⟩
  · have hmem : (l.region.stretch (elementsBefore buffers i) b.count, b) ∈
        (l.region.stretches 0 l.lengths).zip buffers :=
      List.mem_of_getElem? (List.getElem?_zip_eq_some.mpr ⟨hl.getElem?_parts hb, hb⟩)
    exact words_copyAll hmatches hbounded happart hsources hrun _ hmem
  · exact hkept block pos fun p hp hh => hout (hregion p hp block pos hh)

end Stands

end FlatLayout

end Collectives
