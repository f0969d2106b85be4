import Collectives.Proofs.Edits
import Collectives.Proofs.Offsets

/-!
# Fresh buffers and regions

What a new buffer is, and what the region is that a list of buffers is reconciled to: a stretch of the block of
one of the buffers, or a new block, in either case as long as all the buffers together.
-/

namespace Collectives

variable {s s' : Store} {b : Buffer}

namespace Buffer

/-- A new buffer has a new block to itself, exactly as large as its elements are. -/
structure Fresh (dtype : ElementType) (shape : List Nat) (s s' : Store) (b : Buffer) : Prop where
  typed : b.dtype = dtype
  shaped : b.shape = shape
  first : b.offset = 0
  new : b.block = s.heap.blocks.size
  count : b.numel = .ok shape.prod
  contiguous : contiguousStrides shape = .ok b.strides
  size : s'.heap.blockSize b.block = shape.prod * dtype.width

/-- Zeros are made in a new block. -/
theorem zeros_run {dtype : ElementType} {shape : List Nat} (h : (zeros dtype shape).run s = (.ok b, s')) :
    Fresh dtype shape s s' b := by
  obtain ⟨numel, hnumel, h⟩ := exists_of_size_bind h
  obtain ⟨bytes, hbytes, h⟩ := exists_of_size_bind h
  obtain ⟨block, s₁, halloc, h⟩ := exists_of_run_bind h
  obtain ⟨strides, hstrides, h⟩ := exists_of_size_bind h
  obtain ⟨hblock, hheap⟩ := allocate_run halloc
  cases h
  have hprod := eq_of_productSizes hnumel
  refine ⟨rfl, rfl, rfl, hblock, hnumel.trans (congrArg _ hprod), hstrides, ?_⟩
  rw [hheap, Heap.blockSize_push, if_pos hblock, Array.size_replicate, (mulSize_eq_ok_iff.mp hbytes).1, hprod]

/-- Words are written into a new block of their size. -/
theorem ofWords_run {dtype : ElementType} {words shape : List Nat}
    (h : (ofWords dtype words shape).run s = (.ok b, s')) : Fresh dtype shape s s' b := by
  obtain ⟨numel, -, h⟩ := exists_of_size_bind h
  obtain ⟨_, -, h⟩ := exists_of_check_bind h
  obtain ⟨made, s₁, hzeros, h⟩ := exists_of_run_bind h
  rw [run_modify_bind] at h
  cases h
  have hfresh := zeros_run hzeros
  refine { hfresh with size := ?_ }
  rw [Heap.blockSize_write]
  exact hfresh.size

theorem flatLike_run {buffers : List Buffer} (h : (flatLike buffers).run s = (.ok b, s')) :
    ∃ first rest, buffers = first :: rest ∧ Fresh first.dtype (buffers.length :: first.shape) s s' b := by
  cases buffers with
  | nil => cases h
  | cons first rest => exact ⟨first, rest, rfl, zeros_run h⟩

/-- A stretch of elements begins where the buffer does and ends within its block. -/
theorem extent_eq_ok {h : Heap} {length : Nat} {region : Buffer} (hr : b.extent h length = .ok region) :
    region = { b with shape := [length], strides := [1] } ∧
      (length ≠ 0 → (b.offset + length) * b.dtype.width ≤ h.blockSize b.block) := by
  obtain ⟨stop, hstop, hr⟩ := exists_of_lift_bind hr
  obtain ⟨bytes, hbytes, hr⟩ := exists_of_lift_bind hr
  obtain ⟨_, hcheck, hr⟩ := exists_of_bind_eq_ok hr
  cases hr
  refine ⟨rfl, fun hlength => ?_⟩
  have hinside := of_require hcheck
  rw [(mulSize_eq_ok_iff.mp hbytes).1, (addSize_eq_ok_iff.mp hstop).1] at hinside
  simpa [hlength] using hinside

end Buffer

namespace FlatLayout

variable {buffers : List Buffer}

/-- A step of the walk counts the elements of one buffer, which may become the anchor. -/
theorem step_eq_ok {w w' : Walk} (h : w.step b = .ok w') :
    ∃ length, b.numel = .ok length ∧ w'.lengths = w.lengths ++ [length] ∧
      w'.running = w.running + length ∧ (w'.anchor = w.anchor ∨ w'.anchor = b) := by
  obtain ⟨length, hlength, h⟩ := exists_of_lift_bind h
  obtain ⟨anchored, -, h⟩ := exists_of_lift_bind h
  have hrest (inPlace : Bool) (hj : (do
      let running ← addSize w.running length
      return { anchor := if anchored = 0 ∧ length ≠ 0 then b else w.anchor, lengths := w.lengths ++ [length],
               running, inPlace } : Except Failure Walk) = .ok w') :
      w'.lengths = w.lengths ++ [length] ∧ w'.running = w.running + length ∧
        (w'.anchor = w.anchor ∨ w'.anchor = b) := by
    obtain ⟨running, hrunning, hj⟩ := exists_of_lift_bind hj
    cases hj
    refine ⟨rfl, (addSize_eq_ok_iff.mp hrunning).1, ?_⟩
    dsimp only
    split
    · exact .inr rfl
    · exact .inl rfl
  refine ⟨length, hlength, ?_⟩
  by_cases hplace : (w.inPlace && length != 0) = true
  · rw [if_pos hplace] at h
    obtain ⟨inPlace, -, h⟩ := exists_of_bind_eq_ok h
    exact hrest inPlace h
  · rw [if_neg hplace] at h
    exact hrest w.inPlace h

/-- A walk counts the elements of every buffer on the way; its anchor is one of the buffers. -/
private theorem walk_eq_ok {w w' : Walk} (h : buffers.foldlM Walk.step w = .ok w') :
    ∃ lengths, buffers.mapM Buffer.numel = .ok lengths ∧ w'.lengths = w.lengths ++ lengths ∧
      w'.running = w.running + lengths.sum ∧ (w'.anchor = w.anchor ∨ w'.anchor ∈ buffers) := by
  induction buffers generalizing w with
  | nil =>
    cases h
    exact ⟨[], rfl, by simp, by simp, .inl rfl⟩
  | cons b buffers ih =>
    rw [List.foldlM_cons] at h
    obtain ⟨w₁, hstep, h⟩ := exists_of_bind_eq_ok h
    obtain ⟨length, hlength, hl, hr, ha⟩ := step_eq_ok hstep
    obtain ⟨lengths, hlengths, hl', hr', ha'⟩ := ih h
    refine ⟨length :: lengths, ?_, ?_, ?_, ?_⟩
    · rw [List.mapM_cons, hlength, ok_bind, hlengths]
      rfl
    · rw [hl', hl, List.append_assoc, List.singleton_append]
    · rw [hr', hr, List.sum_cons, Nat.add_assoc]
    · rcases ha' with ha' | ha'
      · rcases ha with ha | ha
        · exact .inl (ha'.trans ha)
        · exact .inr (ha'.trans ha ▸ List.mem_cons_self)
      · exact .inr (List.mem_cons_of_mem b ha')

/-- The region of a list of buffers: a stretch of the block of one of them, or a new block. -/
structure Reconciled (buffers : List Buffer) (s s' : Store) (l : FlatLayout) (anchor : Buffer) : Prop where
  among : anchor ∈ buffers
  counts : buffers.mapM Buffer.numel = .ok l.lengths
  region : (anchor.extent s.heap l.lengths.sum = .ok l.region ∧ s'.heap = s.heap) ∨
    ∃ s₁, Buffer.Fresh anchor.dtype [l.lengths.sum] s s₁ l.region ∧ s'.heap = s₁.heap

/-- What a list of buffers is reconciled to. -/
theorem reconcile_run {l : FlatLayout} (h : (reconcile buffers).run s = (.ok l, s')) :
    ∃ anchor, Reconciled buffers s s' l anchor := by
  cases buffers with
  | nil => cases h
  | cons first rest =>
    obtain ⟨w, hw, h⟩ := exists_of_check_bind h
    obtain ⟨lengths, hlengths, hl, hr, ha⟩ := walk_eq_ok hw
    rw [List.nil_append] at hl
    rw [Nat.zero_add] at hr
    have hanchor : w.anchor ∈ first :: rest := ha.elim (fun he => he ▸ List.mem_cons_self) id
    refine ⟨w.anchor, ?_⟩
    -- In place the region is a stretch of the anchor's block; otherwise it is made.
    split at h
    · rw [run_get_bind] at h
      obtain ⟨region, hregion, h⟩ := exists_of_check_bind h
      cases h
      refine ⟨hanchor, hl ▸ hlengths, .inl ⟨?_, rfl⟩⟩
      rw [hl, ← hr]
      exact hregion
    · obtain ⟨region, s₁, hregion, h⟩ := exists_of_run_bind h
      cases h
      refine ⟨hanchor, hl ▸ hlengths, .inr ⟨s₁, ?_, rfl⟩⟩
      rw [hl, ← hr]
      exact Buffer.zeros_run hregion

end FlatLayout

end Collectives
