import Collectives.Engine.Plan
import Collectives.Proofs.Views

/-!
# Operands that were accepted

What the checks of a collective promise about its operands once it is planned: a buffer that is communicated is
contiguous, buffers of one list have one length or one type, a type has a tag, and rows that are shared out are
no more than there are.
-/

namespace Collectives

section Checks

variable {b reference : Buffer} {bs : List Buffer} {u : Unit}

/-- A buffer that is communicated is contiguous. -/
theorem checkBuffer_eq_ok (h : checkBuffer b = .ok u) : b.isContiguous = .ok true := by
  obtain ⟨_, -, h⟩ := exists_of_bind_eq_ok h
  obtain ⟨_, -, h⟩ := exists_of_bind_eq_ok h
  obtain ⟨contiguous, hc, h⟩ := exists_of_lift_bind h
  rwa [of_require h] at hc

/-- A list that stands for one buffer has just that one. -/
theorem single_eq_ok (h : single bs = .ok b) : bs = [b] ∧ checkBuffer b = .ok () := by
  unfold single at h
  split at h
  · obtain ⟨_, hcheck, h⟩ := exists_of_bind_eq_ok h
    cases h
    exact ⟨rfl, hcheck⟩
  · cases h

theorem checkRank_eq_ok {root size : Nat} (h : checkRank root size = .ok u) : root < size := by
  unfold checkRank at h
  split at h
  · assumption
  · cases h

/-- Buffers that are alike have one length and one type, and each can be communicated. -/
theorem checkAlike_eq_ok {n : Nat} (hn : reference.numel = .ok n) (h : checkAlike reference bs = .ok u) :
    ∀ b ∈ bs, b.numel = .ok n ∧ b.dtype = reference.dtype ∧ b.isContiguous = .ok true := by
  induction bs with
  | nil => simp
  | cons b bs ih =>
    obtain ⟨held, hheld, h⟩ := exists_of_lift_bind h
    obtain ⟨wanted, hwanted, h⟩ := exists_of_lift_bind h
    obtain ⟨_, hsame, h⟩ := exists_of_bind_eq_ok h
    obtain ⟨_, hcheck, h⟩ := exists_of_bind_eq_ok h
    obtain ⟨hcount, htype⟩ := Bool.and_eq_true_iff.mp (of_require hsame)
    refine List.forall_mem_cons.mpr ⟨⟨?_, eq_of_beq htype, checkBuffer_eq_ok hcheck⟩, ih h⟩
    rw [hheld, eq_of_beq hcount, ← hwanted, hn]

theorem checkTypes_eq_ok (h : checkTypes reference bs = .ok u) : ∀ b ∈ bs, b.dtype = reference.dtype := by
  induction bs with
  | nil => simp
  | cons b bs ih =>
    obtain ⟨_, hsame, h⟩ := exists_of_bind_eq_ok h
    obtain ⟨_, -, h⟩ := exists_of_bind_eq_ok h
    exact List.forall_mem_cons.mpr ⟨eq_of_beq (of_require hsame), ih h⟩

/-- Buffers that are checked for their type can each be communicated. -/
theorem checkBuffer_of_checkTypes (h : checkTypes reference bs = .ok u) : ∀ b ∈ bs, checkBuffer b = .ok () := by
  induction bs with
  | nil => simp
  | cons b bs ih =>
    obtain ⟨_, -, h⟩ := exists_of_bind_eq_ok h
    obtain ⟨_, hcheck, h⟩ := exists_of_bind_eq_ok h
    exact List.forall_mem_cons.mpr ⟨hcheck, ih h⟩

/-- Where a buffer can be communicated, so can any other one that lies in the same place without gaps. -/
theorem checkBuffer_congr {c : Buffer} (h : checkBuffer b = .ok u) (hlayout : c.layout = b.layout)
    (hdevice : c.device = b.device) (hc : c.isContiguous = .ok true) : checkBuffer c = .ok () := by
  obtain ⟨_, hstrided, h⟩ := exists_of_bind_eq_ok h
  obtain ⟨_, hhost, -⟩ := exists_of_bind_eq_ok h
  rw [← hlayout] at hstrided
  rw [← hdevice] at hhost
  unfold checkBuffer
  rw [hstrided, ok_bind, hhost, ok_bind, lift_size_bind hc]
  rfl

theorem tag_eq_ok {t : ElementType} {tag : Tag} (h : t.tag = .ok tag) : t.tag? = some tag := by
  unfold ElementType.tag at h
  split at h
  · cases h
    assumption
  · cases h

theorem tag_of_tag? {t : ElementType} {tag : Tag} (h : t.tag? = some tag) : t.tag = .ok tag := by
  unfold ElementType.tag
  rw [h]

theorem operator_eq_ok {r : Reduction} {op : Operator} (h : r.operator = .ok op) : r.operator? = some op := by
  unfold Reduction.operator at h
  split at h
  · cases h
    assumption
  · cases h

/-- Rows that are shared out hold no more elements than there are. -/
theorem splitCounts_eq_ok {sizes counts : List Nat} {groupSize : Nat}
    (h : splitCounts b sizes groupSize = .ok counts) : ∃ n, b.numel = .ok n ∧ counts.sum ≤ n := by
  obtain ⟨rows, -, h⟩ := exists_of_bind_eq_ok h
  obtain ⟨numel, hnumel, h⟩ := exists_of_lift_bind h
  refine ⟨numel, hnumel, ?_⟩
  split at h
  · obtain ⟨left, -, h⟩ := exists_of_lift_bind h
    obtain ⟨_, -, h⟩ := exists_of_bind_eq_ok h
    obtain ⟨_, -, h⟩ := exists_of_lift_bind h
    cases h
    rw [List.sum_replicate, smul_eq_mul]
    exact Nat.mul_div_le ..
  · obtain ⟨_, -, h⟩ := exists_of_bind_eq_ok h
    obtain ⟨total, htotal, h⟩ := exists_of_lift_bind h
    obtain ⟨_, hrows, h⟩ := exists_of_bind_eq_ok h
    have hsum : rows = sizes.sum := (eq_of_beq (of_require hrows)).symm.trans (eq_of_sumSizes htotal)
    have hcounts := eq_map_of_mapM (fun _ _ hm => (mulSize_eq_ok_iff.mp (of_lift hm)).1) h
    rw [hcounts, List.sum_map_mul_right, List.map_id', ← hsum]
    split
    · exact Nat.zero_le _
    · exact Nat.mul_div_le ..

/-- The first buffer of a list is one of them. -/
theorem firstBuffer_eq_ok (h : Group.firstBuffer bs = .ok b) : b ∈ bs := by
  cases bs with
  | nil => cases h
  | cons first rest =>
    cases h
    exact List.mem_cons_self

end Checks

end Collectives
