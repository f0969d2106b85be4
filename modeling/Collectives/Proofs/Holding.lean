import Collectives.Proofs.FlatRegions

/-!
# Buffers that are held together

What one buffer of a caller says about another: two buffers that view one block were made from one new buffer, so they
have one type, and a block that is made later is none of theirs. `Holding` lists the buffers that a caller has at one
moment, however they came about; `Tenancy` is what holds of all of them.
-/

namespace Collectives

/-- The buffers that a caller can hold at one moment: new ones, views and parts of those that are held, and the
regions of lists of them. -/
inductive Holding : Store → List Buffer → Prop where
  /-- Nothing is held, in a memory without blocks that are too large. -/
  | nothing {s : Store} : s.heap.Bounded → Holding s []
  | zeros {s s' : Store} {held : List Buffer} {dtype : ElementType} {shape : List Nat} {b : Buffer} : Holding s held →
      (Buffer.zeros dtype shape).run s = (.ok b, s') → Holding s' (b :: held)
  | empty {s s' : Store} {held : List Buffer} {dtype : ElementType} {b : Buffer} : Holding s held →
      (Buffer.empty dtype).run s = (.ok b, s') → Holding s' (b :: held)
  | ofWords {s s' : Store} {held : List Buffer} {dtype : ElementType} {words shape : List Nat} {b : Buffer} :
      Holding s held → (Buffer.ofWords dtype words shape).run s = (.ok b, s') → Holding s' (b :: held)
  | flatLike {s s' : Store} {held buffers : List Buffer} {b : Buffer} : Holding s held → buffers ⊆ held →
      (Buffer.flatLike buffers).run s = (.ok b, s') → Holding s' (b :: held)
  | view {s : Store} {held : List Buffer} {v : View} {b b' : Buffer} : Holding s held → b ∈ held → v.of b = .ok b' →
      Holding s (b' :: held)
  | parts {s : Store} {held parts : List Buffer} {sizes : List Nat} {b : Buffer} : Holding s held → b ∈ held →
      b.split sizes = .ok parts → Holding s (parts ++ held)
  | region {s s' : Store} {held buffers : List Buffer} {l : FlatLayout} : Holding s held → buffers ⊆ held →
      (FlatLayout.reconcile buffers).run s = (.ok l, s') → Holding s' (l.region :: held)
  /-- Some of the buffers, in any order and any number of times. -/
  | among {s : Store} {held buffers : List Buffer} : Holding s held → buffers ⊆ held → Holding s buffers
  /-- Whatever happens to memory, the buffers are still held. -/
  | later {s s' : Store} {held : List Buffer} : Holding s held → s.heap.Extends s'.heap → Holding s' held

/-- The buffers of a list lie in blocks that are there, and those in one block have one type. -/
structure Tenancy (s : Store) (buffers : List Buffer) : Prop where
  bounded : s.heap.Bounded
  sound : ∀ b ∈ buffers, b.Sound s.heap
  there : ∀ b ∈ buffers, b.block < s.heap.blocks.size
  typed : ∀ b ∈ buffers, ∀ c ∈ buffers, b.block = c.block → b.dtype = c.dtype

/-! ## Where views lie -/

namespace Buffer

variable {b b' : Buffer}

/-- One buffer views the block of another, as elements of the same type. -/
def Beside (b b' : Buffer) : Prop := b'.block = b.block ∧ b'.dtype = b.dtype

theorem beside_reshape {shape : List Nat} (hv : b.reshape shape = .ok b') : b.Beside b' := by
  obtain ⟨n, strides, -, -, -, -, rfl⟩ := exists_of_reshape hv
  exact ⟨rfl, rfl⟩

theorem beside_narrow {start length : Nat} (hv : b.narrow start length = .ok b') : b.Beside b' := by
  obtain ⟨rows, dims, -, -, rfl⟩ := exists_of_narrow hv
  exact ⟨rfl, rfl⟩

/-- A view lies in the block of the buffer it was made from. -/
theorem beside_view {v : View} (hv : v.of b = .ok b') : b.Beside b' := by
  cases v with
  | whole =>
    cases hv
    exact ⟨rfl, rfl⟩
  | shaped shape => exact beside_reshape hv
  | flat =>
    obtain ⟨numel, -, hv⟩ := exists_of_lift_bind hv
    exact beside_reshape hv
  | rows start length => exact beside_narrow hv
  | transposed dim0 dim1 =>
    obtain ⟨_, -, hv⟩ := exists_of_bind_eq_ok hv
    cases hv
    exact ⟨rfl, rfl⟩
  | layout kind =>
    cases hv
    exact ⟨rfl, rfl⟩
  | device place =>
    cases hv
    exact ⟨rfl, rfl⟩

theorem beside_split {sizes : List Nat} {parts : List Buffer} (hv : b.split sizes = .ok parts) :
    ∀ part ∈ parts, b.Beside part := by
  intro part hmem
  obtain ⟨start, length, hpart⟩ := exists_narrow_of_split hv part hmem
  exact beside_narrow hpart

end Buffer

/-! ## Tenancy is kept -/

namespace Tenancy

variable {s s' : Store} {held buffers : List Buffer} {b : Buffer}

theorem among (ht : Tenancy s held) (hsub : buffers ⊆ held) : Tenancy s buffers where
  bounded := ht.bounded
  sound c hc := ht.sound c (hsub hc)
  there c hc := ht.there c (hsub hc)
  typed c hc d hd := ht.typed c (hsub hc) d (hsub hd)

theorem later (ht : Tenancy s held) (hx : s.heap.Extends s'.heap) : Tenancy s' held where
  bounded := hx.bounded ht.bounded
  sound c hc := (ht.sound c hc).later hx
  there c hc := lt_of_lt_of_le (ht.there c hc) hx.blocks
  typed := ht.typed

/-- A buffer in the block of one that is held joins it. -/
theorem cons_beside (ht : Tenancy s held) {c : Buffer} (hc : c ∈ held) (hbeside : c.Beside b) (hs : b.Sound s.heap) :
    Tenancy s (b :: held) := by
  obtain ⟨hblock, hdtype⟩ := hbeside
  refine ⟨ht.bounded, List.forall_mem_cons.mpr ⟨hs, ht.sound⟩, List.forall_mem_cons.mpr ⟨?_, ht.there⟩, ?_⟩
  · rw [hblock]
    exact ht.there c hc
  · have hnew : ∀ d ∈ held, b.block = d.block → b.dtype = d.dtype := by
      intro d hd hsame
      rw [hdtype]
      exact ht.typed c hc d hd (hblock.symm.trans hsame)
    intro d hd e he hsame
    rcases List.mem_cons.mp hd with rfl | hold
    · rcases List.mem_cons.mp he with rfl | hold'
      · rfl
      · exact hnew e hold' hsame
    · rcases List.mem_cons.mp he with rfl | hold'
      · exact (hnew d hold hsame.symm).symm
      · exact ht.typed d hold e hold' hsame

/-- Buffers in the block of one that is held join it. -/
theorem append_beside (ht : Tenancy s held) {c : Buffer} (hc : c ∈ held) {parts : List Buffer}
    (hbeside : ∀ part ∈ parts, c.Beside part) (hs : ∀ part ∈ parts, part.Sound s.heap) : Tenancy s (parts ++ held) := by
  induction parts with
  | nil => exact ht
  | cons part parts ih =>
    obtain ⟨hpart, hbeside⟩ := List.forall_mem_cons.mp hbeside
    obtain ⟨hsound, hs⟩ := List.forall_mem_cons.mp hs
    exact (ih hbeside hs).cons_beside (List.mem_append_right parts hc) hpart hsound

/-- A buffer in a block that was not there before joins the others. -/
theorem cons_new (ht : Tenancy s held) (hx : s.heap.Extends s'.heap) (hnew : b.block = s.heap.blocks.size)
    (hin : b.block < s'.heap.blocks.size) (hs : b.Sound s'.heap) : Tenancy s' (b :: held) := by
  have hlater := ht.later hx
  have hother : ∀ c ∈ held, b.block ≠ c.block := by
    intro c hc hsame
    have hthere := ht.there c hc
    omega
  refine ⟨hlater.bounded, List.forall_mem_cons.mpr ⟨hs, hlater.sound⟩, List.forall_mem_cons.mpr ⟨hin, hlater.there⟩, ?_⟩
  intro c hc d hd hsame
  rcases List.mem_cons.mp hc with rfl | hold
  · rcases List.mem_cons.mp hd with rfl | hold'
    · rfl
    · exact absurd hsame (hother d hold')
  · rcases List.mem_cons.mp hd with rfl | hold'
    · exact absurd hsame.symm (hother c hold)
    · exact ht.typed c hold d hold' hsame

/-- A new buffer of zeros joins the others. -/
theorem cons_zeros (ht : Tenancy s held) {dtype : ElementType} {shape : List Nat}
    (h : (Buffer.zeros dtype shape).run s = (.ok b, s')) : Tenancy s' (b :: held) := by
  have hfresh := Buffer.zeros_run h
  obtain ⟨bytes, hheap⟩ := Buffer.zeros_push h
  refine ht.cons_new ((Buffer.zeros_extends dtype shape).of_run h) hfresh.new ?_ (.of_fresh hfresh)
  rw [hfresh.new, hheap, Array.size_push]
  exact Nat.lt_succ_self _

/-- A new buffer of words joins the others. -/
theorem cons_ofWords (ht : Tenancy s held) {dtype : ElementType} {words shape : List Nat}
    (h : (Buffer.ofWords dtype words shape).run s = (.ok b, s')) : Tenancy s' (b :: held) := by
  obtain ⟨numel, -, h⟩ := exists_of_size_bind h
  obtain ⟨_, -, h⟩ := exists_of_check_bind h
  obtain ⟨made, s₁, hzeros, h⟩ := exists_of_run_bind h
  rw [run_modify_bind] at h
  cases h
  refine (ht.cons_zeros hzeros).later ?_
  dsimp only
  exact Heap.extends_write

/-- The region of buffers that are held joins them. -/
theorem cons_region (ht : Tenancy s held) (hsub : buffers ⊆ held) {l : FlatLayout}
    (h : (FlatLayout.reconcile buffers).run s = (.ok l, s')) : Tenancy s' (l.region :: held) := by
  have hx := (FlatLayout.reconcile_extends buffers).of_run h
  have hl := FlatLayout.reconcile_stands h
  have hsound := Buffer.Sound.region h
  cases hin : l.inPlace with
  | true =>
    obtain ⟨-, first, hfirst, hregion⟩ := hl.placed hin
    refine (ht.later hx).cons_beside (hsub (FlatLayout.anchor_mem hfirst)) ?_ hsound
    rw [hregion]
    exact ⟨rfl, rfl⟩
  | false =>
    obtain ⟨hnew, -, bytes, hheap⟩ := hl.staged hin
    refine ht.cons_new hx hnew ?_ hsound
    rw [hnew, hheap, Array.size_push]
    exact Nat.lt_succ_self _

end Tenancy

/-- Buffers that are held lie in blocks that are there, and those in one block have one type. -/
theorem Holding.tenancy {s : Store} {buffers : List Buffer} (h : Holding s buffers) : Tenancy s buffers := by
  induction h with
  | nothing hbounded => exact ⟨hbounded, by simp, by simp, by simp⟩
  | zeros _ h ih => exact ih.cons_zeros h
  | empty _ h ih => exact ih.cons_zeros h
  | ofWords _ h ih => exact ih.cons_ofWords h
  | @flatLike _ _ _ buffers _ _ _ h ih =>
    cases buffers with
    | nil => cases h
    | cons first rest => exact ih.cons_zeros h
  | view _ hmem hv ih => exact ih.cons_beside hmem (Buffer.beside_view hv) ((ih.sound _ hmem).view hv)
  | parts _ hmem hv ih => exact ih.append_beside hmem (Buffer.beside_split hv) ((ih.sound _ hmem).split hv)
  | region _ hsub h ih => exact ih.cons_region hsub h
  | among _ hsub ih => exact ih.among hsub
  | later _ hx ih => exact ih.later hx

end Collectives
