import Collectives.Proofs.Exchanges

/-!
# Planning an exchange

Four collectives come down to an exchange: rows that are shared out, lists of buffers, a gather and a scatter. Planning
one leaves the blocks that were there as they are. A list that lies back to back is exchanged where it is; of any other
list the region is a new block, into which what is sent is copied while planning.
-/

namespace Collectives

/-! ## Memory that has grown -/

/-- Every block that was there is still there, with the same bytes. -/
structure Heap.Grows (h h' : Heap) : Prop where
  blocks : h.blocks.size ≤ h'.blocks.size
  kept : ∀ block pos, block < h.blocks.size → h'.byte? block pos = h.byte? block pos

namespace Heap.Grows

variable {h h' h'' : Heap}

theorem refl (h : Heap) : h.Grows h := ⟨le_rfl, fun _ _ _ => rfl⟩

theorem trans (h₁ : h.Grows h') (h₂ : h'.Grows h'') : h.Grows h'' :=
  ⟨h₁.blocks.trans h₂.blocks, fun block pos hb =>
    (h₂.kept block pos (lt_of_lt_of_le hb h₁.blocks)).trans (h₁.kept block pos hb)⟩

/-- One more block changes no other. -/
theorem push (h : Heap) (bytes : Array UInt8) : h.Grows { blocks := h.blocks.push bytes } := by
  refine ⟨?_, fun block pos hb => ?_⟩
  · rw [Array.size_push]
    exact Nat.le_succ _
  · unfold Heap.byte?
    rw [Array.getElem?_push, if_neg hb.ne]

/-- What a buffer holds that was there is not touched. -/
theorem words (hg : h.Grows h') {b : Buffer} (hb : b.Sound h) : b.words h' = b.words h :=
  Buffer.words_congr fun block pos hh => hg.kept block pos (hb.lt_size hh)

end Heap.Grows

instance : IsPreorder Heap Heap.Grows where
  refl := Heap.Grows.refl
  trans _ _ _ := Heap.Grows.trans

theorem Heap.keptByPush_grows : Heap.KeptByPush Heap.Grows := fun h _ _ => .push h _

/-- Copies into blocks that were not there change none that were. -/
theorem FlatLayout.copyAll_grows {h : Heap} {pairs : List (Buffer × Buffer)}
    (hnew : ∀ p ∈ pairs, p.1.shape.length = p.1.strides.length ∧ h.blocks.size ≤ p.1.block) {s : Store}
    (hs : h.Grows s.heap) : h.Grows ((copyAll pairs).run s).2.heap := by
  induction pairs generalizing s with
  | nil => exact hs
  | cons p pairs ih =>
    obtain ⟨⟨hranked, hblock⟩, hrest⟩ := List.forall_mem_cons.mp hnew
    have hcopy : h.Grows ((p.1.copyFrom p.2).run s).2.heap := by
      refine ⟨hs.blocks.trans (Buffer.copyFrom_extends p.1 p.2 s).blocks, fun block pos hb => ?_⟩
      rw [← hs.kept block pos hb]
      apply Buffer.copyFrom_frame hranked p.2 s
      rintro ⟨i, -, hcovers⟩
      have hheld : block = p.1.block := (Option.some.inj hcovers.1).symm
      omega
    exact Edit.Keeps.bind_run hcopy fun _ s' _ hs' => ih hrest hs'

/-- Only a region that is new is packed into. -/
theorem Heap.keptByPack_grows : Heap.KeptByPack Heap.Grows := by
  intro buffers l s s₁ s₂ hreconcile hs
  have hl := FlatLayout.reconcile_stands hreconcile
  cases hin : l.inPlace with
  | true =>
    unfold FlatLayout.pack
    rw [if_pos hin]
    exact hs
  | false =>
    rw [hl.pack_eq hin]
    apply FlatLayout.copyAll_grows _ hs
    rintro ⟨part, b⟩ hmem
    obtain ⟨i, hi⟩ := List.mem_iff_getElem?.mp (List.of_mem_zip hmem).1
    rw [Buffer.getElem?_stretches] at hi
    obtain ⟨length, -, rfl⟩ := Option.map_eq_some_iff.mp hi
    exact ⟨rfl, (hl.staged hin).1.ge⟩

/-- Whatever is planned, and whether or not it is refused, every block that was there keeps its bytes. -/
theorem Group.plan_grows (g : Group) (what : Collective Buffer) : (g.plan what).Keeps Heap.Grows :=
  plan_keeps Heap.keptByPush_grows Heap.keptByPack_grows g what

/-- A plan asks for an exchange of blocks that lie in memory, and making it has only added to memory. -/
structure Plan.Asks (p : Plan) (x : Exchange) (n : Nat) (s s' : Store) : Prop where
  called : p.call = x.call s'.heap
  lent : x.Lent n s'.heap
  grows : s.heap.Grows s'.heap

/-- Buffers for what is received from each rank, each beside the block that is for it. -/
def Exchange.blocksFor (x : Exchange) (buffers : List Buffer) : List (Buffer × Buffer) :=
  buffers.zip (x.recv.stretches 0 x.recvCounts)

/-- The block is one of those that are new. -/
def Store.Made (s s' : Store) (block : Nat) : Prop := s.heap.blocks.size ≤ block ∧ block < s'.heap.blocks.size

/-- How a rank takes what it receives. Every block stands for one of its buffers: it is that buffer, or it is new and is
copied there once the call is over. -/
structure Plan.Takes (p : Plan) (x : Exchange) (s s' : Store) (blocks : List (Buffer × Buffer)) : Prop where
  inPlace : p.copyOut = none → ∀ b ∈ blocks,
    (∀ h, b.1.words h = b.2.words h) ∧ ∀ block pos, b.2.Holds block pos ↔ b.1.Holds block pos
  staged : ∀ copyOut, p.copyOut = some copyOut → (∀ s, copyOut.run.run s = (FlatLayout.copyAll blocks).run s) ∧
    FlatLayout.Copyable s'.heap blocks ∧ ∀ b ∈ blocks, ∀ block pos, b.2.Holds block pos → s.Made s' block
  lands : ∀ block pos, x.landing.Holds block pos → s.Made s' block ∨ ∃ b ∈ blocks, b.1.Holds block pos

/-- Where the buffers lie that a rank sends. Either the blocks are these buffers, or they are new and hold what the
buffers held when planning began. -/
structure Exchange.Gives (x : Exchange) (s s' : Store) (buffers : List Buffer) : Prop where
  inPlace : BackToBack buffers → ∀ i b, buffers[i]? = some b → ∀ h, (x.sent i).words h = b.words h
  staged : ¬BackToBack buffers → ∀ i b, buffers[i]? = some b →
    (x.sent i).words s'.heap = b.words s.heap ∧ ∀ block pos, (x.sent i).Holds block pos → s.Made s' block

section Blocks

variable {x : Exchange} {buffers : List Buffer} {b : Buffer} {i : Nat}

theorem Exchange.getElem?_blocksFor (hb : buffers[i]? = some b) (hi : i < x.recvCounts.length) :
    (x.blocksFor buffers)[i]? = some (b, x.received i) := by
  refine List.getElem?_zip_eq_some.mpr ⟨hb, ?_⟩
  rw [Buffer.getElem?_stretches, List.getElem?_eq_getElem hi, Nat.zero_add, Option.map_some, received,
    List.getD_eq_getElem?_getD, List.getElem?_eq_getElem hi, Option.getD_some]

theorem Exchange.exists_of_mem_blocksFor {block : Buffer × Buffer} (h : block ∈ x.blocksFor buffers) :
    ∃ i, buffers[i]? = some block.1 ∧ block.2 = x.received i := by
  obtain ⟨i, hi⟩ := List.mem_iff_getElem?.mp h
  obtain ⟨hb, hpart⟩ := List.getElem?_zip_eq_some.mp hi
  rw [Buffer.getElem?_stretches, Nat.zero_add] at hpart
  obtain ⟨count, hcount, hpart⟩ := Option.map_eq_some_iff.mp hpart
  refine ⟨i, hb, hpart.symm.trans ?_⟩
  rw [received, List.getD_eq_getElem?_getD, hcount, Option.getD_some]

theorem Exchange.mem_of_mem_blocksFor {block : Buffer × Buffer} (h : block ∈ x.blocksFor buffers) :
    block.1 ∈ buffers := by
  obtain ⟨i, hi, -⟩ := exists_of_mem_blocksFor h
  exact List.mem_of_getElem? hi

end Blocks

/-! ## Regions that are exchanged -/

namespace FlatLayout.Stands

variable {l : FlatLayout} {buffers : List Buffer} {s s' s₁ s₂ : Store} {i : Nat} {b : Buffer}

/-- The block of a region at a place of the list is the part of the buffer there. -/
theorem stretch_eq (hl : l.Stands buffers s s') (hb : buffers[i]? = some b) :
    l.region.stretch (l.lengths.take i).sum (l.lengths.getD i 0) =
      l.region.stretch (elementsBefore buffers i) b.count := by
  rw [hl.sum_take, List.getD_eq_getElem?_getD, hl.getElem?_lengths hb, Option.getD_some]

theorem grows (hl : l.Stands buffers s s') : s.heap.Grows s'.heap := by
  cases hin : l.inPlace with
  | true =>
    rw [(hl.placed hin).1]
    exact .refl s.heap
  | false =>
    obtain ⟨-, -, bytes, hbytes⟩ := hl.staged hin
    rw [hbytes]
    exact .push s.heap bytes

/-- A region that is not in place is the one new block. -/
theorem size_of_staged (hl : l.Stands buffers s s') (hin : l.inPlace = false) :
    l.region.block = s.heap.blocks.size ∧ s'.heap.blocks.size = s.heap.blocks.size + 1 := by
  obtain ⟨hblock, -, bytes, hbytes⟩ := hl.staged hin
  rw [hbytes, Array.size_push]
  exact ⟨hblock, rfl⟩

/-- Packing leaves every part of the region with the words of its buffer, and what was there as it was. -/
theorem pack_grows (hl : l.Stands buffers s s') (hx : s'.heap.Extends s₁.heap) (hg : s.heap.Grows s₁.heap)
    (hbounded : s₁.heap.Bounded) (hsound : ∀ b ∈ buffers, b.Sound s.heap)
    (hplain : ∀ b ∈ buffers, b.dtype = l.region.dtype ∧ b.isContiguous = .ok true) (hlater : s.heap.Extends s₁.heap)
    (h : (l.pack buffers).run s₁ = (.ok (), s₂)) :
    s.heap.Grows s₂.heap ∧ ∀ i b, buffers[i]? = some b →
      (l.region.stretch (elementsBefore buffers i) b.count).words s₂.heap =
        b.words s.heap := by
  cases hin : l.inPlace with
  | true =>
    rw [pack_inPlace hin h]
    refine ⟨hg, fun i b hb => ?_⟩
    have hlisted := List.mem_of_getElem? hb
    obtain ⟨htype, hc⟩ := hplain b hlisted
    have hsolid := (Buffer.Solid.of_sound (hsound b hlisted) (hl.counted b hlisted) hc).later hlater
    rw [(hl.part_inPlace hin hb hsolid htype s₁.heap).1]
    exact hg.words (hsound b hlisted)
  | false =>
    obtain ⟨hblock, -⟩ := hl.size_of_staged hin
    have houtside : ∀ b ∈ buffers, ∀ block pos, b.Holds block pos → block ≠ l.region.block := by
      intro b hb block pos hh
      rw [hblock]
      exact ((hsound b hb).lt_size hh).ne
    have hsound' : ∀ b ∈ buffers, b.Sound s₁.heap ∧ b.dtype = l.region.dtype := fun b hb =>
      ⟨(hsound b hb).later hlater, (hplain b hb).1⟩
    obtain ⟨hwords, hkept⟩ := hl.pack_run hin hx hbounded hsound' houtside h
    refine ⟨⟨hg.blocks.trans ((pack_extends l buffers).of_run h).blocks, fun block pos hb => ?_⟩, fun i b hb => ?_⟩
    · rw [hkept block pos fun hh => hb.ne (hh.block_eq.trans hblock)]
      exact hg.kept block pos hb
    · rw [hwords i b hb]
      exact hg.words (hsound b (List.mem_of_getElem? hb))

/-- A list of buffers takes what is received into its region, in place or by copies. -/
theorem takes (hl : l.Stands buffers s₁ s₂) {s s' : Store} {p : Plan} {x : Exchange} {n : Nat}
    (hrecv : x.recv = l.region) (hcounts : x.recvCounts = l.lengths) (hlent : x.Lent n s'.heap)
    (hbounded : s'.heap.Bounded) (hfirst : s.heap.blocks.size ≤ s₁.heap.blocks.size) (hx : s₂.heap.Extends s'.heap)
    (hplain : ∀ b ∈ buffers, b.dtype = l.region.dtype ∧ b.isContiguous = .ok true)
    (hsound : ∀ b ∈ buffers, b.Sound s'.heap)
    (hcopy : p.copyOut = if l.inPlace then none else some (.unpacked l buffers)) :
    p.Takes x s s' (x.blocksFor buffers) := by
  rw [Exchange.blocksFor, hrecv, hcounts]
  have hsolid : ∀ b ∈ buffers, b.Solid s'.heap b.count := fun b hb =>
    .of_sound (hsound b hb) (hl.counted b hb) (hplain b hb).2
  have hreceived {i : Nat} {b : Buffer} (hb : buffers[i]? = some b) :
      x.received i = l.region.stretch (elementsBefore buffers i) b.count := by
    rw [Exchange.received, hrecv, hcounts]
    exact hl.stretch_eq hb
  cases hin : l.inPlace with
  | true =>
    rw [hin, if_pos rfl] at hcopy
    refine ⟨fun _ => ?_, fun copyOut h => ?_, fun block pos hh => .inr ?_⟩
    · rintro ⟨b, part⟩ hmem
      obtain ⟨i, hb, rfl⟩ := hl.exists_of_mem_zip hmem
      have hmem := List.mem_of_getElem? hb
      have hpart := hl.part_inPlace hin hb (hsolid b hmem) (hplain b hmem).1
      exact ⟨fun h => (hpart h).1.symm, (hpart s'.heap).2⟩
    · rw [hcopy] at h
      cases h
    · obtain ⟨i, hi, hheld⟩ := hlent.exists_received hbounded hh
      have hlength : n = buffers.length := by rw [← hlent.receives, hcounts, hl.lengths, List.length_map]
      have hb := List.getElem?_eq_getElem (hlength ▸ hi)
      rw [hreceived hb] at hheld
      have hmem := List.mem_of_getElem? hb
      have hpart := hl.part_inPlace hin hb (hsolid _ hmem) (hplain _ hmem).1 s'.heap
      exact ⟨_, hl.mem_zip hb, (hpart.2 block pos).mp hheld⟩
  | false =>
    rw [hin, if_neg Bool.false_ne_true] at hcopy
    obtain ⟨hblock, hsize⟩ := hl.size_of_staged hin
    have hmade : s.Made s' l.region.block := by
      have hlast := hx.blocks
      exact ⟨hblock ▸ hfirst, by omega⟩
    refine ⟨fun h => ?_, fun copyOut h => ?_, fun block pos hh => .inl ?_⟩
    · rw [hcopy] at h
      cases h
    · rw [hcopy] at h
      cases h
      refine ⟨fun store => hl.unpack_run hin store, hl.copyable hx fun b hb => ⟨hsolid b hb, (hplain b hb).1⟩, ?_⟩
      rintro ⟨b, part⟩ hmem block pos hh
      obtain ⟨i, -, rfl⟩ := hl.exists_of_mem_zip hmem
      rw [(Buffer.holds_stretch hh).1]
      exact hmade
    · rw [Exchange.landing, hrecv] at hh
      rw [(Buffer.holds_stretch hh).1]
      exact hmade

/-- A list of buffers is given from its region, once that is packed. -/
theorem gives (hl : l.Stands buffers s₁ s₂) {s s' : Store} {x : Exchange} (hsend : x.send = l.region)
    (hcounts : x.sendCounts = l.lengths) (hfirst : s.heap.blocks.size ≤ s₁.heap.blocks.size)
    (hx : s₂.heap.Extends s'.heap) (hplain : ∀ b ∈ buffers, b.dtype = l.region.dtype ∧ b.isContiguous = .ok true)
    (hsound : ∀ b ∈ buffers, b.Sound s'.heap)
    (hpacked : ∀ i b, buffers[i]? = some b →
      (l.region.stretch (elementsBefore buffers i) b.count).words s'.heap = b.words s.heap) :
    x.Gives s s' buffers := by
  have hsent {i : Nat} {b : Buffer} (hb : buffers[i]? = some b) :
      x.sent i = l.region.stretch (elementsBefore buffers i) b.count := by
    rw [Exchange.sent, hsend, hcounts]
    exact hl.stretch_eq hb
  constructor
  · intro htogether i b hb h
    have hmem := List.mem_of_getElem? hb
    have hsolid : b.Solid s'.heap b.count := .of_sound (hsound b hmem) (hl.counted b hmem) (hplain b hmem).2
    rw [hsent hb]
    exact (hl.part_inPlace (hl.inPlace.mpr htogether) hb hsolid (hplain b hmem).1 h).1
  · intro hscattered i b hb
    have hin : l.inPlace = false := by
      rw [← Bool.not_eq_true, hl.inPlace]
      exact hscattered
    obtain ⟨hblock, hsize⟩ := hl.size_of_staged hin
    have hlast := hx.blocks
    rw [hsent hb]
    refine ⟨hpacked i b hb, fun block pos hh => ?_⟩
    rw [(Buffer.holds_stretch hh).1, hblock]
    exact ⟨hfirst, by omega⟩

end FlatLayout.Stands

/-! ## One buffer -/

namespace Buffer

variable {h : Heap} {b : Buffer} {n : Nat}

/-- The stretch over all of a buffer reads as the buffer does, and has the same bytes. -/
theorem Solid.stretch_whole (hb : b.Solid h n) (hbounded : h.Bounded) :
    (∀ h', b.words h' = (b.stretch 0 n).words h') ∧
      ∀ block pos, (b.stretch 0 n).Holds block pos ↔ b.Holds block pos := by
  have hwhole := hb.room.stretch (Nat.zero_add n).le (hb.room.lt_sizeLimit hbounded)
  constructor
  · intro h'
    rw [hb.words_eq, hwhole.words_eq]
    rfl
  · intro block pos
    rw [hb.holds_iff, hwhole.holds_iff]
    exact Iff.rfl

end Buffer

end Collectives
