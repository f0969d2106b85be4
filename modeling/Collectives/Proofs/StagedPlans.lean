import Collectives.Proofs.CallEndings

/-!
# Regions of a collective's own

A flat all-gather, and a gather or an exchange of lists whose outputs do not lie back to back, receive into a region
that is made while planning. The substrate is given the start of the region and no other destination, so the outputs are
out of its reach; afterwards each output is copied out from its part of the region.
-/

namespace Collectives

/-- The buffers that a collective leaves its results in. -/
def Collective.outputs : Collective Buffer → List Buffer
  | .broadcast buffers _ | .allreduce buffers _ | .reduce buffers _ _ => buffers
  | .allgather outputs _ | .gather outputs _ _ => outputs.flatten
  | .scatter outputs _ _ | .alltoall outputs _ => outputs
  | .alltoallBase output _ _ => [output]

/-- Where a call lets the substrate write. -/
def Call.destinations : Call → List Address
  | .bcast buffer _ _ _ => [buffer]
  | .allreduce _ recv _ _ _ | .reduce _ recv _ _ _ _ => [recv]
  | .allgatherv _ _ (.flat start) _ _ => [start]
  | .allgatherv _ _ (.perRank starts) _ _ => starts
  | .alltoall _ recv _ _ | .alltoallv _ _ recv _ _ => [recv]

/-- The collective stages its results: an all-gather in flat mode, and a gather, on its root, or an exchange of lists
whose outputs do not lie back to back. -/
def Group.Stages (g : Group) : Collective Buffer → Prop
  | .allgather _ _ => g.mode = .flat
  | .gather outputs _ root => g.rank = root ∧ ¬BackToBack outputs.flatten
  | .alltoall outputs _ => ¬BackToBack outputs
  | _ => False

theorem Collective.mem_operands {what : Collective Buffer} {b : Buffer} (hb : b ∈ what.outputs) :
    b ∈ what.operands := by
  cases what with
  | broadcast | allreduce | reduce => exact hb
  | allgather | gather | scatter | alltoall => exact List.mem_append_left _ hb
  | alltoallBase => exact List.mem_cons.mpr (.inl (List.mem_singleton.mp hb))

/-- A plan whose results are received into a region and copied out. -/
structure Plan.Stages (p : Plan) (outputs : List Buffer) (region : Buffer) (copyOut : CopyOut) (s s' : Store) :
    Prop where
  staged : p.copyOut = some copyOut
  /-- The block of the region was not there before. -/
  made : s.heap.blocks.size ≤ region.block
  /-- The only destination is the start of the region. -/
  destination : ∀ call, p.call = .ok call → ∃ start, region.address s'.heap = .ok start ∧ call.destinations = [start]
  /-- Outputs that are apart get their parts of the region. -/
  parts : ∀ s₁ : Store, s'.heap.Extends s₁.heap → outputs.Pairwise Buffer.Apart → ∀ (i : Nat) b, outputs[i]? = some b →
    b.words (copyOut.run.run s₁).2.heap = (region.stretch (elementsBefore outputs i) b.count).words s₁.heap
  /-- Nothing but the outputs changes. -/
  kept : ∀ s₁ : Store, s'.heap.Extends s₁.heap → ∀ block pos, (∀ b ∈ outputs, ¬b.Holds block pos) →
    (copyOut.run.run s₁).2.heap.byte? block pos = s₁.heap.byte? block pos

/-- The address of a buffer is in its block, or nowhere. -/
theorem Buffer.block_of_address {b : Buffer} {h : Heap} {a : Address} (ha : b.address h = .ok a) {block : Nat}
    (hblock : a.block = some block) : block = b.block := by
  unfold address at ha
  split at ha
  · cases ha
    cases hblock
  · obtain ⟨_, -, ha⟩ := exists_of_bind_eq_ok ha
    cases ha
    exact (Option.some.inj hblock).symm

/-! ## Exchanges -/

section Exchanges

variable {p : Plan} {x : Exchange} {n : Nat} {s s' : Store} {outputs : List Buffer} {copyOut : CopyOut}

/-- A list that does not lie back to back has a buffer with elements. -/
theorem exists_count_ne_zero (h : ¬BackToBack outputs) :
    ∃ (i : Nat) (b : Buffer), outputs[i]? = some b ∧ b.count ≠ 0 := by
  by_contra hnone
  push Not at hnone
  refine h ⟨0, 0, lieFrom_of_empty fun b hb => ?_⟩
  obtain ⟨i, hi⟩ := List.mem_iff_getElem?.mp hb
  exact hnone i b hi

theorem Exchange.received_eq (hcounts : x.recvCounts = outputs.map Buffer.count) {i : Nat} {b : Buffer}
    (hb : outputs[i]? = some b) : x.received i = x.recv.stretch (elementsBefore outputs i) b.count := by
  have hcount : (outputs.map Buffer.count).getD i 0 = b.count := by
    rw [List.getD_eq_getElem?_getD, List.getElem?_map, hb, Option.map_some, Option.getD_some]
  rw [Exchange.received, hcounts, hcount, ← List.map_take, elementsBefore]

/-- Outputs that do not lie back to back are received through a region. -/
theorem Plan.Takes.stages (ht : p.Takes x s s' (x.blocksFor outputs)) (hasks : p.Asks x n s s')
    (hcounts : x.recvCounts = outputs.map Buffer.count) (hs : ∀ b ∈ outputs, b.Sound s.heap)
    (hbounded : s'.heap.Bounded) (hscattered : ¬BackToBack outputs) (hcopy : p.copyOut = some copyOut) :
    p.Stages outputs x.recv copyOut s s' := by
  obtain ⟨hcopies, hcopyable, hmade⟩ := ht.staged copyOut hcopy
  have hblock {i : Nat} {b : Buffer} (hb : outputs[i]? = some b) :
      (b, x.recv.stretch (elementsBefore outputs i) b.count) ∈ x.blocksFor outputs := by
    have hi : i < x.recvCounts.length := by
      rw [hcounts, List.length_map]
      exact (List.getElem?_eq_some_iff.mp hb).1
    rw [← Exchange.received_eq hcounts hb]
    exact List.mem_of_getElem? (Exchange.getElem?_blocksFor hb hi)
  have hsources : ∀ c ∈ x.blocksFor outputs, ∀ d ∈ x.blocksFor outputs, c.1.Apart d.2 := by
    intro c hc d hd block pos hh hh'
    have hold := (hs c.1 (Exchange.mem_of_mem_blocksFor hc)).lt_size hh
    exact absurd hold (Nat.not_lt.mpr (hmade d hd block pos hh').1)
  constructor
  · exact hcopy
  · -- A part that has elements has a byte, and that is in a block that was made.
    obtain ⟨i, b, hb, hne⟩ := exists_count_ne_zero hscattered
    obtain ⟨-, count, hsolid, hpart⟩ := hcopyable _ (hblock hb)
    obtain rfl : b.count = count := hsolid.count_eq
    have hbytes : 0 < b.count * x.recv.dtype.width := Nat.mul_pos (Nat.pos_of_ne_zero hne) x.recv.dtype.width_pos
    have hfirst := hpart.holds_iff.mpr ⟨rfl, le_rfl, Nat.lt_add_of_pos_right hbytes⟩
    exact (hmade _ (hblock hb) _ _ hfirst).1
  · intro call hcall
    rw [hasks.called] at hcall
    obtain ⟨source, -, hcall⟩ := exists_of_bind_eq_ok hcall
    obtain ⟨target, htarget, hcall⟩ := exists_of_bind_eq_ok hcall
    cases hcall
    exact ⟨target, htarget, rfl⟩
  · intro s₁ hx happart i b hb
    obtain ⟨s₂, hrun, -⟩ := FlatLayout.copyAll_ok (hcopyable.later hx).matches (hx.bounded hbounded)
    have hwords := FlatLayout.words_copyAll (hcopyable.later hx).matches (hx.bounded hbounded)
      (FlatLayout.pairwise_zip happart) hsources hrun _ (hblock hb)
    rwa [hcopies, hrun]
  · intro s₁ hx block pos hout
    obtain ⟨s₂, hrun, hkept⟩ := FlatLayout.copyAll_ok (hcopyable.later hx).matches (hx.bounded hbounded)
    rw [hcopies, hrun]
    exact hkept block pos fun c hc => hout c.1 (Exchange.mem_of_mem_blocksFor hc)

end Exchanges

/-! ## Rows -/

section Rows

variable {region : Buffer} {n c k : Nat} {shape : List Nat} {outs : List Buffer} {h : Heap}

/-- Buffers of one count have as many elements before each of them as there are buffers, times the count. -/
theorem elementsBefore_eq_mul (hcount : ∀ b ∈ outs, b.count = c) {i : Nat} (hi : i ≤ outs.length) :
    elementsBefore outs i = i * c := by
  have hcounts : (outs.take i).map Buffer.count = List.replicate i c := by
    refine List.eq_replicate_iff.mpr ⟨?_, fun x hx => ?_⟩
    · rw [List.length_map, List.length_take, Nat.min_eq_left hi]
    · obtain ⟨b, hb, rfl⟩ := List.mem_map.mp hx
      exact hcount b (List.mem_of_mem_take hb)
  rw [elementsBefore, hcounts, List.sum_replicate, smul_eq_mul]

/-- A row reads as the part of the region at its place. -/
theorem Buffer.Rows.words_row (hr : region.Rows n shape h) (hbounded : h.Bounded) (hc : productSizes shape = .ok c)
    {i : Nat} (hi : i < n) (h' : Heap) : (region.row i).words h' = (region.stretch (i * c) c).words h' := by
  have hrow := hr.row_solid hc hi
  obtain rfl : c = shape.prod := eq_of_productSizes hc
  have hin : i * shape.prod + shape.prod ≤ n * shape.prod := by
    rw [← Nat.succ_mul]
    exact Nat.mul_le_mul_right _ hi
  have hpart := hr.room.stretch hin (lt_of_le_of_lt (by omega) (hr.total_lt_sizeLimit hbounded))
  rw [hrow.words_eq, hpart.words_eq]
  rcases Nat.eq_zero_or_pos shape.prod with hzero | hpos
  · rw [hzero]
    rfl
  · have hplace : (region.row i).offset = (region.stretch (i * shape.prod) shape.prod).offset := by
      rw [hr.row_offset, Buffer.rowStride_eq hpos, Buffer.stretch, hr.first, Nat.zero_add]
    rw [Buffer.place, Buffer.place, hplace]
    rfl

/-- However copying rows out ends, only the outputs change. -/
theorem copyRows_kept (hranked : ∀ b ∈ outs, b.shape.length = b.strides.length) {block pos : Nat}
    (hout : ∀ b ∈ outs, ¬b.Holds block pos) (s : Store) :
    ((copyRows region k outs).run s).2.heap.byte? block pos = s.heap.byte? block pos := by
  induction outs generalizing k s with
  | nil => rfl
  | cons out outs ih =>
    obtain ⟨hfirst, hrest⟩ := List.forall_mem_cons.mp hranked
    obtain ⟨hnot, hnots⟩ := List.forall_mem_cons.mp hout
    cases hrow : region.narrow k 1 with
    | error failure =>
      rw [copyRows, run_check_bind_error hrow]
    | ok row =>
      rw [copyRows, run_check_bind hrow]
      rcases hrun : (out.copyFrom row).run s with ⟨answer, s₁⟩
      have hframe := (Buffer.copyFrom_frame hfirst row).of_run hrun block pos hnot
      cases answer with
      | error failure =>
        rw [run_bind_error hrun]
        exact hframe
      | ok =>
        rw [run_bind_ok hrun]
        exact (ih hrest hnots s₁).trans hframe

/-- Outputs that are apart from each other and from the region get its rows. Those without elements do so even if the
place of a row overflows. -/
theorem words_copyRows (hr : region.Rows n shape h) (hc : productSizes shape = .ok c)
    (houts : ∀ b ∈ outs, b.Solid h c ∧ b.dtype = region.dtype) (hlength : outs.length = n)
    (happart : outs.Pairwise Buffer.Apart) (hregion : ∀ b ∈ outs, ∀ block pos, b.Holds block pos → block ≠ region.block)
    {s : Store} (hx : h.Extends s.heap) (hbounded : h.Bounded) {i : Nat} {b : Buffer} (hb : outs[i]? = some b) :
    b.words ((copyRows region 0 outs).run s).2.heap = (region.row i).words s.heap := by
  have hi : i < n := hlength ▸ (List.getElem?_eq_some_iff.mp hb).1
  rcases Nat.eq_zero_or_pos c with rfl | hpos
  · rw [(houts b (List.mem_of_getElem? hb)).1.words_eq, (hr.row_solid hc hi).words_eq]
    rfl
  · have hprod : 0 < shape.prod := by rwa [← eq_of_productSizes hc]
    have hplaces : ∀ i < n, i * Buffer.rowStride shape < sizeLimit := fun i hi =>
      hr.place_lt_sizeLimit hbounded hprod hi
    have hk : 0 + outs.length ≤ n := (Nat.zero_add _).trans_le hlength.le
    have hcopyable := (hr.copyable hc houts hk).later hx
    obtain ⟨s', hrun, -⟩ := FlatLayout.copyAll_ok hcopyable.matches (hx.bounded hbounded)
    rw [copyRows_run hr hk hplaces, hrun]
    rw [Buffer.rowPairs_eq_zip region hlength] at hcopyable hrun
    have hpairs : (outs.zip ((List.range n).map region.row)).Pairwise fun p q => p.1.Apart q.1 :=
      FlatLayout.pairwise_zip happart
    refine FlatLayout.words_copyAll hcopyable.matches (hx.bounded hbounded) hpairs
      (fun p hp q hq block pos hh hh' => ?_) hrun (b, region.row i)
      (List.mem_of_getElem? (List.getElem?_zip_eq_some.mpr ⟨hb, ?_⟩))
    · obtain ⟨j, -, hj⟩ := List.mem_map.mp (List.of_mem_zip hq).2
      rw [← hj] at hh'
      obtain ⟨_, -, hblock, -⟩ := hh'
      exact hregion p.1 (List.of_mem_zip hp).1 block pos hh (Option.some.inj hblock).symm
    · rw [List.getElem?_map, List.getElem?_range hi, Option.map_some]

end Rows

/-! ## Collectives that stage their results -/

namespace Group

variable {g : Group} {what : Collective Buffer} {s s' : Store} {p : Plan}

theorem PlansAllgather.stages {outs : List Buffer} {input : Buffer} {tag : Tag} {destination : Destination}
    (hplans : g.PlansAllgather outs input tag destination p s s') (hflat : g.mode = .flat)
    (hs : ∀ b ∈ outs, b.Sound s.heap) (hx : s.heap.Extends s'.heap) (hbounded : s'.heap.Bounded) :
    ∃ region copyOut, p.Stages outs region copyOut s s' := by
  obtain ⟨first, region, start, hfirst, hcopy, htype, hblock, hrows, hstart, rfl, -⟩ := hplans.flat hflat
  have hc := (hplans.alike first (List.mem_of_mem_head? hfirst)).1
  have houts : ∀ b ∈ outs, b.Solid s'.heap input.count ∧ b.dtype = region.dtype := by
    intro b hb
    obtain ⟨hn, htype', hc⟩ := hplans.alike b hb
    exact ⟨(Buffer.Solid.of_sound (hs b hb) hn hc).later hx, htype'.trans htype.symm⟩
  have hregion : ∀ b ∈ outs, ∀ block pos, b.Holds block pos → block ≠ region.block := by
    intro b hb block pos hh
    rw [hblock]
    exact ((hs b hb).lt_size hh).ne
  refine ⟨region, .rows region outs, hcopy, hblock.ge, fun call hcall => ?_, fun s₁ hx₁ happart i b hb => ?_,
    fun s₁ hx₁ block pos hout => ?_⟩
  · rw [hplans.called] at hcall
    cases ha : input.address s'.heap with
    | error cause =>
      rw [ha] at hcall
      cases hcall
    | ok a =>
      rw [ha] at hcall
      cases hcall
      exact ⟨start, hstart, rfl⟩
  · have hi := (List.getElem?_eq_some_iff.mp hb).1
    have hcounts : ∀ b ∈ outs, b.count = input.count := fun b hb => (houts b hb).1.count_eq
    rw [elementsBefore_eq_mul hcounts hi.le, hcounts b (List.mem_of_getElem? hb),
      ← hrows.words_row hbounded hc (hplans.length ▸ hi)]
    exact words_copyRows hrows hc houts hplans.length happart hregion hx₁ hbounded hb
  · exact copyRows_kept (fun b hb => (houts b hb).1.ranked) hout s₁

/-- Where results are staged, they are received into a region and copied out. -/
theorem exists_stages (hstages : g.Stages what) (hs : ∀ b ∈ what.operands, b.Sound s.heap) (hbounded : s.heap.Bounded)
    (h : (g.plan what).run s = (.ok p, s')) : ∃ region copyOut, p.Stages what.outputs region copyOut s s' := by
  have hx := (g.plan_extends what).of_run h
  have houtputs : ∀ b ∈ what.outputs, b.Sound s.heap := fun b hb => hs b (Collective.mem_operands hb)
  cases what with
  | allgather outputs inputs =>
    obtain ⟨outs, input, tag, destination, rfl, rfl, hplans⟩ := exists_of_planAllgather h
    have houts : (Collective.allgather [outs] [input]).outputs = outs := List.flatten_singleton
    rw [houts] at houtputs ⊢
    exact hplans.stages hstages houtputs hx (hx.bounded hbounded)
  | gather outputs inputs root =>
    obtain ⟨hroot, hscattered⟩ := hstages
    obtain ⟨outs, input, x, -, houtputs', hplans⟩ := exists_of_planGather
      (fun outs hmem b hb => hs b (List.mem_append_left _ (List.mem_flatten_of_mem hmem hb)))
      (fun b hmem => hs b (List.mem_append_right _ hmem)) hbounded h
    rw [if_pos hroot] at houtputs'
    have houts : (Collective.gather outputs inputs root).outputs = outs := by
      rw [Collective.outputs, houtputs', List.flatten_singleton]
    rw [houtputs', List.flatten_singleton] at hscattered
    rw [houts] at houtputs ⊢
    obtain ⟨-, -, hcounts, htakes, hplace⟩ := hplans.atRoot hroot
    obtain ⟨copyOut, hcopy⟩ := Option.ne_none_iff_exists'.mp fun hnone => hscattered (hplace.mp hnone)
    exact ⟨x.recv, copyOut, htakes.stages hplans.asks hcounts houtputs (hx.bounded hbounded) hscattered hcopy⟩
  | alltoall outputs inputs =>
    obtain ⟨x, hplans⟩ := exists_of_planAlltoall hs hbounded h
    obtain ⟨copyOut, hcopy⟩ := Option.ne_none_iff_exists'.mp fun hnone => hstages (hplans.inPlace.mp hnone)
    exact ⟨x.recv, copyOut,
      hplans.takes.stages hplans.asks hplans.recvCounts houtputs (hx.bounded hbounded) hstages hcopy⟩
  | broadcast | allreduce | reduce | scatter | alltoallBase => exact hstages.elim

end Group

end Collectives
