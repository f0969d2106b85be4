import Collectives.Proofs.Planning

/-!
# What is handed to a substrate is retained

A call names memory: addresses with element counts. `Call.footprint` lists the stretches of bytes that it names,
each block of a count table on its own. Whatever collective is called, on buffers that can be obtained, every
stretch of bytes that is handed over lies in the block of a buffer that the handle retains, and the handle
retains its buffers for as long as it is pending.
-/

namespace Collectives

/-- Adjacent blocks from an address on, one for each count: where each starts and how many bytes it takes. -/
def Address.stretches (start : Address) (width : Nat) (counts : List Nat) : List (Address × Nat) :=
  (places counts).zipWith (fun place count => (start.advance (place * width), count * width)) counts

/-- The stretches of memory that a call in a group of `size` ranks names. -/
def Call.footprint (size : Nat) : Call → List (Address × Nat)
  | .bcast buffer count tag _ => [(buffer, count * tag.width)]
  | .allreduce send recv count tag _ | .reduce send recv count tag _ _ =>
    [(send, count * tag.width), (recv, count * tag.width)]
  | .allgatherv send count (.flat start) recvCounts tag =>
    (send, count * tag.width) :: start.stretches tag.width recvCounts
  | .allgatherv send count (.perRank starts) recvCounts tag =>
    (send, count * tag.width) :: starts.zipWith (fun start count => (start, count * tag.width)) recvCounts
  | .alltoall send recv count tag => [(send, count * size * tag.width), (recv, count * size * tag.width)]
  | .alltoallv send sendCounts recv recvCounts tag =>
    send.stretches tag.width sendCounts ++ recv.stretches tag.width recvCounts

/-- Every stretch that takes bytes lies in the block of one of the buffers. -/
def Retains (h : Heap) (buffers : List Buffer) (footprint : List (Address × Nat)) : Prop :=
  ∀ r ∈ footprint, 0 < r.2 → ∃ b ∈ buffers, b.Encloses h r.1 r.2

/-! ## Adjacent blocks -/

/-- A byte of adjacent blocks is in one of them. -/
theorem exists_block_of_lt {counts : List Nat} {width x : Nat} (h : x < counts.sum * width) :
    ∃ i count, counts[i]? = some count ∧ (counts.take i).sum * width ≤ x ∧
      x < (counts.take i).sum * width + count * width := by
  induction counts generalizing x with
  | nil => simp at h
  | cons count counts ih =>
    rw [List.sum_cons, Nat.add_mul] at h
    by_cases hx : x < count * width
    · exact ⟨0, count, rfl, by simp, by simpa using hx⟩
    · obtain ⟨i, c, hc, hlo, hhi⟩ := ih (x := x - count * width) (by omega)
      refine ⟨i + 1, c, hc, ?_, ?_⟩
      · rw [List.take_succ_cons, List.sum_cons, Nat.add_mul]
        omega
      · rw [List.take_succ_cons, List.sum_cons, Nat.add_mul]
        omega

theorem Address.mem_stretches {start : Address} {width i count : Nat} {counts : List Nat}
    (h : counts[i]? = some count) :
    (start.advance ((counts.take i).sum * width), count * width) ∈ start.stretches width counts :=
  List.mem_iff_getElem?.mpr ⟨i, List.getElem?_zipWith_eq_some.mpr ⟨_, _, getElem?_places h, h, rfl⟩⟩

/-- A buffer whose block holds `n` elements of the tag's width from the buffer's first one on. -/
structure Buffer.Lends (h : Heap) (b : Buffer) (tag : Tag) (n : Nat) : Prop where
  room : b.Room h n
  tagged : b.dtype.tag? = some tag

theorem Buffer.Lends.later {h h' : Heap} {b : Buffer} {tag : Tag} {n : Nat} (hb : b.Lends h tag n)
    (hx : h.Extends h') : b.Lends h' tag n := ⟨hb.room.later hx, hb.tagged⟩

namespace Retains

variable {h : Heap} {buffers : List Buffer} {b : Buffer} {n : Nat} {a : Address} {tag : Tag}
  {r : Address × Nat} {rest first second : List (Address × Nat)}

theorem nil : Retains h buffers [] := fun r hr => by cases hr

theorem append (hfirst : Retains h buffers first) (hsecond : Retains h buffers second) :
    Retains h buffers (first ++ second) := by
  intro r hr
  rcases List.mem_append.mp hr with hr | hr
  · exact hfirst r hr
  · exact hsecond r hr

/-- Elements from a retained buffer's first one on, and then the rest. -/
theorem cons (hb : b ∈ buffers) (hl : b.Lends h tag n) (ha : b.address h = .ok a) {count : Nat} (hc : count ≤ n)
    (hrest : Retains h buffers rest) : Retains h buffers ((a, count * tag.width) :: rest) := by
  intro r hr hpos
  rcases List.mem_cons.mp hr with rfl | hr
  · dsimp only at hpos ⊢
    rw [ElementType.width_of_tag? hl.tagged] at hpos ⊢
    exact ⟨b, hb, hl.room.encloses ha hc (Nat.pos_of_mul_pos_right hpos)⟩
  · exact hrest r hr hpos

/-- Adjacent blocks from a retained buffer's first element on. -/
theorem stretches {counts : List Nat} (hb : b ∈ buffers) (hl : b.Lends h tag n) (ha : b.address h = .ok a)
    (hc : counts.sum ≤ n) : Retains h buffers (a.stretches tag.width counts) := by
  intro r hr hpos
  obtain ⟨k, hk⟩ := List.mem_iff_getElem?.mp hr
  obtain ⟨place, count, hplace, hcount, rfl⟩ := List.getElem?_zipWith_eq_some.mp hk
  rw [getElem?_places hcount] at hplace
  cases hplace
  have hin := (sum_take_add_le hcount).trans hc
  dsimp only at hpos ⊢
  rw [ElementType.width_of_tag? hl.tagged] at hpos ⊢
  exact ⟨b, hb, hl.room.encloses_advance ha hin (Nat.pos_of_mul_pos_right hpos)⟩

/-- Blocks without elements take no bytes, wherever they are. -/
theorem nothing {width size : Nat} : Retains h buffers (a.stretches width (List.replicate size 0)) := by
  intro r hr hpos
  obtain ⟨k, hk⟩ := List.mem_iff_getElem?.mp hr
  obtain ⟨place, count, -, hcount, rfl⟩ := List.getElem?_zipWith_eq_some.mp hk
  obtain rfl := List.eq_of_mem_replicate (List.mem_of_getElem? hcount)
  rw [Nat.zero_mul] at hpos
  exact absurd hpos (lt_irrefl 0)

/-- One block at the start of each of the given buffers. -/
theorem perRank {outs : List Buffer} {starts : List Address} {size count : Nat} (hb : ∀ b ∈ outs, b ∈ buffers)
    (hl : ∀ b ∈ outs, b.Lends h tag count) (ha : (outs.mapM fun b => b.address h) = .ok starts) :
    Retains h buffers
      (starts.zipWith (fun start count => (start, count * tag.width)) (List.replicate size count)) := by
  intro r hr hpos
  obtain ⟨k, hk⟩ := List.mem_iff_getElem?.mp hr
  obtain ⟨start, c, hstart, hcount, rfl⟩ := List.getElem?_zipWith_eq_some.mp hk
  obtain rfl := List.eq_of_mem_replicate (List.mem_of_getElem? hcount)
  obtain ⟨b, hmem, hb'⟩ := exists_of_mem_mapM ha (List.mem_of_getElem? hstart)
  exact cons (hb b hmem) (hl b hmem) hb' le_rfl nil _ List.mem_cons_self hpos

end Retains

/-- Whatever call a plan comes to, the buffers that it retains cover what the call names. -/
def Plan.Covered (p : Plan) (size : Nat) (h : Heap) : Prop :=
  ∀ call, p.call = .ok call → Retains h p.retained (call.footprint size)

namespace Group

variable {g : Group} {s s' : Store} {p : Plan}

theorem report_run {text : String} {u : Unit} (h : (g.report text).run s = (.ok u, s')) : s'.heap = s.heap := by
  cases h
  rfl

/-- A contiguous buffer is handed over with all its elements. -/
private theorem lends {b : Buffer} {tag : Tag} {n : Nat} (hb : b.Sound s.heap) (hc : b.isContiguous = .ok true)
    (hn : b.numel = .ok n) (ht : b.dtype.tag = .ok tag) : b.Lends s.heap tag n :=
  ⟨.of_sound hb hn hc, tag_eq_ok ht⟩

/-! ## One buffer in place -/

/-- A broadcast names its buffer. -/
theorem planBroadcast_covered {buffers : List Buffer} {root : Nat} (hs : ∀ b ∈ buffers, b.Sound s.heap)
    (h : (g.planBroadcast buffers root).run s = (.ok p, s')) : p.Covered g.size s'.heap := by
  obtain ⟨b, hsingle, h⟩ := exists_of_check_bind h
  obtain ⟨_, -, h⟩ := exists_of_check_bind h
  obtain ⟨tag, htag, h⟩ := exists_of_check_bind h
  obtain ⟨count, hcount, h⟩ := exists_of_size_bind h
  obtain ⟨_, s₁, hreport, h⟩ := exists_of_run_bind h
  cases h
  obtain ⟨rfl, hc⟩ := single_eq_ok hsingle
  have hb := List.mem_singleton_self b
  have hl := lends (hs b hb) (checkBuffer_eq_ok hc) hcount htag
  rw [← report_run hreport] at hl
  intro call hcall
  obtain ⟨a, ha, hcall⟩ := exists_of_bind_eq_ok hcall
  cases hcall
  exact .cons hb hl ha le_rfl .nil

/-- A reduction names its buffer twice, as what is sent and as what is received. -/
theorem planReduction_covered {b : Buffer} {how : Reduction} (root : Option Nat) (hb : b.Sound s.heap)
    (h : (g.plan (.reduction b how root)).run s = (.ok p, s')) : p.Covered g.size s'.heap := by
  obtain ⟨count, tag, op, hreduces⟩ := exists_of_plan_reduction h
  obtain ⟨p', s₁, hrun, hheap, -, hretained, hcalled⟩ := hreduces.plan_run s
  rw [h] at hrun
  cases hrun
  have hl : b.Lends s'.heap tag count :=
    ⟨hheap ▸ .of_sound hb hreduces.counted (checkBuffer_eq_ok hreduces.checked), hreduces.tagged⟩
  have hmem := List.mem_singleton_self b
  intro call hcall
  rw [hcalled, ← hheap] at hcall
  rw [hretained]
  cases ha : b.address s'.heap with
  | error cause =>
    rw [ha] at hcall
    cases hcall
  | ok a =>
    rw [ha] at hcall
    cases hcall
    have hboth : Retains s'.heap [b] [(a, count * tag.width), (a, count * tag.width)] :=
      .cons hmem hl ha le_rfl (.cons hmem hl ha le_rfl .nil)
    cases root with
    | none => exact hboth
    | some r => exact hboth

/-! ## Gathering -/

/-- An all-gather names its input, and either every output or the one region for all rows. -/
theorem planAllgather_covered {outputs : List (List Buffer)} {inputs : List Buffer}
    (houts : ∀ outs ∈ outputs, ∀ b ∈ outs, b.Sound s.heap) (hins : ∀ b ∈ inputs, b.Sound s.heap)
    (h : (g.planAllgather outputs inputs).run s = (.ok p, s')) : p.Covered g.size s'.heap := by
  obtain ⟨input, hsingle, h⟩ := exists_of_check_bind h
  obtain ⟨hinputs, hc⟩ := single_eq_ok hsingle
  have hinput := hins input (hinputs ▸ List.mem_singleton_self input)
  rcases outputs with _ | ⟨outs, _ | ⟨more, rest⟩⟩
  · cases h
  · obtain ⟨_, hlength, h⟩ := exists_of_check_bind h
    obtain ⟨_, halike, h⟩ := exists_of_check_bind h
    obtain ⟨tag, htag, h⟩ := exists_of_check_bind h
    obtain ⟨count, hcount, h⟩ := exists_of_size_bind h
    obtain ⟨_, s₁, hreport, h⟩ := exists_of_run_bind h
    have hsize : outs.length = g.size := eq_of_beq (of_require hlength)
    have hl := lends hinput (checkBuffer_eq_ok hc) hcount htag
    rw [← report_run hreport] at hl
    split at h
    · rw [run_get_bind] at h
      obtain ⟨starts, s₂, hmapM, h⟩ := exists_of_run_bind h
      obtain ⟨hstarts, rfl⟩ := of_run_mapM hmapM
      cases h
      intro call hcall
      obtain ⟨send, hsend, hcall⟩ := exists_of_bind_eq_ok hcall
      cases hcall
      refine .cons (List.mem_append_right outs (List.mem_singleton_self input)) hl hsend le_rfl ?_
      refine .perRank (fun b hb => List.mem_append_left _ hb) (fun b hb => ?_) hstarts
      obtain ⟨hn, ht, hc⟩ := checkAlike_eq_ok hcount halike b hb
      rw [report_run hreport]
      exact lends (houts outs (List.mem_singleton_self outs) b hb) hc hn (ht ▸ htag)
    · obtain ⟨region, s₂, hregion, h⟩ := exists_of_run_bind h
      rw [run_get_bind] at h
      obtain ⟨start, hstart, h⟩ := exists_of_size_bind h
      cases h
      intro call hcall
      obtain ⟨send, hsend, hcall⟩ := exists_of_bind_eq_ok hcall
      cases hcall
      have hx := (Buffer.flatLike_extends outs).of_run hregion
      refine .cons (List.mem_cons_of_mem _ (List.mem_singleton_self input)) (hl.later hx) hsend le_rfl ?_
      obtain ⟨first, others, houts', hfresh⟩ := Buffer.flatLike_run hregion
      obtain ⟨hn, ht, -⟩ := checkAlike_eq_ok hcount halike first (houts' ▸ List.mem_cons_self)
      have hregion : region.Lends s'.heap tag (outs.length * count) := by
        refine ⟨?_, ?_⟩
        · rw [eq_of_productSizes hn]
          exact .of_fresh hfresh
        · rw [hfresh.typed, ht]
          exact tag_eq_ok htag
      refine .stretches List.mem_cons_self hregion hstart ?_
      rw [List.sum_replicate, smul_eq_mul, hsize]
  · cases h

/-- A table with one entry adds up to that entry, or to nothing where the entry has no place. -/
private theorem sum_onlyAt_le (size place count : Nat) : (onlyAt size place count).sum ≤ count := by
  rw [onlyAt, List.sum_set, List.take_replicate, List.drop_replicate, List.sum_replicate, List.sum_replicate]
  split
  · simp
  · simp

/-- The root sends its row to itself and receives all rows into the region. -/
theorem planGatherRoot_covered {outputs : List (List Buffer)} {input : Buffer} {root : Nat}
    (hinput : input.Sound s.heap) (hc : input.isContiguous = .ok true)
    (h : (g.planGatherRoot outputs input root).run s = (.ok p, s')) : p.Covered g.size s'.heap := by
  obtain ⟨outs, -, h⟩ := exists_of_check_bind h
  obtain ⟨_, halike, h⟩ := exists_of_check_bind h
  obtain ⟨count, hcount, h⟩ := exists_of_size_bind h
  obtain ⟨layout, s₁, hlayout, h⟩ := exists_of_run_bind h
  obtain ⟨_, -, h⟩ := exists_of_check_bind h
  obtain ⟨tag, htag, h⟩ := exists_of_check_bind h
  obtain ⟨_, s₂, hreport, h⟩ := exists_of_run_bind h
  cases h
  obtain ⟨hroom, out, hout, htype⟩ := Buffer.Room.of_reconcile hlayout
  obtain ⟨-, ht, -⟩ := checkAlike_eq_ok hcount halike out hout
  have hx := (FlatLayout.reconcile_extends outs).of_run hlayout
  have hregion : layout.region.Lends s₁.heap tag layout.lengths.sum := ⟨hroom, tag_eq_ok htag⟩
  -- The outputs are like the input, so the tag of the region is the input's.
  rw [htype, ht] at htag
  have hl := (lends hinput hc hcount htag).later hx
  rw [← report_run hreport] at hl hregion
  intro call hcall
  obtain ⟨send, hsend, hcall⟩ := exists_of_bind_eq_ok hcall
  obtain ⟨recv, hrecv, hcall⟩ := exists_of_bind_eq_ok hcall
  cases hcall
  have hin : input ∈ [layout.region, input] := List.mem_cons_of_mem _ (List.mem_singleton_self input)
  exact .append (.stretches hin hl hsend (sum_onlyAt_le ..)) (.stretches List.mem_cons_self hregion hrecv le_rfl)

/-- The others send their row and receive nothing. -/
theorem planGatherOther_covered {outputs : List (List Buffer)} {input : Buffer} {root : Nat}
    (hinput : input.Sound s.heap) (hc : input.isContiguous = .ok true)
    (h : (g.planGatherOther outputs input root).run s = (.ok p, s')) : p.Covered g.size s'.heap := by
  obtain ⟨_, -, h⟩ := exists_of_check_bind h
  obtain ⟨_, -, h⟩ := exists_of_size_bind h
  obtain ⟨count, hcount, h⟩ := exists_of_size_bind h
  obtain ⟨nothing, s₁, hnothing, h⟩ := exists_of_run_bind h
  obtain ⟨tag, htag, h⟩ := exists_of_check_bind h
  obtain ⟨_, s₂, hreport, h⟩ := exists_of_run_bind h
  cases h
  rw [(Buffer.zeros_run hnothing).typed] at htag
  have hl := (lends hinput hc hcount htag).later ((Buffer.zeros_extends _ _).of_run hnothing)
  rw [← report_run hreport] at hl
  intro call hcall
  obtain ⟨send, hsend, hcall⟩ := exists_of_bind_eq_ok hcall
  obtain ⟨recv, -, hcall⟩ := exists_of_bind_eq_ok hcall
  cases hcall
  exact .append (.stretches (List.mem_singleton_self input) hl hsend (sum_onlyAt_le ..)) .nothing

theorem planGather_covered {outputs : List (List Buffer)} {inputs : List Buffer} {root : Nat}
    (hs : ∀ b ∈ inputs, b.Sound s.heap) (h : (g.planGather outputs inputs root).run s = (.ok p, s')) :
    p.Covered g.size s'.heap := by
  obtain ⟨input, hsingle, h⟩ := exists_of_check_bind h
  obtain ⟨_, -, h⟩ := exists_of_check_bind h
  obtain ⟨hinputs, hc⟩ := single_eq_ok hsingle
  have hinput := hs input (hinputs ▸ List.mem_singleton_self input)
  split at h
  · exact planGatherRoot_covered hinput (checkBuffer_eq_ok hc) h
  · exact planGatherOther_covered hinput (checkBuffer_eq_ok hc) h

/-! ## Scattering -/

/-- The root sends all rows from the region and receives its own. -/
theorem planScatterRoot_covered {inputs : List (List Buffer)} {output : Buffer} {root : Nat}
    (houtput : output.Sound s.heap) (hc : output.isContiguous = .ok true)
    (h : (g.planScatterRoot output inputs root).run s = (.ok p, s')) : p.Covered g.size s'.heap := by
  obtain ⟨ins, -, h⟩ := exists_of_check_bind h
  obtain ⟨_, halike, h⟩ := exists_of_check_bind h
  obtain ⟨count, hcount, h⟩ := exists_of_size_bind h
  obtain ⟨layout, s₁, hlayout, h⟩ := exists_of_run_bind h
  obtain ⟨_, s₂, hpack, h⟩ := exists_of_run_bind h
  obtain ⟨_, -, h⟩ := exists_of_check_bind h
  obtain ⟨tag, htag, h⟩ := exists_of_check_bind h
  obtain ⟨_, s₃, hreport, h⟩ := exists_of_run_bind h
  cases h
  obtain ⟨hroom, input, hinput, htype⟩ := Buffer.Room.of_reconcile hlayout
  obtain ⟨-, ht, -⟩ := checkAlike_eq_ok hcount halike input hinput
  have hx := (FlatLayout.reconcile_extends ins).of_run hlayout
  have hx' := (FlatLayout.pack_extends layout ins).of_run hpack
  have hregion : layout.region.Lends s₁.heap tag layout.lengths.sum := ⟨hroom, tag_eq_ok htag⟩
  have hregion := hregion.later hx'
  rw [htype, ht] at htag
  have hl := (lends houtput hc hcount htag).later (hx.trans hx')
  rw [← report_run hreport] at hl hregion
  intro call hcall
  obtain ⟨send, hsend, hcall⟩ := exists_of_bind_eq_ok hcall
  obtain ⟨recv, hrecv, hcall⟩ := exists_of_bind_eq_ok hcall
  cases hcall
  have hin : layout.region ∈ [output, layout.region] := List.mem_cons_of_mem _ (List.mem_singleton_self _)
  exact .append (.stretches hin hregion hsend le_rfl) (.stretches List.mem_cons_self hl hrecv (sum_onlyAt_le ..))

/-- The others receive their row and send nothing. -/
theorem planScatterOther_covered {inputs : List (List Buffer)} {output : Buffer} {root : Nat}
    (houtput : output.Sound s.heap) (hc : output.isContiguous = .ok true)
    (h : (g.planScatterOther output inputs root).run s = (.ok p, s')) : p.Covered g.size s'.heap := by
  obtain ⟨_, -, h⟩ := exists_of_check_bind h
  obtain ⟨_, -, h⟩ := exists_of_size_bind h
  obtain ⟨count, hcount, h⟩ := exists_of_size_bind h
  obtain ⟨nothing, s₁, hnothing, h⟩ := exists_of_run_bind h
  obtain ⟨tag, htag, h⟩ := exists_of_check_bind h
  obtain ⟨_, s₂, hreport, h⟩ := exists_of_run_bind h
  cases h
  rw [(Buffer.zeros_run hnothing).typed] at htag
  have hl := (lends houtput hc hcount htag).later ((Buffer.zeros_extends _ _).of_run hnothing)
  rw [← report_run hreport] at hl
  intro call hcall
  obtain ⟨send, -, hcall⟩ := exists_of_bind_eq_ok hcall
  obtain ⟨recv, hrecv, hcall⟩ := exists_of_bind_eq_ok hcall
  cases hcall
  exact .append .nothing (.stretches (List.mem_singleton_self output) hl hrecv (sum_onlyAt_le ..))

theorem planScatter_covered {outputs : List Buffer} {inputs : List (List Buffer)} {root : Nat}
    (hs : ∀ b ∈ outputs, b.Sound s.heap) (h : (g.planScatter outputs inputs root).run s = (.ok p, s')) :
    p.Covered g.size s'.heap := by
  obtain ⟨output, hsingle, h⟩ := exists_of_check_bind h
  obtain ⟨_, -, h⟩ := exists_of_check_bind h
  obtain ⟨houtputs, hc⟩ := single_eq_ok hsingle
  have houtput := hs output (houtputs ▸ List.mem_singleton_self output)
  split at h
  · exact planScatterRoot_covered houtput (checkBuffer_eq_ok hc) h
  · exact planScatterOther_covered houtput (checkBuffer_eq_ok hc) h

/-! ## Exchanging -/

/-- An even exchange names as many whole shares as there are ranks, at most all elements of either buffer. -/
theorem planEven_covered {output input : Buffer} (houtput : output.Sound s.heap) (hinput : input.Sound s.heap)
    (hco : output.isContiguous = .ok true) (hci : input.isContiguous = .ok true)
    (h : (g.planEven output input).run s = (.ok p, s')) : p.Covered g.size s'.heap := by
  obtain ⟨held, hheld, h⟩ := exists_of_size_bind h
  obtain ⟨given, hgiven, h⟩ := exists_of_size_bind h
  obtain ⟨_, hsame, h⟩ := exists_of_check_bind h
  obtain ⟨rows, -, h⟩ := exists_of_check_bind h
  obtain ⟨left, -, h⟩ := exists_of_size_bind h
  obtain ⟨_, -, h⟩ := exists_of_check_bind h
  obtain ⟨tag, htag, h⟩ := exists_of_check_bind h
  obtain ⟨_, s₁, hreport, h⟩ := exists_of_run_bind h
  cases h
  obtain ⟨hcount, htype⟩ := Bool.and_eq_true_iff.mp (of_require hsame)
  have hout := lends houtput hco hheld htag
  rw [eq_of_beq htype] at htag
  have hin := lends hinput hci (hgiven.trans (congrArg _ (eq_of_beq hcount).symm)) htag
  rw [← report_run hreport] at hout hin
  have hshare : held / g.size * g.size ≤ held := Nat.div_mul_le_self ..
  intro call hcall
  obtain ⟨send, hsend, hcall⟩ := exists_of_bind_eq_ok hcall
  obtain ⟨recv, hrecv, hcall⟩ := exists_of_bind_eq_ok hcall
  cases hcall
  have hmem : output ∈ [input, output] := List.mem_cons_of_mem _ (List.mem_singleton_self output)
  exact .cons List.mem_cons_self hin hsend hshare (.cons hmem hout hrecv hshare .nil)

/-- An exchange by split sizes names the rows that the sizes add up to. -/
theorem planSplit_covered {output input : Buffer} {splits : Splits} (houtput : output.Sound s.heap)
    (hinput : input.Sound s.heap) (hco : output.isContiguous = .ok true) (hci : input.isContiguous = .ok true)
    (h : (g.planSplit output input splits).run s = (.ok p, s')) : p.Covered g.size s'.heap := by
  obtain ⟨_, hsame, h⟩ := exists_of_check_bind h
  obtain ⟨sendCounts, hsendCounts, h⟩ := exists_of_check_bind h
  obtain ⟨recvCounts, hrecvCounts, h⟩ := exists_of_check_bind h
  obtain ⟨tag, htag, h⟩ := exists_of_check_bind h
  obtain ⟨_, s₁, hreport, h⟩ := exists_of_run_bind h
  cases h
  obtain ⟨given, hgiven, hsend⟩ := splitCounts_eq_ok hsendCounts
  obtain ⟨held, hheld, hrecv⟩ := splitCounts_eq_ok hrecvCounts
  have hout := lends houtput hco hheld htag
  rw [eq_of_beq (of_require hsame)] at htag
  have hin := lends hinput hci hgiven htag
  rw [← report_run hreport] at hout hin
  intro call hcall
  obtain ⟨start, hstart, hcall⟩ := exists_of_bind_eq_ok hcall
  obtain ⟨target, htarget, hcall⟩ := exists_of_bind_eq_ok hcall
  cases hcall
  have hmem : output ∈ [input, output] := List.mem_cons_of_mem _ (List.mem_singleton_self output)
  exact .append (.stretches List.mem_cons_self hin hstart hsend) (.stretches hmem hout htarget hrecv)

theorem planAlltoallBase_covered {output input : Buffer} {splits : Splits} (houtput : output.Sound s.heap)
    (hinput : input.Sound s.heap) (h : (g.planAlltoallBase output input splits).run s = (.ok p, s')) :
    p.Covered g.size s'.heap := by
  obtain ⟨_, hci, h⟩ := exists_of_check_bind h
  obtain ⟨_, hco, h⟩ := exists_of_check_bind h
  split at h
  · exact planEven_covered houtput hinput (checkBuffer_eq_ok hco) (checkBuffer_eq_ok hci) h
  · exact planSplit_covered houtput hinput (checkBuffer_eq_ok hco) (checkBuffer_eq_ok hci) h

/-- An exchange of lists names the regions of both lists. -/
theorem planAlltoall_covered {outputs inputs : List Buffer}
    (h : (g.planAlltoall outputs inputs).run s = (.ok p, s')) : p.Covered g.size s'.heap := by
  obtain ⟨_, -, h⟩ := exists_of_check_bind h
  obtain ⟨_, -, h⟩ := exists_of_check_bind h
  obtain ⟨firstOutput, -, h⟩ := exists_of_size_bind h
  obtain ⟨_, hins, h⟩ := exists_of_check_bind h
  obtain ⟨firstInput, hfirst, h⟩ := exists_of_size_bind h
  obtain ⟨_, houts, h⟩ := exists_of_check_bind h
  obtain ⟨send, s₁, hsendLayout, h⟩ := exists_of_run_bind h
  obtain ⟨recv, s₂, hrecvLayout, h⟩ := exists_of_run_bind h
  obtain ⟨_, s₃, hpack, h⟩ := exists_of_run_bind h
  obtain ⟨tag, htag, h⟩ := exists_of_check_bind h
  obtain ⟨_, s₄, hreport, h⟩ := exists_of_run_bind h
  cases h
  obtain ⟨hsendRoom, input, hinput, hsendType⟩ := Buffer.Room.of_reconcile hsendLayout
  obtain ⟨hrecvRoom, output, houtput, hrecvType⟩ := Buffer.Room.of_reconcile hrecvLayout
  have hx := (FlatLayout.reconcile_extends outputs).of_run hrecvLayout
  have hx' := (FlatLayout.pack_extends send inputs).of_run hpack
  -- One tag is looked up for both regions: the buffers of both lists have one type.
  have htypes : send.region.dtype = recv.region.dtype := by
    calc
      send.region.dtype = firstOutput.dtype := hsendType.trans (checkTypes_eq_ok hins input hinput)
      _ = firstInput.dtype := (checkTypes_eq_ok hins firstInput (firstBuffer_eq_ok hfirst)).symm
      _ = recv.region.dtype := (hrecvType.trans (checkTypes_eq_ok houts output houtput)).symm
  have hrecv : recv.region.Lends s₂.heap tag recv.lengths.sum := ⟨hrecvRoom, tag_eq_ok htag⟩
  have hsend : send.region.Lends s₁.heap tag send.lengths.sum := ⟨hsendRoom, htypes ▸ tag_eq_ok htag⟩
  have hrecv := hrecv.later hx'
  have hsend := hsend.later (hx.trans hx')
  rw [← report_run hreport] at hrecv hsend
  intro call hcall
  obtain ⟨start, hstart, hcall⟩ := exists_of_bind_eq_ok hcall
  obtain ⟨target, htarget, hcall⟩ := exists_of_bind_eq_ok hcall
  cases hcall
  have hmem : send.region ∈ [recv.region, send.region] := List.mem_cons_of_mem _ (List.mem_singleton_self _)
  exact .append (.stretches hmem hsend hstart le_rfl) (.stretches List.mem_cons_self hrecv htarget le_rfl)

end Group

end Collectives
