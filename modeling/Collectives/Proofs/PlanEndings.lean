import Collectives.Proofs.Scatters
import Collectives.Proofs.Settling

/-!
# How planning ends

Planning a collective on buffers that can be held ends with a plan, with an error that blames the call, or, where one
of a few sizes that the caller has chosen overflows, in a fault.
-/

namespace Collectives

/-- The lists of buffers that are taken as one region. -/
def Collective.lists : Collective Buffer → List (List Buffer)
  | .gather outputs _ _ => outputs
  | .scatter _ inputs _ => inputs
  | .alltoall outputs inputs => [outputs, inputs]
  | _ => []

/-- A size that is worked out for a collective overflows. -/
inductive Group.Overflows (g : Group) : Collective Buffer → Prop where
  /-- The elements of an operand cannot be counted. -/
  | count {what : Collective Buffer} {b : Buffer} : b ∈ what.operands → b.Uncountable → Overflows g what
  /-- An output has no elements, and its place overflows. -/
  | place {outs : List Buffer} {input b : Buffer} : g.mode = .vector → b ∈ outs → b.count = 0 →
    sizeLimit ≤ b.offset * b.dtype.width → Overflows g (.allgather [outs] [input])
  /-- The region for all rows is too large, or its rows are too far apart. -/
  | rows {outs : List Buffer} {input first : Buffer} : g.mode = .flat → outs.head? = some first →
    sizeLimit ≤ g.size * Buffer.rowStride first.shape ∨ blockLimit < g.size * first.count * first.dtype.width →
    Overflows g (.allgather [outs] [input])
  /-- A list is too large for one region. -/
  | list {what : Collective Buffer} {buffers : List Buffer} : buffers ∈ what.lists →
    FlatLayout.Overflowing buffers → Overflows g what
  /-- A table with an entry for every rank is too large. -/
  | table {what : Collective Buffer} : 2 ^ 60 ≤ g.size → Overflows g what
  /-- The splits add up to more than a size. -/
  | splits {output input : Buffer} {splits : Splits} :
    sizeLimit ≤ splits.output.sum ∨ sizeLimit ≤ splits.input.sum → Overflows g (.alltoallBase output input splits)

namespace Group

open Settles (check_bind_run size_bind_run bind_run mapM_run)

variable {g : Group} {s : Store} {P : Prop}

/-- Sizes of operands in memory that cannot be counted overflow. -/
theorem Overflows.of_not_counted {what : Collective Buffer} (hs : ∀ b ∈ what.operands, b.Sound s.heap)
    (hbounded : s.heap.Bounded) {b : Buffer} (hb : b ∈ what.operands) (hnot : ¬∃ n, b.numel = .ok n) :
    g.Overflows what := by
  apply Overflows.count hb
  by_contra hcount
  exact hnot ((hs b hb).exists_numel hbounded hcount)

theorem report_settles (g : Group) (text : String) : Settles P ((g.report text).run s).1 := trivial

/-! ## One buffer in place -/

theorem planBroadcast_settles {buffers : List Buffer} {root : Nat}
    (hcount : ∀ b ∈ buffers, (¬∃ n, b.numel = .ok n) → P) :
    Settles P ((g.planBroadcast buffers root).run s).1 := by
  refine check_bind_run (single_settles hcount) fun b hb => check_bind_run (checkRank_settles _ _) fun _ _ => ?_
  refine check_bind_run (tag_settles _) fun tag _ => size_bind_run (hcount b ?_) fun count _ => trivial
  rw [(single_eq_ok hb).1]
  exact List.mem_singleton_self b

theorem planAllreduce_settles {buffers : List Buffer} {how : Reduction}
    (hcount : ∀ b ∈ buffers, (¬∃ n, b.numel = .ok n) → P) : Settles P ((g.planAllreduce buffers how).run s).1 := by
  refine check_bind_run (single_settles hcount) fun b hb => check_bind_run (tag_settles _) fun tag _ => ?_
  refine check_bind_run (operator_settles _) fun op _ => size_bind_run (hcount b ?_) fun count _ => trivial
  rw [(single_eq_ok hb).1]
  exact List.mem_singleton_self b

theorem planReduce_settles {buffers : List Buffer} {how : Reduction} {root : Nat}
    (hcount : ∀ b ∈ buffers, (¬∃ n, b.numel = .ok n) → P) : Settles P ((g.planReduce buffers how root).run s).1 := by
  refine check_bind_run (single_settles hcount) fun b hb => check_bind_run (checkRank_settles _ _) fun _ _ => ?_
  refine check_bind_run (tag_settles _) fun tag _ => check_bind_run (operator_settles _) fun op _ => ?_
  refine size_bind_run (hcount b ?_) fun count _ => trivial
  rw [(single_eq_ok hb).1]
  exact List.mem_singleton_self b

/-! ## Gathering and scattering -/

/-- The address of a buffer whose place does not overflow is found. -/
theorem exists_address_of_placed {b : Buffer} (hplace : b.offset * b.dtype.width < sizeLimit) (h : Heap) :
    ∃ a, b.address h = .ok a := by
  unfold Buffer.address
  split
  · exact ⟨_, rfl⟩
  · rw [mulSize_eq_ok hplace]
    exact ⟨_, rfl⟩

/-- The address of an output is found, unless it has no elements and its place overflows. -/
theorem exists_address {b : Buffer} {h : Heap} {n : Nat} (hs : b.Sound h) (hbounded : h.Bounded) (hn : b.numel = .ok n)
    (hc : b.isContiguous = .ok true) (hplace : b.count = 0 → b.offset * b.dtype.width < sizeLimit) :
    ∃ a, b.address h = .ok a := by
  obtain rfl : n = b.count := eq_of_productSizes hn
  rcases Nat.eq_zero_or_pos b.count with hzero | hpos
  · exact exists_address_of_placed (hplace hzero) h
  · exact ⟨_, Buffer.address_eq_ok (.of_sound hs hn hc) hbounded hpos⟩

theorem planAllgather_settles {outputs : List (List Buffer)} {inputs : List Buffer}
    (hs : ∀ b ∈ (Collective.allgather outputs inputs).operands, b.Sound s.heap) (hbounded : s.heap.Bounded)
    (hsize : 0 < g.size) :
    Settles (g.Overflows (.allgather outputs inputs)) ((g.planAllgather outputs inputs).run s).1 := by
  have hcount := fun b hb => Overflows.of_not_counted (g := g) (b := b) hs hbounded hb
  refine check_bind_run (single_settles fun b hb => hcount b (List.mem_append_right _ hb)) fun input hsingle => ?_
  obtain ⟨rfl, -⟩ := single_eq_ok hsingle
  rcases outputs with _ | ⟨outs, _ | ⟨more, rest⟩⟩
  · rfl
  · have hinput : input ∈ (Collective.allgather [outs] [input]).operands :=
      List.mem_append_right _ (List.mem_singleton_self input)
    have houts : ∀ b ∈ outs, b ∈ (Collective.allgather [outs] [input]).operands := fun _ =>
      Collective.mem_operands_of_output
    refine check_bind_run (require_settles _ _) fun _ hlength => ?_
    refine check_bind_run (checkAlike_settles (hcount input hinput) fun b hb => hcount b (houts b hb)) ?_
    intro _ halike
    refine check_bind_run (tag_settles _) fun tag _ => size_bind_run (hcount input hinput) fun count hinputCount => ?_
    refine bind_run (g.report_settles _) fun _ s₁ hreport => ?_
    have hheap := report_run hreport
    have halike := checkAlike_eq_ok hinputCount halike
    have hlength : outs.length = g.size := eq_of_beq (of_require hlength)
    cases hmode : g.mode with
    | vector =>
      rw [run_get_bind]
      refine bind_run (mapM_run fun b hb hnot => ?_) fun starts s₂ _ => trivial
      obtain ⟨hn, -, hc⟩ := halike b hb
      have hsound := hs b (houts b hb)
      by_contra hno
      rw [hheap] at hnot
      apply hnot
      refine exists_address hsound hbounded hn hc fun hempty => ?_
      by_contra hplace
      exact hno (.place hmode hb hempty (Nat.le_of_not_lt hplace))
    | flat =>
      obtain ⟨first, others, houtputs⟩ := List.exists_cons_of_length_pos (hlength.symm ▸ hsize)
      have hfirst : outs.head? = some first := by rw [houtputs, List.head?_cons]
      have hregion : Settles (g.Overflows (.allgather [outs] [input])) ((Buffer.flatLike outs).run s₁).1 := by
        have hrows : (first :: others).length = g.size := by rw [← houtputs, hlength]
        rw [houtputs]
        refine zeros_settles (fun hfar => ?_) fun hlarge => ?_
        · rw [hrows, max_eq_left hsize] at hfar
          exact houtputs ▸ .rows hmode hfirst (.inl hfar)
        · rw [hrows] at hlarge
          exact houtputs ▸ .rows hmode hfirst (.inr hlarge)
      refine bind_run hregion fun region s₂ hrun => ?_
      obtain ⟨_, _, -, hfresh⟩ := Buffer.flatLike_run hrun
      rw [run_get_bind]
      refine size_bind_run (fun hnot => absurd (exists_address_of_placed ?_ _) hnot) fun start _ => trivial
      rw [hfresh.first, Nat.zero_mul]
      decide
  · rfl

/-- A list of buffers that were checked is packed, once there is a region for it. -/
theorem exists_pack_of_plain {buffers : List Buffer} {l : FlatLayout} {t : ElementType} {s₁ s₂ : Store}
    (hl : l.Stands buffers s s₁) (hx : s.heap.Extends s₂.heap) (hx₁ : s₁.heap.Extends s₂.heap)
    (hbounded : s₂.heap.Bounded) (hs : ∀ b ∈ buffers, b.Sound s.heap)
    (hplain : ∀ b ∈ buffers, b.dtype = t ∧ b.isContiguous = .ok true) :
    ∃ s₃, (l.pack buffers).run s₂ = (.ok (), s₃) := by
  obtain ⟨first, hfirst, htype⟩ := hl.typed
  apply hl.exists_pack hx₁ hbounded
  intro b hb
  refine ⟨(hs b hb).later hx, ?_⟩
  rw [(hplain b hb).1, htype, (hplain first hfirst).1]

theorem planGather_settles {outputs : List (List Buffer)} {inputs : List Buffer} {root : Nat}
    (hs : ∀ b ∈ (Collective.gather outputs inputs root).operands, b.Sound s.heap) (hbounded : s.heap.Bounded) :
    Settles (g.Overflows (.gather outputs inputs root)) ((g.planGather outputs inputs root).run s).1 := by
  have hcount := fun b hb => Overflows.of_not_counted (g := g) (b := b) hs hbounded hb
  refine check_bind_run (single_settles fun b hb => hcount b (List.mem_append_right _ hb)) fun input hsingle => ?_
  refine check_bind_run (checkRank_settles _ _) fun _ _ => ?_
  have hinput : input ∈ (Collective.gather outputs inputs root).operands := by
    apply List.mem_append_right
    rw [(single_eq_ok hsingle).1]
    exact List.mem_singleton_self input
  split
  · refine check_bind_run (rootList_settles _ _ _ _) fun outs hlist => ?_
    have hlisted : outs ∈ outputs := (rootList_eq_ok hlist).1 ▸ List.mem_singleton_self outs
    have houts : ∀ b ∈ outs, b ∈ (Collective.gather outputs inputs root).operands := fun b hb =>
      List.mem_append_left _ (List.mem_flatten_of_mem hlisted hb)
    refine check_bind_run (checkAlike_settles (hcount input hinput) fun b hb => hcount b (houts b hb)) fun _ _ => ?_
    refine size_bind_run (hcount input hinput) fun count _ => bind_run ?_ fun layout s₁ _ => ?_
    · exact (FlatLayout.reconcile_settles (fun b hb => hs b (houts b hb)) hbounded).mono (.list hlisted)
    · refine check_bind_run (require_settles _ _) fun _ _ => check_bind_run (tag_settles _) fun tag _ => ?_
      exact bind_run (g.report_settles _) fun _ s₂ _ => trivial
  · refine check_bind_run (require_settles _ _) fun _ _ => size_bind_run (fun hnot => .table ?_) fun _ _ => ?_
    · by_contra hsmall
      exact hnot (exists_checkTable (Nat.lt_of_not_le hsmall))
    · refine size_bind_run (hcount input hinput) fun count _ => bind_run (empty_settles _) fun nothing s₁ _ => ?_
      exact check_bind_run (tag_settles _) fun tag _ => bind_run (g.report_settles _) fun _ s₂ _ => trivial

theorem planScatter_settles {outputs : List Buffer} {inputs : List (List Buffer)} {root : Nat}
    (hs : ∀ b ∈ (Collective.scatter outputs inputs root).operands, b.Sound s.heap) (hbounded : s.heap.Bounded) :
    Settles (g.Overflows (.scatter outputs inputs root)) ((g.planScatter outputs inputs root).run s).1 := by
  have hcount := fun b hb => Overflows.of_not_counted (g := g) (b := b) hs hbounded hb
  refine check_bind_run (single_settles fun b hb => hcount b (List.mem_append_left _ hb)) fun output hsingle => ?_
  refine check_bind_run (checkRank_settles _ _) fun _ _ => ?_
  have houtput : output ∈ (Collective.scatter outputs inputs root).operands := by
    apply List.mem_append_left
    rw [(single_eq_ok hsingle).1]
    exact List.mem_singleton_self output
  split
  · refine check_bind_run (rootList_settles _ _ _ _) fun ins hlist => ?_
    have hlisted : ins ∈ inputs := (rootList_eq_ok hlist).1 ▸ List.mem_singleton_self ins
    have hins : ∀ b ∈ ins, b ∈ (Collective.scatter outputs inputs root).operands := fun b hb =>
      List.mem_append_right _ (List.mem_flatten_of_mem hlisted hb)
    have hsound : ∀ b ∈ ins, b.Sound s.heap := fun b hb => hs b (hins b hb)
    refine check_bind_run (checkAlike_settles (hcount output houtput) fun b hb => hcount b (hins b hb)) ?_
    intro _ halike
    refine size_bind_run (hcount output houtput) fun count hn => bind_run ?_ fun layout s₁ hlayout => ?_
    · exact (FlatLayout.reconcile_settles hsound hbounded).mono (.list hlisted)
    · have halike := checkAlike_eq_ok hn halike
      have hx := (FlatLayout.reconcile_extends ins).of_run hlayout
      obtain ⟨s₂, hpack⟩ :=
        exists_pack_of_plain (FlatLayout.reconcile_stands hlayout) hx (.refl _) (hx.bounded hbounded)
        hsound fun b hb => (halike b hb).2
      rw [run_bind_ok hpack]
      refine check_bind_run (require_settles _ _) fun _ _ => check_bind_run (tag_settles _) fun tag _ => ?_
      exact bind_run (g.report_settles _) fun _ s₃ _ => trivial
  · refine check_bind_run (require_settles _ _) fun _ _ => size_bind_run (fun hnot => .table ?_) fun _ _ => ?_
    · by_contra hsmall
      exact hnot (exists_checkTable (Nat.lt_of_not_le hsmall))
    · refine size_bind_run (hcount output houtput) fun count _ => bind_run (empty_settles _) fun nothing s₁ _ => ?_
      exact check_bind_run (tag_settles _) fun tag _ => bind_run (g.report_settles _) fun _ s₂ _ => trivial

/-! ## Exchanging -/

theorem planAlltoallBase_settles {output input : Buffer} {splits : Splits}
    (hs : ∀ b ∈ (Collective.alltoallBase output input splits).operands, b.Sound s.heap) (hbounded : s.heap.Bounded)
    (hsize : 0 < g.size) :
    Settles (g.Overflows (.alltoallBase output input splits)) ((g.planAlltoallBase output input splits).run s).1 := by
  have hcount := fun b hb => Overflows.of_not_counted (g := g) (b := b) hs hbounded hb
  have houtput := hcount output List.mem_cons_self
  have hinput := hcount input (List.mem_cons_of_mem _ (List.mem_singleton_self input))
  refine check_bind_run (checkBuffer_settles hinput) fun _ _ => ?_
  refine check_bind_run (checkBuffer_settles houtput) fun _ _ => ?_
  split
  · refine size_bind_run houtput fun held _ => size_bind_run hinput fun given _ => ?_
    refine check_bind_run (require_settles _ _) fun _ _ => check_bind_run leadingDim_settles fun rows _ => ?_
    refine size_bind_run (fun hnot => absurd ⟨_, if_neg hsize.ne'⟩ hnot) fun left _ => ?_
    refine check_bind_run (require_settles _ _) fun _ _ => check_bind_run (tag_settles _) fun tag _ => ?_
    exact bind_run (g.report_settles _) fun _ s₁ _ => trivial
  · refine check_bind_run (require_settles _ _) fun _ _ => ?_
    refine check_bind_run ?_ fun sendCounts _ => check_bind_run ?_ fun recvCounts _ => ?_
    · exact splitCounts_settles hinput hsize .table fun hsum => .splits (.inr hsum)
    · exact splitCounts_settles houtput hsize .table fun hsum => .splits (.inl hsum)
    · refine check_bind_run (tag_settles _) fun tag _ => bind_run (g.report_settles _) fun _ s₁ _ => trivial

theorem planAlltoall_settles {outputs inputs : List Buffer}
    (hs : ∀ b ∈ (Collective.alltoall outputs inputs).operands, b.Sound s.heap) (hbounded : s.heap.Bounded)
    (hsize : 0 < g.size) :
    Settles (g.Overflows (.alltoall outputs inputs)) ((g.planAlltoall outputs inputs).run s).1 := by
  have hcount := fun b hb => Overflows.of_not_counted (g := g) (b := b) hs hbounded hb
  have houtputs := fun b hb => hcount b (List.mem_append_left inputs hb)
  have hinputs := fun b hb => hcount b (List.mem_append_right outputs hb)
  have hinputSound : ∀ b ∈ inputs, b.Sound s.heap := fun b hb => hs b (List.mem_append_right _ hb)
  have houtputSound : ∀ b ∈ outputs, b.Sound s.heap := fun b hb => hs b (List.mem_append_left _ hb)
  have hfirst {buffers : List Buffer} (h : buffers.length = g.size) : ∃ b, firstBuffer buffers = .ok b := by
    obtain ⟨first, rest, rfl⟩ := List.exists_cons_of_length_pos (h.symm ▸ hsize)
    exact ⟨first, rfl⟩
  refine check_bind_run (require_settles _ _) fun _ hgiven => check_bind_run (require_settles _ _) fun _ htaken => ?_
  have hgiven : inputs.length = g.size := eq_of_beq (of_require hgiven)
  have htaken : outputs.length = g.size := eq_of_beq (of_require htaken)
  refine size_bind_run (absurd (hfirst htaken)) fun output _ => ?_
  refine check_bind_run (checkTypes_settles hinputs) fun _ hins => ?_
  refine size_bind_run (absurd (hfirst hgiven)) fun input _ => ?_
  refine check_bind_run (checkTypes_settles houtputs) fun _ _ => ?_
  refine bind_run ?_ fun send s₁ hsend => bind_run ?_ fun recv s₂ hrecv => ?_
  · refine (FlatLayout.reconcile_settles hinputSound hbounded).mono (.list ?_)
    exact List.mem_cons_of_mem _ (List.mem_singleton_self _)
  · have hx₁ := (FlatLayout.reconcile_extends inputs).of_run hsend
    exact (FlatLayout.reconcile_settles (fun b hb => (houtputSound b hb).later hx₁) (hx₁.bounded hbounded)).mono
      (.list List.mem_cons_self)
  · have hx₁ := (FlatLayout.reconcile_extends inputs).of_run hsend
    have hx₂ := (FlatLayout.reconcile_extends outputs).of_run hrecv
    have hx := hx₁.trans hx₂
    obtain ⟨s₃, hpack⟩ := exists_pack_of_plain (FlatLayout.reconcile_stands hsend) hx hx₂ (hx.bounded hbounded)
      hinputSound fun b hb => ⟨checkTypes_eq_ok hins b hb, checkBuffer_eq_ok (checkBuffer_of_checkTypes hins b hb)⟩
    rw [run_bind_ok hpack]
    exact check_bind_run (tag_settles _) fun tag _ => bind_run (g.report_settles _) fun _ s₄ _ => trivial

/-- A collective on buffers in memory is planned, or it is refused with an error that blames the call, unless one of its
sizes overflows. -/
theorem plan_settles (hsize : 0 < g.size) {what : Collective Buffer} (hs : ∀ b ∈ what.operands, b.Sound s.heap)
    (hbounded : s.heap.Bounded) : Settles (g.Overflows what) ((g.plan what).run s).1 := by
  have hcount := fun b hb => Overflows.of_not_counted (g := g) (b := b) hs hbounded hb
  cases what with
  | broadcast buffers root => exact planBroadcast_settles hcount
  | allreduce buffers how => exact planAllreduce_settles hcount
  | reduce buffers how root => exact planReduce_settles hcount
  | allgather outputs inputs => exact planAllgather_settles hs hbounded hsize
  | gather outputs inputs root => exact planGather_settles hs hbounded
  | scatter outputs inputs root => exact planScatter_settles hs hbounded
  | alltoallBase output input splits => exact planAlltoallBase_settles hs hbounded hsize
  | alltoall outputs inputs => exact planAlltoall_settles hs hbounded hsize

end Group

end Collectives
