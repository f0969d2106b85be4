import Collectives.Proofs.Operands

/-!
# What planning leaves

Planning a collective makes new blocks and fills them, and it writes journal lines; memory afterwards extends the
memory before. A reduction is planned without touching memory at all, and its plan is to combine the elements of the
one buffer in place.
-/

namespace Collectives

/-- A relation that memory keeps while buffers are packed into the region that they were reconciled to. -/
def Heap.KeptByPack (R : Heap → Heap → Prop) : Prop :=
  ∀ {buffers : List Buffer} {l : FlatLayout} {s s₁ s₂ : Store}, (FlatLayout.reconcile buffers).run s = (.ok l, s₁) →
    R s.heap s₂.heap → R s.heap ((l.pack buffers).run s₂).2.heap

namespace Group

open Edit.Keeps (bind_run)

variable {R : Heap → Heap → Prop} [IsPreorder Heap R]

/-! ## What every plan keeps -/

theorem report_keeps (g : Group) (text : String) : (g.report text).Keeps R := note_keeps _ _ _

section Keeps

variable {g : Group} (hpush : Heap.KeptByPush R)

include hpush

/-- An all-gather makes a region for the rows, unless each goes to a buffer of its own. -/
theorem planAllgather_keeps (outputs : List (List Buffer)) (inputs : List Buffer) :
    (g.planAllgather outputs inputs).Keeps R := by
  refine .bind (.check _) fun input => ?_
  rcases outputs with _ | ⟨outs, _ | ⟨more, others⟩⟩
  · exact .check _
  · refine .bind (.check _) fun _ => .bind (.check _) fun _ => .bind (.check _) fun tag => ?_
    refine .bind (.size _) fun count => .bind (g.report_keeps _) fun _ => ?_
    split
    · exact .bind .get fun s => .bind (.mapM fun b => .size _) fun starts => .pure _
    · exact .bind (Buffer.flatLike_keeps hpush _) fun region => .bind .get fun s => .bind (.size _) fun start => .pure _
  · exact .check _

theorem planGather_keeps (outputs : List (List Buffer)) (inputs : List Buffer) (root : Nat) :
    (g.planGather outputs inputs root).Keeps R := by
  refine .bind (.check _) fun input => .bind (.check _) fun _ => ?_
  split
  · refine .bind (.check _) fun outs => .bind (.check _) fun _ => .bind (.size _) fun count => ?_
    refine .bind (FlatLayout.reconcile_keeps hpush outs) fun layout => .bind (.check _) fun _ => ?_
    exact .bind (.check _) fun tag => .bind (g.report_keeps _) fun _ => .bind .get fun s => .pure _
  · refine .bind (.check _) fun _ => .bind (.size _) fun _ => .bind (.size _) fun count => ?_
    refine .bind (Buffer.zeros_keeps hpush _ _) fun nothing => .bind (.check _) fun tag => ?_
    exact .bind (g.report_keeps _) fun _ => .bind .get fun s => .pure _

/-- The root packs its inputs into a region, the others make an empty one. -/
theorem planScatter_keeps (hpack : Heap.KeptByPack R) (outputs : List Buffer) (inputs : List (List Buffer))
    (root : Nat) : (g.planScatter outputs inputs root).Keeps R := by
  refine .bind (.check _) fun output => .bind (.check _) fun _ => ?_
  split
  · refine .bind (.check _) fun ins => .bind (.check _) fun _ => .bind (.size _) fun count => fun s => ?_
    refine bind_run (FlatLayout.reconcile_keeps hpush ins s) fun layout s₁ hlayout h₁ => ?_
    refine bind_run (hpack hlayout h₁) fun _ s₂ _ h₂ => Edit.Keeps.after h₂ ?_
    refine .bind (.check _) fun _ => .bind (.check _) fun tag => .bind (g.report_keeps _) fun _ => ?_
    exact .bind .get fun s => .pure _
  · refine .bind (.check _) fun _ => .bind (.size _) fun _ => .bind (.size _) fun count => ?_
    refine .bind (Buffer.zeros_keeps hpush _ _) fun nothing => .bind (.check _) fun tag => ?_
    exact .bind (g.report_keeps _) fun _ => .bind .get fun s => .pure _

omit hpush in
theorem planAlltoallBase_keeps (output input : Buffer) (splits : Splits) :
    (g.planAlltoallBase output input splits).Keeps R := by
  refine .bind (.check _) fun _ => .bind (.check _) fun _ => ?_
  split
  · refine .bind (.size _) fun held => .bind (.size _) fun given => .bind (.check _) fun _ => ?_
    refine .bind (.check _) fun rows => .bind (.size _) fun left => .bind (.check _) fun _ => ?_
    exact .bind (.check _) fun tag => .bind (g.report_keeps _) fun _ => .bind .get fun s => .pure _
  · refine .bind (.check _) fun _ => .bind (.check _) fun send => .bind (.check _) fun recv => ?_
    exact .bind (.check _) fun tag => .bind (g.report_keeps _) fun _ => .bind .get fun s => .pure _

theorem planAlltoall_keeps (hpack : Heap.KeptByPack R) (outputs inputs : List Buffer) :
    (g.planAlltoall outputs inputs).Keeps R := by
  refine .bind (.check _) fun _ => .bind (.check _) fun _ => .bind (.size _) fun firstOutput => ?_
  refine .bind (.check _) fun _ => .bind (.size _) fun firstInput => .bind (.check _) fun _ => fun s => ?_
  refine bind_run (FlatLayout.reconcile_keeps hpush inputs s) fun send s₁ hsend h₁ => ?_
  -- The region of the outputs is made before the inputs are packed.
  refine bind_run (Edit.Keeps.after h₁ (FlatLayout.reconcile_keeps hpush outputs)) fun recv s₂ _ h₂ => ?_
  refine bind_run (hpack hsend h₂) fun _ s₃ _ h₃ => Edit.Keeps.after h₃ ?_
  exact .bind (.check _) fun tag => .bind (g.report_keeps _) fun _ => .bind .get fun s => .pure _

/-- Whatever is planned, and whether or not it is refused: memory keeps what new blocks keep, and packing into them. -/
theorem plan_keeps (hpack : Heap.KeptByPack R) (g : Group) (what : Collective Buffer) : (g.plan what).Keeps R := by
  cases what with
  | broadcast buffers root =>
    refine .bind (.check _) fun b => .bind (.check _) fun _ => .bind (.check _) fun tag => ?_
    exact .bind (.size _) fun count => .bind (g.report_keeps _) fun _ => .bind .get fun s => .pure _
  | allreduce buffers reduction =>
    refine .bind (.check _) fun b => .bind (.check _) fun tag => .bind (.check _) fun op => ?_
    exact .bind (.size _) fun count => .bind (g.report_keeps _) fun _ => .bind .get fun s => .pure _
  | reduce buffers reduction root =>
    refine .bind (.check _) fun b => .bind (.check _) fun _ => .bind (.check _) fun tag => .bind (.check _) fun op => ?_
    exact .bind (.size _) fun count => .bind (g.report_keeps _) fun _ => .bind .get fun s => .pure _
  | allgather outputs inputs => exact planAllgather_keeps hpush outputs inputs
  | gather outputs inputs root => exact planGather_keeps hpush outputs inputs root
  | scatter outputs inputs root => exact planScatter_keeps hpush hpack outputs inputs root
  | alltoallBase output input splits => exact planAlltoallBase_keeps output input splits
  | alltoall outputs inputs => exact planAlltoall_keeps hpush hpack outputs inputs

end Keeps

/-- Whatever is planned, and whether or not it is refused, memory is extended at most. -/
theorem plan_extends (g : Group) (what : Collective Buffer) : (g.plan what).Extends := by
  apply plan_keeps Heap.keptByPush_extends
  intro buffers l s s₁ s₂ _ hx
  exact hx.trans (l.pack_extends buffers s₂)

end Group

/-! ## Reductions -/

/-- A reduction of one buffer: to the root, or to all ranks. -/
def Collective.reduction (b : Buffer) (how : Reduction) : Option Nat → Collective Buffer
  | none => .allreduce [b] how
  | some root => .reduce [b] how root

/-- A reduction in place. -/
def Call.reduction (a : Address) (count : Nat) (tag : Tag) (op : Operator) : Option Nat → Call
  | none => .allreduce a a count tag op
  | some root => .reduce a a count tag op root

/-- A reduction that passes the checks, and what is settled by them. -/
structure Group.Reduces (g : Group) (b : Buffer) (how : Reduction) (root : Option Nat) (count : Nat) (tag : Tag)
    (op : Operator) : Prop where
  checked : checkBuffer b = .ok ()
  tagged : b.dtype.tag? = some tag
  operated : how.operator? = some op
  counted : b.numel = .ok count
  rooted : ∀ r, root = some r → r < g.size

namespace Group

variable {g : Group} {b : Buffer} {how : Reduction} {root : Option Nat} {count : Nat} {tag : Tag} {op : Operator}
  {s s' : Store} {p : Plan}

/-- A reduction that passes the checks is planned, and memory stays as it is. -/
theorem Reduces.plan_run (h : g.Reduces b how root count tag op) (s : Store) :
    ∃ p s', (g.plan (.reduction b how root)).run s = (.ok p, s') ∧ s'.heap = s.heap ∧ p.copyOut = none ∧
      p.retained = [b] ∧ p.call = (b.address s.heap).map fun a => .reduction a count tag op root := by
  have hsingle : single [b] = .ok b := by
    change (checkBuffer b >>= fun _ => pure b) = _
    rw [h.checked]
    rfl
  have htag : b.dtype.tag = .ok tag := by
    unfold ElementType.tag
    rw [h.tagged]
  have hop : how.operator = .ok op := by
    unfold Reduction.operator
    rw [h.operated]
  -- The checks are passed one after the other; what is left writes to the journal only.
  cases root with
  | none =>
    have hrun := ((run_check_bind hsingle _ s).trans ((run_check_bind htag _ s).trans
      ((run_check_bind hop _ s).trans (run_size_bind h.counted _ s))) : (g.planAllreduce [b] how).run s = _)
    refine ⟨_, _, hrun.trans rfl, rfl, rfl, rfl, ?_⟩
    change (b.address s.heap >>= fun send => b.address s.heap >>= fun recv =>
      pure (Call.allreduce send recv count tag op)) = _
    cases b.address s.heap <;> rfl
  | some r =>
    have hroot : checkRank r g.size = .ok () := by
      unfold checkRank
      rw [if_pos (h.rooted r rfl)]
    have hrun := ((run_check_bind hsingle _ s).trans ((run_check_bind hroot _ s).trans ((run_check_bind htag _ s).trans
      ((run_check_bind hop _ s).trans (run_size_bind h.counted _ s)))) : (g.planReduce [b] how r).run s = _)
    refine ⟨_, _, hrun.trans rfl, rfl, rfl, rfl, ?_⟩
    change (b.address s.heap >>= fun send => b.address s.heap >>= fun recv =>
      pure (Call.reduce send recv count tag op r)) = _
    cases b.address s.heap <;> rfl

/-- A reduction that was planned has passed the checks. -/
theorem exists_of_plan_reduction (h : (g.plan (.reduction b how root)).run s = (.ok p, s')) :
    ∃ count tag op, g.Reduces b how root count tag op := by
  cases root with
  | none =>
    obtain ⟨c, hc, h⟩ := exists_of_check_bind h
    obtain ⟨tag, htag, h⟩ := exists_of_check_bind h
    obtain ⟨op, hop, h⟩ := exists_of_check_bind h
    obtain ⟨count, hcount, h⟩ := exists_of_size_bind h
    obtain ⟨hb, hcheck⟩ := single_eq_ok hc
    cases hb
    refine ⟨count, tag, op, hcheck, tag_eq_ok htag, operator_eq_ok hop, hcount, fun r hr => ?_⟩
    cases hr
  | some root =>
    obtain ⟨c, hc, h⟩ := exists_of_check_bind h
    obtain ⟨_, hroot, h⟩ := exists_of_check_bind h
    obtain ⟨tag, htag, h⟩ := exists_of_check_bind h
    obtain ⟨op, hop, h⟩ := exists_of_check_bind h
    obtain ⟨count, hcount, h⟩ := exists_of_size_bind h
    obtain ⟨hb, hcheck⟩ := single_eq_ok hc
    cases hb
    refine ⟨count, tag, op, hcheck, tag_eq_ok htag, operator_eq_ok hop, hcount, fun r hr => ?_⟩
    cases hr
    exact checkRank_eq_ok hroot

end Group

end Collectives
