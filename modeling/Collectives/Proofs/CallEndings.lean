import Collectives.Proofs.HandleLife
import Collectives.Proofs.PlanEndings

/-!
# How calls end

A collective is planned first and reaches the substrate afterwards, with one call. An error that blames the arguments
comes from planning, so the substrate was not asked for anything; once it was asked, no such error comes any more, for
everything that is copied out fits. The only faults of planning and of copying out are sizes that overflow.
-/

namespace Collectives

variable {τ : Type}

/-! ## Sizes that a substrate is asked with -/

/-- Sizes are worked out, or one of them is multiplied too far. -/
def Multiplies {α : Type} (x : Except Fault α) : Prop := (∃ a, x = .ok a) ∨ x = .error .mulOverflow

namespace Multiplies

variable {α β : Type}

theorem pure (a : α) : Multiplies (pure a : Except Fault α) := .inl ⟨a, rfl⟩

theorem bind {x : Except Fault α} {f : α → Except Fault β} (hx : Multiplies x) (hf : ∀ a, Multiplies (f a)) :
    Multiplies (x >>= f) := by
  rcases hx with ⟨a, rfl⟩ | rfl
  · exact hf a
  · exact .inr rfl

theorem address (b : Buffer) (h : Heap) : Multiplies (b.address h) := by
  unfold Buffer.address
  split
  · exact .pure _
  · refine .bind ?_ fun _ => .pure _
    unfold mulSize
    split
    · exact .pure _
    · exact .inr rfl

end Multiplies

/-- Whatever the edit answers has a property. -/
def Edit.Yields {α : Type} (Q : α → Prop) (x : Edit α) : Prop := ∀ s s' a, x.run s = (.ok a, s') → Q a

namespace Edit.Yields

variable {α β : Type} {Q : β → Prop}

theorem pure {b : β} (h : Q b) : Edit.Yields Q (pure b) := by
  intro s s' a hrun
  cases hrun
  exact h

theorem error (failure : Failure) : Edit.Yields Q (liftM (.error failure : Except Failure β) : Edit β) := by
  intro s s' a hrun
  cases hrun

/-- An edit answers what its last step answers. -/
theorem bind {x : Edit α} {f : α → Edit β} (hf : ∀ a, Edit.Yields Q (f a)) : Edit.Yields Q (x >>= f) := by
  intro s s' b hrun
  obtain ⟨a, s₁, -, hrest⟩ := exists_of_run_bind hrun
  exact hf a s₁ s' b hrest

end Edit.Yields

/-- Copying out ends well, or, under a condition, a size is multiplied too far. -/
def CopiesOut (P : Prop) (answer : Except Failure Unit) : Prop :=
  answer = .ok () ∨ answer = .error (.fault .mulOverflow) ∧ P

/-- Blocks that are taken are copied out. -/
theorem Plan.Takes.copiesOut {P : Prop} {p : Plan} {x : Exchange} {s s' : Store} {blocks : List (Buffer × Buffer)}
    {copyOut : CopyOut} (ht : p.Takes x s s' blocks) (hbounded : s'.heap.Bounded) (hcopy : p.copyOut = some copyOut)
    {s₁ : Store} (hx : s'.heap.Extends s₁.heap) :
    CopiesOut P (copyOut.run.run s₁).1 := by
  obtain ⟨hrun, hcopyable, -⟩ := ht.staged copyOut hcopy
  obtain ⟨s₂, hcopied, -⟩ := FlatLayout.copyAll_ok (hcopyable.later hx).matches (hx.bounded hbounded)
  left
  rw [hrun, hcopied]

/-- Nothing that keeps a call out of the substrate, or that the substrate does, blames the call. -/
theorem Denial.exists_failure (denial : Denial) (site : String) :
    ∃ cause, denial.failure site = .error cause ∧ cause.blamesCall = false := by
  match denial with
  | .finalized => exact ⟨_, rfl, rfl⟩
  | .refused (.error cause) => exact ⟨_, rfl, rfl⟩
  | .refused (.fault cause) => exact ⟨_, rfl, rfl⟩

/-- Whether the results of a collective may have to be staged. -/
def Collective.canStage {β : Type} : Collective β → Bool
  | .allgather .. | .gather .. | .alltoall .. => true
  | .broadcast .. | .allreduce .. | .reduce .. | .scatter .. | .alltoallBase .. => false

namespace Group

section Calls

open Multiplies (address)

variable {g : Group}

/-- The substrate is asked with sizes that are worked out, unless an address is multiplied too far. -/
theorem plan_multiplies (g : Group) (what : Collective Buffer) :
    (g.plan what).Yields fun p => Multiplies p.call := by
  have hone {b : Buffer} {h : Heap} {f : Address → Call} :
      Multiplies (do return f (← b.address h) : Except Fault Call) := .bind (address b h) fun _ => .pure _
  have htwo {b c : Buffer} {h : Heap} {f : Address → Address → Call} :
      Multiplies (do return f (← b.address h) (← c.address h) : Except Fault Call) :=
    .bind (address b h) fun _ => .bind (address c h) fun _ => .pure _
  cases what with
  | broadcast buffers root =>
    refine .bind fun b => .bind fun _ => .bind fun tag => .bind fun count => .bind fun _ => .bind fun s => .pure ?_
    exact hone
  | allreduce buffers how =>
    refine .bind fun b => .bind fun tag => .bind fun op => .bind fun count => .bind fun _ => .bind fun s => .pure ?_
    exact htwo
  | reduce buffers how root =>
    refine .bind fun b => .bind fun _ => .bind fun tag => .bind fun op => .bind fun count => .bind fun _ => ?_
    exact .bind fun s => .pure htwo
  | allgather outputs inputs =>
    refine .bind fun input => ?_
    rcases outputs with _ | ⟨outs, _ | ⟨more, others⟩⟩
    · exact .error _
    · refine .bind fun _ => .bind fun _ => .bind fun tag => .bind fun count => .bind fun _ => ?_
      split
      · exact .bind fun s => .bind fun starts => .pure hone
      · exact .bind fun region => .bind fun s => .bind fun start => .pure hone
    · exact .error _
  | gather outputs inputs root =>
    refine .bind fun input => .bind fun _ => ?_
    split
    · refine .bind fun outs => .bind fun _ => .bind fun count => .bind fun layout => .bind fun _ => .bind fun tag => ?_
      exact .bind fun _ => .bind fun s => .pure htwo
    · refine .bind fun _ => .bind fun _ => .bind fun count => .bind fun nothing => .bind fun tag => ?_
      exact .bind fun _ => .bind fun s => .pure htwo
  | scatter outputs inputs root =>
    refine .bind fun output => .bind fun _ => ?_
    split
    · refine .bind fun ins => .bind fun _ => .bind fun count => .bind fun layout => .bind fun _ => .bind fun _ => ?_
      exact .bind fun tag => .bind fun _ => .bind fun s => .pure htwo
    · refine .bind fun _ => .bind fun _ => .bind fun count => .bind fun nothing => .bind fun tag => ?_
      exact .bind fun _ => .bind fun s => .pure htwo
  | alltoallBase output input splits =>
    refine .bind fun _ => .bind fun _ => ?_
    split
    · refine .bind fun held => .bind fun given => .bind fun _ => .bind fun rows => .bind fun left => .bind fun _ => ?_
      exact .bind fun tag => .bind fun _ => .bind fun s => .pure htwo
    · refine .bind fun _ => .bind fun sendCounts => .bind fun recvCounts => .bind fun tag => .bind fun _ => ?_
      exact .bind fun s => .pure htwo
  | alltoall outputs inputs =>
    refine .bind fun _ => .bind fun _ => .bind fun output => .bind fun _ => .bind fun input => .bind fun _ => ?_
    refine .bind fun send => .bind fun recv => .bind fun _ => .bind fun tag => .bind fun _ => ?_
    exact .bind fun s => .pure htwo

end Calls

/-! ## Copying results out -/

section CopyingOut

variable {g : Group} {what : Collective Buffer} {s s' : Store} {p : Plan} {copyOut : CopyOut}

/-- What is received straight into the outputs is not copied out. -/
theorem plan_receives (hwhat : what.canStage = false) : (g.plan what).Yields fun p => p.copyOut = none := by
  cases what with
  | broadcast buffers root =>
    refine .bind fun b => .bind fun _ => .bind fun tag => .bind fun count => .bind fun _ => .bind fun s => .pure rfl
  | allreduce buffers how =>
    refine .bind fun b => .bind fun tag => .bind fun op => .bind fun count => .bind fun _ => .bind fun s => .pure rfl
  | reduce buffers how root =>
    refine .bind fun b => .bind fun _ => .bind fun tag => .bind fun op => .bind fun count => .bind fun _ => ?_
    exact .bind fun s => .pure rfl
  | allgather outputs inputs => cases hwhat
  | gather outputs inputs root => cases hwhat
  | scatter outputs inputs root =>
    refine .bind fun output => .bind fun _ => ?_
    split
    · refine .bind fun ins => .bind fun _ => .bind fun count => .bind fun layout => .bind fun _ => .bind fun _ => ?_
      exact .bind fun tag => .bind fun _ => .bind fun s => .pure rfl
    · refine .bind fun _ => .bind fun _ => .bind fun count => .bind fun nothing => .bind fun tag => ?_
      exact .bind fun _ => .bind fun s => .pure rfl
  | alltoallBase output input splits =>
    refine .bind fun _ => .bind fun _ => ?_
    split
    · refine .bind fun held => .bind fun given => .bind fun _ => .bind fun rows => .bind fun left => .bind fun _ => ?_
      exact .bind fun tag => .bind fun _ => .bind fun s => .pure rfl
    · refine .bind fun _ => .bind fun sendCounts => .bind fun recvCounts => .bind fun tag => .bind fun _ => ?_
      exact .bind fun s => .pure rfl
  | alltoall outputs inputs => cases hwhat

/-- Whatever has been planned to be copied out can be, as long as the memory is there that it was planned on. -/
theorem copiesOut (hs : ∀ b ∈ what.operands, b.Sound s.heap) (hbounded : s.heap.Bounded)
    (h : (g.plan what).run s = (.ok p, s')) (hcopy : p.copyOut = some copyOut) {s₁ : Store}
    (hx : s'.heap.Extends s₁.heap) : CopiesOut (g.Overflows what) (copyOut.run.run s₁).1 := by
  have hplan := (g.plan_extends what).of_run h
  have hbounded' := hplan.bounded hbounded
  have hdirect (hreturns : p.copyOut = none) : CopiesOut (g.Overflows what) (copyOut.run.run s₁).1 := by
    rw [hcopy] at hreturns
    cases hreturns
  cases what with
  | allgather outputs inputs =>
    obtain ⟨outs, input, tag, destination, rfl, rfl, hplans⟩ := exists_of_planAllgather h
    cases hmode : g.mode with
    | vector => exact hdirect (hplans.vector hmode).1
    | flat =>
      obtain ⟨first, region, start, hfirst, hstaged, htype, -, hrows, -⟩ := hplans.flat hmode
      obtain rfl : CopyOut.rows region outs = copyOut := Option.some.inj (hstaged.symm.trans hcopy)
      have hmem : first ∈ outs := List.mem_of_mem_head? hfirst
      have hprod := eq_of_productSizes (hplans.alike first hmem).1
      have houts : ∀ b ∈ outs, b.Solid s₁.heap input.count ∧ b.dtype = region.dtype := by
        intro b hb
        obtain ⟨hn, hb', hc⟩ := hplans.alike b hb
        have hsound := hs b (Collective.mem_operands_of_output hb)
        exact ⟨(Buffer.Solid.of_sound hsound hn hc).later (hplan.trans hx), hb'.trans htype.symm⟩
      have hlength : 0 + outs.length ≤ g.size := (Nat.zero_add _).trans_le hplans.length.le
      rcases copyRows_ends (hrows.later hx) (hplans.alike first hmem).1 houts hlength (hx.bounded hbounded') with
        hok | ⟨hfault, hempty, hfar⟩
      · exact .inl hok
      · exact .inr ⟨hfault, .rows hmode hfirst (.inl hfar)⟩
  | gather outputs inputs root =>
    obtain ⟨outs, input, x, -, -, hplans⟩ := exists_of_planGather
      (fun outs hmem b hb => hs b (List.mem_append_left _ (List.mem_flatten_of_mem hmem hb)))
      (fun b hmem => hs b (List.mem_append_right _ hmem)) hbounded h
    by_cases hroot : g.rank = root
    · obtain ⟨-, -, -, htakes, -⟩ := hplans.atRoot hroot
      exact htakes.copiesOut hbounded' hcopy hx
    · exact hdirect (hplans.elsewhere hroot).2.1
  | alltoall outputs inputs =>
    obtain ⟨x, hplans⟩ := exists_of_planAlltoall hs hbounded h
    exact hplans.takes.copiesOut hbounded' hcopy hx
  | broadcast buffers root => exact hdirect (plan_receives rfl _ _ _ h)
  | allreduce buffers how => exact hdirect (plan_receives rfl _ _ _ h)
  | reduce buffers how root => exact hdirect (plan_receives rfl _ _ _ h)
  | scatter outputs inputs root => exact hdirect (plan_receives rfl _ _ _ h)
  | alltoallBase output input splits => exact hdirect (plan_receives rfl _ _ _ h)

end CopyingOut

/-! ## Reaching the substrate -/

section Dispatching

variable {g : Group} {what : Collective Buffer} {tensor : String} {e : Engine τ} {p : Plan} {store : Store}

/-- A collective that cannot be planned ends there. -/
theorem dispatch_unplanned {failure : Failure} (h : (g.plan what).run e.machine.store = (.error failure, store)) :
    (g.dispatch what tensor).run e = (.error failure, { e with machine := { e.machine with store } }) := by
  unfold dispatch
  exact run_bind_error (edit_run h)

/-- A collective that is planned ends where it does not get into the substrate. -/
theorem dispatch_unissued (h : (g.plan what).run e.machine.store = (.ok p, store)) {denial : Denial} {e' : Engine τ}
    (hdenied : Engine.attempt (do e.substrate.issue g.comm (← p.call) (e.environment.config.attributes tensor))
      { e with machine := { e.machine with store } } = (.error denial, e')) :
    (g.dispatch what tensor).run e = (.error (denial.failure p.operation), e') := by
  have hissue : (g.issue p tensor).run { e with machine := { e.machine with store } } =
      (.error (denial.failure p.operation), e') := by
    unfold issue
    rw [run_get_bind]
    exact enter_run hdenied p.operation
  unfold dispatch
  rw [run_bind_ok (edit_run h), run_bind_error hissue]

/-- A collective that is not begun was not planned, or else it fails with an error that does not blame the call. -/
theorem exists_of_dispatch_error {failure : Failure} {e' : Engine τ}
    (h : (g.dispatch what tensor).run e = (.error failure, e')) :
    (∃ store, (g.plan what).run e.machine.store = (.error failure, store) ∧
        e' = { e with machine := { e.machine with store } }) ∨
      ∃ cause, failure = .error cause ∧ cause.blamesCall = false := by
  rcases hplan : (g.plan what).run e.machine.store with ⟨answer, store⟩
  cases answer with
  | error cause =>
    rw [dispatch_unplanned hplan] at h
    cases h
    exact .inl ⟨store, rfl, rfl⟩
  | ok p =>
    right
    rcases hattempt : Engine.attempt (do e.substrate.issue g.comm (← p.call) (e.environment.config.attributes tensor))
      { e with machine := { e.machine with store } } with ⟨answer, e₁⟩
    cases answer with
    | error denial =>
      rw [dispatch_unissued hplan hattempt] at h
      cases h
      exact denial.exists_failure p.operation
    | ok request =>
      rw [dispatch_issued hplan hattempt] at h
      cases h

end Dispatching

end Group

/-! ## While a call goes on -/

section GoingOn

variable {h h' : Handle} {e e' : Engine τ} {copyOut : CopyOut} {failure : Failure}

/-- The answer of a poll or a wait does not blame the call, and is no fault. -/
theorem Handle.absorb_answer (h : Handle) {answer : Except Denial Bool} (e : Engine τ)
    (ha : (h.absorb answer e).1.answer = .error failure) :
    ∃ cause, failure = .error cause ∧ cause.blamesCall = false := by
  match answer with
  | .ok false => cases ha
  | .ok true => cases ha
  | .error .finalized =>
    cases ha
    exact ⟨_, rfl, rfl⟩
  | .error (.refused (.error cause)) =>
    cases ha
    exact ⟨_, rfl, rfl⟩
  | .error (.refused (.fault cause)) =>
    cases ha
    exact ⟨_, rfl, rfl⟩

/-- Whatever a handle is asked, the answer does not blame the call, and is no fault. -/
theorem Handle.ask_answer (h : Handle) (question : Question) (e : Engine τ)
    (ha : ((h.ask question).run e).1.answer = .error failure) :
    ∃ cause, failure = .error cause ∧ cause.blamesCall = false := by
  cases question with
  | poll =>
    change (h.poll e).1.answer = _ at ha
    cases hp : h.pending with
    | none =>
      unfold poll at ha
      rw [hp] at ha
      cases ha
    | some request =>
      rw [poll_eq hp rfl] at ha
      exact h.absorb_answer _ ha
  | wait =>
    change (h.wait e).1.answer = _ at ha
    cases hp : h.pending with
    | none =>
      unfold wait at ha
      rw [hp] at ha
      cases ha
    | some request =>
      rw [wait_eq hp rfl] at ha
      exact h.absorb_answer _ ha
  | success =>
    change h.isSuccess = _ at ha
    unfold isSuccess at ha
    split at ha
    · cases ha
      exact ⟨_, rfl, rfl⟩
    · cases ha
  | abort =>
    cases ha
    exact ⟨_, rfl, rfl⟩

/-- Dropping a handle says so in the journal at most. -/
theorem Handle.drop_run (h : Handle) (e : Engine τ) : ∃ answer e', (h.drop : Act τ Unit).run e = (answer, e') ∧
    e'.machine.net = e.machine.net ∧
      (answer = .ok () ∨ answer = .error (.abort h.operation) ∧ h.isPending = true) := by
  unfold drop
  split
  · exact ⟨_, _, rfl, rfl, .inr ⟨rfl, ‹_›⟩⟩
  · exact ⟨_, _, rfl, rfl, .inl rfl⟩

/-- A staged call is over with its wait, save for what is copied out. -/
theorem Handle.completeNow_ends (h : Handle) (copyOut : CopyOut) (e : Engine τ) {P : Prop}
    (hcopy : CopiesOut P (copyOut.run.run (h.wait e).2.machine.store).1) :
    ∃ answer e', (h.completeNow copyOut).run e = (answer, e') ∧ e'.machine.net = (h.wait e).2.machine.net ∧
      ∀ failure, answer = .error failure →
        (∃ cause, failure = .error cause ∧ cause.blamesCall = false) ∨
          (∃ operation, failure = .abort operation ∧ (h.wait e).1.handle.isPending = true) ∨
          failure = .fault .mulOverflow ∧ P := by
  rcases hwait : h.wait e with ⟨p, e₁⟩
  rw [hwait] at hcopy
  have hlift : ((h.wait : StateM (Engine τ) Progress) : Act τ Progress).run e = (.ok p, e₁) :=
    congrArg (fun a : Progress × Engine τ => (Except.ok a.1, a.2)) hwait
  unfold completeNow
  rw [run_bind_ok hlift]
  match hcase : p.answer with
  | .ok true =>
    rcases hrun : copyOut.run.run e₁.machine.store with ⟨answer, store⟩
    rw [hrun] at hcopy
    cases answer with
    | ok =>
      refine ⟨_, _, run_bind_ok (edit_run hrun), rfl, ?_⟩
      intro failure hfailure
      cases hfailure
    | error failure =>
      refine ⟨_, _, run_bind_error (edit_run hrun), rfl, ?_⟩
      intro failure' hfailure
      cases hfailure
      rcases hcopy with hok | ⟨hfault, hP⟩
      · cases hok
      · cases hfault
        exact .inr (.inr ⟨rfl, hP⟩)
  | .ok false =>
    refine ⟨_, _, rfl, rfl, ?_⟩
    intro failure hfailure
    cases hfailure
  | .error failure =>
    have hanswer : (h.wait e).1.answer = .error failure := by rw [hwait, hcase]
    obtain ⟨answer, e₂, hdrop, hnet, hends⟩ := p.handle.drop_run e₁
    rcases hends with rfl | ⟨rfl, hpending⟩
    · refine ⟨_, _, run_bind_ok hdrop, hnet, ?_⟩
      intro failure' hfailure
      cases hfailure
      exact .inl (h.ask_answer .wait e hanswer)
    · refine ⟨_, _, run_bind_error hdrop, hnet, ?_⟩
      intro failure' hfailure
      cases hfailure
      exact .inr (.inl ⟨_, rfl, hpending⟩)

end GoingOn

/-! ## Checks come first -/

/-- A collective that is refused before anything reaches a substrate. -/
structure Group.RefusedBefore (g : Group) (what : Collective Buffer) (tensor : String) (e : Engine τ) (cause : Error)
    (e' : Engine τ) : Prop where
  /-- The error is found while planning, which knows of no substrate. -/
  planned : (g.plan what).run e.machine.store = (.error (.error cause), e'.machine.store)
  /-- The environment is as it was, and so is all that the substrate keeps. -/
  untouched : e' = { e with machine := { e.machine with store := e'.machine.store } }
  /-- The bytes of all buffers are as they were. -/
  kept : e.machine.store.heap.Grows e'.machine.store.heap
  /-- Over any other substrate the collective ends just so, also over one that answers nothing. -/
  anywhere : ∀ {σ : Type} (e₁ : Engine σ), e₁.machine.store = e.machine.store → (g.dispatch what tensor).run e₁ =
    (.error (.error cause), { e₁ with machine := { e₁.machine with store := e'.machine.store } })

/-- A collective that is planned and gets to the substrate: there it makes one call, and no error blames its arguments
any more. The condition is for the place of a row to overflow. -/
structure Group.Committed (g : Group) (what : Collective Buffer) (tensor : String) (e : Engine τ) (p : Plan)
    (call : Call) (store : Store) (P : Prop) : Prop where
  /-- A call that is issued begins the collective, and that is all the substrate is asked for. -/
  issued : ∀ request m', (e.substrate.issue g.comm call (e.environment.config.attributes tensor)).run
      { e.machine with store } = (.ok request, m') →
    let handle : Handle := { operation := p.operation, pending := some request, retained := p.retained }
    (g.dispatch what tensor).run e =
      (.ok (p.copyOut.elim (.returned handle) (.staged handle)), Engine.acquire { e with machine := m' })
  /-- A call that is not issued is an error of the substrate. -/
  refused : ∀ refusal m', (e.substrate.issue g.comm call (e.environment.config.attributes tensor)).run
      { e.machine with store } = (.error refusal, m') →
    (g.dispatch what tensor).run e =
      (.error ((Denial.refused refusal).failure p.operation), { e with machine := m' })
  /-- Up to the call the bytes of all buffers are as they were. -/
  kept : e.machine.store.heap.Grows store.heap
  /-- Copying out succeeds, unless the place of a row overflows. -/
  copies : ∀ copyOut, p.copyOut = some copyOut → ∀ s : Store, store.heap.Extends s.heap →
    CopiesOut P (copyOut.run.run s).1
  /-- No answer of the collective blames the call, be it the first or one after it has been blocked, and the substrate
  is asked for the end of the request only. -/
  answers : ∀ o e', (g.dispatch what tensor).run e = (.ok o, e') → ∀ (e₁ : Engine τ) answer e₂,
    (∀ handle copyOut, o = .staged handle copyOut → store.heap.Extends (handle.wait e₁).2.machine.store.heap) →
    o.advance.run e₁ = (answer, e₂) →
      (∀ cause, answer = .error (.error cause) → cause.blamesCall = false) ∧
      (∀ handle, o = .returned handle → answer = .ok (some handle) ∧ e₂ = e₁) ∧
      ∀ handle copyOut, o = .staged handle copyOut → e₂.machine.net = (handle.wait e₁).2.machine.net
  /-- Nothing that the handle is asked later is answered with an error that blames the call. -/
  handle : ∀ o e', (g.dispatch what tensor).run e = (.ok o, e') → ∀ h h', o.handle? = some h → h.Becomes τ h' →
    ∀ question (e₁ : Engine τ) cause, ((h'.ask question).run e₁).1.answer = .error (.error cause) →
      cause.blamesCall = false

namespace Group

variable {g : Group} {what : Collective Buffer} {tensor : String} {e e' : Engine τ} {o : Ongoing}

/-- A call in progress has its plan, and copies out what the plan says. -/
theorem exists_of_begun (h : (g.dispatch what tensor).run e = (.ok o, e')) :
    ∃ p call store handle, g.Hands what e p call store ∧ o = p.copyOut.elim (.returned handle) (.staged handle) := by
  obtain ⟨p, call, store, request, hands, hissue, -⟩ := exists_of_dispatch h
  have hrun := hands.dispatch_run hissue
  rw [h] at hrun
  exact ⟨p, call, store, _, hands, Except.ok.inj (congrArg Prod.fst hrun)⟩

/-- A call in progress ends in a fault only if a size is multiplied too far, and never with an error that blames the
call. -/
theorem advance_ends (hs : ∀ b ∈ what.operands, b.Sound e.machine.store.heap) (hbounded : e.machine.store.heap.Bounded)
    {p : Plan} {store : Store} (hplan : (g.plan what).run e.machine.store = (.ok p, store))
    (h : (g.dispatch what tensor).run e = (.ok o, e')) {e₁ e₂ : Engine τ} {answer : Except Failure (Option Handle)}
    (hx : ∀ handle copyOut, o = .staged handle copyOut → store.heap.Extends (handle.wait e₁).2.machine.store.heap)
    (hrun : o.advance.run e₁ = (answer, e₂)) :
    (∀ failure, answer = .error failure → (∃ cause, failure = .error cause ∧ cause.blamesCall = false) ∨
        (∃ operation handle copyOut, failure = .abort operation ∧ o = .staged handle copyOut ∧
          (handle.wait e₁).1.handle.isPending = true) ∨
        failure = .fault .mulOverflow ∧ g.Overflows what) ∧
      (∀ handle, o = .returned handle → answer = .ok (some handle) ∧ e₂ = e₁) ∧
      ∀ handle copyOut, o = .staged handle copyOut → e₂.machine.net = (handle.wait e₁).2.machine.net := by
  obtain ⟨p', call, store', handle, hands, rfl⟩ := exists_of_begun h
  obtain ⟨rfl, rfl⟩ : p = p' ∧ store = store' := by
    have hsame := hplan.symm.trans hands.planned
    rw [Prod.mk.injEq, Except.ok.injEq] at hsame
    exact hsame
  cases hcopy : p.copyOut with
  | none =>
    rw [hcopy] at hrun hx
    cases hrun
    simp
  | some copyOut =>
    rw [hcopy] at hrun hx
    have hcopies := copiesOut hs hbounded hplan hcopy (hx handle copyOut rfl)
    obtain ⟨answer', e', hends, hnet, hfailures⟩ := handle.completeNow_ends copyOut e₁ hcopies
    have hsame : (handle.completeNow copyOut).run e₁ = (answer, e₂) := hrun
    rw [hends, Prod.mk.injEq] at hsame
    obtain ⟨rfl, rfl⟩ := hsame
    refine ⟨fun failure hfailure => ?_, fun handle' ho => ?_, fun handle' copyOut' ho => ?_⟩
    · rcases hfailures failure hfailure with hcause | ⟨operation, habort, hpending⟩ | hfault
      · exact .inl hcause
      · exact .inr (.inl ⟨operation, handle, copyOut, habort, rfl, hpending⟩)
      · exact .inr (.inr hfault)
    · cases ho
    · cases ho
      exact hnet

/-- A collective that is planned on a live environment is committed once the substrate can be asked for it. -/
theorem Hands.committed {p : Plan} {call : Call} {store : Store}
    (hs : ∀ b ∈ what.operands, b.Sound e.machine.store.heap) (hbounded : e.machine.store.heap.Bounded)
    (h : g.Hands what e p call store) (tensor : String) :
    g.Committed what tensor e p call store (g.Overflows what) := by
  constructor
  · intro request m' hissue
    exact h.dispatch_run hissue
  · intro refusal m' hissue
    apply dispatch_unissued h.planned
    have hattempt := attempt_eq (e := { e with machine := { e.machine with store } }) h.unfinalized
      (e.substrate.issue g.comm call (e.environment.config.attributes tensor))
    rw [hissue] at hattempt
    rw [h.called]
    exact hattempt
  · exact (g.plan_grows what).of_run h.planned
  · intro copyOut hcopy s hx
    exact copiesOut hs hbounded h.planned hcopy hx
  · intro o e' hrun e₁ answer e₂ hx hadvance
    obtain ⟨hfailures, hreturned, hnet⟩ := advance_ends hs hbounded h.planned hrun hx hadvance
    refine ⟨fun cause hanswer => ?_, hreturned, hnet⟩
    rcases hfailures _ hanswer with ⟨cause', hcause, hblames⟩ | ⟨operation, _, _, habort, -⟩ | ⟨hfault, -⟩
    · cases hcause
      exact hblames
    · cases habort
    · cases hfault
  · intro o e' _ handle handle' _ _ question e₁ cause hanswer
    obtain ⟨cause', hcause, hblames⟩ := handle'.ask_answer question e₁ hanswer
    cases hcause
    exact hblames

/-- Checks come before the substrate. A collective that ends with an error that blames the call has asked nothing of the
substrate and changed no byte of a buffer. Planning ends with a plan, with such an error or in an overflow; and what is
planned on a live environment makes one call, unless the address for it overflows, and no error blames the arguments of
the collective from then on. -/
theorem checks_first (g : Group) (what : Collective Buffer) (tensor : String) (e : Engine τ) (hsize : 0 < g.size)
    (hobtained : ∀ b ∈ what.operands, Obtained e.machine.store b) (hbounded : e.machine.store.heap.Bounded) :
    (∀ cause e', (g.dispatch what tensor).run e = (.error (.error cause), e') → cause.blamesCall = true →
      g.RefusedBefore what tensor e cause e') ∧
    Settles (g.Overflows what) ((g.plan what).run e.machine.store).1 ∧
    ∀ p store, (g.plan what).run e.machine.store = (.ok p, store) → e.environment.finalized = false →
      (∃ call, p.call = .ok call ∧ g.Committed what tensor e p call store (g.Overflows what)) ∨
        p.call = .error .mulOverflow := by
  have hs : ∀ b ∈ what.operands, b.Sound e.machine.store.heap := fun b hb => (hobtained b hb).sound
  refine ⟨fun cause e' hrun hblames => ?_, plan_settles hsize hs hbounded, fun p store hplan hopen => ?_⟩
  · rcases exists_of_dispatch_error hrun with ⟨store, hplan, rfl⟩ | ⟨cause', hcause, hnot⟩
    · refine ⟨hplan, rfl, (g.plan_grows what).of_run hplan, fun e₁ he₁ => ?_⟩
      rw [← he₁] at hplan
      exact dispatch_unplanned hplan
    · cases hcause
      rw [hblames] at hnot
      cases hnot
  · rcases g.plan_multiplies what _ _ _ hplan with ⟨call, hcall⟩ | hfar
    · exact .inl ⟨call, hcall, Hands.committed hs hbounded ⟨hopen, hplan, hcall⟩ tensor⟩
    · exact .inr hfar

/-- A group of one refuses a root that it does not have, and is committed to an all-gather through a new region, whose
results it copies out. -/
theorem checks_first_alone :
    ∃ (g : Group) (e : Engine Fabric) (b : Buffer) (p : Plan) (call : Call) (store : Store),
      Obtained e.machine.store b ∧ g.RefusedBefore (.broadcast [b] 1) "weights" e (.invalidRank 1 1) e ∧
      p.copyOut.isSome = true ∧
      g.Committed (.allgather [[b]] [b]) "weights" e p call store (g.Overflows (.allgather [[b]] [b])) := by
  let b : Buffer := { block := 0, dtype := .i32, shape := [2], strides := [1], offset := 0 }
  let s : Store := { heap := { blocks := #[Array.replicate 8 0] } }
  let g : Group := { comm := { number := 1, rank := 0, size := 1, vector := true }, mode := .flat }
  let e : Engine Fabric :=
    { environment := { substrate := Fabric.substrate 0, config := {} }
      machine := { store := s, net := .ofSize 1 } }
  have hzeros : (Buffer.zeros .i32 [2]).run {} = (.ok b, s) := rfl
  have hb : Obtained e.machine.store b := .zeros hzeros
  have hempty : Heap.Bounded {} := fun block => Nat.zero_le _
  have hbounded : e.machine.store.heap.Bounded := ((Buffer.zeros_extends .i32 [2]).of_run hzeros).bounded hempty
  have hsize : 0 < g.size := Nat.one_pos
  have hfirst : ∀ c ∈ (Collective.broadcast [b] 1).operands, Obtained e.machine.store c :=
    List.forall_mem_singleton.mpr hb
  have hsecond : ∀ c ∈ (Collective.allgather [[b]] [b]).operands, Obtained e.machine.store c := by
    intro c hc
    have hcb : c = b := by simpa [Collective.operands] using hc
    exact hcb ▸ hb
  have hrun : (g.dispatch (.broadcast [b] 1) "weights").run e = (.error (.error (.invalidRank 1 1)), e) := rfl
  obtain ⟨p, call, store, hplan, hcall, hcopy⟩ : ∃ p call store,
      (g.plan (.allgather [[b]] [b])).run e.machine.store = (.ok p, store) ∧ p.call = .ok call ∧
        p.copyOut.isSome = true := ⟨_, _, _, rfl, rfl, rfl⟩
  have hrefused := (g.checks_first (.broadcast [b] 1) "weights" e hsize hfirst hbounded).1 _ _ hrun rfl
  have hplanned := (g.checks_first (.allgather [[b]] [b]) "weights" e hsize hsecond hbounded).2.2 p store hplan rfl
  rcases hplanned with ⟨call', hcall', hcommitted⟩ | hfar
  · exact ⟨g, e, b, p, call', store, hb, hrefused, hcopy, hcommitted⟩
  · rw [hcall] at hfar
    cases hfar

end Group

/-! ## Arguments are answered -/

/-- The rows that are asked for on one side of an exchange add up to more than a size. -/
structure Buffer.RowsOverflow (b : Buffer) (sizes : List Nat) (n : Nat) : Prop where
  ranked : b.shape ≠ []
  length : sizes.length = n
  sum : sizeLimit ≤ sizes.sum

/-- Rows are added up before they are compared with those that there are. -/
theorem splitCounts_overflow {b : Buffer} {sizes : List Nat} {n : Nat} (hc : checkBuffer b = .ok ()) (hn : 0 < n)
    (h : b.RowsOverflow sizes n) : splitCounts b sizes n = .error (.fault .addOverflow) := by
  have hrows : ∃ rows, b.leadingDim = .ok rows := by
    unfold Buffer.leadingDim
    cases hshape : b.shape with
    | nil => exact absurd hshape h.ranked
    | cons dim rest => exact ⟨dim, rfl⟩
  have hnumel : ∃ numel, b.numel = .ok numel := by
    have hdense := checkBuffer_eq_ok hc
    unfold Buffer.isContiguous at hdense
    obtain ⟨numel, hnumel, -⟩ := exists_of_bind_eq_ok hdense
    exact ⟨numel, hnumel⟩
  obtain ⟨rows, hrows⟩ := hrows
  obtain ⟨numel, hnumel⟩ := hnumel
  have hsome : sizes.isEmpty = false := by
    rw [List.isEmpty_eq_false_iff, ← List.length_pos_iff, h.length]
    exact hn
  have hlength : require (sizes.length == n) (.splitLength sizes.length n) = .ok () := by
    rw [h.length]
    exact if_pos (beq_self_eq_true n)
  unfold splitCounts
  rw [hrows, ok_bind, lift_size_bind hnumel, hsome, if_neg Bool.false_ne_true, hlength, ok_bind,
    sumSizes_eq_error h.sum]
  rfl

namespace Group

variable {g : Group} {what : Collective Buffer} {tensor : String} {e e' : Engine τ}

/-- A collective ends with an answer or an error, and in a fault only under a condition. A process that is blocked in a
collective ends if the wait is over and the request has not reported its end. -/
structure FaultsOnlyIf (g : Group) (what : Collective Buffer) (tensor : String) (e : Engine τ) (P : Prop) : Prop where
  begun : ∀ failure e', (g.dispatch what tensor).run e = (.error failure, e') →
    (∃ cause, failure = .error cause) ∨ (∃ cause, failure = .fault cause) ∧ P
  ended : ∀ o e', (g.dispatch what tensor).run e = (.ok o, e') → ∀ (e₁ : Engine τ) failure e₂,
    (∀ handle copyOut, o = .staged handle copyOut →
      ((g.plan what).run e.machine.store).2.heap.Extends (handle.wait e₁).2.machine.store.heap) →
    o.advance.run e₁ = (.error failure, e₂) →
      (∃ cause, failure = .error cause) ∨
      (∃ operation handle copyOut, failure = .abort operation ∧ o = .staged handle copyOut ∧
        (handle.wait e₁).1.handle.isPending = true) ∨
      (∃ cause, failure = .fault cause) ∧ P

/-- Any collective on buffers that can be held is answered, with an error if its arguments are bad, unless one of its
sizes overflows. So it does in an exchange of rows if the rows asked for on either side add up to more than a size:
these are bad arguments, and the exchange faults. -/
theorem arguments_answered (g : Group) (what : Collective Buffer) (tensor : String) (e : Engine τ) (hsize : 0 < g.size)
    (hobtained : ∀ b ∈ what.operands, Obtained e.machine.store b) (hbounded : e.machine.store.heap.Bounded) :
    g.FaultsOnlyIf what tensor e (g.Overflows what) ∧
    ∀ output input splits, what = .alltoallBase output input splits → checkBuffer input = .ok () →
      checkBuffer output = .ok () → output.dtype = input.dtype →
      input.RowsOverflow splits.input g.size ∨
        (∃ counts, splitCounts input splits.input g.size = .ok counts) ∧ output.RowsOverflow splits.output g.size →
      (g.dispatch what tensor).run e = (.error (.fault .addOverflow), e) := by
  have hs : ∀ b ∈ what.operands, b.Sound e.machine.store.heap := fun b hb => (hobtained b hb).sound
  have hsettles := plan_settles hsize hs hbounded
  refine ⟨⟨fun failure e' hrun => ?_, fun o e' hrun e₁ failure e₂ hx hadvance => ?_⟩, ?_⟩
  · rcases exists_of_dispatch_error hrun with ⟨store, hplan, -⟩ | ⟨cause, hcause, -⟩
    · rw [hplan] at hsettles
      match failure with
      | .error cause => exact .inl ⟨cause, rfl⟩
      | .fault cause => exact .inr ⟨⟨cause, rfl⟩, hsettles⟩
      | .abort operation => exact hsettles.elim
    · exact .inl ⟨cause, hcause⟩
  · obtain ⟨p, call, store, handle, hands, -⟩ := exists_of_begun hrun
    rw [hands.planned] at hx
    rcases (advance_ends hs hbounded hands.planned hrun hx hadvance).1 failure rfl with
      ⟨cause, hcause, -⟩ | habort | ⟨hfault, hoverflows⟩
    · exact .inl ⟨cause, hcause⟩
    · exact .inr (.inl habort)
    · exact .inr (.inr ⟨⟨_, hfault⟩, hoverflows⟩)
  · rintro output input splits rfl hinput houtput htypes hrows
    have hsplits : splits.isEven = false := by
      have hsome {sizes : List Nat} (hlength : sizes.length = g.size) : sizes.isEmpty = false := by
        rw [List.isEmpty_eq_false_iff, ← List.length_pos_iff, hlength]
        exact hsize
      unfold Splits.isEven
      rcases hrows with hrows | ⟨-, hrows⟩
      · rw [hsome hrows.length, Bool.and_false]
      · rw [hsome hrows.length, Bool.false_and]
    have hrequire : require (output.dtype == input.dtype) (.exchangeTypes input.dtype output.dtype) = .ok () := by
      rw [htypes]
      exact if_pos (beq_self_eq_true _)
    have hplan : (g.plan (.alltoallBase output input splits)).run e.machine.store =
        (.error (.fault .addOverflow), e.machine.store) := by
      change (g.planAlltoallBase output input splits).run e.machine.store = _
      unfold planAlltoallBase planSplit
      rw [run_check_bind hinput, run_check_bind houtput, hsplits, if_neg Bool.false_ne_true, run_check_bind hrequire]
      rcases hrows with hrows | ⟨⟨counts, hcounts⟩, hrows⟩
      · exact run_check_bind_error (splitCounts_overflow hinput hsize hrows) _ _
      · rw [run_check_bind hcounts]
        exact run_check_bind_error (splitCounts_overflow houtput hsize hrows) _ _
    exact dispatch_unplanned hplan

/-- Two ranks exchange the rows of four elements, of which one asks for `2 ^ 63` to go to each. -/
theorem arguments_answered_pair :
    ∃ (g : Group) (e : Engine Fabric) (b : Buffer) (splits : Splits), Obtained e.machine.store b ∧ g.size = 2 ∧
      splits = { output := [2, 2], input := [2 ^ 63, 2 ^ 63] } ∧
      g.FaultsOnlyIf (.alltoallBase b b splits) "rows" e (g.Overflows (.alltoallBase b b splits)) ∧
      (g.dispatch (.alltoallBase b b splits) "rows").run e = (.error (.fault .addOverflow), e) := by
  let b : Buffer := { block := 0, dtype := .i32, shape := [4], strides := [1], offset := 0 }
  let s : Store := { heap := { blocks := #[Array.replicate 16 0] } }
  let g : Group := { comm := { number := 1, rank := 0, size := 2, vector := true }, mode := .flat }
  let e : Engine Fabric :=
    { environment := { substrate := Fabric.substrate 0, config := {} }
      machine := { store := s, net := .ofSize 2 } }
  let splits : Splits := { output := [2, 2], input := [2 ^ 63, 2 ^ 63] }
  have hzeros : (Buffer.zeros .i32 [4]).run {} = (.ok b, s) := rfl
  have hb : Obtained e.machine.store b := .zeros hzeros
  have hempty : Heap.Bounded {} := fun block => Nat.zero_le _
  have hbounded : e.machine.store.heap.Bounded := ((Buffer.zeros_extends .i32 [4]).of_run hzeros).bounded hempty
  have hoperands : ∀ c ∈ (Collective.alltoallBase b b splits).operands, Obtained e.machine.store c := by
    intro c hc
    have hcb : c = b := by simpa [Collective.operands] using hc
    exact hcb ▸ hb
  have hrows : b.RowsOverflow splits.input g.size := ⟨List.cons_ne_nil _ _, rfl, by decide⟩
  obtain ⟨hanswers, hfault⟩ :=
    g.arguments_answered (.alltoallBase b b splits) "rows" e Nat.two_pos hoperands hbounded
  exact ⟨g, e, b, splits, hb, rfl, rfl, hanswers, hfault b b splits rfl rfl rfl rfl (.inl hrows)⟩

end Group

end Collectives
