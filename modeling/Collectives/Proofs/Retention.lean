import Collectives.Proofs.EngineSteps
import Collectives.Proofs.Footprint

/-!
# Handles retain what was handed over

A call reaches the substrate if it is planned, names its memory and finds the environment open. What is then
handed over is covered by the buffers of the plan, the handle of the request retains just these, and it retains
them through any number of polls and waits until it is no longer pending.
-/

namespace Collectives

variable {τ : Type}

/-- The buffers that a collective is called on. -/
def Collective.operands : Collective Buffer → List Buffer
  | .broadcast buffers _ | .allreduce buffers _ | .reduce buffers _ _ => buffers
  | .allgather outputs inputs | .gather outputs inputs _ => outputs.flatten ++ inputs
  | .scatter outputs inputs _ => outputs ++ inputs.flatten
  | .alltoallBase output input _ => [output, input]
  | .alltoall outputs inputs => outputs ++ inputs

/-- The outputs of an all-gather are among its operands. -/
theorem Collective.mem_operands_of_output {outs inputs : List Buffer} {b : Buffer} (hb : b ∈ outs) :
    b ∈ (Collective.allgather [outs] inputs).operands :=
  List.mem_append_left _ (List.mem_flatten_of_mem (List.mem_singleton_self _) hb)

/-- Every plan of a collective on sound buffers retains what its call names. -/
theorem Group.plan_covered {g : Group} {what : Collective Buffer} {s s' : Store} {p : Plan}
    (hs : ∀ b ∈ what.operands, b.Sound s.heap) (h : (g.plan what).run s = (.ok p, s')) :
    p.Covered g.size s'.heap := by
  cases what with
  | broadcast buffers root => exact planBroadcast_covered hs h
  | allreduce buffers reduction =>
    obtain ⟨b, hsingle, -⟩ := exists_of_check_bind h
    obtain ⟨rfl, -⟩ := single_eq_ok hsingle
    have hb := hs b (List.mem_singleton_self b)
    exact planReduction_covered none hb h
  | reduce buffers reduction root =>
    obtain ⟨b, hsingle, -⟩ := exists_of_check_bind h
    obtain ⟨rfl, -⟩ := single_eq_ok hsingle
    have hb := hs b (List.mem_singleton_self b)
    exact planReduction_covered (some root) hb h
  | allgather outputs inputs =>
    refine planAllgather_covered (fun outs houts b hb => ?_) (fun b hb => ?_) h
    · exact hs b (List.mem_append_left _ (List.mem_flatten.mpr ⟨outs, houts, hb⟩))
    · exact hs b (List.mem_append_right _ hb)
  | gather outputs inputs root => exact planGather_covered (fun b hb => hs b (List.mem_append_right _ hb)) h
  | scatter outputs inputs root => exact planScatter_covered (fun b hb => hs b (List.mem_append_left _ hb)) h
  | alltoallBase output input splits =>
    have hinput : input ∈ [output, input] := List.mem_cons_of_mem _ (List.mem_singleton_self input)
    exact planAlltoallBase_covered (hs output List.mem_cons_self) (hs input hinput) h
  | alltoall outputs inputs => exact planAlltoall_covered h

/-! ## Reaching the substrate -/

/-- A collective reaches the substrate with a call, planned on the memory of `store`. -/
structure Group.Hands (g : Group) (what : Collective Buffer) (e : Engine τ) (p : Plan) (call : Call)
    (store : Store) : Prop where
  unfinalized : e.environment.finalized = false
  planned : (g.plan what).run e.machine.store = (.ok p, store)
  called : p.call = .ok call

/-- The handle of a call that is in progress. -/
def Ongoing.handle? : Ongoing → Option Handle
  | .returned handle | .staged handle _ => some handle
  | .meeting _ => none

/-- A collective that was begun has reached the substrate, which issued its call; the handle is pending on the
request and retains what the plan does. -/
theorem Group.exists_of_dispatch {g : Group} {what : Collective Buffer} {tensor : String} {e e' : Engine τ}
    {o : Ongoing} (h : (g.dispatch what tensor).run e = (.ok o, e')) :
    ∃ p call store request, g.Hands what e p call store ∧
      (e.substrate.issue g.comm call (e.environment.config.attributes tensor)).run { e.machine with store } =
        (.ok request, e'.machine) ∧
      o.handle? = some { operation := p.operation, pending := some request, retained := p.retained } := by
  unfold Group.dispatch at h
  obtain ⟨p, e₁, hplan, h⟩ := exists_of_run_bind h
  obtain ⟨store, hrun, rfl⟩ := exists_of_edit hplan
  obtain ⟨request, e₂, hissue, h⟩ := exists_of_run_bind h
  unfold Group.issue at hissue
  rw [run_get_bind] at hissue
  have hopen := unfinalized_of_enter hissue
  obtain ⟨m', hstep, rfl⟩ := exists_of_enter hissue
  rw [run_modify_bind] at h
  cases hcall : p.call with
  | error cause =>
    rw [hcall] at hstep
    cases hstep
  | ok call =>
    rw [hcall] at hstep
    cases hcopy : p.copyOut with
    | none =>
      simp only [hcopy, run_pure] at h
      cases h
      exact ⟨p, call, store, request, ⟨hopen, hrun, hcall⟩, hstep, rfl⟩
    | some copyOut =>
      simp only [hcopy, run_pure] at h
      cases h
      exact ⟨p, call, store, request, ⟨hopen, hrun, hcall⟩, hstep, rfl⟩

/-- A collective that is planned and gets into the substrate returns its handle, or goes on to copy results out. -/
theorem Group.dispatch_issued {g : Group} {what : Collective Buffer} {e e' : Engine τ} {p : Plan} {store : Store}
    {tensor : String} {request : Nat} (hplan : (g.plan what).run e.machine.store = (.ok p, store))
    (hissued : Engine.attempt (do e.substrate.issue g.comm (← p.call) (e.environment.config.attributes tensor))
      { e with machine := { e.machine with store } } = (.ok request, e')) :
    let handle : Handle := { operation := p.operation, pending := some request, retained := p.retained }
    (g.dispatch what tensor).run e = (.ok (p.copyOut.elim (.returned handle) (.staged handle)), e'.acquire) := by
  have hissue : (g.issue p tensor).run { e with machine := { e.machine with store } } = (.ok request, e') := by
    unfold issue
    rw [run_get_bind]
    exact enter_run hissued p.operation
  unfold dispatch
  rw [run_bind_ok (edit_run hplan), run_bind_ok hissue, run_modify_bind]
  cases p.copyOut <;> rfl

/-- So does one whose call the substrate issues. -/
theorem Group.Hands.dispatch_run {g : Group} {what : Collective Buffer} {e : Engine τ} {p : Plan} {call : Call}
    {store : Store} {tensor : String} {request : Nat} {m' : Machine τ} (h : g.Hands what e p call store)
    (hissue : (e.substrate.issue g.comm call (e.environment.config.attributes tensor)).run { e.machine with store } =
      (.ok request, m')) :
    let handle : Handle := { operation := p.operation, pending := some request, retained := p.retained }
    (g.dispatch what tensor).run e =
      (.ok (p.copyOut.elim (.returned handle) (.staged handle)), Engine.acquire { e with machine := m' }) := by
  let e₁ : Engine τ := { e with machine := { e.machine with store } }
  have hopen : e₁.environment.finalized = false := h.unfinalized
  refine Group.dispatch_issued h.planned ((attempt_eq hopen _).trans ?_)
  rw [h.called]
  exact congrArg (fun a : Except Refusal Nat × Machine τ => (a.1.mapError Denial.refused, { e with machine := a.2 })) hissue

/-! ## While a handle is pending -/

/-- What polls and waits make of a handle, whatever the environment is like when they are made. -/
inductive Handle.Becomes (τ : Type) (h : Handle) : Handle → Prop where
  | same : Becomes τ h h
  | polled {h' : Handle} (e : Engine τ) : Becomes τ h h' → Becomes τ h (h'.poll e).1.handle
  | waited {h' : Handle} (e : Engine τ) : Becomes τ h h' → Becomes τ h (h'.wait e).1.handle

/-- An answer leaves a handle as it is or completes it. -/
theorem Handle.absorb_handle (h : Handle) (answer : Except Denial Bool) (e : Engine τ) :
    (h.absorb answer e).1.handle = h ∨ (h.absorb answer e).1.handle.isPending = false := by
  match answer with
  | .ok false => exact .inl rfl
  | .ok true => exact .inr rfl
  | .error .finalized => exact .inl rfl
  | .error (.refused (.error cause)) => exact .inr rfl
  | .error (.refused (.fault cause)) => exact .inl rfl

/-- A poll leaves a handle as it is or completes it. -/
theorem Handle.poll_handle (h : Handle) (e : Engine τ) :
    (h.poll e).1.handle = h ∨ (h.poll e).1.handle.isPending = false := by
  cases hp : h.pending with
  | none =>
    unfold poll
    rw [hp]
    exact .inl rfl
  | some request =>
    rw [poll_eq hp rfl]
    exact h.absorb_handle ..

/-- A wait leaves a handle as it is or completes it. -/
theorem Handle.wait_handle (h : Handle) (e : Engine τ) :
    (h.wait e).1.handle = h ∨ (h.wait e).1.handle.isPending = false := by
  cases hp : h.pending with
  | none =>
    unfold wait
    rw [hp]
    exact .inl rfl
  | some request =>
    rw [wait_eq hp rfl]
    exact h.absorb_handle ..

/-- A handle that is still pending is the handle that it was. -/
theorem Handle.Becomes.eq_of_isPending {h h' : Handle} (hb : Becomes τ h h') (hp : h'.isPending = true) : h' = h := by
  -- A poll or a wait that changed the handle would have completed it.
  induction hb with
  | same => rfl
  | @polled now e _ ih =>
    rcases now.poll_handle e with he | he
    · rw [he] at hp ⊢
      exact ih hp
    · rw [he] at hp
      cases hp
  | @waited now e _ ih =>
    rcases now.wait_handle e with he | he
    · rw [he] at hp ⊢
      exact ih hp
    · rw [he] at hp
      cases hp

/-- Stretches that are retained stay so in later memory. -/
theorem Retains.later {h h' : Heap} {buffers : List Buffer} {footprint : List (Address × Nat)}
    (hr : Retains h buffers footprint) (hx : h.Extends h') : Retains h' buffers footprint := by
  intro r hmem hpos
  obtain ⟨b, hb, hblock, hin⟩ := hr r hmem hpos
  exact ⟨b, hb, hblock, hx.le_blockSize (by omega) hin⟩

/-- Every stretch of memory that a collective hands to the substrate lies in the block of a buffer that the plan
retains. If the call is issued, then its handle retains these buffers, and it does so for as long as it is
pending, whatever happens to memory. -/
theorem Group.Hands.covered_while_pending {g : Group} {what : Collective Buffer} {e : Engine τ} {p : Plan} {call : Call}
    {store : Store} (hb : ∀ b ∈ what.operands, Obtained e.machine.store b) (h : g.Hands what e p call store) :
    Retains store.heap p.retained (call.footprint g.size) ∧
      ∀ tensor o e', (g.dispatch what tensor).run e = (.ok o, e') →
        ∃ handle request, o.handle? = some handle ∧ handle.pending = some request ∧ handle.retained = p.retained ∧
          (e.substrate.issue g.comm call (e.environment.config.attributes tensor)).run { e.machine with store } =
            (.ok request, e'.machine) ∧
          ∀ handle' heap, handle.Becomes τ handle' → handle'.isPending = true → store.heap.Extends heap →
            handle'.retained = p.retained ∧ Retains heap handle'.retained (call.footprint g.size) := by
  have hcovered := plan_covered (fun b hmem => (hb b hmem).sound) h.planned call h.called
  refine ⟨hcovered, fun tensor o e' hrun => ?_⟩
  obtain ⟨p', call', store', request, h', hissue, hhandle⟩ := exists_of_dispatch hrun
  have hplan := h'.planned.symm.trans h.planned
  cases hplan
  have hcall := h'.called.symm.trans h.called
  cases hcall
  refine ⟨_, request, hhandle, rfl, rfl, hissue, fun handle' heap hbecomes hpending hx => ?_⟩
  have hkept := hbecomes.eq_of_isPending hpending
  subst hkept
  exact ⟨rfl, hcovered.later hx⟩

/-- One of two ranks gathers two elements from each into a new region. Its handle retains the region beside the input,
also after a poll that has not seen the other rank come. -/
theorem Group.covered_before_peer :
    ∃ (g : Group) (e e' : Engine Fabric) (b c region : Buffer) (p : Plan) (call : Call) (store : Store) (o : Ongoing)
      (handle : Handle),
      (Obtained e.machine.store b ∧ Obtained e.machine.store c) ∧
      g.Hands (.allgather [[b, c]] [b]) e p call store ∧ p.retained = [region, b] ∧
      call.footprint g.size =
        [({ block := some 0, pos := 0 }, 8), ({ block := some 2, pos := 0 }, 8), ({ block := some 2, pos := 8 }, 8)] ∧
      Retains store.heap [region, b] (call.footprint g.size) ∧
      (g.dispatch (.allgather [[b, c]] [b]) "elements").run e = (.ok o, e') ∧ o.handle? = some handle ∧
      (handle.poll e').1.handle.isPending = true ∧ (handle.poll e').1.handle.retained = [region, b] ∧
      Retains e'.machine.store.heap (handle.poll e').1.handle.retained (call.footprint g.size) := by
  let b : Buffer := { block := 0, dtype := .i32, shape := [2], strides := [1], offset := 0 }
  let c : Buffer := { b with block := 1 }
  let region : Buffer := { block := 2, dtype := .i32, shape := [2, 2], strides := [2, 1], offset := 0 }
  let s₁ : Store := { heap := { blocks := #[Array.replicate 8 0] } }
  let s : Store := { heap := { blocks := #[Array.replicate 8 0, Array.replicate 8 0] } }
  let g : Group := { comm := { number := 0, rank := 0, size := 2, vector := true }, mode := .flat }
  let e : Engine Fabric :=
    { environment := { substrate := Fabric.substrate 0, config := {} }
      machine := { store := s, net := { endpoints := List.replicate 2 { issued := [0] } } } }
  let what : Collective Buffer := .allgather [[b, c]] [b]
  let call : Call := .allgatherv { block := some 0, pos := 0 } 2 (.flat { block := some 2, pos := 0 }) [2, 2] .int
  let p : Plan :=
    { operation := "allgather", call := .ok call, retained := [region, b], copyOut := some (.rows region [b, c]) }
  let handle : Handle := { operation := "allgather", pending := some 0, retained := [region, b] }
  let e' : Engine Fabric := ((g.dispatch what "elements").run e).2
  have hfirst : (Buffer.zeros .i32 [2]).run {} = (.ok b, s₁) := rfl
  have hsecond : (Buffer.zeros .i32 [2]).run s₁ = (.ok c, s) := rfl
  have hb : Obtained e.machine.store b := .later (.zeros hfirst) ((Buffer.zeros_extends .i32 [2]).of_run hsecond)
  have hc : Obtained e.machine.store c := .zeros hsecond
  have hands : g.Hands what e p call ((g.plan what).run s).2 := ⟨rfl, rfl, rfl⟩
  have hoperands : ∀ x ∈ what.operands, Obtained e.machine.store x := by
    intro x hx
    have hx : x = b ∨ x = c := by simpa [what, Collective.operands, or_comm, or_assoc] using hx
    rcases hx with rfl | rfl
    · exact hb
    · exact hc
  obtain ⟨hcovered, hpending⟩ := hands.covered_while_pending hoperands
  have hrun : (g.dispatch what "elements").run e = (.ok (.staged handle (.rows region [b, c])), e') := rfl
  obtain ⟨_, request, hhandle, -, -, -, hlater⟩ := hpending "elements" _ e' hrun
  cases hhandle
  -- The other rank has not come, so the poll leaves the handle pending.
  have hpolled := hlater _ e'.machine.store.heap (.polled e' .same) rfl (.refl _)
  exact ⟨g, e, e', b, c, region, p, call, _, _, handle, ⟨hb, hc⟩, hands, rfl, rfl, hcovered, hrun, rfl, rfl, hpolled⟩

end Collectives
