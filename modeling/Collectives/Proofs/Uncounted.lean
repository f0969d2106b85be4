import Collectives.Proofs.HandleLife

/-!
# Steps that make no communicator

A rank's next communicator has as number how many the rank has made. Most of what a rank does makes none: calls that are
issued, waited for and polled, groups that are dropped and an environment that is finalized leave the number of every
rank's communicators as it was, however they end. A call that is issued touches only the slot of its communicator.
-/

namespace Collectives

/-! ## Steps of the fabric -/

/-- Every rank has as many communicators as before. -/
structure Fabric.SameCounts (f f' : Fabric) : Prop where
  size : f'.size = f.size
  counts : ∀ q, (f'.endpoint q).issued.length = (f.endpoint q).issued.length

namespace Fabric

variable {f f' f'' : Fabric} {q comm : Nat} {c : Contribution} {attr : Attributes} {m m' : Machine Fabric}

theorem SameCounts.refl (f : Fabric) : f.SameCounts f := ⟨rfl, fun _ => rfl⟩

theorem SameCounts.trans (h : f.SameCounts f') (h' : f'.SameCounts f'') : f.SameCounts f'' :=
  ⟨h'.size.trans h.size, fun q => (h'.counts q).trans (h.counts q)⟩

theorem SameCounts.of_endpoints (h : f'.endpoints = f.endpoints) : f.SameCounts f' := by
  refine ⟨?_, fun q => ?_⟩
  · rw [Fabric.size, h, Fabric.size]
  · rw [endpoint, h, endpoint]

/-- What a change of one endpoint keeps is kept on every endpoint. -/
theorem part_modifyEndpoint {β : Type} (part : Endpoint → β) {change : Endpoint → Endpoint}
    (h : ∀ e, part (change e) = part e) {r : Nat} :
    part ((f.modifyEndpoint q change).endpoint r) = part (f.endpoint r) := by
  by_cases hr : r = q
  · subst hr
    simp only [endpoint, modifyEndpoint, List.getD_eq_getElem?_getD, List.getElem?_modify_eq]
    cases f.endpoints[r]? with
    | none => rfl
    | some e => exact h e
  · rw [endpoint_modifyEndpoint_of_ne _ hr]

/-- A change of an endpoint that keeps the number of its communicators. -/
theorem sameCounts_modifyEndpoint (change : Endpoint → Endpoint)
    (h : ∀ e, (change e).issued.length = e.issued.length) : f.SameCounts (f.modifyEndpoint q change) :=
  ⟨size_modifyEndpoint _, fun _ => part_modifyEndpoint (fun e => e.issued.length) h⟩

/-- A rank that arrives at the slot of a call touches no other slot and no endpoint. If it does not fault, its
contribution is there then. -/
theorem arrive_net {call : Nat × Nat} {answer : Except Refusal Unit} (h : (arrive call q c).run m = (answer, m')) :
    m'.net.endpoints = m.net.endpoints ∧
      (∀ other, other ≠ call → m'.net.slots.find? other = m.net.slots.find? other) ∧
      (answer = .ok () →
        (m'.net.slot call).contributions = (m.net.slot call).contributions.set q (some c)) := by
  have hfound (f : Fabric) (s : Slot) : (f.putSlot call s).slot call = s := by
    rw [slot, putSlot, Table.find?_insert, if_pos rfl, Option.getD_some]
  have hother (f : Fabric) (s : Slot) : ∀ other, other ≠ call →
      (f.putSlot call s).slots.find? other = f.slots.find? other := by
    intro other hne
    rw [putSlot, Table.find?_insert, if_neg hne]
  unfold arrive at h
  rw [run_get_bind] at h
  dsimp only at h
  split at h
  · cases h
    exact ⟨rfl, fun _ _ => rfl, fun hno => by cases hno⟩
  · generalize hj : (m.net.slot call).join q c = joined at h
    have hcontributions : joined.contributions = (m.net.slot call).contributions.set q (some c) := by
      rw [← hj]
      rfl
    rw [run_set_bind] at h
    split at h
    · unfold complete at h
      rw [run_get_bind] at h
      dsimp only at h
      cases hperform : perform joined.present m.store.heap with
      | error cause =>
        rw [hperform] at h
        cases h
        exact ⟨rfl, hother m.net joined, fun hno => by cases hno⟩
      | ok performed =>
        rw [hperform] at h
        cases h
        refine ⟨rfl, fun other hne => ?_, fun _ => ?_⟩
        · exact (hother _ _ other hne).trans (hother m.net joined other hne)
        · exact (congrArg Slot.contributions (hfound _ _)).trans hcontributions
    · cases h
      exact ⟨rfl, hother m.net joined, fun _ => (congrArg Slot.contributions (hfound _ _)).trans hcontributions⟩

/-- What issuing a call changes: the slot of the rank's next call, and no number of a communicator is taken. If the call
is accepted, the rank's contribution is in the slot. -/
structure Issues (q comm : Nat) (f f' : Fabric) (accepted : Prop) : Prop where
  counts : f.SameCounts f'
  others : ∀ call, call ≠ f.upcoming q comm → f'.slots.find? call = f.slots.find? call
  left : accepted → ∃ c, (f'.slot (f.upcoming q comm)).contributions =
    (f.slot (f.upcoming q comm)).contributions.set q (some c)

/-- A call that is not accepted may change nothing. -/
theorem Issues.refl {accepted : Prop} (h : ¬accepted) (q comm : Nat) (f : Fabric) : f.Issues q comm f accepted :=
  ⟨.refl f, fun _ _ => rfl, fun ha => absurd ha h⟩

theorem Issues.mono {accepted accepted' : Prop} (hi : f.Issues q comm f' accepted) (h : accepted' → accepted) :
    f.Issues q comm f' accepted' := ⟨hi.counts, hi.others, fun ha => hi.left (h ha)⟩

theorem submit_net (hq : q < m.net.size) {answer : Except Refusal Nat}
    (h : (submit q comm c attr).run m = (answer, m')) :
    m.net.Issues q comm m'.net (∃ request, answer = .ok request) := by
  obtain ⟨f', hnext, hsize, hslots, hothers, htickets, hissued⟩ :
    ∃ f', (m.net.withPlan q c attr).nextCall q comm = ((m.net.upcoming q comm).2, f') ∧ _ := nextCall_withPlan hq
  have hcounted : m.net.SameCounts f' := by
    refine ⟨hsize, fun r => ?_⟩
    by_cases hr : r = q
    · rw [hr, hissued, List.length_modify]
    · rw [hothers r hr]
  have hslot : ∀ call, f'.slot call = m.net.slot call := fun call => by rw [slot, slot, hslots, hsize]
  rw [submit_eq hnext] at h
  rcases harrive : (arrive (comm, (m.net.upcoming q comm).2) q c).run { m with net := f' } with ⟨arrived, m₁⟩
  obtain ⟨hend, hother, hdone⟩ := arrive_net harrive
  have hcounts := hcounted.trans (.of_endpoints hend)
  have hrest : ∀ call, call ≠ m.net.upcoming q comm → m₁.net.slots.find? call = m.net.slots.find? call := by
    intro call hne
    rw [hother call hne, hslots]
  cases arrived with
  | error cause =>
    rw [run_bind_error harrive] at h
    cases h
    refine ⟨hcounts, hrest, ?_⟩
    rintro ⟨request, ⟨⟩⟩
  | ok =>
    rw [run_bind_ok harrive, openTicket_run] at h
    cases h
    refine ⟨hcounts.trans (sameCounts_modifyEndpoint _ fun _ => rfl), hrest, fun _ => ⟨c, ?_⟩⟩
    have hcontributions := hdone rfl
    rw [hslot] at hcontributions
    refine Eq.trans ?_ hcontributions
    rw [slot, slot, size_modifyEndpoint]
    rfl

/-- A call on a communicator is issued as one submission, or not at all. -/
theorem issue_net (hq : q < m.net.size) {end₀ : Communicator} {call : Call} {answer : Except Refusal Nat}
    (h : ((substrate q).issue end₀ call attr).run m = (answer, m')) :
    m.net.Issues q end₀.number m'.net (∃ request, answer = .ok request) := by
  cases hc : contribution m.net.size call with
  | error cause =>
    rw [issue_refused hc] at h
    cases h
    exact .refl (by rintro ⟨request, ⟨⟩⟩) _ _ _
  | ok c =>
    rw [issue_run hc] at h
    exact submit_net hq h

theorem barrier_net (hq : q < m.net.size) {end₀ : Communicator} {answer : Except Refusal (Option Nat)}
    (h : ((substrate q).barrier end₀).run m = (answer, m')) :
    m.net.Issues q end₀.number m'.net (∃ request, answer = .ok request) := by
  rcases hsubmit : (submit q end₀.number barrierContribution {}).run m with ⟨submitted, m₁⟩
  have hissues := submit_net hq hsubmit
  cases submitted with
  | error cause =>
    have hrun : ((substrate q).barrier end₀).run m = (.error cause, m₁) := run_bind_error hsubmit
    cases hrun.symm.trans h
    exact hissues.mono (by rintro ⟨request, ⟨⟩⟩)
  | ok request =>
    cases (barrier_run hsubmit).symm.trans h
    exact hissues.mono fun _ => ⟨request, rfl⟩

/-- A request that is asked for changes at most the tickets of its rank. -/
theorem collect_endpoints (q request : Nat) (m : Machine Fabric) : ∃ change : List Ticket → List Ticket,
    ((collect q request).run m).2.net.endpoints =
      (m.net.modifyEndpoint q fun e => { e with tickets := change e.tickets }).endpoints := by
  have hkept : ∃ change : List Ticket → List Ticket, m.net.endpoints =
      (m.net.modifyEndpoint q fun e => { e with tickets := change e.tickets }).endpoints :=
    ⟨id, (List.modify_id ..).symm⟩
  cases ht : (m.net.endpoint q).tickets[request]? with
  | none =>
    rw [collect_unknown ht]
    exact hkept
  | some ticket =>
    cases hf : ticket.finished with
    | some outcome =>
      rw [collect_finished ht hf]
      exact hkept
    | none =>
      unfold collect
      simp only [run_get_bind, ht, hf]
      cases hs : m.net.slots.find? ticket.call with
      | none => exact hkept
      | some s =>
        cases ho : s.outcome with
        | none =>
          simp only [ho]
          exact hkept
        | some outcome =>
          have hend : (m.net.releaseSlot ticket.call s).endpoints = m.net.endpoints := by
            unfold releaseSlot
            split <;> rfl
          refine ⟨fun tickets => tickets.set request { ticket with finished := some outcome }, ?_⟩
          simp only [ho, run_set_bind]
          cases outcome <;> exact congrArg (List.modify · q _) hend

/-- A request that is asked for takes no number of a communicator. -/
theorem collect_net (q request : Nat) (m : Machine Fabric) :
    m.net.SameCounts ((collect q request).run m).2.net := by
  obtain ⟨change, hend⟩ := collect_endpoints q request m
  have hcounts : m.net.SameCounts (m.net.modifyEndpoint q fun e => { e with tickets := change e.tickets }) :=
    sameCounts_modifyEndpoint _ fun _ => rfl
  exact hcounts.trans (.of_endpoints hend)

end Fabric

/-! ## Steps of the engine -/

/-- A step of a rank, through the environment on its end of the fabric, that makes no communicator. -/
structure Engine.Unmade (e e' : Engine Fabric) : Prop where
  substrate : e'.environment.substrate = e.environment.substrate
  view : e'.environment.view = e.environment.view
  /-- The communicator over all ranks is kept or given back. -/
  world : e'.environment.world = e.environment.world ∨ e'.environment.world = none
  counts : e.machine.net.SameCounts e'.machine.net

section Engine

variable {α : Type} {q : Nat} {e e' e'' : Engine Fabric} {g : Group}

namespace Engine.Unmade

theorem refl (e : Engine Fabric) : e.Unmade e := ⟨rfl, rfl, .inl rfl, .refl _⟩

theorem trans (h : e.Unmade e') (h' : e'.Unmade e'') : e.Unmade e'' := by
  refine ⟨h'.substrate.trans h.substrate, h'.view.trans h.view, ?_, h.counts.trans h'.counts⟩
  rcases h'.world with hw | hw
  · rw [hw]
    exact h.world
  · exact .inr hw

/-- An act that makes none goes on with one that makes none. -/
theorem bind {β : Type} {x : Act Fabric α} {f : α → Act Fabric β} (hx : e.Unmade (x.run e).2)
    (hf : ∀ a e₁, x.run e = (.ok a, e₁) → e₁.Unmade ((f a).run e₁).2) : e.Unmade ((x >>= f).run e).2 := by
  rcases hrun : x.run e with ⟨answer, e₁⟩
  rw [hrun] at hx
  cases answer with
  | ok a =>
    rw [run_bind_ok hrun]
    exact hx.trans (hf a e₁ hrun)
  | error failure => rwa [run_bind_error hrun]

/-- A step that changes the machine only. -/
theorem of_machine {v : Environment Fabric} {m m' : Machine Fabric} (h : m.net.SameCounts m'.net) :
    Engine.Unmade { environment := v, machine := m } { environment := v, machine := m' } := ⟨rfl, rfl, .inl rfl, h⟩

theorem log (level : Level) (component : Component) (text : String) : e.Unmade (e.log level component text) :=
  of_machine (.refl _)

theorem edit (change : Edit α) : e.Unmade ((Engine.edit change).run e).2 := of_machine (.refl _)

theorem attempt {step : Native Fabric α}
    (h : e.machine.net.SameCounts ((step.run e.machine).2).net) : e.Unmade (Engine.attempt step e).2 := by
  cases hf : e.environment.finalized with
  | true =>
    rw [attempt_closed hf]
    exact refl e
  | false =>
    rw [attempt_eq hf]
    exact of_machine h

theorem acquire : e.Unmade e.acquire := ⟨rfl, rfl, .inl rfl, .refl _⟩

/-- The fabric is not changed by what is given back. -/
theorem finalize (hs : e.environment.substrate = Fabric.substrate q) : e.Unmade e.finalize := by
  have hsubstrate : e.substrate = Fabric.substrate q := hs
  unfold Engine.finalize
  split
  · exact refl e
  · refine trans ?_ (log _ _ _)
    unfold Engine.releaseWorld
    cases hw : e.environment.world with
    | none =>
      dsimp only
      rw [hsubstrate]
      exact ⟨rfl, rfl, .inl rfl, .refl _⟩
    | some comm =>
      dsimp only [Engine.substrate, Engine.releaseCommunicator]
      rw [hs]
      exact ⟨hs.symm, rfl, .inr rfl, .refl _⟩

theorem release (hs : e.environment.substrate = Fabric.substrate q) : e.Unmade e.release := by
  have hless (left : Nat) : e.Unmade { e with environment := { e.environment with holders := left } } :=
    ⟨rfl, rfl, .inl rfl, .refl _⟩
  unfold Engine.release
  dsimp only
  split
  · exact (hless _).trans (finalize hs)
  · exact hless _

theorem dropGroup (hs : e.environment.substrate = Fabric.substrate q) (g : Group) : e.Unmade (g.drop e) := by
  have hnone : e.releaseCommunicator g.comm = e := by
    rw [Engine.releaseCommunicator, Engine.substrate, hs]
    rfl
  rw [Group.drop, hnone]
  exact release hs

/-! ### Handles -/

theorem absorb (hs : e.environment.substrate = Fabric.substrate q) (h : Handle) (answer : Except Denial Bool) :
    e.Unmade (h.absorb answer e).2 := by
  have hfinish : e.Unmade (h.finish e).2 := (release hs).trans (log _ _ _)
  match answer with
  | .ok false => exact refl e
  | .ok true => exact hfinish
  | .error (.refused (.error _)) => exact hfinish
  | .error (.refused (.fault _)) => exact refl e
  | .error .finalized => exact refl e

/-- A request that is asked for through a handle. -/
theorem heard (hs : e.environment.substrate = Fabric.substrate q) (h : Handle) (request : Nat) :
    e.Unmade (h.absorb (Engine.attempt (Fabric.collect q request) e).1
      (Engine.attempt (Fabric.collect q request) e).2).2 := by
  have hattempt : e.Unmade (Engine.attempt (Fabric.collect q request) e).2 :=
    attempt (Fabric.collect_net q request e.machine)
  exact hattempt.trans (absorb (hattempt.substrate.trans hs) h _)

theorem wait (hs : e.environment.substrate = Fabric.substrate q) (h : Handle) : e.Unmade (h.wait e).2 := by
  cases hp : h.pending with
  | none =>
    have hrun : h.wait e = ({ handle := h, answer := .ok true }, e) := by
      unfold Handle.wait
      rw [hp]
      rfl
    rw [hrun]
    exact refl e
  | some request =>
    have hstep : e.environment.substrate.wait request = Fabric.collect q request := by
      rw [hs]
      rfl
    rw [Handle.wait_eq hp rfl, hstep]
    exact heard hs h request

theorem poll (hs : e.environment.substrate = Fabric.substrate q) (h : Handle) : e.Unmade (h.poll e).2 := by
  rw [h.poll_eq_wait hs]
  exact wait hs h

theorem ask (hs : e.environment.substrate = Fabric.substrate q) (h : Handle) (question : Question) :
    e.Unmade ((h.ask question).run e).2 := by
  cases question with
  | poll => exact poll hs h
  | wait => exact wait hs h
  | success => exact refl e
  | abort => exact refl e

theorem discard (h : Handle) : e.Unmade ((h.drop : Act Fabric Unit).run e).2 := by
  unfold Handle.drop
  split
  · exact log _ _ _
  · exact refl e

/-! ### Calls -/

/-- A call that is waited for. -/
theorem completeNow (hs : e.environment.substrate = Fabric.substrate q) (h : Handle) (copyOut : CopyOut) :
    e.Unmade ((h.completeNow copyOut).run e).2 := by
  refine bind (x := (h.wait : StateM (Engine Fabric) Progress)) (wait hs h) fun progress e₁ _ => ?_
  match progress.answer with
  | .ok false => exact refl e₁
  | .ok true => exact bind (edit copyOut.run) fun _ e₂ _ => refl e₂
  | .error failure => exact bind (discard progress.handle) fun _ e₂ _ => refl e₂

/-- A call that is in progress. -/
theorem advance (hs : e.environment.substrate = Fabric.substrate q) (call : Ongoing) :
    e.Unmade (call.advance.run e).2 := by
  cases call with
  | returned h => exact refl e
  | staged h copyOut => exact completeNow hs h copyOut
  | meeting request =>
    have hstep : e.substrate.wait request = Fabric.collect q request := by
      rw [Engine.substrate, hs]
      rfl
    unfold Ongoing.advance
    rw [run_get_bind, hstep]
    refine bind (attempt (Fabric.collect_net q request e.machine)) fun done e₁ _ => ?_
    cases done <;> exact refl e₁

end Engine.Unmade

/-! ### Operations that are started -/

/-- A step of the substrate that issues a call is taken, or refused by a finalized environment. -/
theorem enter_issues {comm : Nat} {step : Native Fabric α} {site : String} {answer : Except Failure α}
    (hstep : ∀ taken m', step.run e.machine = (taken, m') → e.machine.net.Issues q comm m'.net (∃ a, taken = .ok a))
    (h : (Engine.enter site step).run e = (answer, e')) :
    e.Unmade e' ∧ e.machine.net.Issues q comm e'.machine.net (∃ a, answer = .ok a) := by
  cases hf : e.environment.finalized with
  | true =>
    rw [enter_run (attempt_closed hf step)] at h
    cases h
    exact ⟨.refl _, .refl (by rintro ⟨a, ⟨⟩⟩) _ _ _⟩
  | false =>
    rcases hs : step.run e.machine with ⟨taken, m'⟩
    rw [enter_run (attempt_eq hf step), hs] at h
    cases h
    have hissues := hstep taken m' hs
    refine ⟨.of_machine hissues.counts, hissues.mono ?_⟩
    cases taken with
    | ok a => exact fun _ => ⟨a, rfl⟩
    | error cause => rintro ⟨a, ⟨⟩⟩

/-- A change of memory that is refused makes no communicator and issues nothing; otherwise this is left to what comes
after it. -/
theorem edit_bind_net {β : Type} {comm : Nat} {change : Edit β} {f : β → Act Fabric α} {answer : Except Failure α}
    (h : (Engine.edit change >>= f).run e = (answer, e'))
    (hf : ∀ b e₁, e.Unmade e₁ → e₁.machine.net = e.machine.net → (f b).run e₁ = (answer, e') →
      e₁.Unmade e' ∧ e₁.machine.net.Issues q comm e'.machine.net (∃ a, answer = .ok a)) :
    e.Unmade e' ∧ e.machine.net.Issues q comm e'.machine.net (∃ a, answer = .ok a) := by
  rcases hrun : (Engine.edit change).run e with ⟨edited, e₁⟩
  have hleft := congrArg Prod.snd hrun
  have hedit : e.Unmade e₁ := by
    subst hleft
    exact .edit change
  have hnet : e₁.machine.net = e.machine.net := by
    subst hleft
    rfl
  cases edited with
  | error failure =>
    rw [run_bind_error hrun] at h
    cases h
    rw [hnet]
    exact ⟨hedit, .refl (by rintro ⟨a, ⟨⟩⟩) _ _ _⟩
  | ok b =>
    rw [run_bind_ok hrun] at h
    obtain ⟨hunmade, hissues⟩ := hf b e₁ hedit hnet h
    rw [hnet] at hissues
    exact ⟨hedit.trans hunmade, hissues⟩

namespace Group

variable (hs : e.environment.substrate = Fabric.substrate q) (hq : q < e.machine.net.size)
include hs hq

theorem meet_net {answer : Except Failure Ongoing} (h : g.meet.run e = (answer, e')) :
    e.Unmade e' ∧ e.machine.net.Issues q g.comm.number e'.machine.net (∃ call, answer = .ok call) := by
  refine edit_bind_net h fun _ e₁ hedit hnet h => ?_
  rw [run_get_bind] at h
  rcases henter : (Engine.enter "barrier" (e₁.substrate.barrier g.comm)).run e₁ with ⟨entered, e₂⟩
  have hbarrier : e₁.substrate = Fabric.substrate q := hedit.substrate.trans hs
  rw [← hnet] at hq
  obtain ⟨hunmade, hissues⟩ := enter_issues (fun taken m' hrun =>
    Fabric.barrier_net hq (by rwa [hbarrier] at hrun)) henter
  cases entered with
  | error failure =>
    rw [run_bind_error henter] at h
    cases h
    exact ⟨hunmade, hissues.mono (by rintro ⟨call, ⟨⟩⟩)⟩
  | ok request =>
    rw [run_bind_ok henter] at h
    have hleft : e' = e₂ := by
      cases request <;> exact (congrArg Prod.snd h).symm
    subst hleft
    exact ⟨hunmade, hissues.mono fun _ => ⟨request, rfl⟩⟩

theorem issue_net {p : Plan} {tensor : String} {answer : Except Failure Nat}
    (h : (g.issue p tensor).run e = (answer, e')) :
    e.Unmade e' ∧ e.machine.net.Issues q g.comm.number e'.machine.net (∃ request, answer = .ok request) := by
  unfold Group.issue at h
  rw [run_get_bind] at h
  refine enter_issues (fun taken m' hrun => ?_) h
  cases hcall : p.call with
  | error cause =>
    rw [hcall] at hrun
    cases hrun
    exact .refl (by rintro ⟨request, ⟨⟩⟩) _ _ _
  | ok call =>
    rw [hcall, Engine.substrate, hs] at hrun
    exact Fabric.issue_net hq hrun

theorem dispatch_net {what : Collective Buffer} {tensor : String} {answer : Except Failure Ongoing}
    (h : (g.dispatch what tensor).run e = (answer, e')) :
    e.Unmade e' ∧ e.machine.net.Issues q g.comm.number e'.machine.net (∃ call, answer = .ok call) := by
  refine edit_bind_net h fun p e₁ hedit hnet h => ?_
  rcases hissue : (g.issue p tensor).run e₁ with ⟨issued, e₂⟩
  rw [← hnet] at hq
  obtain ⟨hunmade, hissues⟩ := issue_net (hedit.substrate.trans hs) hq hissue
  cases issued with
  | error failure =>
    rw [run_bind_error hissue] at h
    cases h
    exact ⟨hunmade, hissues.mono (by rintro ⟨call, ⟨⟩⟩)⟩
  | ok request =>
    rw [run_bind_ok hissue, run_modify_bind] at h
    have hleft : e' = e₂.acquire := by
      cases hcopy : p.copyOut with
      | none =>
        simp only [hcopy, run_pure] at h
        exact (congrArg Prod.snd h).symm
      | some copyOut =>
        simp only [hcopy, run_pure] at h
        exact (congrArg Prod.snd h).symm
    subst hleft
    exact ⟨hunmade.trans .acquire, hissues.mono fun _ => ⟨request, rfl⟩⟩

/-- What an operation that is started does to the fabric: the call is issued on the communicator of the group, and no
number of a communicator is taken. -/
theorem start_net {op : Operation Buffer} {answer : Except Failure Ongoing} (h : (g.start op).run e = (answer, e')) :
    e.Unmade e' ∧ e.machine.net.Issues q g.comm.number e'.machine.net (∃ call, answer = .ok call) := by
  cases op with
  | unoffered what =>
    cases h
    exact ⟨.refl _, .refl (by rintro ⟨call, ⟨⟩⟩) _ _ _⟩
  | barrier => exact meet_net hs hq h
  | collective what tensor => exact dispatch_net hs hq h

end Group

end Engine

end Collectives
