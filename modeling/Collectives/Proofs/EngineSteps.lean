import Collectives.Engine.Dispatch
import Collectives.Proofs.Coherence

/-!
# Steps of the engine on the fabric

What the calls of the library do to an environment and to the fabric it is over. An environment that is open
and held stays open, a call that reaches the substrate is one submission, and a wait or a poll is one request
that is asked for: it answers `false` only if some rank has still to issue the call.
-/

namespace Collectives

/-- How many communicators a rank has made that has this environment and so many groups: the one over all
ranks comes first. -/
def Environment.Made {τ : Type} (v : Environment τ) (groups made : Nat) : Prop :=
  match v.view with
  | none => groups = 0 ∧ made = 0
  | some _ => made = groups + 1

/-- A rank at the fabric through an environment of its own, with so many groups made and so many references to
the environment besides the rank's. -/
structure Attached (n rank : Nat) (l : Ledger) (groups references : Nat) (e : Engine Fabric) : Prop where
  /-- The fabric is coherent with what was issued. -/
  coherent : Coherent n l e.machine.net
  /-- The environment is over the rank's end of the fabric. -/
  substrate : e.environment.substrate = Fabric.substrate rank
  /-- The environment is not finalized. -/
  unfinalized : e.environment.finalized = false
  /-- The rank has made a communicator for each group. -/
  made : e.environment.Made groups (e.machine.net.endpoint rank).issued.length
  /-- The environment counts its references. -/
  held : e.environment.holders = references + 1

/-- No rank but one has made a communicator. -/
def Fabric.OthersKept (rank : Nat) (f f' : Fabric) : Prop :=
  ∀ q, q ≠ rank → (f'.endpoint q).issued.length = (f.endpoint q).issued.length

section Steps

variable {τ α : Type} {n rank : Nat} {l : Ledger} {e e' : Engine Fabric}

/-! ## Under the lock -/

theorem attempt_eq {e : Engine τ} (ho : e.environment.finalized = false) (step : Native τ α) :
    Engine.attempt step e =
      ((step.run e.machine).1.mapError .refused, { e with machine := (step.run e.machine).2 }) := by
  unfold Engine.attempt
  rw [ho]
  rfl

/-- In a finalized environment no substrate step is taken. -/
theorem attempt_closed {e : Engine τ} (hf : e.environment.finalized = true) (step : Native τ α) :
    Engine.attempt step e = (.error .finalized, e) := if_pos hf

/-- What the engine makes of an attempt at a substrate step. -/
theorem enter_run {e e' : Engine τ} {step : Native τ α} {answer : Except Denial α}
    (h : Engine.attempt step e = (answer, e')) (site : String) :
    (Engine.enter site step).run e = (answer.mapError (Denial.failure site), e') := by
  have hrun : (Engine.enter site step).run e =
    ((Engine.attempt step e).1.mapError (Denial.failure site), (Engine.attempt step e).2) := rfl
  rw [hrun, h]

/-- A step that is not taken leaves everything as it was. -/
theorem enter_finalized {e : Engine τ} (hf : e.environment.finalized = true) (site : String) (step : Native τ α) :
    (Engine.enter site step).run e = (.error (.error .notInitialized), e) := by
  rw [enter_run (attempt_closed hf step)]
  rfl

/-- A substrate step that answers does so through the engine. -/
theorem enter_run_ok {e : Engine τ} (ho : e.environment.finalized = false) {step : Native τ α} {a : α}
    {m' : Machine τ} (h : step.run e.machine = (.ok a, m')) (site : String) :
    (Engine.enter site step).run e = (.ok a, { e with machine := m' }) := by
  rw [enter_run (attempt_eq ho step), h]
  rfl

/-- An answer of the engine to a substrate step is the substrate's. -/
theorem exists_of_enter {e e' : Engine τ} {step : Native τ α} {a : α} {site : String}
    (h : (Engine.enter site step).run e = (.ok a, e')) :
    ∃ m', step.run e.machine = (.ok a, m') ∧ e' = { e with machine := m' } := by
  cases hf : e.environment.finalized with
  | true =>
    rw [enter_run (attempt_closed hf step)] at h
    cases h
  | false =>
    rw [enter_run (attempt_eq hf step)] at h
    rcases hs : step.run e.machine with ⟨answer, m'⟩
    rw [hs] at h
    cases answer with
    | ok b =>
      cases h
      exact ⟨m', rfl, rfl⟩
    | error cause => cases h

/-- A substrate step is answered only in an open environment. -/
theorem unfinalized_of_enter {e e' : Engine τ} {step : Native τ α} {a : α} {site : String}
    (h : (Engine.enter site step).run e = (.ok a, e')) : e.environment.finalized = false := by
  by_contra hf
  rw [enter_run (attempt_closed (eq_true_of_ne_false hf) step)] at h
  cases h

/-- Work on this side of the substrate changes memory and journal only. -/
theorem edit_run {e : Engine τ} {change : Edit α} {answer : Except Failure α} {store : Store}
    (h : change.run e.machine.store = (answer, store)) :
    (Engine.edit change).run e = (answer, { e with machine := { e.machine with store } }) := by
  have hedit : (Engine.edit change).run e = ((change.run e.machine.store).1,
    { e with machine := { e.machine with store := (change.run e.machine.store).2 } }) := rfl
  rw [hedit, h]

/-- An answer of the engine to such work is that of the work. -/
theorem exists_of_edit {e e' : Engine τ} {change : Edit α} {a : α}
    (h : (Engine.edit change).run e = (.ok a, e')) :
    ∃ store, change.run e.machine.store = (.ok a, store) ∧
      e' = { e with machine := { e.machine with store } } := by
  rcases hrun : change.run e.machine.store with ⟨answer, store⟩
  rw [edit_run hrun] at h
  cases h
  exact ⟨store, rfl, rfl⟩

/-- A wait for a pending handle asks the substrate. -/
theorem Handle.wait_eq {h : Handle} {request : Nat} (hp : h.pending = some request) {e e' : Engine τ}
    {answer : Except Denial Bool}
    (ha : Engine.attempt (e.environment.substrate.wait request) e = (answer, e')) :
    h.wait e = h.absorb answer e' := by
  have hwait : h.wait e = h.absorb (Engine.attempt (e.environment.substrate.wait request) e).1
      (Engine.attempt (e.environment.substrate.wait request) e).2 := by
    unfold Handle.wait
    rw [hp]
    rfl
  rw [hwait, ha]

/-- A poll of a pending handle asks the substrate. -/
theorem Handle.poll_eq {h : Handle} {request : Nat} (hp : h.pending = some request) {e e' : Engine τ}
    {answer : Except Denial Bool}
    (ha : Engine.attempt (e.environment.substrate.test request) e = (answer, e')) :
    h.poll e = h.absorb answer e' := by
  have hpoll : h.poll e = h.absorb (Engine.attempt (e.environment.substrate.test request) e).1
      (Engine.attempt (e.environment.substrate.test request) e).2 := by
    unfold Handle.poll
    rw [hp]
    rfl
  rw [hpoll, ha]

/-! ## Making groups -/

/-- What another rank does to the fabric leaves a rank attached. -/
theorem Attached.of_others {groups references q : Nat} {v : Environment Fabric} {m m' : Machine Fabric}
    (ha : Attached n rank l groups references { environment := v, machine := m }) {l' : Ledger}
    (hco : Coherent n l' m'.net) (hq : rank ≠ q) (hk : m.net.OthersKept q m'.net) :
    Attached n rank l' groups references { environment := v, machine := m' } := by
  refine ⟨hco, ha.substrate, ha.unfinalized, ?_, ha.held⟩
  have hmade := ha.made
  rwa [← hk rank hq] at hmade

/-- A line in the journal leaves a rank attached. -/
theorem Attached.log {groups references : Nat} (ha : Attached n rank l groups references e) (level : Level)
    (component : Component) (text : String) :
    Attached n rank l groups references (e.log level component text) :=
  ⟨ha.coherent, ha.substrate, ha.unfinalized, ha.made, ha.held⟩

/-- The communicator over all ranks is reported once it was made. -/
theorem initOnce_made {e : Engine τ} {view : Nat × Nat} (hview : e.environment.view = some view) :
    (Engine.initOnce : Act τ _).run e = (.ok view, e) := by
  unfold Engine.initOnce
  rw [run_get_bind, hview]
  rfl

theorem initOnce_finalized {e : Engine τ} (hview : e.environment.view = none) (hf : e.environment.finalized = true) :
    (Engine.initOnce : Act τ _).run e = (.error (.error .notInitialized), e) := by
  unfold Engine.initOnce
  rw [run_get_bind, hview]
  exact run_bind_error (enter_finalized hf _ _)

/-- The communicator over all ranks is made by the first call that needs it, and only by that. -/
theorem Attached.initOnce {groups references : Nat} (hr : rank < n) (ha : Attached n rank l groups references e) :
    ∃ view e', (Engine.initOnce : Act Fabric _).run e = (.ok view, e') ∧
      Attached n rank l groups references e' ∧ e'.environment.view.isSome ∧
      e.machine.net.OthersKept rank e'.machine.net := by
  have hmade := ha.made
  unfold Environment.Made at hmade
  unfold Engine.initOnce
  rw [run_get_bind]
  cases hv : e.environment.view with
  | some view => exact ⟨view, e, rfl, ha, by rw [hv]; rfl, fun _ _ => rfl⟩
  | none =>
    rw [hv] at hmade
    obtain ⟨rfl, hissued⟩ := hmade
    obtain ⟨m', comm, hrun, -, -, hco', -, hi⟩ := ha.coherent.create hr
    have hstep : e.substrate.create.run e.machine = (.ok comm, m') := by
      rw [Engine.substrate, ha.substrate]
      exact hrun
    have hone : (m'.net.endpoint rank).issued.length = 0 + 1 := by
      rw [hi, if_pos rfl, List.length_append, hissued]
      rfl
    have hothers : e.machine.net.OthersKept rank m'.net := fun q hq => by rw [hi, if_neg hq]
    have h₁ : Attached n rank l 0 references { machine := m', environment := { e.environment with
        world := some comm, view := some (comm.rank, comm.size) } } :=
      ⟨hco', ha.substrate, ha.unfinalized, hone, ha.held⟩
    exact ⟨_, _, run_bind_ok (enter_run_ok ha.unfinalized hstep _), h₁.log .., rfl, hothers⟩

/-- A rank that has the communicator over all ranks makes the one of its next group. -/
theorem Attached.createCommunicator {groups references : Nat} (hr : rank < n)
    (ha : Attached n rank l groups references e) (hv : e.environment.view.isSome) :
    ∃ comm e', (Engine.createCommunicator : Act Fabric _).run e = (.ok comm, e') ∧
      Attached n rank l (groups + 1) references e' ∧ comm.number = groups + 1 ∧
      e.machine.net.OthersKept rank e'.machine.net := by
  obtain ⟨view, hview⟩ := Option.isSome_iff_exists.mp hv
  have hmade := ha.made
  simp only [Environment.Made, hview] at hmade
  obtain ⟨m', comm, hrun, hnumber, -, hco', -, hi⟩ := ha.coherent.create hr
  have hstep : e.substrate.create.run e.machine = (.ok comm, m') := by
    rw [Engine.substrate, ha.substrate]
    exact hrun
  have hone : (m'.net.endpoint rank).issued.length = groups + 1 + 1 := by
    rw [hi, if_pos rfl, List.length_append, hmade]
    rfl
  have hothers : e.machine.net.OthersKept rank m'.net := fun q hq => by rw [hi, if_neg hq]
  refine ⟨comm, { e with machine := m' }, ?_, ?_, hnumber.trans hmade, hothers⟩
  · unfold Engine.createCommunicator
    rw [run_get_bind, enter_run_ok ha.unfinalized hstep]
  · refine ⟨hco', ha.substrate, ha.unfinalized, ?_, ha.held⟩
    simp only [Environment.Made, hview]
    exact hone

/-- One more reference leaves a rank attached. -/
theorem Attached.acquire {groups references : Nat} (ha : Attached n rank l groups references e) :
    Attached n rank l groups (references + 1) e.acquire :=
  ⟨ha.coherent, ha.substrate, ha.unfinalized, ha.made, congrArg (· + 1) ha.held⟩

/-- A reference that is not the last one is given back without finalizing. -/
theorem Attached.release {groups references : Nat} (ha : Attached n rank l groups (references + 1) e) :
    Attached n rank l groups references e.release ∧ e.release.machine = e.machine := by
  have hleft : e.environment.holders - 1 = references + 1 := by rw [ha.held, Nat.add_sub_cancel]
  unfold Engine.release
  rw [hleft, if_neg (Nat.succ_ne_zero _)]
  exact ⟨⟨ha.coherent, ha.substrate, ha.unfinalized, ha.made, rfl⟩, rfl⟩

/-- A rank that leaves a group gives the group's reference back. -/
theorem Attached.dropGroup {groups references : Nat} (ha : Attached n rank l groups (references + 1) e)
    (g : Group) : Attached n rank l groups references (g.drop e) ∧ (g.drop e).machine = e.machine := by
  have hnone : e.releaseCommunicator g.comm = e := by
    rw [Engine.releaseCommunicator, Engine.substrate, ha.substrate]
    rfl
  rw [Group.drop, hnone]
  exact ha.release

/-- A rank that asks for a group gets the next one, unless the launcher promised another view; in either case
it stays attached. -/
theorem Attached.createGroup {groups references : Nat} (hr : rank < n)
    (ha : Attached n rank l groups references e) (expected : Rendezvous) :
    ∃ answer e', (Group.create expected).run e = (answer, e') ∧
      e.machine.net.OthersKept rank e'.machine.net ∧
      ((∃ failure, answer = .error failure ∧ Attached n rank l groups references e') ∨
        ∃ g, answer = .ok g ∧ g.comm.number = groups + 1 ∧
          Attached n rank l (groups + 1) (references + 1) e') := by
  obtain ⟨view, e₁, hinit, h₁, hv, hothers₁⟩ := ha.initOnce hr
  unfold Group.create
  rw [run_bind_ok hinit]
  cases hcheck : expected.check view.1 view.2 with
  | error failure =>
    exact ⟨_, _, run_check_bind_error hcheck _ _, hothers₁, .inl ⟨failure, rfl, h₁⟩⟩
  | ok =>
    obtain ⟨comm, e₂, hcreate, h₂, hnumber, hothers₂⟩ := h₁.createCommunicator hr hv
    have hothers : e.machine.net.OthersKept rank e₂.machine.net := fun q hq =>
      (hothers₂ q hq).trans (hothers₁ q hq)
    simp only [run_check_bind hcheck, run_bind_ok hcreate, run_get_bind]
    split
    · exact ⟨_, _, rfl, hothers, .inr ⟨_, rfl, hnumber, ((h₂.log ..).log ..).acquire⟩⟩
    · exact ⟨_, _, rfl, hothers, .inr ⟨_, rfl, hnumber, (h₂.log ..).acquire⟩⟩

/-! ## Issuing calls -/

/-- Work on memory leaves a rank attached. -/
theorem Attached.work {groups references : Nat} {v : Environment Fabric} {m : Machine Fabric}
    (ha : Attached n rank l groups references { environment := v, machine := m }) (store : Store) :
    Attached n rank l groups references { environment := v, machine := { m with store } } :=
  ⟨ha.coherent, ha.substrate, ha.unfinalized, ha.made, ha.held⟩

end Steps

/-- The byte counts of the contribution that an operation comes to, if it comes to one, are sizes. -/
def Group.Sized (g : Group) (size : Nat) (store : Store) : Operation Buffer → Prop
  | .collective what _ => ∀ p store' call c, (g.plan what).run store = (.ok p, store') → p.call = .ok call →
      Fabric.contribution size call = .ok c → c.Fits
  | .barrier | .unoffered _ => True

/-- References to the environment that a handle has. -/
def Handle.references (h : Handle) : Nat := if h.isPending then 1 else 0

/-- References to the environment that an ongoing call has of its own. -/
def Ongoing.references : Ongoing → Nat
  | .returned handle | .staged handle _ => handle.references
  | .meeting _ => 0

section Calls

variable {n rank groups references : Nat} {l : Ledger} {e e' : Engine Fabric} {g : Group}

/-- A contribution submitted through the engine is one more in the ledger. -/
theorem Attached.submit (hr : rank < n) (ha : Attached n rank l groups references e) {comm : Nat}
    (hcomm : comm < (e.machine.net.endpoint rank).issued.length) {c : Contribution} (hc : c.Issued n)
    (hf : c.Fits) {attr : Attributes} {request : Nat} {m' : Machine Fabric}
    (h : (Fabric.submit rank comm c attr).run e.machine = (.ok request, m')) :
    Attached n rank (l.add rank comm c) groups references { e with machine := m' } ∧
      e.machine.net.OthersKept rank m'.net := by
  obtain ⟨m₁, hrun, hs, hco, -⟩ := ha.coherent.submit hr hcomm hc hf attr
  obtain rfl : m₁ = m' := congrArg Prod.snd (hrun.symm.trans h)
  have hissued : (m₁.net.endpoint rank).issued.length = (e.machine.net.endpoint rank).issued.length := by
    rw [hs.issued, List.length_modify]
  refine ⟨⟨hco, ha.substrate, ha.unfinalized, ?_, ha.held⟩, fun q hq => by rw [hs.others q hq]⟩
  rw [hissued]
  exact ha.made

/-- A rank that has made a group has the group's communicator. -/
theorem Attached.lt_issued (ha : Attached n rank l groups references e) {comm : Nat}
    (hcomm : comm ≤ groups) (hpos : 0 < comm) : comm < (e.machine.net.endpoint rank).issued.length := by
  have hmade := ha.made
  unfold Environment.Made at hmade
  split at hmade
  · omega
  · omega

/-- A planned call that is issued is one submission on the communicator of its group. -/
theorem Attached.issue (hr : rank < n) (ha : Attached n rank l groups references e)
    (hg : g.comm.number < (e.machine.net.endpoint rank).issued.length) {p : Plan} {tensor : String}
    (hsized : ∀ call c, p.call = .ok call → Fabric.contribution n call = .ok c → c.Fits) {request : Nat}
    (h : (g.issue p tensor).run e = (.ok request, e')) :
    ∃ c, Attached n rank (l.add rank g.comm.number c) groups references e' ∧
      e.machine.net.OthersKept rank e'.machine.net := by
  unfold Group.issue at h
  rw [run_get_bind] at h
  obtain ⟨m', hstep, rfl⟩ := exists_of_enter h
  cases hcall : p.call with
  | error cause =>
    rw [hcall] at hstep
    cases hstep
  | ok call =>
    have hissue : ((Fabric.substrate rank).issue g.comm call (e.environment.config.attributes tensor)).run
        e.machine = (.ok request, m') := by
      rw [hcall, Engine.substrate, ha.substrate] at hstep
      exact hstep
    cases hc : Fabric.contribution e.machine.net.size call with
    | error cause =>
      rw [Fabric.issue_refused hc] at hissue
      cases hissue
    | ok c =>
      rw [Fabric.issue_run hc] at hissue
      rw [ha.coherent.size] at hc
      exact ⟨c, ha.submit hr hg (.inl ⟨call, hc⟩) (hsized call c hcall hc) hissue⟩

/-- A collective that is begun is one submission, and its handle holds a reference. -/
theorem Attached.dispatch (hr : rank < n) (ha : Attached n rank l groups references e)
    (hg : g.comm.number < (e.machine.net.endpoint rank).issued.length) {what : Collective Buffer}
    {tensor : String} (hsized : g.Sized n e.machine.store (.collective what tensor)) {o : Ongoing}
    (h : (g.dispatch what tensor).run e = (.ok o, e')) :
    ∃ c, Attached n rank (l.add rank g.comm.number c) groups (references + o.references) e' ∧
      e.machine.net.OthersKept rank e'.machine.net := by
  unfold Group.dispatch at h
  obtain ⟨p, e₁, hplan, hrest⟩ := exists_of_run_bind h
  obtain ⟨store, hrun, rfl⟩ := exists_of_edit hplan
  obtain ⟨request, e₂, hissue, hdone⟩ := exists_of_run_bind hrest
  obtain ⟨c, h₂, hothers⟩ := (ha.work store).issue hr hg (fun call c => hsized p store call c hrun) hissue
  rw [run_modify_bind] at hdone
  cases hcopy : p.copyOut with
  | none =>
    simp only [hcopy, run_pure] at hdone
    cases hdone
    exact ⟨c, h₂.acquire, hothers⟩
  | some copyOut =>
    simp only [hcopy, run_pure] at hdone
    cases hdone
    exact ⟨c, h₂.acquire, hothers⟩

/-- Coming to a barrier is one submission. -/
theorem Attached.meet (hr : rank < n) (ha : Attached n rank l groups references e)
    (hg : g.comm.number < (e.machine.net.endpoint rank).issued.length) {o : Ongoing}
    (h : g.meet.run e = (.ok o, e')) :
    ∃ c, Attached n rank (l.add rank g.comm.number c) groups (references + o.references) e' ∧
      e.machine.net.OthersKept rank e'.machine.net := by
  unfold Group.meet at h
  obtain ⟨_, e₁, hreport, hrest⟩ := exists_of_run_bind h
  obtain ⟨store, -, rfl⟩ := exists_of_edit hreport
  rw [run_get_bind] at hrest
  obtain ⟨answer, e₂, henter, hdone⟩ := exists_of_run_bind hrest
  obtain ⟨m', hstep, rfl⟩ := exists_of_enter henter
  obtain ⟨m₁, hsubmit, -⟩ :=
    (ha.work store).coherent.submit hr hg (.inr rfl) Fabric.barrierContribution_fits {}
  have hbarrier : ((Fabric.substrate rank).barrier g.comm).run { e.machine with store } = _ :=
    Fabric.barrier_run hsubmit
  rw [Engine.substrate, ha.substrate, hbarrier] at hstep
  cases hstep
  cases hdone
  exact ⟨_, (ha.work store).submit hr hg (.inr rfl) Fabric.barrierContribution_fits hsubmit⟩

/-- An operation that is begun is one submission on the communicator of its group. -/
theorem Attached.start (hr : rank < n) (ha : Attached n rank l groups references e)
    (hg : g.comm.number < (e.machine.net.endpoint rank).issued.length) {op : Operation Buffer}
    (hsized : g.Sized n e.machine.store op) {o : Ongoing} (h : (g.start op).run e = (.ok o, e')) :
    ∃ c, Attached n rank (l.add rank g.comm.number c) groups (references + o.references) e' ∧
      e.machine.net.OthersKept rank e'.machine.net := by
  cases op with
  | collective what tensor => exact ha.dispatch hr hg hsized h
  | barrier => exact ha.meet hr hg h
  | unoffered what => cases h

/-! ## Asking for outcomes -/

/-- A rank is blocked at a call: it has issued the call, and some rank has not. -/
def Ledger.Blocked (l : Ledger) (n rank : Nat) : Prop := ∃ call, l.HasIssued rank call ∧ ¬l.Full n call

/-- A request that is asked for is done or failed for good, unless some rank has still to issue its call; then
nothing changes. -/
theorem Attached.ask (hr : rank < n) (ha : Attached n rank l groups references e) (request : Nat) :
    ∃ answer e', Engine.attempt (Fabric.collect rank request) e = (answer, e') ∧
      e.machine.net.OthersKept rank e'.machine.net ∧ Attached n rank l groups references e' ∧
      (answer = .ok true ∨ (∃ cause, answer = .error (.refused (.error cause))) ∨
        answer = .ok false ∧ e' = e ∧ l.Blocked n rank) := by
  rw [attempt_eq ha.unfinalized]
  cases ht : (e.machine.net.endpoint rank).tickets[request]? with
  | none =>
    rw [Fabric.collect_unknown ht]
    exact ⟨_, _, rfl, fun _ _ => rfl, ha, .inr (.inl ⟨_, rfl⟩)⟩
  | some t =>
    by_cases hfull : l.Full n t.call
    · obtain ⟨m', hrun, -, hco, hissued, -⟩ := ha.coherent.collect hr ht
      rw [if_pos hfull] at hrun
      have hmade := ha.made
      rw [← hissued] at hmade
      rw [hrun]
      refine ⟨_, { e with machine := m' }, rfl, fun q _ => by rw [hissued],
        ⟨hco, ha.substrate, ha.unfinalized, hmade, ha.held⟩, ?_⟩
      cases verdict (l.gathered n t.call) with
      | none => exact .inl rfl
      | some mismatch => exact .inr (.inl ⟨_, rfl⟩)
    · rw [ha.coherent.collect_of_not_full hr ht hfull]
      have hissued := ha.coherent.hasIssued_of_mem hr (List.mem_of_getElem? ht)
      exact ⟨_, _, rfl, fun _ _ => rfl, ha, .inr (.inr ⟨rfl, rfl, t.call, hissued, hfull⟩)⟩

/-- On the fabric a poll does what a wait does; the difference is whether the caller stays when it answers
`false`. -/
theorem Handle.poll_eq_wait (hs : e.environment.substrate = Fabric.substrate rank) (h : Handle) :
    h.poll e = h.wait e := by
  cases hp : h.pending with
  | none =>
    unfold Handle.poll Handle.wait
    rw [hp]
  | some request =>
    rcases hask : Engine.attempt (Fabric.collect rank request) e with ⟨answer, e'⟩
    have htest : Engine.attempt (e.environment.substrate.test request) e = (answer, e') := by
      rw [hs]
      exact hask
    have hwait : Engine.attempt (e.environment.substrate.wait request) e = (answer, e') := by
      rw [hs]
      exact hask
    rw [Handle.poll_eq hp htest, Handle.wait_eq hp hwait]

/-- A handle that is completed gives its reference back. -/
theorem Attached.finish (ha : Attached n rank l groups (references + 1) e) (h : Handle) :
    ∃ e', h.finish e = (.completed h.operation, e') ∧ e'.machine.net = e.machine.net ∧
      Attached n rank l groups references e' := by
  obtain ⟨h₁, hmachine⟩ := ha.release
  have hnet : e.release.machine.net = e.machine.net := by rw [hmachine]
  exact ⟨_, rfl, hnet, h₁.log ..⟩

/-- A wait completes its handle and gives the handle's reference back, unless some rank has still to issue the
call; then nothing changes. -/
theorem Attached.wait (hr : rank < n) {h : Handle}
    (ha : Attached n rank l groups (references + h.references) e) :
    ∃ p e', h.wait e = (p, e') ∧ e.machine.net.OthersKept rank e'.machine.net ∧
      Attached n rank l groups (references + p.handle.references) e' ∧
      (p.answer ≠ .ok false ∧ p.handle.isPending = false ∨
        p.answer = .ok false ∧ p.handle = h ∧ e' = e ∧ l.Blocked n rank) := by
  cases hp : h.pending with
  | none =>
    have hrun : h.wait e = ({ handle := h, answer := .ok true }, e) := by
      unfold Handle.wait
      rw [hp]
      rfl
    exact ⟨_, _, hrun, fun _ _ => rfl, ha, .inl ⟨by simp, by simp [Handle.isPending, hp]⟩⟩
  | some request =>
    obtain ⟨answer, e₁, hask, hothers, h₁, hanswer⟩ := ha.ask hr request
    have hrun : h.wait e = h.absorb answer e₁ := Handle.wait_eq hp (by rwa [ha.substrate])
    have hrefs : h.references = 1 := by simp [Handle.references, Handle.isPending, hp]
    rw [hrefs] at h₁
    obtain ⟨e₂, hfinish, hnet, h₂⟩ := h₁.finish h
    rcases hanswer with rfl | ⟨cause, rfl⟩ | ⟨rfl, rfl, hblocked⟩
    · have habsorb : h.absorb (.ok true) e₁ = ({ handle := .completed h.operation, answer := .ok true }, e₂) :=
        congrArg (fun a : Handle × Engine Fabric => (Progress.mk a.1 (.ok true), a.2)) hfinish
      exact ⟨_, _, hrun.trans habsorb, by rwa [hnet], h₂, .inl ⟨by simp, rfl⟩⟩
    · have habsorb : h.absorb (.error (.refused (.error cause))) e₁ =
          ({ handle := .completed h.operation,
             answer := .error (.error (.substrate h.operation cause.message)) }, e₂) :=
        congrArg (fun a : Handle × Engine Fabric => (Progress.mk a.1 _, a.2)) hfinish
      exact ⟨_, _, hrun.trans habsorb, by rwa [hnet], h₂, .inl ⟨by simp, rfl⟩⟩
    · exact ⟨_, _, hrun, hothers, ha, .inr ⟨rfl, rfl, rfl, hblocked⟩⟩

/-- How a call in progress goes on: it fails, it returns its handle, or it is blocked and nothing changes. -/
inductive Advanced (n rank : Nat) (l : Ledger) (groups references : Nat) (e : Engine Fabric) :
    Except Failure (Option Handle) → Engine Fabric → Prop
  | failed (failure : Failure) {e' : Engine Fabric} (others : e.machine.net.OthersKept rank e'.machine.net)
      (attached : Attached n rank l groups references e') :
      Advanced n rank l groups references e (.error failure) e'
  | returned (h : Handle) {e' : Engine Fabric} (others : e.machine.net.OthersKept rank e'.machine.net)
      (attached : Attached n rank l groups (references + h.references) e') :
      Advanced n rank l groups references e (.ok (some h)) e'
  | blocked (h : l.Blocked n rank) : Advanced n rank l groups references e (.ok none) e

/-- A call that waits before it returns goes on as soon as the wait does. The wait has then left no handle
pending, so none is dropped that is. -/
theorem Attached.completeNow (hr : rank < n) {h : Handle}
    (ha : Attached n rank l groups (references + h.references) e) (copyOut : CopyOut) :
    ∃ answer e', (h.completeNow copyOut).run e = (answer, e') ∧
      Advanced n rank l groups references e answer e' := by
  obtain ⟨p, e₁, hwait, hothers, h₁, hp⟩ := ha.wait hr
  have hlift : ((h.wait : StateM (Engine Fabric) Progress) : Act Fabric Progress).run e = (.ok p, e₁) :=
    congrArg (fun a : Progress × Engine Fabric => (Except.ok a.1, a.2)) hwait
  unfold Handle.completeNow
  rw [run_bind_ok hlift]
  rcases hp with ⟨hanswer, hpending⟩ | ⟨hanswer, -, rfl, hblocked⟩
  · have hrefs : p.handle.references = 0 := by simp [Handle.references, hpending]
    rw [hrefs] at h₁
    match hcase : p.answer with
    | .ok false => exact absurd hcase hanswer
    | .error failure =>
      have hdrop : (p.handle.drop : Act Fabric Unit).run e₁ = (.ok (), e₁) := by
        unfold Handle.drop
        rw [hpending]
        rfl
      exact ⟨_, _, run_bind_ok hdrop, .failed failure hothers h₁⟩
    | .ok true =>
      rcases hcopy : copyOut.run e₁.machine.store with ⟨answer, store⟩
      cases answer with
      | ok => exact ⟨_, _, run_bind_ok (edit_run hcopy), .returned _ hothers (h₁.work store)⟩
      | error failure =>
        exact ⟨_, _, run_bind_error (edit_run hcopy), .failed failure hothers (h₁.work store)⟩
  · rw [hanswer]
    exact ⟨_, _, rfl, .blocked hblocked⟩

/-- A call in progress goes on, and ends at once, unless it waits for a rank that has still to issue its call. -/
theorem Attached.advance (hr : rank < n) {o : Ongoing}
    (ha : Attached n rank l groups (references + o.references) e) :
    ∃ answer e', o.advance.run e = (answer, e') ∧ Advanced n rank l groups references e answer e' := by
  cases o with
  | returned h => exact ⟨_, _, rfl, .returned h (fun _ _ => rfl) ha⟩
  | staged h copyOut => exact Attached.completeNow hr ha copyOut
  | meeting request =>
    obtain ⟨answer, e₁, hask, hothers, h₁, hanswer⟩ := Attached.ask hr ha request
    have hwait : (Engine.enter "barrier" (e.substrate.wait request)).run e = _ :=
      enter_run (by rwa [Engine.substrate, ha.substrate]) "barrier"
    unfold Ongoing.advance
    rw [run_get_bind]
    rcases hanswer with rfl | ⟨cause, rfl⟩ | ⟨rfl, rfl, hblocked⟩
    · exact ⟨_, _, run_bind_ok hwait, .returned _ hothers h₁⟩
    · exact ⟨_, _, run_bind_error hwait, .failed _ hothers h₁⟩
    · exact ⟨_, _, run_bind_ok hwait, .blocked hblocked⟩

end Calls

end Collectives
