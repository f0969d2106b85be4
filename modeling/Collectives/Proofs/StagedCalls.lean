import Collectives.Proofs.StagedPlans

/-!
# All or nothing

A collective that stages its results waits within the call. Over any substrate, and whatever comes of its steps, the
outputs are as they were until the request is heard to be done, and then each is copied out from its part of the region.
A failure at issue or from the wait is the error of the call, which leaves nothing pending. Only where the request does
not report, because the substrate gave up or the environment was finalized, the call ends with a handle that is pending
still, and that ends the process.
-/

namespace Collectives

variable {τ : Type}

/-! ## Memory that is spared -/

/-- A later memory in which some buffers read as before. -/
structure Heap.Spares (buffers : List Buffer) (h h' : Heap) : Prop where
  later : h.Extends h'
  kept : ∀ b ∈ buffers, ∀ block pos, b.Holds block pos → h'.byte? block pos = h.byte? block pos

namespace Heap.Spares

variable {buffers : List Buffer} {h h' h'' : Heap}

theorem refl (buffers : List Buffer) (h : Heap) : Heap.Spares buffers h h := ⟨.refl h, fun _ _ _ _ _ => rfl⟩

theorem trans (h₁ : Heap.Spares buffers h h') (h₂ : Heap.Spares buffers h' h'') : Heap.Spares buffers h h'' :=
  ⟨h₁.later.trans h₂.later, fun b hb block pos hh => (h₂.kept b hb block pos hh).trans (h₁.kept b hb block pos hh)⟩

/-- Memory that only grows spares the buffers that are there. -/
theorem of_grows (hs : ∀ b ∈ buffers, b.Sound h) (hx : h.Extends h') (hg : h.Grows h') : Heap.Spares buffers h h' :=
  ⟨hx, fun b hb block pos hh => hg.kept block pos ((hs b hb).lt_size hh)⟩

end Heap.Spares

/-! ## Calls in progress -/

/-- What comes of a call in progress from an engine on, as long as it is blocked: other things happen, and the call is
taken further in vain. What this does to memory is in a relation. -/
inductive Ongoing.Lasts (o : Ongoing) (r : Heap → Heap → Prop) (e₀ : Engine τ) : Engine τ → Prop where
  | begun : Lasts o r e₀ e₀
  | meanwhile {e e' : Engine τ} (lasts : Lasts o r e₀ e) (within : r e.machine.store.heap e'.machine.store.heap) :
    Lasts o r e₀ e'
  | blocked {e e' : Engine τ} (lasts : Lasts o r e₀ e) (advance : o.advance.run e = (.ok none, e'))
    (within : r e.machine.store.heap e'.machine.store.heap) : Lasts o r e₀ e'

/-- While a call lasts, buffers stay spared that each step spares. -/
theorem Ongoing.Lasts.spares {o : Ongoing} {buffers : List Buffer} {e₀ e : Engine τ}
    (h : o.Lasts (Heap.Spares buffers) e₀ e) : Heap.Spares buffers e₀.machine.store.heap e.machine.store.heap := by
  induction h with
  | begun => exact .refl ..
  | meanwhile _ within ih => exact ih.trans within
  | blocked _ _ within ih => exact ih.trans within

/-- How a staged call is taken further, by what is heard from its request. -/
def Handle.Proceeds (h : Handle) (request : Nat) (copyOut : CopyOut) (e : Engine τ)
    (answer : Except Failure (Option Handle)) (e' : Engine τ) : Prop :=
  let waited := (h.wait e).1
  let left := (h.wait e).2
  match e.hears (e.environment.substrate.wait request) with
  | .notYet => waited.handle = h ∧ answer = .ok none ∧ e' = left
  -- The handle is completed, so nothing is pending any more.
  | .failed cause => waited.handle = .completed h.operation ∧
    answer = .error (.error (.substrate h.operation cause.message)) ∧ e' = left
  | .done => waited.handle = .completed h.operation ∧
    ∃ copied store, copyOut.run.run left.machine.store = (copied, store) ∧
      answer = copied.map (fun _ => some (.completed h.operation)) ∧
      e' = { left with machine := { left.machine with store } }
  -- The request has not reported, and the handle is pending still.
  | .closed | .gaveUp _ => waited.handle = h ∧ answer = .error (.abort h.operation) ∧
    e'.machine.store.heap = left.machine.store.heap

/-- A staged call proceeds by what is heard from its request, and in no other way. -/
theorem Handle.completeNow_proceeds {h : Handle} {request : Nat} (hp : h.pending = some request) (copyOut : CopyOut)
    {e e' : Engine τ} {answer : Except Failure (Option Handle)} (hrun : (h.completeNow copyOut).run e = (answer, e')) :
    h.Proceeds request copyOut e answer e' := by
  have hmaking : (h.wait e).1 = h.making (e.hears (e.environment.substrate.wait request)) :=
    (congrArg Prod.fst (wait_eq hp rfl)).trans (absorb_attempt ..)
  rcases hwait : h.wait e with ⟨waited, left⟩
  have hlift : ((h.wait : StateM (Engine τ) Progress) : Act τ Progress).run e = (.ok waited, left) :=
    congrArg (fun a : Progress × Engine τ => (Except.ok a.1, a.2)) hwait
  rw [hwait] at hmaking
  unfold completeNow at hrun
  rw [run_bind_ok hlift] at hrun
  unfold Proceeds
  rw [hwait]
  dsimp only at hmaking ⊢
  subst hmaking
  -- A handle that is completed is dropped without a word, a pending one is not.
  have hquiet {failure : Failure} :
      (do (completed h.operation).drop; throw failure : Act τ (Option Handle)).run left = (.error failure, left) := rfl
  have hpending : h.isPending = true := by rw [isPending, hp, Option.isSome_some]
  have habort {failure : Failure} : (do h.drop; throw failure : Act τ (Option Handle)).run left =
      (.error (.abort h.operation), left.log .error .handle
        s!"{h.operation} handle dropped while its request is outstanding; aborting") := by
    unfold drop
    rw [hpending]
    rfl
  cases hheard : e.hears (e.environment.substrate.wait request) with
  | notYet =>
    rw [hheard] at hrun
    cases hrun
    exact ⟨rfl, rfl, rfl⟩
  | failed cause =>
    rw [hheard] at hrun
    cases hquiet.symm.trans hrun
    exact ⟨rfl, rfl, rfl⟩
  | done =>
    rw [hheard] at hrun
    rcases hcopy : copyOut.run.run left.machine.store with ⟨copied, store⟩
    refine ⟨rfl, copied, store, rfl, ?_⟩
    cases copied with
    | ok =>
      cases (run_bind_ok (edit_run hcopy)).symm.trans hrun
      exact ⟨rfl, rfl⟩
    | error failure =>
      cases (run_bind_error (edit_run hcopy)).symm.trans hrun
      exact ⟨rfl, rfl⟩
  | closed =>
    rw [hheard] at hrun
    cases habort.symm.trans hrun
    exact ⟨rfl, rfl, rfl⟩
  | gaveUp cause =>
    rw [hheard] at hrun
    cases habort.symm.trans hrun
    exact ⟨rfl, rfl, rfl⟩

/-! ## From the plan to the end -/

/-- The handle that a planned call waits with. -/
def Plan.handle (p : Plan) (request : Nat) : Handle :=
  { operation := p.operation, pending := some request, retained := p.retained }

/-- The step of the substrate that issues a planned call. -/
def Group.issuing (g : Group) (p : Plan) (tensor : String) (e : Engine τ) : Native τ Nat := do
  e.substrate.issue g.comm (← p.call) (e.environment.config.attributes tensor)

/-- A collective that is planned to stage its results, from its issue to its end. -/
structure Group.AllOrNothing (g : Group) (what : Collective Buffer) (tensor : String) (e : Engine τ) (p : Plan)
    (store : Store) (region : Buffer) (copyOut : CopyOut) : Prop where
  stages : p.Stages what.outputs region copyOut e.machine.store store
  /-- The substrate is given no destination in an output. -/
  outOfReach : ∀ call, p.call = .ok call → ∀ start ∈ call.destinations, ∀ b ∈ what.outputs, ∀ block pos,
    b.Holds block pos → start.block ≠ some block
  /-- Planning spares the outputs. -/
  spared : Heap.Spares what.outputs e.machine.store.heap store.heap
  /-- A call that is not issued ends with that error, and nothing else is done. -/
  refused : ∀ denial e', Engine.attempt (g.issuing p tensor e) { e with machine := { e.machine with store } } =
      (.error denial, e') →
    (g.dispatch what tensor).run e = (.error (denial.failure p.operation), e') ∧
      (Heap.Spares what.outputs store.heap e'.machine.store.heap →
        Heap.Spares what.outputs e.machine.store.heap e'.machine.store.heap)
  /-- A call that is issued is in progress. -/
  issued : ∀ request e', Engine.attempt (g.issuing p tensor e) { e with machine := { e.machine with store } } =
      (.ok request, e') →
    (g.dispatch what tensor).run e = (.ok (.staged (p.handle request) copyOut), e'.acquire)
  /-- It proceeds by what is heard from its request. -/
  proceeds : ∀ request (e₁ : Engine τ) answer e₂,
    (Ongoing.staged (p.handle request) copyOut).advance.run e₁ = (answer, e₂) →
      (p.handle request).Proceeds request copyOut e₁ answer e₂
  /-- Once the request is heard to be done, the call returns a handle that is completed, unless the place of a row
  overflows. Outputs that are apart have got their parts of the region, and nothing else was changed by that. -/
  copied : ∀ request (e₁ : Engine τ) answer e₂,
    (Ongoing.staged (p.handle request) copyOut).advance.run e₁ = (answer, e₂) →
    e₁.hears (e₁.environment.substrate.wait request) = .done →
    let left := ((p.handle request).wait e₁).2
    store.heap.Extends left.machine.store.heap →
      (answer = .ok (some (.completed p.operation)) ∨ answer = .error (.fault .mulOverflow) ∧ g.Overflows what) ∧
      (what.outputs.Pairwise Buffer.Apart → ∀ (i : Nat) b, what.outputs[i]? = some b → b.words e₂.machine.store.heap =
        (region.stretch (elementsBefore what.outputs i) b.count).words left.machine.store.heap) ∧
      ∀ block pos, (∀ b ∈ what.outputs, ¬b.Holds block pos) →
        e₂.machine.store.heap.byte? block pos = left.machine.store.heap.byte? block pos
  /-- As long as the request is not heard to be done, the outputs are as they were before the call, if the steps of the
  substrate and whatever else happens spare them. -/
  untouched : ∀ request e', Engine.attempt (g.issuing p tensor e) { e with machine := { e.machine with store } } =
      (.ok request, e') →
    Heap.Spares what.outputs store.heap e'.machine.store.heap →
    ∀ e₁, (Ongoing.staged (p.handle request) copyOut).Lasts (Heap.Spares what.outputs) e'.acquire e₁ →
    Heap.Spares what.outputs e₁.machine.store.heap ((p.handle request).wait e₁).2.machine.store.heap →
    e₁.hears (e₁.environment.substrate.wait request) ≠ .done →
    ∀ answer e₂, (Ongoing.staged (p.handle request) copyOut).advance.run e₁ = (answer, e₂) →
      Heap.Spares what.outputs e.machine.store.heap e₂.machine.store.heap

namespace Group

variable {g : Group} {what : Collective Buffer} {tensor : String} {e e' : Engine τ} {p : Plan} {store : Store}

/-- A call that is not done yet, or failed, or ends the process has left memory as the wait did. -/
theorem heap_of_proceeds {h : Handle} {request : Nat} {copyOut : CopyOut} {answer : Except Failure (Option Handle)}
    (hp : h.Proceeds request copyOut e answer e') (hheard : e.hears (e.environment.substrate.wait request) ≠ .done) :
    e'.machine.store.heap = (h.wait e).2.machine.store.heap := by
  unfold Handle.Proceeds at hp
  dsimp only at hp
  cases hx : e.hears (e.environment.substrate.wait request) with
  | done => exact absurd hx hheard
  | notYet =>
    rw [hx] at hp
    exact congrArg (·.machine.store.heap) hp.2.2
  | failed cause =>
    rw [hx] at hp
    exact congrArg (·.machine.store.heap) hp.2.2
  | closed =>
    rw [hx] at hp
    exact hp.2.2
  | gaveUp cause =>
    rw [hx] at hp
    exact hp.2.2

/-- A planned call that is issued is in progress, if it stages its results. -/
theorem dispatch_staged (hplan : (g.plan what).run e.machine.store = (.ok p, store)) {copyOut : CopyOut}
    (hcopy : p.copyOut = some copyOut) {request : Nat} (hissue : Engine.attempt (g.issuing p tensor e)
      { e with machine := { e.machine with store } } = (.ok request, e')) :
    (g.dispatch what tensor).run e = (.ok (.staged (p.handle request) copyOut), e'.acquire) := by
  have hrun : (g.issue p tensor).run { e with machine := { e.machine with store } } = (.ok request, e') := by
    unfold issue
    rw [run_get_bind]
    exact enter_run hissue p.operation
  unfold dispatch
  rw [run_bind_ok (edit_run hplan), run_bind_ok hrun, run_modify_bind, hcopy]
  rfl

/-- However planning ends, the outputs are as they were. -/
theorem plan_spares (hs : ∀ b ∈ what.operands, b.Sound e.machine.store.heap) {planned : Except Failure Plan}
    (hplan : (g.plan what).run e.machine.store = (planned, store)) :
    Heap.Spares what.outputs e.machine.store.heap store.heap :=
  .of_grows (fun b hb => hs b (Collective.mem_operands hb)) ((g.plan_extends what).of_run hplan)
    ((g.plan_grows what).of_run hplan)

/-- A collective that stages its results and is planned is all or nothing. -/
theorem Stages.allOrNothing (hstages : g.Stages what) (hs : ∀ b ∈ what.operands, b.Sound e.machine.store.heap)
    (hbounded : e.machine.store.heap.Bounded) (hplan : (g.plan what).run e.machine.store = (.ok p, store))
    (tensor : String) : ∃ region copyOut, g.AllOrNothing what tensor e p store region copyOut := by
  have hspared := plan_spares hs hplan
  obtain ⟨region, copyOut, hstaged⟩ := exists_stages hstages hs hbounded hplan
  have hproceeds : ∀ request (e₁ : Engine τ) answer e₂,
      (Ongoing.staged (p.handle request) copyOut).advance.run e₁ = (answer, e₂) →
        (p.handle request).Proceeds request copyOut e₁ answer e₂ := fun request e₁ answer e₂ hrun =>
    Handle.completeNow_proceeds rfl copyOut hrun
  refine ⟨region, copyOut, hstaged, fun call hcall start hmem b hb block pos hh => ?_, hspared,
    fun denial e' hdenied => ⟨dispatch_unissued hplan hdenied, hspared.trans⟩,
    fun request e' => dispatch_staged hplan hstaged.staged, hproceeds,
    fun request e₁ answer e₂ hrun hheard hx => ?_,
    fun request e' hissue hissued e₁ hlasts hwaited hheard answer e₂ hrun => ?_⟩
  · -- The start of the region is in its block, which was not there when the outputs were.
    have hold := (hs b (Collective.mem_operands hb)).lt_size hh
    have hnew := hstaged.made
    obtain ⟨start', haddress, hdestinations⟩ := hstaged.destination call hcall
    rw [hdestinations, List.mem_singleton] at hmem
    subst hmem
    intro hblock
    have hregion := Buffer.block_of_address haddress hblock
    omega
  · have hdone := hproceeds request e₁ answer e₂ hrun
    unfold Handle.Proceeds at hdone
    rw [hheard] at hdone
    obtain ⟨-, copied, store', hcopy, rfl, rfl⟩ := hdone
    have hends := copiesOut hs hbounded hplan hstaged.staged hx
    have hparts := hstaged.parts _ hx
    have hkept := hstaged.kept _ hx
    rw [hcopy] at hends hparts hkept
    refine ⟨?_, hparts, hkept⟩
    rcases hends with rfl | ⟨rfl, hoverflows⟩
    · exact .inl rfl
    · exact .inr ⟨rfl, hoverflows⟩
  · rw [heap_of_proceeds (hproceeds request e₁ answer e₂ hrun) hheard]
    exact ((hspared.trans hissued).trans hlasts.spares).trans hwaited

/-- Over any substrate, a collective that stages its results is refused while planning, with its outputs as they were,
or else it is all or nothing. -/
theorem staged_all_or_nothing (g : Group) (what : Collective Buffer) (tensor : String) (e : Engine τ)
    (hstages : g.Stages what) (hsize : 0 < g.size) (hobtained : ∀ b ∈ what.operands, Obtained e.machine.store b)
    (hbounded : e.machine.store.heap.Bounded) :
    (∀ failure store, (g.plan what).run e.machine.store = (.error failure, store) →
      (g.dispatch what tensor).run e = (.error failure, { e with machine := { e.machine with store } }) ∧
        (∀ operation, failure ≠ .abort operation) ∧
        Heap.Spares what.outputs e.machine.store.heap store.heap) ∧
    ∀ p store, (g.plan what).run e.machine.store = (.ok p, store) →
      ∃ region copyOut, g.AllOrNothing what tensor e p store region copyOut := by
  have hs : ∀ b ∈ what.operands, b.Sound e.machine.store.heap := fun b hb => (hobtained b hb).sound
  refine ⟨fun failure store hplan => ⟨dispatch_unplanned hplan, ?_, plan_spares hs hplan⟩,
    fun p store hplan => hstages.allOrNothing hs hbounded hplan tensor⟩
  rintro operation rfl
  have hsettles := plan_settles hsize hs hbounded
  rw [hplan] at hsettles
  exact hsettles

/-- The root of a gather, whose outputs are in disorder. -/
def scriptedGather : Collective Buffer := .gather [Assembly.pairOuts] [pairPart 0 0 1] 0

/-- The root's engine over a scripted substrate, which moves no data, with what the wait for the request comes to. -/
def scriptedRoot (ending : Cue) : Engine Script where
  environment := { substrate := Script.substrate "scripted", config := {}, holders := 2 }
  machine := { store := { heap := pairHeap }, net := { size := 2, calls := [{ ending := [ending] }] } }

/-- What the call answers, and what is in the outputs then. -/
def scriptedAnswer (ending : Cue) : Except Failure (Option Handle) × List (List Nat) :=
  let (answer, left) := ((pairGroup 0).dispatch scriptedGather "parts" >>= Ongoing.advance).run (scriptedRoot ending)
  (answer, Assembly.pairOuts.map (·.words left.machine.store.heap))

/-- The request fails, the substrate gives up on it, or it is done and the outputs get the zeros of the region. -/
theorem staged_all_or_nothing_scripted :
    (∃ p store, ∀ ending, ∃ region copyOut,
      (pairGroup 0).AllOrNothing scriptedGather "parts" (scriptedRoot ending) p store region copyOut) ∧
    scriptedAnswer (.refuse "peer lost") = (.error (.error (.substrate "gather" "peer lost")), [[2], [1]]) ∧
    scriptedAnswer (.raise "transport lost") = (.error (.abort "gather"), [[2], [1]]) ∧
    scriptedAnswer .succeed = (.ok (some (.completed "gather")), [[0], [0]]) := by
  have hstages : (pairGroup 0).Stages scriptedGather := by
    refine ⟨rfl, ?_⟩
    rintro ⟨block, start, hlie⟩
    obtain ⟨-, -, hfirst⟩ := hlie 0 (pairPart 0 1 1) rfl (by decide)
    obtain ⟨-, -, hsecond⟩ := hlie 1 (pairPart 0 0 1) rfl (by decide)
    change 1 = start + 0 at hfirst
    change 0 = start + 1 at hsecond
    omega
  have hoperands : ∀ b ∈ scriptedGather.operands, Obtained { heap := pairHeap } b := by
    intro b hmem
    have hsame : b = pairPart 0 1 1 ∨ b = pairPart 0 0 1 := by
      simpa [scriptedGather, Collective.operands, Assembly.pairOuts] using hmem
    obtain rfl | rfl := hsame
    · exact obtained_pairPart Nat.two_pos (by decide)
    · exact obtained_pairPart Nat.two_pos (by decide)
  obtain ⟨p, store, hplan⟩ : ∃ p store, ((pairGroup 0).plan scriptedGather).run { heap := pairHeap } = (.ok p, store) :=
    ⟨_, _, rfl⟩
  refine ⟨⟨p, store, fun ending => ?_⟩, ?_, ?_, ?_⟩
  · have hall := (pairGroup 0).staged_all_or_nothing scriptedGather "parts" (scriptedRoot ending) hstages Nat.two_pos
      hoperands pairHeap_bounded
    exact hall.2 p store hplan
  · rfl
  · rfl
  · decide +kernel

end Group

end Collectives
