import Collectives.Proofs.EngineSteps
import Collectives.Substrate.Script

/-!
# The life of an environment

An environment is asked for its communicator over all ranks, to take substrate steps, to make and give back
communicators and to finalize, in any order, over a substrate that succeeds, fails or gives up in any pattern. What is
done to the substrate is written down by watching it. The record then shows that the communicator over all ranks is
made once, that nothing which fails changes the environment, and that the substrate is given back once, after that
communicator, and not used again.
-/

namespace Collectives

variable {τ α : Type}

/-! ## Substrates that are watched -/

/-- What is done to a substrate. -/
inductive Deed where
  /-- It is asked for a communicator, and this comes of it. -/
  | creation (made : Except Refusal Communicator)
  /-- A communicator is given back. -/
  | release (comm : Communicator)
  /-- A step is taken under the lock. -/
  | closure
  /-- The substrate is given back. -/
  | finalization

/-- What a watched substrate keeps: what it would keep anyway, and what was done to it, oldest first. -/
structure Watched (τ : Type) where
  net : τ
  deeds : List Deed

/-- The machine without the record. -/
def Machine.unwatched (m : Machine (Watched τ)) : Machine τ := { store := m.store, net := m.net.net }

/-- The machine with a record. -/
def Machine.watched (m : Machine τ) (deeds : List Deed) : Machine (Watched τ) :=
  { store := m.store, net := { net := m.net, deeds } }

/-- A step that is written down however it ends. -/
def Native.watched (deed : Except Refusal α → Deed) (step : Native τ α) : Native (Watched τ) α := ExceptT.mk fun m =>
  let (answer, m') := step.run m.unwatched
  (answer, m'.watched (m.net.deeds ++ [deed answer]))

/-- A substrate that behaves as another one and writes down what is done to it. -/
def Substrate.watched (s : Substrate τ) : Substrate (Watched τ) where
  name := s.name
  create := s.create.watched .creation
  release comm m := (s.release comm m.unwatched).watched (m.net.deeds ++ [.release comm])
  issue comm call attr := (s.issue comm call attr).within Watched.net fun net w => { w with net }
  barrier comm := (s.barrier comm).within Watched.net fun net w => { w with net }
  test request := (s.test request).within Watched.net fun net w => { w with net }
  wait request := (s.wait request).within Watched.net fun net w => { w with net }
  finalize m := (s.finalize m.unwatched).watched (m.net.deeds ++ [.finalization])

/-! ## Histories -/

/-- What can be asked of an environment. -/
inductive Demand (τ α : Type) where
  /-- Rank and size among all ranks. -/
  | initOnce
  /-- A step under the lock. -/
  | enter (site : String) (step : Native τ α)
  /-- A communicator. -/
  | create
  /-- To take a communicator back. -/
  | release (comm : Communicator)
  /-- To give the substrate back. -/
  | finalize
  /-- Whether that was done. -/
  | isFinalized
  /-- Nothing; meanwhile memory and the substrate change. -/
  | meanwhile (change : Machine τ → Machine τ)

/-- What an environment answers. -/
inductive Given (α : Type) where
  | view (rank size : Nat)
  | value (a : α)
  | communicator (comm : Communicator)
  | flag (b : Bool)
  | done

/-- One demand on an environment, with the engine before and after. -/
structure Served (τ α : Type) where
  demand : Demand τ α
  found : Engine (Watched τ)
  answer : Except Failure (Given α)
  left : Engine (Watched τ)

/-- What comes of a demand. -/
def Demand.serve (e : Engine (Watched τ)) : Demand τ α → Except Failure (Given α) × Engine (Watched τ)
  | .initOnce =>
    let (answer, left) := Engine.initOnce.run e
    (answer.map fun view => .view view.1 view.2, left)
  | .enter site step =>
    let (answer, left) := (Engine.enter site (step.watched fun _ => .closure)).run e
    (answer.map .value, left)
  | .create =>
    let (answer, left) := Engine.createCommunicator.run e
    (answer.map .communicator, left)
  | .release comm => (.ok .done, e.releaseCommunicator comm)
  | .finalize => (.ok .done, e.finalize)
  | .isFinalized => (.ok (.flag e.environment.finalized), e)
  | .meanwhile change =>
    (.ok .done, { e with machine := (change e.machine.unwatched).watched e.machine.net.deeds })

/-- A demand that is served. -/
def Demand.served (demand : Demand τ α) (e : Engine (Watched τ)) : Served τ α :=
  { demand, found := e, answer := (demand.serve e).1, left := (demand.serve e).2 }

/-- Demands that are served one after the other. -/
def Engine.chronicle (e : Engine (Watched τ)) : List (Demand τ α) → List (Served τ α)
  | [] => []
  | demand :: demands => demand.served e :: (demand.served e).left.chronicle demands

/-- A new environment over a watched substrate. -/
def Substrate.unused (s : Substrate τ) (config : Config) (m : Machine τ) : Engine (Watched τ) :=
  { environment := { substrate := s.watched, config }, machine := m.watched [] }

/-- Whether it is asked to give the substrate back. -/
def Demand.closes : Demand τ α → Bool
  | .finalize => true
  | _ => false

namespace Served

/-- What serving the demand added to the record. -/
def deeds (c : Served τ α) : List Deed := c.left.machine.net.deeds.drop c.found.machine.net.deeds.length

/-- The communicator over all ranks, if it was this demand for which it was made. -/
def world? (c : Served τ α) : Option Communicator :=
  match c.demand, c.deeds with
  | .initOnce, [.creation (.ok comm)] => some comm
  | _, _ => none

end Served

/-- The communicator over all ranks, if it was made for one of the demands. -/
def worldOf (past : List (Served τ α)) : Option Communicator := past.findSome? Served.world?

/-- Nothing is done, and the answer is that the environment is not there any more. -/
def Served.Denied (c : Served τ α) : Prop := c.answer = .error (.error .notInitialized) ∧ c.left = c.found

/-- How a demand is met, according to whether the communicator over all ranks was made and the substrate given back:
what is answered, what is done to the substrate, and what is left of the environment. -/
def Served.Met (c : Served τ α) (made : Option Communicator) (closed : Bool) : Prop :=
  match c.demand with
  | .initOnce =>
    match made, closed with
    -- What was made is only reported, also when it was given back.
    | some comm, _ => c.answer = .ok (.view comm.rank comm.size) ∧ c.left = c.found
    | none, true => c.Denied
    -- One attempt is made.
    | none, false => ∃ outcome, c.deeds = [.creation outcome] ∧
      match outcome with
      | .ok comm => c.answer = .ok (.view comm.rank comm.size) ∧ c.left.environment =
        { c.found.environment with world := some comm, view := some (comm.rank, comm.size) }
      | .error cause => c.answer = .error ((Denial.refused cause).failure "world communicator") ∧
        c.left.environment = c.found.environment
  | .enter site step =>
    if closed then c.Denied
    -- Whatever failed before, the lock is free and the step is taken.
    else c.deeds = [.closure] ∧ c.left.environment = c.found.environment ∧ c.answer =
      ((step.run c.found.machine.unwatched).1.mapError fun cause => (Denial.refused cause).failure site).map .value
  | .create =>
    if closed then c.Denied
    else ∃ outcome, c.deeds = [.creation outcome] ∧ c.left.environment = c.found.environment ∧ c.answer =
      (outcome.mapError fun cause => (Denial.refused cause).failure "communicator").map .communicator
  | .release comm => c.answer = .ok .done ∧ c.deeds = [.release comm] ∧ c.left.environment = c.found.environment
  | .finalize => c.answer = .ok .done ∧
    if closed then c.left = c.found
    -- The communicator over all ranks is given back first.
    else c.deeds = made.toList.map .release ++ [.finalization] ∧
      c.left.environment = { c.found.environment with world := none, finalized := true }
  | .isFinalized => c.answer = .ok (.flag closed) ∧ c.left = c.found
  | .meanwhile _ => c.answer = .ok .done ∧ c.deeds = [] ∧ c.left.environment = c.found.environment

/-- A group that is asked for once the substrate is given back: it is not made and nothing is done. Where it is
expected to have another rank or size than the communicator over all ranks had, that is the error. -/
def Engine.RefusesGroups (made : Option Communicator) (e : Engine (Watched τ)) : Prop := ∀ expected,
  ((∀ comm, made = some comm → expected.check comm.rank comm.size = .ok ()) →
    (Group.create expected).run e = (.error (.error .notInitialized), e)) ∧
  ∀ comm failure, made = some comm → expected.check comm.rank comm.size = .error failure →
    (Group.create expected).run e = (.error failure, e)

/-- An environment over a watched substrate, with the communicator over all ranks if it was made, and whether the
substrate was given back. -/
structure Engine.Standing (s : Substrate τ) (made : Option Communicator) (closed : Bool) (e : Engine (Watched τ)) :
    Prop where
  substrate : e.environment.substrate = s.watched
  view : e.environment.view = made.map fun comm => (comm.rank, comm.size)
  /-- The communicator is kept until it is given back. -/
  world : e.environment.world = if closed then none else made
  finalized : e.environment.finalized = closed

/-- What a record says: the substrate is given back at most once, right after the communicator over all ranks, and
from then on only communicators are given back. -/
def Recorded (made : Option Communicator) (closed : Bool) (deeds : List Deed) : Prop :=
  if closed then ∃ before after, deeds = before ++ made.toList.map .release ++ .finalization :: after ∧
    .finalization ∉ before ∧ ∀ deed ∈ after, ∃ comm, deed = .release comm
  else .finalization ∉ deeds

/-! ## One demand -/

section Steps

variable {s : Substrate τ} {made : Option Communicator} {closed : Bool} {e : Engine (Watched τ)}

/-- A watched step that is taken is written down, and its outcome is the answer. -/
theorem enter_watched (hf : e.environment.finalized = false) {step : Native τ α} {answer : Except Refusal α}
    {m : Machine τ} (h : step.run e.machine.unwatched = (answer, m)) (site : String)
    (deed : Except Refusal α → Deed) : (Engine.enter site (step.watched deed)).run e =
      (answer.mapError fun cause => (Denial.refused cause).failure site,
        { e with machine := m.watched (e.machine.net.deeds ++ [deed answer]) }) := by
  have hstep : (step.watched deed).run e.machine =
      ((step.run e.machine.unwatched).1, (step.run e.machine.unwatched).2.watched
        (e.machine.net.deeds ++ [deed (step.run e.machine.unwatched).1])) := rfl
  rw [enter_run (attempt_eq hf _), hstep, h]
  cases answer <;> rfl

/-- As long as it was not made, one attempt at it is made, and only its success changes the environment. -/
theorem initOnce_watched (he : e.Standing s none false) :
    ∃ outcome answer left, (Engine.initOnce : Act (Watched τ) _).run e = (answer, left) ∧
      left.machine.net.deeds = e.machine.net.deeds ++ [.creation outcome] ∧
      match outcome with
      | .ok comm => answer = .ok (comm.rank, comm.size) ∧ left.environment =
        { e.environment with world := some comm, view := some (comm.rank, comm.size) }
      | .error cause => answer = .error ((Denial.refused cause).failure "world communicator") ∧
        left.environment = e.environment := by
  rcases hrun : s.create.run e.machine.unwatched with ⟨outcome, m⟩
  have henter := enter_watched he.finalized hrun "world communicator" .creation
  have hcreate : e.substrate.create = s.create.watched .creation := congrArg Substrate.create he.substrate
  rw [← hcreate] at henter
  unfold Engine.initOnce
  rw [run_get_bind, he.view]
  cases outcome with
  | ok comm => exact ⟨.ok comm, _, _, run_bind_ok henter, rfl, rfl, rfl⟩
  | error cause => exact ⟨.error cause, _, _, run_bind_error henter, rfl, rfl, rfl⟩

/-- Once the substrate is given back no group is made. -/
theorem Engine.Standing.refusesGroups (he : e.Standing s made true) : e.RefusesGroups made := by
  intro expected
  constructor
  · intro hcheck
    unfold Group.create
    cases made with
    | none => exact run_bind_error (initOnce_finalized he.view he.finalized)
    | some comm =>
      rw [run_bind_ok (initOnce_made he.view)]
      refine (run_check_bind (hcheck comm rfl) _ e).trans (run_bind_error ?_)
      unfold Engine.createCommunicator
      rw [run_get_bind]
      exact enter_finalized he.finalized _ _
  · rintro comm failure rfl hcheck
    unfold Group.create
    rw [run_bind_ok (initOnce_made he.view)]
    exact run_check_bind_error hcheck _ e

/-! ### How it is met -/

theorem Served.deeds_eq {c : Served τ α} {deeds : List Deed}
    (h : c.left.machine.net.deeds = c.found.machine.net.deeds ++ deeds) : c.deeds = deeds := by
  rw [Served.deeds, h, List.drop_left]

/-- A demand that leaves the record as it was. -/
theorem Served.deeds_nil {c : Served τ α} (h : c.left = c.found) : c.deeds = [] := by
  rw [Served.deeds, h, List.drop_length]

/-- Giving a watched substrate back gives the communicator over all ranks back first. -/
theorem finalize_deeds (hs : e.environment.substrate = s.watched) (hf : e.environment.finalized = false) :
    e.finalize.machine.net.deeds =
        e.machine.net.deeds ++ (e.environment.world.toList.map .release ++ [.finalization]) ∧
      e.finalize.environment = { e.environment with world := none, finalized := true } := by
  have hsubstrate : e.substrate = s.watched := hs
  unfold Engine.finalize
  rw [hf, if_neg Bool.false_ne_true]
  unfold Engine.releaseWorld
  cases hworld : e.environment.world with
  | none =>
    dsimp only
    rw [hsubstrate]
    refine ⟨rfl, ?_⟩
    rw [← hworld]
    rfl
  | some comm =>
    dsimp only [Engine.substrate, Engine.releaseCommunicator]
    rw [hs]
    refine ⟨?_, ?_⟩
    · exact List.append_assoc ..
    · rfl

theorem finalize_watched (he : e.Standing s made false) :
    e.finalize.machine.net.deeds = e.machine.net.deeds ++ (made.toList.map .release ++ [.finalization]) ∧
      e.finalize.environment = { e.environment with world := none, finalized := true } := by
  have hworld : e.environment.world = made := he.world
  have hdone := finalize_deeds he.substrate he.finalized
  rwa [hworld] at hdone

theorem Served.adds_of_deeds {c : Served τ α} {deeds : List Deed}
    (h : c.left.machine.net.deeds = c.found.machine.net.deeds ++ deeds) :
    c.left.machine.net.deeds = c.found.machine.net.deeds ++ c.deeds := by
  rw [Served.deeds_eq h, h]

theorem Served.adds_of_left {c : Served τ α} (h : c.left = c.found) :
    c.left.machine.net.deeds = c.found.machine.net.deeds ++ c.deeds := by
  rw [Served.deeds_nil h, h, List.append_nil]

namespace Engine.Standing

theorem met_initOnce (he : e.Standing s made closed) :
    ((Demand.initOnce : Demand τ α).served e).Met made closed ∧
      ((Demand.initOnce : Demand τ α).served e).left.machine.net.deeds =
        e.machine.net.deeds ++ ((Demand.initOnce : Demand τ α).served e).deeds := by
  have hserved {answer left} (h : (Engine.initOnce : Act (Watched τ) _).run e = (answer, left)) :
      (Demand.initOnce : Demand τ α).served e =
        { demand := .initOnce, found := e, answer := answer.map fun v => .view v.1 v.2, left } := by
    simp only [Demand.served, Demand.serve, h]
  match made, closed, he with
  | some comm, closed, he =>
    have hc := hserved (initOnce_made he.view)
    rw [hc]
    exact ⟨⟨rfl, rfl⟩, Served.adds_of_left rfl⟩
  | none, true, he =>
    have hc := hserved (initOnce_finalized he.view he.finalized)
    rw [hc]
    exact ⟨⟨rfl, rfl⟩, Served.adds_of_left rfl⟩
  | none, false, he =>
    obtain ⟨outcome, answer, left, hrun, hdeeds, houtcome⟩ := initOnce_watched he
    have hc := hserved hrun
    rw [hc]
    refine ⟨⟨outcome, Served.deeds_eq hdeeds, ?_⟩, Served.adds_of_deeds hdeeds⟩
    cases outcome with
    | ok comm =>
      obtain ⟨rfl, hleft⟩ := houtcome
      exact ⟨rfl, hleft⟩
    | error cause =>
      obtain ⟨rfl, hleft⟩ := houtcome
      exact ⟨rfl, hleft⟩

theorem met_enter (he : e.Standing s made closed) (site : String) (step : Native τ α) :
    ((Demand.enter site step).served e).Met made closed ∧ ((Demand.enter site step).served e).left.machine.net.deeds =
      e.machine.net.deeds ++ ((Demand.enter site step).served e).deeds := by
  have hserved {answer left} (h : (Engine.enter site (step.watched fun _ => .closure)).run e = (answer, left)) :
      (Demand.enter site step).served e =
        { demand := .enter site step, found := e, answer := answer.map .value, left } := by
    simp only [Demand.served, Demand.serve, h]
  cases closed with
  | true =>
    rw [hserved (enter_finalized he.finalized site _)]
    exact ⟨⟨rfl, rfl⟩, Served.adds_of_left rfl⟩
  | false =>
    rcases hrun : step.run e.machine.unwatched with ⟨answer, m⟩
    rw [hserved (enter_watched he.finalized hrun site fun _ => .closure)]
    refine ⟨⟨Served.deeds_eq rfl, rfl, ?_⟩, Served.adds_of_deeds rfl⟩
    dsimp only
    rw [hrun]

theorem met_create (he : e.Standing s made closed) :
    ((Demand.create : Demand τ α).served e).Met made closed ∧
      ((Demand.create : Demand τ α).served e).left.machine.net.deeds =
        e.machine.net.deeds ++ ((Demand.create : Demand τ α).served e).deeds := by
  have hcreate : e.substrate.create = s.create.watched .creation := congrArg Substrate.create he.substrate
  have hserved {answer left} (h : (Engine.enter "communicator" e.substrate.create).run e = (answer, left)) :
      (Demand.create : Demand τ α).served e =
        { demand := .create, found := e, answer := answer.map .communicator, left } := by
    have hrun : Engine.createCommunicator.run e = (answer, left) := h
    simp only [Demand.served, Demand.serve, hrun]
  cases closed with
  | true =>
    rw [hserved (enter_finalized he.finalized _ _)]
    exact ⟨⟨rfl, rfl⟩, Served.adds_of_left rfl⟩
  | false =>
    rcases hrun : s.create.run e.machine.unwatched with ⟨answer, m⟩
    rw [hcreate] at hserved
    rw [hserved (enter_watched he.finalized hrun "communicator" .creation)]
    exact ⟨⟨answer, Served.deeds_eq rfl, rfl, rfl⟩, Served.adds_of_deeds rfl⟩

/-- Every demand is met, and what is done to the substrate is added to the record. -/
theorem met (he : e.Standing s made closed) (demand : Demand τ α) :
    (demand.served e).Met made closed ∧ (demand.served e).left.machine.net.deeds =
      e.machine.net.deeds ++ (demand.served e).deeds := by
  cases demand with
  | initOnce => exact he.met_initOnce
  | enter site step => exact he.met_enter site step
  | create => exact he.met_create
  | release comm =>
    have hdeeds : (e.releaseCommunicator comm).machine.net.deeds = e.machine.net.deeds ++ [.release comm] := by
      rw [Engine.releaseCommunicator, Engine.substrate, he.substrate]
      rfl
    exact ⟨⟨rfl, Served.deeds_eq hdeeds, rfl⟩, Served.adds_of_deeds hdeeds⟩
  | finalize =>
    cases closed with
    | true =>
      have hleft : ((Demand.finalize : Demand τ α).served e).left = e := if_pos he.finalized
      exact ⟨⟨rfl, hleft⟩, Served.adds_of_left hleft⟩
    | false =>
      obtain ⟨hdeeds, hleft⟩ := finalize_watched he
      exact ⟨⟨rfl, Served.deeds_eq hdeeds, hleft⟩, Served.adds_of_deeds hdeeds⟩
  | isFinalized => exact ⟨⟨congrArg (fun b => Except.ok (Given.flag b)) he.finalized, rfl⟩, Served.adds_of_left rfl⟩
  | meanwhile change =>
    have hdeeds : ((Demand.meanwhile change : Demand τ α).served e).left.machine.net.deeds =
        e.machine.net.deeds ++ [] := (List.append_nil _).symm
    exact ⟨⟨rfl, Served.deeds_eq hdeeds, rfl⟩, Served.adds_of_deeds hdeeds⟩

end Engine.Standing

end Steps

/-! ## What one demand changes -/

/-- What a demand changes: nothing, or it is the one that makes the communicator over all ranks, or the one that gives
the substrate back. -/
inductive Served.Changes (c : Served τ α) (made : Option Communicator) (closed : Bool) : Prop where
  | nothing (environment : c.left.environment = c.found.environment) (world : made.or c.world? = made)
      (closes : (closed || c.demand.closes) = closed) (unfinished : .finalization ∉ c.deeds)
      (afterwards : closed = true → ∀ deed ∈ c.deeds, ∃ comm, deed = .release comm)
  | makes (comm : Communicator) (answer : c.answer = .ok (.view comm.rank comm.size))
      (environment : c.left.environment =
        { c.found.environment with world := some comm, view := some (comm.rank, comm.size) })
      (first : made = none) (world : c.world? = some comm) (stays : closed = false) (closes : c.demand.closes = false)
      (deeds : c.deeds = [.creation (.ok comm)])
  | closes (answer : c.answer = .ok .done)
      (environment : c.left.environment = { c.found.environment with world := none, finalized := true })
      (world : made.or c.world? = made) (first : closed = false) (closes : c.demand.closes = true)
      (deeds : c.deeds = made.toList.map .release ++ [.finalization])

namespace Served

variable {s : Substrate τ} {made : Option Communicator} {closed : Bool} {c : Served τ α}

/-- A demand that finds nothing to do changes nothing. -/
private theorem changes_of_left (hleft : c.left = c.found) (hcloses : (closed || c.demand.closes) = closed) :
    c.Changes made closed := by
  have hdeeds := deeds_nil hleft
  have hnone : c.world? = none := by
    unfold world?
    rw [hdeeds]
    cases c.demand <;> rfl
  refine .nothing (congrArg Engine.environment hleft) ?_ hcloses ?_ ?_
  · rw [hnone, Option.or_none]
  · rw [hdeeds]
    exact List.not_mem_nil
  · rw [hdeeds]
    exact fun _ deed hmem => absurd hmem List.not_mem_nil

/-- A demand that only adds a deed to the record changes nothing. -/
private theorem changes_of_deed {deed : Deed} (hleft : c.left.environment = c.found.environment)
    (hdeeds : c.deeds = [deed]) (hworld : c.world? = none) (hcloses : c.demand.closes = false)
    (hopen : deed ≠ .finalization) (hafter : closed = true → ∃ comm, deed = .release comm) : c.Changes made closed := by
  refine .nothing hleft ?_ ?_ ?_ ?_
  · rw [hworld, Option.or_none]
  · rw [hcloses, Bool.or_false]
  · rw [hdeeds, List.mem_singleton]
    exact hopen.symm
  · rw [hdeeds]
    intro hclosed other hmem
    rw [List.mem_singleton.mp hmem]
    exact hafter hclosed

/-- Every demand that is met changes one of these things. -/
theorem Met.changes (h : c.Met made closed) : c.Changes made closed := by
  obtain ⟨demand, found, answer, left⟩ := c
  cases demand with
  | initOnce =>
    match made, closed, h with
    | some comm, closed, h => exact changes_of_left h.2 (Bool.or_false closed)
    | none, true, h => exact changes_of_left h.2 rfl
    | none, false, ⟨.ok comm, hdeeds, hanswer, hleft⟩ =>
      refine .makes comm hanswer hleft rfl ?_ rfl rfl hdeeds
      unfold world?
      rw [hdeeds]
    | none, false, ⟨.error cause, hdeeds, _, hleft⟩ =>
      refine changes_of_deed hleft hdeeds ?_ rfl (by rintro ⟨⟩) (by rintro ⟨⟩)
      unfold world?
      rw [hdeeds]
  | enter site step =>
    cases closed with
    | true => exact changes_of_left h.2 rfl
    | false => exact changes_of_deed h.2.1 h.1 rfl rfl (by rintro ⟨⟩) (by rintro ⟨⟩)
  | create =>
    cases closed with
    | true => exact changes_of_left h.2 rfl
    | false =>
      obtain ⟨outcome, hdeeds, hleft, -⟩ := h
      exact changes_of_deed hleft hdeeds rfl rfl (by rintro ⟨⟩) (by rintro ⟨⟩)
  | release comm =>
    obtain ⟨-, hdeeds, hleft⟩ := h
    exact changes_of_deed hleft hdeeds rfl rfl (by rintro ⟨⟩) fun _ => ⟨comm, rfl⟩
  | finalize =>
    cases closed with
    | true => exact changes_of_left h.2 rfl
    | false =>
      obtain ⟨hanswer, hdeeds, hleft⟩ := h
      exact .closes hanswer hleft (Option.or_none ..) rfl rfl hdeeds
  | isFinalized => exact changes_of_left h.2 (Bool.or_false closed)
  | meanwhile change =>
    obtain ⟨-, hdeeds, hleft⟩ := h
    refine .nothing hleft (Option.or_none ..) (Bool.or_false closed) ?_ ?_
    · rw [hdeeds]
      exact List.not_mem_nil
    · rw [hdeeds]
      exact fun _ deed hmem => absurd hmem List.not_mem_nil

namespace Changes

/-- Whatever fails or gives up leaves the environment as it was. -/
theorem failed (h : c.Changes made closed) {failure : Failure} (hanswer : c.answer = .error failure) :
    c.left.environment = c.found.environment := by
  cases h with
  | nothing environment => exact environment
  | makes comm answer => cases hanswer.symm.trans answer
  | closes answer => cases hanswer.symm.trans answer

/-- What is left of the environment stands with what was made and whether the substrate was given back. -/
theorem standing (h : c.Changes made closed) (he : c.found.Standing s made closed) :
    c.left.Standing s (made.or c.world?) (closed || c.demand.closes) := by
  cases h with
  | nothing environment world closes =>
    rw [world, closes]
    exact ⟨environment ▸ he.substrate, environment ▸ he.view, environment ▸ he.world, environment ▸ he.finalized⟩
  | makes comm answer environment first world stays closes =>
    rw [first, world, stays, closes]
    constructor <;> rw [environment]
    · exact he.substrate
    · rfl
    · rfl
    · exact he.finalized.trans stays
  | closes answer environment world first closes =>
    rw [world, closes, Bool.or_true]
    constructor <;> rw [environment]
    · exact he.substrate
    · exact he.view
    · rfl

/-- The record stays one of a substrate that is given back at most once. -/
theorem recorded (h : c.Changes made closed) {deeds : List Deed} (hr : Recorded made closed deeds) :
    Recorded (made.or c.world?) (closed || c.demand.closes) (deeds ++ c.deeds) := by
  cases h with
  | nothing environment world closes unfinished afterwards =>
    rw [world, closes]
    cases closed with
    | true =>
      obtain ⟨before, after, rfl, hbefore, hafter⟩ := hr
      refine ⟨before, after ++ c.deeds, ?_, hbefore, ?_⟩
      · rw [List.append_assoc, List.cons_append]
      · intro deed hmem
        rcases List.mem_append.mp hmem with hmem | hmem
        · exact hafter deed hmem
        · exact afterwards rfl deed hmem
    | false =>
      intro hmem
      rcases List.mem_append.mp hmem with hmem | hmem
      · exact hr hmem
      · exact unfinished hmem
  | makes comm answer environment first world stays closes hdeeds =>
    rw [world, stays, closes, hdeeds]
    rw [stays] at hr
    intro hmem
    rcases List.mem_append.mp hmem with hmem | hmem
    · exact hr hmem
    · cases List.mem_singleton.mp hmem
  | closes answer environment world first closes hdeeds =>
    rw [world, closes, hdeeds, Bool.or_true]
    rw [first] at hr
    refine ⟨deeds, [], ?_, hr, by simp⟩
    rw [← List.append_assoc]

end Changes

end Served

/-! ## A whole life -/

/-- A demand that is served after others were: the environment stands as these left it, the demand is met, and the
record has what was done for all of them. -/
structure Served.Follows (c : Served τ α) (s : Substrate τ) (past : List (Served τ α)) : Prop where
  /-- The communicator over all ranks is the first that was made for it, and finalized means that it was once asked to
  finalize. -/
  standing : c.found.Standing s (worldOf past) (past.any (·.demand.closes))
  met : c.Met (worldOf past) (past.any (·.demand.closes))
  /-- Whatever fails or gives up leaves the environment as it was. -/
  failed : ∀ failure, c.answer = .error failure → c.left.environment = c.found.environment
  refusesGroups : past.any (·.demand.closes) = true → c.found.RefusesGroups (worldOf past)
  record : c.left.machine.net.deeds = (past ++ [c]).flatMap Served.deeds
  recorded : Recorded (worldOf (past ++ [c])) ((past ++ [c]).any (·.demand.closes)) c.left.machine.net.deeds

/-- Demands that are served after others. -/
private theorem Engine.Standing.follows {s : Substrate τ} {demands : List (Demand τ α)} {e : Engine (Watched τ)}
    {earlier past future : List (Served τ α)} {c : Served τ α}
    (he : e.Standing s (worldOf earlier) (earlier.any (·.demand.closes)))
    (hdeeds : e.machine.net.deeds = earlier.flatMap Served.deeds)
    (hr : Recorded (worldOf earlier) (earlier.any (·.demand.closes)) e.machine.net.deeds)
    (h : e.chronicle demands = past ++ c :: future) : c.Follows s (earlier ++ past) := by
  induction demands generalizing e earlier past with
  | nil => exact absurd h (by simp [Engine.chronicle])
  | cons demand demands ih =>
    obtain ⟨hmet, hadded⟩ := he.met demand
    have hchanges := hmet.changes
    have hworld : worldOf (earlier ++ [demand.served e]) = (worldOf earlier).or (demand.served e).world? := by
      rw [worldOf, List.findSome?_append, worldOf]
      cases hw : (demand.served e).world? <;> simp [hw]
    have hclosed : (earlier ++ [demand.served e]).any (·.demand.closes) =
        (earlier.any (·.demand.closes) || (demand.served e).demand.closes) := by simp
    have hrecord : (demand.served e).left.machine.net.deeds =
        (earlier ++ [demand.served e]).flatMap Served.deeds := by
      rw [hadded, hdeeds, List.flatMap_append, List.flatMap_singleton]
    have hnext := hchanges.standing he
    have hrecorded := hchanges.recorded hr
    rw [← hworld, ← hclosed] at hnext hrecorded
    rw [← hadded] at hrecorded
    cases past with
    | nil =>
      obtain ⟨hc, -⟩ := List.cons.inj h
      subst hc
      rw [List.append_nil]
      refine ⟨he, hmet, fun failure => hchanges.failed, fun hclosed => ?_, hrecord, hrecorded⟩
      rw [hclosed] at he
      exact he.refusesGroups
    | cons first past =>
      obtain ⟨hfirst, hrest⟩ := List.cons.inj h
      subst hfirst
      have hlater := ih hnext hrecord hrecorded hrest
      rwa [List.append_assoc] at hlater

/-- An environment over any substrate is asked for anything in any order, and memory and the substrate change in
between. Every demand is met as what went before calls for. -/
theorem Substrate.environment_life (s : Substrate τ) (config : Config) (m : Machine τ) (demands : List (Demand τ α))
    {past future : List (Served τ α)} {c : Served τ α}
    (h : (s.unused config m).chronicle demands = past ++ c :: future) : c.Follows s past := by
  have hstart : (s.unused config m).Standing s (worldOf ([] : List (Served τ α))) false := ⟨rfl, rfl, rfl, rfl⟩
  have hfollows : c.Follows s ([] ++ past) := Engine.Standing.follows hstart rfl List.not_mem_nil h
  exact hfollows

/-- The communicator over all ranks is refused, given up on and made, and the substrate is given back. A step is then
not taken, and the view is still known. -/
theorem Substrate.environment_life_of_late_success :
    ∃ (demands : List (Demand Script Unit)) (past : List (Served Script Unit)) (c : Served Script Unit),
      ((Script.substrate "scripted").unused {} { store := {}, net :=
        { creations := [.refuse "busy", .raise "transport lost"] } }).chronicle demands = past ++ [c] ∧
      past.map Served.answer = [.error (.error (.substrate "world communicator" "busy")),
        .error (.error (.substrate "world communicator" "unknown error: transport lost")), .ok (.view 0 1), .ok .done,
        .error (.error .notInitialized)] ∧
      worldOf past = some { number := 0, rank := 0, size := 1, vector := false } ∧ c.answer = .ok (.view 0 1) ∧
      c.Follows (Script.substrate "scripted") past := by
  let e := (Script.substrate "scripted").unused {}
    { store := {}, net := { creations := [.refuse "busy", .raise "transport lost"] } }
  let first := (Demand.initOnce : Demand Script Unit).served e
  let second := (Demand.initOnce : Demand Script Unit).served first.left
  let third := (Demand.initOnce : Demand Script Unit).served second.left
  let fourth := (Demand.finalize : Demand Script Unit).served third.left
  let fifth := (Demand.enter "late" (pure ()) : Demand Script Unit).served fourth.left
  let c := (Demand.initOnce : Demand Script Unit).served fifth.left
  have hchronicle : e.chronicle [.initOnce, .initOnce, .initOnce, .finalize, .enter "late" (pure ()), .initOnce] =
      [first, second, third, fourth, fifth] ++ [c] := rfl
  exact ⟨_, _, c, hchronicle, rfl, rfl, rfl, (Script.substrate "scripted").environment_life {} _ _ hchronicle⟩

/-- A group that is expected to have another rank than the process has is refused as such, also when the substrate was
given back. -/
theorem Group.create_contradicted_when_finalized :
    let opened : Engine Fabric :=
      { environment := { substrate := Fabric.substrate 0, config := {} }, machine := { store := {}, net := .ofSize 1 } }
    let closed := ((Engine.initOnce : Act Fabric _).run opened).2.finalize
    closed.environment.finalized = true ∧
      (Group.create { rank := some 3 }).run closed = (.error (.error (.validation (.launchRank 3 0))), closed) ∧
      (Group.create { rank := some 3 }).run closed ≠ (.error (.error .notInitialized), closed) := by
  intro opened closed
  refine ⟨rfl, rfl, fun h => ?_⟩
  cases congrArg Prod.fst h

end Collectives
