import Collectives.Proofs.EngineSteps
import Collectives.Substrate.Script

/-!
# The life of a handle

A handle is asked for its end, for its success and to abort, in any order and over any substrate, while the
process goes on between the calls in any way, which may finalize the environment. What the request itself says
is told apart from what only keeps it from being heard: a finalized environment, and a substrate that gave up
half-way.
-/

namespace Collectives

variable {τ : Type}

/-! ## Calls on a handle -/

/-- What a handle can be asked. -/
inductive Question where
  /-- Whether the request is done. -/
  | poll
  /-- To wait until it is. -/
  | wait
  /-- Whether the operation succeeded. -/
  | success
  /-- To take the request back. -/
  | abort
  deriving DecidableEq, Repr

/-- Asks a handle; only a poll and a wait can change it. -/
def Handle.ask (h : Handle) : Question → StateM (Engine τ) Progress
  | .poll => h.poll
  | .wait => h.wait
  | .success => return { handle := h, answer := h.isSuccess }
  | .abort => return { handle := h, answer := h.abort.map fun _ => true }

/-- One question, and what the process does before it is asked. -/
structure Moment (τ : Type) where
  /-- What happens to the environment and the machine since the question before. -/
  since : Engine τ → Engine τ
  /-- The question. -/
  question : Question

/-- One question that was asked. -/
structure Encounter (τ : Type) where
  /-- The question. -/
  question : Question
  /-- The handle when it was asked. -/
  before : Handle
  /-- The environment and the machine when it was asked. -/
  found : Engine τ
  /-- The answer. -/
  answer : Except Failure Bool
  /-- The handle afterwards. -/
  after : Handle
  /-- The environment and the machine afterwards. -/
  left : Engine τ

/-- A question asked of a handle. -/
def Handle.encounter (h : Handle) (question : Question) (found : Engine τ) : Encounter τ :=
  let (progress, left) := (h.ask question).run found
  { question, before := h, found, answer := progress.answer, after := progress.handle, left }

/-- The questions a handle is asked one after the other. -/
def Handle.live (h : Handle) (e : Engine τ) : List (Moment τ) → List (Encounter τ)
  | [] => []
  | moment :: rest =>
    let encounter := h.encounter moment.question (moment.since e)
    encounter :: encounter.after.live encounter.left rest

/-! ## What is heard from the request -/

/-- What comes of a question that is put to a request. -/
inductive Heard where
  /-- The environment is finalized, and the request is not asked. -/
  | closed
  /-- The substrate gave up when the request was asked. -/
  | gaveUp (cause : Fault)
  /-- The request is not done. -/
  | notYet
  /-- The request is done. -/
  | done
  /-- The request failed. -/
  | failed (cause : SubstrateError)
  deriving DecidableEq, Repr

/-- What the answer of a substrate to a test or a wait says about the request. -/
def Heard.ofAnswer : Except Refusal Bool → Heard
  | .ok false => .notYet
  | .ok true => .done
  | .error (.error cause) => .failed cause
  | .error (.fault cause) => .gaveUp cause

/-- Whether the request has reported its end, be it success or failure. -/
def Heard.isEnd : Heard → Bool
  | .done | .failed _ => true
  | .closed | .gaveUp _ | .notYet => false

/-- What is heard from a substrate step, if the environment lets it be taken. -/
def Engine.hears (e : Engine τ) (step : Native τ Bool) : Heard :=
  if e.environment.finalized then .closed else Heard.ofAnswer (step.run e.machine).1

/-- What is heard from a request; only a poll and a wait are put to it. -/
def Question.hears (request : Nat) (e : Engine τ) : Question → Option Heard
  | .poll => e.hears (e.environment.substrate.test request)
  | .wait => e.hears (e.environment.substrate.wait request)
  | .success | .abort => none

/-- What a question brought to light about a request. -/
def Encounter.heard (c : Encounter τ) (request : Nat) : Option Heard := c.question.hears request c.found

/-- Whether it was this question to which the request reported its end. -/
def Encounter.reports (c : Encounter τ) (request : Nat) : Bool := (c.heard request).any Heard.isEnd

/-- A question asked of a handle that was pending: the handle stays what it is, with every buffer, unless the
request reports its end, and each answer has its own cause. -/
structure Encounter.WhilePending (c : Encounter τ) (h : Handle) (request : Nat) : Prop where
  /-- The handle is the one that was handed out. -/
  before : c.before = h
  /-- It is kept unless the request reports its end. -/
  kept : c.reports request = false → c.after = h
  /-- The end of the request completes it. -/
  ended : c.reports request = true → c.after = Handle.completed h.operation
  /-- A request that is not done. -/
  notYet : c.heard request = some .notYet → c.answer = .ok false
  /-- A request that is done. -/
  done : c.heard request = some .done → c.answer = .ok true
  /-- A request that failed: its failure is the error. -/
  failed : ∀ cause, c.heard request = some (.failed cause) →
    c.answer = .error (.error (.substrate h.operation cause.message))
  /-- A substrate that gave up. -/
  gaveUp : ∀ cause, c.heard request = some (.gaveUp cause) →
    c.answer = .error (.error (.substrate h.operation s!"unknown error: {cause.message}"))
  /-- A finalized environment. -/
  closed : c.heard request = some .closed → c.answer = .error (.error .notInitialized) ∧ c.left = c.found
  /-- The success of a pending handle is not known. -/
  success : c.question = .success → c.left = c.found ∧
    c.answer = .error (.error (.invalidState s!"cannot check success of {h.operation} before it has completed"))
  /-- An abort does nothing. -/
  abort : c.question = .abort → c.left = c.found ∧
    c.answer = .error (.error (.notImplemented s!"abort of {h.operation}"))

/-- A question asked of a handle that was completed: nothing changes any more, neither the handle nor anything
that a request could be asked through. -/
structure Encounter.OnceCompleted (c : Encounter τ) (operation : String) : Prop where
  /-- The handle is completed and retains nothing. -/
  before : c.before = Handle.completed operation
  /-- It stays so. -/
  after : c.after = Handle.completed operation
  /-- No request is asked. -/
  left : c.left = c.found
  /-- It answers that all is well. -/
  answer : c.question ≠ .abort → c.answer = .ok true
  /-- An abort does nothing. -/
  abort : c.question = .abort → c.answer = .error (.error (.notImplemented s!"abort of {operation}"))

namespace Handle

/-! ## One question -/

/-- What a pending handle makes of what it hears. -/
def making (h : Handle) : Heard → Progress
  | .closed => { handle := h, answer := .error (.error .notInitialized) }
  | .gaveUp cause =>
    { handle := h, answer := .error (.error (.substrate h.operation s!"unknown error: {cause.message}")) }
  | .notYet => { handle := h, answer := .ok false }
  | .done => { handle := completed h.operation, answer := .ok true }
  | .failed cause =>
    { handle := completed h.operation, answer := .error (.error (.substrate h.operation cause.message)) }

/-- The end of the request, and nothing else, completes a pending handle. -/
theorem making_handle (h : Handle) (x : Heard) :
    (h.making x).handle = if x.isEnd then completed h.operation else h := by
  cases x <;> rfl

/-- A handle takes in a substrate step as what is heard from it. -/
theorem absorb_attempt (h : Handle) (e : Engine τ) (step : Native τ Bool) :
    (h.absorb (Engine.attempt step e).1 (Engine.attempt step e).2).1 = h.making (e.hears step) := by
  unfold Engine.hears
  cases hf : e.environment.finalized with
  | true =>
    rw [attempt_closed hf]
    rfl
  | false =>
    rw [attempt_eq hf]
    match (step.run e.machine).1 with
    | .ok false => rfl
    | .ok true => rfl
    | .error (.error _) => rfl
    | .error (.fault _) => rfl

/-- A step that could not be taken leaves the environment and the machine as they were. -/
theorem absorb_attempt_closed (h : Handle) {e : Engine τ} {step : Native τ Bool} (hc : e.hears step = .closed) :
    (h.absorb (Engine.attempt step e).1 (Engine.attempt step e).2).2 = e := by
  cases hf : e.environment.finalized with
  | true =>
    rw [attempt_closed hf]
    rfl
  | false =>
    unfold Engine.hears at hc
    rw [hf] at hc
    match hrun : (step.run e.machine).1 with
    | .ok false | .ok true | .error (.error _) | .error (.fault _) =>
      rw [hrun] at hc
      cases hc

/-- A question that is put to the request of a pending handle is answered as a substrate step is. -/
theorem whilePending_of_attempt {h : Handle} {request : Nat} {question : Question} {e : Engine τ}
    {step : Native τ Bool} (hheard : question.hears request e = some (e.hears step))
    (hask : h.ask question e = h.absorb (Engine.attempt step e).1 (Engine.attempt step e).2) :
    (h.encounter question e).WhilePending h request := by
  have hc : (h.encounter question e).heard request = some (e.hears step) := hheard
  have hprogress : (h.ask question e).1 = h.making (e.hears step) := by rw [hask, absorb_attempt]
  have hanswer : (h.encounter question e).answer = (h.making (e.hears step)).answer :=
    congrArg Progress.answer hprogress
  have hafter : (h.encounter question e).after = (h.making (e.hears step)).handle :=
    congrArg Progress.handle hprogress
  have hreports : (h.encounter question e).reports request = (e.hears step).isEnd := by
    unfold Encounter.reports
    rw [hc]
    rfl
  have hput : question ≠ .success ∧ question ≠ .abort := by
    constructor <;> rintro rfl <;> cases hheard
  constructor
  · rfl
  · intro hend
    rw [hafter, making_handle, ← hreports, hend]
    rfl
  · intro hend
    rw [hafter, making_handle, ← hreports, hend]
    rfl
  · intro hx
    rw [hanswer, Option.some.inj (hc.symm.trans hx)]
    rfl
  · intro hx
    rw [hanswer, Option.some.inj (hc.symm.trans hx)]
    rfl
  · intro cause hx
    rw [hanswer, Option.some.inj (hc.symm.trans hx)]
    rfl
  · intro cause hx
    rw [hanswer, Option.some.inj (hc.symm.trans hx)]
    rfl
  · intro hx
    have hclosed := Option.some.inj (hc.symm.trans hx)
    constructor
    · rw [hanswer, hclosed]
      rfl
    · have hleft : (h.encounter question e).left = (h.ask question e).2 := rfl
      rw [hleft, hask]
      exact h.absorb_attempt_closed hclosed
  · exact fun hq => absurd hq hput.1
  · exact fun hq => absurd hq hput.2

/-- A question that is not put to the request keeps the handle. -/
theorem whilePending_of_unheard {h : Handle} {request : Nat} {question : Question} {e : Engine τ}
    (hnone : question.hears request e = none) (hkept : (h.encounter question e).after = h)
    (hsuccess : question = .success → (h.encounter question e).left = e ∧ (h.encounter question e).answer =
      .error (.error (.invalidState s!"cannot check success of {h.operation} before it has completed")))
    (habort : question = .abort → (h.encounter question e).left = e ∧
      (h.encounter question e).answer = .error (.error (.notImplemented s!"abort of {h.operation}"))) :
    (h.encounter question e).WhilePending h request := by
  have hsilent : ∀ heard, (h.encounter question e).heard request ≠ some heard := by
    intro heard hx
    cases hnone.symm.trans hx
  have hreports : (h.encounter question e).reports request ≠ true := by
    unfold Encounter.reports
    rw [show (h.encounter question e).heard request = none from hnone]
    exact Bool.false_ne_true
  constructor
  · rfl
  · exact fun _ => hkept
  · exact fun hend => absurd hend hreports
  · exact fun hx => absurd hx (hsilent _)
  · exact fun hx => absurd hx (hsilent _)
  · exact fun _ hx => absurd hx (hsilent _)
  · exact fun _ hx => absurd hx (hsilent _)
  · exact fun hx => absurd hx (hsilent _)
  · exact hsuccess
  · exact habort

/-- Every question asked of a pending handle finds and leaves it as it should. -/
theorem encounter_whilePending {h : Handle} {request : Nat} (hp : h.pending = some request) (question : Question)
    (e : Engine τ) : (h.encounter question e).WhilePending h request := by
  cases question with
  | poll => exact whilePending_of_attempt rfl (poll_eq hp rfl)
  | wait => exact whilePending_of_attempt rfl (wait_eq hp rfl)
  | success =>
    have hpending : h.isPending = true := by simp [isPending, hp]
    exact whilePending_of_unheard rfl rfl (fun _ => ⟨rfl, if_pos hpending⟩) fun hq => by cases hq
  | abort => exact whilePending_of_unheard rfl rfl (fun hq => by cases hq) fun _ => ⟨rfl, rfl⟩

/-- Every question asked of a completed handle is answered without asking anything. -/
theorem encounter_onceCompleted (operation : String) (question : Question) (e : Engine τ) :
    ((completed operation).encounter question e).OnceCompleted operation := by
  cases question with
  | poll => exact ⟨rfl, rfl, rfl, fun _ => rfl, fun hq => by cases hq⟩
  | wait => exact ⟨rfl, rfl, rfl, fun _ => rfl, fun hq => by cases hq⟩
  | success => exact ⟨rfl, rfl, rfl, fun _ => rfl, fun hq => by cases hq⟩
  | abort => exact ⟨rfl, rfl, rfl, fun hq => absurd rfl hq, fun _ => rfl⟩

/-! ## A whole life -/

/-- A completed handle is completed for ever. -/
theorem live_completed (operation : String) (e : Engine τ) (moments : List (Moment τ)) :
    ∀ c ∈ (completed operation).live e moments, c.OnceCompleted operation := by
  induction moments generalizing e with
  | nil =>
    intro c hc
    cases hc
  | cons moment rest ih =>
    intro c hc
    have hhead := encounter_onceCompleted operation moment.question (moment.since e)
    rcases List.mem_cons.mp hc with rfl | hc
    · exact hhead
    · rw [hhead.after] at hc
      exact ih _ c hc

/-- A handle that was handed out pending is asked any questions at any moments, over a substrate that behaves in
any way. Up to the first question to which the request reports its end, through an environment that is not
finalized, the handle is what it was, pending and with every buffer, and that question completes it; from then on
it is completed, retains nothing and puts no question to the request. -/
theorem life {h : Handle} {request : Nat} (hp : h.pending = some request) (e : Engine τ)
    (moments : List (Moment τ)) {past future : List (Encounter τ)} {c : Encounter τ}
    (hlive : h.live e moments = past ++ c :: future) :
    ((∀ earlier ∈ past, earlier.reports request = false) → c.WhilePending h request) ∧
      ((∃ earlier ∈ past, earlier.reports request = true) → c.OnceCompleted h.operation) := by
  -- On the questions, for any engine: as long as none was the end, the handle of the rest is the first one's.
  induction moments generalizing e past with
  | nil => simp [live] at hlive
  | cons moment rest ih =>
    have hhead := encounter_whilePending hp moment.question (moment.since e)
    cases past with
    | nil =>
      have hc : h.encounter moment.question (moment.since e) = c := (List.cons.inj hlive).1
      constructor
      · intro _
        rw [← hc]
        exact hhead
      · rintro ⟨earlier, hmem, -⟩
        cases hmem
    | cons first past =>
      have hfirst : h.encounter moment.question (moment.since e) = first := (List.cons.inj hlive).1
      have hrest := (List.cons.inj hlive).2
      rw [hfirst] at hhead hrest
      cases hreports : first.reports request with
      | false =>
        rw [hhead.kept hreports] at hrest
        have hlater := ih _ hrest
        constructor
        · intro hpast
          exact hlater.1 fun earlier hmem => hpast earlier (List.mem_cons_of_mem _ hmem)
        · intro hpast
          apply hlater.2
          obtain ⟨earlier, hmem, hend⟩ := hpast
          rcases List.mem_cons.mp hmem with rfl | hmem
          · rw [hreports] at hend
            cases hend
          · exact ⟨earlier, hmem, hend⟩
      | true =>
        rw [hhead.ended hreports] at hrest
        constructor
        · intro hpast
          have hnone := hpast first List.mem_cons_self
          rw [hreports] at hnone
          cases hnone
        · intro _
          apply live_completed h.operation first.left rest c
          rw [hrest]
          exact List.mem_append_right _ List.mem_cons_self

/-- A reduction is not yet done when it is first polled, the substrate gives up at the second poll, and the wait
that follows is told that a peer vanished. The handle is done with then, also in a finalized environment. -/
theorem life_of_vanished_peer :
    ∃ (h : Handle) (e : Engine Script) (moments : List (Moment Script)) (past : List (Encounter Script))
      (c later : Encounter Script),
      h.pending = some 0 ∧ h.retained ≠ [] ∧ h.live e moments = past ++ [c, later] ∧
      past.map Encounter.answer = [.ok false,
        .error (.error (.invalidState "cannot check success of reduce before it has completed")),
        .error (.error (.substrate "reduce" "unknown error: transport state corrupted"))] ∧
      c.WhilePending h 0 ∧ c.reports 0 = true ∧ c.answer = .error (.error (.substrate "reduce" "peer vanished")) ∧
      later.OnceCompleted "reduce" := by
  let b : Buffer := { block := 0, dtype := .i32, shape := [2], strides := [1], offset := 0 }
  let h : Handle := { operation := "reduce", pending := some 0, retained := [b] }
  let request : CallScript :=
    { polls := 1, ending := [.raise "transport state corrupted", .refuse "peer vanished"] }
  let e : Engine Script :=
    { environment := { substrate := Script.substrate "scripted", config := {}, holders := 2 }
      machine := { store := {}, net := { requests := [request] } } }
  let moments : List (Moment Script) :=
    [⟨id, .poll⟩, ⟨id, .success⟩, ⟨id, .poll⟩, ⟨id, .wait⟩, ⟨Engine.finalize, .poll⟩]
  let first := h.encounter .poll e
  let second := first.after.encounter .success first.left
  let third := second.after.encounter .poll second.left
  let c := third.after.encounter .wait third.left
  let later := c.after.encounter .poll c.left.finalize
  have hlive : h.live e moments = [first, second, third] ++ [c, later] := by
    simp only [moments, live, id, List.cons_append, List.nil_append, first, second, third, c, later]
  have hnone : ∀ earlier ∈ [first, second, third], earlier.reports 0 = false := by
    intro earlier hmem
    rcases List.mem_cons.mp hmem with rfl | hmem
    · rfl
    rcases List.mem_cons.mp hmem with rfl | hmem
    · rfl
    rcases List.mem_cons.mp hmem with rfl | hmem
    · rfl
    cases hmem
  have hend : c.reports 0 = true := rfl
  have hlater : h.live e moments = [first, second, third, c] ++ [later] := hlive
  have hfirst : first.answer = .ok false := rfl
  have hsecond : second.answer =
      .error (.error (.invalidState "cannot check success of reduce before it has completed")) := rfl
  have hthird : third.answer =
      .error (.error (.substrate "reduce" "unknown error: transport state corrupted")) := rfl
  have hc : c.answer = .error (.error (.substrate "reduce" "peer vanished")) := rfl
  have hmap : [first, second, third].map Encounter.answer = [first.answer, second.answer, third.answer] := rfl
  rw [hfirst, hsecond, hthird] at hmap
  refine ⟨h, e, moments, [first, second, third], c, later, rfl, List.cons_ne_nil b [], hlive, hmap, ?_, hend, hc, ?_⟩
  · exact (life rfl e moments hlive).1 hnone
  · exact (life rfl e moments hlater).2 ⟨c, by simp, hend⟩

end Handle

end Collectives
