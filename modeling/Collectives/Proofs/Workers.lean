import Collectives.Proofs.EngineSteps

/-!
# Ranks that run programs

A program is a tree of instructions: what a rank does next may depend on the answers it got and on what it
finds in memory. A worker is a rank that runs a program through an environment of its own; it stays where it is
while a wait of its own, or one that a call makes for it, answers `false`.

A worker that is abreast of a sequence of calls has issued a beginning of the sequence, and its program issues
the rest. Every step keeps it abreast, and it is blocked only at a call that some rank has still to issue.
-/

namespace Collectives

/-- What a program does next. -/
inductive Instruction where
  /-- Makes the next group of the rank. -/
  | join (expected : Rendezvous)
  /-- Drops a group. -/
  | leave (group : Nat)
  /-- Calls an operation of a group, and stays in the call until it returns. -/
  | operate (group : Nat) (op : Operation Buffer)
  /-- Waits for a handle; handles are numbered in the order in which calls returned them. -/
  | wait (handle : Nat)
  /-- Polls a handle. -/
  | poll (handle : Nat)
  /-- Works on memory without the library. -/
  | work (change : Store → Store)

/-- A program, which ends on every path. -/
inductive Program where
  /-- Nothing is left to do. -/
  | done
  /-- One instruction, and what to do once it has an answer. -/
  | step (next : Instruction) (rest : Except Failure Bool → Store → Program)

/-- Whether an operation is one that reaches the substrate. -/
def Operation.isOffered {β : Type} : Operation β → Bool
  | .collective .. | .barrier => true
  | .unoffered _ => false

/-- The groups on which an instruction issues calls. -/
def Instruction.calls : Instruction → List Nat
  | .operate group op => if op.isOffered then [group] else []
  | .join _ | .leave _ | .wait _ | .poll _ | .work _ => []

/-- On every path the program issues calls on these groups, in this order. -/
def Program.Issues : Program → List Nat → Prop
  | .done, calls => calls = []
  | .step next rest, calls =>
    ∃ later, calls = next.calls ++ later ∧ ∀ answer store, (rest answer store).Issues later

/-- How much of a program is left, whatever answers it gets. An instruction counts twice: a call that is begun
has still to return. -/
noncomputable def Program.length : Program → Ordinal.{0}
  | .done => 0
  | .step _ rest => (⨆ s : Except Failure Bool × Store, (rest s.1 s.2).length + 1) + 1

/-- Where a worker stands. -/
inductive Stage where
  /-- Before its next instruction. -/
  | idle (program : Program)
  /-- In a call that has not returned. -/
  | calling (call : Ongoing) (rest : Except Failure Bool → Store → Program)

/-- A rank that runs a program. -/
structure Worker where
  /-- The environment of the rank. -/
  environment : Environment Fabric
  /-- The groups it has made; a group that was dropped leaves its place empty. -/
  groups : List (Option Group) := []
  /-- The handles it was given. -/
  handles : List Handle := []
  /-- Where it stands. -/
  stage : Stage

namespace Worker

/-- The program is done. -/
def Finished (w : Worker) : Prop := w.stage = .idle .done

/-- The failure of an instruction on a group or a handle that is not there. -/
def absent : Failure := .error (.internal "no such group or handle")

/-- The worker after an instruction was answered, and the machine. -/
def resume (w : Worker) (e : Engine Fabric) (answer : Except Failure Bool)
    (rest : Except Failure Bool → Store → Program) : Worker × Machine Fabric :=
  ({ w with environment := e.environment, stage := .idle (rest answer e.machine.store) }, e.machine)

/-- The worker with the environment that it uses and the machine. -/
def engine (w : Worker) (m : Machine Fabric) : Engine Fabric := { environment := w.environment, machine := m }

/-- Carries an instruction out, unless the worker is blocked at it. -/
def execute (w : Worker) (m : Machine Fabric) (rest : Except Failure Bool → Store → Program) :
    Instruction → Option (Worker × Machine Fabric)
  | .join expected =>
    match (Group.create expected).run (w.engine m) with
    | (.ok g, e) => some ({ w with groups := w.groups ++ [some g] }.resume e (.ok true) rest)
    | (.error failure, e) => some (w.resume e (.error failure) rest)
  | .leave group =>
    match w.groups[group]? with
    | some (some g) =>
      some ({ w with groups := w.groups.set group none }.resume (g.drop (w.engine m)) (.ok true) rest)
    | _ => some (w.resume (w.engine m) (.error absent) rest)
  | .operate group op =>
    match w.groups[group]? with
    | some (some g) =>
      match (g.start op).run (w.engine m) with
      | (.ok call, e) =>
        some ({ w with environment := e.environment, stage := .calling call rest }, e.machine)
      | (.error failure, e) => some (w.resume e (.error failure) rest)
    | _ => some (w.resume (w.engine m) (.error absent) rest)
  | .wait handle =>
    match w.handles[handle]? with
    | some h =>
      let (p, e) := h.wait (w.engine m)
      if p.answer = .ok false then none
      else some ({ w with handles := w.handles.set handle p.handle }.resume e p.answer rest)
    | none => some (w.resume (w.engine m) (.error absent) rest)
  | .poll handle =>
    match w.handles[handle]? with
    | some h =>
      let (p, e) := h.poll (w.engine m)
      some ({ w with handles := w.handles.set handle p.handle }.resume e p.answer rest)
    | none => some (w.resume (w.engine m) (.error absent) rest)
  | .work change =>
    some (w.resume (w.engine { m with store := change m.store }) (.ok true) rest)

/-- Takes the worker one step further; there is no step while it is blocked, and none once it is finished. -/
def step (w : Worker) (m : Machine Fabric) : Option (Worker × Machine Fabric) :=
  match w.stage with
  | .idle .done => none
  | .idle (.step next rest) => w.execute m rest next
  | .calling call rest =>
    match call.advance.run (w.engine m) with
    | (.ok (some h), e) => some ({ w with handles := w.handles ++ [h] }.resume e (.ok !h.isPending) rest)
    | (.ok none, _) => none
    | (.error failure, e) => some (w.resume e (.error failure) rest)

/-- If the worker's next step is to issue a call, then the call is issued: the group is there, nothing is
refused, and no byte count leaves the range of sizes. -/
def Issues (n : Nat) (w : Worker) (m : Machine Fabric) : Prop :=
  match w.stage with
  | .idle (.step (.operate group op) _) => op.isOffered →
    ∃ g, w.groups[group]? = some (some g) ∧ g.Sized n m.store op ∧
      ∃ call e, (g.start op).run (w.engine m) = (.ok call, e)
  | _ => True

end Worker

/-! ## Being abreast -/

/-- On every path the calls that are still to be issued are these. -/
def Stage.Issues : Stage → List Nat → Prop
  | .idle program, calls => program.Issues calls
  | .calling _ rest, calls => ∀ answer store, (rest answer store).Issues calls

/-- How much is left of what a worker does. -/
noncomputable def Stage.length : Stage → Ordinal.{0}
  | .idle program => program.length
  | .calling _ rest => ⨆ s : Except Failure Bool × Store, (rest s.1 s.2).length + 1

/-- References to the environment that a call in progress has. -/
def Stage.references : Stage → Nat
  | .idle _ => 0
  | .calling call _ => call.references

namespace Worker

/-- References to the environment that the worker has besides its own. -/
def references (w : Worker) : Nat :=
  w.groups.countP Option.isSome + w.handles.countP Handle.isPending + w.stage.references

/-- A worker that has issued a beginning of a sequence of calls and whose program issues the rest. -/
structure Abreast (n rank : Nat) (l : Ledger) (calls past : List Nat) (w : Worker) (m : Machine Fabric) :
    Prop where
  /-- The rank is attached, with its groups and all its references. -/
  attached : Attached n rank l w.groups.length w.references (w.engine m)
  /-- A group's communicator has the number after the group's. -/
  numbered : ∀ i g, w.groups[i]? = some (some g) → g.comm.number = i + 1
  /-- What it has issued is what is past. -/
  issued : ∀ comm, (l rank comm).length = (past.map (· + 1)).count comm
  /-- What is past and what its program issues are the calls. -/
  ahead : ∃ later, w.stage.Issues later ∧ past ++ later = calls

/-- What a step of a worker leaves: the worker abreast of the calls, and the other ranks with what they had
issued and made. -/
def Keeps (n rank : Nat) (l : Ledger) (calls : List Nat) (m : Machine Fabric) (w' : Worker)
    (m' : Machine Fabric) : Prop :=
  ∃ l' past, w'.Abreast n rank l' calls past m' ∧ m.net.OthersKept rank m'.net ∧ ∀ q, q ≠ rank → l' q = l q

/-- How a step of a worker goes, if calls that are to be issued are. -/
inductive Outcome (n rank : Nat) (l : Ledger) (calls : List Nat) (m : Machine Fabric) (issues : Prop) :
    Option (Worker × Machine Fabric) → Prop
  /-- It is blocked. -/
  | blocked (h : l.Blocked n rank) : Outcome n rank l calls m issues none
  /-- It is taken. -/
  | taken {w' : Worker} {m' : Machine Fabric} (h : issues → Keeps n rank l calls m w' m') :
    Outcome n rank l calls m issues (some (w', m'))

variable {n rank : Nat} {l : Ledger} {calls past later : List Nat} {w : Worker} {m : Machine Fabric}
  {e : Engine Fabric} {answer : Except Failure Bool} {rest : Except Failure Bool → Store → Program}

/-- An instruction that issues nothing keeps the worker abreast, whatever it answers. -/
theorem Keeps.resume (ha : Attached n rank l w.groups.length
      (w.groups.countP Option.isSome + w.handles.countP Handle.isPending) e)
    (hnumbered : ∀ i g, w.groups[i]? = some (some g) → g.comm.number = i + 1)
    (hissued : ∀ comm, (l rank comm).length = (past.map (· + 1)).count comm)
    (hrest : ∀ answer store, (rest answer store).Issues later) (hcalls : past ++ later = calls)
    (hothers : m.net.OthersKept rank e.machine.net) :
    Keeps n rank l calls m (w.resume e answer rest).1 (w.resume e answer rest).2 :=
  ⟨l, past, ⟨ha, hnumbered, hissued, later, hrest _ _, hcalls⟩, hothers, fun _ _ => rfl⟩

/-- The references of a worker before an instruction, and what its program still issues. -/
theorem Abreast.idle {next : Instruction} (hab : w.Abreast n rank l calls past m)
    (hstage : w.stage = .idle (.step next rest)) :
    Attached n rank l w.groups.length
        (w.groups.countP Option.isSome + w.handles.countP Handle.isPending) (w.engine m) ∧
      ∃ later, past ++ (next.calls ++ later) = calls ∧ ∀ answer store, (rest answer store).Issues later := by
  have ha := hab.attached
  rw [references, hstage] at ha
  obtain ⟨_, hissues, hcalls⟩ := hab.ahead
  rw [hstage] at hissues
  obtain ⟨later, rfl, hrest⟩ := hissues
  exact ⟨ha, later, hcalls, hrest⟩

variable {issues : Prop}

theorem Abreast.join (hr : rank < n) (hab : w.Abreast n rank l calls past m) {expected : Rendezvous}
    (hstage : w.stage = .idle (.step (.join expected) rest)) :
    Outcome n rank l calls m issues (w.execute m rest (.join expected)) := by
  obtain ⟨ha, later, hcalls, hrest⟩ := hab.idle hstage
  obtain ⟨answer, e, hrun, hothers, h⟩ := ha.createGroup hr expected
  simp only [execute]
  rw [hrun]
  rcases h with ⟨failure, rfl, h₁⟩ | ⟨g, rfl, hnumber, h₁⟩
  · exact .taken fun _ => Keeps.resume h₁ hab.numbered hab.issued hrest hcalls hothers
  · have hcount : (w.groups ++ [some g]).countP Option.isSome + w.handles.countP Handle.isPending =
        w.groups.countP Option.isSome + w.handles.countP Handle.isPending + 1 := by
      rw [List.countP_append, List.countP_singleton]
      simp only [Option.isSome_some, if_true]
      omega
    refine .taken fun _ => Keeps.resume ?_ ?_ hab.issued hrest hcalls hothers
    · rw [hcount, List.length_append]
      exact h₁
    · intro i g' hg
      rw [List.getElem?_append] at hg
      split at hg
      · exact hab.numbered i g' hg
      · obtain ⟨hi, hg⟩ := List.getElem?_eq_some_iff.mp hg
        rw [List.length_singleton] at hi
        have hlast : i = w.groups.length := by omega
        subst hlast
        simp only [Nat.sub_self, List.getElem_cons_zero, Option.some.injEq] at hg
        rw [← hg, hnumber]

/-- A count over a list with one entry exchanged differs by that entry only. -/
private theorem exists_countP_set {α : Type} (p : α → Bool) {xs : List α} {i : Nat} {x : α}
    (h : xs[i]? = some x) : ∃ k, xs.countP p = k + (if p x then 1 else 0) ∧
      ∀ y, (xs.set i y).countP p = k + (if p y then 1 else 0) := by
  obtain ⟨hi, rfl⟩ := List.getElem?_eq_some_iff.mp h
  refine ⟨(xs.take i).countP p + (xs.drop (i + 1)).countP p, ?_, fun y => ?_⟩
  · conv_lhs => rw [← List.take_append_drop i xs, List.drop_eq_getElem_cons hi]
    rw [List.countP_append, List.countP_cons]
    omega
  · rw [List.set_eq_take_append_cons_drop, if_pos hi, List.countP_append, List.countP_cons]
    omega

theorem Abreast.leave (hab : w.Abreast n rank l calls past m) {group : Nat}
    (hstage : w.stage = .idle (.step (.leave group) rest)) :
    Outcome n rank l calls m issues (w.execute m rest (.leave group)) := by
  obtain ⟨ha, later, hcalls, hrest⟩ := hab.idle hstage
  simp only [execute]
  split
  · rename_i g hg
    obtain ⟨k, hcount, hset⟩ := exists_countP_set Option.isSome hg
    have hone : w.groups.countP Option.isSome + w.handles.countP Handle.isPending =
        (w.groups.set group none).countP Option.isSome + w.handles.countP Handle.isPending + 1 := by
      rw [hset, hcount]
      simp only [Option.isSome_some, Option.isSome_none, if_true, Bool.false_eq_true, if_false]
      omega
    rw [hone] at ha
    obtain ⟨h₁, hmachine⟩ := ha.dropGroup g
    refine .taken fun _ => Keeps.resume ?_ ?_ hab.issued hrest hcalls ?_
    · rw [List.length_set]
      exact h₁
    · intro i g' hg'
      rw [List.getElem?_set] at hg'
      split at hg'
      · split at hg' <;> cases hg'
      · exact hab.numbered i g' hg'
    · rw [hmachine]
      exact fun _ _ => rfl
  · exact .taken fun _ => Keeps.resume ha hab.numbered hab.issued hrest hcalls fun _ _ => rfl

/-- A poll, or a wait that is not blocked, exchanges a handle for what is left of it. -/
theorem Keeps.set {handle : Nat} {h' : Handle} {k : Nat}
    (hset : ∀ y, (w.handles.set handle y).countP Handle.isPending = k + (if y.isPending then 1 else 0))
    (ha : Attached n rank l w.groups.length (w.groups.countP Option.isSome + k + h'.references) e)
    (hab : w.Abreast n rank l calls past m)
    (hrest : ∀ answer store, (rest answer store).Issues later) (hcalls : past ++ later = calls)
    (hothers : m.net.OthersKept rank e.machine.net) :
    Keeps n rank l calls m ({ w with handles := w.handles.set handle h' }.resume e answer rest).1
      ({ w with handles := w.handles.set handle h' }.resume e answer rest).2 := by
  refine Keeps.resume ?_ hab.numbered hab.issued hrest hcalls hothers
  rw [hset, ← Nat.add_assoc]
  exact ha

theorem Abreast.wait (hr : rank < n) (hab : w.Abreast n rank l calls past m) {handle : Nat}
    (hstage : w.stage = .idle (.step (.wait handle) rest)) :
    Outcome n rank l calls m issues (w.execute m rest (.wait handle)) := by
  obtain ⟨ha, later, hcalls, hrest⟩ := hab.idle hstage
  simp only [execute]
  split
  · rename_i h hh
    obtain ⟨k, hcount, hset⟩ := exists_countP_set Handle.isPending hh
    rw [hcount, ← Nat.add_assoc] at ha
    obtain ⟨p, e, hwait, hothers, h₁, hp⟩ := Attached.wait hr ha
    rw [hwait]
    rcases hp with ⟨hanswer, -⟩ | ⟨hanswer, -, -, hblocked⟩
    · simp only [if_neg hanswer]
      exact .taken fun _ => Keeps.set hset h₁ hab hrest hcalls hothers
    · simp only [if_pos hanswer]
      exact .blocked hblocked
  · exact .taken fun _ => Keeps.resume ha hab.numbered hab.issued hrest hcalls fun _ _ => rfl

theorem Abreast.poll (hr : rank < n) (hab : w.Abreast n rank l calls past m) {handle : Nat}
    (hstage : w.stage = .idle (.step (.poll handle) rest)) :
    Outcome n rank l calls m issues (w.execute m rest (.poll handle)) := by
  obtain ⟨ha, later, hcalls, hrest⟩ := hab.idle hstage
  simp only [execute]
  split
  · rename_i h hh
    obtain ⟨k, hcount, hset⟩ := exists_countP_set Handle.isPending hh
    rw [hcount, ← Nat.add_assoc] at ha
    obtain ⟨p, e, hwait, hothers, h₁, -⟩ := Attached.wait hr ha
    rw [Handle.poll_eq_wait ha.substrate, hwait]
    exact .taken fun _ => Keeps.set hset h₁ hab hrest hcalls hothers
  · exact .taken fun _ => Keeps.resume ha hab.numbered hab.issued hrest hcalls fun _ _ => rfl

theorem Abreast.work (hab : w.Abreast n rank l calls past m) {change : Store → Store}
    (hstage : w.stage = .idle (.step (.work change) rest)) :
    Outcome n rank l calls m issues (w.execute m rest (.work change)) := by
  obtain ⟨ha, later, hcalls, hrest⟩ := hab.idle hstage
  simp only [execute]
  exact .taken fun _ => Keeps.resume (ha.work _) hab.numbered hab.issued hrest hcalls fun _ _ => rfl

/-- A call that is issued is the next one of the calls. -/
theorem Keeps.issue {group : Nat} {c : Contribution} {call : Ongoing} (hab : w.Abreast n rank l calls past m)
    (ha : Attached n rank (l.add rank (group + 1) c) w.groups.length
      (w.groups.countP Option.isSome + w.handles.countP Handle.isPending + call.references) e)
    (hrest : ∀ answer store, (rest answer store).Issues later) (hcalls : past ++ ([group] ++ later) = calls)
    (hothers : m.net.OthersKept rank e.machine.net) :
    Keeps n rank l calls m { w with environment := e.environment, stage := .calling call rest } e.machine := by
  refine ⟨_, past ++ [group], ⟨ha, hab.numbered, fun comm => ?_, later, hrest, ?_⟩, hothers, fun q hq => ?_⟩
  · rw [Ledger.length_add, hab.issued, List.map_append, List.count_append, List.map_singleton,
      List.count_singleton]
    by_cases hcomm : comm = group + 1
    · simp [hcomm]
    · simp [hcomm, Ne.symm hcomm]
  · rw [List.append_assoc, hcalls]
  · funext k
    rw [Ledger.add, if_neg fun h => hq h.1]

theorem Abreast.operate (hr : rank < n) (hab : w.Abreast n rank l calls past m) {group : Nat}
    {op : Operation Buffer} (hstage : w.stage = .idle (.step (.operate group op) rest)) :
    Outcome n rank l calls m (w.Issues n m) (w.execute m rest (.operate group op)) := by
  obtain ⟨ha, later, hcalls, hrest⟩ := hab.idle hstage
  simp only [Issues, hstage, execute]
  cases hoffered : op.isOffered with
  | false =>
    -- An operation that is not offered is refused before anything is issued.
    obtain ⟨what, rfl⟩ : ∃ what, op = .unoffered what := by
      cases op with
      | unoffered what => exact ⟨what, rfl⟩
      | _ => cases hoffered
    split
    · exact .taken fun _ => Keeps.resume ha hab.numbered hab.issued hrest hcalls fun _ _ => rfl
    · exact .taken fun _ => Keeps.resume ha hab.numbered hab.issued hrest hcalls fun _ _ => rfl
  | true =>
    rw [Instruction.calls, hoffered, if_pos rfl] at hcalls
    split
    · rename_i g hg
      split
      · rename_i call e hstart
        refine .taken fun hissues => ?_
        obtain ⟨g', hg', hsized, -⟩ := hissues rfl
        obtain rfl : g = g' := Option.some.inj (Option.some.inj (hg.symm.trans hg'))
        have hnumber := hab.numbered group g hg
        have hlt : group < w.groups.length := (List.getElem?_eq_some_iff.mp hg).1
        obtain ⟨c, h₁, hothers⟩ := ha.start hr (ha.lt_issued (by omega) (by omega)) hsized hstart
        rw [hnumber] at h₁
        exact Keeps.issue hab h₁ hrest hcalls hothers
      · rename_i failure e hstart
        refine .taken fun hissues => ?_
        obtain ⟨g', hg', -, call, e', hissue⟩ := hissues rfl
        obtain rfl : g = g' := Option.some.inj (Option.some.inj (hg.symm.trans hg'))
        rw [hstart] at hissue
        cases hissue
    · rename_i hnone
      refine .taken fun hissues => ?_
      obtain ⟨g, hg, -⟩ := hissues rfl
      exact absurd hg (hnone g)

/-- A call in progress returns a handle, fails, or is blocked. -/
theorem Abreast.advance (hr : rank < n) (hab : w.Abreast n rank l calls past m) {call : Ongoing}
    (hstage : w.stage = .calling call rest) : Outcome n rank l calls m issues (w.step m) := by
  have ha := hab.attached
  rw [references, hstage] at ha
  obtain ⟨later, hrest, hcalls⟩ := hab.ahead
  rw [hstage] at hrest
  obtain ⟨answer, e, hrun, hadvanced⟩ := Attached.advance hr ha
  simp only [step, hstage, hrun]
  cases hadvanced with
  | failed failure hothers h₁ =>
    exact .taken fun _ => Keeps.resume h₁ hab.numbered hab.issued hrest hcalls hothers
  | returned h hothers h₁ =>
    refine .taken fun _ => Keeps.resume ?_ hab.numbered hab.issued hrest hcalls hothers
    rw [List.countP_append, List.countP_singleton, ← Nat.add_assoc]
    exact h₁
  | blocked hblocked => exact .blocked hblocked

/-- A worker that is abreast of the calls and not finished is blocked at a call that some rank has still to
issue, or takes a step that keeps it abreast. -/
theorem Abreast.outcome (hr : rank < n) (hab : w.Abreast n rank l calls past m) :
    w.Finished ∨ Outcome n rank l calls m (w.Issues n m) (w.step m) := by
  cases hstage : w.stage with
  | calling call rest => exact .inr (hab.advance hr hstage)
  | idle program =>
    cases program with
    | done => exact .inl hstage
    | step next rest =>
      right
      simp only [step, hstage]
      cases next with
      | join expected => exact hab.join hr hstage
      | leave group => exact hab.leave hstage
      | operate group op => exact hab.operate hr hstage
      | wait handle => exact hab.wait hr hstage
      | poll handle => exact hab.poll hr hstage
      | work change => exact hab.work hstage

/-- A worker has issued a beginning of what one has that is finished, or that has issued as much. -/
theorem Abreast.past_of_le {q : Nat} {past' : List Nat} {v : Worker} (hab : w.Abreast n rank l calls past m)
    (hv : v.Abreast n q l calls past' m) (h : v.Finished ∨ past.length ≤ past'.length) : past <+: past' := by
  obtain ⟨later, hlater, hcalls⟩ := hab.ahead
  obtain ⟨later', hlater', hcalls'⟩ := hv.ahead
  have hpast : past <+: calls := ⟨later, hcalls⟩
  rcases h with hfinished | hle
  · rw [hfinished] at hlater'
    have hnone : later' = [] := hlater'
    rw [hnone, List.append_nil] at hcalls'
    rwa [hcalls']
  · exact List.prefix_of_prefix_length_le hpast ⟨later', hcalls'⟩ hle

/-- A worker that has come further has issued every call that another one has. -/
theorem Abreast.hasIssued {q : Nat} {past' : List Nat} {v : Worker} {call : Nat × Nat}
    (hab : w.Abreast n rank l calls past m) (hv : v.Abreast n q l calls past' m) (h : past <+: past')
    (hissued : l.HasIssued rank call) : l.HasIssued q call := by
  have hcount : (past.map (· + 1)).count call.1 ≤ (past'.map (· + 1)).count call.1 :=
    (h.map _).sublist.count_le _
  rw [Ledger.HasIssued, hab.issued] at hissued
  rw [Ledger.HasIssued, hv.issued]
  exact lt_of_lt_of_le hissued hcount

/-- What another rank does keeps a worker abreast. -/
theorem Abreast.of_others {q : Nat} {l' : Ledger} {m' : Machine Fabric}
    (hab : w.Abreast n rank l calls past m) (hco : Coherent n l' m'.net) (hq : rank ≠ q)
    (hk : m.net.OthersKept q m'.net) (hl : l' rank = l rank) : w.Abreast n rank l' calls past m' := by
  refine ⟨hab.attached.of_others hco hq hk, hab.numbered, fun comm => ?_, hab.ahead⟩
  rw [hl]
  exact hab.issued comm

/-- A worker with a program that issues the calls is abreast of them at the beginning. -/
theorem Abreast.new {config : Config} {program : Program} {store : Store} (h : program.Issues calls) :
    Abreast n rank (fun _ _ => []) calls []
      { environment := { substrate := Fabric.substrate rank, config }, stage := .idle program }
      { store, net := Fabric.ofSize n } := by
  have hmade : ((Fabric.ofSize n).endpoint rank).issued.length = 0 := by
    rw [Fabric.endpoint_ofSize]
    rfl
  refine ⟨⟨Coherent.ofSize n, rfl, rfl, ⟨rfl, hmade⟩, rfl⟩, ?_, fun _ => rfl, calls, h, rfl⟩
  intro i g hg
  cases hg

/-- A call in progress is followed by less than it stands for. -/
theorem length_rest_lt (call : Ongoing) (rest : Except Failure Bool → Store → Program)
    (answer : Except Failure Bool) (store : Store) :
    (rest answer store).length < (Stage.calling call rest).length :=
  Ordinal.lt_iSup_add_one (fun s : Except Failure Bool × Store => (rest s.1 s.2).length) (answer, store)

/-- An instruction that has begun leaves less to do. -/
theorem length_calling_lt (call : Ongoing) (next : Instruction)
    (rest : Except Failure Bool → Store → Program) :
    (Stage.calling call rest).length < (Stage.idle (.step next rest)).length :=
  lt_add_one _

/-- An instruction that is carried out is followed by the rest of the program, or by a call in progress. -/
theorem execute_cases {next : Instruction} {w' : Worker} {m' : Machine Fabric}
    (h : w.execute m rest next = some (w', m')) :
    (∃ answer store, w'.stage = .idle (rest answer store)) ∨ ∃ call, w'.stage = .calling call rest := by
  cases next with
  | join expected =>
    simp only [execute] at h
    split at h <;> cases h <;> exact .inl ⟨_, _, rfl⟩
  | leave group =>
    simp only [execute] at h
    split at h <;> cases h <;> exact .inl ⟨_, _, rfl⟩
  | operate group op =>
    simp only [execute] at h
    split at h
    · split at h <;> cases h
      · exact .inr ⟨_, rfl⟩
      · exact .inl ⟨_, _, rfl⟩
    · cases h
      exact .inl ⟨_, _, rfl⟩
  | wait handle =>
    simp only [execute] at h
    split at h
    · split at h
      · split at h <;> cases h
        exact .inl ⟨_, _, rfl⟩
    · cases h
      exact .inl ⟨_, _, rfl⟩
  | poll handle =>
    simp only [execute] at h
    split at h <;> cases h <;> exact .inl ⟨_, _, rfl⟩
  | work change =>
    cases h
    exact .inl ⟨_, _, rfl⟩

/-- Every step leaves less to do. -/
theorem length_step_lt {w' : Worker} {m' : Machine Fabric} (h : w.step m = some (w', m')) :
    w'.stage.length < w.stage.length := by
  cases hstage : w.stage with
  | calling call rest =>
    simp only [step, hstage] at h
    split at h <;> cases h <;> exact length_rest_lt call rest _ _
  | idle program =>
    cases program with
    | done =>
      simp only [step, hstage] at h
      cases h
    | step next rest =>
      simp only [step, hstage] at h
      rcases execute_cases h with ⟨answer, store, hrest⟩ | ⟨call, hcall⟩
      · rw [hrest]
        exact (length_rest_lt (.meeting 0) rest answer store).trans (length_calling_lt _ next rest)
      · rw [hcall]
        exact length_calling_lt call next rest

end Worker

end Collectives
