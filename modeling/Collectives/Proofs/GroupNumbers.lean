import Collectives.Proofs.Uncounted

/-!
# Numbers of groups

The ends of a communicator belong together by their number, and each rank counts for itself. So the groups of different
ranks pair up only if nothing takes a number but the communicator over all ranks, which comes first, and a group that is
handed out. Ranks that do anything in any order are followed here: whatever is refused, dropped or finalized in between
on some of them only, the groups of all ranks keep the same numbers.
-/

namespace Collectives

/-! ## Ranks and their moves -/

/-- What a rank does next. -/
inductive RankMove where
  /-- It asks for its rank and size. -/
  | initOnce
  /-- It asks for a group, expecting a rank and a size. -/
  | join (expected : Rendezvous)
  /-- It starts an operation on one of its groups. -/
  | start (group : Nat) (op : Operation Buffer)
  /-- It goes on with a call that is in progress. -/
  | advance (call : Ongoing)
  /-- It puts a question to a handle. -/
  | ask (h : Handle) (question : Question)
  /-- It lets go of a handle. -/
  | discard (h : Handle)
  /-- It drops one of its groups. -/
  | leave (group : Nat)
  /-- It takes one more reference to its environment. -/
  | acquire
  /-- It gives a reference to its environment back. -/
  | release
  /-- It finalizes its environment. -/
  | finalize
  /-- It works on memory. -/
  | work (change : Store → Store)

/-- The groups of a rank and its engine after a move. A group that is handed out comes last, and a group that is dropped
keeps its place. -/
def RankMove.take (groups : List Group) (e : Engine Fabric) : RankMove → List Group × Engine Fabric
  | .initOnce => (groups, (Engine.initOnce.run e).2)
  | .join expected =>
    match (Group.create expected).run e with
    | (.ok g, e') => (groups ++ [g], e')
    | (.error _, e') => (groups, e')
  | .start group op =>
    match groups[group]? with
    | some g => (groups, ((g.start op).run e).2)
    | none => (groups, e)
  | .advance call => (groups, (call.advance.run e).2)
  | .ask h question => (groups, ((h.ask question).run e).2)
  | .discard h => (groups, ((h.drop : Act Fabric Unit).run e).2)
  | .leave group =>
    match groups[group]? with
    | some g => (groups, g.drop e)
    | none => (groups, e)
  | .acquire => (groups, e.acquire)
  | .release => (groups, e.release)
  | .finalize => (groups, e.finalize)
  | .work change => (groups, { e with machine := { e.machine with store := change e.machine.store } })

/-- Ranks on one fabric, each with an environment of its own and the groups that were handed out to it. -/
structure Job (n : Nat) where
  /-- Memory and the fabric. -/
  machine : Machine Fabric
  /-- The environment of each rank. -/
  environment : Fin n → Environment Fabric
  /-- The groups of each rank, oldest first. -/
  groups : Fin n → List Group

namespace Job

variable {n : Nat}

/-- New ranks on a new fabric. -/
def opened (config : Fin n → Config) (store : Store) : Job n where
  machine := { store, net := .ofSize n }
  environment q := { substrate := Fabric.substrate q, config := config q }
  groups _ := []

/-- What one of the ranks works with. -/
def engine (j : Job n) (q : Fin n) : Engine Fabric := { environment := j.environment q, machine := j.machine }

/-- The ranks after one of them has moved. -/
def turn (j : Job n) (t : Fin n × RankMove) : Job n :=
  let (groups, e) := t.2.take (j.groups t.1) (j.engine t.1)
  { machine := e.machine
    environment := Function.update j.environment t.1 e.environment
    groups := Function.update j.groups t.1 groups }

/-- The ranks after so many moves. -/
def run (j : Job n) (turns : List (Fin n × RankMove)) : Job n := turns.foldl turn j

/-- The groups of different ranks pair up. -/
structure Paired (j : Job n) : Prop where
  /-- The communicator over all ranks is the first. -/
  world : ∀ q comm, (j.environment q).world = some comm → comm.number = 0
  /-- Then comes one communicator for each group. -/
  numbers : ∀ q (k : Nat) (g : Group), (j.groups q)[k]? = some g → g.comm.number = k + 1
  /-- Groups that come at the same place on two ranks are ends of one communicator, and no others are. -/
  pairs : ∀ q r (k i : Nat) (g g' : Group), (j.groups q)[k]? = some g → (j.groups r)[i]? = some g' →
    (g.comm.number = g'.comm.number ↔ k = i)
  /-- What a rank starts on a group touches no slot but that of its next call on this communicator, and leaves the
  rank's contribution there if it is accepted. -/
  slots : ∀ q (k : Nat) (g : Group) op answer left, (j.groups q)[k]? = some g →
    (g.start op).run (j.engine q) = (answer, left) →
    j.machine.net.Issues q (k + 1) left.machine.net (∃ call, answer = .ok call)

end Job

/-! ## One rank -/

/-- A rank that has made the communicator over all ranks and one for each of its groups, numbered as they were made. -/
structure Engine.Numbered (n q : Nat) (groups : List Group) (e : Engine Fabric) : Prop where
  size : e.machine.net.size = n
  substrate : e.environment.substrate = Fabric.substrate q
  made : e.environment.Made groups.length (e.machine.net.endpoint q).issued.length
  world : ∀ comm, e.environment.world = some comm → comm.number = 0
  numbers : ∀ (k : Nat) (g : Group), groups[k]? = some g → g.comm.number = k + 1

namespace Engine.Numbered

variable {n q : Nat} {groups : List Group} {e e' : Engine Fabric}

/-- Steps that make no communicator leave the numbers as they are. -/
theorem unmade (h : e.Numbered n q groups) (hu : e.Unmade e') : e'.Numbered n q groups := by
  refine ⟨hu.counts.size.trans h.size, hu.substrate.trans h.substrate, ?_, fun comm hw => ?_, h.numbers⟩
  · rw [Environment.Made, hu.view, hu.counts.counts]
    exact h.made
  · rcases hu.world with hkept | hgone
    · exact h.world comm (hkept ▸ hw)
    · rw [hgone] at hw
      cases hw

/-- So does what other ranks do. -/
theorem of_others {r : Nat} {v : Environment Fabric} {m m' : Machine Fabric}
    (h : Engine.Numbered n r groups { environment := v, machine := m }) (hsize : m'.net.size = n)
    (hk : m.net.OthersKept q m'.net) (hr : r ≠ q) :
    Engine.Numbered n r groups { environment := v, machine := m' } := by
  refine ⟨hsize, h.substrate, ?_, h.world, h.numbers⟩
  have hmade := h.made
  rwa [← hk r hr] at hmade

/-- A communicator is refused by a finalized environment only. Otherwise it has the next number. -/
theorem enter_create (hq : q < n) (h : e.Numbered n q groups) (site : String) :
    (Engine.enter site e.substrate.create).run e = (.error (.error .notInitialized), e) ∨
      ∃ comm m', (Engine.enter site e.substrate.create).run e = (.ok comm, { e with machine := m' }) ∧
        comm.number = (e.machine.net.endpoint q).issued.length ∧ m'.net.size = n ∧
        (m'.net.endpoint q).issued.length = (e.machine.net.endpoint q).issued.length + 1 ∧
        e.machine.net.OthersKept q m'.net := by
  cases hf : e.environment.finalized with
  | true => exact .inl (enter_finalized hf site _)
  | false =>
    obtain ⟨m', comm, hrun, hnumber, -, hsize, -, hothers, -, hissued⟩ := Fabric.createStep_run (h.size ▸ hq)
    have hstep : e.substrate.create.run e.machine = (.ok comm, m') := by
      rw [Engine.substrate, h.substrate]
      exact hrun
    refine .inr ⟨comm, m', enter_run_ok hf hstep site, hnumber, hsize.trans h.size, ?_, fun r hr => ?_⟩
    · rw [hissued, List.length_append, List.length_singleton]
    · rw [hothers r hr]

/-- Asking for rank and size makes the communicator over all ranks, with number 0, or none. -/
theorem initOnce (hq : q < n) (h : e.Numbered n q groups) :
    ∃ answer e', (Engine.initOnce : Act Fabric _).run e = (answer, e') ∧ e'.Numbered n q groups ∧
      e.machine.net.OthersKept q e'.machine.net ∧ ∀ view, answer = .ok view → e'.environment.view = some view := by
  cases hview : e.environment.view with
  | some view =>
    refine ⟨.ok view, e, initOnce_made hview, h, fun _ _ => rfl, ?_⟩
    rintro _ ⟨⟩
    exact hview
  | none =>
    obtain ⟨hgroups, hissued⟩ : groups.length = 0 ∧ (e.machine.net.endpoint q).issued.length = 0 := by
      have hmade := h.made
      rwa [Environment.Made, hview] at hmade
    unfold Engine.initOnce
    rw [run_get_bind, hview]
    rcases h.enter_create hq "world communicator" with hrun | ⟨comm, m', hrun, hnumber, hsize, hone, hothers⟩
    · exact ⟨_, e, run_bind_error hrun, h, fun _ _ => rfl, by rintro _ ⟨⟩⟩
    · refine ⟨_, _, run_bind_ok hrun, ⟨hsize, h.substrate, ?_, ?_, h.numbers⟩, hothers, ?_⟩
      · rw [hgroups]
        exact hone.trans (congrArg (· + 1) hissued)
      · rintro _ ⟨⟩
        exact hnumber.trans hissued
      · rintro _ ⟨⟩
        rfl

/-- A group that is handed out has the next number. One that is refused takes none, for whatever reason it is. -/
theorem create (hq : q < n) (h : e.Numbered n q groups) (expected : Rendezvous) :
    ∃ answer e', (Group.create expected).run e = (answer, e') ∧ e.machine.net.OthersKept q e'.machine.net ∧
      ((∃ failure, answer = .error failure ∧ e'.Numbered n q groups) ∨
        ∃ g, answer = .ok g ∧ e'.Numbered n q (groups ++ [g])) := by
  obtain ⟨answer, e₁, hinit, h₁, hothers, hview⟩ := h.initOnce hq
  unfold Group.create
  cases answer with
  | error failure => exact ⟨_, _, run_bind_error hinit, hothers, .inl ⟨failure, rfl, h₁⟩⟩
  | ok view =>
    rw [run_bind_ok hinit]
    cases hcheck : expected.check view.1 view.2 with
    | error failure => exact ⟨_, _, run_check_bind_error hcheck _ _, hothers, .inl ⟨failure, rfl, h₁⟩⟩
    | ok =>
      have hissued : (e₁.machine.net.endpoint q).issued.length = groups.length + 1 := by
        have hmade := h₁.made
        rwa [Environment.Made, hview view rfl] at hmade
      rcases h₁.enter_create hq "communicator" with hrun | ⟨comm, m', hrun, hnumber, hsize, hone, hothers'⟩
      · have hcreate : (Engine.createCommunicator : Act Fabric _).run e₁ = _ := hrun
        simp only [run_check_bind hcheck, run_bind_error hcreate]
        exact ⟨_, _, rfl, hothers, .inl ⟨_, rfl, h₁⟩⟩
      · have hcreate : (Engine.createCommunicator : Act Fabric _).run e₁ = _ := hrun
        have hkept : e.machine.net.OthersKept q m'.net := fun r hr => (hothers' r hr).trans (hothers r hr)
        have hgroup (mode : GatherMode) : Engine.Numbered n q (groups ++ [Group.mk comm mode])
            { e₁ with machine := m' } := by
          refine ⟨hsize, h₁.substrate, ?_, h₁.world, fun k g hg => ?_⟩
          · rw [Environment.Made, hview view rfl, hone, hissued, List.length_append, List.length_singleton]
          · rw [List.getElem?_append] at hg
            split at hg
            · exact h₁.numbers k g hg
            · obtain ⟨hk, rfl⟩ := List.getElem?_eq_some_iff.mp hg
              rw [List.length_singleton] at hk
              have hlast : k = groups.length := by omega
              subst hlast
              simp only [Nat.sub_self, List.getElem_cons_zero]
              exact hnumber.trans hissued
        simp only [run_check_bind hcheck, run_bind_ok hcreate, run_get_bind]
        split
        · exact ⟨_, _, rfl, hkept, .inr ⟨_, rfl, (hgroup _).unmade (((Unmade.log ..).trans (.log ..)).trans .acquire)⟩⟩
        · exact ⟨_, _, rfl, hkept, .inr ⟨_, rfl, (hgroup _).unmade ((Unmade.log ..).trans .acquire)⟩⟩

/-- Whatever a rank does, its communicators stay numbered as they were made, and no other rank makes one. -/
theorem take (hq : q < n) (h : e.Numbered n q groups) (a : RankMove) :
    (a.take groups e).2.Numbered n q (a.take groups e).1 ∧
      e.machine.net.OthersKept q (a.take groups e).2.machine.net := by
  have hunmade {e' : Engine Fabric} (hu : e.Unmade e') :
      e'.Numbered n q groups ∧ e.machine.net.OthersKept q e'.machine.net :=
    ⟨h.unmade hu, fun r _ => hu.counts.counts r⟩
  have hs := h.substrate
  cases a with
  | initOnce =>
    obtain ⟨answer, e', hrun, h', hothers, -⟩ := h.initOnce hq
    simp only [RankMove.take, hrun]
    exact ⟨h', hothers⟩
  | join expected =>
    obtain ⟨answer, e', hrun, hothers, ⟨failure, rfl, h'⟩ | ⟨g, rfl, h'⟩⟩ := h.create hq expected
    · simp only [RankMove.take, hrun]
      exact ⟨h', hothers⟩
    · simp only [RankMove.take, hrun]
      exact ⟨h', hothers⟩
  | start group op =>
    simp only [RankMove.take]
    split
    · exact hunmade (Group.start_net hs (h.size ▸ hq) rfl).1
    · exact hunmade (.refl e)
  | advance call => exact hunmade (.advance hs call)
  | ask handle question => exact hunmade (.ask hs handle question)
  | discard handle => exact hunmade (.discard handle)
  | leave group =>
    simp only [RankMove.take]
    split
    · exact hunmade (.dropGroup hs _)
    · exact hunmade (.refl e)
  | acquire => exact hunmade .acquire
  | release => exact hunmade (.release hs)
  | finalize => exact hunmade (.finalize hs)
  | work change => exact hunmade (.of_machine (.refl _))

end Engine.Numbered

/-! ## All ranks -/

namespace Job

variable {n : Nat} {j : Job n}

/-- The communicators of every rank are numbered as they were made. -/
def Numbered (j : Job n) : Prop := ∀ q, (j.engine q).Numbered n q (j.groups q)

theorem opened_numbered (config : Fin n → Config) (store : Store) : (opened config store).Numbered := by
  intro q
  have hfresh : (Fabric.ofSize n).endpoint q = {} := by
    rw [Fabric.endpoint, Fabric.ofSize, List.getD_replicate _ q.isLt]
  refine ⟨List.length_replicate, rfl, ⟨rfl, ?_⟩, ?_, ?_⟩
  · exact congrArg (fun e => e.issued.length) hfresh
  · rintro _ ⟨⟩
  · rintro _ _ ⟨⟩

theorem Numbered.turn (h : j.Numbered) (t : Fin n × RankMove) : (j.turn t).Numbered := by
  intro q
  obtain ⟨hmoved, hothers⟩ := (h t.1).take t.1.isLt t.2
  by_cases hq : q = t.1
  · subst hq
    simp only [Job.turn, engine, Function.update_self]
    exact hmoved
  · simp only [Job.turn, engine, Function.update_of_ne hq]
    exact (h q).of_others hmoved.size hothers (Fin.val_ne_of_ne hq)

/-- Ranks that do anything in any order stay numbered. -/
theorem Numbered.run (h : j.Numbered) (turns : List (Fin n × RankMove)) : (j.run turns).Numbered := by
  induction turns generalizing j with
  | nil => exact h
  | cons t turns ih => exact ih (h.turn t)

theorem Numbered.paired (h : j.Numbered) : j.Paired where
  world q := (h q).world
  numbers q := (h q).numbers
  pairs q r k i g g' hg hg' := by
    rw [(h q).numbers k g hg, (h r).numbers i g' hg']
    omega
  slots q k g op answer left hg hrun := by
    obtain ⟨-, hissues⟩ := Group.start_net (h q).substrate (q.isLt.trans_eq (h q).size.symm) hrun
    rwa [(h q).numbers k g hg] at hissues

/-- Ranks start on a new fabric and do anything in any order, each as it likes. The groups of different ranks pair up at
all times. -/
theorem groups_pair (config : Fin n → Config) (store : Store) (turns : List (Fin n × RankMove)) :
    ((opened config store).run turns).Paired := ((opened_numbered config store).run turns).paired

/-- A rank is refused a group twice, drops the one it gets and finalizes, and the other does nothing of this. Still each
has two groups of the same numbers. -/
theorem groups_pair_after_refusals :
    let turns : List (Fin 2 × RankMove) :=
      [(0, .join {}), (1, .join { rank := some 0 }), (1, .join { size := some 3 }), (1, .join {}), (1, .leave 0),
        (1, .join { rank := some 1, size := some 2 }), (1, .finalize), (1, .join {}), (0, .join {})]
    let j := (opened (fun _ : Fin 2 => {}) {}).run turns
    (j.groups 0).map (·.comm.number) = [1, 2] ∧ (j.groups 1).map (·.comm.number) = [1, 2] ∧ j.Paired := by
  intro turns j
  exact ⟨rfl, rfl, groups_pair _ _ turns⟩

end Job

end Collectives
