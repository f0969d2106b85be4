import Collectives.Proofs.CallEndings
import Collectives.Proofs.Dispersal
import Collectives.Proofs.EqualShares
import Collectives.Proofs.SizedExchanges

/-!
# Even exchanges

Ranks exchange equal shares of the rows of buffers that both divide among them. It makes no difference whether they
leave the sizes out or name equal ones: in whatever order they call, wait and poll, and whatever else they do, every
answer is the same, be it that the exchange succeeds or that the ranks disagree, and so is memory.
-/

namespace Collectives

/-- Two buffers that a rank holds, of one type and with as many elements as each other, and `n` ranks can share out the
rows of both equally. -/
structure EqualRows (n : Nat) (output input : Buffer) (s : Store) : Prop where
  holdsOutput : Obtained s output
  holdsInput : Obtained s input
  counts : output.count = input.count
  types : output.dtype = input.dtype
  receives : output.SharesOut n
  sends : input.SharesOut n

/-- A call for an exchange of rows; there is a handle once it returns. -/
def Group.exchangeRows {τ : Type} (g : Group) (output input : Buffer) (splits : Splits) (tensor : String) :
    Act τ (Option Handle) := do
  (← g.start (.collective (.alltoallBase output input splits) tensor)).advance

/-! ## A rank at both machines -/

/-- An environment of a rank that is used on two machines which are alike. -/
structure Twins (n comm k rank : Nat) (e e' : Engine Fabric) : Prop where
  environment : e'.environment = e.environment
  substrate : e.environment.substrate = Fabric.substrate rank
  machine : Mirrors n comm k e.machine e'.machine

/-- Two ends are alike: the same answer, and twins again. -/
def EndsAlike {α : Type} (n comm k rank : Nat) (x x' : α × Engine Fabric) : Prop :=
  x'.1 = x.1 ∧ Twins n comm k rank x.2 x'.2

/-- What is left of an environment when a reference is given back does not depend on the machine. -/
theorem Engine.environment_release {τ : Type} {e e' : Engine τ} (h : e'.environment = e.environment) :
    e'.release.environment = e.release.environment := by
  obtain ⟨v, m⟩ := e
  obtain ⟨v', m'⟩ := e'
  obtain rfl : v' = v := h
  unfold release finalize releaseWorld
  dsimp only
  split
  · split
    · rfl
    · dsimp only [log]
      cases v'.world <;> rfl
  · rfl

/-- The substrate stays the same. -/
theorem Engine.substrate_release {τ : Type} (e : Engine τ) :
    e.release.environment.substrate = e.environment.substrate := by
  unfold release finalize releaseWorld
  dsimp only
  split
  · split
    · rfl
    · dsimp only [log]
      cases e.environment.world <;> rfl
  · rfl

/-- The two calls of an exchange come to nothing together, or their blocks begin at the same places. -/
theorem Group.calls_cases (n : Nat) (output input : Buffer) (tag : Tag) (h : Heap) :
    (∃ fault, evenCall n output input tag h = .error fault ∧ equalCall n output input tag h = .error fault) ∨
      ∃ send recv, evenCall n output input tag h = .ok (.alltoall send recv (output.count / n) tag) ∧
        equalCall n output input tag h = .ok (.alltoallv send (List.replicate n (input.count / n)) recv
          (List.replicate n (output.count / n)) tag) := by
  unfold evenCall equalCall
  cases input.address h with
  | error fault => exact .inl ⟨fault, rfl, rfl⟩
  | ok send =>
    cases output.address h with
    | error fault => exact .inl ⟨fault, rfl, rfl⟩
    | ok recv => exact .inr ⟨send, recv, rfl, rfl⟩

/-- A call that was worked out is made. -/
private theorem run_called {α : Type} {x : Except Fault Call} {call : Call} (h : x = .ok call)
    (make : Call → Native Fabric α) (m : Machine Fabric) :
    (do make (← x) : Native Fabric α).run m = (make call).run m := by
  rw [h]
  rfl

namespace Twins

variable {α : Type} {n comm k rank : Nat} {e e' : Engine Fabric} {g : Group} {output input : Buffer}

theorem substrate' (h : Twins n comm k rank e e') : e'.environment.substrate = Fabric.substrate rank :=
  (congrArg Environment.substrate h.environment).trans h.substrate

/-- Substrate steps that end alike do so through the engine. -/
theorem attempt (h : Twins n comm k rank e e') {step step' : Native Fabric α}
    (hsteps : ∃ answer m₁ m₁', step.run e.machine = (answer, m₁) ∧ step'.run e'.machine = (answer, m₁') ∧
      Mirrors n comm k m₁ m₁') : EndsAlike n comm k rank (Engine.attempt step e) (Engine.attempt step' e') := by
  cases hf : e.environment.finalized with
  | true =>
    rw [attempt_closed hf, attempt_closed (h.environment ▸ hf)]
    exact ⟨rfl, h⟩
  | false =>
    obtain ⟨answer, m₁, m₁', hrun, hrun', hm⟩ := hsteps
    rw [attempt_eq hf, attempt_eq (h.environment ▸ hf), hrun, hrun']
    exact ⟨rfl, h.environment, h.substrate, hm⟩

theorem log (h : Twins n comm k rank e e') (level : Level) (component : Component) (text : String) :
    Twins n comm k rank (e.log level component text) (e'.log level component text) :=
  ⟨h.environment, h.substrate, h.machine.store rfl rfl⟩

theorem acquire (h : Twins n comm k rank e e') : Twins n comm k rank e.acquire e'.acquire := by
  refine ⟨?_, h.substrate, h.machine⟩
  rw [Engine.acquire, Engine.acquire, h.environment]

theorem release (h : Twins n comm k rank e e') : Twins n comm k rank e.release e'.release := by
  have hmachine {e : Engine Fabric} (hs : e.environment.substrate = Fabric.substrate rank) :
      ∃ s, e.release.machine = { e.machine with store := s } ∧ s.heap = e.machine.store.heap := by
    obtain ⟨hnet, hheap⟩ := Engine.release_fabric hs
    exact ⟨_, congrArg (Machine.mk e.release.machine.store) hnet, hheap⟩
  obtain ⟨s, hs, hheap⟩ := hmachine h.substrate
  obtain ⟨s', hs', hheap'⟩ := hmachine h.substrate'
  refine ⟨Engine.environment_release h.environment, (Engine.substrate_release e).trans h.substrate, ?_⟩
  rw [hs, hs']
  exact h.machine.store hheap hheap'

/-! ## Handles -/

/-- A handle makes the same of an answer. -/
theorem absorb (h : Twins n comm k rank e e') (x : Handle) (answer : Except Denial Bool) :
    EndsAlike n comm k rank (x.absorb answer e) (x.absorb answer e') := by
  match answer with
  | .ok false => exact ⟨rfl, h⟩
  | .ok true => exact ⟨rfl, h.release.log ..⟩
  | .error .finalized => exact ⟨rfl, h⟩
  | .error (.refused (.error cause)) => exact ⟨rfl, h.release.log ..⟩
  | .error (.refused (.fault cause)) => exact ⟨rfl, h⟩

theorem wait (h : Twins n comm k rank e e') (hr : rank < n) (x : Handle) :
    EndsAlike n comm k rank (x.wait e) (x.wait e') := by
  cases hp : x.pending with
  | none =>
    unfold Handle.wait
    rw [hp]
    exact ⟨rfl, h⟩
  | some request =>
    have hwait {e : Engine Fabric} (hs : e.environment.substrate = Fabric.substrate rank) :
        x.wait e = x.absorb (Engine.attempt (Fabric.collect rank request) e).1
          (Engine.attempt (Fabric.collect rank request) e).2 := by
      have hask : Engine.attempt (e.environment.substrate.wait request) e =
          Engine.attempt (Fabric.collect rank request) e := by
        rw [hs]
        rfl
      exact Handle.wait_eq hp hask
    obtain ⟨hanswer, htwins⟩ := h.attempt (h.machine.collect hr request)
    rw [hwait h.substrate, hwait h.substrate', hanswer]
    exact htwins.absorb x _

/-- Whatever a handle is asked, it answers alike. -/
theorem ask (h : Twins n comm k rank e e') (hr : rank < n) (x : Handle) (question : Question) :
    EndsAlike n comm k rank ((x.ask question).run e) ((x.ask question).run e') := by
  cases question with
  | poll =>
    have hpoll : x.poll.run e = x.wait e := Handle.poll_eq_wait h.substrate x
    have hpoll' : x.poll.run e' = x.wait e' := Handle.poll_eq_wait h.substrate' x
    rw [Handle.ask, hpoll, hpoll']
    exact h.wait hr x
  | wait => exact h.wait hr x
  | success => exact ⟨rfl, h⟩
  | abort => exact ⟨rfl, h⟩

/-! ## Calls -/

/-- What is planned gets into the substrate on both machines, or on neither. -/
private theorem exchangeRows_of_issue (h : Twins n comm k rank e e') {splits splits' : Splits} {tensor : String}
    {p p' : Plan} {s s' : Store} (hplan : (g.plan (.alltoallBase output input splits)).run e.machine.store = (.ok p, s))
    (hplan' : (g.plan (.alltoallBase output input splits')).run e'.machine.store = (.ok p', s'))
    (hoperation : p'.operation = p.operation) (hretained : p'.retained = p.retained) (hcopyOut : p.copyOut = none)
    (hcopyOut' : p'.copyOut = none) (hs : s.heap = e.machine.store.heap) (hs' : s'.heap = e'.machine.store.heap)
    (hissue : ∃ answer m₁ m₁',
      (do e.substrate.issue g.comm (← p.call) (e.environment.config.attributes tensor) : Native Fabric Nat).run
        { e.machine with store := s } = (answer, m₁) ∧
      (do e'.substrate.issue g.comm (← p'.call) (e'.environment.config.attributes tensor) : Native Fabric Nat).run
        { e'.machine with store := s' } = (answer, m₁') ∧ Mirrors n comm k m₁ m₁') :
    EndsAlike n comm k rank ((g.exchangeRows output input splits tensor).run e)
      ((g.exchangeRows output input splits' tensor).run e') := by
  let planned : Engine Fabric := { e with machine := { e.machine with store := s } }
  let planned' : Engine Fabric := { e' with machine := { e'.machine with store := s' } }
  have hplanned : Twins n comm k rank planned planned' := ⟨h.environment, h.substrate, h.machine.store hs hs'⟩
  obtain ⟨hanswer, htwins⟩ := hplanned.attempt hissue
  rcases hattempt : Engine.attempt
    (do e.substrate.issue g.comm (← p.call) (e.environment.config.attributes tensor)) planned with ⟨answer, e₁⟩
  rcases hattempt' : Engine.attempt
    (do e'.substrate.issue g.comm (← p'.call) (e'.environment.config.attributes tensor)) planned' with ⟨answer', e₁'⟩
  rw [hattempt, hattempt'] at hanswer htwins
  obtain rfl : answer' = answer := hanswer
  cases answer' with
  | error denial =>
    rw [Group.exchangeRows, Group.exchangeRows, Group.start, Group.start,
      run_bind_error (Group.dispatch_unissued hplan hattempt),
      run_bind_error (Group.dispatch_unissued hplan' hattempt'), hoperation]
    exact ⟨rfl, htwins⟩
  | ok request =>
    rw [Group.exchangeRows, Group.exchangeRows, Group.start, Group.start,
      run_bind_ok (Group.dispatch_issued hplan hattempt), run_bind_ok (Group.dispatch_issued hplan' hattempt'),
      hoperation, hretained, hcopyOut, hcopyOut']
    exact ⟨rfl, htwins.acquire⟩

/-- Equal rows are exchanged alike, with sizes and without. -/
theorem exchange (h : Twins n comm k rank e e') (hr : rank < n)
    (hends : g.comm = e.machine.net.communicator rank comm) (hrows : EqualRows n output input e.machine.store)
    (tensor : String) :
    EndsAlike n comm k rank ((g.exchangeRows output input {} tensor).run e)
      ((g.exchangeRows output input (.equal n output input) tensor).run e') := by
  have hn : 0 < n := Nat.zero_lt_of_lt hr
  obtain rfl : g.size = n := (congrArg Communicator.size hends).trans h.machine.size
  by_cases hx : ∃ tag, Exchangeable output input tag
  · obtain ⟨tag, hx⟩ := hx
    obtain ⟨s, hplan, hs⟩ := Group.plan_evenly hn hx hrows.counts hrows.receives e.machine.store
    obtain ⟨s', hplan', hs'⟩ := Group.plan_equally hn hx hrows.receives hrows.sends e'.machine.store
    refine h.exchangeRows_of_issue hplan hplan' rfl rfl rfl rfl hs hs' ?_
    have hmachine := h.machine.store hs hs'
    rw [h.machine.heap, Engine.substrate, Engine.substrate, h.substrate, h.substrate', h.environment, hends]
    rcases Group.calls_cases g.size output input tag e.machine.store.heap with
      ⟨fault, heven, hequal⟩ | ⟨send, recv, heven, hequal⟩
    · rw [heven, hequal]
      exact ⟨_, _, _, rfl, rfl, hmachine⟩
    · let c : Contribution :=
        { kind := .alltoall, tag, send, recv := [recv]
          sendCounts := List.replicate g.size (output.count / g.size)
          recvCounts := List.replicate g.size (output.count / g.size) }
      have hc : Fabric.contribution g.size (.alltoall send recv (output.count / g.size) tag) = .ok c := rfl
      have hc' : Fabric.contribution g.size (.alltoallv send (List.replicate g.size (input.count / g.size)) recv
          (List.replicate g.size (output.count / g.size)) tag) = .ok c.sized := by
        rw [← hrows.counts, Fabric.contribution, Fabric.checkCounts, Fabric.checkCounts,
          if_pos List.length_replicate, if_pos List.length_replicate]
        rfl
      have hfits : c.Fits := by
        have hsound : ∀ b ∈ (Collective.alltoallBase output input {}).operands, b.Sound e.machine.store.heap := by
          intro b hb
          rcases List.mem_pair.mp hb with rfl | rfl
          · exact hrows.holdsOutput.sound
          · exact hrows.holdsInput.sound
        have hcovered := Group.plan_covered hsound hplan _ heven
        exact Call.fits (hs ▸ h.machine.bounded) hcovered trivial hc
      obtain ⟨request, m₁, m₁', hrun, hrun', hm⟩ :=
        hmachine.exchange hr hc hc' rfl hfits (e.environment.config.attributes tensor)
      rw [run_called heven, run_called hequal]
      exact ⟨_, m₁, m₁', hrun, hrun', hm⟩
  · obtain ⟨failure, hrefused⟩ :=
      Group.plan_refused hn hrows.types hrows.counts hrows.receives hrows.sends hx
    rw [Group.exchangeRows, Group.exchangeRows, Group.start, Group.start,
      run_bind_error (Group.dispatch_unplanned (hrefused e.machine.store).1),
      run_bind_error (Group.dispatch_unplanned (hrefused e'.machine.store).2)]
    exact ⟨rfl, h⟩

end Twins

/-! ## All the ranks -/

/-- A machine with the ranks that use it: the environment of each, and the handles that each was given. -/
structure Party where
  machine : Machine Fabric
  environments : Nat → Environment Fabric
  handles : Nat → List Handle := fun _ => []

/-- What happens among ranks that exchange rows. -/
inductive Party.Event where
  /-- A rank calls for an exchange. -/
  | exchange (rank : Nat) (output input : Buffer) (tensor : String)
  /-- A rank asks one of its handles, by number. -/
  | ask (rank handle : Nat) (question : Question)
  /-- Anything else. -/
  | turn (a : Turn)

/-- The handle that a call gives, if it gives one. -/
def Ongoing.given : Except Failure (Option Handle) → List Handle
  | .ok (some h) => [h]
  | .ok none | .error _ => []

namespace Party

/-- The environment of a rank and the machine. -/
def engine (p : Party) (rank : Nat) : Engine Fabric := { environment := p.environments rank, machine := p.machine }

/-- The party after a rank has used its environment. -/
def left (p : Party) (rank : Nat) (e : Engine Fabric) (handles : List Handle) : Party where
  machine := e.machine
  environments := Function.update p.environments rank e.environment
  handles := Function.update p.handles rank handles

/-- What comes of an event, where `sizes` says which sizes are named for an exchange: the answer, which for a call is
whether it returned a handle, and the party afterwards. -/
def happen (sizes : Buffer → Buffer → Splits) (group : Nat → Group) (p : Party) : Event → Except Failure Bool × Party
  | .exchange rank output input tensor =>
    let ended := ((group rank).exchangeRows output input (sizes output input) tensor).run (p.engine rank)
    (ended.1.map Option.isSome, p.left rank ended.2 (p.handles rank ++ Ongoing.given ended.1))
  | .ask rank handle question =>
    match (p.handles rank)[handle]? with
    | some h =>
      let ended := (h.ask question).run (p.engine rank)
      (ended.1.answer, p.left rank ended.2 ((p.handles rank).set handle ended.1.handle))
    | none => (.error (.error (.internal "no such handle")), p)
  | .turn a => (.ok true, { p with machine := a.step p.machine })

/-- What comes of events, one after the other. -/
def play (sizes : Buffer → Buffer → Splits) (group : Nat → Group) (p : Party) :
    List Event → List (Except Failure Bool) × Party
  | [] => ([], p)
  | x :: xs =>
    let next := p.happen sizes group x
    let rest := next.2.play sizes group xs
    (next.1 :: rest.1, rest.2)

/-- No sizes are named. -/
def evenly (_ _ : Buffer) : Splits := {}

/-- Ranks of a group can exchange the rows that they share out equally, and ask their handles. Whatever else happens
happens on other communicators, and to memory it depends on nothing but memory. -/
def Allows (n comm : Nat) (p : Party) : Event → Prop
  | .exchange rank output input _ => rank < n ∧ EqualRows n output input p.machine.store
  | .ask rank _ _ => rank < n
  | .turn a => a.Admissible p.machine ∧ (∀ r c, a.submission n ≠ some (r, comm, c)) ∧
      ∀ change, a = .work change → WorksOnMemory change ∧ p.machine.store.heap.Extends (change p.machine.store).heap

/-- Each event is allowed where it happens. -/
def AllowsAll (n comm : Nat) (group : Nat → Group) (p : Party) : List Event → Prop
  | [] => True
  | x :: xs => p.Allows n comm x ∧ (p.happen evenly group x).2.AllowsAll n comm group xs

/-- The ranks of a group before they exchange anything: each has an environment over its end of the fabric and has made
the communicator of the group, and all have issued as many calls as each other on it. -/
structure Assembled (n comm : Nat) (group : Nat → Group) (p : Party) : Prop where
  level : ∃ l k, Coherent n l p.machine.net ∧ ∀ r < n, (l r comm).length = k
  bounded : p.machine.store.heap.Bounded
  made : ∀ r < n, comm < (p.machine.net.endpoint r).issued.length
  substrate : ∀ r < n, (p.environments r).substrate = Fabric.substrate r
  ends : ∀ r < n, (group r).comm = p.machine.net.communicator r comm

/-- Two parties on machines that are alike, with the same environments and the same handles. -/
structure Alike (n comm k : Nat) (group : Nat → Group) (p p' : Party) : Prop where
  machine : Mirrors n comm k p.machine p'.machine
  environments : p'.environments = p.environments
  handles : p'.handles = p.handles
  substrate : ∀ r < n, (p.environments r).substrate = Fabric.substrate r
  ends : ∀ r < n, (group r).comm = { number := comm, rank := r, size := n, vector := true }

variable {n comm k : Nat} {group : Nat → Group} {p p' : Party}

theorem Assembled.exists_alike (h : p.Assembled n comm group) : ∃ k, Alike n comm k group p p := by
  obtain ⟨l, k, hco, hlevel⟩ := h.level
  refine ⟨k, ⟨⟨l, l, hco, hco, .refl hlevel⟩, rfl, fun _ => rfl, fun _ => rfl, h.bounded, h.made⟩, rfl, rfl, h.substrate,
    fun r hr => ?_⟩
  rw [h.ends r hr, Fabric.communicator, hco.size]

namespace Alike

theorem twins (h : Alike n comm k group p p') {rank : Nat} (hr : rank < n) :
    Twins n comm k rank (p.engine rank) (p'.engine rank) :=
  ⟨congrFun h.environments rank, h.substrate rank hr, h.machine⟩

/-- Parties stay alike when a rank has used its environment alike. -/
theorem left (h : Alike n comm k group p p') {rank : Nat} {e e' : Engine Fabric} (htwins : Twins n comm k rank e e')
    (handles : List Handle) : Alike n comm k group (p.left rank e handles) (p'.left rank e' handles) where
  machine := htwins.machine
  environments := by rw [Party.left, Party.left, h.environments, htwins.environment]
  handles := by rw [Party.left, Party.left, h.handles]
  substrate r hr := by
    by_cases hrank : r = rank
    · subst hrank
      have hself : (p.left r e handles).environments r = e.environment := Function.update_self ..
      rw [hself]
      exact htwins.substrate
    · have hother : (p.left rank e handles).environments r = p.environments r := Function.update_of_ne hrank ..
      rw [hother]
      exact h.substrate r hr
  ends := h.ends

/-- An event that is allowed has the same answer with sizes and without. -/
theorem happen (h : Alike n comm k group p p') {x : Event} (hx : p.Allows n comm x) :
    (p'.happen (.equal n) group x).1 = (p.happen evenly group x).1 ∧
      Alike n comm k group (p.happen evenly group x).2 (p'.happen (.equal n) group x).2 := by
  cases x with
  | exchange rank output input tensor =>
    obtain ⟨hr, hrows⟩ := hx
    have hends : (group rank).comm = (p.engine rank).machine.net.communicator rank comm := by
      rw [h.ends rank hr, Fabric.communicator]
      exact congrArg (fun size => Communicator.mk comm rank size true) h.machine.size.symm
    obtain ⟨hanswer, htwins⟩ := (h.twins hr).exchange hr hends hrows tensor
    simp only [Party.happen, evenly, hanswer, h.handles, true_and]
    exact h.left htwins _
  | ask rank handle question =>
    cases hhandle : (p.handles rank)[handle]? with
    | none =>
      simp only [Party.happen, h.handles, hhandle, true_and]
      exact h
    | some y =>
      obtain ⟨hanswer, htwins⟩ := (h.twins hx).ask hx y question
      simp only [Party.happen, h.handles, hhandle, hanswer, true_and]
      exact h.left htwins _
  | turn a =>
    obtain ⟨ha, helsewhere, hwork⟩ := hx
    exact ⟨rfl, h.machine.turn ha helsewhere hwork, h.environments, h.handles, h.substrate, h.ends⟩

/-- So have all of them, and the parties stay alike. -/
theorem play (h : Alike n comm k group p p') {xs : List Event} (hxs : p.AllowsAll n comm group xs) :
    (p'.play (.equal n) group xs).1 = (p.play evenly group xs).1 ∧
      Alike n comm k group (p.play evenly group xs).2 (p'.play (.equal n) group xs).2 := by
  induction xs generalizing p p' with
  | nil => exact ⟨rfl, h⟩
  | cons x xs ih =>
    obtain ⟨hx, hrest⟩ := hxs
    obtain ⟨hanswer, hnext⟩ := h.happen hx
    obtain ⟨hanswers, hend⟩ := ih hnext hrest
    exact ⟨congrArg₂ List.cons hanswer hanswers, hend⟩

end Alike

/-- Ranks that exchange equal shares of rows get the same answers, be it that the exchanges succeed or that the ranks
disagree, and leave the same memory, the same handles and the same environments, whether they leave the sizes out or
name equal ones. This is so in whatever order they call and ask their handles, and whatever else happens meanwhile. -/
theorem even_as_equal {xs : List Event} (hp : p.Assembled n comm group) (hxs : p.AllowsAll n comm group xs) :
    (p.play (.equal n) group xs).1 = (p.play evenly group xs).1 ∧
      (p.play (.equal n) group xs).2.machine.store.heap = (p.play evenly group xs).2.machine.store.heap ∧
      (p.play (.equal n) group xs).2.handles = (p.play evenly group xs).2.handles ∧
      (p.play (.equal n) group xs).2.environments = (p.play evenly group xs).2.environments := by
  obtain ⟨k, halike⟩ := hp.exists_alike
  obtain ⟨hanswers, hend⟩ := halike.play hxs
  exact ⟨hanswers, hend.machine.heap, hend.handles, hend.environments⟩

/-- Two ranks at one communicator. -/
def pair : Party where
  machine := Turn.step (Turn.step { store := { heap := pairHeap }, net := .ofSize 2 } (.create 0)) (.create 1)
  environments r := { substrate := Fabric.substrate r, config := {} }

/-- Rank 1 exchanges some of its bytes in place, then rank 0 exchanges two of its own, and both wait. -/
def pairEvents (length : Nat) : List Event :=
  [.exchange 1 (pairPart 1 0 length) (pairPart 1 0 length) "", .exchange 0 (pairPart 0 0 2) (pairPart 0 0 2) "",
    .ask 0 0 .wait, .ask 1 0 .wait]

private theorem assembled_pair : pair.Assembled 2 0 pairGroup := by
  let unmade : Machine Fabric := { store := { heap := pairHeap }, net := .ofSize 2 }
  have hfirst : Turn.Admissible unmade (.create 0) := Nat.two_pos
  have hsecond : Turn.Admissible (Turn.step unmade (.create 0)) (.create 1) := Nat.one_lt_two
  obtain ⟨hco, -⟩ := Turn.step_quiet (Coherent.ofSize 2 : Coherent 2 _ unmade.net) hfirst rfl
  obtain ⟨hco', -⟩ := Turn.step_quiet hco hsecond rfl
  exact ⟨⟨_, 0, hco', fun _ _ => rfl⟩, pairHeap_bounded, by decide, fun _ _ => rfl, fun _ _ => rfl⟩

/-- Rank 1 can exchange none of its bytes, or two. -/
private theorem allowsAll_pair {length : Nat} (hin : length ≤ 3) (hdvd : 2 ∣ length)
    (hheap : (pair.happen evenly pairGroup
      (.exchange 1 (pairPart 1 0 length) (pairPart 1 0 length) "")).2.machine.store.heap = pairHeap) :
    pair.AllowsAll 2 0 pairGroup (pairEvents length) := by
  have hrows {rank length : Nat} {s : Store} (hrank : rank < 2) (hin : 0 + length ≤ 3) (hdvd : 2 ∣ length)
      (hs : s.heap = pairHeap) : EqualRows 2 (pairPart rank 0 length) (pairPart rank 0 length) s := by
    have hobtained : Obtained s (pairPart rank 0 length) := .later (obtained_pairPart hrank hin) (hs ▸ .refl pairHeap)
    have hshares : (pairPart rank 0 length).SharesOut 2 := ⟨List.cons_ne_nil _ _, hdvd⟩
    exact ⟨hobtained, hobtained, rfl, rfl, hshares, hshares⟩
  refine ⟨⟨Nat.one_lt_two, hrows Nat.one_lt_two (by omega) hdvd rfl⟩, ⟨Nat.two_pos, ?_⟩, Nat.two_pos, Nat.one_lt_two,
    trivial⟩
  exact hrows Nat.two_pos (by omega) (Nat.dvd_refl 2) hheap

/-- Two ranks exchange two bytes each, or a rank with two bytes meets one with none: where the sizes are named, they get
and leave what they do without. -/
theorem even_as_equal_pair :
    pair.Assembled 2 0 pairGroup ∧
      (pair.AllowsAll 2 0 pairGroup (pairEvents 2) ∧
        (pair.play (.equal 2) pairGroup (pairEvents 2)).1 = [.ok true, .ok true, .ok true, .ok true] ∧
        (pair.play (.equal 2) pairGroup (pairEvents 2)).2.machine.store.heap =
          { blocks := #[#[1, 4, 3], #[2, 5, 6]] }) ∧
      pair.AllowsAll 2 0 pairGroup (pairEvents 0) ∧
        (pair.play (.equal 2) pairGroup (pairEvents 0)).1 = [.ok true, .ok true,
          .error (.error (.substrate "alltoall_base" (Mismatch.exchanged 0 1 1 0).message)),
          .error (.error (.substrate "alltoall_base" (Mismatch.exchanged 0 1 1 0).message))] ∧
        (pair.play (.equal 2) pairGroup (pairEvents 0)).2.machine.store.heap = pairHeap := by
  have htwo : pair.AllowsAll 2 0 pairGroup (pairEvents 2) := allowsAll_pair (by decide) (by decide) rfl
  have hnone : pair.AllowsAll 2 0 pairGroup (pairEvents 0) := allowsAll_pair (by decide) (by decide) rfl
  obtain ⟨hanswers, hheap, -⟩ := even_as_equal assembled_pair htwo
  obtain ⟨hanswers', hheap', -⟩ := even_as_equal assembled_pair hnone
  rw [hanswers, hheap, hanswers', hheap']
  exact ⟨assembled_pair, ⟨htwo, rfl, rfl⟩, hnone, rfl, rfl⟩

end Party

end Collectives
