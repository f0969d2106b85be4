import Collectives.Proofs.Assembly

/-!
# Dispersals

Once all ranks have come to an exchange each of them waits for its call, in any order, while anything else happens
elsewhere. A rank that received into new blocks then copies out of them. If the ranks agree, every wait succeeds, and
every rank is left with what was sent to it; if they do not, every wait fails, and nothing is copied.
-/

namespace Collectives

/-- Waits until a call is over: it goes on to its handle, and the handle is waited for. The answer is `false` while the
caller stays blocked. -/
def Ongoing.await {τ : Type} (o : Ongoing) : Act τ Bool := do
  match ← o.advance with
  | none => return false
  | some handle =>
    let progress ← (handle.wait : StateM (Engine τ) Progress)
    progress.answer

/-- What a wait for a call answers, given how the call ended. -/
def awaited (operation : String) : CallOutcome → Except Failure Bool
  | none => .ok true
  | some mismatch => .error (.error (.substrate operation mismatch.message))

/-- The environment is open, and over the rank's end of the fabric. -/
structure Engine.Serves (e : Engine Fabric) (rank : Nat) : Prop where
  substrate : e.environment.substrate = Fabric.substrate rank
  unfinalized : e.environment.finalized = false

/-! ## Waiting for a call that is over -/

/-- Closing an environment touches neither the fabric nor memory. -/
theorem Engine.finalize_fabric {e : Engine Fabric} {rank : Nat} (hs : e.environment.substrate = Fabric.substrate rank) :
    e.finalize.machine.net = e.machine.net ∧ e.finalize.machine.store.heap = e.machine.store.heap := by
  have hidle : e.releaseWorld.machine = e.machine ∧ e.releaseWorld.environment.substrate = Fabric.substrate rank := by
    unfold releaseWorld
    cases e.environment.world with
    | none => exact ⟨rfl, hs⟩
    | some comm =>
      dsimp only [releaseCommunicator, substrate]
      rw [hs]
      exact ⟨rfl, rfl⟩
  unfold finalize
  split
  · exact ⟨rfl, rfl⟩
  · dsimp only [log, Store.log, substrate]
    rw [hidle.2, hidle.1]
    exact ⟨rfl, rfl⟩

/-- Nor does giving a reference back, be it the last one. -/
theorem Engine.release_fabric {e : Engine Fabric} {rank : Nat} (hs : e.environment.substrate = Fabric.substrate rank) :
    e.release.machine.net = e.machine.net ∧ e.release.machine.store.heap = e.machine.store.heap := by
  unfold release
  dsimp only
  split
  · exact finalize_fabric hs
  · exact ⟨rfl, rfl⟩

namespace Fabric.Decided

variable {n q : Nat} {request : Nat → Nat} {outcome : CallOutcome} {m : Machine Fabric} {e : Engine Fabric} {a : Turn}

/-- Whatever turn is taken, the outcome stands. -/
theorem turn (hd : m.net.Decided n request outcome) (ha : a.Admissible m) :
    (a.step m).net.Decided n request outcome := by
  obtain ⟨l, call, hco, hfull, hverdict, htickets⟩ := hd
  have htickets' : ∀ q < n, (((a.step m).net.endpoint q).tickets.map Ticket.call)[request q]? = some call := fun q hq =>
    Turn.getElem?_tickets_step hco ha (htickets q hq)
  cases hs : a.submission n with
  | none => exact ⟨l, call, (Turn.step_quiet hco ha hs).1, hfull, hverdict, htickets'⟩
  | some submitted =>
    obtain ⟨rank, comm, c⟩ := submitted
    obtain ⟨hfull', hgathered⟩ : (l.add rank comm c).Full n call ∧ _ := hfull.add
    exact ⟨_, call, (Turn.step_submission hco ha hs).1, hfull', hgathered ▸ hverdict, htickets'⟩

/-- Asking for the outcome gives it, and touches no memory. -/
theorem collect (hd : m.net.Decided n request outcome) (hq : q < n) :
    ∃ m', (Fabric.collect q (request q)).run m = (Fabric.report outcome, m') ∧ m'.store = m.store ∧
      m'.net.Decided n request outcome := by
  obtain ⟨l, call, hco, hfull, hverdict, htickets⟩ := hd
  have hticket := htickets q hq
  rw [List.getElem?_map] at hticket
  obtain ⟨t, ht, hcall⟩ := Option.map_eq_some_iff.mp hticket
  obtain ⟨m', hrun, hstore, hco', -, htickets'⟩ := hco.collect hq ht
  rw [hcall, if_pos hfull, hverdict] at hrun
  refine ⟨m', hrun, hstore, l, call, hco', hfull, hverdict, fun p hp => ?_⟩
  rw [htickets' p]
  exact htickets p hp

/-- A wait for the outcome completes the handle, and touches no memory. -/
theorem wait (hd : e.machine.net.Decided n request outcome) (hq : q < n) (hs : e.Serves q) {h : Handle}
    (hp : h.pending = some (request q)) :
    ∃ e', h.wait e = ({ handle := .completed h.operation, answer := awaited h.operation outcome }, e') ∧
      e'.machine.store.heap = e.machine.store.heap ∧ e'.machine.net.Decided n request outcome := by
  obtain ⟨m', hrun, hstore, hd'⟩ := hd.collect hq
  let e₁ : Engine Fabric := { e with machine := m' }
  have hask : Engine.attempt (e.environment.substrate.wait (request q)) e =
      ((Fabric.report outcome).mapError .refused, e₁) := by
    rw [attempt_eq hs.unfinalized, hs.substrate]
    exact congrArg
      (fun a : Except Refusal Bool × Machine Fabric => (a.1.mapError Denial.refused, { e with machine := a.2 })) hrun
  obtain ⟨hnet, hheap⟩ := Engine.release_fabric (e := e₁) hs.substrate
  have hfinish : h.finish e₁ = (.completed h.operation, (h.finish e₁).2) := rfl
  refine ⟨(h.finish e₁).2, ?_, ?_, ?_⟩
  · rw [Handle.wait_eq hp hask]
    cases outcome <;> rfl
  · exact hheap.trans (congrArg Store.heap hstore)
  · exact hnet.symm ▸ hd'

end Fabric.Decided

/-- What a step that cannot fail does, it does within a call. -/
theorem lift_run {τ α : Type} {step : StateM (Engine τ) α} {e e' : Engine τ} {a : α} (h : step e = (a, e')) :
    (step : Act τ α).run e = (.ok a, e') :=
  congrArg (fun a : α × Engine τ => (Except.ok a.1, a.2)) h

namespace Visit

variable {n q : Nat} {visit : Nat → Visit} {outcome : CallOutcome} {e : Engine Fabric}

/-- A call that was refused fails at its wait, and nothing is copied. -/
theorem await_refused {mismatch : Mismatch} (hd : e.machine.net.Decided n (fun q => (visit q).request) (some mismatch))
    (hq : q < n) (hs : e.Serves q) : ∃ e', (visit q).ongoing.await.run e =
      (awaited (visit q).plan.operation (some mismatch), e') ∧
      e'.machine.store.heap = e.machine.store.heap ∧
      e'.machine.net.Decided n (fun q => (visit q).request) (some mismatch) := by
  obtain ⟨e', hwait, hheap, hd'⟩ := hd.wait hq hs (h := (visit q).handle) rfl
  have hlift := lift_run hwait
  refine ⟨e', ?_, hheap, hd'⟩
  unfold ongoing Ongoing.await
  cases hcopy : (visit q).plan.copyOut with
  | none =>
    have hadvance : (Ongoing.returned (visit q).handle).advance.run e = (.ok (some (visit q).handle), e) := rfl
    rw [Option.elim_none, run_bind_ok hadvance]
    dsimp only
    rw [run_bind_ok hlift]
    rfl
  | some copyOut =>
    have hadvance : (Ongoing.staged (visit q).handle copyOut).advance.run e =
        (.error (.error (.substrate (visit q).plan.operation mismatch.message)), e') := by
      unfold Ongoing.advance Handle.completeNow
      rw [run_bind_ok hlift]
      rfl
    rw [Option.elim_some, run_bind_error hadvance]
    rfl

/-- A call that succeeded and received in place succeeds at its wait. -/
theorem await_in_place (hd : e.machine.net.Decided n (fun q => (visit q).request) none) (hq : q < n) (hs : e.Serves q)
    (hcopy : (visit q).plan.copyOut = none) : ∃ e', (visit q).ongoing.await.run e = (.ok true, e') ∧
      e'.machine.store.heap = e.machine.store.heap ∧ e'.machine.net.Decided n (fun q => (visit q).request) none := by
  obtain ⟨e', hwait, hheap, hd'⟩ := hd.wait hq hs (h := (visit q).handle) rfl
  have hlift := lift_run hwait
  have hadvance : (Ongoing.returned (visit q).handle).advance.run e = (.ok (some (visit q).handle), e) := rfl
  refine ⟨e', ?_, hheap, hd'⟩
  unfold ongoing Ongoing.await
  rw [hcopy, Option.elim_none, run_bind_ok hadvance]
  dsimp only
  rw [run_bind_ok hlift]
  rfl

/-- A call that succeeded and received elsewhere copies out, returns a handle that is completed, and then succeeds. -/
theorem await_staged (hd : e.machine.net.Decided n (fun q => (visit q).request) none) (hq : q < n) (hs : e.Serves q)
    {copyOut : CopyOut} (hcopy : (visit q).plan.copyOut = some copyOut) :
    ∃ s : Store, s.heap = e.machine.store.heap ∧ ∀ s', copyOut.run.run s = (.ok (), s') →
      ∃ e', (visit q).ongoing.advance.run e = (.ok (some (.completed (visit q).plan.operation)), e') ∧
        (visit q).ongoing.await.run e = (.ok true, e') ∧ e'.machine.store = s' ∧
        e'.machine.net.Decided n (fun q => (visit q).request) none := by
  obtain ⟨e₁, hwait, hheap, hd'⟩ := hd.wait hq hs (h := (visit q).handle) rfl
  have hlift := lift_run hwait
  refine ⟨e₁.machine.store, hheap, fun s' hrun => ?_⟩
  let e₂ : Engine Fabric := { e₁ with machine := { e₁.machine with store := s' } }
  have hadvance : (visit q).ongoing.advance.run e = (.ok (some (.completed (visit q).plan.operation)), e₂) := by
    unfold ongoing
    rw [hcopy, Option.elim_some]
    unfold Ongoing.advance Handle.completeNow
    rw [run_bind_ok hlift]
    dsimp only [awaited]
    rw [run_bind_ok (edit_run hrun)]
    rfl
  refine ⟨e₂, hadvance, ?_, rfl, hd'⟩
  unfold Ongoing.await
  rw [run_bind_ok hadvance]
  rfl

/-- The rank's wait succeeds. If the call receives elsewhere it returns once it has copied out, with a handle that is
completed. -/
structure Completes (v : Visit) (e e' : Engine Fabric) : Prop where
  awaits : v.ongoing.await.run e = (.ok true, e')
  returns : v.plan.copyOut ≠ none → v.ongoing.advance.run e = (.ok (some (.completed v.plan.operation)), e')

end Visit

/-! ## Taking what was received -/

/-- How the ranks of an exchange take what they receive: into buffers that are apart from each other, from those of the
other ranks, and from all blocks that were made for the calls. -/
structure Taking (n : Nat) (visit : Nat → Visit) (x : Nat → Exchange) (blocks : Nat → List (Buffer × Buffer)) :
    Prop where
  takes : ∀ q < n, (visit q).plan.Takes (x q) (visit q).found (visit q).planned (blocks q)
  within : ∀ q < n, (blocks q).Pairwise fun b c => b.1.Apart c.1
  between : ∀ p < n, ∀ q < n, p ≠ q → ∀ b ∈ blocks p, ∀ c ∈ blocks q, b.1.Apart c.1
  foreign : ∀ p < n, ∀ q < n, ∀ b ∈ blocks q, ∀ block pos, b.1.Holds block pos → ¬(visit p).Made block

namespace Taking

variable {n q : Nat} {visit : Nat → Visit} {x : Nat → Exchange} {blocks : Nat → List (Buffer × Buffer)}
  {e : Engine Fabric}

/-- A rank that waits for a call that succeeded is left with every block in the buffer that the block stands for, and
no other byte changes. -/
theorem await (ht : Taking n visit x blocks) (hq : q < n) (hs : e.Serves q)
    (hd : e.machine.net.Decided n (fun q => (visit q).request) none)
    (hx : (visit q).planned.heap.Extends e.machine.store.heap) (hb : e.machine.store.heap.Bounded) :
    ∃ e', (visit q).Completes e e' ∧ e'.machine.net.Decided n (fun q => (visit q).request) none ∧
      e.machine.store.heap.Extends e'.machine.store.heap ∧
      (∀ b ∈ blocks q, b.1.words e'.machine.store.heap = b.2.words e.machine.store.heap) ∧
      ∀ block pos, (∀ b ∈ blocks q, ¬b.1.Holds block pos) →
        e'.machine.store.heap.byte? block pos = e.machine.store.heap.byte? block pos := by
  cases hcopy : (visit q).plan.copyOut with
  | none =>
    obtain ⟨e', hrun, hheap, hd'⟩ := Visit.await_in_place hd hq hs hcopy
    refine ⟨e', ⟨hrun, fun h => absurd hcopy h⟩, hd', ?_, fun b hmem => ?_, fun block pos _ => ?_⟩
    · rw [hheap]
      exact .refl _
    · rw [hheap]
      exact ((ht.takes q hq).inPlace hcopy b hmem).1 _
    · rw [hheap]
  | some copyOut =>
    obtain ⟨hcopies, hcopyable, hmade⟩ := (ht.takes q hq).staged copyOut hcopy
    obtain ⟨s, hs', hfinish⟩ := Visit.await_staged hd hq hs hcopy
    rw [← hs'] at hx hb
    have hready := hcopyable.later hx
    obtain ⟨s', hrun, hkept⟩ := FlatLayout.copyAll_ok hready.matches hb
    obtain ⟨e', hadvance, hawait, hstore, hd'⟩ := hfinish s' ((hcopies s).trans hrun)
    have hwords :=
      FlatLayout.words_copyAll hready.matches hb (ht.within q hq) (fun b hb c hc block pos hh hsource => ?_) hrun
    · subst hstore
      rw [← hs']
      exact ⟨e', ⟨hawait, fun _ => hadvance⟩, hd', (FlatLayout.copyAll_extends (blocks q)).of_run hrun, hwords, hkept⟩
    · exact ht.foreign q hq q hq b hb block pos hh (hmade c hc block pos hsource)

/-- What stands for a buffer is that buffer, or it is in a block that was made. -/
theorem source_cases (ht : Taking n visit x blocks) (hq : q < n) {b : Buffer × Buffer} (hb : b ∈ blocks q)
    {block pos : Nat} (hh : b.2.Holds block pos) : b.1.Holds block pos ∨ (visit q).Made block := by
  cases hcopy : (visit q).plan.copyOut with
  | none => exact .inl ((((ht.takes q hq).inPlace hcopy b hb).2 block pos).mp hh)
  | some copyOut =>
    obtain ⟨-, -, hmade⟩ := (ht.takes q hq).staged copyOut hcopy
    exact .inr (hmade b hb block pos hh)

/-- So it reads the same while the rank's buffers and what was made for it are untouched. -/
theorem source_words (ht : Taking n visit x blocks) (hq : q < n) {b : Buffer × Buffer} (hb : b ∈ blocks q) {h h' : Heap}
    (huntouched : ∀ block pos, ((visit q).Made block ∨ ∃ b ∈ blocks q, b.1.Holds block pos) →
      h'.byte? block pos = h.byte? block pos) : b.2.words h' = b.2.words h := by
  refine Buffer.words_congr fun block pos hh => huntouched block pos ?_
  rcases ht.source_cases hq hb hh with hown | hmade
  · exact .inr ⟨b, hb, hown⟩
  · exact .inl hmade

end Taking

/-! ## Dispersals -/

/-- The ranks that came to a call wait for it: who has, and where that leads. Bytes that are quiet, and the blocks that
were made for the calls, are left alone by everything else. -/
inductive Dispersal (n : Nat) (visit : Nat → Visit) (quiet : Nat → Nat → Prop) (start : Machine Fabric) :
    List Nat → Machine Fabric → Prop where
  /-- All ranks have come. -/
  | start : Dispersal n visit quiet start [] start
  /-- One more rank waits for its call. -/
  | await {done : List Nat} {e e' : Engine Fabric} {q : Nat} {answer : Except Failure Bool}
      (dispersal : Dispersal n visit quiet start done e.machine) (rank : q < n) (new : q ∉ done) (serves : e.Serves q)
      (awaits : (visit q).ongoing.await.run e = (answer, e')) : Dispersal n visit quiet start (q :: done) e'.machine
  /-- Something else happens. -/
  | turn {done : List Nat} {m : Machine Fabric} {a : Turn} (dispersal : Dispersal n visit quiet start done m)
      (admissible : a.Admissible m) (work : ∀ change, a = .work change → m.store.heap.Extends (change m.store).heap)
      (kept : ∀ block pos, (quiet block pos ∨ ∃ q < n, (visit q).Made block) →
        (a.step m).store.heap.byte? block pos = m.store.heap.byte? block pos) :
      Dispersal n visit quiet start done (a.step m)

/-! ## What waiting leaves -/

/-- What the waits for a call that succeeded make of memory, which is `start` when all ranks have come. A rank changes
bytes of its own area only, and leaves a result there, if it finds the area and what was made for it untouched. -/
structure Leaving (n : Nat) (visit : Nat → Visit) (start : Heap) (area : Nat → Nat → Nat → Prop)
    (result : Nat → Heap → Prop) : Prop where
  awaits : ∀ (e : Engine Fabric) (q : Nat), q < n → e.Serves q →
    e.machine.net.Decided n (fun q => (visit q).request) none → start.Extends e.machine.store.heap →
    (∀ block pos, (visit q).Made block ∨ area q block pos →
      e.machine.store.heap.byte? block pos = start.byte? block pos) →
    ∃ e', (visit q).Completes e e' ∧ e'.machine.net.Decided n (fun q => (visit q).request) none ∧
      e.machine.store.heap.Extends e'.machine.store.heap ∧ result q e'.machine.store.heap ∧
      ∀ block pos, ¬area q block pos →
        e'.machine.store.heap.byte? block pos = e.machine.store.heap.byte? block pos
  /-- A result is a matter of the area. -/
  within : ∀ q < n, ∀ h h' : Heap, (∀ block pos, area q block pos → h'.byte? block pos = h.byte? block pos) →
    result q h → result q h'
  between : ∀ p < n, ∀ q < n, p ≠ q → ∀ block pos, area p block pos → ¬area q block pos
  foreign : ∀ p < n, ∀ q < n, ∀ block pos, area q block pos → ¬(visit p).Made block

/-- Ranks that take what they receive into buffers leave it in these. -/
theorem Taking.leaving {n : Nat} {visit : Nat → Visit} {x : Nat → Exchange} {blocks : Nat → List (Buffer × Buffer)}
    {start : Heap} (ht : Taking n visit x blocks) (hlater : ∀ q < n, (visit q).planned.heap.Extends start)
    (hb : start.Bounded) :
    Leaving n visit start (fun q block pos => ∃ b ∈ blocks q, b.1.Holds block pos)
      fun q h => ∀ b ∈ blocks q, b.1.words h = b.2.words start := by
  refine ⟨fun e q hq hs hd hx huntouched => ?_, fun q hq h h' hsame hleft b hmem => ?_, ?_, ?_⟩
  · obtain ⟨e', hcompletes, hd', hx', hwords, hkept⟩ := ht.await hq hs hd ((hlater q hq).trans hx) (hx.bounded hb)
    refine ⟨e', hcompletes, hd', hx', fun b hmem => ?_, fun block pos hout => hkept block pos fun b hmem hh => ?_⟩
    · rw [hwords b hmem, ht.source_words hq hmem huntouched]
    · exact hout ⟨b, hmem, hh⟩
  · rw [← hleft b hmem]
    exact Buffer.words_congr fun block pos hh => hsame block pos ⟨b, hmem, hh⟩
  · rintro p hp q hq hne block pos ⟨b, hmem, hh⟩ ⟨c, hmem', hh'⟩
    exact ht.between p hp q hq hne b hmem c hmem' block pos hh hh'
  · rintro p hp q hq block pos ⟨b, hmem, hh⟩
    exact ht.foreign p hp q hq b hmem block pos hh

namespace Dispersal

/-- Where a dispersal stands after a call that succeeded. -/
structure Standing (n : Nat) (visit : Nat → Visit) (quiet : Nat → Nat → Prop) (area : Nat → Nat → Nat → Prop)
    (result : Nat → Heap → Prop) (start : Machine Fabric) (done : List Nat) (m : Machine Fabric) : Prop where
  decided : m.net.Decided n (fun q => (visit q).request) none
  later : start.store.heap.Extends m.store.heap
  member : ∀ q ∈ done, q < n
  left : ∀ q ∈ done, result q m.store.heap
  kept : ∀ block pos, (quiet block pos ∨ ∃ q < n, (visit q).Made block) →
    (∀ q ∈ done, ¬area q block pos) → m.store.heap.byte? block pos = start.store.heap.byte? block pos

variable {n q : Nat} {visit : Nat → Visit} {quiet : Nat → Nat → Prop} {area : Nat → Nat → Nat → Prop}
  {result : Nat → Heap → Prop} {start m : Machine Fabric} {done : List Nat} {e : Engine Fabric}

/-- Those that have waited are ranks. -/
theorem lt_of_mem (h : Dispersal n visit quiet start done m) : ∀ q ∈ done, q < n := by
  induction h with
  | start => simp
  | await dispersal rank new serves awaits ih => exact List.forall_mem_cons.mpr ⟨rank, ih⟩
  | turn dispersal admissible work kept ih => exact ih

/-- All ranks can wait, in the order of their ranks. -/
theorem exists_all (n : Nat) (visit : Nat → Visit) (quiet : Nat → Nat → Prop) (start : Machine Fabric) :
    ∃ m, Dispersal n visit quiet start (List.range n).reverse m := by
  have hfirst : ∀ j ≤ n, ∃ m, Dispersal n visit quiet start (List.range j).reverse m := by
    intro j
    induction j with
    | zero => exact fun _ => ⟨start, .start⟩
    | succ j ih =>
      intro hj
      obtain ⟨m, hd⟩ := ih (Nat.le_of_succ_le hj)
      let e : Engine Fabric := { environment := { substrate := Fabric.substrate j, config := {} }, machine := m }
      have hnew : j ∉ (List.range j).reverse := by simp
      have hnext := hd.await (e := e) hj hnew ⟨rfl, rfl⟩ rfl
      rw [List.range_succ, List.reverse_append]
      exact ⟨_, hnext⟩
  exact hfirst n le_rfl

/-- A rank that still has to wait finds its area and what was made for it as they were when all had come. -/
theorem Standing.untouched (hst : Standing n visit quiet area result start done m)
    (hl : Leaving n visit start.store.heap area result)
    (hquiet : ∀ q < n, ∀ block pos, area q block pos → quiet block pos)
    (hq : q < n) (hnew : q ∉ done) : ∀ block pos, (visit q).Made block ∨ area q block pos →
      m.store.heap.byte? block pos = start.store.heap.byte? block pos := by
  rintro block pos (hmade | harea)
  · refine hst.kept block pos (.inr ⟨q, hq, hmade⟩) fun p hp hheld => ?_
    exact hl.foreign q hq p (hst.member p hp) block pos hheld hmade
  · refine hst.kept block pos (.inl (hquiet q hq block pos harea)) fun p hp hheld => ?_
    have hne : p ≠ q := fun h => hnew (h ▸ hp)
    exact hl.between p (hst.member p hp) q hq hne block pos hheld harea

/-- A rank that waits succeeds, and leaves its result. -/
theorem Standing.await (hst : Standing n visit quiet area result start done e.machine)
    (hl : Leaving n visit start.store.heap area result)
    (hquiet : ∀ q < n, ∀ block pos, area q block pos → quiet block pos)
    (hq : q < n) (hnew : q ∉ done) (hs : e.Serves q) :
    ∃ e', (visit q).Completes e e' ∧ Standing n visit quiet area result start (q :: done) e'.machine := by
  obtain ⟨e', hcompletes, hd, hx, hleft, hkept⟩ :=
    hl.awaits e q hq hs hst.decided hst.later (hst.untouched hl hquiet hq hnew)
  refine ⟨e', hcompletes, hd, hst.later.trans hx, List.forall_mem_cons.mpr ⟨hq, hst.member⟩, ?_,
    fun block pos hstill hout => ?_⟩
  · refine List.forall_mem_cons.mpr ⟨hleft, fun p hp => ?_⟩
    -- The areas of the ranks that have waited are apart from this rank's.
    have hne : p ≠ q := fun h => hnew (h ▸ hp)
    refine hl.within p (hst.member p hp) _ _ (fun block pos harea => ?_) (hst.left p hp)
    exact hkept block pos (hl.between p (hst.member p hp) q hq hne block pos harea)
  · obtain ⟨hnot, hnots⟩ := List.forall_mem_cons.mp hout
    rw [hkept block pos hnot, hst.kept block pos hstill hnots]

/-- Whatever else happens leaves the dispersal where it stands. -/
theorem Standing.turn {a : Turn} (hst : Standing n visit quiet area result start done m)
    (hl : Leaving n visit start.store.heap area result)
    (hquiet : ∀ q < n, ∀ block pos, area q block pos → quiet block pos)
    (ha : a.Admissible m) (hw : ∀ change, a = .work change → m.store.heap.Extends (change m.store).heap)
    (hkept : ∀ block pos, (quiet block pos ∨ ∃ q < n, (visit q).Made block) →
      (a.step m).store.heap.byte? block pos = m.store.heap.byte? block pos) :
    Standing n visit quiet area result start done (a.step m) := by
  obtain ⟨l, call, hco, -⟩ := hst.decided
  refine ⟨hst.decided.turn ha, hst.later.trans (Turn.extends_step hco ha hw), hst.member, fun q hq => ?_,
    fun block pos hstill hout => ?_⟩
  · have hrank := hst.member q hq
    refine hl.within q hrank _ _ (fun block pos harea => hkept block pos (.inl ?_)) (hst.left q hq)
    exact hquiet q hrank block pos harea
  · rw [hkept block pos hstill, hst.kept block pos hstill hout]

/-- Every dispersal after a call that succeeded stands somewhere. -/
theorem standing (h : Dispersal n visit quiet start done m) (hl : Leaving n visit start.store.heap area result)
    (hd : start.net.Decided n (fun q => (visit q).request) none)
    (hquiet : ∀ q < n, ∀ block pos, area q block pos → quiet block pos) :
    Standing n visit quiet area result start done m := by
  induction h with
  | start => exact ⟨hd, .refl _, by simp, by simp, fun _ _ _ _ => rfl⟩
  | @await done e e' q answer dispersal rank new serves awaits ih =>
    obtain ⟨e'', hcompletes, hst⟩ := ih.await hl hquiet rank new serves
    have hsame : e'' = e' := congrArg Prod.snd (hcompletes.awaits.symm.trans awaits)
    exact hsame ▸ hst
  | turn dispersal admissible work kept ih => exact ih.turn hl hquiet admissible work kept

/-- After a call that was refused no quiet byte changes, and the refusal stands. -/
theorem refused (h : Dispersal n visit quiet start done m) {mismatch : Mismatch}
    (hd : start.net.Decided n (fun q => (visit q).request) (some mismatch)) :
    m.net.Decided n (fun q => (visit q).request) (some mismatch) ∧
      ∀ block pos, quiet block pos → m.store.heap.byte? block pos = start.store.heap.byte? block pos := by
  induction h with
  | start => exact ⟨hd, fun _ _ _ => rfl⟩
  | @await done e e' q answer dispersal rank new serves awaits ih =>
    obtain ⟨hd', hkept⟩ := ih
    obtain ⟨e'', hrun, hheap, hd''⟩ := Visit.await_refused hd' rank serves
    have hsame : e'' = e' := congrArg Prod.snd (hrun.symm.trans awaits)
    rw [← hsame]
    refine ⟨hd'', fun block pos hq => ?_⟩
    rw [hheap, hkept block pos hq]
  | turn dispersal admissible work kept ih =>
    refine ⟨ih.1.turn admissible, fun block pos hq => ?_⟩
    rw [kept block pos (.inl hq), ih.2 block pos hq]

end Dispersal

/-! ## What an exchange leaves -/

/-- What is not in a new block is as it was. -/
theorem Heap.Grows.byte?_of_not_made {s s' : Store} (hg : s.heap.Grows s'.heap) {block : Nat} (hold : ¬s.Made s' block)
    (pos : Nat) : s'.heap.byte? block pos = s.heap.byte? block pos := by
  rcases Nat.lt_or_ge block s.heap.blocks.size with hlt | hge
  · exact hg.kept block pos hlt
  · have hout : s'.heap.blocks.size ≤ block := Nat.le_of_not_lt fun hlt => hold ⟨hge, hlt⟩
    unfold byte?
    rw [Array.getElem?_eq_none hge, Array.getElem?_eq_none hout]

/-- After ranks agreed: whoever still has to wait succeeds, and outside the outputs nothing has changed that is
quiet. -/
structure Dispersal.Succeeds (n : Nat) (visit : Nat → Visit) (outputs : Nat → List Buffer) (quiet : Nat → Nat → Prop)
    (h : Heap) (done : List Nat) (m : Machine Fabric) : Prop where
  answers : ∀ (e : Engine Fabric) (q : Nat), e.machine = m → q < n → q ∉ done → e.Serves q →
    ∃ e', (visit q).Completes e e'
  elsewhere : ∀ block pos, quiet block pos → (∀ q < n, ¬(visit q).Made block) →
    (∀ q < n, ∀ b ∈ outputs q, ¬b.Holds block pos) → m.store.heap.byte? block pos = h.byte? block pos

/-- After ranks did not agree: whoever still has to wait gets an error of the substrate, and nothing has changed that is
quiet. -/
structure Dispersal.Fails (n : Nat) (visit : Nat → Visit) (operation : String) (quiet : Nat → Nat → Prop) (h : Heap)
    (done : List Nat) (m : Machine Fabric) : Prop where
  answers : ∀ (e : Engine Fabric) (q : Nat), e.machine = m → q < n → q ∉ done → e.Serves q →
    ∃ message e', (visit q).ongoing.await.run e = (.error (.error (.substrate operation message)), e')
  elsewhere : ∀ block pos, quiet block pos → (∀ q < n, ¬(visit q).Made block) →
    m.store.heap.byte? block pos = h.byte? block pos

namespace Assembly.Met

variable {n r i j : Nat} {group : Nat → Group} {what : Nat → Collective Buffer} {visit : Nat → Visit}
  {e e' : Engine Fabric} {cs : List Contribution} {x : Nat → Exchange} {blocks : Nat → List (Buffer × Buffer)}
  {quiet : Nat → Nat → Prop} {area : Nat → Nat → Nat → Prop} {result : Nat → Heap → Prop} {done : List Nat}
  {m : Machine Fabric}

/-- What one rank receives into, another does not. -/
theorem landing_apart (hm : Met n group what visit r e e' cs) (ht : Taking n visit x blocks) (hi : i < n) (hj : j < n)
    (hne : i ≠ j) : (x i).landing.Apart (x j).landing := by
  intro block pos hh hh'
  rcases (ht.takes i hi).lands block pos hh with hmade | ⟨b, hb, hheld⟩
  · rcases (ht.takes j hj).lands block pos hh' with hmade' | ⟨c, hc, hheld'⟩
    · exact hm.apart i hi j hj hne block hmade hmade'
    · exact ht.foreign i hi j hj c hc block pos hheld' hmade
  · rcases (ht.takes j hj).lands block pos hh' with hmade' | ⟨c, hc, hheld'⟩
    · exact ht.foreign j hj i hi b hb block pos hheld hmade'
    · exact ht.between i hi j hj hne b hb c hc block pos hheld hheld'

/-- The ranks that agree receive what was sent to them. -/
theorem words_received (hm : Met n group what visit r e e' cs) (ht : Taking n visit x blocks)
    (hx : ∀ q < n, (visit q).plan.Asks (x q) n (visit q).found (visit q).planned) (ha : Agree cs) (hi : i < n)
    (hj : j < n) :
    ((x j).received i).words e'.machine.store.heap = ((x i).sent j).words (visit r).planned.heap := by
  rw [hm.performed]
  exact (hm.trade hx).words_after ha hi hj fun q hq hne => hm.landing_apart ht hq hj hne

/-- The last plan leaves what is not in a block that was made as it was. -/
theorem byte?_planned (hm : Met n group what visit r e e' cs) (hr : r < n) {block : Nat}
    (hmade : ∀ q < n, ¬(visit q).Made block) (pos : Nat) :
    (visit r).planned.heap.byte? block pos = e.machine.store.heap.byte? block pos := by
  have hgrows : (visit r).found.heap.Grows (visit r).planned.heap := hm.found ▸ hm.grows
  rw [hgrows.byte?_of_not_made (hmade r hr), hm.found]

/-- The last call changes no byte outside what the ranks take what they receive into. -/
theorem byte?_elsewhere (hm : Met n group what visit r e e' cs) (ht : Taking n visit x blocks)
    (hx : ∀ q < n, (visit q).plan.Asks (x q) n (visit q).found (visit q).planned) (hr : r < n) {block pos : Nat}
    (hmade : ∀ q < n, ¬(visit q).Made block) (hout : ∀ q < n, ∀ b ∈ blocks q, ¬b.1.Holds block pos) :
    e'.machine.store.heap.byte? block pos = e.machine.store.heap.byte? block pos := by
  rw [hm.performed, (hm.trade hx).byte?_after, hm.byte?_planned hr hmade]
  intro q hq hh
  rcases (ht.takes q hq).lands block pos hh with h | ⟨b, hb, hheld⟩
  · exact hmade q hq h
  · exact hout q hq b hb hheld

/-- What lies back to back is sent as it is at the last call; anything else as it was at its rank's call. -/
theorem words_sent (hm : Met n group what visit r e e' cs) {buffers : List Buffer} (hi : i < n)
    (hgives : (x i).Gives (visit i).found (visit i).planned buffers) (hops : ∀ b ∈ buffers, b ∈ (what i).operands)
    {b : Buffer} (hb : buffers[j]? = some b) :
    (BackToBack buffers → ((x i).sent j).words (visit r).planned.heap = b.words e.machine.store.heap) ∧
      (¬BackToBack buffers → ((x i).sent j).words (visit r).planned.heap = b.words (visit i).found.heap) := by
  constructor
  · intro htogether
    rw [hgives.inPlace htogether j b hb]
    exact hm.grows.words (hm.sound i hi b (hops b (List.mem_of_getElem? hb)))
  · intro hscattered
    obtain ⟨hwords, hmade⟩ := hgives.staged hscattered j b hb
    rw [← hwords]
    exact Buffer.words_congr fun block pos hh => hm.kept i hi block pos (hmade block pos hh)

/-- After ranks agreed a dispersal stands somewhere, in memory that extends what they were planned on. -/
theorem standing (hm : Met n group what visit r e e' cs) (ha : Agree cs)
    (hl : Leaving n visit e'.machine.store.heap area result)
    (hquiet : ∀ q < n, ∀ block pos, area q block pos → quiet block pos)
    (h : Dispersal n visit quiet e'.machine done m) :
    Dispersal.Standing n visit quiet area result e'.machine done m := by
  have hdecided := hm.decided
  rw [(verdict_eq_none_iff hm.gathered).mpr ha] at hdecided
  exact h.standing hl hdecided hquiet

/-- The memory that the last call leaves extends what each rank planned on. -/
theorem extends_performed (hm : Met n group what visit r e e' cs) :
    (visit r).planned.heap.Extends e'.machine.store.heap := by
  rw [hm.performed]
  exact Heap.extends_after hm.gathered _

/-- Whoever still has to wait succeeds, and nothing changes outside the outputs, if these have all areas in them. -/
theorem succeeds (hst : Dispersal.Standing n visit quiet area result e'.machine done m)
    (hl : Leaving n visit e'.machine.store.heap area result)
    (hquiet : ∀ q < n, ∀ block pos, area q block pos → quiet block pos) {outputs : Nat → List Buffer}
    (houtputs : ∀ q < n, ∀ block pos, area q block pos → ∃ b ∈ outputs q, b.Holds block pos)
    (hsame : ∀ block pos, (∀ q < n, ¬(visit q).Made block) → (∀ q < n, ∀ b ∈ outputs q, ¬b.Holds block pos) →
      e'.machine.store.heap.byte? block pos = e.machine.store.heap.byte? block pos) :
    Dispersal.Succeeds n visit outputs quiet e.machine.store.heap done m := by
  constructor
  · rintro e₁ q rfl hq hnew hs
    obtain ⟨e₂, hcompletes, -⟩ := hst.await hl hquiet hq hnew hs
    exact ⟨e₂, hcompletes⟩
  · intro block pos hstill hmade hout
    rw [hst.kept block pos (.inl hstill) fun q hq harea => ?_, hsame block pos hmade hout]
    obtain ⟨b, hb, hh⟩ := houtputs q (hst.member q hq) block pos harea
    exact hout q (hst.member q hq) b hb hh

/-- While ranks that agreed wait for their calls, those that have done so, or that receive in place, have what was sent
to them. -/
theorem dispersal_succeeds (hm : Met n group what visit r e e' cs) (ht : Taking n visit x blocks)
    (hx : ∀ q < n, (visit q).plan.Asks (x q) n (visit q).found (visit q).planned) (hr : r < n) (ha : Agree cs)
    (h : Dispersal n visit quiet e'.machine done m) (outputs : Nat → List Buffer)
    (houtputs : ∀ q < n, ∀ b ∈ blocks q, b.1 ∈ outputs q)
    (hquiet : ∀ q < n, ∀ b ∈ outputs q, ∀ block pos, b.Holds block pos → quiet block pos) :
    Dispersal.Succeeds n visit outputs quiet e.machine.store.heap done m ∧
      ∀ q < n, q ∈ done ∨ (visit q).plan.copyOut = none →
        ∀ b ∈ blocks q, b.1.words m.store.heap = b.2.words e'.machine.store.heap := by
  have hafter := hm.extends_performed
  have hl := ht.leaving (fun q hq => (hm.later q hq).trans hafter) (hafter.bounded hm.bounded)
  have hquiet' : ∀ q < n, ∀ block pos, (∃ b ∈ blocks q, b.1.Holds block pos) → quiet block pos := by
    rintro q hq block pos ⟨b, hb, hh⟩
    exact hquiet q hq b.1 (houtputs q hq b hb) block pos hh
  have hst := hm.standing ha hl hquiet' h
  constructor
  · refine succeeds hst hl hquiet' (fun q hq block pos harea => ?_) fun block pos hmade hout => ?_
    · obtain ⟨b, hb, hh⟩ := harea
      exact ⟨b.1, houtputs q hq b hb, hh⟩
    · exact hm.byte?_elsewhere ht hx hr hmade fun q hq b hb => hout q hq b.1 (houtputs q hq b hb)
  · intro q hq hready b hmem
    by_cases hdone : q ∈ done
    · exact hst.left q hdone b hmem
    · rw [((ht.takes q hq).inPlace (hready.resolve_left hdone) b hmem).1,
        ht.source_words hq hmem (hst.untouched hl hquiet' hq hdone)]

/-- While ranks that did not agree wait for their calls, nothing changes. -/
theorem dispersal_fails (hm : Met n group what visit r e e' cs) (hr : r < n) (ha : ¬Agree cs)
    (h : Dispersal n visit quiet e'.machine done m) {operation : String}
    (hoperation : ∀ q < n, (visit q).plan.operation = operation) :
    Dispersal.Fails n visit operation quiet e.machine.store.heap done m := by
  have hdecided := hm.decided
  cases hverdict : verdict cs with
  | none => exact absurd ((verdict_eq_none_iff hm.gathered).mp hverdict) ha
  | some mismatch =>
    rw [hverdict] at hdecided
    obtain ⟨hstill, hkept⟩ := h.refused hdecided
    refine ⟨?_, fun block pos hleft hmade => ?_⟩
    · rintro e₁ q rfl hq - hs
      obtain ⟨e₂, hrun, -⟩ := Visit.await_refused hstill hq hs
      rw [hoperation q hq] at hrun
      exact ⟨mismatch.message, e₂, hrun⟩
    · have hsame : e'.machine.store.heap = (visit r).planned.heap := by
        rw [hm.performed]
        rcases after_ok hm.gathered (visit r).planned.heap with ⟨-, hsame⟩ | ⟨hagree, -⟩
        · exact hsame
        · exact absurd hagree ha
      rw [hkept block pos hleft, hsame, hm.byte?_planned hr hmade]

end Assembly.Met

end Collectives
