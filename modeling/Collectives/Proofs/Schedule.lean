import Collectives.Proofs.Coherence

/-!
# Schedules on the fabric

A schedule is any order in which ranks make communicators, issue calls, enter barriers, ask for requests and
work on memory. What a schedule has issued is a ledger, and the fabric stays coherent with it throughout: the
slots, the requests, their answers and the order in which collectives were performed are all determined by
what was issued.
-/

namespace Collectives

/-- What a rank does. -/
inductive Turn where
  /-- It makes its next communicator. -/
  | create (rank : Nat)
  /-- It issues a call. -/
  | issue (rank comm : Nat) (call : Call) (attr : Attributes)
  /-- It enters a barrier. -/
  | barrier (rank comm : Nat)
  /-- It asks for a request. -/
  | test (rank request : Nat)
  /-- It works on memory without the fabric. -/
  | work (change : Store → Store)

/-- What happens to memory. -/
inductive Effect where
  /-- The collective of a call is performed. -/
  | performed (call : Nat × Nat)
  /-- A rank works on it. -/
  | worked (change : Store → Store)

/-- The end of a communicator that a rank has made on the fabric. -/
def Fabric.communicator (f : Fabric) (rank number : Nat) : Communicator :=
  { number, rank, size := f.size, vector := true }

namespace Turn

/-- The machine after a turn, whether the fabric answers or refuses. -/
def step (m : Machine Fabric) : Turn → Machine Fabric
  | .create rank => ((Fabric.substrate rank).create.run m).2
  | .issue rank comm call attr =>
    (((Fabric.substrate rank).issue (m.net.communicator rank comm) call attr).run m).2
  | .barrier rank comm => (((Fabric.substrate rank).barrier (m.net.communicator rank comm)).run m).2
  | .test rank request => (((Fabric.substrate rank).test request).run m).2
  | .work change => { m with store := change m.store }

/-- The rank, the communicator and the contribution of a turn that submits one to a fabric of `n` ranks. -/
def submission (n : Nat) : Turn → Option (Nat × Nat × Contribution)
  | .issue rank comm call _ =>
    match Fabric.contribution n call with
    | .ok c => some (rank, comm, c)
    | .error _ => none
  | .barrier rank comm => some (rank, comm, Fabric.barrierContribution)
  | .create _ | .test .. | .work _ => none

/-- A rank of the fabric takes the turn, on a communicator that it has made, and no byte count leaves the
range of sizes. -/
def Admissible (m : Machine Fabric) : Turn → Prop
  | .create rank | .test rank _ => rank < m.net.size
  | .issue rank comm call _ =>
    rank < m.net.size ∧ comm < (m.net.endpoint rank).issued.length ∧
      ∀ c, Fabric.contribution m.net.size call = .ok c → c.Fits
  | .barrier rank comm => rank < m.net.size ∧ comm < (m.net.endpoint rank).issued.length
  | .work _ => True

instance (m : Machine Fabric) : DecidablePred (Admissible m)
  | .create rank | .test rank _ => inferInstanceAs (Decidable (rank < m.net.size))
  | .issue rank comm call _ =>
    have : Decidable (∀ c, Fabric.contribution m.net.size call = .ok c → c.Fits) :=
      match Fabric.contribution m.net.size call with
      | .ok c => decidable_of_iff c.Fits ⟨fun hc _ h => Except.ok.inj h ▸ hc, fun h => h c rfl⟩
      | .error _ => .isTrue fun _ h => nomatch h
    inferInstanceAs (Decidable (rank < m.net.size ∧ comm < (m.net.endpoint rank).issued.length ∧ _))
  | .barrier rank comm =>
    inferInstanceAs (Decidable (rank < m.net.size ∧ comm < (m.net.endpoint rank).issued.length))
  | .work _ => .isTrue trivial

/-- What a turn does to memory: work, or the collective of a call whose slot lacks this contribution only. -/
def effect (m : Machine Fabric) (a : Turn) : Option Effect :=
  match a, a.submission m.net.size with
  | .work change, _ => some (.worked change)
  | _, some (rank, comm, _) =>
    if (m.net.slot (m.net.upcoming rank comm)).arrived + 1 = m.net.size then
      some (.performed (m.net.upcoming rank comm))
    else none
  | _, none => none

/-- Every turn is admissible when it is taken, from a machine on. -/
def AllAdmissible (m : Machine Fabric) : List Turn → Prop
  | [] => True
  | a :: turns => a.Admissible m ∧ AllAdmissible (a.step m) turns

instance decidableAllAdmissible (m : Machine Fabric) : (turns : List Turn) → Decidable (AllAdmissible m turns)
  | [] => .isTrue trivial
  | a :: turns =>
    have := decidableAllAdmissible (a.step m) turns
    inferInstanceAs (Decidable (a.Admissible m ∧ AllAdmissible (a.step m) turns))

/-- What turns do to memory, one after the other. -/
def effects (m : Machine Fabric) : List Turn → List Effect
  | [] => []
  | a :: turns => (a.effect m).toList ++ effects (a.step m) turns

end Turn

/-- What a schedule has issued: the contributions of each rank on each communicator, oldest first. -/
def ledger (n : Nat) (turns : List Turn) : Ledger := fun rank comm =>
  turns.filterMap fun a =>
    match a.submission n with
    | some (r, k, c) => if r = rank ∧ k = comm then some c else none
    | none => none

/-- The communicators on which a rank has submitted, oldest submission first. -/
def submittedOn (n : Nat) (turns : List Turn) (rank : Nat) : List Nat :=
  turns.filterMap fun a =>
    match a.submission n with
    | some (r, k, _) => if r = rank then some k else none
    | none => none

/-- The calls of a rank's requests, by request number. -/
def requests (n : Nat) (turns : List Turn) (rank : Nat) : List (Nat × Nat) :=
  (submittedOn n turns rank).mapIdx fun i comm => (comm, ((submittedOn n turns rank).take i).count comm)

/-- A schedule on a new fabric of `n` ranks: its turns, what they did to memory, and where they lead. -/
inductive Fabric.Run (n : Nat) (store : Store) : List Turn → List Effect → Machine Fabric → Prop
  /-- Nothing has happened yet. -/
  | start : Fabric.Run n store [] [] { store, net := Fabric.ofSize n }
  /-- One more turn. -/
  | step {turns : List Turn} {effects : List Effect} {m : Machine Fabric} {a : Turn}
      (run : Fabric.Run n store turns effects m) (admissible : a.Admissible m) :
      Fabric.Run n store (turns ++ [a]) (effects ++ (a.effect m).toList) (a.step m)

/-- A run goes on with any turns that are admissible. -/
theorem Fabric.Run.append {n : Nat} {store : Store} {turns later : List Turn} {effects : List Effect}
    {m : Machine Fabric} (run : Fabric.Run n store turns effects m) (h : Turn.AllAdmissible m later) :
    Fabric.Run n store (turns ++ later) (effects ++ Turn.effects m later) (later.foldl Turn.step m) := by
  induction later generalizing turns effects m with
  | nil => rwa [List.append_nil, Turn.effects, List.append_nil]
  | cons a later ih =>
    rw [List.append_cons, Turn.effects, ← List.append_assoc]
    exact ih (run.step h.1) h.2

/-- Turns that are admissible from a new fabric on are a run. -/
theorem Fabric.Run.of_allAdmissible {n : Nat} {store : Store} {turns : List Turn}
    (h : Turn.AllAdmissible { store, net := Fabric.ofSize n } turns) :
    Fabric.Run n store turns (Turn.effects { store, net := Fabric.ofSize n } turns)
      (turns.foldl Turn.step { store, net := Fabric.ofSize n }) :=
  start.append h

/-- The store after an effect, given what the ranks have contributed to each call. -/
def Effect.apply (l : Ledger) (n : Nat) (store : Store) : Effect → Store
  | .performed call =>
    Fabric.conclude call store (verdict (l.gathered n call)) (store.heap.after (l.gathered n call))
  | .worked change => change store

/-- The number of the call that was performed, if it was one of the communicator. -/
def Effect.performedOn (comm : Nat) : Effect → Option Nat
  | .performed call => if call.1 = comm then some call.2 else none
  | .worked _ => none

/-! ## One more turn -/

section Moves

variable {n : Nat} {turns : List Turn} {a : Turn} {rank comm : Nat} {c : Contribution}

/-- A submission adds its contribution to what was issued. -/
theorem ledger_concat (h : a.submission n = some (rank, comm, c)) :
    ledger n (turns ++ [a]) = (ledger n turns).add rank comm c := by
  funext r k
  rw [ledger, List.filterMap_append, Ledger.add]
  simp only [List.filterMap_cons, h, List.filterMap_nil]
  by_cases hrk : r = rank ∧ k = comm
  · obtain ⟨rfl, rfl⟩ := hrk
    rw [if_pos ⟨rfl, rfl⟩, if_pos ⟨rfl, rfl⟩]
    rfl
  · rw [if_neg hrk, if_neg fun h => hrk ⟨h.1.symm, h.2.symm⟩, List.append_nil]
    rfl

/-- Any other turn leaves what was issued as it was. -/
theorem ledger_concat_of_none (h : a.submission n = none) : ledger n (turns ++ [a]) = ledger n turns := by
  funext r k
  rw [ledger, List.filterMap_append]
  simp only [List.filterMap_cons, h, List.filterMap_nil, List.append_nil]
  rfl

theorem submittedOn_concat (h : a.submission n = some (rank, comm, c)) (r : Nat) :
    submittedOn n (turns ++ [a]) r =
      if r = rank then submittedOn n turns r ++ [comm] else submittedOn n turns r := by
  rw [submittedOn, List.filterMap_append]
  simp only [List.filterMap_cons, h, List.filterMap_nil]
  by_cases hr : r = rank
  · rw [if_pos hr.symm, if_pos hr]
    rfl
  · rw [if_neg (Ne.symm hr), if_neg hr, List.append_nil]
    rfl

theorem submittedOn_concat_of_none (h : a.submission n = none) (r : Nat) :
    submittedOn n (turns ++ [a]) r = submittedOn n turns r := by
  rw [submittedOn, List.filterMap_append]
  simp only [List.filterMap_cons, h, List.filterMap_nil, List.append_nil]
  rfl

/-- A rank has issued as many contributions on a communicator as it has submitted there. -/
theorem count_submittedOn (turns : List Turn) (r k : Nat) :
    (submittedOn n turns r).count k = (ledger n turns r k).length := by
  induction turns using List.reverseRecOn with
  | nil => rfl
  | append_singleton turns a ih =>
    cases h : a.submission n with
    | none => rw [submittedOn_concat_of_none h, ledger_concat_of_none h, ih]
    | some s =>
      obtain ⟨rank, comm, c⟩ := s
      rw [submittedOn_concat h, ledger_concat h, Ledger.length_add]
      by_cases hr : r = rank
      · rw [if_pos hr, List.count_append, ih, List.count_singleton]
        by_cases hk : k = comm
        · simp [hr, hk]
        · simp [hr, hk, Ne.symm hk]
      · rw [if_neg hr, ih, if_neg fun h => hr h.1]

/-- On a single communicator, the requests of a rank are for its calls by number. -/
theorem getElem?_requests_of_single {r i : Nat} (h : ∀ k, k ≠ comm → ledger n turns r k = [])
    (hi : i < (ledger n turns r comm).length) : (requests n turns r)[i]? = some (comm, i) := by
  have hall : ∀ k ∈ submittedOn n turns r, k = comm := by
    intro k hk
    by_contra hne
    have hpos := List.count_pos_iff.mpr hk
    rw [count_submittedOn, h k hne] at hpos
    exact Nat.not_lt_zero _ hpos
  have hlen : (submittedOn n turns r).length = (ledger n turns r comm).length := by
    rw [← count_submittedOn]
    exact (List.count_eq_length.mpr fun k hk => (hall k hk).symm).symm
  have hrep : submittedOn n turns r = List.replicate (ledger n turns r comm).length comm :=
    List.eq_replicate_iff.mpr ⟨hlen, hall⟩
  rw [requests, List.getElem?_mapIdx, hrep, List.getElem?_replicate, if_pos hi, Option.map_some,
    List.take_replicate, List.count_replicate_self, Nat.min_eq_left hi.le]

/-- The request of a submission is for the next call of the rank. -/
theorem requests_concat (h : a.submission n = some (rank, comm, c)) (r : Nat) :
    requests n (turns ++ [a]) r =
      if r = rank then requests n turns r ++ [(ledger n turns).next rank comm] else requests n turns r := by
  rw [requests, submittedOn_concat h]
  by_cases hr : r = rank
  · subst hr
    rw [if_pos rfl, if_pos rfl, List.mapIdx_concat, Ledger.next, ← count_submittedOn, List.take_left']
    · congr 1
      refine List.mapIdx_eq_mapIdx_iff.mpr fun i hi => ?_
      rw [List.take_append_of_le_length hi.le]
    · rfl
  · rw [if_neg hr, if_neg hr]
    rfl

theorem requests_concat_of_none (h : a.submission n = none) (r : Nat) :
    requests n (turns ++ [a]) r = requests n turns r := by
  rw [requests, submittedOn_concat_of_none h, requests]

end Moves

namespace Turn

variable {n : Nat} {l : Ledger} {m : Machine Fabric} {a : Turn} {rank comm : Nat} {c : Contribution}

/-- An admissible turn that submits does so for a rank of the fabric, on a communicator that the rank has
made, with a contribution that passed the checks. -/
theorem Admissible.submission (ha : a.Admissible m) (h : a.submission m.net.size = some (rank, comm, c)) :
    rank < m.net.size ∧ comm < (m.net.endpoint rank).issued.length ∧ c.Issued m.net.size ∧ c.Fits := by
  cases a with
  | create rank => cases h
  | test rank request => cases h
  | work change => cases h
  | barrier rank comm =>
    cases h
    exact ⟨ha.1, ha.2, .inr rfl, Fabric.barrierContribution_fits⟩
  | issue rank comm call attr =>
    simp only [Turn.submission] at h
    split at h
    · rename_i c hc
      cases h
      exact ⟨ha.1, ha.2.1, .inl ⟨call, hc⟩, ha.2.2 c hc⟩
    · cases h

/-- A turn that submits leads where the submission does. -/
theorem step_of_submission (h : a.submission m.net.size = some (rank, comm, c)) :
    ∃ attr, a.step m = ((Fabric.submit rank comm c attr).run m).2 := by
  cases a with
  | create rank => cases h
  | test rank request => cases h
  | work change => cases h
  | barrier rank comm =>
    cases h
    exact ⟨{}, run_bind_pure_snd (Fabric.submit rank comm Fabric.barrierContribution {}) some m⟩
  | issue rank comm call attr =>
    simp only [Turn.submission] at h
    split at h
    · rename_i c hc
      cases h
      exact ⟨attr, congrArg Prod.snd (Fabric.issue_run hc)⟩
    · cases h

/-- An admissible submission adds to what was issued; it gives the rank a request for its next call, and
memory what the last arrival does to it. -/
theorem step_submission (hco : Coherent n l m.net) (ha : a.Admissible m)
    (h : a.submission n = some (rank, comm, c)) :
    Coherent n (l.add rank comm c) (a.step m).net ∧
      (a.step m).store = (l.add rank comm c).settle n (l.next rank comm) m.store ∧
      ∀ r, ((a.step m).net.endpoint r).tickets.map Ticket.call =
        if r = rank then (m.net.endpoint r).tickets.map Ticket.call ++ [l.next rank comm]
        else (m.net.endpoint r).tickets.map Ticket.call := by
  rw [← hco.size] at h
  obtain ⟨hr, hcomm, hc, hf⟩ := ha.submission h
  rw [hco.size] at hr hc
  obtain ⟨attr, hstep⟩ := step_of_submission h
  obtain ⟨m', hrun, hs, hco', hstore⟩ := hco.submit hr hcomm hc hf attr
  rw [hstep, hrun]
  refine ⟨hco', hstore, fun r => ?_⟩
  by_cases hrank : r = rank
  · rw [if_pos hrank, hrank, hs.tickets, List.map_append, hco.upcoming_eq hr]
    rfl
  · rw [if_neg hrank, hs.others r hrank]

/-- Any other admissible turn keeps to what was issued, and only work changes memory. -/
theorem step_quiet (hco : Coherent n l m.net) (ha : a.Admissible m) (h : a.submission n = none) :
    Coherent n l (a.step m).net ∧
      (a.step m).store = (a.effect m).toList.foldl (Effect.apply l n) m.store ∧
      ∀ r, ((a.step m).net.endpoint r).tickets.map Ticket.call =
        (m.net.endpoint r).tickets.map Ticket.call := by
  cases a with
  | create rank =>
    have hr : rank < n := lt_of_lt_of_eq ha hco.size
    obtain ⟨m', comm, hrun, -, hstore, hco', htickets, -⟩ := hco.create hr
    have hm : Turn.step m (.create rank) = m' := congrArg Prod.snd hrun
    rw [hm]
    exact ⟨hco', hstore, fun r => by rw [htickets]⟩
  | test rank request =>
    have hr : rank < n := lt_of_lt_of_eq ha hco.size
    cases ht : (m.net.endpoint rank).tickets[request]? with
    | none =>
      have hm : Turn.step m (.test rank request) = m := congrArg Prod.snd (Fabric.collect_unknown ht)
      rw [hm]
      exact ⟨hco, rfl, fun _ => rfl⟩
    | some t =>
      obtain ⟨m', hrun, hstore, hco', -, htickets⟩ := hco.collect hr ht
      have hm : Turn.step m (.test rank request) = m' := congrArg Prod.snd hrun
      rw [hm]
      exact ⟨hco', hstore, htickets⟩
  | work change => exact ⟨hco, rfl, fun _ => rfl⟩
  | barrier rank comm => cases h
  | issue rank comm call attr =>
    rw [← hco.size] at h
    simp only [Turn.submission] at h
    split at h
    · cases h
    · rename_i e he
      have hm : Turn.step m (.issue rank comm call attr) = m := congrArg Prod.snd (Fabric.issue_refused he)
      rw [hm]
      refine ⟨hco, ?_, fun _ => rfl⟩
      simp only [Turn.effect, Turn.submission, he, Option.toList_none, List.foldl_nil]

/-- A turn that is no work of its own on memory performs a collective or leaves memory alone. -/
theorem effect_cases (m : Machine Fabric) (a : Turn) (h : ∀ change, a ≠ .work change) :
    ∃ last : Option (Nat × Nat), a.effect m = last.map .performed := by
  unfold Turn.effect
  split
  · exact absurd rfl (h _)
  · split
    · exact ⟨some _, rfl⟩
    · exact ⟨none, rfl⟩
  · exact ⟨none, rfl⟩

/-- A submission performs the collective of its call exactly if it is the last. -/
theorem effect_of_submission (hco : Coherent n l m.net) (hr : rank < n)
    (h : a.submission n = some (rank, comm, c)) :
    a.effect m = if (l.add rank comm c).Full n (l.next rank comm) then some (.performed (l.next rank comm))
      else none := by
  have hopen : ¬l.Full n (l.next rank comm) := fun h => Ledger.not_hasIssued_next (h rank hr)
  have harrived : (m.net.slot (m.net.upcoming rank comm)).arrived + 1 =
      (l.add rank comm c).issuers n (l.next rank comm) := by
    rw [hco.upcoming_eq hr, hco.slot_eq (Nat.zero_lt_of_lt hr) hopen, Ledger.issuers_add hr]
    rfl
  rw [← hco.size] at h
  have heffect : a.effect m = if (m.net.slot (m.net.upcoming rank comm)).arrived + 1 = m.net.size then
      some (.performed (m.net.upcoming rank comm)) else none := by
    cases a with
    | create rank => cases h
    | test rank request => cases h
    | work change => cases h
    | barrier rank comm => simp only [Turn.effect, h]
    | issue rank comm call attr => simp only [Turn.effect, h]
  rw [heffect, harrived, hco.upcoming_eq hr, hco.size]
  simp only [Ledger.issuers_eq_iff]

end Turn

end Collectives
