import Collectives.Proofs.Ledger

/-!
# Steps of the fabric

What each operation of an endpoint changes, and what it leaves alone. A submission changes the endpoint of
its rank and the slot of one call, and memory only if its rank was the last to arrive; a request that is
asked for changes at most its own ticket and the slot of its call. Nothing else is read off the operations
afterwards.
-/

namespace Collectives

namespace Fabric

variable {f : Fabric} {rank comm : Nat} {c : Contribution} {attr : Attributes} {m : Machine Fabric}

/-! ## Endpoints -/

@[simp] theorem size_modifyEndpoint (change : Endpoint → Endpoint) :
    (f.modifyEndpoint rank change).size = f.size :=
  List.length_modify ..

@[simp] theorem slots_modifyEndpoint (change : Endpoint → Endpoint) :
    (f.modifyEndpoint rank change).slots = f.slots := rfl

/-- Every endpoint of a new fabric is as new. -/
theorem endpoint_ofSize (n r : Nat) : (ofSize n).endpoint r = {} := by
  simp only [endpoint, ofSize, List.getD_eq_getElem?_getD, List.getElem?_replicate]
  split <;> rfl

/-- The endpoint that is changed. -/
theorem endpoint_modifyEndpoint (change : Endpoint → Endpoint) (hr : rank < f.size) :
    (f.modifyEndpoint rank change).endpoint rank = change (f.endpoint rank) := by
  have he : f.endpoints[rank]? = some f.endpoints[rank] := List.getElem?_eq_getElem hr
  simp only [endpoint, modifyEndpoint, List.getD_eq_getElem?_getD, List.getElem?_modify_eq, he]
  rfl

/-- The endpoints that are left as they are. -/
theorem endpoint_modifyEndpoint_of_ne (change : Endpoint → Endpoint) {r : Nat} (hr : r ≠ rank) :
    (f.modifyEndpoint rank change).endpoint r = f.endpoint r := by
  simp only [endpoint, modifyEndpoint, List.getD_eq_getElem?_getD, List.getElem?_modify, if_neg hr.symm,
    id_map']

/-- Keeping a plan changes nothing but the plans of the rank. -/
theorem withPlan_eq : ∃ change : PlanCache → PlanCache,
    f.withPlan rank c attr = f.modifyEndpoint rank fun e => { e with cache := change e.cache } := by
  unfold withPlan
  cases attr.cacheKey with
  | none =>
    refine ⟨id, ?_⟩
    have hid : f.endpoints.modify rank (fun e => { e with cache := id e.cache }) = f.endpoints :=
      List.modify_id ..
    rw [modifyEndpoint, hid]
  | some key => exact ⟨fun cache => cache.lookup key c.plan, rfl⟩

/-- The call that a rank issues next on a communicator. -/
def upcoming (f : Fabric) (rank comm : Nat) : Nat × Nat := (comm, (f.endpoint rank).issued.getD comm 0)

/-- The slot of the call that a rank issues next, with the rank's contribution in it. -/
def joined (f : Fabric) (rank comm : Nat) (c : Contribution) : Slot :=
  (f.slot (f.upcoming rank comm)).join rank c

/-- Taking a call number, with or without a plan, changes the endpoint of the rank only. -/
theorem nextCall_withPlan (hr : rank < f.size) :
    ∃ f', (f.withPlan rank c attr).nextCall rank comm = ((f.upcoming rank comm).2, f') ∧
      f'.size = f.size ∧ f'.slots = f.slots ∧ (∀ r, r ≠ rank → f'.endpoint r = f.endpoint r) ∧
      (f'.endpoint rank).tickets = (f.endpoint rank).tickets ∧
      (f'.endpoint rank).issued = (f.endpoint rank).issued.modify comm (· + 1) := by
  obtain ⟨change, hplan⟩ : ∃ change : PlanCache → PlanCache,
      f.withPlan rank c attr = f.modifyEndpoint rank fun e => { e with cache := change e.cache } :=
    withPlan_eq
  rw [hplan]
  have hr' : rank < (f.modifyEndpoint rank fun e => { e with cache := change e.cache }).size := by
    rwa [size_modifyEndpoint]
  refine ⟨_, Prod.ext ?_ rfl, by rw [nextCall, size_modifyEndpoint, size_modifyEndpoint], rfl, fun r h => ?_, ?_, ?_⟩
  · rw [nextCall, endpoint_modifyEndpoint _ hr]
    rfl
  · rw [nextCall, endpoint_modifyEndpoint_of_ne _ h, endpoint_modifyEndpoint_of_ne _ h]
  · rw [nextCall, endpoint_modifyEndpoint _ hr', endpoint_modifyEndpoint _ hr]
  · rw [nextCall, endpoint_modifyEndpoint _ hr', endpoint_modifyEndpoint _ hr]

/-! ## Submissions -/

end Fabric

/-- A slot in which the collective was performed if all of so many ranks have arrived. -/
def Slot.concluded (s : Slot) (size : Nat) : Slot :=
  if s.arrived = size then { s with outcome := some (verdict s.present) } else s

/-- Memory and journal after a rank has arrived at a slot: the last one has the collective performed. -/
def Store.arrived (store : Store) (size : Nat) (call : Nat × Nat) (s : Slot) : Store :=
  if s.arrived = size then Fabric.conclude call store (verdict s.present) (store.heap.after s.present)
  else store

namespace Fabric

variable {f : Fabric} {rank comm : Nat} {c : Contribution} {attr : Attributes} {m m' : Machine Fabric}

/-- A rank that has not been at a slot leaves its contribution there; the last rank has the collective
performed, which the contributions permit. -/
theorem arrive_run {call : Nat × Nat} (hnew : ((m.net.slot call).contributions.getD rank none) = none)
    (hdone : ((m.net.slot call).join rank c).arrived = m.net.size →
      perform ((m.net.slot call).join rank c).present m.store.heap =
        .ok (verdict ((m.net.slot call).join rank c).present,
          m.store.heap.after ((m.net.slot call).join rank c).present)) :
    ∃ m', (arrive call rank c).run m = (.ok (), m') ∧
      m'.store = m.store.arrived m.net.size call ((m.net.slot call).join rank c) ∧
      m'.net.endpoints = m.net.endpoints ∧
      ∀ call', m'.net.slots.find? call' =
        if call' = call then some (((m.net.slot call).join rank c).concluded m.net.size)
        else m.net.slots.find? call' := by
  generalize hj : (m.net.slot call).join rank c = joined at *
  have hsome : ((m.net.slot call).contributions.getD rank none).isSome = false := by rw [hnew]; rfl
  have hrun : (arrive call rank c).run m =
      (if joined.arrived = m.net.size then complete call joined else pure () : Native Fabric Unit).run
        { m with net := m.net.putSlot call joined } := by
    unfold arrive
    simp only [run_get_bind, hsome, hj, Bool.false_eq_true, if_false, run_set_bind]
  rw [hrun]
  by_cases hfull : joined.arrived = m.net.size
  · refine ⟨{ store := conclude call m.store (verdict joined.present) (m.store.heap.after joined.present)
              net := (m.net.putSlot call joined).putSlot call
                { joined with outcome := some (verdict joined.present) } }, ?_, ?_, rfl, ?_⟩
    · rw [if_pos hfull]
      unfold complete
      simp only [run_get_bind]
      rw [hdone hfull]
      rfl
    · simp only [Store.arrived, if_pos hfull]
    · intro call'
      simp only [putSlot, Table.find?_insert, Slot.concluded, if_pos hfull]
      split <;> rfl
  · refine ⟨{ m with net := m.net.putSlot call joined }, ?_, ?_, rfl, ?_⟩
    · rw [if_neg hfull, run_pure]
    · simp only [Store.arrived, if_neg hfull]
    · intro call'
      simp only [putSlot, Table.find?_insert, Slot.concluded, if_neg hfull]

end Fabric

/-- What a submission changes: the counter and the tickets of its rank, the slot of its call, and memory
once all have arrived. -/
structure Submitted (rank comm : Nat) (c : Contribution) (m m' : Machine Fabric) : Prop where
  /-- No rank comes or goes. -/
  size : m'.net.size = m.net.size
  /-- The other endpoints stay as they are. -/
  others : ∀ r, r ≠ rank → m'.net.endpoint r = m.net.endpoint r
  /-- The rank counts one more call. -/
  issued : (m'.net.endpoint rank).issued = (m.net.endpoint rank).issued.modify comm (· + 1)
  /-- The rank has one more request. -/
  tickets : (m'.net.endpoint rank).tickets =
    (m.net.endpoint rank).tickets ++ [{ call := m.net.upcoming rank comm }]
  /-- The contribution is in the slot of the call, and no other slot is touched. -/
  slots : ∀ call, m'.net.slots.find? call =
    if call = m.net.upcoming rank comm then
      some ((m.net.joined rank comm c).concluded m.net.size)
    else m.net.slots.find? call
  /-- Memory changes with the last arrival only. -/
  store : m'.store =
    m.store.arrived m.net.size (m.net.upcoming rank comm) (m.net.joined rank comm c)

namespace Fabric

variable {f : Fabric} {rank comm : Nat} {c : Contribution} {attr : Attributes} {m m' : Machine Fabric}

/-- A submission takes a call number, arrives at the slot of the call and opens a request. -/
theorem submit_eq {number : Nat} {f' : Fabric}
    (h : (m.net.withPlan rank c attr).nextCall rank comm = (number, f')) :
    (submit rank comm c attr).run m =
      (arrive (comm, number) rank c >>= fun _ => openTicket rank (comm, number)).run
        { m with net := f' } := by
  unfold submit
  rw [run_get_bind, h]
  rfl

/-- A request is opened by a rank as its next. -/
theorem openTicket_run (call : Nat × Nat) :
    (openTicket rank call).run m = (.ok (m.net.endpoint rank).tickets.length,
      { m with net := m.net.modifyEndpoint rank fun e => { e with tickets := e.tickets ++ [{ call }] } }) := rfl

/-- A submission to a slot the rank has not been at answers with the next request of the rank. -/
theorem submit_run (hr : rank < m.net.size)
    (hnew : (m.net.slot (m.net.upcoming rank comm)).contributions.getD rank none = none)
    (hdone : (m.net.joined rank comm c).arrived = m.net.size →
      perform (m.net.joined rank comm c).present m.store.heap =
        .ok (verdict (m.net.joined rank comm c).present,
          m.store.heap.after (m.net.joined rank comm c).present)) :
    ∃ m', (submit rank comm c attr).run m = (.ok (m.net.endpoint rank).tickets.length, m') ∧
      Submitted rank comm c m m' := by
  obtain ⟨f', hnext, hsize, hslots, hothers, htickets, hissued⟩ :
    ∃ f', (m.net.withPlan rank c attr).nextCall rank comm = ((m.net.upcoming rank comm).2, f') ∧ _ :=
    nextCall_withPlan hr
  have hslot (call : Nat × Nat) : f'.slot call = m.net.slot call := by rw [slot, slot, hslots, hsize]
  have hnew' : (f'.slot (m.net.upcoming rank comm)).contributions.getD rank none = none := by
    rwa [hslot]
  obtain ⟨m₁, hrun, hstore, hend, hfind⟩ := arrive_run (m := { m with net := f' }) (c := c) hnew'
    (by rwa [hslot, hsize])
  have hr' : rank < m₁.net.size := by
    rw [Fabric.size, hend]
    exact lt_of_lt_of_eq hr hsize.symm
  have hsame (r : Nat) : m₁.net.endpoint r = f'.endpoint r := by rw [endpoint, endpoint, hend]
  refine ⟨{ m₁ with net := m₁.net.modifyEndpoint rank fun e =>
    { e with tickets := e.tickets ++ [{ call := m.net.upcoming rank comm }] } }, ?_, ?_⟩
  · have hcall : (comm, (m.net.upcoming rank comm).2) = m.net.upcoming rank comm := rfl
    rw [submit_eq hnext, hcall, run_bind_ok hrun, openTicket_run, hsame, htickets]
  · constructor
    · rw [size_modifyEndpoint, Fabric.size, hend]
      exact hsize
    · intro r h
      rw [endpoint_modifyEndpoint_of_ne _ h, hsame, hothers r h]
    · rw [endpoint_modifyEndpoint _ hr']
      exact (congrArg Endpoint.issued (hsame rank)).trans hissued
    · rw [endpoint_modifyEndpoint _ hr']
      exact congrArg (· ++ _) ((congrArg Endpoint.tickets (hsame rank)).trans htickets)
    · intro call
      rw [slots_modifyEndpoint, hfind, hslot, hsize, hslots]
      rfl
    · rw [hstore, hslot, hsize]
      rfl

/-- A communicator that a rank makes starts with no calls; nothing else changes. -/
theorem createStep_run (hr : rank < m.net.size) :
    ∃ m' comm, (createStep rank).run m = (.ok comm, m') ∧ comm.number = (m.net.endpoint rank).issued.length ∧
      m'.store = m.store ∧ m'.net.size = m.net.size ∧ m'.net.slots = m.net.slots ∧
      (∀ r, r ≠ rank → m'.net.endpoint r = m.net.endpoint r) ∧
      (m'.net.endpoint rank).tickets = (m.net.endpoint rank).tickets ∧
      (m'.net.endpoint rank).issued = (m.net.endpoint rank).issued ++ [0] := by
  have he := endpoint_modifyEndpoint (fun e => { e with issued := e.issued ++ [0] }) hr
  refine ⟨_, _, rfl, rfl, rfl, size_modifyEndpoint _, rfl, fun r h => ?_, ?_, ?_⟩
  · exact endpoint_modifyEndpoint_of_ne _ h
  · exact (congrArg Endpoint.tickets he).trans rfl
  · exact (congrArg Endpoint.issued he).trans rfl

/-! ## Requests -/

/-- A request that was never given out is refused, and nothing changes. -/
theorem collect_unknown {request : Nat} (ht : (m.net.endpoint rank).tickets[request]? = none) :
    (collect rank request).run m = (.error (.error (.unknownRequest 0 request)), m) := by
  unfold collect
  simp only [run_get_bind, ht, run_throw]

/-- A request that gave its outcome before gives it again, and nothing changes. -/
theorem collect_finished {request : Nat} {t : Ticket} {o : CallOutcome}
    (ht : (m.net.endpoint rank).tickets[request]? = some t) (hf : t.finished = some o) :
    (collect rank request).run m = (report o, m) := by
  unfold collect
  simp only [run_get_bind, ht, hf]
  cases o <;> rfl

/-- A request whose call has no outcome yet says so, and nothing changes. -/
theorem collect_waiting {request : Nat} {t : Ticket} {s : Slot}
    (ht : (m.net.endpoint rank).tickets[request]? = some t) (hf : t.finished = none)
    (hs : m.net.slots.find? t.call = some s) (ho : s.outcome = none) :
    (collect rank request).run m = (.ok false, m) := by
  unfold collect
  simp only [run_get_bind, ht, hf, hs, ho, run_pure]

end Fabric

/-- What collecting an outcome changes: the ticket of the request and the slot of its call. -/
structure Collected (rank request : Nat) (t : Ticket) (s : Slot) (o : CallOutcome) (m m' : Machine Fabric) :
    Prop where
  /-- Memory and journal stay as they are. -/
  store : m'.store = m.store
  /-- No rank comes or goes. -/
  size : m'.net.size = m.net.size
  /-- The other endpoints stay as they are. -/
  others : ∀ r, r ≠ rank → m'.net.endpoint r = m.net.endpoint r
  /-- No call is counted. -/
  issued : (m'.net.endpoint rank).issued = (m.net.endpoint rank).issued
  /-- The request keeps the outcome. -/
  tickets : (m'.net.endpoint rank).tickets =
    (m.net.endpoint rank).tickets.set request { t with finished := some o }
  /-- The slot counts one more, or is gone with the last one. -/
  slots : ∀ call, m'.net.slots.find? call =
    if call = t.call then
      if s.released + 1 = m.net.size then none else some { s with released := s.released + 1 }
    else m.net.slots.find? call

namespace Fabric

variable {rank : Nat} {c : Contribution} {attr : Attributes} {m : Machine Fabric}

/-- A request whose call has an outcome reports it and keeps it. -/
theorem collect_done {request : Nat} {t : Ticket} {s : Slot} {o : CallOutcome}
    (hr : rank < m.net.size) (ht : (m.net.endpoint rank).tickets[request]? = some t)
    (hf : t.finished = none) (hs : m.net.slots.find? t.call = some s) (ho : s.outcome = some o) :
    ∃ m', (collect rank request).run m = (report o, m') ∧ Collected rank request t s o m m' := by
  have hsize : (m.net.releaseSlot t.call s).size = m.net.size := by
    unfold releaseSlot
    split <;> rfl
  have hend (r : Nat) : (m.net.releaseSlot t.call s).endpoint r = m.net.endpoint r := by
    unfold releaseSlot
    split <;> rfl
  have hr' : rank < (m.net.releaseSlot t.call s).size := lt_of_lt_of_eq hr hsize.symm
  refine ⟨{ m with net := (m.net.releaseSlot t.call s).modifyEndpoint rank fun e =>
    { e with tickets := e.tickets.set request { t with finished := some o } } }, ?_, ?_⟩
  · unfold collect
    simp only [run_get_bind, ht, hf, hs, ho, run_set_bind]
    cases o <;> rfl
  · constructor
    · rfl
    · rw [size_modifyEndpoint, hsize]
    · intro r h
      rw [endpoint_modifyEndpoint_of_ne _ h, hend]
    · rw [endpoint_modifyEndpoint _ hr', hend]
    · rw [endpoint_modifyEndpoint _ hr', hend]
    · intro call
      rw [slots_modifyEndpoint, releaseSlot]
      split
      · rw [Table.find?_erase]
      · rw [putSlot, Table.find?_insert]

/-! ## Calls -/

/-- A call that passes the checks at issue is submitted. -/
theorem issue_run {end₀ : Communicator} {call : Call} (h : contribution m.net.size call = .ok c) :
    ((substrate rank).issue end₀ call attr).run m = (submit rank end₀.number c attr).run m := by
  simp only [substrate, run_get_bind]
  exact run_check_bind h _ m

/-- A call that does not changes nothing. -/
theorem issue_refused {end₀ : Communicator} {call : Call} {e : Refusal}
    (h : contribution m.net.size call = .error e) :
    ((substrate rank).issue end₀ call attr).run m = (.error e, m) := by
  simp only [substrate, run_get_bind]
  exact run_check_bind_error h _ m

/-- A barrier is a submission whose request is still to be waited for. -/
theorem barrier_run {end₀ : Communicator} {request : Nat} {m' : Machine Fabric}
    (h : (submit rank end₀.number barrierContribution {}).run m = (.ok request, m')) :
    ((substrate rank).barrier end₀).run m = (.ok (some request), m') := by
  change (submit rank end₀.number barrierContribution {} >>= fun request =>
    (pure (some request) : Native Fabric _)).run m = _
  rw [run_bind_ok h, run_pure]

end Fabric

end Collectives
