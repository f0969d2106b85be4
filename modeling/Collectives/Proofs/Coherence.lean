import Collectives.Proofs.FabricSteps

/-!
# A coherent fabric

The fabric is coherent with a ledger if everything it keeps can be read off the ledger and the requests that
have their outcome: the counters, one request for each issued call, and every slot, present from the first
arrival until the last collection. Every operation of a rank keeps a fabric coherent, with the ledger grown
by what was issued; none of them refuses, faults or meets a slot that should be there and is not.
-/

namespace Collectives

/-- Whether an endpoint has collected the outcome of a call. -/
def Endpoint.hasCollected (e : Endpoint) (call : Nat × Nat) : Bool :=
  e.tickets.any fun t => t.call == call && t.finished.isSome

/-- How many ranks have collected the outcome of a call. -/
def Fabric.collectors (f : Fabric) (call : Nat × Nat) : Nat :=
  (List.range f.size).countP fun r => (f.endpoint r).hasCollected call

/-- How many requests have collected the outcome of a call. -/
def Fabric.settled (f : Fabric) (call : Nat × Nat) : Nat :=
  ((List.range f.size).map fun r =>
    (f.endpoint r).tickets.countP fun t => t.call == call && t.finished.isSome).sum

/-- The slot of a call to which the ranks have contributed what the ledger says. -/
def Ledger.slot (l : Ledger) (n : Nat) (call : Nat × Nat) (released : Nat) : Slot where
  contributions := l.row n call
  arrived := l.issuers n call
  outcome := if l.issuers n call = n then some (verdict (l.gathered n call)) else none
  released := released

/-- No other slot changes with one more contribution. -/
theorem Ledger.slot_add_of_ne {l : Ledger} {n rank comm : Nat} {c : Contribution} {call : Nat × Nat}
    {released : Nat} (h : call ≠ l.next rank comm) :
    (l.add rank comm c).slot n call released = l.slot n call released := by
  rw [Ledger.slot, Ledger.slot, Ledger.issuers_add_of_ne h, Ledger.gathered, Ledger.gathered,
    Ledger.row_add_of_ne h]

/-- Memory and journal after a rank has come to a call: the last one has the collective performed. -/
def Ledger.settle (l : Ledger) (n : Nat) (call : Nat × Nat) (store : Store) : Store :=
  if l.Full n call then
    Fabric.conclude call store (verdict (l.gathered n call)) (store.heap.after (l.gathered n call))
  else store

/-- The fabric of `n` ranks keeps what the ledger says, and no more. -/
structure Coherent (n : Nat) (l : Ledger) (f : Fabric) : Prop where
  /-- The number of ranks. -/
  size : f.size = n
  /-- What was issued passed the checks. -/
  sound : l.Sound n
  /-- Every rank counts its calls on every communicator. -/
  counters : ∀ r < n, ∀ comm, (f.endpoint r).issued.getD comm 0 = (l r comm).length
  /-- Every rank has one request for each call it has issued, and no other. -/
  tickets : ∀ r < n, ∀ call,
    ((f.endpoint r).tickets.map Ticket.call).count call = if l.HasIssued r call then 1 else 0
  /-- Outcomes are collected of full calls only, and they are the verdict. -/
  finished : ∀ r < n, ∀ t ∈ (f.endpoint r).tickets, ∀ o, t.finished = some o →
    l.Full n t.call ∧ o = verdict (l.gathered n t.call)
  /-- A slot is there from the first arrival until the last rank has collected. -/
  slots : ∀ call, f.slots.find? call =
    if 0 < l.issuers n call ∧ f.collectors call < n then some (l.slot n call (f.collectors call)) else none

theorem Endpoint.hasCollected_iff {e : Endpoint} {call : Nat × Nat} :
    e.hasCollected call = true ↔ ∃ t ∈ e.tickets, t.call = call ∧ t.finished.isSome = true := by
  simp [Endpoint.hasCollected]

/-- With the outcome kept in an open request, the endpoint has collected the request's call besides what it
had collected before. -/
theorem Endpoint.hasCollected_set {e e' : Endpoint} {i : Nat} {t : Ticket} {o : CallOutcome}
    (he : e'.tickets = e.tickets.set i { t with finished := some o }) (ht : e.tickets[i]? = some t)
    (hf : t.finished = none) (call : Nat × Nat) :
    e'.hasCollected call = true ↔ call = t.call ∨ e.hasCollected call = true := by
  obtain ⟨hi, -⟩ := List.getElem?_eq_some_iff.mp ht
  rw [Endpoint.hasCollected_iff, Endpoint.hasCollected_iff, he]
  constructor
  · rintro ⟨u, hu, hcall, hfin⟩
    rcases List.mem_or_eq_of_mem_set hu with hu | rfl
    · exact .inr ⟨u, hu, hcall, hfin⟩
    · exact .inl hcall.symm
  · rintro (rfl | ⟨u, hu, hcall, hfin⟩)
    · exact ⟨_, List.mem_set hi _, rfl, rfl⟩
    · obtain ⟨j, hj⟩ := List.mem_iff_getElem?.mp hu
      -- The request that is set was open, so it is another one.
      have hij : i ≠ j := by
        rintro rfl
        rw [ht, Option.some.injEq] at hj
        rw [← hj, hf] at hfin
        cases hfin
      refine ⟨u, List.mem_of_getElem? (i := j) ?_, hcall, hfin⟩
      rw [List.getElem?_set_ne hij, hj]

/-- Keeping an outcome does not change what a request is for. -/
theorem map_call_set {ts : List Ticket} {i : Nat} {t : Ticket} {o : Option CallOutcome}
    (ht : ts[i]? = some t) : (ts.set i { t with finished := o }).map Ticket.call = ts.map Ticket.call := by
  refine List.ext_getElem? fun j => ?_
  rw [List.getElem?_map, List.getElem?_map, List.getElem?_set]
  split
  · rename_i h
    subst h
    rw [ht, if_pos (List.getElem?_eq_some_iff.mp ht).1]
    rfl
  · rfl

/-- Collections are counted by the tickets alone. -/
theorem Fabric.collectors_congr {f f' : Fabric} {call : Nat × Nat} (hs : f'.size = f.size)
    (h : ∀ r < f.size, (f'.endpoint r).hasCollected call = (f.endpoint r).hasCollected call) :
    f'.collectors call = f.collectors call := by
  rw [Fabric.collectors, Fabric.collectors, hs]
  refine List.countP_congr fun r hr => ?_
  rw [h r (List.mem_range.mp hr)]

namespace Coherent

variable {n : Nat} {l : Ledger} {f : Fabric} {m : Machine Fabric} {rank comm : Nat} {c : Contribution}
  {call : Nat × Nat}

/-! ## The beginning -/

/-- A new fabric is coherent with the empty ledger. -/
theorem ofSize (n : Nat) : Coherent n (fun _ _ => []) (Fabric.ofSize n) := by
  constructor
  · exact List.length_replicate
  · intro r comm c hc
    exact absurd hc List.not_mem_nil
  · intro r _ comm
    rw [Fabric.endpoint_ofSize]
    rfl
  · intro r _ call
    rw [Fabric.endpoint_ofSize]
    rfl
  · intro r _ t ht
    rw [Fabric.endpoint_ofSize] at ht
    exact absurd ht List.not_mem_nil
  · intro call
    have hnone : Ledger.issuers (fun _ _ => []) n call = 0 :=
      List.countP_eq_zero.mpr fun r _ => by simp [Ledger.HasIssued]
    rw [hnone]
    rfl

/-! ## Reading a coherent fabric -/

/-- A rank with a request for a call has issued the call. -/
theorem hasIssued_of_mem (hco : Coherent n l f) (hr : rank < n) {t : Ticket}
    (ht : t ∈ (f.endpoint rank).tickets) : l.HasIssued rank t.call := by
  have hpos : 0 < ((f.endpoint rank).tickets.map Ticket.call).count t.call :=
    List.count_pos_iff.mpr (List.mem_map_of_mem ht)
  rw [hco.tickets rank hr] at hpos
  by_contra h
  rw [if_neg h] at hpos
  exact absurd hpos (Nat.lt_irrefl 0)

/-- A rank has one request for a call at most. -/
theorem ticket_unique (hco : Coherent n l f) (hr : rank < n) {i j : Nat} {t u : Ticket}
    (ht : (f.endpoint rank).tickets[i]? = some t) (hu : (f.endpoint rank).tickets[j]? = some u)
    (h : t.call = u.call) : i = j := by
  have hnodup : ((f.endpoint rank).tickets.map Ticket.call).Nodup := by
    refine List.nodup_iff_count.mpr fun call => ?_
    rw [hco.tickets rank hr]
    split <;> omega
  have hi : i < ((f.endpoint rank).tickets.map Ticket.call).length := by
    rw [List.length_map]
    exact (List.getElem?_eq_some_iff.mp ht).1
  refine (List.getElem?_inj hi hnodup).mp ?_
  rw [List.getElem?_map, List.getElem?_map, ht, hu, Option.map_some, Option.map_some, h]

/-- Only full calls have been collected by anyone. -/
theorem full_of_hasCollected (hco : Coherent n l f) (hr : rank < n)
    (h : (f.endpoint rank).hasCollected call = true) : l.Full n call := by
  obtain ⟨t, ht, rfl, hf⟩ := Endpoint.hasCollected_iff.mp h
  obtain ⟨o, ho⟩ := Option.isSome_iff_exists.mp hf
  exact (hco.finished rank hr t ht o ho).1

/-- Nobody has collected a call that some rank has not issued. -/
theorem collectors_eq_zero (hco : Coherent n l f) (h : ¬l.Full n call) : f.collectors call = 0 := by
  refine List.countP_eq_zero.mpr fun r hr hc => h ?_
  rw [hco.size] at hr
  exact hco.full_of_hasCollected (List.mem_range.mp hr) hc

/-- The slot of a call that some rank has not issued has no collections, whether it is there or new. -/
theorem slot_eq (hco : Coherent n l f) (hn : 0 < n) (h : ¬l.Full n call) :
    f.slot call = l.slot n call 0 := by
  rw [Fabric.slot, hco.slots, hco.collectors_eq_zero h]
  by_cases hpos : 0 < l.issuers n call
  · rw [if_pos ⟨hpos, hn⟩, Option.getD_some]
  · have hzero : l.issuers n call = 0 := Nat.eq_zero_of_not_pos hpos
    have hrow : l.row n call = List.replicate n none := by
      refine List.eq_replicate_iff.mpr ⟨Ledger.length_row, fun x hx => ?_⟩
      have hcount := List.countP_eq_zero.mp (Ledger.countP_row.trans hzero) x hx
      simpa using hcount
    rw [if_neg fun hc => hpos hc.1, Option.getD_none, Slot.fresh, hco.size, Ledger.slot, hrow, hzero,
      if_neg hn.ne]

/-- The next call of a rank, as the fabric counts it. -/
theorem upcoming_eq (hco : Coherent n l f) (hr : rank < n) : f.upcoming rank comm = l.next rank comm := by
  rw [Fabric.upcoming, hco.counters rank hr, Ledger.next]

private theorem sum_indicator {α : Type} (p : α → Bool) (xs : List α) :
    (xs.map fun x => if p x = true then 1 else 0).sum = xs.countP p := by
  induction xs with
  | nil => rfl
  | cons x xs ih => rw [List.map_cons, List.sum_cons, ih, List.countP_cons, Nat.add_comm]

/-- No rank collects an outcome through two requests, so requests are counted where ranks are. -/
theorem settled_eq (hco : Coherent n l f) (call : Nat × Nat) : f.settled call = f.collectors call := by
  have hone : ∀ r ∈ List.range f.size,
      ((f.endpoint r).tickets.countP fun t => t.call == call && t.finished.isSome) =
        if (f.endpoint r).hasCollected call = true then 1 else 0 := by
    intro r hr
    rw [hco.size] at hr
    have hle : ((f.endpoint r).tickets.countP fun t => t.call == call && t.finished.isSome) ≤
        (f.endpoint r).tickets.countP fun t => t.call == call :=
      List.countP_mono_left fun t _ ht => (Bool.and_eq_true_iff.mp ht).1
    have hcount : ((f.endpoint r).tickets.countP fun t => t.call == call) ≤ 1 := by
      have h := hco.tickets r (List.mem_range.mp hr) call
      rw [List.count_eq_countP, List.countP_map] at h
      change (f.endpoint r).tickets.countP (fun t => t.call == call) = _ at h
      rw [h]
      split <;> omega
    have hpos : 0 < ((f.endpoint r).tickets.countP fun t => t.call == call && t.finished.isSome) ↔
        (f.endpoint r).hasCollected call = true := by
      rw [List.countP_pos_iff, Endpoint.hasCollected, List.any_eq_true]
    split
    · rename_i h
      have := hpos.mpr h
      omega
    · rename_i h
      exact Nat.eq_zero_of_not_pos fun hp => h (hpos.mp hp)
  rw [Fabric.settled, List.map_congr_left hone, Fabric.collectors, sum_indicator]

/-! ## Operations -/

/-- A counter at zero counts like one that is not there. -/
private theorem getD_concat_zero (xs : List Nat) (k : Nat) : (xs ++ [0]).getD k 0 = xs.getD k 0 := by
  rw [List.getD_eq_getElem?_getD, List.getD_eq_getElem?_getD, List.getElem?_append]
  split
  · rfl
  · rename_i h
    rw [List.getElem?_eq_none (Nat.le_of_not_lt h)]
    cases k - xs.length <;> rfl

/-- Making a communicator keeps a fabric coherent with the same ledger. -/
theorem create (hco : Coherent n l m.net) (hr : rank < n) :
    ∃ m' comm, (Fabric.createStep rank).run m = (.ok comm, m') ∧
      comm.number = (m.net.endpoint rank).issued.length ∧ m'.store = m.store ∧ Coherent n l m'.net ∧
      (∀ r, (m'.net.endpoint r).tickets = (m.net.endpoint r).tickets) ∧
      ∀ r, (m'.net.endpoint r).issued =
        if r = rank then (m.net.endpoint r).issued ++ [0] else (m.net.endpoint r).issued := by
  obtain ⟨m', comm, hrun, hnumber, hstore, hsize, hslots, hothers, htickets, hissued⟩ :=
    Fabric.createStep_run (m := m) (hco.size ▸ hr)
  have ht (r : Nat) : (m'.net.endpoint r).tickets = (m.net.endpoint r).tickets := by
    by_cases h : r = rank
    · rw [h, htickets]
    · rw [hothers r h]
  have hi (r : Nat) : (m'.net.endpoint r).issued =
      if r = rank then (m.net.endpoint r).issued ++ [0] else (m.net.endpoint r).issued := by
    by_cases h : r = rank
    · rw [if_pos h, h, hissued]
    · rw [if_neg h, hothers r h]
  refine ⟨m', comm, hrun, hnumber, hstore, ?_, ht, hi⟩
  have hcollectors (call : Nat × Nat) : m'.net.collectors call = m.net.collectors call :=
    Fabric.collectors_congr hsize fun r _ => by rw [Endpoint.hasCollected, ht, Endpoint.hasCollected]
  constructor
  · rw [hsize, hco.size]
  · exact hco.sound
  · intro r h k
    rw [← hco.counters r h k, hi]
    split
    · rw [getD_concat_zero]
    · rfl
  · intro r h call
    rw [ht, hco.tickets r h]
  · intro r h t
    rw [ht]
    exact hco.finished r h t
  · intro call
    rw [hslots, hco.slots, hcollectors]

/-- The slot of a rank's next call, with the rank's contribution in it: what the grown ledger says, with the
outcome still to come. -/
theorem joined_eq (hco : Coherent n l f) (hr : rank < n) :
    f.joined rank comm c =
      { contributions := (l.add rank comm c).row n (l.next rank comm)
        arrived := (l.add rank comm c).issuers n (l.next rank comm) } := by
  have hopen : ¬l.Full n (l.next rank comm) := fun h => Ledger.not_hasIssued_next (h rank hr)
  rw [Fabric.joined, hco.upcoming_eq hr, hco.slot_eq (Nat.zero_lt_of_lt hr) hopen, Ledger.slot,
    if_neg fun h => hopen (Ledger.issuers_eq_iff.mp h), Slot.join, Ledger.row_add hr, Ledger.issuers_add hr]

/-- A rank can issue its next call on a communicator that it has made: it gets a request, memory changes if
it is the last, and the fabric is coherent with the ledger that has the contribution. -/
theorem submit (hco : Coherent n l m.net) (hr : rank < n)
    (hcomm : comm < (m.net.endpoint rank).issued.length) (hc : c.Issued n) (hf : c.Fits)
    (attr : Attributes) :
    ∃ m', (Fabric.submit rank comm c attr).run m = (.ok (m.net.endpoint rank).tickets.length, m') ∧
      Submitted rank comm c m m' ∧ Coherent n (l.add rank comm c) m'.net ∧
      m'.store = (l.add rank comm c).settle n (l.next rank comm) m.store := by
  have hup : m.net.upcoming rank comm = l.next rank comm := hco.upcoming_eq hr
  have hopen : ¬l.Full n (l.next rank comm) := fun h => Ledger.not_hasIssued_next (h rank hr)
  have hjoined : m.net.joined rank comm c = _ := hco.joined_eq hr
  have hsound : (l.add rank comm c).Sound n := hco.sound.add hc hf
  have hnew : (m.net.slot (m.net.upcoming rank comm)).contributions.getD rank none = none := by
    have hlast : (l rank comm)[(l rank comm).length]? = none := List.getElem?_eq_none (Nat.le_refl _)
    rw [hup, hco.slot_eq (Nat.zero_lt_of_lt hr) hopen, Ledger.slot, List.getD_eq_getElem?_getD,
      Ledger.getElem?_row hr, Option.getD_some]
    exact hlast
  obtain ⟨m', hrun, hs⟩ : ∃ m', (Fabric.submit rank comm c attr).run m = _ ∧ Submitted rank comm c m m' := by
    refine Fabric.submit_run (hco.size ▸ hr) hnew fun harrived => ?_
    rw [hjoined] at harrived ⊢
    have hfull : (l.add rank comm c).Full n (l.next rank comm) :=
      Ledger.issuers_eq_iff.mp (harrived.trans hco.size)
    exact perform_eq_ok (hfull.group (Nat.zero_lt_of_lt hr) hsound) m.store.heap
  have hstore : m'.store = (l.add rank comm c).settle n (l.next rank comm) m.store := by
    rw [hs.store, hup, hjoined, hco.size, Store.arrived, Ledger.settle]
    simp only [Ledger.issuers_eq_iff]
    rfl
  refine ⟨m', hrun, hs, ?_, hstore⟩
  have htickets (r : Nat) : (m'.net.endpoint r).tickets =
      if r = rank then (m.net.endpoint r).tickets ++ [{ call := l.next rank comm }]
      else (m.net.endpoint r).tickets := by
    by_cases h : r = rank
    · rw [if_pos h, h, hs.tickets, hup]
    · rw [if_neg h, hs.others r h]
  have hcollectors (call : Nat × Nat) : m'.net.collectors call = m.net.collectors call := by
    refine Fabric.collectors_congr hs.size fun r _ => ?_
    rw [Endpoint.hasCollected, htickets, Endpoint.hasCollected]
    split
    · rw [List.any_append]
      simp
    · rfl
  constructor
  · rw [hs.size, hco.size]
  · exact hsound
  · intro r h k
    rw [Ledger.length_add, ← hco.counters r h k]
    by_cases hrank : r = rank
    · subst hrank
      rw [hs.issued, List.getD_eq_getElem?_getD, List.getD_eq_getElem?_getD, List.getElem?_modify]
      by_cases hk : k = comm
      · subst hk
        rw [List.getElem?_eq_getElem hcomm]
        simp
      · simp [hk, Ne.symm hk]
    · rw [hs.others r hrank, if_neg fun hc => hrank hc.1]
  · intro r h call
    rw [htickets]
    by_cases hrank : r = rank
    · subst hrank
      have hone : ([{ call := l.next r comm }] : List Ticket).map Ticket.call = [l.next r comm] := rfl
      rw [if_pos rfl, List.map_append, List.count_append, hco.tickets r h, hone]
      by_cases hcall : call = l.next r comm
      · subst hcall
        rw [if_neg Ledger.not_hasIssued_next, List.count_singleton_self,
          if_pos (Ledger.hasIssued_add.mpr (.inl ⟨rfl, rfl⟩))]
      · rw [List.count_singleton, beq_eq_false_iff_ne.mpr (Ne.symm hcall)]
        simp [Ledger.hasIssued_add, hcall]
    · rw [if_neg hrank, hco.tickets r h]
      simp [Ledger.hasIssued_add, hrank]
  · intro r h t ht o ho
    rw [htickets] at ht
    have hold : t ∈ (m.net.endpoint r).tickets := by
      split at ht
      · rcases List.mem_append.mp ht with ht | ht
        · exact ht
        · rw [List.mem_singleton.mp ht] at ho
          cases ho
      · exact ht
    obtain ⟨hfull, hverdict⟩ := hco.finished r h t hold o ho
    obtain ⟨hfull', hgathered⟩ : (l.add rank comm c).Full n t.call ∧ _ := hfull.add
    exact ⟨hfull', hgathered.symm ▸ hverdict⟩
  · intro call
    rw [hs.slots, hcollectors, hup, hjoined, hco.size]
    by_cases h : call = l.next rank comm
    · subst h
      have hpos : 0 < (l.add rank comm c).issuers n (l.next rank comm) := by
        rw [Ledger.issuers_add hr]
        exact Nat.succ_pos _
      rw [if_pos rfl, hco.collectors_eq_zero hopen, if_pos ⟨hpos, Nat.zero_lt_of_lt hr⟩, Ledger.slot,
        Slot.concluded]
      split <;> rfl
    · rw [if_neg h, hco.slots, Ledger.issuers_add_of_ne h, Ledger.slot_add_of_ne h]

/-- A rank that has a request open for a call has not collected the call's outcome. -/
theorem hasCollected_eq_false (hco : Coherent n l f) (hr : rank < n) {request : Nat} {t : Ticket}
    (ht : (f.endpoint rank).tickets[request]? = some t) (hopen : t.finished = none) :
    (f.endpoint rank).hasCollected t.call = false := by
  refine Bool.eq_false_iff.mpr fun h => ?_
  obtain ⟨u, hu, hcall, hf⟩ := Endpoint.hasCollected_iff.mp h
  obtain ⟨j, hj⟩ := List.mem_iff_getElem?.mp hu
  have hij : request = j := hco.ticket_unique hr ht hj hcall.symm
  rw [← hij, ht, Option.some.injEq] at hj
  rw [← hj, hopen] at hf
  cases hf

/-- The slot of a call that a rank has an open request for is there. -/
theorem find?_of_open (hco : Coherent n l f) (hr : rank < n) {request : Nat} {t : Ticket}
    (ht : (f.endpoint rank).tickets[request]? = some t) (hopen : t.finished = none) :
    f.slots.find? t.call = some (l.slot n t.call (f.collectors t.call)) := by
  have hissued := hco.hasIssued_of_mem hr (List.mem_of_getElem? ht)
  have hlt : f.collectors t.call < n := by
    rw [Fabric.collectors, hco.size]
    refine lt_of_lt_of_eq (List.countP_lt_length_iff.mpr ⟨rank, List.mem_range.mpr hr, ?_⟩) List.length_range
    rw [hco.hasCollected_eq_false hr ht hopen]
  rw [hco.slots, if_pos ⟨Ledger.issuers_pos hr hissued, hlt⟩]

/-- Collecting the outcome of a full call keeps a fabric coherent with the same ledger. -/
theorem collected (hco : Coherent n l m.net) (hr : rank < n) {request : Nat} {t : Ticket}
    (ht : (m.net.endpoint rank).tickets[request]? = some t) (hopen : t.finished = none)
    (hfull : l.Full n t.call) {m' : Machine Fabric}
    (hcol : Collected rank request t (l.slot n t.call (m.net.collectors t.call))
      (verdict (l.gathered n t.call)) m m') : Coherent n l m'.net := by
  have hset := Endpoint.hasCollected_set hcol.tickets ht hopen
  have hone : m'.net.collectors t.call = m.net.collectors t.call + 1 := by
    rw [Fabric.collectors, hcol.size, Fabric.collectors]
    refine countP_range_succ (hco.size ▸ hr) (hco.hasCollected_eq_false hr ht hopen)
      ((hset t.call).mpr (.inl rfl)) fun r h => by rw [hcol.others r h]
  have hrest {call : Nat × Nat} (h : call ≠ t.call) :
      m'.net.collectors call = m.net.collectors call := by
    refine Fabric.collectors_congr hcol.size fun r _ => ?_
    by_cases hrank : r = rank
    · rw [hrank, Bool.eq_iff_iff, hset call]
      exact or_iff_right h
    · rw [hcol.others r hrank]
  constructor
  · rw [hcol.size, hco.size]
  · exact hco.sound
  · intro r h k
    by_cases hrank : r = rank
    · rw [hrank, hcol.issued, hco.counters rank hr]
    · rw [hcol.others r hrank, hco.counters r h]
  · intro r h call
    by_cases hrank : r = rank
    · rw [hrank, hcol.tickets, map_call_set ht, hco.tickets rank hr]
    · rw [hcol.others r hrank, hco.tickets r h]
  · intro r h u hu o ho
    by_cases hrank : r = rank
    · rw [hrank, hcol.tickets] at hu
      rcases List.mem_or_eq_of_mem_set hu with hu | rfl
      · exact hco.finished rank hr u hu o ho
      · exact ⟨hfull, (Option.some.inj ho).symm⟩
    · rw [hcol.others r hrank] at hu
      exact hco.finished r h u hu o ho
  · intro call
    rw [hcol.slots]
    by_cases h : call = t.call
    · subst h
      have hpos := hfull.issuers_pos (Nat.zero_lt_of_lt hr)
      have hreleased : (l.slot n t.call (m.net.collectors t.call)).released = m.net.collectors t.call := rfl
      rw [if_pos rfl, hone, hco.size, hreleased]
      by_cases hlast : m.net.collectors t.call + 1 = n
      · rw [if_pos hlast, if_neg fun hc => absurd hlast hc.2.ne]
      · have hlt : m.net.collectors t.call + 1 ≤ n := by
          rw [← hone, ← hco.size, ← hcol.size]
          exact le_of_le_of_eq List.countP_le_length List.length_range
        rw [if_neg hlast, if_pos ⟨hpos, lt_of_le_of_ne hlt hlast⟩]
        rfl
    · rw [if_neg h, hco.slots, hrest h]

/-- A request whose call some rank has still to issue has no answer yet, and asking for it changes nothing. -/
theorem collect_of_not_full (hco : Coherent n l m.net) (hr : rank < n) {request : Nat} {t : Ticket}
    (ht : (m.net.endpoint rank).tickets[request]? = some t) (hfull : ¬l.Full n t.call) :
    (Fabric.collect rank request).run m = (.ok false, m) := by
  cases hf : t.finished with
  | some o => exact absurd (hco.finished rank hr t (List.mem_of_getElem? ht) o hf).1 hfull
  | none =>
    have hout : (l.slot n t.call (m.net.collectors t.call)).outcome = none := by
      rw [Ledger.slot, if_neg fun h => hfull (Ledger.issuers_eq_iff.mp h)]
    exact Fabric.collect_waiting ht hf (hco.find?_of_open hr ht hf) hout

/-- A request of a rank answers `false` while some rank has not issued its call, and the verdict on the call
from then on. The fabric stays coherent with the same ledger, and memory as it is. -/
theorem collect (hco : Coherent n l m.net) (hr : rank < n) {request : Nat} {t : Ticket}
    (ht : (m.net.endpoint rank).tickets[request]? = some t) :
    ∃ m', (Fabric.collect rank request).run m =
        (if l.Full n t.call then Fabric.report (verdict (l.gathered n t.call)) else .ok false, m') ∧
      m'.store = m.store ∧ Coherent n l m'.net ∧
      (∀ r, (m'.net.endpoint r).issued = (m.net.endpoint r).issued) ∧
      ∀ r, (m'.net.endpoint r).tickets.map Ticket.call = (m.net.endpoint r).tickets.map Ticket.call := by
  by_cases hfull : l.Full n t.call
  · rw [if_pos hfull]
    cases hf : t.finished with
    | some o =>
      obtain ⟨-, rfl⟩ := hco.finished rank hr t (List.mem_of_getElem? ht) o hf
      exact ⟨m, Fabric.collect_finished ht hf, rfl, hco, fun _ => rfl, fun _ => rfl⟩
    | none =>
      have hs := hco.find?_of_open hr ht hf
      have hout : (l.slot n t.call (m.net.collectors t.call)).outcome =
          some (verdict (l.gathered n t.call)) := by
        rw [Ledger.slot, if_pos (Ledger.issuers_eq_iff.mpr hfull)]
      obtain ⟨m', hrun, hcol⟩ := Fabric.collect_done (hco.size ▸ hr) ht hf hs hout
      refine ⟨m', hrun, hcol.store, hco.collected hr ht hf hfull hcol, ?_, ?_⟩
      · intro r
        by_cases h : r = rank
        · rw [h, hcol.issued]
        · rw [hcol.others r h]
      · intro r
        by_cases h : r = rank
        · rw [h, hcol.tickets, map_call_set ht]
        · rw [hcol.others r h]
  · rw [if_neg hfull]
    exact ⟨m, hco.collect_of_not_full hr ht hfull, rfl, hco, fun _ => rfl, fun _ => rfl⟩

end Coherent

end Collectives
