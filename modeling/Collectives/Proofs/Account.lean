import Collectives.Proofs.Schedule

/-!
# What a schedule leaves on the fabric

Every schedule can be accounted for by what was issued in it. The slot of a call is there from the first
arrival to the last collection and holds what the ranks contributed; each call that all ranks have issued was
performed once, the calls of a communicator in their order; and a request answers `false` while its call is
not full, and the verdict on the call ever after.
-/

namespace Collectives

/-- What stays true along a run: the fabric is coherent with what was issued, requests are for the calls that
were submitted, and memory is what the effects made of it, with the full calls performed in their order. -/
structure Fabric.Run.Invariant (n : Nat) (store : Store) (turns : List Turn) (effects : List Effect)
    (m : Machine Fabric) : Prop where
  coherent : Coherent n (ledger n turns) m.net
  requests : ∀ r < n, (m.net.endpoint r).tickets.map Ticket.call = requests n turns r
  order : ∀ comm, effects.filterMap (Effect.performedOn comm) = List.range ((ledger n turns).rounds n comm)
  store : m.store = effects.foldl (Effect.apply (ledger n turns) n) store

section Invariant

variable {n rank comm : Nat} {store : Store} {turns : List Turn} {effects : List Effect}
  {m : Machine Fabric} {a : Turn} {l : Ledger} {c : Contribution}

/-- A call that was performed is one that all ranks have issued. -/
theorem full_of_performed (hn : 0 < n)
    (ho : ∀ comm, effects.filterMap (Effect.performedOn comm) = List.range (l.rounds n comm))
    {call : Nat × Nat} (h : Effect.performed call ∈ effects) : l.Full n call := by
  have hmem : call.2 ∈ effects.filterMap (Effect.performedOn call.1) :=
    List.mem_filterMap.mpr ⟨_, h, if_pos rfl⟩
  rw [ho] at hmem
  exact (Ledger.lt_rounds_iff hn).mp (List.mem_range.mp hmem)

/-- What was done to memory so far does not depend on what is issued later. -/
theorem foldl_apply_add (hn : 0 < n)
    (ho : ∀ comm, effects.filterMap (Effect.performedOn comm) = List.range (l.rounds n comm)) :
    effects.foldl (Effect.apply (l.add rank comm c) n) store = effects.foldl (Effect.apply l n) store := by
  refine List.foldl_ext _ _ _ fun s e he => ?_
  cases e with
  | worked change => rfl
  | performed call =>
    obtain ⟨-, hsame⟩ : (l.add rank comm c).Full n call ∧ _ :=
      (full_of_performed hn ho he).add
    rw [Effect.apply, Effect.apply, hsame]

/-- A turn without a submission performs nothing. -/
theorem filterMap_effect_of_none (h : a.submission m.net.size = none) (comm : Nat) :
    (a.effect m).toList.filterMap (Effect.performedOn comm) = [] := by
  cases a with
  | create rank => rfl
  | test rank request => rfl
  | work change => rfl
  | barrier rank comm => cases h
  | issue rank comm call attr =>
    simp only [Turn.effect, h]
    rfl

/-- A submission performs its call if it is the last, as the next of the communicator. -/
theorem filterMap_effect (hco : Coherent n l m.net) (hr : rank < n)
    (h : a.submission n = some (rank, comm, c)) (k : Nat) :
    List.range (l.rounds n k) ++ (a.effect m).toList.filterMap (Effect.performedOn k) =
      List.range ((l.add rank comm c).rounds n k) := by
  rw [Turn.effect_of_submission hco hr h, Ledger.rounds_add hr]
  by_cases hf : (l.add rank comm c).Full n (l.next rank comm)
  · rw [if_pos hf]
    by_cases hk : k = comm
    · subst hk
      rw [if_pos ⟨rfl, hf⟩, List.range_succ, Ledger.rounds_eq hr hf]
      simp [Effect.performedOn, Ledger.next]
    · rw [if_neg fun hc => hk hc.1]
      simp [Effect.performedOn, Ledger.next, Ne.symm hk]
  · rw [if_neg hf, if_neg fun hc => hf hc.2]
    simp

/-- A turn keeps the invariant. -/
theorem Fabric.Run.Invariant.step (hi : Fabric.Run.Invariant n store turns effects m)
    (ha : a.Admissible m) :
    Fabric.Run.Invariant n store (turns ++ [a]) (effects ++ (a.effect m).toList) (a.step m) := by
  have hco := hi.coherent
  cases h : a.submission n with
  | none =>
    obtain ⟨hco', hstore, htickets⟩ := Turn.step_quiet hco ha h
    have hl : ledger n (turns ++ [a]) = ledger n turns := ledger_concat_of_none h
    constructor
    · rw [hl]
      exact hco'
    · intro r hr
      rw [htickets, hi.requests r hr, requests_concat_of_none h]
    · intro comm
      rw [List.filterMap_append, hi.order, filterMap_effect_of_none (hco.size.symm ▸ h), List.append_nil, hl]
    · rw [hl, hstore, hi.store, List.foldl_append]
  | some s =>
    obtain ⟨rank, comm, c⟩ := s
    have hr : rank < n := by
      rw [← hco.size] at h ⊢
      exact (ha.submission h).1
    obtain ⟨hco', hstore, htickets⟩ := Turn.step_submission hco ha h
    have hl : ledger n (turns ++ [a]) = (ledger n turns).add rank comm c := ledger_concat h
    constructor
    · rw [hl]
      exact hco'
    · intro r hrn
      rw [htickets, requests_concat h, hi.requests r hrn]
    · intro k
      rw [List.filterMap_append, hi.order, hl, filterMap_effect hco hr h]
    · rw [hl, hstore, hi.store, List.foldl_append, foldl_apply_add (Nat.zero_lt_of_lt hr) hi.order,
        Turn.effect_of_submission hco hr h, Ledger.settle]
      split <;> rfl

/-- A run of any length keeps the invariant. -/
theorem Fabric.Run.invariant (hn : 0 < n) (hr : Fabric.Run n store turns effects m) :
    Fabric.Run.Invariant n store turns effects m := by
  induction hr with
  | start =>
    constructor
    · exact Coherent.ofSize n
    · intro r _
      rw [Fabric.endpoint_ofSize]
      rfl
    · intro comm
      have hzero : (ledger n []).rounds n comm = 0 :=
        Nat.eq_zero_of_not_pos fun h => Nat.not_lt_zero _ ((Ledger.lt_rounds_iff hn).mp h 0 hn)
      rw [hzero]
      rfl
    · rfl
  | step run admissible ih => exact ih.step admissible

end Invariant

/-! ## The account -/

/-- What a request answers when it is asked for. -/
def Fabric.answer (m : Machine Fabric) (rank request : Nat) : Except Refusal Bool :=
  (((Fabric.substrate rank).test request).run m).1

/-- How the fabric stands after a run, in terms of what was issued. -/
structure Account (n : Nat) (store : Store) (turns : List Turn) (effects : List Effect)
    (m : Machine Fabric) : Prop where
  /-- A slot is there once a rank has issued its call, until all ranks have collected the outcome. -/
  present : ∀ call, (m.net.slots.find? call).isSome ↔
    0 < (ledger n turns).issuers n call ∧ m.net.collectors call < n
  /-- It counts the ranks that have issued the call, holds their contributions at their places, has an
  outcome once all are there, and counts the requests that have collected it. -/
  slot : ∀ call s, m.net.slots.find? call = some s →
    s.arrived = (ledger n turns).issuers n call ∧ s.contributions.length = n ∧
      (∀ r < n, s.contributions[r]? = some (ledger n turns r call.1)[call.2]?) ∧
      (s.outcome.isSome ↔ s.arrived = n) ∧ s.released = m.net.settled call
  /-- A call was performed once if all ranks have issued it, and otherwise never. -/
  performed : ∀ call, (effects.filterMap (Effect.performedOn call.1)).count call.2 =
    if (ledger n turns).issuers n call = n then 1 else 0
  /-- Memory and journal are what the performed calls, and the ranks' own work, made of them. -/
  memory : m.store = effects.foldl (Effect.apply (ledger n turns) n) store
  /-- A request answers `false` while some rank has not issued its call, and the verdict on the call, the
  same for every rank, from then on. -/
  answers : ∀ rank < n, ∀ i call, (requests n turns rank)[i]? = some call →
    Fabric.answer m rank i =
      if (ledger n turns).Full n call then Fabric.report (verdict ((ledger n turns).gathered n call))
      else .ok false
  /-- An answer that is not `false` is the answer for good. -/
  keeps : ∀ rank < n, ∀ i < (requests n turns rank).length, Fabric.answer m rank i ≠ .ok false →
    ∀ later effects' m', Fabric.Run n store (turns ++ later) effects' m' →
      Fabric.answer m' rank i = Fabric.answer m rank i
  /-- A call that passes the checks at issue is accepted, with the next request of its rank. -/
  issues : ∀ rank < n, ∀ comm < (m.net.endpoint rank).issued.length, ∀ call attr c,
    Fabric.contribution n call = .ok c → c.Fits →
      (((Fabric.substrate rank).issue (m.net.communicator rank comm) call attr).run m).1 =
        .ok (requests n turns rank).length
  /-- So is a barrier. -/
  barriers : ∀ rank < n, ∀ comm < (m.net.endpoint rank).issued.length,
    (((Fabric.substrate rank).barrier (m.net.communicator rank comm)).run m).1 =
      .ok (some (requests n turns rank).length)

section Account

variable {n : Nat} {store : Store} {turns later : List Turn} {effects effects' : List Effect}
  {m m' : Machine Fabric}

/-- What a rank has issued is a beginning of what it has issued later. -/
theorem ledger_grows (n : Nat) (turns later : List Turn) (r comm : Nat) :
    ledger n turns r comm <+: ledger n (turns ++ later) r comm := by
  rw [ledger, ledger, List.filterMap_append]
  exact List.prefix_append _ _

/-- The requests of a rank are the first of the requests it has later. -/
theorem requests_grow (n : Nat) (turns later : List Turn) (r : Nat) :
    requests n turns r <+: requests n (turns ++ later) r := by
  induction later using List.reverseRecOn with
  | nil => simp
  | append_singleton later a ih =>
    rw [← List.append_assoc]
    cases h : a.submission n with
    | none => rwa [requests_concat_of_none h]
    | some s =>
      obtain ⟨rank, comm, c⟩ := s
      rw [requests_concat h]
      split
      · exact ih.trans (List.prefix_append _ _)
      · exact ih

/-- What the requests of a rank answer after a run. -/
theorem Fabric.Run.answer_eq (hn : 0 < n) (hr : Fabric.Run n store turns effects m) {rank i : Nat}
    {call : Nat × Nat} (hrank : rank < n) (hi : (requests n turns rank)[i]? = some call) :
    Fabric.answer m rank i =
      if (ledger n turns).Full n call then Fabric.report (verdict ((ledger n turns).gathered n call))
      else .ok false := by
  have hinv := hr.invariant hn
  rw [← hinv.requests rank hrank, List.getElem?_map, Option.map_eq_some_iff] at hi
  obtain ⟨t, ht, rfl⟩ := hi
  obtain ⟨m', hrun, -⟩ := hinv.coherent.collect hrank ht
  exact congrArg Prod.fst hrun

/-- Every run, of any length and in any order, can be accounted for by what was issued in it. -/
theorem Fabric.Run.account (hn : 0 < n) (hr : Fabric.Run n store turns effects m) :
    Account n store turns effects m := by
  have hinv := hr.invariant hn
  have hco := hinv.coherent
  constructor
  · intro call
    rw [hco.slots]
    split <;> simp_all
  · intro call s hs
    rw [hco.slots] at hs
    split at hs
    · cases hs
      refine ⟨rfl, Ledger.length_row, fun r h => Ledger.getElem?_row h, ?_, (hco.settled_eq call).symm⟩
      rw [Ledger.slot]
      dsimp only
      split <;> simp_all
    · cases hs
  · intro call
    rw [hinv.order, List.nodup_range.count]
    simp only [List.mem_range, Ledger.lt_rounds_iff hn, Ledger.issuers_eq_iff]
  · exact hinv.store
  · intro rank hrank i call hi
    exact hr.answer_eq hn hrank hi
  · intro rank hrank i hi hne later effects' m' hr'
    have hcall := List.getElem?_eq_getElem hi
    have hcall' : (requests n (turns ++ later) rank)[i]? = some (requests n turns rank)[i] :=
      List.prefix_iff_getElem?.mp (requests_grow n turns later rank) i hi
    rw [hr.answer_eq hn hrank hcall] at hne ⊢
    rw [hr'.answer_eq hn hrank hcall']
    by_cases hf : (ledger n turns).Full n (requests n turns rank)[i]
    · obtain ⟨hf', hsame⟩ := hf.mono fun r _ => ledger_grows n turns later r _
      rw [if_pos hf, if_pos hf', hsame]
    · rw [if_neg hf] at hne
      exact absurd rfl hne
  · intro rank hrank comm hcomm call attr c hc hfits
    have hissued : c.Issued n := .inl ⟨call, hc⟩
    obtain ⟨m', hrun, -⟩ := hco.submit hrank hcomm hissued hfits attr
    rw [← hco.size] at hc
    rw [Fabric.issue_run hc, ← hinv.requests rank hrank, List.length_map]
    exact congrArg Prod.fst hrun
  · intro rank hrank comm hcomm
    obtain ⟨m', hrun, -⟩ := hco.submit hrank hcomm (.inr rfl) Fabric.barrierContribution_fits {}
    have hbarrier : ((Fabric.substrate rank).barrier (m.net.communicator rank comm)).run m = _ :=
      Fabric.barrier_run hrun
    rw [← hinv.requests rank hrank, List.length_map, hbarrier]

/-- Two ranks meet at a barrier; the first asks for its request before the second is there. -/
def twoAtBarrier : List Turn := [.create 0, .create 1, .barrier 0 0, .test 0 0, .barrier 1 0, .test 1 0]

theorem run_twoAtBarrier : ∃ m, Fabric.Run 2 {} twoAtBarrier [.performed (0, 0)] m :=
  ⟨_, .of_allAdmissible (by decide)⟩

/-- The meeting is a run with an account: in it, the barrier was performed. -/
theorem account_twoAtBarrier :
    ∃ m, Fabric.Run 2 {} twoAtBarrier [.performed (0, 0)] m ∧ Account 2 {} twoAtBarrier [.performed (0, 0)] m := by
  obtain ⟨m, hrun⟩ := run_twoAtBarrier
  exact ⟨m, hrun, hrun.account (by decide)⟩

end Account

end Collectives
