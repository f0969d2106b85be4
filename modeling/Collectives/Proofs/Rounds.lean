import Collectives.Proofs.Planning
import Collectives.Proofs.Retention
import Collectives.Proofs.Schedule
import Collectives.Proofs.Words

/-!
# Rounds of calls

In a round each rank makes call `k` of its group's communicator, in any order, while anything else happens in memory
that extends what there is, on other communicators and on this one: a rank that has not come may still make calls before
call `k`, and a rank that has come may go on to later ones. Until the last rank has come no call of the round changes
memory; the call of the last one performs the collective over what the ranks have contributed, each by a plan made on
memory as it found it.
-/

namespace Collectives

/-! ## Byte counts of planned calls -/

/-- The table of an all-gather into a place for every rank adds up to a size. Of the other calls memory itself bounds
the bytes. -/
def Call.TableFits : Call → Prop
  | .allgatherv _ _ (.perRank _) recvCounts tag => recvCounts.sum * tag.width < sizeLimit
  | _ => True

namespace Retains

variable {h : Heap} {buffers : List Buffer} {footprint : List (Address × Nat)}

/-- What lies in memory takes no more bytes than can be addressed. -/
theorem lt_sizeLimit (hb : h.Bounded) (hr : Retains h buffers footprint) {r : Address × Nat} (hmem : r ∈ footprint) :
    r.2 < sizeLimit := by
  have hlimit : blockLimit < sizeLimit := by decide
  by_cases hpos : 0 < r.2
  · obtain ⟨b, -, -, hin⟩ := hr r hmem hpos
    have hblock := hb b.block
    omega
  · omega

/-- Nor do adjacent blocks that lie in memory, all together. -/
theorem sum_lt_sizeLimit (hb : h.Bounded) {start : Address} {width : Nat} {counts : List Nat}
    (hr : Retains h buffers (start.stretches width counts)) : counts.sum * width < sizeLimit := by
  have hlimit : blockLimit < sizeLimit := by decide
  by_contra hout
  have hlast : blockLimit < counts.sum * width := by omega
  -- The block that reaches past the limit would have to lie in memory.
  obtain ⟨i, count, hcount, hlo, hhi⟩ := exists_block_of_lt hlast
  have hpos : 0 < count * width := by omega
  obtain ⟨b, -, -, hin⟩ := hr _ (Address.mem_stretches hcount) hpos
  have hblock := hb b.block
  simp only [Address.advance] at hin
  omega

end Retains

/-- The contribution of a call that names retained memory has byte counts that are sizes. -/
theorem Call.fits {n : Nat} {call : Call} {c : Contribution} {h : Heap} {buffers : List Buffer} (hb : h.Bounded)
    (hr : Retains h buffers (call.footprint n)) (ht : call.TableFits) (hc : Fabric.contribution n call = .ok c) :
    c.Fits := by
  have hzero (tag : Tag) : ([] : List Nat).sum * tag.width < sizeLimit := by
    rw [List.sum_nil, Nat.zero_mul]
    decide
  cases call with
  | bcast buffer count tag root =>
    obtain ⟨_, -, hc⟩ := exists_of_bind_eq_ok hc
    cases hc
    have hsent := hr.lt_sizeLimit hb List.mem_cons_self
    exact ⟨by simpa using hsent, hzero tag⟩
  | allreduce send recv count tag op =>
    cases hc
    have hsent := hr.lt_sizeLimit hb List.mem_cons_self
    exact ⟨by simpa using hsent, hzero tag⟩
  | reduce send recv count tag op root =>
    obtain ⟨_, -, hc⟩ := exists_of_bind_eq_ok hc
    cases hc
    have hsent := hr.lt_sizeLimit hb List.mem_cons_self
    exact ⟨by simpa using hsent, hzero tag⟩
  | allgatherv send count recv recvCounts tag =>
    obtain ⟨_, -, hc⟩ := exists_of_bind_eq_ok hc
    obtain ⟨starts, -, hc⟩ := exists_of_bind_eq_ok hc
    cases hc
    cases recv with
    | flat start =>
      have hsent := hr.lt_sizeLimit hb List.mem_cons_self
      have hrecv : Retains h buffers (start.stretches tag.width recvCounts) := fun r hmem =>
        hr r (List.mem_cons_of_mem _ hmem)
      exact ⟨by simpa using hsent, hrecv.sum_lt_sizeLimit hb⟩
    | perRank places =>
      have hsent := hr.lt_sizeLimit hb List.mem_cons_self
      exact ⟨by simpa using hsent, ht⟩
  | alltoall send recv count tag =>
    cases hc
    have hsent := hr.lt_sizeLimit hb List.mem_cons_self
    have htable : (List.replicate n count).sum * tag.width < sizeLimit := by
      rw [List.sum_replicate, smul_eq_mul, Nat.mul_comm n]
      exact hsent
    exact ⟨htable, htable⟩
  | alltoallv send sendCounts recv recvCounts tag =>
    obtain ⟨_, -, hc⟩ := exists_of_bind_eq_ok hc
    obtain ⟨_, -, hc⟩ := exists_of_bind_eq_ok hc
    cases hc
    have hsend : Retains h buffers (send.stretches tag.width sendCounts) := fun r hmem =>
      hr r (List.mem_append_left _ hmem)
    have hrecv : Retains h buffers (recv.stretches tag.width recvCounts) := fun r hmem =>
      hr r (List.mem_append_right _ hmem)
    exact ⟨hsend.sum_lt_sizeLimit hb, hrecv.sum_lt_sizeLimit hb⟩

/-! ## Calls of a round -/

/-- A rank makes a call on a communicator that it has made, on buffers that it can hold, and the call is answered. -/
structure Group.Arrives (g : Group) (what : Collective Buffer) (comm rank : Nat) (e e' : Engine Fabric) : Prop where
  substrate : e.environment.substrate = Fabric.substrate rank
  ends : g.comm = e.machine.net.communicator rank comm
  obtained : ∀ b ∈ what.operands, Obtained e.machine.store b
  fits : ∀ p call store, g.Hands what e p call store → call.TableFits
  answered : ∃ tensor o, (g.dispatch what tensor).run e = (.ok o, e')

/-- A round in which each of `n` ranks makes call `k` of a communicator: who has made it, and where that leads. -/
inductive Round (n comm k : Nat) (group : Nat → Group) (what : Nat → Collective Buffer) :
    List Nat → Machine Fabric → Prop where
  /-- No rank has issued more than the calls before. -/
  | ready {l : Ledger} {m : Machine Fabric} (coherent : Coherent n l m.net) (bounded : m.store.heap.Bounded)
      (before : ∀ r < n, (l r comm).length ≤ k) (made : ∀ r < n, comm < (m.net.endpoint r).issued.length) :
      Round n comm k group what [] m
  /-- One more rank makes its call. -/
  | call {arrived : List Nat} {e e' : Engine Fabric} {r : Nat} (round : Round n comm k group what arrived e.machine)
      (rank : r < n) (next : e.machine.net.upcoming r comm = (comm, k))
      (arrives : (group r).Arrives (what r) comm r e e') : Round n comm k group what (r :: arrived) e'.machine
  /-- Something else happens, other calls on the communicator included. -/
  | turn {arrived : List Nat} {m : Machine Fabric} {a : Turn} (round : Round n comm k group what arrived m)
      (admissible : a.Admissible m)
      (other : ∀ r c, a.submission n = some (r, comm, c) → m.net.upcoming r comm ≠ (comm, k))
      (work : ∀ change, a = .work change → m.store.heap.Extends (change m.store).heap) :
      Round n comm k group what arrived (a.step m)

/-- What a rank has contributed: its call was planned on buffers that it could hold, and the memory that planning left
has only been extended since. -/
def Contributes (n : Nat) (g : Group) (what : Collective Buffer) (h : Heap) (c : Contribution) : Prop :=
  ∃ (s s' : Store) (p : Plan) (call : Call), (∀ b ∈ what.operands, Obtained s b) ∧ (g.plan what).run s = (.ok p, s') ∧
    p.call = .ok call ∧ Fabric.contribution n call = .ok c ∧ s'.heap.Extends h

theorem Contributes.later {n : Nat} {g : Group} {what : Collective Buffer} {h h' : Heap} {c : Contribution}
    (hc : Contributes n g what h c) (hx : h.Extends h') : Contributes n g what h' c := by
  obtain ⟨s, s', p, call, hb, hplan, hcall, hcontribution, hlater⟩ := hc
  exact ⟨s, s', p, call, hb, hplan, hcall, hcontribution, hlater.trans hx⟩

/-- Where a round stands: the ranks that have come have issued call `k`, and the others have not. -/
structure Round.Standing (n comm k : Nat) (group : Nat → Group) (what : Nat → Collective Buffer) (arrived : List Nat)
    (m : Machine Fabric) (l : Ledger) : Prop where
  coherent : Coherent n l m.net
  bounded : m.store.heap.Bounded
  made : ∀ r < n, comm < (m.net.endpoint r).issued.length
  waiting : ∀ r < n, r ∉ arrived → (l r comm).length ≤ k
  issued : ∀ r ∈ arrived, k < (l r comm).length
  contributed : ∀ r ∈ arrived, ∃ c, (l r comm)[k]? = some c ∧ Contributes n (group r) (what r) m.store.heap c

/-! ## Submitting a planned call -/

section Submitting

variable {n comm r : Nat} {l : Ledger} {g : Group} {what : Collective Buffer} {e e' : Engine Fabric}

/-- What a planned call contributes has byte counts that are sizes. -/
theorem Group.Hands.fits {p : Plan} {call : Call} {store : Store} {c : Contribution} (h : g.Hands what e p call store)
    (hobtained : ∀ b ∈ what.operands, Obtained e.machine.store b) (hb : e.machine.store.heap.Bounded)
    (hsize : g.size = n)
    (htable : call.TableFits) (hc : Fabric.contribution n call = .ok c) : c.Fits := by
  have hcovered := plan_covered (fun b hb => (hobtained b hb).sound) h.planned call h.called
  rw [hsize] at hcovered
  have hplanned := (plan_extends g what).of_run h.planned
  exact Call.fits (hplanned.bounded hb) hcovered htable hc

/-- A call that passes the checks at issue becomes one more contribution in the ledger. -/
theorem Engine.exists_issued {call : Call} {c : Contribution}
    (hsubstrate : e.environment.substrate = Fabric.substrate r)
    (hends : g.comm = e.machine.net.communicator r comm) (hco : Coherent n l e.machine.net) (hr : r < n)
    (hmade : comm < (e.machine.net.endpoint r).issued.length) (hc : Fabric.contribution n call = .ok c) (hfits : c.Fits)
    (store : Store) (tensor : String) :
    ∃ m', (e.substrate.issue g.comm call (e.environment.config.attributes tensor)).run
        { e.machine with store } = (.ok (e.machine.net.endpoint r).tickets.length, m') ∧
      Submitted r comm c { e.machine with store } m' ∧ Coherent n (l.add r comm c) m'.net ∧
      m'.store = (l.add r comm c).settle n (l.next r comm) store := by
  have hco' : Coherent n l ({ e.machine with store } : Machine Fabric).net := hco
  obtain ⟨m', hsubmit, hsubmitted, hnext, hstore⟩ :=
    hco'.submit hr hmade (.inl ⟨call, hc⟩) hfits (e.environment.config.attributes tensor)
  rw [← hco.size] at hc
  refine ⟨m', ?_, hsubmitted, hnext, hstore⟩
  rw [Engine.substrate, hsubstrate, Fabric.issue_run (m := { e.machine with store }) hc, hends]
  exact hsubmit

/-- A rank whose call is answered has it planned and submitted; its handle is pending on the rank's next request. -/
theorem Group.Arrives.submitted_of_dispatch (ha : g.Arrives what comm r e e') (hco : Coherent n l e.machine.net)
    (hb : e.machine.store.heap.Bounded) (hr : r < n) (hmade : comm < (e.machine.net.endpoint r).issued.length)
    {tensor : String} {o : Ongoing} (hrun : (g.dispatch what tensor).run e = (.ok o, e')) :
    ∃ p call store c, g.Hands what e p call store ∧ Fabric.contribution n call = .ok c ∧
      Submitted r comm c { e.machine with store } e'.machine ∧ Coherent n (l.add r comm c) e'.machine.net ∧
      e'.machine.store = (l.add r comm c).settle n (l.next r comm) store ∧
      o.handle? = some
        { operation := p.operation, pending := some (e.machine.net.endpoint r).tickets.length
          retained := p.retained } := by
  obtain ⟨p, call, store, request, hands, hissue, hhandle⟩ := exists_of_dispatch hrun
  -- A call that is refused is not answered.
  obtain ⟨c, hc⟩ : ∃ c, Fabric.contribution n call = .ok c := by
    cases hc : Fabric.contribution n call with
    | ok c => exact ⟨c, rfl⟩
    | error cause =>
      rw [← hco.size] at hc
      rw [Engine.substrate, ha.substrate, Fabric.issue_refused (m := { e.machine with store }) hc] at hissue
      cases hissue
  have hsize : g.size = n := (congrArg Communicator.size ha.ends).trans hco.size
  have hfits := hands.fits ha.obtained hb hsize (ha.fits p call store hands) hc
  obtain ⟨m', hissue', hsubmitted, hnext, hstore⟩ :=
    Engine.exists_issued ha.substrate ha.ends hco hr hmade hc hfits store tensor
  have hboth := hissue'.symm.trans hissue
  have hsame : m' = e'.machine := congrArg Prod.snd hboth
  have hrequest : (e.machine.net.endpoint r).tickets.length = request := Except.ok.inj (congrArg Prod.fst hboth)
  rw [hsame] at hsubmitted hnext hstore
  rw [hrequest]
  exact ⟨p, call, store, c, hands, hc, hsubmitted, hnext, hstore, hhandle⟩

/-- A rank that makes its call has it planned and submitted. -/
theorem Group.Arrives.exists_submitted (ha : g.Arrives what comm r e e') (hco : Coherent n l e.machine.net)
    (hb : e.machine.store.heap.Bounded) (hr : r < n) (hmade : comm < (e.machine.net.endpoint r).issued.length) :
    ∃ p call store c, g.Hands what e p call store ∧ Fabric.contribution n call = .ok c ∧
      Submitted r comm c { e.machine with store } e'.machine ∧ Coherent n (l.add r comm c) e'.machine.net ∧
      e'.machine.store = (l.add r comm c).settle n (l.next r comm) store := by
  obtain ⟨tensor, o, hrun⟩ := ha.answered
  obtain ⟨p, call, store, c, hands, hc, hsubmitted, hnext, hstore, -⟩ := ha.submitted_of_dispatch hco hb hr hmade hrun
  exact ⟨p, call, store, c, hands, hc, hsubmitted, hnext, hstore⟩

end Submitting

/-! ## Memory during a round -/

namespace Heap

theorem extends_deliver (h : Heap) (ds : List Delivery) : h.Extends (h.deliver ds) := by
  induction ds generalizing h with
  | nil => exact .refl h
  | cons d ds ih => exact extends_write.trans (ih _)

/-- A collective only writes into blocks that are there. -/
theorem extends_after {n : Nat} {cs : List Contribution} (hg : Gathered n cs) (h : Heap) : h.Extends (h.after cs) := by
  rcases after_ok hg h with ⟨-, he⟩ | ⟨-, ds, -, he, -⟩
  · rw [he]
    exact .refl h
  · rw [he]
    exact h.extends_deliver ds

end Heap

/-- A journal line for a mismatch is all that is added to what the collective makes of memory. -/
theorem Fabric.heap_conclude (call : Nat × Nat) (s : Store) (outcome : CallOutcome) (heap : Heap) :
    (Fabric.conclude call s outcome heap).heap = heap := by
  cases outcome <;> rfl

/-- Memory after a rank has come to a call. -/
theorem Ledger.heap_settle (l : Ledger) (n : Nat) (call : Nat × Nat) (s : Store) :
    (l.settle n call s).heap = if l.Full n call then s.heap.after (l.gathered n call) else s.heap := by
  unfold settle
  split
  · exact Fabric.heap_conclude ..
  · rfl

theorem Ledger.extends_settle {l : Ledger} {n : Nat} {call : Nat × Nat} (hs : l.Sound n) (hn : 0 < n) (s : Store) :
    s.heap.Extends (l.settle n call s).heap := by
  rw [heap_settle]
  split
  · rename_i hfull
    exact Heap.extends_after (hfull.group hn hs) s.heap
  · exact .refl s.heap

/-! ## Steps of a round -/

/-- How many communicators a rank makes in a turn. -/
def Turn.makes (r : Nat) : Turn → Nat
  | .create rank => if r = rank then 1 else 0
  | .issue .. | .barrier .. | .test .. | .work _ => 0

/-- A rank has the communicators that it has made, and no turn takes one away. -/
theorem Turn.length_issued_step {n : Nat} {l : Ledger} {m : Machine Fabric} {a : Turn} (hco : Coherent n l m.net)
    (ha : a.Admissible m) (r : Nat) :
    ((a.step m).net.endpoint r).issued.length = (m.net.endpoint r).issued.length + a.makes r := by
  cases hs : a.submission n with
  | some submitted =>
    obtain ⟨rank, comm, c⟩ := submitted
    have hmakes : a.makes r = 0 := by
      cases a with
      | create rank => cases hs
      | _ => rfl
    rw [← hco.size] at hs
    obtain ⟨hrank, hcomm, hc, hf⟩ := ha.submission hs
    rw [hco.size] at hrank hc
    obtain ⟨attr, hstep⟩ := Turn.step_of_submission hs
    obtain ⟨m', hrun, hsubmitted, -⟩ := hco.submit hrank hcomm hc hf attr
    rw [hstep, hrun, hmakes]
    by_cases h : r = rank
    · rw [h, hsubmitted.issued, List.length_modify, Nat.add_zero]
    · rw [hsubmitted.others r h, Nat.add_zero]
  | none =>
    cases a with
    | create rank =>
      have hrank : rank < n := lt_of_lt_of_eq ha hco.size
      obtain ⟨m', _, hrun, -, -, -, -, hissued⟩ := hco.create hrank
      have hm : Turn.step m (.create rank) = m' := congrArg Prod.snd hrun
      rw [hm, hissued, Turn.makes]
      split
      · exact List.length_append
      · rfl
    | test rank request =>
      have hrank : rank < n := lt_of_lt_of_eq ha hco.size
      cases ht : (m.net.endpoint rank).tickets[request]? with
      | none =>
        have hm : Turn.step m (.test rank request) = m := congrArg Prod.snd (Fabric.collect_unknown ht)
        rw [hm]
        rfl
      | some t =>
        obtain ⟨m', hrun, -, -, hissued, -⟩ := hco.collect hrank ht
        have hm : Turn.step m (.test rank request) = m' := congrArg Prod.snd hrun
        rw [hm, hissued]
        rfl
    | work change => rfl
    | barrier rank comm => cases hs
    | issue rank comm call attr =>
      rw [← hco.size] at hs
      simp only [Turn.submission] at hs
      split at hs
      · cases hs
      · rename_i e he
        have hm : Turn.step m (.issue rank comm call attr) = m := congrArg Prod.snd (Fabric.issue_refused he)
        rw [hm]
        rfl

theorem Turn.issued_le {n : Nat} {l : Ledger} {m : Machine Fabric} {a : Turn} (hco : Coherent n l m.net)
    (ha : a.Admissible m) (r : Nat) :
    (m.net.endpoint r).issued.length ≤ ((a.step m).net.endpoint r).issued.length := by
  rw [Turn.length_issued_step hco ha]
  exact Nat.le_add_right _ _

/-- A turn that submits nothing leaves memory and journal as they are, unless it is work on them. -/
theorem Turn.store_step_of_quiet {n : Nat} {l : Ledger} {m : Machine Fabric} {a : Turn} (hco : Coherent n l m.net)
    (ha : a.Admissible m) (hs : a.submission n = none) (hidle : ∀ change, a ≠ .work change) :
    (a.step m).store = m.store := by
  have hquiet : a.effect m = none := by
    unfold Turn.effect
    rw [hco.size, hs]
    split
    · exact absurd rfl (hidle _)
    · rename_i h
      cases h
    · rfl
  rw [(Turn.step_quiet hco ha hs).2.1, hquiet]
  rfl

/-- A turn only extends memory, if work on memory does. -/
theorem Turn.extends_step {n : Nat} {l : Ledger} {m : Machine Fabric} {a : Turn} (hco : Coherent n l m.net)
    (ha : a.Admissible m) (hw : ∀ change, a = .work change → m.store.heap.Extends (change m.store).heap) :
    m.store.heap.Extends (a.step m).store.heap := by
  cases hs : a.submission n with
  | some submitted =>
    obtain ⟨rank, comm, c⟩ := submitted
    obtain ⟨hco', hstore, -⟩ := Turn.step_submission hco ha hs
    have hrank : rank < n := by
      rw [← hco.size] at hs ⊢
      exact (ha.submission hs).1
    rw [hstore]
    exact Ledger.extends_settle hco'.sound (Nat.zero_lt_of_lt hrank) m.store
  | none =>
    by_cases hwork : ∃ change, a = .work change
    · obtain ⟨change, rfl⟩ := hwork
      exact hw change rfl
    · rw [Turn.store_step_of_quiet hco ha hs fun change h => hwork ⟨change, h⟩]
      exact .refl m.store.heap

namespace Round

variable {n comm k r : Nat} {group : Nat → Group} {what : Nat → Collective Buffer} {arrived : List Nat}
  {m : Machine Fabric} {l : Ledger} {e e' : Engine Fabric}

/-- A rank that comes next to the call of the round has issued all calls before it, and has not come yet. -/
theorem Standing.upcoming (hst : Standing n comm k group what arrived m l) (hr : r < n)
    (hnext : m.net.upcoming r comm = (comm, k)) : (l r comm).length = k ∧ r ∉ arrived := by
  have hlength : (l r comm).length = k := by
    rw [hst.coherent.upcoming_eq hr] at hnext
    exact congrArg Prod.snd hnext
  refine ⟨hlength, fun hcame => ?_⟩
  have hissued := hst.issued r hcame
  omega

/-- All that have not come to the first call come to it next. -/
theorem Standing.upcoming_first (hst : Standing n comm 0 group what arrived m l) (hr : r < n) (hnew : r ∉ arrived) :
    m.net.upcoming r comm = (comm, 0) := by
  rw [hst.coherent.upcoming_eq hr, Ledger.next, Nat.le_zero.mp (hst.waiting r hr hnew)]

/-- A submission that is not for the call of the round leaves the round where it stands. -/
theorem Standing.add {rank other : Nat} {c : Contribution} (hst : Standing n comm k group what arrived m l)
    (hrank : rank < n) (hother : other = comm → m.net.upcoming rank comm ≠ (comm, k)) :
    (∀ r < n, r ∉ arrived → (l.add rank other c r comm).length ≤ k) ∧
      ∀ r ∈ arrived, k < (l.add rank other c r comm).length := by
  refine ⟨fun r hr hnew => ?_, fun r hcame => ?_⟩
  · have hbefore := hst.waiting r hr hnew
    rw [Ledger.length_add]
    split
    · -- The rank is not yet at call `k`, or it would be making it.
      rename_i hsame
      obtain ⟨rfl, rfl⟩ := hsame
      have hnot := hother rfl
      rw [hst.coherent.upcoming_eq hrank, Ledger.next] at hnot
      have hne : (l r comm).length ≠ k := fun h => hnot (congrArg (Prod.mk comm) h)
      omega
    · exact hbefore
  · have hissued := hst.issued r hcame
    rw [Ledger.length_add]
    split
    · exact Nat.lt_succ_of_lt hissued
    · exact hissued

/-- Whatever else happens leaves the round where it stands. -/
theorem Standing.turn {a : Turn} (hst : Standing n comm k group what arrived m l) (ha : a.Admissible m)
    (hother : ∀ r c, a.submission n = some (r, comm, c) → m.net.upcoming r comm ≠ (comm, k))
    (hw : ∀ change, a = .work change → m.store.heap.Extends (change m.store).heap) :
    ∃ l', Standing n comm k group what arrived (a.step m) l' ∧
      ∀ (r i : Nat) (c : Contribution), (l r comm)[i]? = some c → (l' r comm)[i]? = some c := by
  have hx := Turn.extends_step hst.coherent ha hw
  have hmade : ∀ r < n, comm < ((a.step m).net.endpoint r).issued.length := fun r hr =>
    lt_of_lt_of_le (hst.made r hr) (Turn.issued_le hst.coherent ha r)
  obtain ⟨l', hco, hwaiting, hissued, hkept⟩ : ∃ l', Coherent n l' (a.step m).net ∧
      (∀ r < n, r ∉ arrived → (l' r comm).length ≤ k) ∧ (∀ r ∈ arrived, k < (l' r comm).length) ∧
      ∀ (r i : Nat) (c : Contribution), (l r comm)[i]? = some c → (l' r comm)[i]? = some c := by
    cases hs : a.submission n with
    | none => exact ⟨l, (Turn.step_quiet hst.coherent ha hs).1, hst.waiting, hst.issued, fun r i c h => h⟩
    | some submitted =>
      obtain ⟨rank, other, c⟩ := submitted
      have hrank : rank < n := by
        rw [← hst.coherent.size] at hs ⊢
        exact (ha.submission hs).1
      obtain ⟨hwaiting, hissued⟩ := hst.add (c := c) hrank fun h => hother rank c (h ▸ hs)
      refine ⟨l.add rank other c, (Turn.step_submission hst.coherent ha hs).1, hwaiting, hissued, fun r i d hd => ?_⟩
      exact Ledger.getElem?_add_of_some hd
  refine ⟨l', ⟨hco, hx.bounded hst.bounded, hmade, hwaiting, hissued, fun r hr => ?_⟩, hkept⟩
  obtain ⟨c, hc, hcontributes⟩ := hst.contributed r hr
  exact ⟨c, hkept r k c hc, hcontributes.later hx⟩

/-- A call of the round is planned and submitted; memory changes with the last one. -/
theorem Standing.call (hst : Standing n comm k group what arrived e.machine l) (hr : r < n)
    (hnext : e.machine.net.upcoming r comm = (comm, k)) (ha : (group r).Arrives (what r) comm r e e') :
    ∃ p call store c, (group r).Hands (what r) e p call store ∧ Fabric.contribution n call = .ok c ∧
      Standing n comm k group what (r :: arrived) e'.machine (l.add r comm c) ∧
      e'.machine.store = (l.add r comm c).settle n (comm, k) store := by
  obtain ⟨hlength, -⟩ := hst.upcoming hr hnext
  obtain ⟨p, call, store, c, hands, hc, hsubmitted, hco', hstore⟩ :=
    ha.exists_submitted hst.coherent hst.bounded hr (hst.made r hr)
  have hplanned := (Group.plan_extends (group r) (what r)).of_run hands.planned
  rw [Ledger.next, hlength] at hstore
  have hsettled : store.heap.Extends e'.machine.store.heap := by
    rw [hstore]
    exact Ledger.extends_settle hco'.sound (Nat.zero_lt_of_lt hr) store
  have hx := hplanned.trans hsettled
  have hothers {q : Nat} (hq : q ≠ r) : l.add r comm c q comm = l q comm := by
    rw [Ledger.add, if_neg fun h => hq h.1]
  have hown : l.add r comm c r comm = l r comm ++ [c] := by rw [Ledger.add, if_pos ⟨rfl, rfl⟩]
  refine ⟨p, call, store, c, hands, hc, ⟨hco', hx.bounded hst.bounded, ?_, ?_, ?_, ?_⟩, hstore⟩
  · intro q hq
    by_cases h : q = r
    · rw [h, hsubmitted.issued, List.length_modify]
      exact hst.made r hr
    · rw [hsubmitted.others q h]
      exact hst.made q hq
  · intro q hq hnew
    rw [hothers (List.ne_of_not_mem_cons hnew)]
    exact hst.waiting q hq (List.not_mem_of_not_mem_cons hnew)
  · intro q hq
    by_cases h : q = r
    · rw [h, hown, List.length_append, hlength, List.length_singleton]
      exact Nat.lt_succ_self k
    · rw [hothers h]
      exact hst.issued q ((List.mem_cons.mp hq).resolve_left h)
  · intro q hq
    by_cases h : q = r
    · have hlast : (l r comm ++ [c])[k]? = some c := by
        rw [← hlength]
        exact List.getElem?_concat_length
      rw [h, hown]
      exact ⟨c, hlast, e.machine.store, store, p, call, ha.obtained, hands.planned, hands.called, hc, hsettled⟩
    · rw [hothers h]
      obtain ⟨c', hc', hcontributes⟩ := hst.contributed q ((List.mem_cons.mp hq).resolve_left h)
      exact ⟨c', hc', hcontributes.later hx⟩

/-- Every round stands somewhere. -/
theorem standing (h : Round n comm k group what arrived m) : ∃ l, Standing n comm k group what arrived m l := by
  induction h with
  | ready coherent bounded before made =>
    refine ⟨_, coherent, bounded, made, fun r hr _ => before r hr, ?_, ?_⟩
    · intro r hr
      cases hr
    · intro r hr
      cases hr
  | call round rank next arrives ih =>
    obtain ⟨l, hst⟩ := ih
    obtain ⟨p, call, store, c, -, -, hst', -⟩ := hst.call rank next arrives
    exact ⟨_, hst'⟩
  | turn round admissible other work ih =>
    obtain ⟨l, hst⟩ := ih
    obtain ⟨l', hst', -⟩ := hst.turn admissible other work
    exact ⟨l', hst'⟩

/-- Any other call that a rank makes on the communicator leaves the round where it stands. -/
theorem beside {g : Group} {other : Collective Buffer} (h : Round n comm k group what arrived e.machine) (hr : r < n)
    (hnext : e.machine.net.upcoming r comm ≠ (comm, k)) (ha : g.Arrives other comm r e e') :
    Round n comm k group what arrived e'.machine := by
  obtain ⟨l, hst⟩ := h.standing
  obtain ⟨tensor, o, hrun⟩ := ha.answered
  obtain ⟨p, call, store, request, hands, hissue, -⟩ := Group.exists_of_dispatch hrun
  have hsize : g.size = n := (congrArg Communicator.size ha.ends).trans hst.coherent.size
  -- The call is planned, which works on memory, and then issued.
  have hplanned : Round n comm k group what arrived ((Turn.work fun _ => store).step e.machine) := by
    refine h.turn trivial (fun r c hc => by cases hc) fun change hchange => ?_
    cases hchange
    exact (Group.plan_extends g other).of_run hands.planned
  have hstep : (Turn.issue r comm call (e.environment.config.attributes tensor)).step
      ((Turn.work fun _ => store).step e.machine) = e'.machine := by
    rw [Engine.substrate, ha.substrate, ha.ends] at hissue
    exact congrArg Prod.snd hissue
  rw [← hstep]
  refine hplanned.turn ⟨hr.trans_eq hst.coherent.size.symm, hst.made r hr, fun c hc => ?_⟩ (fun r' c hc => ?_)
    fun change hchange => by cases hchange
  · have hc : Fabric.contribution n call = .ok c := hst.coherent.size ▸ hc
    exact hands.fits ha.obtained hst.bounded hsize (ha.fits p call store hands) hc
  · have hrank : r' = r := by
      simp only [Turn.submission] at hc
      split at hc
      · exact (congrArg Prod.fst (Option.some.inj hc)).symm
      · cases hc
    rw [hrank]
    exact hnext

/-- Whatever call a rank makes on the communicator, memory is extended at most. -/
theorem extends_of_arrives {g : Group} {other : Collective Buffer} (h : Round n comm k group what arrived e.machine)
    (hr : r < n) (ha : g.Arrives other comm r e e') : e.machine.store.heap.Extends e'.machine.store.heap := by
  obtain ⟨l, hst⟩ := h.standing
  obtain ⟨p, call, store, c, hands, -, -, hco, hstore⟩ :=
    ha.exists_submitted hst.coherent hst.bounded hr (hst.made r hr)
  rw [hstore]
  exact ((Group.plan_extends g other).of_run hands.planned).trans
    (Ledger.extends_settle hco.sound (Nat.zero_lt_of_lt hr) store)

theorem upcoming_first (h : Round n comm 0 group what arrived m) (hr : r < n) (hnew : r ∉ arrived) :
    m.net.upcoming r comm = (comm, 0) := by
  obtain ⟨l, hst⟩ := h.standing
  exact hst.upcoming_first hr hnew

/-- A rank that has come to a call comes to the one after it next. -/
theorem upcoming_of_arrives (h : Round n comm k group what arrived e.machine) (hr : r < n)
    (hnext : e.machine.net.upcoming r comm = (comm, k)) (ha : (group r).Arrives (what r) comm r e e') :
    e'.machine.net.upcoming r comm = (comm, k + 1) := by
  obtain ⟨l, hst⟩ := h.standing
  obtain ⟨hlength, -⟩ := hst.upcoming hr hnext
  obtain ⟨p, call, store, c, -, -, hst', -⟩ := hst.call hr hnext ha
  have hone : (l.add r comm c r comm).length = k + 1 := by rw [Ledger.length_add, if_pos ⟨rfl, rfl⟩, hlength]
  rw [hst'.coherent.upcoming_eq hr, Ledger.next, hone]

/-- Any number of ranks can begin a round on any memory. -/
theorem exists_ready (n : Nat) {s : Store} (hs : s.heap.Bounded) :
    ∃ m, m.store = s ∧ ∀ k group what, Round n 0 k group what [] m := by
  -- The ranks make the communicator one after the other.
  have hranks : ∀ j ≤ n, ∃ m : Machine Fabric, m.store = s ∧ Coherent n (fun _ _ => []) m.net ∧
      ∀ r < j, 0 < (m.net.endpoint r).issued.length := by
    intro j
    induction j with
    | zero =>
      intro _
      exact ⟨{ store := s, net := .ofSize n }, rfl, .ofSize n, fun r hr => absurd hr (Nat.not_lt_zero r)⟩
    | succ j ih =>
      intro hj
      obtain ⟨m, hstore, hco, hmade⟩ := ih (by omega)
      obtain ⟨m', _, -, -, hstore', hco', -, hissued⟩ := hco.create hj
      refine ⟨m', hstore'.trans hstore, hco', fun r hr => ?_⟩
      rw [hissued]
      split
      · rw [List.length_append]
        exact Nat.lt_add_left _ Nat.zero_lt_one
      · exact hmade r (by omega)
  obtain ⟨m, hstore, hco, hmade⟩ := hranks n le_rfl
  exact ⟨m, hstore, fun k group what => .ready hco (hstore ▸ hs) (fun r _ => Nat.zero_le k) hmade⟩

/-- The call of a round is not full while a rank has not come. -/
theorem Standing.not_full (hst : Standing n comm k group what arrived m l) {q : Nat} (hq : q < n)
    (hwaits : q ∉ arrived) : ¬l.Full n (comm, k) :=
  fun hfull => absurd (hfull q hq) (Nat.not_lt.mpr (hst.waiting q hq hwaits))

/-- The call of a round is full once all ranks have come. -/
theorem Standing.full (hst : Standing n comm k group what arrived m l) (hall : ∀ q < n, q ∈ arrived) :
    l.Full n (comm, k) :=
  fun q hq => hst.issued q (hall q hq)

/-- A call that is not the last of its round changes memory by its planning only. -/
theorem heap_of_waiting (h : Round n comm k group what arrived e.machine) (hr : r < n)
    (hnext : e.machine.net.upcoming r comm = (comm, k)) (ha : (group r).Arrives (what r) comm r e e') {q : Nat}
    (hq : q < n) (hne : q ≠ r) (hwaits : q ∉ arrived) :
    ∃ p call store, (group r).Hands (what r) e p call store ∧ e'.machine.store.heap = store.heap := by
  obtain ⟨l, hst⟩ := h.standing
  obtain ⟨p, call, store, c, hands, -, hst', hstore⟩ := hst.call hr hnext ha
  have hopen := hst'.not_full hq (List.not_mem_cons_of_ne_of_not_mem hne hwaits)
  refine ⟨p, call, store, hands, ?_⟩
  rw [hstore, Ledger.heap_settle, if_neg hopen]

/-- The last call of a round performs the collective over what all the ranks have contributed. -/
theorem heap_of_last (h : Round n comm k group what arrived e.machine) (hr : r < n)
    (hnext : e.machine.net.upcoming r comm = (comm, k)) (ha : (group r).Arrives (what r) comm r e e')
    (hlast : ∀ q < n, q ≠ r → q ∈ arrived) :
    ∃ p call store cs, (group r).Hands (what r) e p call store ∧ Gathered n cs ∧
      (∀ q < n, ∃ c, cs[q]? = some c ∧ Contributes n (group q) (what q) store.heap c) ∧
      e'.machine.store.heap = store.heap.after cs := by
  obtain ⟨l, hst⟩ := h.standing
  obtain ⟨hlength, -⟩ := hst.upcoming hr hnext
  obtain ⟨p, call, store, c, hands, hc, hst', hstore⟩ := hst.call hr hnext ha
  have hplanned := (Group.plan_extends (group r) (what r)).of_run hands.planned
  have hall : ∀ q < n, q ∈ r :: arrived := by
    intro q hq
    by_cases h : q = r
    · rw [h]
      exact List.mem_cons_self
    · exact List.mem_cons_of_mem r (hlast q hq h)
  have hfull := hst'.full hall
  refine ⟨p, call, store, _, hands, hfull.group (Nat.zero_lt_of_lt hr) hst'.coherent.sound, ?_, ?_⟩
  · intro q hq
    rw [hfull.getElem?_gathered hq]
    by_cases h : q = r
    · have hentry : (l.add r comm c q comm)[k]? = some c := by
        rw [h, Ledger.add, if_pos ⟨rfl, rfl⟩, ← hlength]
        exact List.getElem?_concat_length
      rw [h] at hentry ⊢
      exact ⟨c, hentry, e.machine.store, store, p, call, ha.obtained, hands.planned, hands.called, hc, .refl _⟩
    · obtain ⟨c', hc', hcontributes⟩ := hst.contributed q (hlast q hq h)
      have hentry : (l.add r comm c q comm)[k]? = some c' := by
        rw [Ledger.add, if_neg fun hc => h hc.1]
        exact hc'
      exact ⟨c', hentry, hcontributes.later hplanned⟩
  · rw [hstore, Ledger.heap_settle, if_pos hfull]

end Round

/-- The ranks of a group of two. -/
def pairGroup (rank : Nat) : Group := { comm := { number := 0, rank, size := 2, vector := true }, mode := .flat }

end Collectives
