import Collectives.Proofs.ExchangePlans
import Collectives.Proofs.Rounds

/-!
# Assemblies

In an assembly the ranks of a group come to one exchange, call `k` of their communicator, in any order, while anything
else happens, earlier and later calls on the communicator included. Planning may make new blocks for a call, which
nobody else touches. No call but the last changes a byte that was there before; the last one performs the exchange, and
from then on every rank's request has the same outcome.
-/

namespace Collectives

/-! ## Visits -/

/-- One rank's call of an exchange: the store that it found, the plan, the store that planning left, and the request. -/
structure Visit where
  found : Store
  plan : Plan
  planned : Store
  request : Nat

namespace Visit

/-- The handle of the call. -/
def handle (v : Visit) : Handle :=
  { operation := v.plan.operation, pending := some v.request, retained := v.plan.retained }

/-- Where the call stands when it has been issued. -/
def ongoing (v : Visit) : Ongoing := v.plan.copyOut.elim (.returned v.handle) (.staged v.handle)

/-- The handle of a call that receives in place is given back at once, pending. -/
theorem ongoing_of_inPlace {v : Visit} (h : v.plan.copyOut = none) : v.ongoing = .returned v.handle := by
  unfold ongoing
  rw [h, Option.elim_none]

/-- Any other call goes on to wait and to copy out. -/
theorem exists_ongoing_of_staged {v : Visit} (h : v.plan.copyOut ≠ none) :
    ∃ copyOut, v.ongoing = .staged v.handle copyOut := by
  obtain ⟨copyOut, hcopy⟩ := Option.ne_none_iff_exists'.mp h
  refine ⟨copyOut, ?_⟩
  unfold ongoing
  rw [hcopy, Option.elim_some]

/-- The block was made for the call. -/
def Made (v : Visit) (block : Nat) : Prop := v.found.Made v.planned block

/-- A rank makes the call, and it is answered. -/
structure Calls (v : Visit) (g : Group) (what : Collective Buffer) (comm rank : Nat) (e e' : Engine Fabric) : Prop where
  arrives : g.Arrives what comm rank e e'
  found : v.found = e.machine.store
  planned : (g.plan what).run v.found = (.ok v.plan, v.planned)
  answered : ∃ tensor, (g.dispatch what tensor).run e = (.ok v.ongoing, e')

/-- The visit is a rank's in a group of `n`, which could hold what it handed over. -/
structure Planned (v : Visit) (n rank : Nat) (g : Group) (what : Collective Buffer) : Prop where
  size : g.size = n
  ranked : g.rank = rank
  obtained : ∀ b ∈ what.operands, Obtained v.found b
  bounded : v.found.heap.Bounded
  planned : (g.plan what).run v.found = (.ok v.plan, v.planned)

/-- The call has been contributed as call `k` of the communicator, the rank has a request for it, and its new blocks are
as planning left them. -/
structure Waits (v : Visit) (n comm k rank : Nat) (l : Ledger) (f : Fabric) (h : Heap) : Prop where
  contributed : ∃ call c, v.plan.call = .ok call ∧ Fabric.contribution n call = .ok c ∧ (l rank comm)[k]? = some c
  ticket : ((f.endpoint rank).tickets.map Ticket.call)[v.request]? = some (comm, k)
  later : v.planned.heap.Extends h
  kept : ∀ block pos, v.Made block → h.byte? block pos = v.planned.heap.byte? block pos

end Visit

/-- All ranks have come to a call, which has this outcome, and each has a request for it. -/
def Fabric.Decided (f : Fabric) (n : Nat) (request : Nat → Nat) (outcome : CallOutcome) : Prop :=
  ∃ l call, Coherent n l f ∧ l.Full n call ∧ verdict (l.gathered n call) = outcome ∧
    ∀ q < n, ((f.endpoint q).tickets.map Ticket.call)[request q]? = some call

/-- An exchange of blocks that lie in memory passes the checks at issue. -/
theorem Exchange.Lent.exists_contribution {x : Exchange} {n : Nat} {h : Heap} {call : Call} (hx : x.Lent n h)
    (hcall : x.call h = .ok call) : ∃ c, Fabric.contribution n call = .ok c ∧ call.TableFits := by
  obtain ⟨source, -, hcall⟩ := exists_of_bind_eq_ok hcall
  obtain ⟨target, -, hcall⟩ := exists_of_bind_eq_ok hcall
  cases hcall
  exact ⟨_, hx.contribution_eq_ok source target, trivial⟩

/-- Whatever call is planned passes the checks at issue. -/
def Group.Trades (g : Group) (what : Collective Buffer) : Prop :=
  ∀ s s' p, s.heap.Bounded → (∀ b ∈ what.operands, b.Sound s.heap) → (g.plan what).run s = (.ok p, s') →
    ∀ call, p.call = .ok call → ∃ c, Fabric.contribution g.size call = .ok c ∧ call.TableFits

/-- An exchange of blocks that lie in memory does. -/
theorem Plan.Asks.trades {p : Plan} {x : Exchange} {n : Nat} {s s' : Store} (hx : p.Asks x n s s') {call : Call}
    (hcall : p.call = .ok call) : ∃ c, Fabric.contribution n call = .ok c ∧ call.TableFits := by
  rw [hx.called] at hcall
  exact hx.lent.exists_contribution hcall

/-- A rank's call passes the checks: its environment is open and at the rank's end of the fabric, the group is over the
communicator, the rank holds the buffers, and the call is planned and names its memory. -/
structure Group.Passes (g : Group) (what : Collective Buffer) (comm rank : Nat) (e : Engine Fabric) : Prop where
  substrate : e.environment.substrate = Fabric.substrate rank
  ends : g.comm = e.machine.net.communicator rank comm
  obtained : ∀ b ∈ what.operands, Obtained e.machine.store b
  hands : ∃ p call store, g.Hands what e p call store

/-- The call is answered: with a handle that is pending, or it goes on to wait and to copy results out. -/
def Group.AnswersCall (g : Group) (what : Collective Buffer) (comm rank : Nat) (e : Engine Fabric) : Prop :=
  ∀ tensor, ∃ (v : Visit) (e' : Engine Fabric), (g.dispatch what tensor).run e = (.ok v.ongoing, e') ∧
    v.Calls g what comm rank e e'

/-- A rank makes call `k` of the communicator. None of its buffers has a byte in a block made for another rank's. -/
structure Joins (n comm k : Nat) (group : Nat → Group) (what : Nat → Collective Buffer) (visit : Nat → Visit)
    (arrived : List Nat) (r : Nat) (e e' : Engine Fabric) : Prop where
  rank : r < n
  next : e.machine.net.upcoming r comm = (comm, k)
  calls : (visit r).Calls (group r) (what r) comm r e e'
  foreign : ∀ q ∈ arrived, ∀ b ∈ (what r).operands, ∀ block pos, b.Holds block pos → ¬(visit q).Made block

/-- The ranks of a group come to one exchange: who has come, and where that leads, up to the last call. -/
inductive Assembly (n comm k : Nat) (group : Nat → Group) (what : Nat → Collective Buffer) (visit : Nat → Visit) :
    List Nat → Machine Fabric → Prop where
  /-- No rank has issued more than the calls before. -/
  | ready {l : Ledger} {m : Machine Fabric} (coherent : Coherent n l m.net) (bounded : m.store.heap.Bounded)
      (before : ∀ r < n, (l r comm).length ≤ k) (made : ∀ r < n, comm < (m.net.endpoint r).issued.length) :
      Assembly n comm k group what visit [] m
  /-- One more rank makes its call, and it is not the last one. -/
  | call {arrived : List Nat} {e e' : Engine Fabric} {r : Nat}
      (assembly : Assembly n comm k group what visit arrived e.machine)
      (joins : Joins n comm k group what visit arrived r e e') (waits : ∃ q < n, q ≠ r ∧ q ∉ arrived) :
      Assembly n comm k group what visit (r :: arrived) e'.machine
  /-- Something else happens, other calls on the communicator included, and leaves the blocks alone that were made for
  the calls. -/
  | turn {arrived : List Nat} {m : Machine Fabric} {a : Turn} (assembly : Assembly n comm k group what visit arrived m)
      (admissible : a.Admissible m)
      (other : ∀ r c, a.submission n = some (r, comm, c) → m.net.upcoming r comm ≠ (comm, k))
      (work : ∀ change, a = .work change → m.store.heap.Extends (change m.store).heap)
      (kept : ∀ q ∈ arrived, ∀ block pos, (visit q).Made block →
        (a.step m).store.heap.byte? block pos = m.store.heap.byte? block pos) :
      Assembly n comm k group what visit arrived (a.step m)

/-! ## Where an assembly stands -/

namespace Assembly

/-- The ranks that have come, their contributions, and the memory that was made for them. -/
structure Mustered (n comm k : Nat) (group : Nat → Group) (what : Nat → Collective Buffer) (visit : Nat → Visit)
    (arrived : List Nat) (l : Ledger) (f : Fabric) (h : Heap) : Prop where
  member : ∀ q ∈ arrived, q < n
  planned : ∀ q ∈ arrived, (visit q).Planned n q (group q) (what q)
  waits : ∀ q ∈ arrived, (visit q).Waits n comm k q l f h
  apart : ∀ p ∈ arrived, ∀ q ∈ arrived, p ≠ q → ∀ block, (visit p).Made block → ¬(visit q).Made block
  foreign : ∀ p ∈ arrived, ∀ q ∈ arrived, ∀ b ∈ (what q).operands, ∀ block pos, b.Holds block pos →
    ¬(visit p).Made block

/-- Where an assembly stands before the last call. -/
structure Standing (n comm k : Nat) (group : Nat → Group) (what : Nat → Collective Buffer) (visit : Nat → Visit)
    (arrived : List Nat) (m : Machine Fabric) (l : Ledger) : Prop where
  round : Round.Standing n comm k group what arrived m l
  mustered : Mustered n comm k group what visit arrived l m.net m.store.heap

end Assembly

/-- Requests are only added, whatever turn is taken. -/
theorem Turn.getElem?_tickets_step {n r i : Nat} {l : Ledger} {m : Machine Fabric} {a : Turn} {call : Nat × Nat}
    (hco : Coherent n l m.net) (ha : a.Admissible m)
    (ht : ((m.net.endpoint r).tickets.map Ticket.call)[i]? = some call) :
    (((a.step m).net.endpoint r).tickets.map Ticket.call)[i]? = some call := by
  have hi := (List.getElem?_eq_some_iff.mp ht).1
  cases hs : a.submission n with
  | none =>
    obtain ⟨-, -, htickets⟩ := Turn.step_quiet hco ha hs
    rw [htickets, ht]
  | some submitted =>
    obtain ⟨rank, comm, c⟩ := submitted
    obtain ⟨-, -, htickets⟩ := Turn.step_submission hco ha hs
    rw [htickets]
    split
    · rw [List.getElem?_append_left hi, ht]
    · exact ht

namespace Assembly

variable {n comm k r : Nat} {group : Nat → Group} {what : Nat → Collective Buffer} {visit : Nat → Visit}
  {arrived : List Nat} {m : Machine Fabric} {l : Ledger} {e e' : Engine Fabric}

/-- Whatever else happens leaves the assembly where it stands. -/
theorem Standing.turn {a : Turn} (hst : Standing n comm k group what visit arrived m l) (ha : a.Admissible m)
    (hother : ∀ r c, a.submission n = some (r, comm, c) → m.net.upcoming r comm ≠ (comm, k))
    (hw : ∀ change, a = .work change → m.store.heap.Extends (change m.store).heap)
    (hkept : ∀ q ∈ arrived, ∀ block pos, (visit q).Made block →
      (a.step m).store.heap.byte? block pos = m.store.heap.byte? block pos) :
    ∃ l', Standing n comm k group what visit arrived (a.step m) l' := by
  obtain ⟨l', hround, hissued⟩ := hst.round.turn ha hother hw
  have hx := Turn.extends_step hst.round.coherent ha hw
  refine ⟨l', hround, hst.mustered.member, hst.mustered.planned, fun q hq => ?_, hst.mustered.apart,
    hst.mustered.foreign⟩
  have hwaits := hst.mustered.waits q hq
  refine ⟨?_, Turn.getElem?_tickets_step hst.round.coherent ha hwaits.ticket, hwaits.later.trans hx, ?_⟩
  · obtain ⟨call, c, hcall, hc, hentry⟩ := hwaits.contributed
    exact ⟨call, c, hcall, hc, hissued q k c hentry⟩
  · intro block pos hmade
    rw [hkept q hq block pos hmade, hwaits.kept block pos hmade]

/-- The buffers of the ranks that have come lie in memory. -/
theorem Standing.sound (hst : Standing n comm k group what visit arrived m l) {q : Nat} (hq : q ∈ arrived) {b : Buffer}
    (hb : b ∈ (what q).operands) : b.Sound m.store.heap := by
  have hplanned := hst.mustered.planned q hq
  have hx := ((group q).plan_extends (what q)).of_run hplanned.planned
  exact (hplanned.obtained b hb).sound.later (hx.trans (hst.mustered.waits q hq).later)

/-- What a call hands over is what was planned. -/
private theorem eq_of_hands {v : Visit} {p : Plan} {call : Call} {store : Store}
    (hv : v.Calls (group r) (what r) comm r e e') (hands : (group r).Hands (what r) e p call store) :
    v.plan = p ∧ v.planned = store := by
  have hplanned := hv.planned
  rw [hv.found] at hplanned
  have hsame := hplanned.symm.trans hands.planned
  exact ⟨Except.ok.inj (congrArg Prod.fst hsame), congrArg Prod.snd hsame⟩

/-- One more rank is among those that have come. What was made for earlier calls was there before its call, and what is
made for it was not. -/
theorem Mustered.join {f f' : Fabric} {h : Heap} {c : Contribution}
    (hm : Mustered n comm k group what visit arrived l f h) (hj : Joins n comm k group what visit arrived r e e')
    (hcomes : r ∉ arrived) (hfound : (visit r).found.heap = h) (hplanned : (visit r).Planned n r (group r) (what r))
    (hwaits : (visit r).Waits n comm k r (l.add r comm c) f' (visit r).planned.heap)
    (hothers : ∀ q, q ≠ r → f'.endpoint q = f.endpoint q) (hgrows : h.Grows (visit r).planned.heap)
    (hx : h.Extends (visit r).planned.heap) (hsound : ∀ q ∈ r :: arrived, ∀ b ∈ (what q).operands, b.Sound h) :
    Mustered n comm k group what visit (r :: arrived) (l.add r comm c) f' (visit r).planned.heap := by
  have hold {q block : Nat} (hq : q ∈ arrived) (hmade : (visit q).Made block) : block < h.blocks.size :=
    lt_of_lt_of_le hmade.2 (hm.waits q hq).later.blocks
  have hfresh {block : Nat} (hmade : (visit r).Made block) : h.blocks.size ≤ block := by
    have hfirst := hmade.1
    rwa [hfound] at hfirst
  have hnew {q block : Nat} (hq : q ∈ arrived) (hmade : (visit q).Made block) : ¬(visit r).Made block := fun hmade' =>
    absurd (hold hq hmade) (Nat.not_lt.mpr (hfresh hmade'))
  constructor
  · exact List.forall_mem_cons.mpr ⟨hj.rank, hm.member⟩
  · exact List.forall_mem_cons.mpr ⟨hplanned, hm.planned⟩
  · refine List.forall_mem_cons.mpr ⟨hwaits, fun q hq => ?_⟩
    have hearlier := hm.waits q hq
    have hne : q ≠ r := fun h => hcomes (h ▸ hq)
    constructor
    · rw [Ledger.add, if_neg fun h => hne h.1]
      exact hearlier.contributed
    · rw [hothers q hne]
      exact hearlier.ticket
    · exact hearlier.later.trans hx
    · intro block pos hmade
      rw [hgrows.kept block pos (hold hq hmade), hearlier.kept block pos hmade]
  · intro p hp q hq hne block hmade
    rcases List.mem_cons.mp hp with rfl | hearlier
    · rcases List.mem_cons.mp hq with rfl | hearlier
      · exact absurd rfl hne
      · exact fun hmade' => hnew hearlier hmade' hmade
    · rcases List.mem_cons.mp hq with rfl | hearlier'
      · exact hnew hearlier hmade
      · exact hm.apart p hearlier q hearlier' hne block hmade
  · intro p hp q hq b hb block pos hh
    rcases List.mem_cons.mp hp with rfl | hearlier
    · exact fun hmade => absurd ((hsound q hq b hb).lt_size hh) (Nat.not_lt.mpr (hfresh hmade))
    · rcases List.mem_cons.mp hq with rfl | hearlier'
      · exact hj.foreign p hearlier b hb block pos hh
      · exact hm.foreign p hearlier q hearlier' b hb block pos hh

/-- One more call is planned and submitted; its contribution joins the others, and memory is as planning leaves it until
all have come. -/
theorem Standing.join (hst : Standing n comm k group what visit arrived e.machine l)
    (hj : Joins n comm k group what visit arrived r e e') :
    ∃ c, Round.Standing n comm k group what (r :: arrived) e'.machine (l.add r comm c) ∧
      Mustered n comm k group what visit (r :: arrived) (l.add r comm c) e'.machine.net (visit r).planned.heap ∧
      e.machine.store.heap.Grows (visit r).planned.heap ∧
      e'.machine.store = (l.add r comm c).settle n (comm, k) (visit r).planned := by
  have hco := hst.round.coherent
  have ha := hj.calls.arrives
  obtain ⟨hlength, hcomes⟩ := hst.round.upcoming hj.rank hj.next
  obtain ⟨tensor, hrun⟩ := hj.calls.answered
  obtain ⟨p, call, store, c, hands, hc, hround, hstore⟩ := hst.round.call hj.rank hj.next ha
  obtain ⟨p', call', store', c', hands', hc', hsubmitted, -, -, hhandle⟩ :=
    ha.submitted_of_dispatch hco hst.round.bounded hj.rank (hst.round.made r hj.rank) hrun
  obtain ⟨rfl, rfl⟩ := eq_of_hands hj.calls hands
  obtain ⟨rfl, rfl⟩ := eq_of_hands hj.calls hands'
  obtain rfl : call = call' := Except.ok.inj (hands.called.symm.trans hands'.called)
  obtain rfl : c = c' := Except.ok.inj (hc.symm.trans hc')
  have hfound : (visit r).found.heap = e.machine.store.heap := congrArg Store.heap hj.calls.found
  have hsound : ∀ q ∈ r :: arrived, ∀ b ∈ (what q).operands, b.Sound e.machine.store.heap :=
    List.forall_mem_cons.mpr ⟨fun b hb => (ha.obtained b hb).sound, fun q hq b hb => hst.sound hq hb⟩
  have hgrows : e.machine.store.heap.Grows (visit r).planned.heap :=
    ((group r).plan_grows (what r)).of_run hands.planned
  have hx : e.machine.store.heap.Extends (visit r).planned.heap :=
    ((group r).plan_extends (what r)).of_run hands.planned
  have hplanned : (visit r).Planned n r (group r) (what r) := by
    constructor
    · exact (congrArg Communicator.size ha.ends).trans hco.size
    · exact congrArg Communicator.rank ha.ends
    · rw [hj.calls.found]
      exact ha.obtained
    · rw [hfound]
      exact hst.round.bounded
    · exact hj.calls.planned
  have hrequest : (visit r).request = ((e.machine.net.endpoint r).tickets.map Ticket.call).length := by
    have hpending : (visit r).ongoing.handle? = some (visit r).handle := by
      unfold Visit.ongoing
      cases (visit r).plan.copyOut <;> rfl
    rw [List.length_map]
    exact Option.some.inj (congrArg Handle.pending (Option.some.inj (hpending.symm.trans hhandle)))
  have hwaits : (visit r).Waits n comm k r (l.add r comm c) e'.machine.net (visit r).planned.heap := by
    refine ⟨⟨call, c, hands.called, hc, ?_⟩, ?_, .refl _, fun _ _ _ => rfl⟩
    · rw [Ledger.add, if_pos ⟨rfl, rfl⟩, ← hlength]
      exact List.getElem?_concat_length
    · rw [hsubmitted.tickets, hrequest, List.map_append]
      exact List.getElem?_concat_length.trans (congrArg some hj.next)
  have hmustered := hst.mustered.join hj hcomes hfound hplanned hwaits hsubmitted.others hgrows hx hsound
  exact ⟨c, hround, hmustered, hgrows, hstore⟩

/-- A call that is not the last one leaves memory as planning does. -/
theorem Standing.call (hst : Standing n comm k group what visit arrived e.machine l)
    (hj : Joins n comm k group what visit arrived r e e') (hwaits : ∃ q < n, q ≠ r ∧ q ∉ arrived) :
    (∃ l', Standing n comm k group what visit (r :: arrived) e'.machine l') ∧
      e'.machine.store.heap = (visit r).planned.heap ∧ e.machine.store.heap.Grows e'.machine.store.heap := by
  obtain ⟨c, hround, hmustered, hgrows, hstore⟩ := hst.join hj
  obtain ⟨q, hq, hne, hwaits⟩ := hwaits
  have hheap : e'.machine.store.heap = (visit r).planned.heap := by
    rw [hstore, Ledger.heap_settle, if_neg (hround.not_full hq (List.not_mem_cons_of_ne_of_not_mem hne hwaits))]
  rw [← hheap] at hmustered hgrows
  exact ⟨⟨_, hround, hmustered⟩, hheap, hgrows⟩

/-- Every assembly stands somewhere. -/
theorem standing (h : Assembly n comm k group what visit arrived m) :
    ∃ l, Standing n comm k group what visit arrived m l := by
  induction h with
  | ready coherent bounded before made =>
    have hround : Round.Standing n comm k group what [] _ _ :=
      ⟨coherent, bounded, made, fun r hr _ => before r hr, by simp, by simp⟩
    exact ⟨_, hround, by simp, by simp, by simp, by simp, by simp⟩
  | call assembly joins waits ih =>
    obtain ⟨l, hst⟩ := ih
    exact (hst.call joins waits).1
  | turn assembly admissible other work kept ih =>
    obtain ⟨l, hst⟩ := ih
    exact hst.turn admissible other work kept

/-- A call that is not the last one changes no byte that was there, and memory is then as planning left it. -/
theorem heap_of_waiting (h : Assembly n comm k group what visit arrived e.machine)
    (hj : Joins n comm k group what visit arrived r e e') (hwaits : ∃ q < n, q ≠ r ∧ q ∉ arrived) :
    e'.machine.store.heap = (visit r).planned.heap ∧ e.machine.store.heap.Grows e'.machine.store.heap := by
  obtain ⟨l, hst⟩ := h.standing
  exact (hst.call hj hwaits).2

/-- A rank whose call passes the checks is answered. -/
theorem answers (htrades : ∀ q < n, (group q).Trades (what q))
    (h : Assembly n comm k group what visit arrived e.machine) (hr : r < n)
    (hpasses : (group r).Passes (what r) comm r e) : (group r).AnswersCall (what r) comm r e := by
  intro tensor
  obtain ⟨l, hst⟩ := h.standing
  have hco := hst.round.coherent
  have hsize : (group r).size = n := (congrArg Communicator.size hpasses.ends).trans hco.size
  obtain ⟨p, call, store, hands⟩ := hpasses.hands
  have hsound : ∀ b ∈ (what r).operands, b.Sound e.machine.store.heap := fun b hb => (hpasses.obtained b hb).sound
  obtain ⟨c, hc, htable⟩ := htrades r hr _ _ _ hst.round.bounded hsound hands.planned _ hands.called
  rw [hsize] at hc
  have hfits := hands.fits hpasses.obtained hst.round.bounded hsize htable hc
  obtain ⟨m', hissue, -⟩ := Engine.exists_issued hpasses.substrate hpasses.ends hco hr (hst.round.made r hr) hc hfits
    store tensor
  have hrun := hands.dispatch_run hissue
  let v : Visit :=
    { found := e.machine.store, plan := p, planned := store
      request := (e.machine.net.endpoint r).tickets.length }
  have harrives : (group r).Arrives (what r) comm r e (Engine.acquire { e with machine := m' }) := by
    refine ⟨hpasses.substrate, hpasses.ends, hpasses.obtained, fun p' call' store' hands' => ?_, tensor, _, hrun⟩
    have hsame := hands'.planned.symm.trans hands.planned
    cases hsame
    have hcall := hands'.called.symm.trans hands.called
    cases hcall
    exact htable
  exact ⟨v, _, hrun, harrives, rfl, hands.planned, tensor, hrun⟩

/-! ## The last call -/

/-- What there is for each of some ranks is there for all of them together. -/
theorem exists_family {α : Type} {P : Nat → α → Prop} (hn : 0 < n) (h : ∀ q < n, ∃ a, P q a) :
    ∃ a : Nat → α, ∀ q < n, P q (a q) := by
  obtain ⟨first, -⟩ := h 0 hn
  have : Nonempty α := ⟨first⟩
  choose! a ha using h
  exact ⟨a, ha⟩

/-- All ranks have come, rank `r` last: in which memory their calls were planned, what they contributed, and what the
exchange made of the memory that the last plan had left. -/
structure Met (n : Nat) (group : Nat → Group) (what : Nat → Collective Buffer) (visit : Nat → Visit) (r : Nat)
    (e e' : Engine Fabric) (cs : List Contribution) : Prop where
  found : (visit r).found.heap = e.machine.store.heap
  sound : ∀ q < n, ∀ b ∈ (what q).operands, b.Sound e.machine.store.heap
  planned : ∀ q < n, (visit q).Planned n q (group q) (what q)
  contributed : ∀ q < n, ∃ call c,
    (visit q).plan.call = .ok call ∧ Fabric.contribution n call = .ok c ∧ cs[q]? = some c
  later : ∀ q < n, (visit q).planned.heap.Extends (visit r).planned.heap
  kept : ∀ q < n, ∀ block pos, (visit q).Made block →
    (visit r).planned.heap.byte? block pos = (visit q).planned.heap.byte? block pos
  apart : ∀ p < n, ∀ q < n, p ≠ q → ∀ block, (visit p).Made block → ¬(visit q).Made block
  foreign : ∀ p < n, ∀ q < n, ∀ b ∈ (what q).operands, ∀ block pos, b.Holds block pos → ¬(visit p).Made block
  bounded : (visit r).planned.heap.Bounded
  grows : e.machine.store.heap.Grows (visit r).planned.heap
  gathered : Gathered n cs
  performed : e'.machine.store.heap = (visit r).planned.heap.after cs
  decided : e'.machine.net.Decided n (fun q => (visit q).request) (verdict cs)

/-- The last rank that comes finds the contributions of all the others. -/
theorem exists_met (h : Assembly n comm k group what visit arrived e.machine)
    (hj : Joins n comm k group what visit arrived r e e') (hlast : ∀ q < n, q ≠ r → q ∈ arrived) :
    ∃ cs, Met n group what visit r e e' cs := by
  obtain ⟨l, hst⟩ := h.standing
  obtain ⟨c, hround, hmustered, hgrows, hstore⟩ := hst.join hj
  have hall : ∀ q < n, q ∈ r :: arrived := by
    intro q hq
    by_cases h : q = r
    · rw [h]
      exact List.mem_cons_self
    · exact List.mem_cons_of_mem r (hlast q hq h)
  have hfull := hround.full hall
  have hfound : (visit r).found.heap = e.machine.store.heap := congrArg Store.heap hj.calls.found
  have hplanned := (hmustered.planned r List.mem_cons_self)
  refine ⟨(l.add r comm c).gathered n (comm, k), hfound, fun q hq b hb => ?_,
    fun q hq => hmustered.planned q (hall q hq), fun q hq => ?_,
    fun q hq => (hmustered.waits q (hall q hq)).later, fun q hq => (hmustered.waits q (hall q hq)).kept,
    fun p hp q hq => hmustered.apart p (hall p hp) q (hall q hq),
    fun p hp q hq => hmustered.foreign p (hall p hp) q (hall q hq),
    (((group r).plan_extends (what r)).of_run hplanned.planned).bounded hplanned.bounded, hgrows,
    hfull.group (Nat.zero_lt_of_lt hj.rank) hround.coherent.sound, ?_,
    ⟨_, _, hround.coherent, hfull, rfl, fun q hq => (hmustered.waits q (hall q hq)).ticket⟩⟩
  · rcases List.mem_cons.mp (hall q hq) with rfl | hq
    · exact (hj.calls.arrives.obtained b hb).sound
    · exact hst.sound hq hb
  · rw [hfull.getElem?_gathered hq]
    exact (hmustered.waits q (hall q hq)).contributed
  · rw [hstore, Ledger.heap_settle, if_pos hfull]

/-- The contributions are those of the exchanges that were planned. -/
theorem Met.trade {cs : List Contribution} {x : Nat → Exchange} (hm : Met n group what visit r e e' cs)
    (hx : ∀ q < n, (visit q).plan.Asks (x q) n (visit q).found (visit q).planned) :
    Trade n x (visit r).planned.heap cs := by
  refine ⟨hm.gathered, hm.bounded, fun q hq => (hx q hq).lent.later (hm.later q hq), fun q hq => ?_⟩
  obtain ⟨call, c, hcall, hc, hentry⟩ := hm.contributed q hq
  rw [(hx q hq).called] at hcall
  obtain ⟨source, target, rfl, hplaced⟩ := (hx q hq).lent.of_call hcall hc
  exact ⟨source, target, hentry, hplaced⟩

/-! ## Ranks that come one after the other -/

/-- Only the calls of the ranks that have come matter. -/
theorem congr {visit' : Nat → Visit} (h : Assembly n comm k group what visit arrived m)
    (hsame : ∀ q ∈ arrived, visit q = visit' q) : Assembly n comm k group what visit' arrived m := by
  induction h with
  | ready coherent bounded before made => exact .ready coherent bounded before made
  | call assembly joins waits ih =>
    obtain ⟨hfirst, hrest⟩ := List.forall_mem_cons.mp hsame
    refine .call (ih hrest) ⟨joins.rank, joins.next, hfirst ▸ joins.calls, fun q hq b hb block pos hh => ?_⟩ waits
    rw [← hrest q hq]
    exact joins.foreign q hq b hb block pos hh
  | turn assembly admissible other work kept ih =>
    refine .turn (ih hsame) admissible other work fun q hq block pos hmade => ?_
    rw [← hsame q hq] at hmade
    exact kept q hq block pos hmade

/-- Ranks that hold buffers, and that can come to an exchange in the order of their ranks: each can plan its call on the
memory that the ranks before it have left. -/
structure Prepared (n : Nat) (group : Nat → Group) (what : Nat → Collective Buffer) (heaps : Nat → Heap) : Prop where
  bounded : (heaps 0).Bounded
  obtained : ∀ q < n, ∀ b ∈ (what q).operands, Obtained { heap := heaps 0 } b
  ends : ∀ q < n, (group q).comm = { number := 0, rank := q, size := n, vector := true }
  trades : ∀ q < n, (group q).Trades (what q)
  plans : ∀ q < n, ∀ s : Store, s.heap = heaps q → ∃ p call store, ((group q).plan (what q)).run s = (.ok p, store) ∧
    p.call = .ok call ∧ store.heap = heaps (q + 1)

/-- The first `j` ranks have come. What has been made for them lies beyond what the callers hold. -/
structure InOrder (n : Nat) (group : Nat → Group) (what : Nat → Collective Buffer) (heaps : Nat → Heap)
    (visit : Nat → Visit) (j : Nat) (m : Machine Fabric) : Prop where
  assembly : Assembly n 0 0 group what visit (List.range j).reverse m
  heap : m.store.heap = heaps j
  later : (heaps 0).Extends m.store.heap
  found : ∀ q < j, (visit q).found.heap = heaps q
  made : ∀ q < j, ∀ block, (visit q).Made block → (heaps 0).blocks.size ≤ block

namespace Prepared

variable {heaps : Nat → Heap} {j : Nat}

/-- The next rank is answered. -/
theorem join (hp : Prepared n group what heaps) (hj : j < n) (ho : InOrder n group what heaps visit j m) :
    ∃ visit' e e', e.machine = m ∧ InOrder n group what heaps visit' j e.machine ∧
      Joins n 0 0 group what visit' (List.range j).reverse j e e' ∧ (visit' j).found.heap = heaps j ∧
      (visit' j).planned.heap = heaps (j + 1) := by
  obtain ⟨l, hst⟩ := ho.assembly.standing
  let e : Engine Fabric := { environment := { substrate := Fabric.substrate j, config := {} }, machine := m }
  obtain ⟨p, call, store, hplan, hcalled, hleft⟩ := hp.plans j hj m.store ho.heap
  have hpasses : (group j).Passes (what j) 0 j e := by
    refine ⟨rfl, ?_, fun b hb => (hp.obtained j hj b hb).later ho.later, p, call, store, rfl, hplan, hcalled⟩
    rw [hp.ends j hj, Fabric.communicator, hst.round.coherent.size]
  obtain ⟨v, e', -, hcalls⟩ := ho.assembly.answers (e := e) hp.trades hj hpasses ""
  have hfound : v.found = m.store := hcalls.found
  have hplanned : v.planned = store := by
    have hrun := hcalls.planned
    rw [hfound, hplan] at hrun
    exact (congrArg Prod.snd hrun).symm
  let visit' (q : Nat) : Visit := if q = j then v else visit q
  have hv : visit' j = v := if_pos rfl
  have hother {q : Nat} (hq : q < j) : visit' q = visit q := if_neg hq.ne
  have hmade : ∀ q < j, ∀ block, (visit' q).Made block → (heaps 0).blocks.size ≤ block := by
    intro q hq
    rw [hother hq]
    exact ho.made q hq
  have hnext : m.net.upcoming j 0 = (0, 0) := hst.round.upcoming_first hj (by simp)
  refine ⟨visit', e, e', rfl, ⟨?_, ho.heap, ho.later, ?_, hmade⟩, ⟨hj, hnext, hv.symm ▸ hcalls, ?_⟩, ?_, ?_⟩
  · exact ho.assembly.congr fun q hq => (hother (by simpa using hq)).symm
  · intro q hq
    rw [hother hq]
    exact ho.found q hq
  · intro q hq b hb block pos hh hblock
    have hthere := (hp.obtained j hj b hb).sound.lt_size hh
    have hbeyond := hmade q (by simpa using hq) block hblock
    exact absurd hthere (Nat.not_lt.mpr hbeyond)
  · rw [hv, hfound]
    exact ho.heap
  · rw [hv, hplanned, hleft]

/-- All ranks but the last can have come. -/
theorem exists_inOrder (hp : Prepared n group what heaps) (hj : j < n) :
    ∃ visit m, InOrder n group what heaps visit j m := by
  induction j with
  | zero =>
    obtain ⟨m, hstore, hready⟩ := Round.exists_ready n (s := { heap := heaps 0 }) hp.bounded
    obtain ⟨l, hst⟩ := (hready 0 group what).standing
    have hbefore : ∀ r < n, (l r 0).length ≤ 0 := fun r hr => hst.waiting r hr List.not_mem_nil
    let nobody (_ : Nat) : Visit :=
      { found := {}, planned := {}, request := 0
        plan := { operation := "", call := .ok (.alltoallv .nowhere [] .nowhere [] .char), retained := [] } }
    refine ⟨nobody, m, .ready hst.coherent hst.bounded hbefore hst.made, hstore ▸ rfl, hstore ▸ .refl _, ?_, ?_⟩
    · exact fun q hq => absurd hq (Nat.not_lt_zero q)
    · exact fun q hq => absurd hq (Nat.not_lt_zero q)
  | succ j ih =>
    obtain ⟨visit, m, ho⟩ := ih (Nat.lt_of_succ_lt hj)
    obtain ⟨visit', e, e', -, ho', hjoins, hfound, hleft⟩ := hp.join (Nat.lt_of_succ_lt hj) ho
    have hwaits : ∃ q < n, q ≠ j ∧ q ∉ (List.range j).reverse := ⟨j + 1, hj, by omega, by simp⟩
    obtain ⟨hsame, -⟩ := ho'.assembly.heap_of_waiting hjoins hwaits
    have hx := ((group j).plan_extends (what j)).of_run hjoins.calls.planned
    rw [hjoins.calls.found, ← hsame] at hx
    have hassembly := ho'.assembly.call hjoins hwaits
    refine ⟨visit', e'.machine, ?_, hsame.trans hleft, ho'.later.trans hx, fun q hq => ?_, fun q hq => ?_⟩
    · rwa [List.range_succ, List.reverse_append]
    · rcases Nat.lt_succ_iff_lt_or_eq.mp hq with hlt | rfl
      · exact ho'.found q hlt
      · exact hfound
    · rcases Nat.lt_succ_iff_lt_or_eq.mp hq with hlt | rfl
      · exact ho'.made q hlt
      · intro block hblock
        have hfirst := hblock.1
        rw [hjoins.calls.found] at hfirst
        exact ho'.later.blocks.trans hfirst

/-- And then the last rank makes its call. -/
theorem exists_last (hp : Prepared n group what heaps) (hn : 0 < n) :
    ∃ visit arrived e e' r, Assembly n 0 0 group what visit arrived e.machine ∧
      Joins n 0 0 group what visit arrived r e e' ∧ (∀ q < n, q ≠ r → q ∈ arrived) ∧
      e.machine.store.heap = heaps (n - 1) ∧ ∀ q < n, (visit q).found.heap = heaps q := by
  obtain ⟨visit, m, ho⟩ := hp.exists_inOrder (Nat.sub_one_lt_of_lt hn)
  obtain ⟨visit', e, e', -, ho', hjoins, hfound, -⟩ := hp.join (Nat.sub_one_lt_of_lt hn) ho
  refine ⟨visit', _, e, e', n - 1, ho'.assembly, hjoins, fun q hq hne => ?_, ho'.heap, fun q hq => ?_⟩
  · rw [List.mem_reverse, List.mem_range]
    omega
  · rcases Nat.lt_or_eq_of_le (Nat.le_sub_one_of_lt hq) with hlt | rfl
    · exact ho'.found q hlt
    · exact hfound

end Prepared

end Assembly

/-! ## Two ranks -/

/-- Memory in which each of two ranks has three bytes. -/
def pairHeap : Heap := { blocks := #[#[1, 2, 3], #[4, 5, 6]] }

/-- Adjacent bytes of one of the ranks. -/
def pairPart (rank start length : Nat) : Buffer :=
  { block := rank, dtype := .i8, shape := [length], strides := [1], offset := start }

/-- Both ranks hold all of their bytes. -/
private theorem obtained_pairPart_whole : Obtained { heap := pairHeap } (pairPart 0 0 3) ∧
    Obtained { heap := pairHeap } (pairPart 1 0 3) ∧ pairHeap.Bounded := by
  let s : Store := { heap := { blocks := #[#[1, 2, 3]] } }
  have hfirst : (Buffer.ofWords .i8 [1, 2, 3] [3]).run {} = (.ok (pairPart 0 0 3), s) := rfl
  have hsecond : (Buffer.ofWords .i8 [4, 5, 6] [3]).run s = (.ok (pairPart 1 0 3), { heap := pairHeap }) := rfl
  have hx := (Buffer.ofWords_extends .i8 [1, 2, 3] [3]).of_run hfirst
  have hx' := (Buffer.ofWords_extends .i8 [4, 5, 6] [3]).of_run hsecond
  have hempty : Heap.Bounded {} := fun block => Nat.zero_le _
  exact ⟨.later (.ofWords hfirst) hx', .ofWords hsecond, hx'.bounded (hx.bounded hempty)⟩

theorem pairHeap_bounded : pairHeap.Bounded := obtained_pairPart_whole.2.2

/-- The ranks hold every part of their bytes. -/
theorem obtained_pairPart {rank start length : Nat} (hrank : rank < 2) (hin : start + length ≤ 3) :
    Obtained { heap := pairHeap } (pairPart rank start length) := by
  obtain ⟨hfirst, hsecond, -⟩ := obtained_pairPart_whole
  have hwhole : Obtained { heap := pairHeap } (pairPart rank 0 3) := by
    obtain rfl | rfl : rank = 0 ∨ rank = 1 := by omega
    · exact hfirst
    · exact hsecond
  have hview : (View.rows start length).of (pairPart rank 0 3) = .ok (pairPart rank start length) := by
    have hflat : (pairPart rank 0 3).Flat 3 := ⟨rfl, rfl⟩
    have hpart : (pairPart rank 0 3).stretch start length = pairPart rank start length := by
      rw [Buffer.stretch, pairPart, Nat.zero_add]
      rfl
    have hsmall : 0 + 3 < sizeLimit := by decide
    exact hpart ▸ hflat.narrow_eq_ok hin hsmall
  exact .view hwhole hview

/-- Parts of different ranks are apart, and so are parts of one rank of which one ends before the other begins. -/
theorem pairPart_apart {rank start length rank' start' length' : Nat}
    (h : rank ≠ rank' ∨ start + length ≤ start' ∨ start' + length' ≤ start) :
    (pairPart rank start length).Apart (pairPart rank' start' length') := by
  have hbytes {rank start length block pos : Nat} (hh : (pairPart rank start length).Holds block pos) :
      block = rank ∧ start ≤ pos ∧ pos < start + length := by
    have hwhole : ((pairPart rank start length).stretch 0 length).Holds block pos := hh
    obtain ⟨hblock, hlo, hhi⟩ := Buffer.holds_stretch hwhole
    have hwidth : (pairPart rank start length).dtype.width = 1 := rfl
    have hoffset : (pairPart rank start length).offset = start := rfl
    rw [hwidth, hoffset] at hlo hhi
    exact ⟨hblock, by omega, by omega⟩
  intro block pos hh hh'
  obtain ⟨hblock, hlo, hhi⟩ := hbytes hh
  obtain ⟨hblock', hlo', hhi'⟩ := hbytes hh'
  omega

end Collectives
