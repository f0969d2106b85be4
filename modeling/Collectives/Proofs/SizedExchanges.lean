import Collectives.Proofs.Rounds

/-!
# Exchanges with and without sizes

An exchange in which every rank sends as much to each rank comes to the same if all the ranks name the size of each
share. So two machines on which the ranks issue the same, but name the sizes on one of them only, stay alike: they have
the same memory, they give the same answers to every request, and they disagree over the same calls.
-/

namespace Collectives

/-! ## One exchange -/

/-- The same shares, with a size for each of them. -/
def Contribution.sized (c : Contribution) : Contribution := { c with kind := .alltoallv }

section Performing

variable {cs : List Contribution}

/-- Contributions that are checked alike have the same first mismatch. -/
private theorem firstMismatch_sized {check check' : Nat → Contribution → Except Fault (Option Mismatch)}
    (h : ∀ i, ∀ c ∈ cs, check' i c.sized = check i c) :
    firstMismatch check' (cs.map Contribution.sized) = firstMismatch check cs := by
  have hfrom : ∀ start, ((cs.map Contribution.sized).zipIdx start).findSomeM? (fun p => check' p.2 p.1) =
      (cs.zipIdx start).findSomeM? fun p => check p.2 p.1 := by
    induction cs with
    | nil => exact fun start => rfl
    | cons c cs ih =>
      intro start
      rw [List.map_cons, List.zipIdx_cons, List.zipIdx_cons, List.findSomeM?_cons, List.findSomeM?_cons]
      simp only [h start c List.mem_cons_self, ih fun i c hc => h i c (List.mem_cons_of_mem _ hc)]
  exact hfrom 0

/-- Shares that disagree do so with sizes as well, in the same way. -/
theorem mismatch?_sized (heven : ∀ c ∈ cs, c.kind = .alltoall) :
    mismatch? (cs.map Contribution.sized) = mismatch? cs := by
  cases cs with
  | nil => rfl
  | cons first rest =>
    have hfirst : first.kind = .alltoall := heven first List.mem_cons_self
    have hcall : firstMismatch (fun rank c => return sameCall first.sized rank c)
        ((first :: rest).map Contribution.sized) =
        firstMismatch (fun rank c => return sameCall first rank c) (first :: rest) := by
      refine firstMismatch_sized fun i c hc => ?_
      have hkind : c.kind = first.kind := (heven c hc).trans hfirst.symm
      have hsized : c.sized.kind = first.sized.kind := rfl
      unfold sameCall
      rw [if_neg (not_not_intro hkind), if_neg (not_not_intro hsized)]
      rfl
    have hkind : kindMismatch first.sized ((first :: rest).map Contribution.sized) =
        kindMismatch first (first :: rest) := by
      unfold kindMismatch
      rw [hfirst]
      exact firstMismatch_sized fun i c _ => firstMismatch_sized fun j d _ => rfl
    rw [List.map_cons] at hcall hkind ⊢
    simp only [mismatch?, hcall, hkind]

/-- The same bytes go to the same places. -/
theorem deliveries_sized (heven : ∀ c ∈ cs, c.kind = .alltoall) (h : Heap) :
    deliveries h (cs.map Contribution.sized) = deliveries h cs := by
  have hrow (width : Nat) (cs : List Contribution) (sent : List Outgoing) (target : Contribution) (j : Nat) :
      exchangeRow width ((cs.map Contribution.sized).zip sent) target.sized j =
        exchangeRow width (cs.zip sent) target j := by
    unfold exchangeRow
    rw [List.zip_map_left, List.zipIdx_map, List.mapM_map]
    rfl
  have hall (width : Nat) (cs : List Contribution) :
      exchangeDeliveries h width (cs.map Contribution.sized) = exchangeDeliveries h width cs := by
    unfold exchangeDeliveries
    rw [List.mapM_map, List.zipIdx_map]
    refine congrArg _ (funext fun sent => ?_)
    rw [List.mapM_map]
    refine congrArg (fun rows : Except Fault (List (List Delivery)) => rows >>= fun rows => pure rows.flatten) ?_
    exact congrArg (fun f => List.mapM f cs.zipIdx) (funext fun p => hrow width cs sent p.1 p.2)
  cases cs with
  | nil => rfl
  | cons first rest =>
    rw [List.map_cons, deliveries, deliveries, heven first List.mem_cons_self]
    exact hall first.tag.width (first :: rest)

theorem perform_sized (heven : ∀ c ∈ cs, c.kind = .alltoall) (h : Heap) :
    perform (cs.map Contribution.sized) h = perform cs h := by
  unfold perform
  rw [mismatch?_sized heven, deliveries_sized heven]

theorem verdict_sized (heven : ∀ c ∈ cs, c.kind = .alltoall) :
    verdict (cs.map Contribution.sized) = verdict cs := by
  unfold verdict
  rw [mismatch?_sized heven]

theorem after_sized (heven : ∀ c ∈ cs, c.kind = .alltoall) (h : Heap) :
    h.after (cs.map Contribution.sized) = h.after cs := by
  unfold Heap.after
  rw [perform_sized heven]

end Performing

/-! ## What the ranks issue -/

/-- A contribution to a call, with sizes if the call is one from `k` on of the communicator. -/
def Contribution.sizedFrom (comm k : Nat) (call : Nat × Nat) (c : Contribution) : Contribution :=
  if call.1 = comm ∧ k ≤ call.2 then c.sized else c

/-- The ranks issue the same on both sides. From call `k` of the communicator on these are exchanges of equal shares, and
on one side the sizes of the shares are named. -/
structure Ledger.Sizes (n comm k : Nat) (l l' : Ledger) : Prop where
  level : ∀ r < n, k ≤ (l r comm).length
  even : ∀ r < n, ∀ i c, k ≤ i → (l r comm)[i]? = some c → c.kind = .alltoall
  sized : ∀ r < n, ∀ call : Nat × Nat,
    (l' r call.1)[call.2]? = (l r call.1)[call.2]?.map (Contribution.sizedFrom comm k call)

namespace Ledger

section Sizes

variable {n comm k r : Nat} {l l' : Ledger} {c : Contribution} {call : Nat × Nat}

/-- Before call `k` there is nothing to name the sizes of. -/
theorem Sizes.refl (hlevel : ∀ r < n, (l r comm).length = k) : l.Sizes n comm k l where
  level r hr := (hlevel r hr).ge
  even r hr i c hk hc := by
    obtain ⟨hi, -⟩ := List.getElem?_eq_some_iff.mp hc
    have hlength := hlevel r hr
    omega
  sized r hr call := by
    cases hc : (l r call.1)[call.2]? with
    | none => rfl
    | some c =>
      obtain ⟨hi, -⟩ := List.getElem?_eq_some_iff.mp hc
      have hbefore : ¬(call.1 = comm ∧ k ≤ call.2) := by
        rintro ⟨hcomm, hk⟩
        rw [hcomm, hlevel r hr] at hi
        omega
      rw [Option.map_some, Contribution.sizedFrom, if_neg hbefore]

namespace Sizes

variable (h : l.Sizes n comm k l')

include h

theorem hasIssued_iff (hr : r < n) : l'.HasIssued r call ↔ l.HasIssued r call := by
  rw [Ledger.hasIssued_iff, Ledger.hasIssued_iff, h.sized r hr, Option.isSome_map]

theorem full_iff : l'.Full n call ↔ l.Full n call :=
  forall₂_congr fun _ hr => h.hasIssued_iff hr

/-- The ranks have the same calls to make next. -/
theorem next_eq (hr : r < n) (other : Nat) : l'.next r other = l.next r other := by
  have hlength : (l' r other).length = (l r other).length :=
    by
    refine eq_of_forall_lt_iff fun i => ?_
    have hissued : l'.HasIssued r (other, i) ↔ l.HasIssued r (other, i) := h.hasIssued_iff hr
    exact hissued
  rw [next, hlength, next]

theorem gathered_eq : l'.gathered n call = (l.gathered n call).map (Contribution.sizedFrom comm k call) := by
  have hrow : l'.row n call = (l.row n call).map (Option.map (Contribution.sizedFrom comm k call)) := by
    rw [row, row, List.map_map]
    exact List.map_congr_left fun r hr => h.sized r (List.mem_range.mp hr) call
  rw [gathered, gathered, hrow, List.filterMap_map, List.map_filterMap]
  rfl

/-- What is gathered for a call is the same on both sides, or it is shares that differ in the naming of sizes only. -/
theorem gathered_cases (call : Nat × Nat) : l'.gathered n call = l.gathered n call ∨
    l'.gathered n call = (l.gathered n call).map Contribution.sized ∧ ∀ c ∈ l.gathered n call, c.kind = .alltoall := by
  rw [h.gathered_eq]
  by_cases hcall : call.1 = comm ∧ k ≤ call.2
  · right
    have hsized : Contribution.sizedFrom comm k call = Contribution.sized := funext fun c => if_pos hcall
    refine ⟨by rw [hsized], fun c hc => ?_⟩
    obtain ⟨r, hr, hissued⟩ := exists_of_mem_gathered hc
    rw [hcall.1] at hissued
    exact h.even r hr call.2 c hcall.2 hissued
  · left
    have hsame : Contribution.sizedFrom comm k call = id := funext fun c => if_neg hcall
    rw [hsame, List.map_id]

theorem verdict_eq : verdict (l'.gathered n call) = verdict (l.gathered n call) := by
  rcases h.gathered_cases call with heq | ⟨heq, heven⟩
  · rw [heq]
  · rw [heq, verdict_sized heven]

theorem after_eq (heap : Heap) : heap.after (l'.gathered n call) = heap.after (l.gathered n call) := by
  rcases h.gathered_cases call with heq | ⟨heq, heven⟩
  · rw [heq]
  · rw [heq, after_sized heven]

/-- The last rank to come to a call leaves the same memory on both sides. -/
theorem heap_settle {s s' : Store} (hheap : s'.heap = s.heap) :
    (l'.settle n call s').heap = (l.settle n call s).heap := by
  rw [Ledger.heap_settle, Ledger.heap_settle, hheap, h.after_eq]
  exact if_congr h.full_iff rfl rfl

private theorem add_sized (hr : r < n) (other : Nat)
    (hkind : other = comm → c.kind = .alltoall) :
    (l.add r other c).Sizes n comm k (l'.add r other (c.sizedFrom comm k (l.next r other))) where
  level q hq := by
    rw [length_add]
    split
    · exact Nat.le_succ_of_le (h.level q hq)
    · exact h.level q hq
  even q hq i d hk hd := by
    rw [getElem?_add q (comm, i)] at hd
    split at hd
    · rename_i hnext
      have hother : comm = other := congrArg Prod.fst hnext.2
      cases hd
      exact hkind hother.symm
    · exact h.even q hq i d hk hd
  sized q hq call := by
    rw [getElem?_add, getElem?_add, h.next_eq hr]
    by_cases hnext : q = r ∧ call = l.next r other
    · rw [if_pos hnext, if_pos hnext, Option.map_some, hnext.2]
    · rw [if_neg hnext, if_neg hnext, h.sized q hq call]

/-- The ranks issue one more call on another communicator. -/
theorem add_elsewhere (hr : r < n) {other : Nat} (hother : other ≠ comm) :
    (l.add r other c).Sizes n comm k (l'.add r other c) := by
  have hsame : c.sizedFrom comm k (l.next r other) = c := if_neg fun hc => hother hc.1
  have hadd := h.add_sized hr other (c := c) fun heq => absurd heq hother
  rwa [hsame] at hadd

/-- The ranks issue one more exchange of equal shares. -/
theorem add_even (hr : r < n) (hkind : c.kind = .alltoall) :
    (l.add r comm c).Sizes n comm k (l'.add r comm c.sized) := by
  have hsized : c.sizedFrom comm k (l.next r comm) = c.sized := if_pos ⟨rfl, h.level r hr⟩
  have hadd := h.add_sized hr comm fun _ => hkind
  rwa [hsized] at hadd

end Sizes

end Sizes

end Ledger

/-! ## Machines -/

/-- What work leaves in memory depends on what it finds there, and on nothing else. -/
def WorksOnMemory (change : Store → Store) : Prop :=
  ∀ s s', s'.heap = s.heap → (change s').heap = (change s).heap

/-- Two machines are alike: they have the same memory, the ranks have the same requests and communicators on both, and
they have issued the same, except that from call `k` of a communicator on sizes are named on one machine only. -/
structure Mirrors (n comm k : Nat) (m m' : Machine Fabric) : Prop where
  ledgers : ∃ l l', Coherent n l m.net ∧ Coherent n l' m'.net ∧ l.Sizes n comm k l'
  heap : m'.store.heap = m.store.heap
  requests : ∀ r, (m'.net.endpoint r).tickets.map Ticket.call = (m.net.endpoint r).tickets.map Ticket.call
  issued : ∀ r, (m'.net.endpoint r).issued.length = (m.net.endpoint r).issued.length
  bounded : m.store.heap.Bounded
  made : ∀ r < n, comm < (m.net.endpoint r).issued.length

namespace Mirrors

variable {n comm k r : Nat} {m m' : Machine Fabric} {a a' : Turn} {c : Contribution}

theorem size (h : Mirrors n comm k m m') : m.net.size = n := by
  obtain ⟨l, l', hco, -, -⟩ := h.ledgers
  exact hco.size

theorem size_eq (h : Mirrors n comm k m m') : m'.net.size = m.net.size := by
  obtain ⟨l, l', hco, hco', -⟩ := h.ledgers
  rw [hco.size, hco'.size]

/-- Journals may differ. -/
theorem store (h : Mirrors n comm k m m') {s s' : Store} (hs : s.heap = m.store.heap) (hs' : s'.heap = m'.store.heap) :
    Mirrors n comm k { m with store := s } { m' with store := s' } where
  ledgers := h.ledgers
  heap := hs'.trans (h.heap.trans hs.symm)
  requests := h.requests
  issued := h.issued
  bounded := hs ▸ h.bounded
  made := h.made

/-- Whatever can be done on one machine can be done on the other. -/
theorem admissible (h : Mirrors n comm k m m') (ha : a.Admissible m) : a.Admissible m' := by
  cases a with
  | create rank => exact lt_of_lt_of_eq ha h.size_eq.symm
  | test rank request => exact lt_of_lt_of_eq ha h.size_eq.symm
  | barrier rank other => exact ⟨lt_of_lt_of_eq ha.1 h.size_eq.symm, lt_of_lt_of_eq ha.2 (h.issued rank).symm⟩
  | issue rank other call attr =>
    refine ⟨lt_of_lt_of_eq ha.1 h.size_eq.symm, lt_of_lt_of_eq ha.2.1 (h.issued rank).symm, fun c hc => ?_⟩
    rw [h.size_eq] at hc
    exact ha.2.2 c hc
  | work change => trivial

/-- Turns that submit corresponding contributions keep machines alike. -/
private theorem submission {l l' : Ledger} {other : Nat} {c' : Contribution} (h : Mirrors n comm k m m')
    (hco : Coherent n l m.net) (hco' : Coherent n l' m'.net) (hl : l.Sizes n comm k l') (hr : r < n)
    (ha : a.Admissible m) (hs : a.submission n = some (r, other, c)) (ha' : a'.Admissible m')
    (hs' : a'.submission n = some (r, other, c')) (hmakes : ∀ q, a'.makes q = a.makes q)
    (hadd : (l.add r other c).Sizes n comm k (l'.add r other c')) : Mirrors n comm k (a.step m) (a'.step m') := by
  have hidle : ∀ change, a = .work change → m.store.heap.Extends (change m.store).heap := by
    rintro change rfl
    cases hs
  obtain ⟨hnext, hstore, hrequests⟩ := Turn.step_submission hco ha hs
  obtain ⟨hnext', hstore', hrequests'⟩ := Turn.step_submission hco' ha' hs'
  refine ⟨⟨_, _, hnext, hnext', hadd⟩, ?_, fun q => ?_, fun q => ?_, (Turn.extends_step hco ha hidle).bounded h.bounded,
    fun q hq => lt_of_lt_of_le (h.made q hq) (Turn.issued_le hco ha q)⟩
  · rw [hstore, hstore', hl.next_eq hr]
    exact hadd.heap_settle h.heap
  · rw [hrequests, hrequests', h.requests q, hl.next_eq hr]
  · rw [Turn.length_issued_step hco ha, Turn.length_issued_step hco' ha', h.issued q, hmakes q]

/-- An exchange of equal shares keeps machines alike, if the sizes are named on the second one. -/
theorem exchange (h : Mirrors n comm k m m') (hr : r < n) {call call' : Call} (hc : Fabric.contribution n call = .ok c)
    (hc' : Fabric.contribution n call' = .ok c.sized) (hkind : c.kind = .alltoall) (hfits : c.Fits) (attr : Attributes) :
    ∃ request m₁ m₁',
      ((Fabric.substrate r).issue (m.net.communicator r comm) call attr).run m = (.ok request, m₁) ∧
      ((Fabric.substrate r).issue (m.net.communicator r comm) call' attr).run m' = (.ok request, m₁') ∧
      Mirrors n comm k m₁ m₁' := by
  obtain ⟨l, l', hco, hco', hl⟩ := h.ledgers
  have hmade := h.made r hr
  have hmade' : comm < (m'.net.endpoint r).issued.length := lt_of_lt_of_eq hmade (h.issued r).symm
  have hfits' : c.sized.Fits := ⟨hfits.sent, hfits.received⟩
  obtain ⟨m₁, hsubmit, -⟩ := hco.submit hr hmade (.inl ⟨call, hc⟩) hfits attr
  obtain ⟨m₁', hsubmit', -⟩ := hco'.submit hr hmade' (.inl ⟨call', hc'⟩) hfits' attr
  have hrequest : (m'.net.endpoint r).tickets.length = (m.net.endpoint r).tickets.length := by
    have hlength := congrArg List.length (h.requests r)
    rwa [List.length_map, List.length_map] at hlength
  have hissue : ((Fabric.substrate r).issue (m.net.communicator r comm) call attr).run m =
      (.ok (m.net.endpoint r).tickets.length, m₁) := by
    rw [Fabric.issue_run (hco.size.symm ▸ hc)]
    exact hsubmit
  have hissue' : ((Fabric.substrate r).issue (m.net.communicator r comm) call' attr).run m' =
      (.ok (m.net.endpoint r).tickets.length, m₁') := by
    rw [Fabric.issue_run (hco'.size.symm ▸ hc'), ← hrequest]
    exact hsubmit'
  refine ⟨_, m₁, m₁', hissue, hissue', ?_⟩
  -- Both are turns of the rank, on its end of the communicator.
  have hstep : Turn.step m (.issue r comm call attr) = m₁ := congrArg Prod.snd hissue
  have hstep' : Turn.step m' (.issue r comm call' attr) = m₁' := by
    have hend : m'.net.communicator r comm = m.net.communicator r comm := by
      rw [Fabric.communicator, Fabric.communicator, h.size_eq]
    rw [Turn.step, hend, hissue']
  have ha : Turn.Admissible m (.issue r comm call attr) := by
    refine ⟨lt_of_lt_of_eq hr hco.size.symm, hmade, fun d hd => ?_⟩
    rw [hco.size, hc] at hd
    exact Except.ok.inj hd ▸ hfits
  have ha' : Turn.Admissible m' (.issue r comm call' attr) := by
    refine ⟨lt_of_lt_of_eq hr hco'.size.symm, hmade', fun d hd => ?_⟩
    rw [hco'.size, hc'] at hd
    exact Except.ok.inj hd ▸ hfits'
  rw [← hstep, ← hstep']
  refine h.submission hco hco' hl hr ha ?_ ha' ?_ (fun q => rfl) (hl.add_even hr hkind)
  · rw [Turn.submission, hc]
  · rw [Turn.submission, hc']

/-- Requests are answered alike, and their answers change neither memory nor what the machines have in common. -/
theorem collect (h : Mirrors n comm k m m') (hr : r < n) (request : Nat) :
    ∃ answer m₁ m₁', (Fabric.collect r request).run m = (answer, m₁) ∧
      (Fabric.collect r request).run m' = (answer, m₁') ∧ Mirrors n comm k m₁ m₁' := by
  obtain ⟨l, l', hco, hco', hl⟩ := h.ledgers
  have hcall := congrArg (·[request]?) (h.requests r)
  simp only [List.getElem?_map] at hcall
  cases ht : (m.net.endpoint r).tickets[request]? with
  | none =>
    rw [ht, Option.map_none, Option.map_eq_none_iff] at hcall
    exact ⟨_, m, m', Fabric.collect_unknown ht, Fabric.collect_unknown hcall, h⟩
  | some t =>
    rw [ht, Option.map_some] at hcall
    obtain ⟨t', ht', hsame⟩ := Option.map_eq_some_iff.mp hcall
    obtain ⟨m₁, hrun, hstore, hnext, hissued, hrequests⟩ := hco.collect hr ht
    obtain ⟨m₁', hrun', hstore', hnext', hissued', hrequests'⟩ := hco'.collect hr ht'
    rw [hsame, hl.verdict_eq, if_congr hl.full_iff rfl rfl] at hrun'
    refine ⟨_, m₁, m₁', hrun, hrun', ⟨l, l', hnext, hnext', hl⟩, ?_, fun q => ?_, fun q => ?_, ?_, fun q hq => ?_⟩
    · rw [hstore, hstore', h.heap]
    · rw [hrequests, hrequests', h.requests]
    · rw [hissued, hissued', h.issued]
    · rw [hstore]
      exact h.bounded
    · rw [hissued]
      exact h.made q hq

/-- Whatever else happens on both machines keeps them alike. -/
theorem turn (h : Mirrors n comm k m m') (ha : a.Admissible m) (helsewhere : ∀ r c, a.submission n ≠ some (r, comm, c))
    (hwork : ∀ change, a = .work change → WorksOnMemory change ∧ m.store.heap.Extends (change m.store).heap) :
    Mirrors n comm k (a.step m) (a.step m') := by
  obtain ⟨l, l', hco, hco', hl⟩ := h.ledgers
  have ha' := h.admissible ha
  cases hs : a.submission n with
  | some submitted =>
    obtain ⟨rank, other, c⟩ := submitted
    have hrank : rank < n := by
      have hs := hs
      rw [← hco.size] at hs ⊢
      exact (ha.submission hs).1
    have hother : other ≠ comm := by
      rintro rfl
      exact helsewhere rank c hs
    exact h.submission hco hco' hl hrank ha hs ha' hs (fun q => rfl) (hl.add_elsewhere hrank hother)
  | none =>
    obtain ⟨hnext, -, hrequests⟩ := Turn.step_quiet hco ha hs
    obtain ⟨hnext', -, hrequests'⟩ := Turn.step_quiet hco' ha' hs
    have hx := Turn.extends_step hco ha fun change hchange => (hwork change hchange).2
    refine ⟨⟨l, l', hnext, hnext', hl⟩, ?_, fun q => ?_, fun q => ?_, hx.bounded h.bounded,
      fun q hq => lt_of_lt_of_le (h.made q hq) (Turn.issued_le hco ha q)⟩
    · by_cases hidle : ∀ change, a ≠ .work change
      · rw [Turn.store_step_of_quiet hco ha hs hidle, Turn.store_step_of_quiet hco' ha' hs hidle, h.heap]
      · obtain ⟨change, hchange⟩ := not_forall_not.mp hidle
        rw [hchange]
        exact (hwork change hchange).1 m.store m'.store h.heap
    · rw [hrequests, hrequests', h.requests]
    · rw [Turn.length_issued_step hco ha, Turn.length_issued_step hco' ha', h.issued]

end Mirrors

end Collectives
