import Collectives.Proofs.SplitExchange

/-!
# Exchanges of lists

Every rank has a list of buffers to send, one for each rank, and a list to receive into. Each list is exchanged where it
is, if it lies back to back, and otherwise through a region of its own; in every combination each output is left with
what the sender's input for its rank was, and no other memory of the callers changes. Lists that lie back to back are
exchanged as the rows of the buffers that enclose them.
-/

namespace Collectives

/-! ## How lists are planned -/

namespace Group

/-- An exchange of lists as it was planned: what is exchanged, and what for. -/
structure PlansLists (g : Group) (outputs inputs : List Buffer) (p : Plan) (x : Exchange) (s s' : Store) : Prop where
  operation : p.operation = "alltoall"
  given : inputs.length = g.size
  taken : outputs.length = g.size
  plain : ∃ t, t.tag? = some x.tag ∧ ∀ b ∈ outputs ++ inputs, b.dtype = t ∧ checkBuffer b = .ok ()
  sendCounts : x.sendCounts = inputs.map Buffer.count
  recvCounts : x.recvCounts = outputs.map Buffer.count
  asks : p.Asks x g.size s s'
  gives : x.Gives s s' inputs
  takes : p.Takes x s s' (x.blocksFor outputs)
  inPlace : p.copyOut = none ↔ BackToBack outputs
  sendsIn : BackToBack inputs → ∃ first, inputs.head? = some first ∧ x.send = FlatLayout.spanning first inputs
  receivesIn : BackToBack outputs → ∃ first, outputs.head? = some first ∧ x.recv = FlatLayout.spanning first outputs
  kept : BackToBack inputs → BackToBack outputs → s'.heap = s.heap

variable {g : Group} {s s' : Store} {p : Plan}

/-- What an exchange of lists is planned as. -/
theorem exists_of_planAlltoall {outputs inputs : List Buffer} (hs : ∀ b ∈ outputs ++ inputs, b.Sound s.heap)
    (hb : s.heap.Bounded) (h : (g.planAlltoall outputs inputs).run s = (.ok p, s')) :
    ∃ x, g.PlansLists outputs inputs p x s s' := by
  obtain ⟨_, hinputs, h⟩ := exists_of_check_bind h
  obtain ⟨_, houtputs, h⟩ := exists_of_check_bind h
  obtain ⟨firstOutput, hfirstOutput, h⟩ := exists_of_size_bind h
  obtain ⟨_, hins, h⟩ := exists_of_check_bind h
  obtain ⟨firstInput, hfirstInput, h⟩ := exists_of_size_bind h
  obtain ⟨_, houts, h⟩ := exists_of_check_bind h
  obtain ⟨send, s₁, hsend, h⟩ := exists_of_run_bind h
  obtain ⟨recv, s₂, hrecv, h⟩ := exists_of_run_bind h
  obtain ⟨_, s₃, hpack, h⟩ := exists_of_run_bind h
  obtain ⟨tag, htag, h⟩ := exists_of_check_bind h
  obtain ⟨_, s₄, hreport, h⟩ := exists_of_run_bind h
  cases h
  have hsend' := FlatLayout.reconcile_stands hsend
  have hrecv' := FlatLayout.reconcile_stands hrecv
  have hx₁ := (FlatLayout.reconcile_extends inputs).of_run hsend
  have hx₂ := (FlatLayout.reconcile_extends outputs).of_run hrecv
  have hx₃ := (FlatLayout.pack_extends send inputs).of_run hpack
  have hlast := report_run hreport
  have hwhole := (hx₁.trans hx₂).trans hx₃
  -- All the buffers have the type of the first input.
  have hintypes : ∀ b ∈ inputs, b.dtype = firstInput.dtype := fun b hmem =>
    (checkTypes_eq_ok hins b hmem).trans (checkTypes_eq_ok hins firstInput (firstBuffer_eq_ok hfirstInput)).symm
  have houttypes := checkTypes_eq_ok houts
  obtain ⟨input, hinput, hsendType⟩ := hsend'.typed
  obtain ⟨output, houtput, hrecvType⟩ := hrecv'.typed
  have hsendType := hsendType.trans (hintypes input hinput)
  have hrecvType := hrecvType.trans (houttypes output houtput)
  rw [hrecvType] at htag
  have hinputPlain : ∀ b ∈ inputs, b.dtype = send.region.dtype ∧ b.isContiguous = .ok true := fun b hmem =>
    ⟨(hintypes b hmem).trans hsendType.symm, checkBuffer_eq_ok (checkBuffer_of_checkTypes hins b hmem)⟩
  have houtputPlain : ∀ b ∈ outputs, b.dtype = recv.region.dtype ∧ b.isContiguous = .ok true := fun b hmem =>
    ⟨(houttypes b hmem).trans hrecvType.symm, checkBuffer_eq_ok (checkBuffer_of_checkTypes houts b hmem)⟩
  have hinputSound : ∀ b ∈ inputs, b.Sound s.heap := fun b hmem => hs b (List.mem_append_right _ hmem)
  have houtputSound : ∀ b ∈ outputs, b.Sound s.heap := fun b hmem => hs b (List.mem_append_left _ hmem)
  obtain ⟨hgrows, hpacked⟩ := hsend'.pack_grows hx₂ (hsend'.grows.trans hrecv'.grows) ((hx₁.trans hx₂).bounded hb)
    hinputSound hinputPlain (hx₁.trans hx₂) hpack
  rw [← hlast] at hx₃ hwhole hgrows hpacked
  let x : Exchange :=
    { send := send.region, sendCounts := send.lengths, recv := recv.region, recvCounts := recv.lengths, tag }
  have hlent : x.Lent g.size s'.heap := by
    refine ⟨?_, ?_, ⟨hsend'.room.later (hx₂.trans hx₃), ?_⟩, ⟨hrecv'.room.later hx₃, ?_⟩⟩
    · exact (congrArg List.length hsend'.lengths).trans ((List.length_map _).trans (eq_of_beq (of_require hinputs)))
    · exact (congrArg List.length hrecv'.lengths).trans ((List.length_map _).trans (eq_of_beq (of_require houtputs)))
    · exact (congrArg ElementType.tag? hsendType).trans (tag_eq_ok htag)
    · exact (congrArg ElementType.tag? hrecvType).trans (tag_eq_ok htag)
  refine ⟨x, rfl, eq_of_beq (of_require hinputs), eq_of_beq (of_require houtputs), ?_, hsend'.lengths, hrecv'.lengths,
    ⟨rfl, hlent, hgrows⟩, ?_, ?_, ?_, ?_, ?_, ?_⟩
  · refine ⟨firstInput.dtype, tag_eq_ok htag, fun b hmem => ?_⟩
    rcases List.mem_append.mp hmem with hmem | hmem
    · exact ⟨houttypes b hmem, checkBuffer_of_checkTypes houts b hmem⟩
    · exact ⟨hintypes b hmem, checkBuffer_of_checkTypes hins b hmem⟩
  · exact hsend'.gives rfl rfl le_rfl (hx₂.trans hx₃) hinputPlain
      (fun b hmem => (hinputSound b hmem).later hwhole) hpacked
  · exact hrecv'.takes rfl rfl hlent (hwhole.bounded hb) hx₁.blocks hx₃ houtputPlain
      (fun b hmem => (houtputSound b hmem).later hwhole) rfl
  · rw [← hrecv'.inPlace]
    cases recv.inPlace <;> simp
  · exact fun hin => (hsend'.placed (hsend'.inPlace.mpr hin)).2
  · exact fun hout => (hrecv'.placed (hrecv'.inPlace.mpr hout)).2
  · intro hin hout
    rw [hlast, FlatLayout.Stands.pack_inPlace (hsend'.inPlace.mpr hin) hpack,
      (hrecv'.placed (hrecv'.inPlace.mpr hout)).1, (hsend'.placed (hsend'.inPlace.mpr hin)).1]

end Group

/-! ## Lists that match -/

/-- All ranks exchange lists of buffers of one type of element. No two outputs have a byte in common, be they of one
rank or of two. -/
structure ListCalls (n : Nat) (what : Nat → Collective Buffer) (outputs inputs : Nat → List Buffer) (t : ElementType) :
    Prop where
  calls : ∀ q < n, what q = .alltoall (outputs q) (inputs q)
  typed : ∀ q < n, ∀ b ∈ inputs q, b.dtype = t
  within : ∀ q < n, (outputs q).Pairwise Buffer.Apart
  between : ∀ p < n, ∀ q < n, p ≠ q → ∀ b ∈ outputs p, ∀ c ∈ outputs q, b.Apart c

/-- Every input has as many elements as the output that is for it. -/
def ListsMatch (n : Nat) (outputs inputs : Nat → List Buffer) : Prop :=
  ∀ i < n, ∀ j < n, ∀ b c, (inputs i)[j]? = some b → (outputs j)[i]? = some c → b.count = c.count

/-- What ranks find that wait after the last call, if their lists match. -/
structure ListsDelivered (n : Nat) (visit : Nat → Visit) (outputs inputs : Nat → List Buffer) (quiet : Nat → Nat → Prop)
    (h : Heap) (done : List Nat) (m : Machine Fabric) : Prop where
  succeeds : Dispersal.Succeeds n visit outputs quiet h done m
  /-- Inputs that lie back to back are received as they were at the last call. -/
  inPlace : ∀ i < n, ∀ j ∈ done, BackToBack (inputs i) → ∀ b c, (inputs i)[j]? = some b → (outputs j)[i]? = some c →
    c.words m.store.heap = b.words h
  /-- Other inputs are received as their rank had them when it made its call. -/
  staged : ∀ i < n, ∀ j ∈ done, ¬BackToBack (inputs i) → ∀ b c, (inputs i)[j]? = some b → (outputs j)[i]? = some c →
    c.words m.store.heap = b.words (visit i).found.heap

/-- The buffer has one dimension over all the elements of a list, from the first of its buffers on that has any. -/
def Buffer.Spans (b : Buffer) (buffers : List Buffer) : Prop :=
  ∃ first, buffers.head? = some first ∧ b = FlatLayout.spanning first buffers

/-- The exchange of rows with the lengths of two lists as sizes. -/
def Collective.rows (outputs inputs : List Buffer) (output input : Buffer) : Collective Buffer :=
  .alltoallBase output input { output := outputs.map Buffer.count, input := inputs.map Buffer.count }

/-- The exchange of lists comes to the same as the exchange of rows between the buffers that enclose them: each rank's
call is planned as the same call, and ranks that make these calls and end on the same memory are left with the same. -/
structure SameAsRows (n : Nat) (group : Nat → Group) (visit : Nat → Visit) (outputs inputs : Nat → List Buffer)
    (e e' : Engine Fabric) : Prop where
  planned : ∀ q < n, ∀ output input : Buffer, output.Spans (outputs q) → input.Spans (inputs q) →
    ∃ p s, ((group q).plan (.rows (outputs q) (inputs q) output input)).run (visit q).found = (.ok p, s) ∧
      p.call = (visit q).plan.call ∧ p.copyOut = (visit q).plan.copyOut ∧ s.heap = (visit q).planned.heap
  performed : ∀ output input : Nat → Buffer, (∀ q < n, (output q).Spans (outputs q)) →
    (∀ q < n, (input q).Spans (inputs q)) → ∀ comm k group visit arrived r e₁ e₁',
      Assembly n comm k group (fun q => .rows (outputs q) (inputs q) (output q) (input q)) visit arrived e₁.machine →
      Joins n comm k group (fun q => .rows (outputs q) (inputs q) (output q) (input q)) visit arrived r e₁ e₁' →
      (∀ q < n, q ≠ r → q ∈ arrived) → e₁.machine.store.heap = e.machine.store.heap →
      e₁'.machine.store.heap = e'.machine.store.heap

/-! ## Lists that lie back to back -/

section Enclosing

variable {b : Buffer} {sizes : List Nat} {n : Nat}

/-- One dimension can be shared out by any sizes that make it up. -/
theorem splitCounts_of_flat (hb : b.Flat sizes.sum) (hsmall : sizes.sum < sizeLimit) (hn : 0 < sizes.length) :
    splitCounts b sizes sizes.length = .ok sizes := by
  have hdims : b.shape ≠ [] := by simp [hb.shaped]
  have hcount : b.numel = .ok b.count := by
    have hone : 1 * sizes.sum < sizeLimit := by rwa [Nat.one_mul]
    rw [Buffer.numel, Buffer.count, hb.shaped, List.prod_singleton]
    change (mulSize 1 sizes.sum >>= fun product => pure product) = _
    rw [mulSize_eq_ok hone, Nat.one_mul]
    rfl
  have hrows : sizes.sum = b.rows := by rw [Buffer.rows, hb.shaped, List.headD_cons]
  have hlength : b.rowLength = 1 := by rw [Buffer.rowLength, hb.shaped, List.tail_cons, List.prod_nil]
  rw [splitCounts_of_sizes hdims hcount hn rfl hsmall, if_pos hrows, hlength]
  simp

/-- The counts of a list that has buffers are sizes that are given. -/
theorem isEven_counts (outputs : List Buffer) {inputs : List Buffer} (hn : 0 < inputs.length) :
    Splits.isEven { output := outputs.map Buffer.count, input := inputs.map Buffer.count } = false := by
  have hsome : (inputs.map Buffer.count).isEmpty = false := by
    rw [List.isEmpty_eq_false_iff, ← List.length_pos_iff, List.length_map]
    exact hn
  unfold Splits.isEven
  rw [hsome, Bool.and_false]

/-- A buffer that encloses a list is flat, over all the elements of the list. -/
theorem Buffer.Spans.flat {buffers : List Buffer} (h : b.Spans buffers) : b.Flat (buffers.map Buffer.count).sum := by
  obtain ⟨first, -, rfl⟩ := h
  exact ⟨rfl, rfl⟩

end Enclosing

/-- Rows that can be shared out are planned to be exchanged, and nothing else is done. -/
theorem Group.planAlltoallBase_run (g : Group) {output input : Buffer} {splits : Splits}
    {sendCounts recvCounts : List Nat} {tag : Tag} (hinput : checkBuffer input = .ok ())
    (houtput : checkBuffer output = .ok ()) (hsplits : splits.isEven = false)
    (htypes : require (output.dtype == input.dtype) (.exchangeTypes input.dtype output.dtype) = .ok ())
    (hsend : splitCounts input splits.input g.size = .ok sendCounts)
    (hrecv : splitCounts output splits.output g.size = .ok recvCounts) (htag : output.dtype.tag = .ok tag) (s : Store) :
    ∃ p s', (g.planAlltoallBase output input splits).run s = (.ok p, s') ∧
      p.call = Exchange.call { send := input, sendCounts, recv := output, recvCounts, tag } s.heap ∧ p.copyOut = none ∧
      s'.heap = s.heap := by
  let x : Exchange := { send := input, sendCounts, recv := output, recvCounts, tag }
  obtain ⟨s', hreport, hheap⟩ : ∃ s',
      (g.report s!"alltoallv send {Text.numbers sendCounts} recv {Text.numbers recvCounts}").run s = (.ok (), s') ∧
        s'.heap = s.heap := ⟨_, rfl, rfl⟩
  refine ⟨{ operation := "alltoall_base", call := x.call s'.heap, retained := [input, output] }, s', ?_, ?_, rfl, hheap⟩
  · unfold planAlltoallBase planSplit
    rw [run_check_bind hinput, run_check_bind houtput, hsplits, if_neg Bool.false_ne_true, run_check_bind htypes,
      run_check_bind hsend, run_check_bind hrecv, run_check_bind htag, run_bind_ok hreport, run_get_bind]
    rfl
  · rw [hheap]

/-- Lists of buffers of one type are planned to be exchanged, once there are regions for them. -/
theorem Group.planAlltoall_run (g : Group) (outputs inputs : List Buffer) {output input : Buffer}
    {send recv : FlatLayout} {tag : Tag} {s s₁ s₂ s₃ : Store} (hgiven : inputs.length = g.size)
    (htaken : outputs.length = g.size) (houtput : outputs.head? = some output) (hinput : inputs.head? = some input)
    (hinputs : checkTypes output inputs = .ok ()) (houtputs : checkTypes input outputs = .ok ())
    (hsend : (FlatLayout.reconcile inputs).run s = (.ok send, s₁))
    (hrecv : (FlatLayout.reconcile outputs).run s₁ = (.ok recv, s₂)) (hpack : (send.pack inputs).run s₂ = (.ok (), s₃))
    (htag : recv.region.dtype.tag = .ok tag) : ∃ p s', (g.planAlltoall outputs inputs).run s = (.ok p, s') ∧
      p.call = Exchange.call
        { send := send.region, sendCounts := send.lengths, recv := recv.region
          recvCounts := recv.lengths, tag } s₃.heap ∧
      s'.heap = s₃.heap := by
  have hfirst {buffers : List Buffer} {b : Buffer} (h : buffers.head? = some b) : firstBuffer buffers = .ok b := by
    cases buffers with
    | nil => cases h
    | cons first rest =>
      cases h
      rfl
  have hlength {length : Nat} (h : length = g.size) (cause : Violation) :
      require (length == g.size) cause = .ok () := by
    rw [h]
    exact if_pos (beq_self_eq_true _)
  let x : Exchange :=
    { send := send.region, sendCounts := send.lengths, recv := recv.region, recvCounts := recv.lengths, tag }
  let sending := s!"send {Text.numbers send.lengths} (flat={send.inPlace})"
  let receiving := s!"recv {Text.numbers recv.lengths} (flat={recv.inPlace})"
  let copyOut : Option CopyOut := if recv.inPlace then none else some (.unpacked recv outputs)
  obtain ⟨s', hreport, hheap⟩ : ∃ s', (g.report s!"alltoall list {sending} {receiving}").run s₃ = (.ok (), s') ∧
      s'.heap = s₃.heap := ⟨_, rfl, rfl⟩
  refine ⟨{ operation := "alltoall", call := x.call s'.heap, retained := [recv.region, send.region], copyOut },
    s', ?_, ?_, hheap⟩
  · unfold planAlltoall
    rw [run_check_bind (hlength hgiven _), run_check_bind (hlength htaken _), run_size_bind (hfirst houtput),
      run_check_bind hinputs, run_size_bind (hfirst hinput), run_check_bind houtputs, run_bind_ok hsend,
      run_bind_ok hrecv, run_bind_ok hpack, run_check_bind htag, run_bind_ok hreport]
    rfl
  · rw [hheap]

namespace Group.PlansLists

variable {g : Group} {outputs inputs : List Buffer} {p : Plan} {x : Exchange} {s s' : Store} {output input : Buffer}

/-- A list that lies back to back is exchanged as the buffer that encloses it, on either side. -/
theorem send_eq (hl : g.PlansLists outputs inputs p x s s') (hin : BackToBack inputs) (h : input.Spans inputs) :
    x.send = input := by
  obtain ⟨first, hfirst, rfl⟩ := h
  obtain ⟨first', hfirst', hsend⟩ := hl.sendsIn hin
  rw [hfirst, Option.some.injEq] at hfirst'
  rw [hsend, hfirst']

theorem recv_eq (hl : g.PlansLists outputs inputs p x s s') (hout : BackToBack outputs) (h : output.Spans outputs) :
    x.recv = output := by
  obtain ⟨first, hfirst, rfl⟩ := h
  obtain ⟨first', hfirst', hrecv⟩ := hl.receivesIn hout
  rw [hfirst, Option.some.injEq] at hfirst'
  rw [hrecv, hfirst']

/-- A buffer that encloses a list has the type of the list and can be communicated, where it lies in memory. -/
private theorem checkBuffer_of_spans {buffers : List Buffer} {b : Buffer} {t : ElementType} {h : Heap}
    (hplain : ∀ b ∈ buffers, b.dtype = t ∧ checkBuffer b = .ok ()) (hb : b.Spans buffers)
    (hroom : b.Room h (buffers.map Buffer.count).sum) (hsmall : (buffers.map Buffer.count).sum < sizeLimit) :
    b.dtype = t ∧ checkBuffer b = .ok () := by
  have hsolid := hroom.stretch (Nat.zero_add _).le hsmall
  obtain ⟨first, hfirst, rfl⟩ := hb
  have hanchor := hplain _ (FlatLayout.anchor_mem hfirst)
  exact ⟨hanchor.1, checkBuffer_congr hanchor.2 rfl rfl hsolid.contiguous⟩

/-- Where both lists lie back to back, the exchange of rows between the buffers that enclose them is planned as the same
call, and leaves memory as it is, as the exchange of the lists does. -/
theorem planRows (hl : g.PlansLists outputs inputs p x s s') (hb : s.heap.Bounded) (hn : 0 < g.size)
    (hin : BackToBack inputs) (hout : BackToBack outputs) (hinput : input.Spans inputs)
    (houtput : output.Spans outputs) :
    ∃ p' s₁, (g.plan (.rows outputs inputs output input)).run s = (.ok p', s₁) ∧ p'.call = p.call ∧
      p'.copyOut = p.copyOut ∧ s₁.heap = s'.heap := by
  have hsame := hl.kept hin hout
  have hlent := hl.asks.lent
  rw [hsame] at hlent
  obtain ⟨t, htag, hplain⟩ := hl.plain
  have hsent := hlent.source.room
  have hreceived := hlent.target.room
  have hsendSmall := hsent.lt_sizeLimit hb
  have hrecvSmall := hreceived.lt_sizeLimit hb
  rw [hl.send_eq hin hinput] at hsent
  rw [hl.recv_eq hout houtput] at hreceived
  rw [hl.sendCounts] at hsent hsendSmall
  rw [hl.recvCounts] at hreceived hrecvSmall
  obtain ⟨hinputType, hinputCheck⟩ := checkBuffer_of_spans (fun b hmem => hplain b (List.mem_append_right _ hmem))
    hinput hsent hsendSmall
  obtain ⟨houtputType, houtputCheck⟩ := checkBuffer_of_spans (fun b hmem => hplain b (List.mem_append_left _ hmem))
    houtput hreceived hrecvSmall
  have hgiven : (inputs.map Buffer.count).length = g.size := (List.length_map _).trans hl.given
  have htaken : (outputs.map Buffer.count).length = g.size := (List.length_map _).trans hl.taken
  have hsplits := isEven_counts outputs (lt_of_lt_of_eq hn hl.given.symm)
  have htypes : require (output.dtype == input.dtype) (.exchangeTypes input.dtype output.dtype) = .ok () := by
    rw [hinputType, houtputType]
    exact if_pos (beq_self_eq_true t)
  have hsend := splitCounts_of_flat hinput.flat hsendSmall (hgiven.symm ▸ hn)
  have hrecv := splitCounts_of_flat houtput.flat hrecvSmall (htaken.symm ▸ hn)
  rw [hgiven] at hsend
  rw [htaken] at hrecv
  obtain ⟨p', s₁, hrun, hcall, hcopy, hheap⟩ := g.planAlltoallBase_run hinputCheck houtputCheck hsplits htypes hsend
    hrecv (tag_of_tag? (houtputType.symm ▸ htag)) s
  have hx : x =
      { send := input, sendCounts := inputs.map Buffer.count, recv := output, recvCounts := outputs.map Buffer.count
        tag := x.tag } := by
    ext1
    · exact hl.send_eq hin hinput
    · exact hl.sendCounts
    · exact hl.recv_eq hout houtput
    · exact hl.recvCounts
    · rfl
  refine ⟨p', s₁, hrun, ?_, ?_, hheap.trans hsame.symm⟩
  · rw [hcall, hl.asks.called, hsame, ← hx]
  · rw [hcopy, hl.inPlace.mpr hout]

/-- A plan of the exchange of rows between these buffers is for the same exchange. -/
theorem exchange_eq (hl : g.PlansLists outputs inputs p x s s') (hin : BackToBack inputs) (hout : BackToBack outputs)
    (hinput : input.Spans inputs) (houtput : output.Spans outputs) {g' : Group} {p' : Plan} {x' : Exchange}
    {s₁ s₁' : Store}
    (hr : g'.PlansRows output input { output := outputs.map Buffer.count, input := inputs.map Buffer.count } p' x'
      s₁ s₁') :
    x' = x := by
  -- In one dimension every row is an element.
  have hshares {b : Buffer} {buffers : List Buffer} (hb : b.Spans buffers) :
      (b.shares (buffers.map Buffer.count) g'.size).map (· * b.rowLength) = buffers.map Buffer.count := by
    obtain ⟨first, hfirst, hflat⟩ := hb
    have hsome : (buffers.map Buffer.count).isEmpty = false := by
      cases buffers with
      | nil => cases hfirst
      | cons b buffers => rfl
    have hone : b.rowLength = 1 := by
      rw [hflat]
      rfl
    rw [Buffer.shares, hsome, if_neg Bool.false_ne_true, hone]
    simp
  have hrecv : x'.recv = x.recv := hr.recv.trans (hl.recv_eq hout houtput).symm
  ext1
  · exact hr.send.trans (hl.send_eq hin hinput).symm
  · rw [hr.sendCounts, hshares hinput, hl.sendCounts]
  · exact hrecv
  · rw [hr.recvCounts, hshares houtput, hl.recvCounts]
  · have htag := hr.asks.lent.target.tagged
    rw [hrecv] at htag
    exact Option.some.inj (htag.symm.trans hl.asks.lent.target.tagged)

end Group.PlansLists

/-- An exchange of lists is planned as an exchange. -/
theorem Group.trades_alltoall (g : Group) (outputs inputs : List Buffer) : g.Trades (.alltoall outputs inputs) := by
  intro s s' p hb hs h
  obtain ⟨x, hx⟩ := exists_of_planAlltoall hs hb h
  exact fun call => hx.asks.trades

namespace Assembly

variable {n comm k r : Nat} {group : Nat → Group} {what : Nat → Collective Buffer} {visit : Nat → Visit}
  {arrived : List Nat} {e e' : Engine Fabric} {cs : List Contribution} {x : Nat → Exchange}
  {outputs inputs : Nat → List Buffer} {t : ElementType}

/-- How the ranks have planned their exchanges of lists. -/
structure ListsPlanned (n : Nat) (group : Nat → Group) (visit : Nat → Visit) (outputs inputs : Nat → List Buffer)
    (x : Nat → Exchange) : Prop where
  plans : ∀ q < n, (group q).PlansLists (outputs q) (inputs q) (visit q).plan (x q) (visit q).found (visit q).planned
  sized : ∀ q < n, (group q).size = n

theorem Met.exists_listsPlanned (hm : Met n group what visit r e e' cs) (hcalls : ListCalls n what outputs inputs t)
    (hn : 0 < n) : ∃ x, ListsPlanned n group visit outputs inputs x := by
  have hplans : ∀ q < n, ∃ x, (group q).PlansLists (outputs q) (inputs q) (visit q).plan x (visit q).found
      (visit q).planned := by
    intro q hq
    have hplanned := hm.planned q hq
    have hrun := hplanned.planned
    have hobtained := hplanned.obtained
    rw [hcalls.calls q hq] at hrun hobtained
    exact Group.exists_of_planAlltoall (fun b hb => (hobtained b hb).sound) hplanned.bounded hrun
  obtain ⟨x, hx⟩ := exists_family hn hplans
  exact ⟨x, hx, fun q hq => (hm.planned q hq).size⟩

namespace ListsPlanned

variable (hp : ListsPlanned n group visit outputs inputs x)

include hp

theorem asks : ∀ q < n, (visit q).plan.Asks (x q) n (visit q).found (visit q).planned := by
  intro q hq
  rw [← hp.sized q hq]
  exact (hp.plans q hq).asks

/-- The lists have a buffer for every rank. -/
theorem length_outputs {q : Nat} (hq : q < n) : (outputs q).length = n := (hp.plans q hq).taken.trans (hp.sized q hq)

theorem length_inputs {q : Nat} (hq : q < n) : (inputs q).length = n := (hp.plans q hq).given.trans (hp.sized q hq)

/-- The ranks agree if the lists match. -/
theorem agree (hm : Met n group what visit r e e' cs) (hcalls : ListCalls n what outputs inputs t)
    (hmatch : ListsMatch n outputs inputs) : Agree cs := by
  have htag : ∀ q < n, t.tag? = some (x q).tag := by
    intro q hq
    obtain ⟨t', htag, hplain⟩ := (hp.plans q hq).plain
    have hfirst : 0 < (inputs q).length := lt_of_lt_of_eq (Nat.zero_lt_of_lt hq) (hp.length_inputs hq).symm
    have hmem := List.getElem_mem hfirst
    rw [← hcalls.typed q hq _ hmem, (hplain _ (List.mem_append_right _ hmem)).1]
    exact htag
  refine (hm.trade hp.asks).agree_iff.mpr fun i hi j hj => ⟨Option.some.inj ((htag i hi).symm.trans (htag j hj)), ?_⟩
  have hb := List.getElem?_eq_getElem (lt_of_lt_of_eq hj (hp.length_inputs hi).symm)
  have hc := List.getElem?_eq_getElem (lt_of_lt_of_eq hi (hp.length_outputs hj).symm)
  simp only [(hp.plans i hi).sendCounts, (hp.plans j hj).recvCounts, List.getD_eq_getElem?_getD, List.getElem?_map,
    hb, hc, Option.map_some, Option.getD_some]
  exact hmatch i hi j hj _ _ hb hc

/-- The ranks take what they receive into their outputs. -/
theorem taking (hm : Met n group what visit r e e' cs) (hcalls : ListCalls n what outputs inputs t) :
    Taking n visit x fun q => (x q).blocksFor (outputs q) := by
  constructor
  · exact fun q hq => (hp.plans q hq).takes
  · exact fun q hq => FlatLayout.pairwise_zip (hcalls.within q hq)
  · exact fun p hlt q hq hne b hb c hc =>
      hcalls.between p hlt q hq hne _ (Exchange.mem_of_mem_blocksFor hb) _ (Exchange.mem_of_mem_blocksFor hc)
  · intro p hlt q hq b hb
    apply hm.foreign p hlt q hq b.1
    rw [hcalls.calls q hq]
    exact List.mem_append_left _ (Exchange.mem_of_mem_blocksFor hb)

/-- What is left with an output is what the input for it was. -/
theorem delivered (hm : Met n group what visit r e e' cs) (hcalls : ListCalls n what outputs inputs t) (hr : r < n)
    (hmatch : ListsMatch n outputs inputs) {quiet : Nat → Nat → Prop} {done : List Nat} {m : Machine Fabric}
    (hquiet : ∀ q < n, ∀ b ∈ outputs q, ∀ block pos, b.Holds block pos → quiet block pos)
    (hd : Dispersal n visit quiet e'.machine done m) :
    ListsDelivered n visit outputs inputs quiet e.machine.store.heap done m := by
  have ht := hp.taking hm hcalls
  have ha := hp.agree hm hcalls hmatch
  obtain ⟨hsucceeds, hwords⟩ := hm.dispersal_succeeds ht hp.asks hr ha hd outputs
    (fun q _ b hb => Exchange.mem_of_mem_blocksFor hb) hquiet
  have hreceived : ∀ i < n, ∀ j ∈ done, ∀ c, (outputs j)[i]? = some c →
      c.words m.store.heap = ((x i).sent j).words (visit r).planned.heap := by
    intro i hi j hj c hc
    have hlt := hd.lt_of_mem j hj
    have hcount : i < (x j).recvCounts.length := (hp.asks j hlt).lent.receives.symm ▸ hi
    have hmem := List.mem_of_getElem? (Exchange.getElem?_blocksFor hc hcount)
    rw [hwords j hlt (.inl hj) _ hmem, hm.words_received ht hp.asks ha hi hlt]
  have hsent : ∀ i < n, ∀ j b, (inputs i)[j]? = some b → _ := fun i hi j b hb =>
    hm.words_sent hi (hp.plans i hi).gives
      (fun b hb => by rw [hcalls.calls i hi]; exact List.mem_append_right _ hb) hb
  refine ⟨hsucceeds, fun i hi j hj hin b c hb hc => ?_, fun i hi j hj hin b c hb hc => ?_⟩
  · rw [hreceived i hi j hj c hc, (hsent i hi j b hb).1 hin]
  · rw [hreceived i hi j hj c hc, (hsent i hi j b hb).2 hin]

/-- Lists that lie back to back are exchanged as the rows of the buffers that span them are. -/
theorem sameAsRows (hm : Met n group what visit r e e' cs) (hcalls : ListCalls n what outputs inputs t) (hr : r < n)
    (hflat : ∀ q < n, BackToBack (outputs q) ∧ BackToBack (inputs q)) :
    SameAsRows n group visit outputs inputs e e' := by
  have hn := Nat.zero_lt_of_lt hr
  refine ⟨fun q hq output input houtput hinput => ?_, ?_⟩
  · have hpos : 0 < (group q).size := lt_of_lt_of_eq hn (hp.sized q hq).symm
    exact (hp.plans q hq).planRows (hm.planned q hq).bounded hpos (hflat q hq).2 (hflat q hq).1 hinput houtput
  · intro output input houtput hinput comm' k' group' visit' arrived' r' e₁ e₁' h₁ hj₁ hlast₁ hheap
    have hsplit : ∀ q < n,
        Splits.isEven { output := (outputs q).map Buffer.count, input := (inputs q).map Buffer.count } = false :=
      fun q hq => isEven_counts _ (lt_of_lt_of_eq hn (hp.length_inputs hq).symm)
    obtain ⟨cs₁, hm₁⟩ := h₁.exists_met hj₁ hlast₁
    obtain ⟨x₁, hp₁⟩ := hm₁.exists_rowsPlanned hn (fun q _ => rfl) hsplit
    have hx : ∀ q < n, x₁ q = x q := fun q hq =>
      (hp.plans q hq).exchange_eq (hflat q hq).2 (hflat q hq).1 (hinput q hq) (houtput q hq) (hp₁.plans q hq)
    have htrade := hm.trade hp.asks
    have htrade₁ := hm₁.trade (x := x) fun q hq => hx q hq ▸ hp₁.asks q hq
    have hplanned : (visit r).planned.heap = e.machine.store.heap :=
      ((hp.plans r hr).kept (hflat r hr).2 (hflat r hr).1).trans hm.found
    have hplanned₁ : (visit' r').planned.heap = e.machine.store.heap :=
      ((hp₁.same r' hj₁.rank).trans hm₁.found).trans hheap
    rw [hplanned] at htrade
    rw [hplanned₁] at htrade₁
    rw [hm.performed, hm₁.performed, hplanned, hplanned₁]
    exact htrade₁.after_congr htrade fun i hi j hj hne => hm.landing_apart (hp.taking hm hcalls) hi hj hne

end ListsPlanned

/-- In an exchange of lists a rank whose call passes the checks is answered, and no call but the last changes what was
there. If the lists match, each output is left with the input that is for it, and nothing else has changed; and lists
that lie back to back are exchanged as rows are. -/
theorem lists_delivered (h : Assembly n comm k group what visit arrived e.machine) (hr : r < n)
    (hcalls : ListCalls n what outputs inputs t) :
    ((group r).Passes (what r) comm r e → (group r).AnswersCall (what r) comm r e) ∧
      ∀ e', Joins n comm k group what visit arrived r e e' →
        ((∃ q < n, q ≠ r ∧ q ∉ arrived) → e.machine.store.heap.Grows e'.machine.store.heap) ∧
          ((∀ q < n, q ≠ r → q ∈ arrived) →
            (ListsMatch n outputs inputs → ∀ quiet done m,
              (∀ q < n, ∀ b ∈ outputs q, ∀ block pos, b.Holds block pos → quiet block pos) →
              Dispersal n visit quiet e'.machine done m →
              ListsDelivered n visit outputs inputs quiet e.machine.store.heap done m) ∧
            ((∀ q < n, BackToBack (outputs q) ∧ BackToBack (inputs q)) →
              SameAsRows n group visit outputs inputs e e')) := by
  have htrades : ∀ q < n, (group q).Trades (what q) := by
    intro q hq
    rw [hcalls.calls q hq]
    exact (group q).trades_alltoall _ _
  refine ⟨h.answers htrades hr, fun e' hj => ⟨fun hwaits => (h.heap_of_waiting hj hwaits).2, fun hlast => ?_⟩⟩
  obtain ⟨cs, hm⟩ := h.exists_met hj hlast
  obtain ⟨x, hp⟩ := hm.exists_listsPlanned hcalls (Nat.zero_lt_of_lt hr)
  refine ⟨fun hmatch quiet done m hquiet hd => ?_, fun hflat => ?_⟩
  · exact hp.delivered hm hcalls hr hmatch hquiet hd
  · exact hp.sameAsRows hm hcalls hr hflat

/-- The lists of two ranks, each over all of its bytes. The first rank has its buffers in order, the second has not. -/
def pairLists (rank : Nat) : List Buffer :=
  if rank = 0 then [pairPart 0 0 1, pairPart 0 1 2] else [pairPart 1 1 2, pairPart 1 0 1]

/-- The second rank's region, in a block of its own. -/
def pairRegion (block : Nat) : FlatLayout :=
  { lengths := [2, 1], region := { block, dtype := .i8, shape := [3], strides := [1], offset := 0 }, inPlace := false }

/-- Memory after the second rank has planned its call. -/
def pairHeapPacked : Heap := { blocks := #[#[1, 2, 3], #[4, 5, 6], #[5, 6, 4], #[0, 0, 0]] }

private theorem exists_of_mem_pairLists {rank : Nat} (hrank : rank < 2) {b : Buffer} (hb : b ∈ pairLists rank) :
    ∃ start length, start + length ≤ 3 ∧ b = pairPart rank start length := by
  obtain rfl | rfl : rank = 0 ∨ rank = 1 := by omega
  · have hsame : b = pairPart 0 0 1 ∨ b = pairPart 0 1 2 := by simpa [pairLists] using hb
    obtain rfl | rfl := hsame
    · exact ⟨0, 1, by decide, rfl⟩
    · exact ⟨1, 2, by decide, rfl⟩
  · have hsame : b = pairPart 1 1 2 ∨ b = pairPart 1 0 1 := by simpa [pairLists] using hb
    obtain rfl | rfl := hsame
    · exact ⟨1, 2, by decide, rfl⟩
    · exact ⟨0, 1, by decide, rfl⟩

/-- Both ranks can plan to exchange their lists, one after the other. -/
private theorem prepared_pairLists : Prepared 2 pairGroup (fun q => .alltoall (pairLists q) (pairLists q))
    fun q => if q = 2 then pairHeapPacked else pairHeap := by
  have htrades : ∀ q < 2, (pairGroup q).Trades (.alltoall (pairLists q) (pairLists q)) := fun q _ =>
    (pairGroup q).trades_alltoall _ _
  refine ⟨pairHeap_bounded, fun q hq b hmem => ?_, fun q _ => rfl, htrades, ?_⟩
  · obtain ⟨start, length, hin, rfl⟩ := exists_of_mem_pairLists hq ((List.mem_append.mp hmem).elim id id)
    exact obtained_pairPart hq hin
  · rintro q hq ⟨h, journal⟩ hheap
    obtain rfl | rfl : q = 0 ∨ q = 1 := by omega
    · obtain rfl : h = pairHeap := hheap
      exact ⟨_, _, _, rfl, rfl, rfl⟩
    · obtain rfl : h = pairHeap := hheap
      let h₁ : Heap := { blocks := #[#[1, 2, 3], #[4, 5, 6], #[0, 0, 0]] }
      let h₂ : Heap := { blocks := #[#[1, 2, 3], #[4, 5, 6], #[0, 0, 0], #[0, 0, 0]] }
      obtain ⟨j, hsend⟩ : ∃ j, (FlatLayout.reconcile (pairLists 1)).run { heap := pairHeap, journal } =
          (.ok (pairRegion 2), { heap := h₁, journal := j }) := ⟨_, rfl⟩
      obtain ⟨j', hrecv⟩ : ∃ j', (FlatLayout.reconcile (pairLists 1)).run { heap := h₁, journal := j } =
          (.ok (pairRegion 3), { heap := h₂, journal := j' }) := ⟨_, rfl⟩
      have hpack : ((pairRegion 2).pack (pairLists 1)).run { heap := h₂, journal := j' } =
          (.ok (), { heap := pairHeapPacked, journal := j' }) := rfl
      have htag : (pairRegion 3).region.dtype.tag = .ok .char := rfl
      obtain ⟨p, store, hrun, hcall, hleft⟩ := (pairGroup 1).planAlltoall_run (pairLists 1) (pairLists 1)
        rfl rfl rfl rfl rfl rfl hsend hrecv hpack htag
      exact ⟨p, _, store, hrun, hcall, hleft⟩

/-- Two ranks that exchange lists in place, one of them through regions of its own, are left with what was for them. -/
theorem lists_delivered_staged :
    ∃ visit arrived e e' r m,
      Assembly 2 0 0 pairGroup (fun q => .alltoall (pairLists q) (pairLists q)) visit arrived e.machine ∧
      Joins 2 0 0 pairGroup (fun q => .alltoall (pairLists q) (pairLists q)) visit arrived r e e' ∧
      e.machine.store.heap = pairHeap ∧ Dispersal 2 visit (fun _ _ => True) e'.machine [1, 0] m ∧
      (pairLists 0).map (·.words m.store.heap) = [[1], [5, 6]] ∧
      (pairLists 1).map (·.words m.store.heap) = [[2, 3], [4]] := by
  let what (q : Nat) : Collective Buffer := .alltoall (pairLists q) (pairLists q)
  have hcalls : ListCalls 2 what pairLists pairLists .i8 := by
    refine ⟨fun q _ => rfl, fun q hq b hb => ?_, fun q hq => ?_, fun p hp q hq hne b hb c hc => ?_⟩
    · obtain ⟨start, length, -, rfl⟩ := exists_of_mem_pairLists hq hb
      rfl
    · obtain rfl | rfl : q = 0 ∨ q = 1 := by omega
      · exact List.pairwise_pair.mpr (pairPart_apart (.inr (.inl (by decide))))
      · exact List.pairwise_pair.mpr (pairPart_apart (.inr (.inr (by decide))))
    · obtain ⟨start, length, -, rfl⟩ := exists_of_mem_pairLists hp hb
      obtain ⟨start', length', -, rfl⟩ := exists_of_mem_pairLists hq hc
      exact pairPart_apart (.inl hne)
  have hmatch : ListsMatch 2 pairLists pairLists := by
    have hall : ∀ i < 2, ∀ j < 2, (pairLists i)[j]?.map Buffer.count = (pairLists j)[i]?.map Buffer.count := by decide
    intro i hi j hj b c hb hc
    have hsame := hall i hi j hj
    rw [hb, hc] at hsame
    exact Option.some.inj hsame
  obtain ⟨l, s, hin, hrun⟩ : ∃ l s, l.inPlace = true ∧
      (FlatLayout.reconcile (pairLists 0)).run { heap := pairHeap } = (.ok l, s) := ⟨_, _, rfl, rfl⟩
  have hflat : BackToBack (pairLists 0) := (FlatLayout.reconcile_stands hrun).inPlace.mp hin
  obtain ⟨s', hrun'⟩ : ∃ s', (FlatLayout.reconcile (pairLists 1)).run { heap := pairHeap } = (.ok (pairRegion 2), s') :=
    ⟨_, rfl⟩
  have hstaged : ¬BackToBack (pairLists 1) := fun h =>
    Bool.false_ne_true ((FlatLayout.reconcile_stands hrun').inPlace.mpr h)
  obtain ⟨visit, arrived, e, e', r, hassembly, hjoins, hlast, hheap, hfound⟩ :=
    prepared_pairLists.exists_last (by decide)
  obtain ⟨m, hd⟩ := Dispersal.exists_all 2 visit (fun _ _ => True) e'.machine
  obtain ⟨-, hjoined⟩ := hassembly.lists_delivered hjoins.rank hcalls
  obtain ⟨-, hdone⟩ := hjoined e' hjoins
  have hdelivered := (hdone hlast).1 hmatch _ _ m (fun _ _ _ _ _ _ _ => trivial) hd
  refine ⟨visit, arrived, e, e', r, m, hassembly, hjoins, hheap, hd, ?_, ?_⟩
  · have hown := hdelivered.inPlace 0 (by decide) 0 (by decide) hflat _ _ rfl rfl
    have hother := hdelivered.staged 1 (by decide) 0 (by decide) hstaged _ _ rfl rfl
    rw [hheap] at hown
    rw [hfound 1 (by decide)] at hother
    exact congrArg₂ (fun a b => [a, b]) hown hother
  · have hother := hdelivered.inPlace 0 (by decide) 1 (by decide) hflat _ _ rfl rfl
    have hown := hdelivered.staged 1 (by decide) 1 (by decide) hstaged _ _ rfl rfl
    rw [hheap] at hother
    rw [hfound 1 (by decide)] at hown
    exact congrArg₂ (fun a b => [a, b]) hother hown

end Assembly

end Collectives
