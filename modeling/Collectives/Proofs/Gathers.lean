import Collectives.Proofs.ListExchange

/-!
# Gathers

In a gather every rank sends its input to the root, which has an output for each rank. If all inputs have as many
elements as each other, the root's outputs are left with the inputs of the ranks in their order, whether these outputs
lie back to back or not; otherwise every wait fails, and no output changes.
-/

namespace Collectives

/-! ## Tables with one entry -/

section OnlyAt

variable {size place : Nat}

theorem length_onlyAt (size place count : Nat) : (onlyAt size place count).length = size := by
  rw [onlyAt, List.length_set, List.length_replicate]

/-- A table with one entry has zeros elsewhere. -/
theorem getD_onlyAt (hp : place < size) (count i : Nat) :
    (onlyAt size place count).getD i 0 = if i = place then count else 0 := by
  rw [List.getD_eq_getElem?_getD, onlyAt, List.getElem?_set, List.length_replicate]
  by_cases hi : place = i
  · subst hi
    rw [if_pos rfl, if_pos hp, if_pos rfl, Option.getD_some]
  · rw [if_neg hi, if_neg (Ne.symm hi), List.getElem?_replicate]
    split <;> rfl

theorem sum_take_onlyAt (size place count : Nat) : ((onlyAt size place count).take place).sum = 0 := by
  rw [onlyAt, List.take_set_of_le le_rfl, List.take_replicate, List.sum_replicate, smul_zero]

theorem sum_onlyAt (hp : place < size) (count : Nat) : (onlyAt size place count).sum = count := by
  rw [onlyAt, List.sum_set, List.take_replicate, List.drop_replicate, List.sum_replicate, List.sum_replicate,
    if_pos (by rwa [List.length_replicate]), smul_zero, smul_zero, Nat.zero_add, Nat.add_zero]

/-- A table of the counts of buffers that have the same. -/
theorem getD_counts {buffers : List Buffer} {count i : Nat} (hcounts : ∀ b ∈ buffers, b.count = count)
    (hi : i < buffers.length) : (buffers.map Buffer.count).getD i 0 = count := by
  have hb := List.getElem?_eq_getElem hi
  rw [List.getD_eq_getElem?_getD, List.getElem?_map, hb]
  exact hcounts _ (List.mem_of_getElem? hb)

/-- Where a rank exchanges blocks with one rank only, the block for it is at the beginning. -/
theorem Exchange.sent_onlyAt {x : Exchange} {count : Nat} (hp : place < size)
    (hx : x.sendCounts = onlyAt size place count) :
    x.sent place = x.send.stretch 0 count := by
  rw [sent, hx, sum_take_onlyAt, getD_onlyAt hp, if_pos rfl]

theorem Exchange.received_onlyAt {x : Exchange} {count : Nat} (hp : place < size)
    (hx : x.recvCounts = onlyAt size place count) : x.received place = x.recv.stretch 0 count := by
  rw [received, hx, sum_take_onlyAt, getD_onlyAt hp, if_pos rfl]

end OnlyAt

/-- Nothing lands where nothing is received. -/
theorem Exchange.not_holds_landing {x : Exchange} (hx : x.recvCounts.sum = 0) (block pos : Nat) :
    ¬x.landing.Holds block pos := by
  intro hh
  rw [landing, hx] at hh
  obtain ⟨-, hlo, hhi⟩ := Buffer.holds_stretch hh
  rw [Nat.add_zero] at hlo hhi
  omega

/-- A new buffer without elements. -/
theorem Buffer.empty_run {t : ElementType} {b : Buffer} {s s' : Store} (h : (Buffer.empty t).run s = (.ok b, s')) :
    b.dtype = t ∧ b.Room s'.heap 0 ∧ s.heap.Grows s'.heap := by
  obtain ⟨bytes, hbytes⟩ := Buffer.zeros_push h
  refine ⟨(Buffer.zeros_run h).typed, fun hpos => absurd hpos (lt_irrefl 0), ?_⟩
  rw [hbytes]
  exact .push s.heap bytes

/-! ## How a gather is planned -/

namespace Group

variable {g : Group} {s s' : Store} {p : Plan} {x : Exchange} {root : Nat}

/-- The root's one list has a buffer for every rank. -/
theorem rootList_eq_ok {lists : List (List Buffer)} {buffers : List Buffer} {size : Nat} {operation side : String}
    (h : rootList lists size operation side = .ok buffers) : lists = [buffers] ∧ buffers.length = size := by
  unfold rootList at h
  split at h
  · obtain ⟨_, hlength, h⟩ := exists_of_bind_eq_ok h
    cases h
    exact ⟨rfl, eq_of_beq (of_require hlength)⟩
  · cases h

/-- A gather as it was planned. Every rank sends to the root only; the root receives into its outputs, the others
receive nothing. -/
structure PlansGather (g : Group) (outs : List Buffer) (input : Buffer) (root : Nat) (p : Plan) (x : Exchange)
    (s s' : Store) : Prop where
  operation : p.operation = "gather"
  rooted : root < g.size
  tagged : input.dtype.tag? = some x.tag
  send : x.send = input
  sendCounts : x.sendCounts = onlyAt g.size root input.count
  sent : input.Solid s.heap input.count
  asks : p.Asks x g.size s s'
  atRoot : g.rank = root → outs.length = g.size ∧ (∀ b ∈ outs, b.count = input.count) ∧
    x.recvCounts = outs.map Buffer.count ∧ p.Takes x s s' (x.blocksFor outs) ∧ (p.copyOut = none ↔ BackToBack outs)
  elsewhere : g.rank ≠ root → x.recvCounts = List.replicate g.size 0 ∧ p.copyOut = none ∧ p.Takes x s s' []

private theorem exists_of_planGatherRoot {outputs : List (List Buffer)} {input : Buffer} (hg : g.rank = root)
    (hroot : root < g.size) (houts : ∀ outs ∈ outputs, ∀ b ∈ outs, b.Sound s.heap) (hinput : input.Sound s.heap)
    (hc : input.isContiguous = .ok true) (hb : s.heap.Bounded)
    (h : (g.planGatherRoot outputs input root).run s = (.ok p, s')) :
    ∃ outs x, outputs = [outs] ∧ g.PlansGather outs input root p x s s' := by
  obtain ⟨outs, hlist, h⟩ := exists_of_check_bind h
  obtain ⟨_, halike, h⟩ := exists_of_check_bind h
  obtain ⟨count, hcount, h⟩ := exists_of_size_bind h
  obtain ⟨layout, s₁, hlayout, h⟩ := exists_of_run_bind h
  obtain ⟨_, -, h⟩ := exists_of_check_bind h
  obtain ⟨tag, htag, h⟩ := exists_of_check_bind h
  obtain ⟨_, s₂, hreport, h⟩ := exists_of_run_bind h
  cases h
  obtain ⟨rfl, hlength⟩ := rootList_eq_ok hlist
  obtain rfl : count = input.count := eq_of_productSizes hcount
  have halike := checkAlike_eq_ok hcount halike
  have hl := FlatLayout.reconcile_stands hlayout
  have hx := (FlatLayout.reconcile_extends outs).of_run hlayout
  have hheap := report_run hreport
  rw [← hheap] at hx
  obtain ⟨out, hout, htype⟩ := hl.typed
  have htype := htype.trans (halike out hout).2.1
  have hplain : ∀ b ∈ outs, b.dtype = layout.region.dtype ∧ b.isContiguous = .ok true := fun b hmem =>
    ⟨(halike b hmem).2.1.trans htype.symm, (halike b hmem).2.2⟩
  have hcounts : ∀ b ∈ outs, b.count = input.count := fun b hmem =>
    Except.ok.inj ((hl.counted b hmem).symm.trans (halike b hmem).1)
  have hsent := Buffer.Solid.of_sound hinput hcount hc
  have htags := tag_eq_ok htag
  have hinputTag : input.dtype.tag? = some tag := htype ▸ htags
  let x : Exchange :=
    { send := input, sendCounts := onlyAt g.size root input.count, recv := layout.region
      recvCounts := layout.lengths, tag }
  have hlent : x.Lent g.size s'.heap := by
    refine ⟨?_, ?_, ⟨?_, hinputTag⟩, hheap ▸ hl.room, htags⟩
    · exact length_onlyAt ..
    · exact (congrArg List.length hl.lengths).trans ((List.length_map _).trans hlength)
    · rw [sum_onlyAt hroot]
      exact hsent.room.later hx
  refine ⟨outs, x, rfl, rfl, hroot, hinputTag, rfl, rfl, hsent, ⟨rfl, hlent, hheap ▸ hl.grows⟩, fun _ => ?_,
    fun hne => ?_⟩
  · refine ⟨hlength, hcounts, hl.lengths, ?_, ?_⟩
    · exact hl.takes rfl rfl hlent (hx.bounded hb) le_rfl (hheap ▸ .refl _) hplain
        (fun b hmem => (houts outs (List.mem_singleton_self outs) b hmem).later hx) rfl
    · rw [← hl.inPlace]
      cases layout.inPlace <;> simp
  · exact absurd hg hne

private theorem exists_of_planGatherOther {outputs : List (List Buffer)} {input : Buffer} (hg : g.rank ≠ root)
    (hroot : root < g.size) (hinput : input.Sound s.heap) (hc : input.isContiguous = .ok true)
    (h : (g.planGatherOther outputs input root).run s = (.ok p, s')) :
    ∃ x, outputs = [] ∧ ∀ outs, g.PlansGather outs input root p x s s' := by
  obtain ⟨_, hnone, h⟩ := exists_of_check_bind h
  obtain ⟨_, -, h⟩ := exists_of_size_bind h
  obtain ⟨count, hcount, h⟩ := exists_of_size_bind h
  obtain ⟨nothing, s₁, hnothing, h⟩ := exists_of_run_bind h
  obtain ⟨tag, htag, h⟩ := exists_of_check_bind h
  obtain ⟨_, s₂, hreport, h⟩ := exists_of_run_bind h
  cases h
  obtain rfl : count = input.count := eq_of_productSizes hcount
  obtain ⟨htype, hroom, hgrows⟩ := Buffer.empty_run hnothing
  have hx := (Buffer.zeros_extends _ _).of_run hnothing
  have hheap := report_run hreport
  rw [← hheap] at hx hgrows hroom
  have hsent := Buffer.Solid.of_sound hinput hcount hc
  have htags := tag_eq_ok htag
  have hinputTag : input.dtype.tag? = some tag := htype ▸ htags
  let x : Exchange :=
    { send := input, sendCounts := onlyAt g.size root input.count, recv := nothing
      recvCounts := List.replicate g.size 0, tag }
  have hzero : (List.replicate g.size 0).sum = 0 := by rw [List.sum_replicate, smul_zero]
  have hlent : x.Lent g.size s'.heap := by
    refine ⟨?_, List.length_replicate, ⟨?_, hinputTag⟩, ?_, htags⟩
    · exact length_onlyAt ..
    · rw [sum_onlyAt hroot]
      exact hsent.room.later hx
    · rw [hzero]
      exact hroom
  refine ⟨x, List.isEmpty_iff.mp (of_require hnone), fun outs => ⟨rfl, hroot, hinputTag, rfl, rfl, hsent,
    ⟨rfl, hlent, hgrows⟩, fun h => absurd h hg, fun _ => ⟨rfl, rfl, ?_⟩⟩⟩
  refine ⟨fun _ => ?_, fun copyOut h => ?_, fun block pos hh => ?_⟩
  · simp
  · cases h
  · exact absurd hh (Exchange.not_holds_landing hzero block pos)

/-- What a gather is planned as: one input, and on the root only one list of outputs. -/
theorem exists_of_planGather {outputs : List (List Buffer)} {inputs : List Buffer}
    (houts : ∀ outs ∈ outputs, ∀ b ∈ outs, b.Sound s.heap) (hins : ∀ b ∈ inputs, b.Sound s.heap) (hb : s.heap.Bounded)
    (h : (g.planGather outputs inputs root).run s = (.ok p, s')) :
    ∃ outs input x, inputs = [input] ∧ outputs = (if g.rank = root then [outs] else []) ∧
      g.PlansGather outs input root p x s s' := by
  obtain ⟨input, hsingle, h⟩ := exists_of_check_bind h
  obtain ⟨_, hrank, h⟩ := exists_of_check_bind h
  obtain ⟨hinputs, hcheck⟩ := single_eq_ok hsingle
  have hinput := hins input (hinputs ▸ List.mem_singleton_self input)
  have hroot := checkRank_eq_ok hrank
  split at h
  · rename_i hg
    obtain ⟨outs, x, houtputs, hplans⟩ :=
      exists_of_planGatherRoot hg hroot houts hinput (checkBuffer_eq_ok hcheck) hb h
    exact ⟨outs, input, x, hinputs, houtputs.trans (if_pos hg).symm, hplans⟩
  · rename_i hg
    obtain ⟨x, houtputs, hplans⟩ := exists_of_planGatherOther hg hroot hinput (checkBuffer_eq_ok hcheck) h
    exact ⟨[], input, x, hinputs, houtputs.trans (if_neg hg).symm, hplans []⟩

end Group

/-! ## Gathers of equal counts -/

/-- All ranks gather buffers of one type of element on a root, whose outputs have no byte in common. Only calls of this
form pass the checks. The root's input may be anything else that the root has, its outputs too. -/
structure GatherCalls (n : Nat) (what : Nat → Collective Buffer) (outs : List Buffer) (input : Nat → Buffer)
    (root : Nat) (t : ElementType) : Prop where
  calls : ∀ q < n, what q = .gather (if q = root then [outs] else []) [input q] root
  typed : ∀ q < n, (input q).dtype = t
  apart : outs.Pairwise Buffer.Apart

/-- All ranks' buffers have as many elements as the root's. -/
def SameCounts (n root : Nat) (buffer : Nat → Buffer) : Prop := ∀ q < n, (buffer q).count = (buffer root).count

/-- How the calls of a gather are handed back. -/
structure GatherHandles (n : Nat) (visit : Nat → Visit) (outs : List Buffer) (root : Nat) : Prop where
  rooted : root < n
  length : outs.length = n
  /-- Outputs that lie back to back are received into, and the handle is pending. -/
  inPlace : BackToBack outs → (visit root).ongoing = .returned (visit root).handle
  /-- For other outputs the root waits, and copies what it received. -/
  staged : ¬BackToBack outs → ∃ copyOut, (visit root).ongoing = .staged (visit root).handle copyOut
  others : ∀ q < n, q ≠ root → (visit q).ongoing = .returned (visit q).handle

/-- What ranks find that wait after the last call, if their inputs have the same count. -/
structure InputsGathered (n : Nat) (visit : Nat → Visit) (outs : List Buffer) (input : Nat → Buffer) (root : Nat)
    (quiet : Nat → Nat → Prop) (h : Heap) (done : List Nat) (m : Machine Fabric) : Prop where
  succeeds : Dispersal.Succeeds n visit (fun q => if q = root then outs else []) quiet h done m
  /-- Once the root has waited, or at once if the outputs lie back to back, each output is the input of its rank as that
  was at the last call. -/
  gathered : root ∈ done ∨ BackToBack outs → ∀ i < n, ∀ b, outs[i]? = some b → b.words m.store.heap = (input i).words h

/-- A gather is planned as an exchange. -/
theorem Group.trades_gather (g : Group) (outputs : List (List Buffer)) (inputs : List Buffer) (root : Nat) :
    g.Trades (.gather outputs inputs root) := by
  intro s s' p hb hs h
  have houts : ∀ outs ∈ outputs, ∀ b ∈ outs, b.Sound s.heap := fun outs hmem b hb =>
    hs b (List.mem_append_left _ (List.mem_flatten_of_mem hmem hb))
  have hins : ∀ b ∈ inputs, b.Sound s.heap := fun b hmem => hs b (List.mem_append_right _ hmem)
  obtain ⟨outs, input, x, -, -, hplans⟩ := exists_of_planGather houts hins hb h
  exact fun call => hplans.asks.trades

namespace Assembly

variable {n comm k r i : Nat} {group : Nat → Group} {what : Nat → Collective Buffer} {visit : Nat → Visit}
  {arrived : List Nat} {e e' : Engine Fabric} {cs : List Contribution} {x : Nat → Exchange} {outs : List Buffer}
  {input : Nat → Buffer} {root : Nat} {t : ElementType}

/-- How the ranks have planned their gathers. -/
structure GathersPlanned (n : Nat) (group : Nat → Group) (visit : Nat → Visit) (outs : List Buffer)
    (input : Nat → Buffer) (root : Nat) (x : Nat → Exchange) : Prop where
  plans : ∀ q < n, (group q).PlansGather outs (input q) root (visit q).plan (x q) (visit q).found (visit q).planned
  sized : ∀ q < n, (group q).size = n
  ranked : ∀ q < n, (group q).rank = q

theorem Met.exists_gathersPlanned (hm : Met n group what visit r e e' cs) (hn : 0 < n)
    (hcalls : GatherCalls n what outs input root t) : ∃ x, GathersPlanned n group visit outs input root x := by
  have hplans : ∀ q < n, ∃ x, (group q).PlansGather outs (input q) root (visit q).plan x (visit q).found
      (visit q).planned := by
    intro q hq
    have hplanned := hm.planned q hq
    have hrun := hplanned.planned
    have hobtained := hplanned.obtained
    rw [hcalls.calls q hq] at hrun hobtained
    have hsound := fun b hb => (hobtained b hb).sound
    obtain ⟨outs', input', x, hinput, houtputs, hplans⟩ := Group.exists_of_planGather
      (fun outs hmem b hb => hsound b (List.mem_append_left _ (List.mem_flatten_of_mem hmem hb)))
      (fun b hmem => hsound b (List.mem_append_right _ hmem)) hplanned.bounded hrun
    obtain rfl : input q = input' := List.singleton_inj.mp hinput
    refine ⟨x, { hplans with atRoot := fun hrank => ?_ }⟩
    have hroot : q = root := hplanned.ranked.symm.trans hrank
    rw [if_pos hroot, if_pos hrank] at houtputs
    obtain rfl : outs = outs' := List.singleton_inj.mp houtputs
    exact hplans.atRoot hrank
  obtain ⟨x, hx⟩ := exists_family hn hplans
  exact ⟨x, hx, fun q hq => (hm.planned q hq).size, fun q hq => (hm.planned q hq).ranked⟩

/-- Only the root has blocks that it takes, and they are for its outputs. -/
private theorem mem_of_mem_blocks {q : Nat} {b : Buffer × Buffer}
    (hb : b ∈ if q = root then (x q).blocksFor outs else []) :
    q = root ∧ b.1 ∈ outs := by
  split at hb
  · rename_i hq
    exact ⟨hq, Exchange.mem_of_mem_blocksFor hb⟩
  · cases hb

namespace GathersPlanned

variable (hp : GathersPlanned n group visit outs input root x)

include hp

theorem asks : ∀ q < n, (visit q).plan.Asks (x q) n (visit q).found (visit q).planned := by
  intro q hq
  rw [← hp.sized q hq]
  exact (hp.plans q hq).asks

theorem root_lt (hn : 0 < n) : root < n := hp.sized 0 hn ▸ (hp.plans 0 hn).rooted

/-- The root receives a block for each of its outputs. -/
theorem atRoot (hroot : root < n) : outs.length = n ∧ (∀ b ∈ outs, b.count = (input root).count) ∧
    (x root).recvCounts = outs.map Buffer.count ∧
    (visit root).plan.Takes (x root) (visit root).found (visit root).planned ((x root).blocksFor outs) ∧
    ((visit root).plan.copyOut = none ↔ BackToBack outs) := by
  rw [← hp.sized root hroot]
  exact (hp.plans root hroot).atRoot (hp.ranked root hroot)

/-- Any other rank receives nothing. -/
theorem elsewhere (hi : i < n) (hne : i ≠ root) : (x i).recvCounts = List.replicate n 0 ∧
    (visit i).plan.copyOut = none ∧ (visit i).plan.Takes (x i) (visit i).found (visit i).planned [] := by
  rw [← hp.sized i hi]
  apply (hp.plans i hi).elsewhere
  rwa [hp.ranked i hi]

/-- What a rank sends to the root is its input. -/
theorem words_sent (hi : i < n) (hb : (visit i).found.heap.Bounded) (h : Heap) :
    ((x i).sent root).words h = (input i).words h := by
  have hplans := hp.plans i hi
  rw [Exchange.sent_onlyAt hplans.rooted hplans.sendCounts, hplans.send]
  exact ((hplans.sent.stretch_whole hb).1 h).symm

/-- The ranks agree exactly if their inputs have the same count. -/
theorem agree_iff (hm : Met n group what visit r e e' cs) (hcalls : GatherCalls n what outs input root t)
    (hroot : root < n) : Agree cs ↔ SameCounts n root input := by
  have htag : ∀ q < n, t.tag? = some (x q).tag := by
    intro q hq
    rw [← hcalls.typed q hq]
    exact (hp.plans q hq).tagged
  have hsend {i j : Nat} (hi : i < n) : (x i).sendCounts.getD j 0 = if j = root then (input i).count else 0 := by
    rw [(hp.plans i hi).sendCounts]
    exact getD_onlyAt (hp.plans i hi).rooted ..
  have hrecv {i : Nat} (hi : i < n) : (x root).recvCounts.getD i 0 = (input root).count := by
    obtain ⟨hlength, hcounts, hrecv, -⟩ := hp.atRoot hroot
    rw [hrecv]
    exact getD_counts hcounts (lt_of_lt_of_eq hi hlength.symm)
  have hnone {i j : Nat} (hj : j < n) (hne : j ≠ root) : (x j).recvCounts.getD i 0 = 0 := by
    rw [(hp.elsewhere hj hne).1, List.getD_eq_getElem?_getD]
    exact List.getElem?_getD_replicate_default_eq 0 n i
  rw [(hm.trade hp.asks).agree_iff]
  constructor
  · intro h q hq
    obtain ⟨-, hcount⟩ := h q hq root hroot
    rwa [hsend hq, if_pos rfl, hrecv hq] at hcount
  · intro h i hi j hj
    constructor
    · exact Option.some.inj ((htag i hi).symm.trans (htag j hj))
    · rw [hsend hi]
      split
      · rename_i hj'
        rw [hj', hrecv hi, h i hi]
      · rename_i hne
        rw [hnone hj hne]

/-- The root takes what it receives into its outputs, the others take nothing. -/
theorem taking (hm : Met n group what visit r e e' cs) (hcalls : GatherCalls n what outs input root t)
    (hroot : root < n) :
    Taking n visit x fun q => if q = root then (x q).blocksFor outs else [] := by
  obtain ⟨-, -, -, htakes, -⟩ := hp.atRoot hroot
  constructor
  · intro q hq
    split
    · rename_i hroot
      exact hroot ▸ htakes
    · rename_i hne
      exact (hp.elsewhere hq hne).2.2
  · intro q _
    split
    · rename_i hroot
      subst hroot
      exact FlatLayout.pairwise_zip hcalls.apart
    · exact List.Pairwise.nil
  · intro p _ q _ hne b hb c hc
    exact absurd ((mem_of_mem_blocks hb).1.trans (mem_of_mem_blocks hc).1.symm) hne
  · intro p hlt q hq b hb
    obtain ⟨rfl, hout⟩ := mem_of_mem_blocks hb
    apply hm.foreign p hlt q hq b.1
    rw [hcalls.calls q hq, if_pos rfl]
    exact List.mem_append_left _ (List.mem_flatten_of_mem (List.mem_singleton_self _) hout)

/-- The root's handle is pending exactly if its outputs lie back to back. -/
theorem handles (hroot : root < n) : GatherHandles n visit outs root := by
  obtain ⟨hlength, -, -, -, hcopy⟩ := hp.atRoot hroot
  constructor
  · exact hroot
  · exact hlength
  · exact fun htogether => Visit.ongoing_of_inPlace (hcopy.mpr htogether)
  · exact fun hscattered => Visit.exists_ongoing_of_staged fun h => hscattered (hcopy.mp h)
  · exact fun q hq hne => Visit.ongoing_of_inPlace (hp.elsewhere hq hne).2.1

/-- Each of the root's outputs is left with the input of its rank. -/
theorem gathered (hm : Met n group what visit r e e' cs) (hcalls : GatherCalls n what outs input root t) (hr : r < n)
    (hmatch : SameCounts n root input) {quiet : Nat → Nat → Prop} {done : List Nat} {m : Machine Fabric}
    (hquiet : ∀ b ∈ outs, ∀ block pos, b.Holds block pos → quiet block pos)
    (hd : Dispersal n visit quiet e'.machine done m) :
    InputsGathered n visit outs input root quiet e.machine.store.heap done m := by
  have hroot := hp.root_lt (Nat.zero_lt_of_lt hr)
  have ht := hp.taking hm hcalls hroot
  have ha := (hp.agree_iff hm hcalls hroot).mpr hmatch
  obtain ⟨-, -, hrecv, -, hcopy⟩ := hp.atRoot hroot
  have houtputs : ∀ q < n, ∀ b ∈ (if q = root then (x q).blocksFor outs else []),
      b.1 ∈ if q = root then outs else [] := by
    intro q _ b hb
    obtain ⟨hq, hout⟩ := mem_of_mem_blocks hb
    rwa [if_pos hq]
  have hquiet' : ∀ q < n, ∀ b ∈ (if q = root then outs else []), ∀ block pos, b.Holds block pos → quiet block pos := by
    intro q _ b hb
    split at hb
    · exact hquiet b hb
    · cases hb
  obtain ⟨hsucceeds, hwords⟩ := hm.dispersal_succeeds ht hp.asks hr ha hd (fun q => if q = root then outs else [])
    houtputs hquiet'
  refine ⟨hsucceeds, fun hready i hi b hb => ?_⟩
  have hcount : i < (x root).recvCounts.length := (hp.asks root hroot).lent.receives.symm ▸ hi
  have hmem : (b, (x root).received i) ∈ if root = root then (x root).blocksFor outs else [] := by
    rw [if_pos rfl]
    exact List.mem_of_getElem? (Exchange.getElem?_blocksFor hb hcount)
  have hinput : input i ∈ (what i).operands := by
    rw [hcalls.calls i hi]
    exact List.mem_append_right _ (List.mem_singleton_self _)
  calc b.words m.store.heap
      = ((x root).received i).words e'.machine.store.heap := hwords root hroot (hready.imp_right hcopy.mpr) _ hmem
    _ = ((x i).sent root).words (visit r).planned.heap := hm.words_received ht hp.asks ha hi hroot
    _ = (input i).words (visit r).planned.heap := hp.words_sent hi (hm.planned i hi).bounded _
    _ = (input i).words e.machine.store.heap := hm.grows.words (hm.sound i hi _ hinput)

end GathersPlanned

/-- In a gather a rank whose call passes the checks is answered, and no call but the last changes what was there. If all
inputs have the same count, the root's outputs are left with the inputs, and nothing else has changed; if not, every
wait fails, and nothing has changed. -/
theorem inputs_gathered (h : Assembly n comm k group what visit arrived e.machine) (hr : r < n)
    (hcalls : GatherCalls n what outs input root t) :
    ((group r).Passes (what r) comm r e → (group r).AnswersCall (what r) comm r e) ∧
      ∀ e', Joins n comm k group what visit arrived r e e' →
        ((∃ q < n, q ≠ r ∧ q ∉ arrived) → e.machine.store.heap.Grows e'.machine.store.heap) ∧
          ((∀ q < n, q ≠ r → q ∈ arrived) → GatherHandles n visit outs root ∧
            (SameCounts n root input → ∀ quiet done m,
              (∀ b ∈ outs, ∀ block pos, b.Holds block pos → quiet block pos) →
              Dispersal n visit quiet e'.machine done m →
              InputsGathered n visit outs input root quiet e.machine.store.heap done m) ∧
            (¬SameCounts n root input → ∀ quiet done m, Dispersal n visit quiet e'.machine done m →
              Dispersal.Fails n visit "gather" quiet e.machine.store.heap done m)) := by
  have hn := Nat.zero_lt_of_lt hr
  have htrades : ∀ q < n, (group q).Trades (what q) := by
    intro q hq
    rw [hcalls.calls q hq]
    exact (group q).trades_gather _ _ _
  refine ⟨h.answers htrades hr, fun e' hj => ⟨fun hwaits => (h.heap_of_waiting hj hwaits).2, fun hlast => ?_⟩⟩
  obtain ⟨cs, hm⟩ := h.exists_met hj hlast
  obtain ⟨x, hp⟩ := hm.exists_gathersPlanned hn hcalls
  have hroot := hp.root_lt hn
  refine ⟨hp.handles hroot, fun hmatch quiet done m hquiet hd => ?_, fun hdiffer quiet done m hd => ?_⟩
  · exact hp.gathered hm hcalls hr hmatch hquiet hd
  · have ha : ¬Agree cs := fun ha => hdiffer ((hp.agree_iff hm hcalls hroot).mp ha)
    exact hm.dispersal_fails hr ha hd fun q hq => (hp.plans q hq).operation

/-- The outputs of the first of two ranks: its second byte and then its first, where its input is. -/
def pairOuts : List Buffer := [pairPart 0 1 1, pairPart 0 0 1]

/-- Memory before and after each of the ranks has planned its call, the first with a region for its outputs, the second
with an empty one. -/
def pairHeaps : Nat → Heap
  | 0 => pairHeap
  | 1 => { blocks := #[#[1, 2, 3], #[4, 5, 6], #[0, 0]] }
  | _ => { blocks := #[#[1, 2, 3], #[4, 5, 6], #[0, 0], #[]] }

/-- Two ranks gather a byte each on the first, whose outputs are in disorder and overlap its input. -/
theorem inputs_gathered_staged :
    ∃ visit arrived e e' r m,
      Assembly 2 0 0 pairGroup (fun q => .gather (if q = 0 then [pairOuts] else []) [pairPart q (2 * q) 1] 0)
        visit arrived e.machine ∧
      Joins 2 0 0 pairGroup (fun q => .gather (if q = 0 then [pairOuts] else []) [pairPart q (2 * q) 1] 0)
        visit arrived r e e' ∧
      e.machine.store.heap = pairHeaps 1 ∧ Dispersal 2 visit (fun _ _ => True) e'.machine [1, 0] m ∧
      pairOuts.map (·.words m.store.heap) = [[1], [6]] := by
  let input (q : Nat) : Buffer := pairPart q (2 * q) 1
  let what (q : Nat) : Collective Buffer := .gather (if q = 0 then [pairOuts] else []) [input q] 0
  have hcalls : GatherCalls 2 what pairOuts input 0 .i8 := by
    refine ⟨fun q _ => rfl, fun q _ => rfl, List.pairwise_pair.mpr ?_⟩
    exact pairPart_apart (.inr (.inr (by decide)))
  have hoperands : ∀ q < 2, ∀ b ∈ (what q).operands, Obtained { heap := pairHeap } b := by
    intro q hq b hmem
    obtain rfl | rfl : q = 0 ∨ q = 1 := by omega
    · have hsame : b = pairPart 0 1 1 ∨ b = pairPart 0 0 1 := by
        simpa [what, input, Collective.operands, pairOuts] using hmem
      obtain rfl | rfl := hsame
      · exact obtained_pairPart hq (by decide)
      · exact obtained_pairPart hq (by decide)
    · have hsame : b = pairPart 1 2 1 := by simpa [what, input, Collective.operands] using hmem
      exact hsame ▸ obtained_pairPart hq (by decide)
  have hplans : ∀ q < 2, ∀ s : Store, s.heap = pairHeaps q → ∃ p call store,
      ((pairGroup q).plan (what q)).run s = (.ok p, store) ∧ p.call = .ok call ∧ store.heap = pairHeaps (q + 1) := by
    rintro q hq ⟨_, journal⟩ rfl
    obtain rfl | rfl : q = 0 ∨ q = 1 := by omega
    · exact ⟨_, _, _, rfl, rfl, rfl⟩
    · exact ⟨_, _, _, rfl, rfl, rfl⟩
  have hprepared : Prepared 2 pairGroup what pairHeaps :=
    ⟨pairHeap_bounded, hoperands, fun q _ => rfl, fun q _ => (pairGroup q).trades_gather _ _ _, hplans⟩
  have hmatch : SameCounts 2 0 input := fun q _ => rfl
  obtain ⟨visit, arrived, e, e', r, hassembly, hjoins, hlast, hheap, -⟩ := hprepared.exists_last (by decide)
  obtain ⟨m, hd⟩ := Dispersal.exists_all 2 visit (fun _ _ => True) e'.machine
  obtain ⟨-, hjoined⟩ := hassembly.inputs_gathered hjoins.rank hcalls
  obtain ⟨-, hdone⟩ := hjoined e' hjoins
  have hgathered := (hdone hlast).2.1 hmatch _ _ m (fun _ _ _ _ _ => trivial) hd
  refine ⟨visit, arrived, e, e', r, m, hassembly, hjoins, hheap, hd, ?_⟩
  have hfirst := hgathered.gathered (.inl (by decide)) 0 (by decide) _ rfl
  have hsecond := hgathered.gathered (.inl (by decide)) 1 (by decide) _ rfl
  rw [hheap] at hfirst hsecond
  exact congrArg₂ (fun a b => [a, b]) hfirst hsecond

end Assembly

end Collectives
