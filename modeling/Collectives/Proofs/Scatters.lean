import Collectives.Proofs.Gathers

/-!
# Scatters

In a scatter the root has an input for each rank and sends it there. If all outputs have as many elements as each other,
every rank's output is left with the root's input for it, as that was when the root made its call, or when the last rank
did if the inputs lie back to back; otherwise every wait fails, and no memory of the callers changes.
-/

namespace Collectives

/-! ## How a scatter is planned -/

namespace Group

variable {g : Group} {s s' : Store} {p : Plan} {x : Exchange} {root : Nat}

/-- A scatter as it was planned. Every rank receives from the root only; the root sends its inputs, the others send
nothing. -/
structure PlansScatter (g : Group) (output : Buffer) (ins : List Buffer) (root : Nat) (p : Plan) (x : Exchange)
    (s s' : Store) : Prop where
  operation : p.operation = "scatter"
  inPlace : p.copyOut = none
  rooted : root < g.size
  tagged : output.dtype.tag? = some x.tag
  recvCounts : x.recvCounts = onlyAt g.size root output.count
  asks : p.Asks x g.size s s'
  takes : p.Takes x s s' [(output, x.received root)]
  atRoot : g.rank = root → ins.length = g.size ∧ (∀ b ∈ ins, b.count = output.count) ∧
    x.sendCounts = ins.map Buffer.count ∧ x.Gives s s' ins
  elsewhere : g.rank ≠ root → x.sendCounts = List.replicate g.size 0

/-- A rank that receives from the root only receives into its output. -/
private theorem takes_from_root {output : Buffer} {count : Nat} (hroot : root < g.size) (hb : s'.heap.Bounded)
    (hreceived : output.Solid s'.heap count) (hrecv : x.recv = output)
    (hcounts : x.recvCounts = onlyAt g.size root count) (hcopy : p.copyOut = none) :
    p.Takes x s s' [(output, x.received root)] := by
  have hblock : x.received root = output.stretch 0 count := hrecv ▸ x.received_onlyAt hroot hcounts
  have hwhole := hreceived.stretch_whole hb
  rw [hblock]
  refine ⟨fun _ => List.forall_mem_singleton.mpr hwhole, fun copyOut h => ?_, fun block pos hh => .inr ?_⟩
  · rw [hcopy] at h
    cases h
  · rw [Exchange.landing, hrecv, hcounts, sum_onlyAt hroot] at hh
    exact ⟨_, List.mem_singleton_self _, (hwhole.2 block pos).mp hh⟩

private theorem exists_of_planScatterRoot {inputs : List (List Buffer)} {output : Buffer} (hg : g.rank = root)
    (hroot : root < g.size) (hins : ∀ ins ∈ inputs, ∀ b ∈ ins, b.Sound s.heap) (houtput : output.Sound s.heap)
    (hc : output.isContiguous = .ok true) (hb : s.heap.Bounded)
    (h : (g.planScatterRoot output inputs root).run s = (.ok p, s')) :
    ∃ ins x, inputs = [ins] ∧ g.PlansScatter output ins root p x s s' := by
  obtain ⟨ins, hlist, h⟩ := exists_of_check_bind h
  obtain ⟨_, halike, h⟩ := exists_of_check_bind h
  obtain ⟨count, hcount, h⟩ := exists_of_size_bind h
  obtain ⟨layout, s₁, hlayout, h⟩ := exists_of_run_bind h
  obtain ⟨_, s₂, hpack, h⟩ := exists_of_run_bind h
  obtain ⟨_, -, h⟩ := exists_of_check_bind h
  obtain ⟨tag, htag, h⟩ := exists_of_check_bind h
  obtain ⟨_, s₃, hreport, h⟩ := exists_of_run_bind h
  cases h
  obtain ⟨hinputs, hlength⟩ := rootList_eq_ok hlist
  obtain rfl : count = output.count := eq_of_productSizes hcount
  have halike := checkAlike_eq_ok hcount halike
  have hl := FlatLayout.reconcile_stands hlayout
  have hx₁ := (FlatLayout.reconcile_extends ins).of_run hlayout
  have hx₂ := (FlatLayout.pack_extends layout ins).of_run hpack
  have hheap := report_run hreport
  have hins : ∀ b ∈ ins, b.Sound s.heap := hins ins (hinputs ▸ List.mem_singleton_self ins)
  obtain ⟨input, hinput, htype⟩ := hl.typed
  have htype := htype.trans (halike input hinput).2.1
  have hplain : ∀ b ∈ ins, b.dtype = layout.region.dtype ∧ b.isContiguous = .ok true := fun b hmem =>
    ⟨(halike b hmem).2.1.trans htype.symm, (halike b hmem).2.2⟩
  have hcounts : ∀ b ∈ ins, b.count = output.count := fun b hmem =>
    Except.ok.inj ((hl.counted b hmem).symm.trans (halike b hmem).1)
  obtain ⟨hgrows, hpacked⟩ := hl.pack_grows (.refl _) hl.grows (hx₁.bounded hb) hins hplain hx₁ hpack
  rw [← hheap] at hx₂ hgrows hpacked
  have hx := hx₁.trans hx₂
  have hreceived := (Buffer.Solid.of_sound houtput hcount hc).later hx
  have htags := tag_eq_ok htag
  have houtputTag : output.dtype.tag? = some tag := htype ▸ htags
  let x : Exchange :=
    { send := layout.region, sendCounts := layout.lengths, recv := output
      recvCounts := onlyAt g.size root output.count, tag }
  have hlent : x.Lent g.size s'.heap := by
    refine ⟨?_, ?_, ⟨hl.room.later hx₂, htags⟩, ?_, houtputTag⟩
    · exact (congrArg List.length hl.lengths).trans ((List.length_map _).trans hlength)
    · exact length_onlyAt ..
    · rw [sum_onlyAt hroot]
      exact hreceived.room
  refine ⟨ins, x, hinputs, rfl, rfl, hroot, houtputTag, rfl, ⟨rfl, hlent, hgrows⟩, ?_, fun _ => ?_, fun hne => ?_⟩
  · exact takes_from_root hroot (hx.bounded hb) hreceived rfl rfl rfl
  · exact ⟨hlength, hcounts, hl.lengths,
      hl.gives rfl rfl le_rfl hx₂ hplain (fun b hmem => (hins b hmem).later hx) hpacked⟩
  · exact absurd hg hne

private theorem exists_of_planScatterOther {inputs : List (List Buffer)} {output : Buffer} (hg : g.rank ≠ root)
    (hroot : root < g.size) (houtput : output.Sound s.heap) (hc : output.isContiguous = .ok true) (hb : s.heap.Bounded)
    (h : (g.planScatterOther output inputs root).run s = (.ok p, s')) :
    ∃ x, inputs = [] ∧ ∀ ins, g.PlansScatter output ins root p x s s' := by
  obtain ⟨_, hnone, h⟩ := exists_of_check_bind h
  obtain ⟨_, -, h⟩ := exists_of_size_bind h
  obtain ⟨count, hcount, h⟩ := exists_of_size_bind h
  obtain ⟨nothing, s₁, hnothing, h⟩ := exists_of_run_bind h
  obtain ⟨tag, htag, h⟩ := exists_of_check_bind h
  obtain ⟨_, s₂, hreport, h⟩ := exists_of_run_bind h
  cases h
  obtain rfl : count = output.count := eq_of_productSizes hcount
  obtain ⟨htype, hroom, hgrows⟩ := Buffer.empty_run hnothing
  have hx := (Buffer.zeros_extends _ _).of_run hnothing
  have hheap := report_run hreport
  rw [← hheap] at hx hgrows hroom
  have hreceived := (Buffer.Solid.of_sound houtput hcount hc).later hx
  have htags := tag_eq_ok htag
  have houtputTag : output.dtype.tag? = some tag := htype ▸ htags
  let x : Exchange :=
    { send := nothing, sendCounts := List.replicate g.size 0, recv := output
      recvCounts := onlyAt g.size root output.count, tag }
  have hlent : x.Lent g.size s'.heap := by
    refine ⟨List.length_replicate, length_onlyAt .., ⟨?_, htags⟩, ?_, houtputTag⟩
    · rw [List.sum_replicate, smul_zero]
      exact hroom
    · rw [sum_onlyAt hroot]
      exact hreceived.room
  refine ⟨x, List.isEmpty_iff.mp (of_require hnone), fun ins => ⟨rfl, rfl, hroot, houtputTag, rfl,
    ⟨rfl, hlent, hgrows⟩, ?_, fun h => absurd h hg, fun _ => rfl⟩⟩
  exact takes_from_root hroot (hx.bounded hb) hreceived rfl rfl rfl

/-- What a scatter is planned as: one output, and on the root only one list of inputs. -/
theorem exists_of_planScatter {outputs : List Buffer} {inputs : List (List Buffer)}
    (hins : ∀ ins ∈ inputs, ∀ b ∈ ins, b.Sound s.heap) (houts : ∀ b ∈ outputs, b.Sound s.heap) (hb : s.heap.Bounded)
    (h : (g.planScatter outputs inputs root).run s = (.ok p, s')) :
    ∃ output ins x, outputs = [output] ∧ inputs = (if g.rank = root then [ins] else []) ∧
      g.PlansScatter output ins root p x s s' := by
  obtain ⟨output, hsingle, h⟩ := exists_of_check_bind h
  obtain ⟨_, hrank, h⟩ := exists_of_check_bind h
  obtain ⟨houtputs, hcheck⟩ := single_eq_ok hsingle
  have houtput := houts output (houtputs ▸ List.mem_singleton_self output)
  have hroot := checkRank_eq_ok hrank
  split at h
  · rename_i hg
    obtain ⟨ins, x, hinputs, hplans⟩ :=
      exists_of_planScatterRoot hg hroot hins houtput (checkBuffer_eq_ok hcheck) hb h
    exact ⟨output, ins, x, houtputs, hinputs.trans (if_pos hg).symm, hplans⟩
  · rename_i hg
    obtain ⟨x, hinputs, hplans⟩ := exists_of_planScatterOther hg hroot houtput (checkBuffer_eq_ok hcheck) hb h
    exact ⟨output, [], x, houtputs, hinputs.trans (if_neg hg).symm, hplans []⟩

end Group

/-! ## Scatters of equal counts -/

/-- All ranks are scattered buffers of one type of element from a root. Only calls of this form pass the checks. What
one rank receives into is apart from what another does; the inputs may have bytes in common with each other and with the
outputs. -/
structure ScatterCalls (n : Nat) (what : Nat → Collective Buffer) (output : Nat → Buffer) (ins : List Buffer)
    (root : Nat) (t : ElementType) : Prop where
  calls : ∀ q < n, what q = .scatter [output q] (if q = root then [ins] else []) root
  typed : ∀ q < n, (output q).dtype = t
  apart : ∀ p < n, ∀ q < n, p ≠ q → (output p).Apart (output q)

/-- How the calls of a scatter are handed back: all handles are pending. -/
structure ScatterHandles (n : Nat) (visit : Nat → Visit) (ins : List Buffer) (root : Nat) : Prop where
  rooted : root < n
  length : ins.length = n
  pending : ∀ q < n, (visit q).ongoing = .returned (visit q).handle

/-- What ranks find that wait after the last call, if their outputs have the same count. -/
structure InputsScattered (n : Nat) (visit : Nat → Visit) (output : Nat → Buffer) (ins : List Buffer) (root : Nat)
    (quiet : Nat → Nat → Prop) (h : Heap) (done : List Nat) (m : Machine Fabric) : Prop where
  succeeds : Dispersal.Succeeds n visit (fun q => [output q]) quiet h done m
  /-- Inputs that lie back to back are received as they were at the last call. -/
  inPlace : BackToBack ins → ∀ i < n, ∀ b, ins[i]? = some b → (output i).words m.store.heap = b.words h
  /-- Other inputs are received as they were when the root made its call. -/
  staged : ¬BackToBack ins → ∀ i < n, ∀ b, ins[i]? = some b →
    (output i).words m.store.heap = b.words (visit root).found.heap
  /-- An input that is apart from the root's output is as it was, if no other rank's output has bytes of it. -/
  kept : ∀ b ∈ ins, b.Apart (output root) → (∀ q < n, q ≠ root → b.Apart (output q)) →
    (∀ block pos, b.Holds block pos → quiet block pos) → b.words m.store.heap = b.words h

/-- A scatter is planned as an exchange. -/
theorem Group.trades_scatter (g : Group) (outputs : List Buffer) (inputs : List (List Buffer)) (root : Nat) :
    g.Trades (.scatter outputs inputs root) := by
  intro s s' p hb hs h
  have hins : ∀ ins ∈ inputs, ∀ b ∈ ins, b.Sound s.heap := fun ins hmem b hb =>
    hs b (List.mem_append_right _ (List.mem_flatten_of_mem hmem hb))
  have houts : ∀ b ∈ outputs, b.Sound s.heap := fun b hmem => hs b (List.mem_append_left _ hmem)
  obtain ⟨output, ins, x, -, -, hplans⟩ := exists_of_planScatter hins houts hb h
  exact fun call => hplans.asks.trades

namespace Assembly

variable {n comm k r i : Nat} {group : Nat → Group} {what : Nat → Collective Buffer} {visit : Nat → Visit}
  {arrived : List Nat} {e e' : Engine Fabric} {cs : List Contribution} {x : Nat → Exchange} {ins : List Buffer}
  {output : Nat → Buffer} {root : Nat} {t : ElementType}

/-- How the ranks have planned their scatters. -/
structure ScattersPlanned (n : Nat) (group : Nat → Group) (visit : Nat → Visit) (output : Nat → Buffer)
    (ins : List Buffer) (root : Nat) (x : Nat → Exchange) : Prop where
  plans : ∀ q < n, (group q).PlansScatter (output q) ins root (visit q).plan (x q) (visit q).found (visit q).planned
  sized : ∀ q < n, (group q).size = n
  ranked : ∀ q < n, (group q).rank = q

theorem Met.exists_scattersPlanned (hm : Met n group what visit r e e' cs) (hn : 0 < n)
    (hcalls : ScatterCalls n what output ins root t) : ∃ x, ScattersPlanned n group visit output ins root x := by
  have hplans : ∀ q < n, ∃ x, (group q).PlansScatter (output q) ins root (visit q).plan x (visit q).found
      (visit q).planned := by
    intro q hq
    have hplanned := hm.planned q hq
    have hrun := hplanned.planned
    have hobtained := hplanned.obtained
    rw [hcalls.calls q hq] at hrun hobtained
    have hsound := fun b hb => (hobtained b hb).sound
    obtain ⟨output', ins', x, houtput, hinputs, hplans⟩ := Group.exists_of_planScatter
      (fun ins hmem b hb => hsound b (List.mem_append_right _ (List.mem_flatten_of_mem hmem hb)))
      (fun b hmem => hsound b (List.mem_append_left _ hmem)) hplanned.bounded hrun
    obtain rfl : output q = output' := List.singleton_inj.mp houtput
    refine ⟨x, { hplans with atRoot := fun hrank => ?_ }⟩
    have hroot : q = root := hplanned.ranked.symm.trans hrank
    rw [if_pos hroot, if_pos hrank] at hinputs
    obtain rfl : ins = ins' := List.singleton_inj.mp hinputs
    exact hplans.atRoot hrank
  obtain ⟨x, hx⟩ := exists_family hn hplans
  exact ⟨x, hx, fun q hq => (hm.planned q hq).size, fun q hq => (hm.planned q hq).ranked⟩

namespace ScattersPlanned

variable (hp : ScattersPlanned n group visit output ins root x)

include hp

theorem asks : ∀ q < n, (visit q).plan.Asks (x q) n (visit q).found (visit q).planned := by
  intro q hq
  rw [← hp.sized q hq]
  exact (hp.plans q hq).asks

theorem root_lt (hn : 0 < n) : root < n := hp.sized 0 hn ▸ (hp.plans 0 hn).rooted

/-- The root sends a block for each of its inputs. -/
theorem atRoot (hroot : root < n) : ins.length = n ∧ (∀ b ∈ ins, b.count = (output root).count) ∧
    (x root).sendCounts = ins.map Buffer.count ∧ (x root).Gives (visit root).found (visit root).planned ins := by
  rw [← hp.sized root hroot]
  exact (hp.plans root hroot).atRoot (hp.ranked root hroot)

/-- Any other rank sends nothing. -/
theorem elsewhere (hi : i < n) (hne : i ≠ root) : (x i).sendCounts = List.replicate n 0 := by
  rw [← hp.sized i hi]
  apply (hp.plans i hi).elsewhere
  rwa [hp.ranked i hi]

/-- The ranks agree exactly if their outputs have the same count. -/
theorem agree_iff (hm : Met n group what visit r e e' cs) (hcalls : ScatterCalls n what output ins root t)
    (hroot : root < n) : Agree cs ↔ SameCounts n root output := by
  have htag : ∀ q < n, t.tag? = some (x q).tag := by
    intro q hq
    rw [← hcalls.typed q hq]
    exact (hp.plans q hq).tagged
  have hrecv {i j : Nat} (hj : j < n) : (x j).recvCounts.getD i 0 = if i = root then (output j).count else 0 := by
    rw [(hp.plans j hj).recvCounts]
    exact getD_onlyAt (hp.plans j hj).rooted ..
  have hsend {j : Nat} (hj : j < n) : (x root).sendCounts.getD j 0 = (output root).count := by
    obtain ⟨hlength, hcounts, hsend, -⟩ := hp.atRoot hroot
    rw [hsend]
    exact getD_counts hcounts (lt_of_lt_of_eq hj hlength.symm)
  have hnone {i j : Nat} (hi : i < n) (hne : i ≠ root) : (x i).sendCounts.getD j 0 = 0 := by
    rw [hp.elsewhere hi hne, List.getD_eq_getElem?_getD]
    exact List.getElem?_getD_replicate_default_eq 0 n j
  rw [(hm.trade hp.asks).agree_iff]
  constructor
  · intro h q hq
    obtain ⟨-, hcount⟩ := h root hroot q hq
    rw [hrecv hq, if_pos rfl, hsend hq] at hcount
    exact hcount.symm
  · intro h i hi j hj
    constructor
    · exact Option.some.inj ((htag i hi).symm.trans (htag j hj))
    · rw [hrecv hj]
      split
      · rename_i hi'
        rw [hi', hsend hj, h j hj]
      · rename_i hne
        rw [hnone hi hne]

/-- Every rank receives into its output. -/
theorem taking (hm : Met n group what visit r e e' cs) (hcalls : ScatterCalls n what output ins root t) :
    Taking n visit x fun q => [(output q, (x q).received root)] := by
  constructor
  · exact fun q hq => (hp.plans q hq).takes
  · exact fun q _ => List.pairwise_singleton ..
  · intro p hlt q hq hne b hb c hc
    rw [List.mem_singleton.mp hb, List.mem_singleton.mp hc]
    exact hcalls.apart p hlt q hq hne
  · intro p hlt q hq b hb
    apply hm.foreign p hlt q hq b.1
    rw [hcalls.calls q hq, List.mem_singleton.mp hb]
    exact List.mem_append_left _ (List.mem_singleton_self _)

theorem handles (hroot : root < n) : ScatterHandles n visit ins root := by
  constructor
  · exact hroot
  · exact (hp.atRoot hroot).1
  · exact fun q hq => Visit.ongoing_of_inPlace (hp.plans q hq).inPlace

/-- Every rank's output is left with the root's input for it. -/
theorem scattered (hm : Met n group what visit r e e' cs) (hcalls : ScatterCalls n what output ins root t) (hr : r < n)
    (hmatch : SameCounts n root output) {quiet : Nat → Nat → Prop} {done : List Nat} {m : Machine Fabric}
    (hquiet : ∀ q < n, ∀ block pos, (output q).Holds block pos → quiet block pos)
    (hd : Dispersal n visit quiet e'.machine done m) :
    InputsScattered n visit output ins root quiet e.machine.store.heap done m := by
  have hroot := hp.root_lt (Nat.zero_lt_of_lt hr)
  have ht := hp.taking hm hcalls
  have ha := (hp.agree_iff hm hcalls hroot).mpr hmatch
  have hops : ∀ b ∈ ins, b ∈ (what root).operands := by
    intro b hb
    rw [hcalls.calls root hroot, if_pos rfl]
    exact List.mem_append_right _ (List.mem_flatten_of_mem (List.mem_singleton_self _) hb)
  have houtputs : ∀ q < n, ∀ b ∈ [(output q, (x q).received root)], b.1 ∈ [output q] := by simp
  have hquiet' : ∀ q < n, ∀ b ∈ [output q], ∀ block pos, b.Holds block pos → quiet block pos := fun q hq =>
    List.forall_mem_singleton.mpr (hquiet q hq)
  obtain ⟨hsucceeds, hwords⟩ := hm.dispersal_succeeds ht hp.asks hr ha hd (fun q => [output q]) houtputs hquiet'
  have hreceived : ∀ i < n, (output i).words m.store.heap = ((x root).sent i).words (visit r).planned.heap := by
    intro i hi
    rw [hwords i hi (.inr (hp.plans i hi).inPlace) _ (List.mem_singleton_self _)]
    exact hm.words_received ht hp.asks ha hroot hi
  have hsent : ∀ i b, ins[i]? = some b → _ := fun i b hb => hm.words_sent hroot (hp.atRoot hroot).2.2.2 hops hb
  constructor
  · exact hsucceeds
  · intro htogether i hi b hb
    rw [hreceived i hi, (hsent i b hb).1 htogether]
  · intro hscattered i hi b hb
    rw [hreceived i hi, (hsent i b hb).2 hscattered]
  · intro b hb hown hothers hquiet
    apply Buffer.words_congr
    intro block pos hh
    apply hsucceeds.elsewhere block pos (hquiet block pos hh)
    · exact fun q hq => hm.foreign q hq root hroot b (hops b hb) block pos hh
    · intro q hq c hc
      rw [List.mem_singleton.mp hc]
      by_cases hq' : q = root
      · exact hq' ▸ hown block pos hh
      · exact hothers q hq hq' block pos hh

end ScattersPlanned

/-- In a scatter a rank whose call passes the checks is answered, and no call but the last changes what was there. If
all outputs have the same count, each is left with the root's input for it, and nothing else has changed; if not, every
wait fails, and nothing has changed. -/
theorem inputs_scattered (h : Assembly n comm k group what visit arrived e.machine) (hr : r < n)
    (hcalls : ScatterCalls n what output ins root t) :
    ((group r).Passes (what r) comm r e → (group r).AnswersCall (what r) comm r e) ∧
      ∀ e', Joins n comm k group what visit arrived r e e' →
        ((∃ q < n, q ≠ r ∧ q ∉ arrived) → e.machine.store.heap.Grows e'.machine.store.heap) ∧
          ((∀ q < n, q ≠ r → q ∈ arrived) → ScatterHandles n visit ins root ∧
            (SameCounts n root output → ∀ quiet done m,
              (∀ q < n, ∀ block pos, (output q).Holds block pos → quiet block pos) →
              Dispersal n visit quiet e'.machine done m →
              InputsScattered n visit output ins root quiet e.machine.store.heap done m) ∧
            (¬SameCounts n root output → ∀ quiet done m, Dispersal n visit quiet e'.machine done m →
              Dispersal.Fails n visit "scatter" quiet e.machine.store.heap done m)) := by
  have hn := Nat.zero_lt_of_lt hr
  have htrades : ∀ q < n, (group q).Trades (what q) := by
    intro q hq
    rw [hcalls.calls q hq]
    exact (group q).trades_scatter _ _ _
  refine ⟨h.answers htrades hr, fun e' hj => ⟨fun hwaits => (h.heap_of_waiting hj hwaits).2, fun hlast => ?_⟩⟩
  obtain ⟨cs, hm⟩ := h.exists_met hj hlast
  obtain ⟨x, hp⟩ := hm.exists_scattersPlanned hn hcalls
  have hroot := hp.root_lt hn
  refine ⟨hp.handles hroot, fun hmatch quiet done m hquiet hd => ?_, fun hdiffer quiet done m hd => ?_⟩
  · exact hp.scattered hm hcalls hr hmatch hquiet hd
  · have ha : ¬Agree cs := fun ha => hdiffer ((hp.agree_iff hm hcalls hroot).mp ha)
    exact hm.dispersal_fails hr ha hd fun q hq => (hp.plans q hq).operation

/-- The inputs of the first of two ranks, one after the other. -/
def pairIns : List Buffer := [pairPart 0 0 1, pairPart 0 1 1]

/-- The first rank scatters its first two bytes, and receives the first where the second is, which the other rank
receives all the same. -/
theorem inputs_scattered_in_place :
    ∃ visit arrived e e' r m,
      Assembly 2 0 0 pairGroup (fun q => .scatter [pairPart q 1 1] (if q = 0 then [pairIns] else []) 0)
        visit arrived e.machine ∧
      Joins 2 0 0 pairGroup (fun q => .scatter [pairPart q 1 1] (if q = 0 then [pairIns] else []) 0)
        visit arrived r e e' ∧
      e.machine.store.heap = pairHeap ∧ Dispersal 2 visit (fun _ _ => True) e'.machine [1, 0] m ∧
      (pairPart 0 1 1).words m.store.heap = [1] ∧ (pairPart 1 1 1).words m.store.heap = [2] := by
  let output (q : Nat) : Buffer := pairPart q 1 1
  let what (q : Nat) : Collective Buffer := .scatter [output q] (if q = 0 then [pairIns] else []) 0
  let heaps (q : Nat) : Heap := if q = 2 then { blocks := #[#[1, 2, 3], #[4, 5, 6], #[]] } else pairHeap
  have hcalls : ScatterCalls 2 what output pairIns 0 .i8 :=
    ⟨fun q _ => rfl, fun q _ => rfl, fun p _ q _ hne => pairPart_apart (.inl hne)⟩
  have hoperands : ∀ q < 2, ∀ b ∈ (what q).operands, Obtained { heap := pairHeap } b := by
    intro q hq b hmem
    obtain rfl | rfl : q = 0 ∨ q = 1 := by omega
    · have hsame : b = pairPart 0 1 1 ∨ b = pairPart 0 0 1 ∨ b = pairPart 0 1 1 := by
        simpa [what, output, Collective.operands, pairIns] using hmem
      obtain rfl | rfl | rfl := hsame
      all_goals exact obtained_pairPart hq (by decide)
    · have hsame : b = pairPart 1 1 1 := by simpa [what, output, Collective.operands] using hmem
      exact hsame ▸ obtained_pairPart hq (by decide)
  have hplans : ∀ q < 2, ∀ s : Store, s.heap = heaps q → ∃ p call store,
      ((pairGroup q).plan (what q)).run s = (.ok p, store) ∧ p.call = .ok call ∧ store.heap = heaps (q + 1) := by
    rintro q hq ⟨h, journal⟩ hheap
    obtain rfl | rfl : q = 0 ∨ q = 1 := by omega
    · obtain rfl : h = pairHeap := hheap
      exact ⟨_, _, _, rfl, rfl, rfl⟩
    · obtain rfl : h = pairHeap := hheap
      exact ⟨_, _, _, rfl, rfl, rfl⟩
  have hprepared : Prepared 2 pairGroup what heaps :=
    ⟨pairHeap_bounded, hoperands, fun q _ => rfl, fun q _ => (pairGroup q).trades_scatter _ _ _, hplans⟩
  have hmatch : SameCounts 2 0 output := fun q _ => rfl
  obtain ⟨l, s, hin, hrun⟩ : ∃ l s, l.inPlace = true ∧
      (FlatLayout.reconcile pairIns).run { heap := pairHeap } = (.ok l, s) := ⟨_, _, rfl, rfl⟩
  have hflat : BackToBack pairIns := (FlatLayout.reconcile_stands hrun).inPlace.mp hin
  obtain ⟨visit, arrived, e, e', r, hassembly, hjoins, hlast, hheap, -⟩ := hprepared.exists_last (by decide)
  obtain ⟨m, hd⟩ := Dispersal.exists_all 2 visit (fun _ _ => True) e'.machine
  obtain ⟨-, hjoined⟩ := hassembly.inputs_scattered hjoins.rank hcalls
  obtain ⟨-, hdone⟩ := hjoined e' hjoins
  have hscattered := (hdone hlast).2.1 hmatch _ _ m (fun _ _ _ _ _ => trivial) hd
  have hfirst := hscattered.inPlace hflat 0 (by decide) _ rfl
  have hsecond := hscattered.inPlace hflat 1 (by decide) _ rfl
  rw [hheap] at hfirst hsecond
  exact ⟨visit, arrived, e, e', r, m, hassembly, hjoins, hheap, hd, hfirst, hsecond⟩

end Assembly

end Collectives
