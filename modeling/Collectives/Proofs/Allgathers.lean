import Collectives.Proofs.GatherRows
import Collectives.Proofs.Gathers
import Collectives.Proofs.Landings

/-!
# All-gathers

In an all-gather every rank sends its input to all ranks, and has an output for each of them. It receives into slots: in
vector mode these are its outputs, in flat mode the rows of a new region, which are copied out after the wait. Whichever
mode the other ranks are in, if all counts are equal the exchange leaves the slots with the inputs as they were when the
last rank called, one after the other in the order of the ranks.
-/

namespace Collectives

/-! ## The slots that a rank receives into -/

/-- The call goes through in flat mode: on some memory it is planned with a region, and the rows are copied out. -/
def Group.FitsFlat (g : Group) (what : Collective Buffer) : Prop :=
  ∃ s s' p copyOut, s.heap.Bounded ∧ ({ g with mode := .flat }.plan what).run s = (.ok p, s') ∧
    p.copyOut = some copyOut ∧ (copyOut.run.run s').1 = .ok ()

/-- A region with a row for each of `n` ranks is not too large, and no row is too far from the first. -/
structure RowsFit (n : Nat) (outs : List Buffer) (input : Buffer) : Prop where
  bytes : n * input.count * input.dtype.width < sizeLimit
  places : ∀ first, outs.head? = some first → ∀ i < n, i * Buffer.rowStride first.shape < sizeLimit

/-- An all-gather as it was planned: into which slots the rank receives, one for each of its outputs. They are the
outputs themselves, or they are new and are copied to the outputs in order. -/
structure Plan.Collects (p : Plan) (n : Nat) (outs slots : List Buffer) (input : Buffer) (s s' : Store) : Prop where
  operation : p.operation = "allgather"
  length : outs.length = n
  sent : input.Solid s.heap input.count
  plain : ∀ b ∈ outs, b.Solid s.heap input.count ∧ b.dtype = input.dtype
  slotted : slots.length = n
  slot : ∀ b ∈ slots, b.Solid s'.heap input.count ∧ b.dtype = input.dtype
  asks : ∀ call, p.call = .ok call →
    ∃ c, Fabric.contribution n call = .ok c ∧ call.TableFits ∧ c.Collects n input slots
  direct : p.copyOut = none → slots = outs
  staged : ∀ copyOut, p.copyOut = some copyOut →
    (∀ s₁, copyOut.run.run s₁ = (FlatLayout.copyAll (outs.zip slots)).run s₁) ∧ slots.Pairwise Buffer.Apart ∧
      ∀ b ∈ slots, ∀ block pos, b.Holds block pos → s.Made s' block

namespace Group

variable {g : Group} {s s' : Store} {p : Plan} {outs slots : List Buffer} {input : Buffer} {tag : Tag}
  {destination : Destination}

/-- What goes through in flat mode fits. -/
theorem FitsFlat.rowsFit (h : g.FitsFlat (.allgather [outs] [input])) : RowsFit g.size outs input := by
  obtain ⟨s, s', p, copyOut, hbounded, hplan, hcopy, hrun⟩ := h
  have hx := (plan_extends _ _).of_run hplan
  have hplan : (planAllgather { g with mode := .flat } [outs] [input]).run s = (.ok p, s') := hplan
  obtain ⟨outs', input', tag, destination, houts, hinput, hplans⟩ := exists_of_planAllgather hplan
  obtain rfl := List.singleton_inj.mp houts
  obtain rfl := List.singleton_inj.mp hinput
  obtain ⟨first, region, start, hfirst, hstaged, htype, -, hrows, -⟩ := hplans.flat rfl
  obtain rfl : CopyOut.rows region outs = copyOut := Option.some.inj (hstaged.symm.trans hcopy)
  constructor
  · have hbytes := hrows.bytes_lt_sizeLimit (hx.bounded hbounded)
    rwa [← eq_of_productSizes (hplans.alike first (List.mem_of_mem_head? hfirst)).1, htype] at hbytes
  · intro first' hfirst' i hi
    obtain rfl := Option.some.inj (hfirst.symm.trans hfirst')
    have hlength : 0 + outs.length ≤ g.size := (Nat.zero_add _).trans_le hplans.length.le
    have hplace := places_of_copyRows hrows hlength hrun i (lt_of_lt_of_eq hi hplans.length.symm)
    rwa [Nat.zero_add] at hplace

namespace PlansAllgather

variable (hplans : g.PlansAllgather outs input tag destination p s s')

include hplans

/-- What is asked for collects into slots if there is a place for the block of every rank, which is where they begin. -/
theorem asks {recv : List Address} (hsent : input.Solid s'.heap input.count)
    (hrecv : Fabric.addresses g.size tag (List.replicate g.size input.count) destination = .ok recv)
    (htargets : 0 < input.count → recv = slots.map fun b => b.place b.offset)
    (htable : g.size * input.count * input.dtype.width < sizeLimit) :
    ∀ call, p.call = .ok call →
      ∃ c, Fabric.contribution g.size call = .ok c ∧ call.TableFits ∧ c.Collects g.size input slots := by
  intro call hcall
  rw [hplans.called] at hcall
  cases ha : input.address s'.heap with
  | error cause =>
    rw [ha] at hcall
    cases hcall
  | ok a =>
    rw [ha] at hcall
    cases hcall
    refine ⟨_, Fabric.contribution_allgatherv hrecv, ?_, ?_⟩
    · cases destination with
      | flat start => trivial
      | perRank starts =>
        change (List.replicate g.size input.count).sum * tag.width < sizeLimit
        rwa [List.sum_replicate, smul_eq_mul, ElementType.width_of_tag? hplans.tagged]
    · exact ⟨rfl, hplans.tagged, rfl, rfl, fun hpos => Buffer.address_eq hsent.room hpos ha, htargets⟩

/-- In vector mode the outputs are the slots. -/
theorem collects_vector (hmode : g.mode = .vector) (hfits : RowsFit g.size outs input)
    (hsent : input.Solid s.heap input.count) (hplain : ∀ b ∈ outs, b.Solid s.heap input.count ∧ b.dtype = input.dtype)
    (hbounded : s.heap.Bounded) : p.Collects g.size outs outs input s s' := by
  obtain ⟨hcopy, hheap, starts, hstarts, rfl⟩ := hplans.vector hmode
  have hlength : starts.length = g.size := (length_of_mapM hstarts).trans hplans.length
  have hsame := hheap.symm
  refine ⟨hplans.operation, hplans.length, hsent, hplain, hplans.length, hsame ▸ hplain, ?_, fun _ => rfl, ?_⟩
  · refine hplans.asks (hsame ▸ hsent) (if_pos hlength) (fun hpos => ?_) hfits.bytes
    have haddresses : ∀ b ∈ outs, b.address s.heap = .ok (b.place b.offset) := fun b hb =>
      Buffer.address_eq_ok (hplain b hb).1.room hbounded hpos
    exact Except.ok.inj (hstarts.symm.trans (mapM_eq_ok_map haddresses))
  · intro copyOut h
    rw [hcopy] at h
    cases h

/-- In flat mode the slots are the rows of a new region. -/
theorem collects_flat (hmode : g.mode = .flat) (hfits : RowsFit g.size outs input)
    (hsent : input.Solid s.heap input.count) (hplain : ∀ b ∈ outs, b.Solid s.heap input.count ∧ b.dtype = input.dtype)
    (hx : s.heap.Extends s'.heap) (hbounded : s.heap.Bounded) :
    ∃ slots, p.Collects g.size outs slots input s s' := by
  obtain ⟨first, region, start, hfirst, hstaged, htype, hblock, hrows, hstart, rfl, bytes, hbytes⟩ := hplans.flat hmode
  have hcount := (hplans.alike first (List.mem_of_mem_head? hfirst)).1
  have htag : region.dtype.tag? = some tag := htype ▸ hplans.tagged
  obtain ⟨recv, hrecv, htargets⟩ := hrows.exists_addresses (hx.bounded hbounded) hcount htag hstart
  have hslots : ((List.range g.size).map region.row).length = g.size := by simp
  have hslot : ∀ b ∈ (List.range g.size).map region.row, b.Solid s'.heap input.count ∧ b.dtype = input.dtype := by
    intro b hb
    obtain ⟨i, hi, rfl⟩ := List.mem_map.mp hb
    exact ⟨hrows.row_solid hcount (List.mem_range.mp hi), htype⟩
  refine ⟨(List.range g.size).map region.row, hplans.operation, hplans.length, hsent, hplain, hslots, hslot,
    hplans.asks (hsent.later hx) hrecv htargets hfits.bytes, fun h => ?_, fun copyOut h => ?_⟩
  · rw [hstaged] at h
    cases h
  · obtain rfl : CopyOut.rows region outs = copyOut := Option.some.inj (hstaged.symm.trans h)
    refine ⟨fun s₁ => ?_, hrows.pairwise_apart hcount, fun b hb block pos hh => ?_⟩
    · rw [← Buffer.rowPairs_eq_zip region hplans.length]
      exact copyRows_run hrows ((Nat.zero_add _).trans_le hplans.length.le) (hfits.places first hfirst) s₁
    · obtain ⟨i, hi, rfl⟩ := List.mem_map.mp hb
      obtain ⟨hb', -⟩ := (hslot _ hb).1.holds_iff.mp hh
      obtain rfl : s.heap.blocks.size = block := hblock.symm.trans (Option.some.inj hb')
      refine ⟨le_rfl, ?_⟩
      rw [hbytes, Array.size_push]
      exact Nat.lt_succ_self _

end PlansAllgather

/-- Whatever the mode, an all-gather that fits is planned into slots, which are copied out in flat mode only. -/
theorem exists_slots (hfits : RowsFit g.size outs input)
    (hs : ∀ b ∈ (Collective.allgather [outs] [input]).operands, b.Sound s.heap) (hbounded : s.heap.Bounded)
    (h : (g.plan (.allgather [outs] [input])).run s = (.ok p, s')) :
    ∃ slots, p.Collects g.size outs slots input s s' ∧ (g.mode = .vector ↔ p.copyOut = none) := by
  have hx := (g.plan_extends _).of_run h
  have h : (g.planAllgather [outs] [input]).run s = (.ok p, s') := h
  obtain ⟨outs', input', tag, destination, houts, hinput, hplans⟩ := exists_of_planAllgather h
  obtain rfl := List.singleton_inj.mp houts
  obtain rfl := List.singleton_inj.mp hinput
  have hsent : input.Solid s.heap input.count := by
    refine .of_sound (hs input ?_) hplans.counted hplans.contiguous
    exact List.mem_append_right _ (List.mem_singleton_self _)
  have hplain : ∀ b ∈ outs, b.Solid s.heap input.count ∧ b.dtype = input.dtype := by
    intro b hb
    obtain ⟨hn, htype, hc⟩ := hplans.alike b hb
    exact ⟨.of_sound (hs b (Collective.mem_operands_of_output hb)) hn hc, htype⟩
  cases hmode : g.mode with
  | vector =>
    have hcopy := (hplans.vector hmode).1
    exact ⟨outs, hplans.collects_vector hmode hfits hsent hplain hbounded, by simp [hcopy]⟩
  | flat =>
    obtain ⟨first, region, start, -, hcopy, -⟩ := hplans.flat hmode
    obtain ⟨slots, hslots⟩ := hplans.collects_flat hmode hfits hsent hplain hx hbounded
    exact ⟨slots, hslots, by simp [hcopy]⟩

/-- A call that fits is planned as one that passes the checks at issue. -/
theorem trades_allgather (hfits : g.FitsFlat (.allgather [outs] [input])) : g.Trades (.allgather [outs] [input]) := by
  intro s s' p hbounded hs h call hcall
  obtain ⟨slots, hcollects, -⟩ := exists_slots hfits.rowsFit hs hbounded h
  obtain ⟨c, hc, htable, -⟩ := hcollects.asks call hcall
  exact ⟨c, hc, htable⟩

end Group

/-! ## All-gathers of equal counts -/

/-- All ranks gather buffers of one type of element to each other, into outputs that are apart from those of the other
ranks. Only calls of this form pass the checks. A rank's outputs may overlap each other, and any inputs. -/
structure AllgatherCalls (n : Nat) (what : Nat → Collective Buffer) (outs : Nat → List Buffer) (input : Nat → Buffer)
    (t : ElementType) : Prop where
  calls : ∀ q < n, what q = .allgather [outs q] [input q]
  typed : ∀ q < n, (input q).dtype = t
  between : ∀ p < n, ∀ q < n, p ≠ q → ∀ b ∈ outs p, ∀ c ∈ outs q, b.Apart c

theorem AllgatherCalls.output_mem {n q : Nat} {what : Nat → Collective Buffer} {outs : Nat → List Buffer}
    {input : Nat → Buffer} {t : ElementType} {b : Buffer} (hcalls : AllgatherCalls n what outs input t) (hq : q < n)
    (hb : b ∈ outs q) : b ∈ (what q).operands := by
  rw [hcalls.calls q hq]
  exact Collective.mem_operands_of_output hb

theorem AllgatherCalls.input_mem {n q : Nat} {what : Nat → Collective Buffer} {outs : Nat → List Buffer}
    {input : Nat → Buffer} {t : ElementType} (hcalls : AllgatherCalls n what outs input t) (hq : q < n) :
    input q ∈ (what q).operands := by
  rw [hcalls.calls q hq]
  exact List.mem_append_right _ (List.mem_singleton_self _)

/-- How the calls of an all-gather are handed back. -/
structure AllgatherHandles (n : Nat) (group : Nat → Group) (visit : Nat → Visit) : Prop where
  /-- In vector mode the outputs are received into, and the handle is pending. -/
  vector : ∀ q < n, (group q).mode = .vector → (visit q).ongoing = .returned (visit q).handle
  /-- In flat mode the rank waits, and copies what it received. -/
  flat : ∀ q < n, (group q).mode = .flat → ∃ copyOut, (visit q).ongoing = .staged (visit q).handle copyOut

namespace Assembly

variable {n comm r q i block pos : Nat} {group : Nat → Group} {what : Nat → Collective Buffer} {visit : Nat → Visit}
  {arrived : List Nat} {e e' : Engine Fabric} {cs : List Contribution} {outs slots : Nat → List Buffer}
  {input : Nat → Buffer} {t : ElementType} {b : Buffer}

/-- How the ranks have planned their all-gathers, and into which slots they receive. -/
structure AllgathersPlanned (n : Nat) (group : Nat → Group) (visit : Nat → Visit) (outs slots : Nat → List Buffer)
    (input : Nat → Buffer) : Prop where
  plans : ∀ q < n, (visit q).plan.Collects n (outs q) (slots q) (input q) (visit q).found (visit q).planned
  modes : ∀ q < n, ((group q).mode = .vector ↔ (visit q).plan.copyOut = none)

theorem Met.exists_allgathersPlanned (hm : Met n group what visit r e e' cs) (hn : 0 < n)
    (hcalls : AllgatherCalls n what outs input t) (hfits : ∀ q < n, RowsFit n (outs q) (input q)) :
    ∃ slots, AllgathersPlanned n group visit outs slots input := by
  have hplans : ∀ q < n, ∃ slots, (visit q).plan.Collects n (outs q) slots (input q) (visit q).found
      (visit q).planned ∧ ((group q).mode = .vector ↔ (visit q).plan.copyOut = none) := by
    intro q hq
    have hplanned := hm.planned q hq
    have hrun := hplanned.planned
    have hobtained := hplanned.obtained
    rw [hcalls.calls q hq] at hrun hobtained
    have hfit := hfits q hq
    rw [← hplanned.size] at hfit ⊢
    exact Group.exists_slots hfit (fun b hb => (hobtained b hb).sound) hplanned.bounded hrun
  obtain ⟨slots, hslots⟩ := exists_family hn hplans
  exact ⟨slots, fun q hq => (hslots q hq).1, fun q hq => (hslots q hq).2⟩

/-- Outputs lie in memory that was not made for a call. -/
theorem Met.not_made_of_output (hm : Met n group what visit r e e' cs) (hcalls : AllgatherCalls n what outs input t)
    {p : Nat} (hlt : p < n) (hq : q < n) (hb : b ∈ outs q) (hh : b.Holds block pos) : ¬(visit p).Made block :=
  hm.foreign p hlt q hq b (hcalls.output_mem hq hb) block pos hh

/-- What a rank found when it called is still there. -/
theorem Met.extends_found (hm : Met n group what visit r e e' cs) (hq : q < n) :
    (visit q).found.heap.Extends (visit r).planned.heap :=
  (((group q).plan_extends (what q)).of_run (hm.planned q hq).planned).trans (hm.later q hq)

/-- Planning leaves the operands as they were at the last call. -/
theorem Met.byte?_operand (hm : Met n group what visit r e e' cs) (hq : q < n) (hb : b ∈ (what q).operands)
    (hh : b.Holds block pos) :
    (visit r).planned.heap.byte? block pos = e.machine.store.heap.byte? block pos :=
  hm.grows.kept block pos ((hm.sound q hq b hb).lt_size hh)

namespace AllgathersPlanned

variable (hp : AllgathersPlanned n group visit outs slots input)

include hp

/-- The outputs lie in memory when the last call has been planned. -/
theorem output_plain (hm : Met n group what visit r e e' cs) (hq : q < n) :
    ∀ b ∈ outs q, b.Solid (visit r).planned.heap (input q).count ∧ b.dtype = (input q).dtype := by
  intro b hb
  obtain ⟨hsolid, htype⟩ := (hp.plans q hq).plain b hb
  exact ⟨hsolid.later (hm.extends_found hq), htype⟩

/-- The contributions are those that were planned. -/
theorem collection (hm : Met n group what visit r e e' cs) (hcalls : AllgatherCalls n what outs input t) :
    Collection n t input slots (visit r).planned.heap cs := by
  constructor
  · exact hm.gathered
  · exact fun q hq => ⟨(hp.plans q hq).sent.later (hm.extends_found hq), hcalls.typed q hq⟩
  · intro q hq b hb
    obtain ⟨hsolid, htype⟩ := (hp.plans q hq).slot b hb
    exact ⟨hsolid.later (hm.later q hq), htype.trans (hcalls.typed q hq)⟩
  · intro q hq
    obtain ⟨call, c, hcall, hc, hentry⟩ := hm.contributed q hq
    obtain ⟨c', hc', -, hcollects⟩ := (hp.plans q hq).asks call hcall
    obtain rfl : c = c' := Except.ok.inj (hc.symm.trans hc')
    exact ⟨c, hentry, hcollects⟩

/-- The ranks agree exactly if their inputs have the same count. -/
theorem agree_iff (hm : Met n group what visit r e e' cs) (hcalls : AllgatherCalls n what outs input t) (hn : 0 < n) :
    Agree cs ↔ SameCounts n 0 input := by
  rw [(hp.collection hm hcalls).agree_iff]
  exact ⟨fun h q hq => h q hq 0 hn, fun h i hi j hj => (h i hi).trans (h j hj).symm⟩

/-- A slot is new, or it is an output that is received into directly. -/
theorem slot_cases (hq : q < n) (hb : b ∈ slots q) (hh : b.Holds block pos) :
    (visit q).Made block ∨ b ∈ outs q ∧ (visit q).plan.copyOut = none := by
  cases hcopy : (visit q).plan.copyOut with
  | none => exact .inr ⟨(hp.plans q hq).direct hcopy ▸ hb, rfl⟩
  | some copyOut => exact .inl (((hp.plans q hq).staged copyOut hcopy).2.2 b hb block pos hh)

/-- Slots of different ranks are apart. -/
theorem slot_apart (hm : Met n group what visit r e e' cs) (hcalls : AllgatherCalls n what outs input t) {p : Nat}
    (hlt : p < n) (hq : q < n) (hne : p ≠ q) {c : Buffer} (hb : b ∈ slots p) (hc : c ∈ slots q) : b.Apart c := by
  intro block pos hh hh'
  rcases hp.slot_cases hlt hb hh with hmade | ⟨hout, -⟩
  · rcases hp.slot_cases hq hc hh' with hmade' | ⟨hout', -⟩
    · exact hm.apart p hlt q hq hne block hmade hmade'
    · exact hm.not_made_of_output hcalls hlt hq hout' hh' hmade
  · rcases hp.slot_cases hq hc hh' with hmade' | ⟨hout', -⟩
    · exact hm.not_made_of_output hcalls hq hlt hout hh hmade'
    · exact hcalls.between p hlt q hq hne b hout c hout' block pos hh hh'

/-- Nothing is received into the outputs of a rank that copies out. -/
theorem slot_apart_of_staged (hm : Met n group what visit r e e' cs) (hcalls : AllgatherCalls n what outs input t)
    {p : Nat} (hlt : p < n) (hq : q < n) (hcopy : (visit q).plan.copyOut ≠ none) {c : Buffer} (hc : c ∈ slots p)
    (hb : b ∈ outs q) : c.Apart b := by
  intro block pos hh hh'
  rcases hp.slot_cases hlt hc hh with hmade | ⟨hout, hdirect⟩
  · exact hm.not_made_of_output hcalls hlt hq hb hh' hmade
  · have hne : p ≠ q := fun h => hcopy (h ▸ hdirect)
    exact hcalls.between p hlt q hq hne c hout b hb block pos hh hh'

/-- What is sent is what was in the inputs at the last call. -/
theorem inputBlocks_planned (hm : Met n group what visit r e e' cs) (hcalls : AllgatherCalls n what outs input t) :
    inputBlocks n input (visit r).planned.heap = inputBlocks n input e.machine.store.heap := by
  refine List.map_congr_left fun i hi => ?_
  have hi := List.mem_range.mp hi
  apply ((hp.collection hm hcalls).sent i hi).1.bytes_congr
  exact fun block pos hh => hm.byte?_operand hi (hcalls.input_mem hi) hh

/-- The last call leaves every slot with the input for it, written in the order of the ranks. -/
theorem byte?_slot (hm : Met n group what visit r e e' cs) (hcalls : AllgatherCalls n what outs input t) (ha : Agree cs)
    (hq : q < n) (hb : b ∈ slots q) (hh : b.Holds block pos) : e'.machine.store.heap.byte? block pos =
      ((visit r).planned.heap.deliver
        (landings (slots q) (inputBlocks n input e.machine.store.heap))).byte? block pos := by
  rw [hm.performed, (hp.collection hm hcalls).byte?_after ha hq ⟨b, hb, hh⟩ fun p hlt hne c hc hh' => ?_,
    Heap.gatherInto, hp.inputBlocks_planned hm hcalls]
  exact hp.slot_apart hm hcalls hlt hq hne hc hb block pos hh' hh

/-- The outputs of a rank that receives directly are then what they are to be. -/
theorem byte?_direct (hm : Met n group what visit r e e' cs) (hcalls : AllgatherCalls n what outs input t)
    (ha : Agree cs) (hq : q < n) (hcopy : (visit q).plan.copyOut = none) (hb : b ∈ outs q) (hh : b.Holds block pos) :
    e'.machine.store.heap.byte? block pos =
      (e.machine.store.heap.gatherInto (outs q) n input).byte? block pos := by
  have hsame := (hp.plans q hq).direct hcopy
  rw [hp.byte?_slot hm hcalls ha hq (hsame.symm ▸ hb) hh, hsame]
  exact Heap.byte?_deliver_congr (hm.byte?_operand hq (hcalls.output_mem hq hb) hh)

/-- Those of a rank that copies out are still as they were. -/
theorem byte?_staged (hm : Met n group what visit r e e' cs) (hcalls : AllgatherCalls n what outs input t) (hq : q < n)
    (hcopy : (visit q).plan.copyOut ≠ none) (hb : b ∈ outs q) (hh : b.Holds block pos) :
    e'.machine.store.heap.byte? block pos = e.machine.store.heap.byte? block pos := by
  rw [hm.performed, (hp.collection hm hcalls).byte?_after_of_not_holds fun p hlt c hc hh' => ?_]
  · exact hm.byte?_operand hq (hcalls.output_mem hq hb) hh
  · exact hp.slot_apart_of_staged hm hcalls hlt hq hcopy hc hb block pos hh' hh

/-- Outside outputs, and blocks that were made, the last call leaves memory as it found it. -/
theorem byte?_elsewhere (hm : Met n group what visit r e e' cs) (hcalls : AllgatherCalls n what outs input t)
    (hr : r < n) (hmade : ∀ q < n, ¬(visit q).Made block)
    (hout : ∀ q < n, ∀ b ∈ outs q, ¬b.Holds block pos) :
    e'.machine.store.heap.byte? block pos = e.machine.store.heap.byte? block pos := by
  rw [hm.performed, (hp.collection hm hcalls).byte?_after_of_not_holds fun q hq b hb hh => ?_,
    hm.byte?_planned hr hmade]
  rcases hp.slot_cases hq hb hh with h | ⟨h, -⟩
  · exact hmade q hq h
  · exact hout q hq b h hh

/-- The slots of a rank that copies out have what all ranks have sent. -/
theorem bytes_slots (hm : Met n group what visit r e e' cs) (hcalls : AllgatherCalls n what outs input t)
    (ha : Agree cs) (hq : q < n) {copyOut : CopyOut} (hcopy : (visit q).plan.copyOut = some copyOut) :
    (slots q).map (Buffer.bytes · e'.machine.store.heap) = inputBlocks n input e.machine.store.heap := by
  have hc := hp.collection hm hcalls
  have hslots := hc.slot q hq
  have hlengths := hc.length_block ha hq
  rw [hp.inputBlocks_planned hm hcalls] at hlengths
  ext1 i
  rw [List.getElem?_map]
  cases hi : (slots q)[i]? with
  | none =>
    have hout := List.getElem?_eq_none_iff.mp hi
    rw [(hp.plans q hq).slotted] at hout
    rw [Option.map_none, List.getElem?_eq_none (by rwa [length_inputBlocks])]
  | some b =>
    have hb := List.mem_of_getElem? hi
    have hlt : i < n := (hp.plans q hq).slotted ▸ (List.getElem?_eq_some_iff.mp hi).1
    have hblock := getElem?_inputBlocks hlt input e.machine.store.heap
    rw [Option.map_some, hblock, Option.some.injEq, (hslots b hb).1.bytes_congr fun block pos hh =>
      hp.byte?_slot hm hcalls ha hq hb hh]
    refine bytes_landings (k := (input q).count) (fun b hb => ?_) ((hp.plans q hq).staged copyOut hcopy).2.1 hi hblock
    obtain ⟨hsolid, htype⟩ := hslots b hb
    exact ⟨hsolid, htype ▸ hlengths⟩

end AllgathersPlanned

end Assembly

end Collectives
