import Collectives.Proofs.Allgathers

/-!
# Flat and vector mode

Whether a rank of an all-gather receives into its outputs or into a region of its own, and whatever mode the other ranks
are in, its outputs are left with the inputs as they were when the last rank called, one after the other in the order of
the ranks. So outputs that overlap each other, or the rank's input, also end up the same in both modes.
-/

namespace Collectives

/-- What is gathered into buffers depends on the inputs, and on what is in the buffers. -/
theorem Heap.byte?_gatherInto_congr {h h' : Heap} {buffers : List Buffer} {n block pos : Nat} {input : Nat → Buffer}
    (hinput : inputBlocks n input h = inputBlocks n input h') (hsame : h.byte? block pos = h'.byte? block pos) :
    (h.gatherInto buffers n input).byte? block pos = (h'.gatherInto buffers n input).byte? block pos := by
  rw [gatherInto, gatherInto, hinput]
  exact byte?_deliver_congr hsame

/-- What ranks find that wait after the last call, if their inputs have the same count. -/
structure AllGathered (n : Nat) (group : Nat → Group) (visit : Nat → Visit) (outs : Nat → List Buffer)
    (input : Nat → Buffer) (quiet : Nat → Nat → Prop) (h : Heap) (done : List Nat) (m : Machine Fabric) : Prop where
  succeeds : Dispersal.Succeeds n visit outs quiet h done m
  /-- Once a rank has waited, or at once in vector mode, its outputs are as they were at the last call but for the
  inputs of all ranks, as these were then, written to them one after the other. -/
  landed : ∀ q < n, q ∈ done ∨ (group q).mode = .vector → ∀ b ∈ outs q, ∀ block pos, b.Holds block pos →
    m.store.heap.byte? block pos = (h.gatherInto (outs q) n input).byte? block pos
  /-- So each output is the input of its rank, if none overlaps another. -/
  gathered : ∀ q < n, q ∈ done ∨ (group q).mode = .vector → (outs q).Pairwise Buffer.Apart →
    ∀ i < n, ∀ b, (outs q)[i]? = some b → b.words m.store.heap = (input i).words h

namespace Assembly

variable {n comm k r q i block pos : Nat} {group : Nat → Group} {what : Nat → Collective Buffer} {visit : Nat → Visit}
  {arrived : List Nat} {e e' : Engine Fabric} {cs : List Contribution} {outs slots : Nat → List Buffer}
  {input : Nat → Buffer} {t : ElementType} {b : Buffer}

/-- Wherever else the ranks make the same calls, in whichever modes, on memory that has the same in their buffers when
the last one calls, they are left with the same in their outputs. -/
def SameInAllModes (n : Nat) (what : Nat → Collective Buffer) (outs : Nat → List Buffer) (visit : Nat → Visit)
    (e e' : Engine Fabric) : Prop :=
  ∀ comm' k' group' visit' arrived' r' e₁ e₁', Assembly n comm' k' group' what visit' arrived' e₁.machine →
    Joins n comm' k' group' what visit' arrived' r' e₁ e₁' → (∀ q < n, q ≠ r' → q ∈ arrived') →
    (∀ q < n, ∀ b ∈ (what q).operands, ∀ block pos, b.Holds block pos →
      e₁.machine.store.heap.byte? block pos = e.machine.store.heap.byte? block pos) →
    ∀ quiet done done' m m', (∀ q < n, ∀ b ∈ outs q, ∀ block pos, b.Holds block pos → quiet block pos) →
      Dispersal n visit quiet e'.machine done m → Dispersal n visit' quiet e₁'.machine done' m' →
      ∀ q < n, q ∈ done → q ∈ done' → ∀ b ∈ outs q, ∀ block pos, b.Holds block pos →
        m'.store.heap.byte? block pos = m.store.heap.byte? block pos

namespace AllgathersPlanned

variable (hp : AllgathersPlanned n group visit outs slots input) (hm : Met n group what visit r e e' cs)
  (hcalls : AllgatherCalls n what outs input t) (ha : Agree cs)

include hp hm hcalls ha

/-- A rank that copies out is left with what a rank that receives directly is. -/
theorem await_staged (hq : q < n) {copyOut : CopyOut} (hcopy : (visit q).plan.copyOut = some copyOut) {s : Store}
    (hx : e'.machine.store.heap.Extends s.heap)
    (huntouched : ∀ block pos, ((visit q).Made block ∨ ∃ b ∈ outs q, b.Holds block pos) →
      s.heap.byte? block pos = e'.machine.store.heap.byte? block pos) :
    ∃ s', copyOut.run.run s = (.ok (), s') ∧ s.heap.Extends s'.heap ∧
      (∀ b ∈ outs q, ∀ block pos, b.Holds block pos →
        s'.heap.byte? block pos = (e.machine.store.heap.gatherInto (outs q) n input).byte? block pos) ∧
      ∀ block pos, (∀ b ∈ outs q, ¬b.Holds block pos) → s'.heap.byte? block pos = s.heap.byte? block pos := by
  obtain ⟨hruns, -, hmade⟩ := (hp.plans q hq).staged copyOut hcopy
  have hlater := hm.extends_performed.trans hx
  have hbounded := hlater.bounded hm.bounded
  have hslots := (hp.collection hm hcalls).slot q hq
  have houts : ∀ b ∈ outs q, b.Solid s.heap (input q).count ∧ b.dtype = t := by
    intro b hb
    obtain ⟨hsolid, htype⟩ := hp.output_plain hm hq b hb
    exact ⟨hsolid.later hlater, htype.trans (hcalls.typed q hq)⟩
  have hcopyable : FlatLayout.Copyable s.heap ((outs q).zip (slots q)) := by
    rintro ⟨b, c⟩ hmem
    obtain ⟨hb, hc⟩ := List.of_mem_zip hmem
    obtain ⟨hb, htype⟩ := houts b hb
    obtain ⟨hc, htype'⟩ := hslots c hc
    exact ⟨htype'.trans htype.symm, _, hb, hc.later hlater⟩
  have hsources : ∀ p ∈ (outs q).zip (slots q), ∀ p' ∈ (outs q).zip (slots q), p.1.Apart p'.2 := by
    intro p hmem p' hmem' block pos hh hh'
    have hblock := hmade _ (List.of_mem_zip hmem').2 block pos hh'
    exact hm.not_made_of_output hcalls hq hq (List.of_mem_zip hmem).1 hh hblock
  obtain ⟨s', hrun, hkept⟩ := FlatLayout.copyAll_ok hcopyable.matches hbounded
  have hblocks : (slots q).map (Buffer.bytes · s.heap) = inputBlocks n input e.machine.store.heap := by
    rw [← hp.bytes_slots hm hcalls ha hq hcopy]
    refine List.map_congr_left fun c hc => (hslots c hc).1.bytes_congr fun block pos hh => ?_
    exact huntouched block pos (.inl (hmade c hc block pos hh))
  refine ⟨s', (hruns s).trans hrun, (FlatLayout.copyAll_extends _).of_run hrun, fun b hb block pos hh => ?_,
    fun block pos hout => hkept block pos fun p hmem => hout p.1 (List.of_mem_zip hmem).1⟩
  rw [FlatLayout.copyAll_writes hcopyable hbounded hsources hrun, map_zip_eq_landings, hblocks]
  apply Heap.byte?_deliver_congr
  rw [huntouched block pos (.inr ⟨b, hb, hh⟩)]
  exact hp.byte?_staged hm hcalls hq (by simp [hcopy]) hb hh

/-- What the waits leave. -/
theorem leaving : Leaving n visit e'.machine.store.heap (fun q block pos => ∃ b ∈ outs q, b.Holds block pos)
    fun q h => ∀ b ∈ outs q, ∀ block pos, b.Holds block pos →
      h.byte? block pos = (e.machine.store.heap.gatherInto (outs q) n input).byte? block pos := by
  constructor
  · intro e₁ q hq hs hd hx huntouched
    cases hcopy : (visit q).plan.copyOut with
    | none =>
      obtain ⟨e₂, hrun, hheap, hd'⟩ := Visit.await_in_place hd hq hs hcopy
      refine ⟨e₂, ⟨hrun, fun h => absurd hcopy h⟩, hd', ?_⟩
      rw [hheap]
      refine ⟨.refl _, fun b hb block pos hh => ?_, fun _ _ _ => rfl⟩
      rw [huntouched block pos (.inr ⟨b, hb, hh⟩)]
      exact hp.byte?_direct hm hcalls ha hq hcopy hb hh
    | some copyOut =>
      obtain ⟨s, hs', hfinish⟩ := Visit.await_staged hd hq hs hcopy
      rw [← hs'] at hx huntouched ⊢
      obtain ⟨s', hrun, hx', hlanded, hkept⟩ := hp.await_staged hm hcalls ha hq hcopy hx huntouched
      obtain ⟨e₂, hadvance, hawait, hstore, hd'⟩ := hfinish s' hrun
      subst hstore
      exact ⟨e₂, ⟨hawait, fun _ => hadvance⟩, hd', hx', hlanded,
        fun block pos hout => hkept block pos fun b hb hh => hout ⟨b, hb, hh⟩⟩
  · intro q hq h h' hsame hleft b hb block pos hh
    rw [hsame block pos ⟨b, hb, hh⟩]
    exact hleft b hb block pos hh
  · rintro p hlt q hq hne block pos ⟨b, hb, hh⟩ ⟨c, hc, hh'⟩
    exact hcalls.between p hlt q hq hne b hb c hc block pos hh hh'
  · rintro p hlt q hq block pos ⟨b, hb, hh⟩
    exact hm.not_made_of_output hcalls hlt hq hb hh

/-- The outputs of a rank into which the inputs were written one after the other each have theirs, if they are apart. -/
theorem words_gatherInto (hq : q < n) (happart : (outs q).Pairwise Buffer.Apart) (hi : i < n)
    (hb : (outs q)[i]? = some b) {h : Heap} (hsame : ∀ block pos, b.Holds block pos →
      h.byte? block pos = (e.machine.store.heap.gatherInto (outs q) n input).byte? block pos) :
    b.words h = (input i).words e.machine.store.heap := by
  have hc := hp.collection hm hcalls
  have hsolid : ∀ b ∈ outs q, b.Solid e.machine.store.heap (input q).count ∧
      ∀ data ∈ inputBlocks n input e.machine.store.heap, data.length = (input q).count * b.dtype.width := by
    intro b hb
    obtain ⟨hplain, htype⟩ := hp.output_plain hm hq b hb
    have hlength := hc.length_block ha hq
    rw [hp.inputBlocks_planned hm hcalls] at hlength
    refine ⟨.of_sound (hm.sound q hq b (hcalls.output_mem hq hb)) hplain.counted hplain.contiguous, ?_⟩
    rwa [htype, hcalls.typed q hq]
  obtain ⟨hplain, htype⟩ := hp.output_plain hm hq b (List.mem_of_getElem? hb)
  obtain ⟨hsent, htype'⟩ := hc.sent i hi
  rw [hc.agree_iff.mp ha i hi q hq] at hsent
  refine hplain.words_of_bytes hsent (htype'.trans (htype.trans (hcalls.typed q hq)).symm) ?_
  rw [hplain.bytes_congr hsame]
  exact bytes_landings hsolid happart hb (getElem?_inputBlocks hi ..)

/-- The ranks are left with the inputs, in whichever modes they are. -/
theorem gathered (hr : r < n) {quiet : Nat → Nat → Prop} {done : List Nat} {m : Machine Fabric}
    (hquiet : ∀ q < n, ∀ b ∈ outs q, ∀ block pos, b.Holds block pos → quiet block pos)
    (hd : Dispersal n visit quiet e'.machine done m) :
    AllGathered n group visit outs input quiet e.machine.store.heap done m := by
  have hl := hp.leaving hm hcalls ha
  have hquiet' : ∀ q < n, ∀ block pos, (∃ b ∈ outs q, b.Holds block pos) → quiet block pos := by
    rintro q hq block pos ⟨b, hb, hh⟩
    exact hquiet q hq b hb block pos hh
  have hst := hm.standing ha hl hquiet' hd
  have hlanded : ∀ q < n, q ∈ done ∨ (group q).mode = .vector → ∀ b ∈ outs q, ∀ block pos, b.Holds block pos →
      m.store.heap.byte? block pos = (e.machine.store.heap.gatherInto (outs q) n input).byte? block pos := by
    intro q hq hready b hb block pos hh
    by_cases hdone : q ∈ done
    · exact hst.left q hdone b hb block pos hh
    · rw [hst.untouched hl hquiet' hq hdone block pos (.inr ⟨b, hb, hh⟩)]
      exact hp.byte?_direct hm hcalls ha hq ((hp.modes q hq).mp (hready.resolve_left hdone)) hb hh
  constructor
  · apply Met.succeeds hst hl hquiet'
    · exact fun q hq block pos hh => hh
    · exact fun block pos => hp.byte?_elsewhere hm hcalls hr
  · exact hlanded
  · intro q hq hready happart i hi b hb
    exact hp.words_gatherInto hm hcalls ha hq happart hi hb (hlanded q hq hready b (List.mem_of_getElem? hb))

/-- In other modes they are left with the same. -/
theorem sameInAllModes (hr : r < n) (hfits : ∀ q < n, RowsFit n (outs q) (input q)) :
    SameInAllModes n what outs visit e e' := by
  intro comm' k' group' visit' arrived' r' e₁ e₁' h₁ hj₁ hlast₁ hsame quiet done done' m m' hquiet hd hd'
  have hn := Nat.zero_lt_of_lt hr
  obtain ⟨cs₁, hm₁⟩ := h₁.exists_met hj₁ hlast₁
  obtain ⟨slots₁, hp₁⟩ := hm₁.exists_allgathersPlanned hn hcalls hfits
  have ha₁ := (hp₁.agree_iff hm₁ hcalls hn).mpr ((hp.agree_iff hm hcalls hn).mp ha)
  have hg := hp.gathered hm hcalls ha hr hquiet hd
  have hg₁ := hp₁.gathered hm₁ hcalls ha₁ hj₁.rank hquiet hd'
  intro q hq hdone hdone' b hb block pos hh
  rw [hg.landed q hq (.inl hdone) b hb block pos hh, hg₁.landed q hq (.inl hdone') b hb block pos hh]
  apply Heap.byte?_gatherInto_congr
  · refine List.map_congr_left fun i hi => ?_
    have hi := List.mem_range.mp hi
    exact ((hp.collection hm hcalls).sent i hi).1.bytes_congr (hsame i hi _ (hcalls.input_mem hi))
  · exact hsame q hq b (hcalls.output_mem hq hb) block pos hh

end AllgathersPlanned

/-- The handle of a rank is pending exactly if it is in vector mode. -/
theorem AllgathersPlanned.handles (hp : AllgathersPlanned n group visit outs slots input) :
    AllgatherHandles n group visit := by
  constructor
  · exact fun q hq hmode => Visit.ongoing_of_inPlace ((hp.modes q hq).mp hmode)
  · refine fun q hq hmode => Visit.exists_ongoing_of_staged fun hcopy => ?_
    have hvector := (hp.modes q hq).mpr hcopy
    rw [hmode] at hvector
    cases hvector

/-- In an all-gather that fits a rank whose call passes the checks is answered, and no call but the last changes what
was there. If all inputs have the same count, each rank is left with all of them, in the order of the ranks, in
whichever modes the ranks are, and nothing else has changed; if not, every wait fails, and nothing has changed. -/
theorem gathered_in_both_modes (h : Assembly n comm k group what visit arrived e.machine) (hr : r < n)
    (hcalls : AllgatherCalls n what outs input t) (hfits : ∀ q < n, (group q).FitsFlat (what q)) :
    ((group r).Passes (what r) comm r e → (group r).AnswersCall (what r) comm r e) ∧
      ∀ e', Joins n comm k group what visit arrived r e e' →
        ((∃ q < n, q ≠ r ∧ q ∉ arrived) → e.machine.store.heap.Grows e'.machine.store.heap) ∧
          ((∀ q < n, q ≠ r → q ∈ arrived) → AllgatherHandles n group visit ∧
            (SameCounts n 0 input → SameInAllModes n what outs visit e e' ∧ ∀ quiet done m,
              (∀ q < n, ∀ b ∈ outs q, ∀ block pos, b.Holds block pos → quiet block pos) →
              Dispersal n visit quiet e'.machine done m →
              AllGathered n group visit outs input quiet e.machine.store.heap done m) ∧
            (¬SameCounts n 0 input → ∀ quiet done m, Dispersal n visit quiet e'.machine done m →
              Dispersal.Fails n visit "allgather" quiet e.machine.store.heap done m)) := by
  have hn := Nat.zero_lt_of_lt hr
  have htrades : ∀ q < n, (group q).Trades (what q) := by
    intro q hq
    have hfit := hfits q hq
    rw [hcalls.calls q hq] at hfit ⊢
    exact (group q).trades_allgather hfit
  refine ⟨h.answers htrades hr, fun e' hj => ⟨fun hwaits => (h.heap_of_waiting hj hwaits).2, fun hlast => ?_⟩⟩
  obtain ⟨cs, hm⟩ := h.exists_met hj hlast
  have hrows : ∀ q < n, RowsFit n (outs q) (input q) := by
    intro q hq
    have hfit := hfits q hq
    rw [hcalls.calls q hq] at hfit
    exact (hm.planned q hq).size ▸ hfit.rowsFit
  obtain ⟨slots, hp⟩ := hm.exists_allgathersPlanned hn hcalls hrows
  have hagree := hp.agree_iff hm hcalls hn
  refine ⟨hp.handles, fun hmatch => ?_, fun hdiffer quiet done m hd => ?_⟩
  · have ha := hagree.mpr hmatch
    exact ⟨hp.sameInAllModes hm hcalls ha hr hrows, fun quiet done m => hp.gathered hm hcalls ha hr⟩
  · exact hm.dispersal_fails hr (fun ha => hdiffer (hagree.mp ha)) hd fun q hq => (hp.plans q hq).operation

/-- Two ranks, the first in flat mode and the second in vector mode. -/
def pairModes (rank : Nat) : Group := { pairGroup rank with mode := if rank = 0 then .flat else .vector }

/-- The outputs of the first are in disorder and overlap its input, those of the second are one byte. -/
def pairTargets (rank : Nat) : List Buffer := if rank = 0 then pairOuts else [pairPart 1 0 1, pairPart 1 0 1]

/-- Each is left with a byte of each, one after the other. -/
theorem gathered_in_both_modes_mixed :
    ∃ visit arrived e e' r m,
      Assembly 2 0 0 pairModes (fun q => .allgather [pairTargets q] [pairPart q (2 * q) 1]) visit arrived e.machine ∧
      Joins 2 0 0 pairModes (fun q => .allgather [pairTargets q] [pairPart q (2 * q) 1]) visit arrived r e e' ∧
      e.machine.store.heap = pairHeaps 1 ∧ Dispersal 2 visit (fun _ _ => True) e'.machine [1, 0] m ∧
      (pairTargets 0).map (·.words m.store.heap) = [[1], [6]] ∧ m.store.heap.byte? 1 0 = some 6 := by
  let input (q : Nat) : Buffer := pairPart q (2 * q) 1
  let what (q : Nat) : Collective Buffer := .allgather [pairTargets q] [input q]
  have hparts : ∀ q < 2, ∀ b ∈ (what q).operands, ∃ start, start + 1 ≤ 3 ∧ b = pairPart q start 1 := by
    intro q hq b hmem
    obtain rfl | rfl : q = 0 ∨ q = 1 := by omega
    · have hsame : b = pairPart 0 1 1 ∨ b = pairPart 0 0 1 := by
        simpa [what, input, Collective.operands, pairTargets, pairOuts] using hmem
      obtain rfl | rfl := hsame
      · exact ⟨1, by decide, rfl⟩
      · exact ⟨0, by decide, rfl⟩
    · have hsame : b = pairPart 1 0 1 ∨ b = pairPart 1 2 1 := by
        simpa [what, input, Collective.operands, pairTargets] using hmem
      obtain rfl | rfl := hsame
      · exact ⟨0, by decide, rfl⟩
      · exact ⟨2, by decide, rfl⟩
  have hcalls : AllgatherCalls 2 what pairTargets input .i8 := by
    refine ⟨fun q _ => rfl, fun q _ => rfl, fun p hlt q hq hne b hb c hc => ?_⟩
    have hmem {q : Nat} {b : Buffer} (hb : b ∈ pairTargets q) : b ∈ (what q).operands := by
      simp [what, Collective.operands, hb]
    obtain ⟨start, -, rfl⟩ := hparts p hlt b (hmem hb)
    obtain ⟨start', -, rfl⟩ := hparts q hq c (hmem hc)
    exact pairPart_apart (.inl hne)
  have hfits : ∀ q < 2, (pairModes q).FitsFlat (what q) := by
    intro q hq
    obtain rfl | rfl : q = 0 ∨ q = 1 := by omega
    · exact ⟨{ heap := pairHeap }, _, _, _, pairHeap_bounded, rfl, rfl, rfl⟩
    · exact ⟨{ heap := pairHeap }, _, _, _, pairHeap_bounded, rfl, rfl, rfl⟩
  have hprepared : Prepared 2 pairModes what fun q => if q = 0 then pairHeap else pairHeaps 1 := by
    refine ⟨pairHeap_bounded, fun q hq b hmem => ?_, fun q _ => rfl,
      fun q hq => (pairModes q).trades_allgather (hfits q hq), ?_⟩
    · obtain ⟨start, hin, rfl⟩ := hparts q hq b hmem
      exact obtained_pairPart hq hin
    · rintro q hq ⟨_, journal⟩ rfl
      obtain rfl | rfl : q = 0 ∨ q = 1 := by omega
      · exact ⟨_, _, _, rfl, rfl, rfl⟩
      · exact ⟨_, _, _, rfl, rfl, rfl⟩
  have hmatch : SameCounts 2 0 input := fun q _ => rfl
  obtain ⟨visit, arrived, e, e', r, hassembly, hjoins, hlast, hheap, -⟩ := hprepared.exists_last (by decide)
  obtain ⟨m, hd⟩ := Dispersal.exists_all 2 visit (fun _ _ => True) e'.machine
  obtain ⟨-, hjoined⟩ := hassembly.gathered_in_both_modes hjoins.rank hcalls hfits
  obtain ⟨-, hdone⟩ := hjoined e' hjoins
  have hgathered := ((hdone hlast).2.1 hmatch).2 _ _ m (fun _ _ _ _ _ _ _ => trivial) hd
  have hheap : e.machine.store.heap = pairHeaps 1 := hheap
  refine ⟨visit, arrived, e, e', r, m, hassembly, hjoins, hheap, hd, ?_, ?_⟩
  · have happart : (pairTargets 0).Pairwise Buffer.Apart :=
      List.pairwise_pair.mpr (pairPart_apart (.inr (.inr (by decide))))
    have hfirst := hgathered.gathered 0 (by decide) (.inl (by decide)) happart 0 (by decide) _ rfl
    have hsecond := hgathered.gathered 0 (by decide) (.inl (by decide)) happart 1 (by decide) _ rfl
    rw [hheap] at hfirst hsecond
    exact congrArg₂ (fun a b => [a, b]) hfirst hsecond
  · have hheld : (pairPart 1 0 1).Holds 1 0 := ⟨0, by decide, rfl, le_rfl, Nat.one_pos⟩
    have hbyte := hgathered.landed 1 (by decide) (.inr rfl) (pairPart 1 0 1) (by simp [pairTargets]) 1 0 hheld
    rw [hheap] at hbyte
    exact hbyte

end Assembly

end Collectives
