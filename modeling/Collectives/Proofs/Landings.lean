import Collectives.Proofs.Exchanges

/-!
# Blocks that land in order

A gather to all puts the blocks of all ranks where a rank wants them, in the order of the ranks, and the rows of a
region are copied out in that order. Where the places overlap the later block prevails; where they do not, each place
is left with its block.
-/

namespace Collectives

/-- Blocks of bytes, each to where a buffer begins. -/
def landings (buffers : List Buffer) (blocks : List Bytes) : List Delivery :=
  buffers.zipWith (fun b block => (b.place b.offset, block)) blocks

/-- What the ranks have in their inputs, in the order of the ranks. -/
def inputBlocks (n : Nat) (input : Nat → Buffer) (h : Heap) : List Bytes :=
  (List.range n).map fun i => (input i).bytes h

/-- Memory after the inputs of `n` ranks, as they are, have been written to buffers one after the other. -/
def Heap.gatherInto (h : Heap) (buffers : List Buffer) (n : Nat) (input : Nat → Buffer) : Heap :=
  h.deliver (landings buffers (inputBlocks n input h))

section Landing

variable {buffers : List Buffer} {blocks : List Bytes} {h : Heap} {k i block pos : Nat}

/-- Buffers and blocks are paired in order. -/
theorem landings_eq_zip (buffers : List Buffer) (blocks : List Bytes) :
    landings buffers blocks = (buffers.map fun b => b.place b.offset).zip blocks := by
  simp [landings, List.zip, List.zipWith_map_left]

theorem getElem?_inputBlocks {n : Nat} (hi : i < n) (input : Nat → Buffer) (h : Heap) :
    (inputBlocks n input h)[i]? = some ((input i).bytes h) := by
  simp [inputBlocks, hi]

theorem length_inputBlocks (n : Nat) (input : Nat → Buffer) (h : Heap) : (inputBlocks n input h).length = n := by
  simp [inputBlocks]

/-- What is copied from one list of buffers to another lands there. -/
theorem map_zip_eq_landings (targets sources : List Buffer) (h : Heap) :
    ((targets.zip sources).map fun p => (p.1.place p.1.offset, p.2.bytes h)) =
      landings targets (sources.map (Buffer.bytes · h)) := by
  simp [landings, List.zip, List.map_zipWith, List.zipWith_map_right]

/-- A block that is no longer than its buffer lands within it. -/
theorem exists_holds_of_landing (hb : ∀ b ∈ buffers, b.Solid h k ∧ ∀ block ∈ blocks, block.length ≤ k * b.dtype.width)
    {d : Delivery} (hd : d ∈ landings buffers blocks) (hcovers : d.1.Covers d.2.length block pos) :
    ∃ b ∈ buffers, b.Holds block pos := by
  rw [landings_eq_zip] at hd
  obtain ⟨hplace, hblock⟩ := List.of_mem_zip hd
  obtain ⟨b, hmem, hb'⟩ := List.mem_map.mp hplace
  obtain ⟨hsolid, hlength⟩ := hb b hmem
  rw [← hb'] at hcovers
  exact ⟨b, hmem, hsolid.holds_iff.mpr (hcovers.mono (hlength _ hblock))⟩

/-- In buffers that are apart each block is read back. -/
theorem bytes_landings {b : Buffer} {data : Bytes}
    (hb : ∀ b ∈ buffers, b.Solid h k ∧ ∀ block ∈ blocks, block.length = k * b.dtype.width)
    (happart : buffers.Pairwise Buffer.Apart) (hi : buffers[i]? = some b) (hdata : blocks[i]? = some data) :
    b.bytes (h.deliver (landings buffers blocks)) = data := by
  obtain ⟨hsolid, hlength⟩ := hb b (List.mem_of_getElem? hi)
  have hlength := hlength data (List.mem_of_getElem? hdata)
  rw [Buffer.bytes, hsolid.count_eq, ← hlength]
  rcases Nat.eq_zero_or_pos k with rfl | hpos
  · rw [Nat.zero_mul] at hlength
    rw [hlength, Heap.read_zero, List.eq_nil_of_length_eq_zero hlength]
  have hd : (b.place b.offset, data) ∈ landings buffers blocks :=
    List.mem_of_getElem? (List.getElem?_zipWith_eq_some.mpr ⟨b, data, hi, hdata, rfl⟩)
  refine Heap.read_deliver hd ⟨rfl, hlength ▸ hsolid.inside hpos⟩ fun d hd block pos hmine hother => ?_
  obtain ⟨j, hj⟩ := List.mem_iff_getElem?.mp hd
  obtain ⟨c, data', hc, hdata', rfl⟩ := List.getElem?_zipWith_eq_some.mp hj
  obtain ⟨hsolid', hlength'⟩ := hb c (List.mem_of_getElem? hc)
  have hheld : b.Holds block pos := hsolid.holds_iff.mpr (hlength ▸ hmine)
  have hheld' : c.Holds block pos := hsolid'.holds_iff.mpr (hlength' data' (List.mem_of_getElem? hdata') ▸ hother)
  obtain ⟨hi', hb'⟩ := List.getElem?_eq_some_iff.mp hi
  obtain ⟨hj', hc'⟩ := List.getElem?_eq_some_iff.mp hc
  have hdistinct := List.pairwise_iff_getElem.mp happart
  -- Two of the buffers have no byte in common, so both are the same one.
  rcases Nat.lt_trichotomy j i with hlt | rfl | hgt
  · exact absurd (hb' ▸ hheld) (hdistinct j i hj' hi' hlt block pos (hc' ▸ hheld'))
  · rw [Option.some.inj (hc.symm.trans hi), Option.some.inj (hdata'.symm.trans hdata)]
  · exact absurd (hc' ▸ hheld') (hdistinct i j hi' hj' hgt block pos (hb' ▸ hheld))

/-- A byte that only one of several rows of deliveries covers is as that row leaves it. -/
theorem Heap.byte?_deliver_flatten {rows : List (List Delivery)} {row : List Delivery} {j : Nat}
    (hrow : rows[j]? = some row)
    (hothers : ∀ i row', rows[i]? = some row' → i ≠ j → ∀ d ∈ row', ¬d.1.Covers d.2.length block pos) :
    (h.deliver rows.flatten).byte? block pos = (h.deliver row).byte? block pos := by
  induction rows generalizing h j with
  | nil => simp at hrow
  | cons first rows ih =>
    have hsplit : h.deliver (first :: rows).flatten = (h.deliver first).deliver rows.flatten := List.foldl_append ..
    rw [hsplit]
    cases j with
    | zero =>
      obtain rfl : first = row := by simpa using hrow
      refine byte?_deliver_of_not_covers fun d hd => ?_
      obtain ⟨row', hmem, hd⟩ := List.mem_flatten.mp hd
      obtain ⟨i, hi⟩ := List.mem_iff_getElem?.mp hmem
      exact hothers (i + 1) row' (by simpa using hi) (Nat.succ_ne_zero i) d hd
    | succ j =>
      have hfirst := hothers 0 first (by simp) (Nat.succ_ne_zero j).symm
      rw [ih (by simpa using hrow) fun i row' hi hne => ?_]
      · exact byte?_deliver_congr (byte?_deliver_of_not_covers hfirst)
      · exact hothers (i + 1) row' (by simpa using hi) (by omega)

end Landing

/-! ## Gathers to all -/

/-- The contribution sends a buffer to all ranks, and names a slot for what each of them sends, as far as there are
elements. -/
structure Contribution.Collects (c : Contribution) (n : Nat) (input : Buffer) (slots : List Buffer) : Prop where
  kind : c.kind = .allgatherv
  tagged : input.dtype.tag? = some c.tag
  sendCounts : c.sendCounts = [input.count]
  recvCounts : c.recvCounts = List.replicate n input.count
  source : 0 < input.count → c.send = input.place input.offset
  targets : 0 < input.count → c.recv = slots.map fun b => b.place b.offset

/-- What all ranks contribute to a gather of buffers of one type, which they receive into slots that lie in memory. -/
structure Collection (n : Nat) (t : ElementType) (input : Nat → Buffer) (slots : Nat → List Buffer) (h : Heap)
    (cs : List Contribution) : Prop where
  gathered : Gathered n cs
  sent : ∀ q < n, (input q).Solid h (input q).count ∧ (input q).dtype = t
  slot : ∀ q < n, ∀ b ∈ slots q, b.Solid h (input q).count ∧ b.dtype = t
  asked : ∀ q < n, ∃ c, cs[q]? = some c ∧ c.Collects n (input q) (slots q)

namespace Collection

variable {n q : Nat} {t : ElementType} {input : Nat → Buffer} {slots : Nat → List Buffer} {h : Heap}
  {cs : List Contribution} {block pos : Nat}

/-- Every contribution is some rank's. -/
theorem collects_of_getElem? (hc : Collection n t input slots h cs) {c : Contribution} (hq : cs[q]? = some c) :
    q < n ∧ c.Collects n (input q) (slots q) := by
  have hlt : q < n := hc.gathered.length ▸ (List.getElem?_eq_some_iff.mp hq).1
  obtain ⟨c', hc', hcollects⟩ := hc.asked q hlt
  rw [hq] at hc'
  exact ⟨hlt, Option.some.inj hc' ▸ hcollects⟩

/-- All contributions are of one kind, and of the type of the buffers. -/
theorem tagged (hc : Collection n t input slots h cs) {c : Contribution} (hq : cs[q]? = some c) :
    c.kind = .allgatherv ∧ t.tag? = some c.tag := by
  obtain ⟨hlt, hcollects⟩ := hc.collects_of_getElem? hq
  refine ⟨hcollects.kind, ?_⟩
  rw [← (hc.sent q hlt).2]
  exact hcollects.tagged

/-- The ranks agree exactly if they send as many elements as each other. -/
theorem agree_iff (hc : Collection n t input slots h cs) :
    Agree cs ↔ ∀ i < n, ∀ j < n, (input i).count = (input j).count := by
  have hcompatible {i j : Nat} {c d : Contribution} (hi : cs[i]? = some c) (hj : cs[j]? = some d) :
      c.Compatible i j d ↔ (input i).count = (input j).count := by
    obtain ⟨-, hi⟩ := hc.collects_of_getElem? hi
    obtain ⟨hlt, hj⟩ := hc.collects_of_getElem? hj
    simp [Contribution.Compatible, hi.kind, hi.recvCounts, hj.sendCounts, hlt]
  constructor
  · intro ha i hi j hj
    obtain ⟨c, hci, -⟩ := hc.asked i hi
    obtain ⟨d, hdj, -⟩ := hc.asked j hj
    exact (hcompatible hci hdj).mp (ha i j c d hci hdj).2.2
  · intro hcounts i j c d hi hj
    obtain ⟨hci, htag⟩ := hc.tagged hi
    obtain ⟨hdj, htag'⟩ := hc.tagged hj
    refine ⟨hci.trans hdj.symm, Option.some.inj (htag.symm.trans htag'), (hcompatible hi hj).mpr ?_⟩
    exact hcounts i (hc.collects_of_getElem? hi).1 j (hc.collects_of_getElem? hj).1

/-- What a rank sends are the bytes of its input, which are as many as another rank has room for if they agree. -/
theorem outgoing_eq (hc : Collection n t input slots h cs) {c : Contribution} (hq : cs[q]? = some c) :
    (c.outgoing h t.width).bytes = (input q).bytes h := by
  obtain ⟨hlt, hcollects⟩ := hc.collects_of_getElem? hq
  have hsum : c.sendCounts.sum = (input q).count := by rw [hcollects.sendCounts, List.sum_singleton]
  rw [Contribution.outgoing, hsum, Buffer.bytes, (hc.sent q hlt).2]
  rcases Nat.eq_zero_or_pos (input q).count with hzero | hpos
  · rw [hzero, Nat.zero_mul, Heap.read_zero, Heap.read_zero]
  · rw [hcollects.source hpos]

theorem length_block (hc : Collection n t input slots h cs) (ha : Agree cs) (hq : q < n) :
    ∀ data ∈ inputBlocks n input h, data.length = (input q).count * t.width := by
  intro data hdata
  obtain ⟨i, hi, rfl⟩ := List.mem_map.mp hdata
  have hi := List.mem_range.mp hi
  obtain ⟨hsolid, htype⟩ := hc.sent i hi
  rw [hsolid.length_bytes, htype, hc.agree_iff.mp ha i hi q hq]

/-- Ranks that agree deliver to each of them, in turn, the blocks of all ranks. -/
theorem exists_rows (hc : Collection n t input slots h cs) (ha : Agree cs) : ∃ rows : List (List Delivery),
    h.after cs = h.deliver rows.flatten ∧ rows.length = n ∧ ∀ q row, rows[q]? = some row →
      (0 < (input q).count → row = landings (slots q) (inputBlocks n input h)) ∧
        ∀ d ∈ row, d.2 ∈ inputBlocks n input h := by
  rcases after_ok hc.gathered h with ⟨hdis, -⟩ | ⟨-, ds, hds, hafter, -⟩
  · exact absurd ha hdis
  have hblocks : (cs.map fun source => (source.outgoing h t.width).bytes) = inputBlocks n input h := by
    refine List.ext_getElem? fun i => ?_
    rw [List.getElem?_map]
    cases hi : cs[i]? with
    | none =>
      have hout : n ≤ i := hc.gathered.length ▸ List.getElem?_eq_none_iff.mp hi
      rw [Option.map_none, List.getElem?_eq_none (by rwa [length_inputBlocks])]
    | some c =>
      rw [Option.map_some, hc.outgoing_eq hi, getElem?_inputBlocks (hc.collects_of_getElem? hi).1]
  have hall : ∀ c ∈ cs, c.kind = .allgatherv ∧ c.tag.width = t.width := by
    intro c hmem
    obtain ⟨i, hi⟩ := List.mem_iff_getElem?.mp hmem
    obtain ⟨hkind, htag⟩ := hc.tagged hi
    exact ⟨hkind, ElementType.width_of_tag? htag⟩
  have hgather : deliveries h cs = gatherDeliveries h t.width cs := by
    cases cs with
    | nil => rfl
    | cons first rest =>
      obtain ⟨hkind, hwidth⟩ := hall first List.mem_cons_self
      simp only [deliveries, hkind, hwidth]
  rw [hgather, gatherDeliveries_eq hc.gathered hall, hblocks] at hds
  obtain rfl := Except.ok.inj hds
  refine ⟨_, hafter, (List.length_map _).trans hc.gathered.length, fun q row hrow => ?_⟩
  rw [List.getElem?_map] at hrow
  obtain ⟨c, hq, rfl⟩ := Option.map_eq_some_iff.mp hrow
  refine ⟨fun hpos => ?_, fun d hd => (List.of_mem_zip hd).2⟩
  rw [(hc.collects_of_getElem? hq).2.targets hpos, landings_eq_zip]

/-- Every byte that is delivered to a rank is in one of its slots. -/
private theorem exists_slot (hc : Collection n t input slots h cs) (ha : Agree cs) (hq : q < n) {row : List Delivery}
    (hrow : 0 < (input q).count → row = landings (slots q) (inputBlocks n input h))
    (hblocks : ∀ d ∈ row, d.2 ∈ inputBlocks n input h) {d : Delivery} (hd : d ∈ row)
    (hcovers : d.1.Covers d.2.length block pos) : ∃ b ∈ slots q, b.Holds block pos := by
  have hlength := hc.length_block ha hq
  rcases Nat.eq_zero_or_pos (input q).count with hzero | hpos
  · obtain ⟨-, hlo, hhi⟩ := hcovers
    rw [hlength _ (hblocks d hd), hzero, Nat.zero_mul] at hhi
    omega
  · rw [hrow hpos] at hd
    refine exists_holds_of_landing (h := h) (k := (input q).count) (fun b hb => ?_) hd hcovers
    obtain ⟨hsolid, htype⟩ := hc.slot q hq b hb
    exact ⟨hsolid, fun data hdata => htype ▸ (hlength data hdata).le⟩

/-- The slots of a rank that no other rank receives into are left with the blocks of all ranks. -/
theorem byte?_after (hc : Collection n t input slots h cs) (ha : Agree cs) (hq : q < n)
    (hheld : ∃ b ∈ slots q, b.Holds block pos)
    (hothers : ∀ p < n, p ≠ q → ∀ b ∈ slots p, ¬b.Holds block pos) :
    (h.after cs).byte? block pos = (h.gatherInto (slots q) n input).byte? block pos := by
  obtain ⟨rows, hafter, hlength, hrows⟩ := hc.exists_rows ha
  obtain ⟨b, hb, hh⟩ := hheld
  have hpos := (hc.slot q hq b hb).1.pos_of_holds hh
  have hrow := List.getElem?_eq_getElem (hlength.symm ▸ hq)
  rw [hafter, Heap.gatherInto, ← (hrows q _ hrow).1 hpos]
  refine Heap.byte?_deliver_flatten hrow fun p row hp hne d hd hcovers => ?_
  have hlt : p < n := hlength ▸ (List.getElem?_eq_some_iff.mp hp).1
  obtain ⟨hlands, hblocks⟩ := hrows p row hp
  obtain ⟨c, hc', hh'⟩ := hc.exists_slot ha hlt hlands hblocks hd hcovers
  exact hothers p hlt hne c hc' hh'

/-- Outside all slots nothing changes. -/
theorem byte?_after_of_not_holds (hc : Collection n t input slots h cs)
    (hout : ∀ q < n, ∀ b ∈ slots q, ¬b.Holds block pos) : (h.after cs).byte? block pos = h.byte? block pos := by
  by_cases ha : Agree cs
  · obtain ⟨rows, hafter, hlength, hrows⟩ := hc.exists_rows ha
    rw [hafter]
    refine Heap.byte?_deliver_of_not_covers fun d hd hcovers => ?_
    obtain ⟨row, hmem, hd⟩ := List.mem_flatten.mp hd
    obtain ⟨q, hq⟩ := List.mem_iff_getElem?.mp hmem
    have hlt : q < n := hlength ▸ (List.getElem?_eq_some_iff.mp hq).1
    obtain ⟨hlands, hblocks⟩ := hrows q row hq
    obtain ⟨b, hb, hh⟩ := hc.exists_slot ha hlt hlands hblocks hd hcovers
    exact hout q hlt b hb hh
  · rcases after_ok hc.gathered h with ⟨-, hsame⟩ | ⟨hagree, -⟩
    · rw [hsame]
    · exact absurd hagree ha

end Collection

end Collectives
