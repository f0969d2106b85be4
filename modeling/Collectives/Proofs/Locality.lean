import Collectives.Proofs.Delivery

/-!
# Collectives are local

A collective reads the bytes that its contributions send and writes bytes that they receive into, and what it
writes depends on nothing else. Two collectives that touch no byte in common can therefore be performed in
either order.
-/

namespace Collectives

/-! ## Bytes after a write -/

theorem getElem?_overwrite (bytes : Array UInt8) (pos : Nat) (data : Bytes) (i : Nat) :
    (overwrite bytes pos data)[i]? =
      bytes[i]?.map fun old => if pos ≤ i then data[i - pos]?.getD old else old := by
  induction data generalizing bytes pos with
  | nil => cases h : bytes[i]? <;> simp [overwrite, h]
  | cons b bs ih =>
    rw [overwrite, ih, Array.getElem?_setIfInBounds]
    by_cases hi : pos = i
    · subst hi
      have hs : ¬pos + 1 ≤ pos := by omega
      by_cases hp : pos < bytes.size
      · simp [hp, hs]
      · simp [hp]
    · rw [if_neg hi]
      congr 1
      funext old
      by_cases hle : pos + 1 ≤ i
      · have hsub : i - pos = i - (pos + 1) + 1 := by omega
        rw [if_pos hle, if_pos (by omega), hsub, List.getElem?_cons_succ]
      · rw [if_neg hle, if_neg (by omega)]

namespace Heap

variable {h h' : Heap} {a : Address} {data : Bytes} {block pos : Nat}

/-- A byte after a write: the byte written there, if any was. -/
theorem byte?_write (hb : a.block = some block) :
    (h.write a data).byte? block pos =
      (h.byte? block pos).map fun old => if a.pos ≤ pos then data[pos - a.pos]?.getD old else old := by
  simp only [write, hb, byte?, Array.getElem?_modify, if_true]
  cases h.blocks[block]? with
  | none => rfl
  | some bytes => exact getElem?_overwrite bytes a.pos data pos

/-- Other blocks keep their bytes. -/
theorem byte?_write_of_ne (hb : a.block ≠ some block) :
    (h.write a data).byte? block pos = h.byte? block pos := by
  unfold write
  cases ha : a.block with
  | none => rfl
  | some b =>
    have hne : b ≠ block := fun he => hb (ha.trans (congrArg some he))
    simp only [byte?, Array.getElem?_modify, if_neg hne]

/-- A byte that a write does not cover stays as it was. -/
theorem byte?_write_of_not_covers (hc : ¬a.Covers data.length block pos) :
    (h.write a data).byte? block pos = h.byte? block pos := by
  by_cases hb : a.block = some block
  · rw [byte?_write hb]
    refine (congrArg (Option.map · (h.byte? block pos)) (funext fun old => ?_)).trans Option.map_id'
    split
    · rename_i hle
      have hout : data.length ≤ pos - a.pos := by
        by_contra hlt
        exact hc ⟨hb, hle, by omega⟩
      rw [List.getElem?_eq_none hout, Option.getD_none]
    · rfl
  · exact byte?_write_of_ne hb

/-- What a write makes of a byte depends on that byte only. -/
theorem byte?_write_congr (hsame : h.byte? block pos = h'.byte? block pos) :
    (h.write a data).byte? block pos = (h'.write a data).byte? block pos := by
  by_cases hb : a.block = some block
  · rw [byte?_write hb, byte?_write hb, hsame]
  · rw [byte?_write_of_ne hb, byte?_write_of_ne hb, hsame]

theorem size_write : (h.write a data).blocks.size = h.blocks.size := by
  unfold write
  cases a.block with
  | none => rfl
  | some block => exact Array.size_modify ..

/-- Memory is known by its number of blocks and its bytes. -/
theorem ext_bytes (hs : h.blocks.size = h'.blocks.size)
    (hb : ∀ block pos, h.byte? block pos = h'.byte? block pos) : h = h' := by
  have hblocks : h.blocks = h'.blocks := by
    refine Array.ext hs fun block h₁ h₂ => ?_
    refine Array.ext_getElem? fun pos => ?_
    have hbyte := hb block pos
    simpa only [byte?, Array.getElem?_eq_getElem h₁, Array.getElem?_eq_getElem h₂] using hbyte
  cases h
  cases h'
  exact congrArg Heap.mk hblocks

/-! ## Bytes that are read -/

/-- What is read from an address on, byte by byte. -/
theorem getElem?_read (hb : a.block = some block) (length i : Nat) :
    (h.read a length)[i]? = if i < length then h.byte? block (a.pos + i) else none := by
  simp only [read, hb, Array.getElem?_toList, Array.getElem?_extract, Array.getD_eq_getD_getElem?, byte?]
  cases h.blocks[block]? with
  | none => simp
  | some bytes =>
    simp only [Option.getD_some]
    by_cases hi : i < length
    · by_cases hs : a.pos + i < bytes.size
      · rw [if_pos hi, if_pos (by omega)]
      · rw [if_pos hi, if_neg (by omega), Array.getElem?_eq_none (Nat.le_of_not_lt hs)]
    · rw [if_neg hi, if_neg (by omega)]

/-- Where memory has the same bytes, the same is read. -/
theorem read_congr {length : Nat}
    (hsame : ∀ block pos, a.Covers length block pos → h.byte? block pos = h'.byte? block pos) :
    h.read a length = h'.read a length := by
  cases hb : a.block with
  | none => simp only [read, hb]
  | some block =>
    refine List.ext_getElem? fun i => ?_
    rw [getElem?_read hb, getElem?_read hb]
    split
    · exact hsame block _ ⟨hb, by omega, by omega⟩
    · rfl

/-- Where memory has the same bytes, rows of elements are the same. -/
theorem row_congr {width count : Nat}
    (hsame : ∀ block pos, a.Covers (count * width) block pos → h.byte? block pos = h'.byte? block pos) :
    h.row a width count = h'.row a width count := by
  refine List.map_congr_left fun i hi => congrArg Bytes.toWord (read_congr fun block pos hc => ?_)
  refine hsame block pos (hc.of_advance ?_)
  rw [← Nat.succ_mul]
  exact Nat.mul_le_mul_right width (List.mem_range.mp hi)

/-! ## Bytes after deliveries -/

theorem size_deliver (h : Heap) (ds : List Delivery) : (h.deliver ds).blocks.size = h.blocks.size := by
  induction ds generalizing h with
  | nil => rfl
  | cons d ds ih => exact (ih _).trans size_write

/-- A byte that no delivery covers stays as it was. -/
theorem byte?_deliver_of_not_covers {ds : List Delivery}
    (hc : ∀ d ∈ ds, ¬d.1.Covers d.2.length block pos) :
    (h.deliver ds).byte? block pos = h.byte? block pos := by
  induction ds generalizing h with
  | nil => rfl
  | cons d ds ih =>
    obtain ⟨hd, hds⟩ := List.forall_mem_cons.mp hc
    exact (ih hds).trans (byte?_write_of_not_covers hd)

/-- What deliveries make of a byte depends on that byte only. -/
theorem byte?_deliver_congr {ds : List Delivery} (hsame : h.byte? block pos = h'.byte? block pos) :
    (h.deliver ds).byte? block pos = (h'.deliver ds).byte? block pos := by
  induction ds generalizing h h' with
  | nil => exact hsame
  | cons d ds ih => exact ih (byte?_write_congr hsame)

end Heap

/-! ## Deliveries depend on what is sent -/

/-- Two memories have the same bytes wherever a contribution sends from. -/
def SameSent (cs : List Contribution) (h h' : Heap) : Prop :=
  ∀ c ∈ cs, ∀ block pos, c.Sends block pos → h.byte? block pos = h'.byte? block pos

section Group

variable {n : Nat} {cs : List Contribution} {first : Contribution} {rest : List Contribution} {h h' : Heap}

/-- The bytes of a contribution's elements are the same, however they are counted. -/
private theorem sends_of_count {c : Contribution} {tag : Tag} {count block pos : Nat} (ht : c.tag = tag)
    (hc : c.sendCounts = [count]) (h : c.send.Covers (count * tag.width) block pos) : c.Sends block pos := by
  rw [Contribution.Sends, ht, hc, List.sum_singleton]
  exact h

theorem map_outgoing_congr {width : Nat} (hs : SameSent cs h h') (hw : ∀ c ∈ cs, c.tag.width = width) :
    cs.map (·.outgoing h width) = cs.map (·.outgoing h' width) := by
  refine List.map_congr_left fun c hc => ?_
  have hread : h.read c.send (c.sendCounts.sum * width) = h'.read c.send (c.sendCounts.sum * width) :=
    Heap.read_congr fun block pos hcov => hs c hc block pos (by rwa [Contribution.Sends, hw c hc])
  rw [Contribution.outgoing, Contribution.outgoing, hread]

theorem reduced_congr {tag : Tag} {op : Operator} {count : Nat} (hs : SameSent (first :: rest) h h')
    (hall : ∀ c ∈ first :: rest, c.tag = tag ∧ c.sendCounts = [count]) :
    reduced h tag op count first rest = reduced h' tag op count first rest := by
  have hrow : ∀ c ∈ first :: rest, h.row c.send tag.width count = h'.row c.send tag.width count :=
    fun c hc => Heap.row_congr fun block pos hcov =>
      hs c hc block pos (sends_of_count (hall c hc).1 (hall c hc).2 hcov)
  rw [reduced, reduced, hrow first List.mem_cons_self]
  refine List.foldl_ext _ _ _ fun acc c hc => ?_
  rw [hrow c (List.mem_cons_of_mem first hc)]

/-- What an agreed call delivers is fixed by the bytes that are sent. -/
theorem deliveries_congr (hg : Gathered n cs) (ha : Agree cs) (hs : SameSent cs h h') :
    deliveries h cs = deliveries h' cs := by
  cases cs with
  | nil => rfl
  | cons first rest =>
    have hsame : ∀ c ∈ first :: rest, c.kind = first.kind ∧ c.tag.width = first.tag.width := by
      intro c hc
      obtain ⟨i, hi⟩ := List.mem_iff_getElem?.mp hc
      obtain ⟨hkind, htag⟩ := ha.same hi (j := 0) (d := first) rfl
      exact ⟨hkind, congrArg Tag.width htag⟩
    have hreduction (hk : first.kind = .allreduce ∨ first.kind = .reduce) :
        reductionDeliveries h first rest = reductionDeliveries h' first rest := by
      obtain ⟨count, op, hop, hbytes, -, hall⟩ := reduction_source hg ha hk
      have hcount := (hall first List.mem_cons_self).2.2.2.1
      rw [reductionDeliveries_eq hop hcount hbytes, reductionDeliveries_eq hop hcount hbytes,
        reduced_congr hs fun c hc => ⟨(hall c hc).2.1, (hall c hc).2.2.2.1⟩]
    have hexchange (hk : first.kind = .alltoall ∨ first.kind = .alltoallv) :
        exchangeDeliveries h first.tag.width (first :: rest) =
          exchangeDeliveries h' first.tag.width (first :: rest) := by
      have hw : ∀ c ∈ first :: rest, c.tag.width = first.tag.width := fun c hc => (hsame c hc).2
      rw [exchangeDeliveries, exchangeSent_eq hg hw h, exchangeDeliveries, exchangeSent_eq hg hw h',
        map_outgoing_congr hs hw]
    cases hk : first.kind with
    | barrier => simp only [deliveries, hk]
    | bcast =>
      simp only [deliveries, hk]
      obtain ⟨root, count, hr, hbytes, hall⟩ := broadcast_source hg ha hk
      have hroot := List.mem_of_getElem? hr
      obtain ⟨-, htag, hcount, -⟩ := hall root hroot
      have hread : h.read root.send (count * first.tag.width) = h'.read root.send (count * first.tag.width) :=
        Heap.read_congr fun block pos hcov => hs root hroot block pos (sends_of_count htag hcount hcov)
      rw [broadcastDeliveries_eq hr hcount hbytes, broadcastDeliveries_eq hr hcount hbytes, hread]
    | allreduce =>
      simp only [deliveries, hk]
      exact hreduction (.inl hk)
    | reduce =>
      simp only [deliveries, hk]
      exact hreduction (.inr hk)
    | allgatherv =>
      simp only [deliveries, hk]
      have hall : ∀ c ∈ first :: rest, c.kind = .allgatherv ∧ c.tag.width = first.tag.width :=
        fun c hc => ⟨(hsame c hc).1.trans hk, (hsame c hc).2⟩
      rw [gatherDeliveries, gatherBlocks_eq hg hall h, gatherDeliveries, gatherBlocks_eq hg hall h',
        map_outgoing_congr hs fun c hc => (hall c hc).2]
    | alltoall =>
      simp only [deliveries, hk]
      exact hexchange (.inl hk)
    | alltoallv =>
      simp only [deliveries, hk]
      exact hexchange (.inr hk)

/-! ## Collectives that touch different bytes -/

end Group

/-- The place is among the bytes that a rank's contribution sends or may receive into. -/
def Contribution.Touches (c : Contribution) (rank block pos : Nat) : Prop :=
  c.Sends block pos ∨ c.Receives rank block pos

/-- The place is among the bytes that the contribution of some rank touches. -/
def Touched (cs : List Contribution) (block pos : Nat) : Prop :=
  ∃ (rank : Nat) (c : Contribution), cs[rank]? = some c ∧ c.Touches rank block pos

/-- No byte is touched by both collectives. -/
def Apart (cs ds : List Contribution) : Prop := ∀ block pos, Touched cs block pos → ¬Touched ds block pos

namespace Heap

variable {n : Nat} {cs ds : List Contribution} {h h' : Heap} {block pos : Nat}

theorem size_after (hg : Gathered n cs) : (h.after cs).blocks.size = h.blocks.size := by
  rcases after_ok hg h with ⟨-, he⟩ | ⟨-, deliveries, -, he, -⟩
  · rw [he]
  · rw [he, size_deliver]

/-- A byte that a collective does not touch stays as it was. -/
theorem byte?_after_of_not_touched (hg : Gathered n cs) (ht : ¬Touched cs block pos) :
    (h.after cs).byte? block pos = h.byte? block pos := by
  rcases after_ok hg h with ⟨-, he⟩ | ⟨-, deliveries, -, he, hland⟩
  · rw [he]
  · rw [he]
    refine byte?_deliver_of_not_covers fun d hd hcov => ht ?_
    obtain ⟨rank, c, hc, hr⟩ := hland d hd block pos hcov
    exact ⟨rank, c, hc, .inr hr⟩

/-- What a collective makes of a byte depends on that byte and on the bytes that are sent. -/
theorem byte?_after_congr (hg : Gathered n cs) (hs : SameSent cs h h')
    (hsame : h.byte? block pos = h'.byte? block pos) :
    (h.after cs).byte? block pos = (h'.after cs).byte? block pos := by
  rcases after_ok hg h with ⟨hn, he⟩ | ⟨ha, deliveries, hd, he, -⟩
  · rcases after_ok hg h' with ⟨-, he'⟩ | ⟨ha, -⟩
    · rw [he, he', hsame]
    · exact absurd ha hn
  · rcases after_ok hg h' with ⟨hn, -⟩ | ⟨-, deliveries', hd', he', -⟩
    · exact absurd ha hn
    · rw [deliveries_congr hg ha hs, hd'] at hd
      rw [he, he', Except.ok.inj hd]
      exact byte?_deliver_congr hsame

/-- A byte that the first of two collectives apart touches is as if the first were the only one. -/
theorem byte?_after_after (hg : Gathered n cs) (hd : Gathered n ds) (hap : Apart cs ds)
    (ht : Touched cs block pos) : ((h.after ds).after cs).byte? block pos = (h.after cs).byte? block pos := by
  refine byte?_after_congr hg (fun c hc b p hs => ?_) (byte?_after_of_not_touched hd (hap block pos ht))
  obtain ⟨rank, hr⟩ := List.mem_iff_getElem?.mp hc
  exact byte?_after_of_not_touched hd (hap b p ⟨rank, c, hr, .inl hs⟩)

/-- Collectives that touch no byte in common can be performed in either order. -/
theorem after_comm (hg : Gathered n cs) (hd : Gathered n ds) (hap : Apart cs ds) (h : Heap) :
    (h.after cs).after ds = (h.after ds).after cs := by
  refine ext_bytes (by rw [size_after hd, size_after hg, size_after hg, size_after hd]) fun block pos => ?_
  by_cases hc : Touched cs block pos
  · rw [byte?_after_of_not_touched hd (hap block pos hc), byte?_after_after hg hd hap hc]
  · rw [byte?_after_of_not_touched (h := h.after ds) hg hc]
    by_cases ht : Touched ds block pos
    · exact byte?_after_after hd hg (fun b p h₁ h₂ => hap b p h₂ h₁) ht
    · rw [byte?_after_of_not_touched hd ht, byte?_after_of_not_touched hg hc, byte?_after_of_not_touched hd ht]

end Heap

end Collectives
