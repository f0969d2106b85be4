import Collectives.Proofs.Agreement

/-!
# Deliveries of an agreed call

Where all ranks agree, every table has the entries that are looked up, every block lies within what its
sender sends, and every byte that is delivered lies within what its receiver named. A collective whose
contributions passed the checks at issue therefore always ends, and a mismatch leaves memory as it was.
-/

namespace Collectives

/-- The contributions of all `n` ranks, in the shape of their kinds, with byte counts that are sizes. -/
structure Gathered (n : Nat) (cs : List Contribution) : Prop where
  /-- There is a rank. -/
  pos : 0 < n
  /-- One contribution for every rank. -/
  length : cs.length = n
  /-- Each passed the checks at issue. -/
  shape : ∀ c ∈ cs, c.Shape n
  /-- No byte count leaves the range of sizes. -/
  fits : ∀ c ∈ cs, c.Fits

/-- Every byte of a delivery lies in memory that the contribution of some rank named for receiving. -/
def Lands (cs : List Contribution) (d : Delivery) : Prop :=
  ∀ block pos : Nat, d.1.Covers d.2.length block pos →
    ∃ (rank : Nat) (c : Contribution), cs[rank]? = some c ∧ c.Receives rank block pos

/-- Memory never gives more bytes than it is asked for. -/
theorem Heap.length_read_le (h : Heap) (a : Address) (length : Nat) : (h.read a length).length ≤ length := by
  unfold Heap.read
  cases a.block with
  | none => exact Nat.zero_le _
  | some block => simp only [Array.length_toList, Array.size_extract]; omega

/-- The bytes a contribution sends, as memory has them. -/
def Contribution.outgoing (c : Contribution) (h : Heap) (width : Nat) : Outgoing :=
  { length := c.sendCounts.sum * width, bytes := h.read c.send (c.sendCounts.sum * width) }

theorem outgoing_eq_ok {c : Contribution} {h : Heap} {width count : Nat} (hc : c.sendCounts.sum = count)
    (hf : count * width < sizeLimit) : outgoing h width c count = .ok (c.outgoing h width) := by
  subst hc
  rw [outgoing, mulSize_eq_ok hf]
  rfl

theorem deliver_eq_ok {c : Contribution} {a : Address} (hr : c.recv = [a]) (data : Bytes) :
    c.deliver data = .ok (a, data) := by
  have h0 : c.recv[0]? = some a := by rw [hr]; rfl
  rw [Contribution.deliver, entry_eq_ok h0]
  rfl

section Group

variable {n : Nat} {first : Contribution} {rest : List Contribution}

/-- The contribution of every rank has the kind and the data of the first. -/
theorem Agree.same {cs : List Contribution} (ha : Agree cs) {i j : Nat} {c d : Contribution}
    (hc : cs[i]? = some c) (hd : cs[j]? = some d) : c.kind = d.kind ∧ c.tag = d.tag :=
  ⟨(ha i j c d hc hd).1, (ha i j c d hc hd).2.1⟩

/-- What goes to the only destination of a rank lands, if it is no longer than what that rank names. -/
private theorem lands_single {cs : List Contribution} {rank : Nat} {c : Contribution} {a : Address}
    {data : Bytes} (hc : cs[rank]? = some c) (hr : c.recv = [a])
    (hl : data.length ≤ c.sendCounts.sum * c.tag.width)
    (hk : c.kind = .bcast ∨ c.kind = .allreduce ∨ c.kind = .reduce ∧ rank = c.root) :
    Lands cs (a, data) := by
  intro block pos hcov
  have hm : a ∈ c.recv := hr ▸ List.mem_singleton_self a
  refine ⟨rank, c, hc, ?_⟩
  rcases hk with hk | hk | ⟨hk, hroot⟩
  · simp only [Contribution.Receives, hk]
    exact ⟨a, hm, hcov.mono hl⟩
  · simp only [Contribution.Receives, hk]
    exact ⟨a, hm, hcov.mono hl⟩
  · simp only [Contribution.Receives, hk]
    exact ⟨hroot, a, hm, hcov.mono hl⟩

/-! ## Broadcasts -/

/-- Who sends in an agreed broadcast, and how much; every rank names as much. -/
theorem broadcast_source (hg : Gathered n (first :: rest)) (ha : Agree (first :: rest))
    (hk : first.kind = .bcast) :
    ∃ root count, (first :: rest)[first.root]? = some root ∧ count * first.tag.width < sizeLimit ∧
      ∀ c ∈ first :: rest, c.kind = .bcast ∧ c.tag = first.tag ∧ c.sendCounts = [count] ∧
        ∃ a, c.recv = [a] := by
  have hshape := hg.shape first List.mem_cons_self
  simp only [Contribution.Shape, hk] at hshape
  obtain ⟨hroot, -, count, hcount⟩ := hshape
  have hbytes := (hg.fits first List.mem_cons_self).sent
  simp only [hcount, List.sum_singleton] at hbytes
  refine ⟨_, count, List.getElem?_eq_getElem (hg.length ▸ hroot), hbytes, fun c hc => ?_⟩
  obtain ⟨i, hi⟩ := List.mem_iff_getElem?.mp hc
  obtain ⟨hck, hct, hcc⟩ := ha i 0 c first hi rfl
  rw [hk] at hck
  simp only [Contribution.Compatible, hck] at hcc
  have hcshape := hg.shape c hc
  simp only [Contribution.Shape, hck] at hcshape
  exact ⟨hck, hct, hcc.2.trans hcount, hcshape.2.1⟩

/-- An agreed broadcast delivers what the root sends. -/
theorem broadcastDeliveries_eq {root : Contribution} {count : Nat}
    (hr : (first :: rest)[first.root]? = some root) (hcount : root.sendCounts = [count])
    (hbytes : count * first.tag.width < sizeLimit) (h : Heap) :
    broadcastDeliveries h first (first :: rest) =
      ((first :: rest).eraseIdx first.root).mapM fun c =>
        c.deliver (h.read root.send (count * first.tag.width)) := by
  have hrc : root.sendCounts[0]? = some count := by rw [hcount]; rfl
  rw [broadcastDeliveries, entry_eq_ok hr, ok_bind, entry_eq_ok hrc, ok_bind, mulSize_eq_ok hbytes, ok_bind]

/-- An agreed broadcast is delivered into the buffers of the other ranks. -/
theorem broadcastDeliveries_ok (hg : Gathered n (first :: rest)) (ha : Agree (first :: rest))
    (hk : first.kind = .bcast) (h : Heap) :
    ∃ ds, broadcastDeliveries h first (first :: rest) = .ok ds ∧ ∀ d ∈ ds, Lands (first :: rest) d := by
  obtain ⟨root, count, hr, hbytes, hall⟩ := broadcast_source hg ha hk
  rw [broadcastDeliveries_eq hr (hall root (List.mem_of_getElem? hr)).2.2.1 hbytes h]
  refine mapM_ok fun c hc => ?_
  have hc := List.mem_of_mem_eraseIdx hc
  obtain ⟨i, hi⟩ := List.mem_iff_getElem?.mp hc
  obtain ⟨hck, hct, hcs, a, ha⟩ := hall c hc
  refine ⟨_, deliver_eq_ok ha _, lands_single hi ha ?_ (.inl hck)⟩
  rw [hcs, hct, List.sum_singleton]
  exact h.length_read_le _ _

/-! ## Reductions -/

theorem length_row (h : Heap) (a : Address) (width count : Nat) : (h.row a width count).length = count := by
  simp [Heap.row]

/-- A reduction has as many elements as each rank contributes. -/
theorem length_reduced (h : Heap) (tag : Tag) (op : Operator) (count : Nat) (first : Contribution)
    (rest : List Contribution) : (reduced h tag op count first rest).length = count := by
  unfold reduced
  generalize hacc : h.row first.send tag.width count = acc
  have hlen : acc.length = count := by rw [← hacc, length_row]
  clear hacc
  induction rest generalizing acc with
  | nil => exact hlen
  | cons c cs ih =>
    rw [List.foldl_cons]
    refine ih _ ?_
    rw [combineWords, List.length_zipWith, hlen, length_row, Nat.min_self]

theorem length_ofWords (width : Nat) (words : List Nat) :
    (Bytes.ofWords width words).length = words.length * width := by
  simp [Bytes.ofWords, List.length_flatMap]

/-- Every rank contributes as much to an agreed reduction as the first. -/
theorem reduction_source (hg : Gathered n (first :: rest)) (ha : Agree (first :: rest))
    (hk : first.kind = .allreduce ∨ first.kind = .reduce) :
    ∃ count op, first.op = some op ∧ count * first.tag.width < sizeLimit ∧
      (first.kind = .reduce → first.root < n) ∧
      ∀ c ∈ first :: rest, c.kind = first.kind ∧ c.tag = first.tag ∧ c.root = first.root ∧
        c.sendCounts = [count] ∧ ∃ a, c.recv = [a] := by
  have hshape {c : Contribution} (hc : c ∈ first :: rest) (hck : c.kind = first.kind) :
      (c.kind = .reduce → c.root < n) ∧ (∃ a, c.recv = [a]) ∧ (∃ count, c.sendCounts = [count]) ∧
        ∃ op, c.op = some op := by
    have hs := hg.shape c hc
    rcases hk with hk | hk <;> simp only [Contribution.Shape, hck, hk] at hs ⊢ <;> exact hs
  obtain ⟨hroot, -, ⟨count, hcount⟩, op, hop⟩ := hshape List.mem_cons_self rfl
  have hbytes := (hg.fits first List.mem_cons_self).sent
  simp only [hcount, List.sum_singleton] at hbytes
  refine ⟨count, op, hop, hbytes, hroot, fun c hc => ?_⟩
  obtain ⟨i, hi⟩ := List.mem_iff_getElem?.mp hc
  obtain ⟨hck, hct, hcc⟩ := ha i 0 c first hi rfl
  obtain ⟨-, hrecv, -⟩ := hshape hc hck
  have hcc : c.sendCounts = first.sendCounts ∧ c.root = first.root := by
    rcases hk with hk | hk <;> simp only [Contribution.Compatible, hck, hk] at hcc <;> exact hcc.2
  exact ⟨hck, hct, hcc.2, hcc.1.trans hcount, hrecv⟩

/-- The bytes that an agreed reduction delivers, and to whom. -/
theorem reductionDeliveries_eq {count : Nat} {op : Operator} (hop : first.op = some op)
    (hcount : first.sendCounts = [count]) (hbytes : count * first.tag.width < sizeLimit) (h : Heap) :
    reductionDeliveries h first rest =
      let data := Bytes.ofWords first.tag.width (reduced h first.tag op count first rest)
      if first.kind = .allreduce then (first :: rest).mapM fun c => c.deliver data
      else do
        let root ← entry (first :: rest) first.root
        return [← root.deliver data] := by
  have h0 : first.sendCounts[0]? = some count := by rw [hcount]; rfl
  rw [reductionDeliveries, entry_eq_ok h0, ok_bind, mulSize_eq_ok hbytes, ok_bind, hop]

/-- An agreed reduction is delivered to every rank, or to the root. -/
theorem reductionDeliveries_ok (hg : Gathered n (first :: rest)) (ha : Agree (first :: rest))
    (hk : first.kind = .allreduce ∨ first.kind = .reduce) (h : Heap) :
    ∃ ds, reductionDeliveries h first rest = .ok ds ∧ ∀ d ∈ ds, Lands (first :: rest) d := by
  obtain ⟨count, op, hop, hbytes, hroot, hall⟩ := reduction_source hg ha hk
  rw [reductionDeliveries_eq hop (hall first List.mem_cons_self).2.2.2.1 hbytes h]
  dsimp only
  generalize hdata : Bytes.ofWords first.tag.width (reduced h first.tag op count first rest) = data
  have hlen : data.length = count * first.tag.width := by
    rw [← hdata, length_ofWords, length_reduced]
  -- What is delivered to one rank, whichever kind of reduction it is.
  have hone {i : Nat} {c : Contribution} (hc : (first :: rest)[i]? = some c)
      (hr : first.kind = .allreduce ∨ first.kind = .reduce ∧ i = first.root) :
      ∃ d, c.deliver data = .ok d ∧ Lands (first :: rest) d := by
    obtain ⟨hck, hct, hcr, hcs, a, ha⟩ := hall c (List.mem_of_getElem? hc)
    refine ⟨_, deliver_eq_ok ha _, lands_single hc ha ?_ (.inr ?_)⟩
    · rw [hcs, hct, List.sum_singleton, hlen]
    · rwa [hck, hcr]
  by_cases hkind : first.kind = .allreduce
  · rw [if_pos hkind]
    refine mapM_ok fun c hc => ?_
    obtain ⟨i, hi⟩ := List.mem_iff_getElem?.mp hc
    exact hone hi (.inl hkind)
  · have hred := hk.resolve_left hkind
    have hr := List.getElem?_eq_getElem (hg.length ▸ hroot hred)
    obtain ⟨d, hd, hland⟩ := hone hr (.inr ⟨hred, rfl⟩)
    rw [if_neg hkind, entry_eq_ok hr, ok_bind, hd]
    exact ⟨[d], rfl, by simpa using hland⟩

/-! ## Gathers and exchanges -/

/-- Every rank's whole block is read in an agreed gather. -/
theorem gatherBlocks_eq {cs : List Contribution} {width : Nat} (hg : Gathered n cs)
    (hk : ∀ c ∈ cs, c.kind = .allgatherv ∧ c.tag.width = width) (h : Heap) :
    (cs.mapM fun c => do outgoing h width c (← entry c.sendCounts 0)) =
      .ok (cs.map (·.outgoing h width)) := by
  refine mapM_eq_ok_map fun c hc => ?_
  have hs := hg.shape c hc
  simp only [Contribution.Shape, (hk c hc).1] at hs
  obtain ⟨-, ⟨count, hcount⟩, -⟩ := hs
  have hsum : c.sendCounts.sum = count := by rw [hcount, List.sum_singleton]
  have h0 : c.sendCounts[0]? = some count := by rw [hcount]; rfl
  rw [entry_eq_ok h0, ok_bind]
  exact outgoing_eq_ok hsum (hsum ▸ (hk c hc).2 ▸ (hg.fits c hc).sent)

/-- The blocks of all ranks go to where one rank wants them, in their order. -/
theorem gatherRow_eq {blocks : List Outgoing} {target : Contribution} (hlen : target.recv.length = blocks.length) :
    gatherRow blocks target = .ok (target.recv.zip (blocks.map Outgoing.bytes)) := by
  have hrow : ∀ b ∈ blocks.zipIdx, (do return (← entry target.recv b.2, b.1.bytes) : Except Fault Delivery) =
      .ok (target.recv.getD b.2 .nowhere, b.1.bytes) := by
    rintro ⟨block, j⟩ hb
    have hj : j < target.recv.length := by
      rw [hlen]
      exact (List.getElem?_eq_some_iff.mp (List.mk_mem_zipIdx_iff_getElem?.mp hb)).1
    have hentry := List.getElem?_eq_getElem hj
    dsimp only
    rw [entry_eq_ok hentry, List.getD_eq_getElem?_getD, hentry]
    rfl
  refine (mapM_eq_ok_map hrow).trans (congrArg Except.ok (List.ext_getElem? fun j => ?_))
  rw [List.getElem?_map, List.getElem?_zipIdx, List.zip_eq_zipWith, List.getElem?_zipWith]
  by_cases hj : j < blocks.length
  · have hj' : j < target.recv.length := hlen ▸ hj
    simp [hj, hj']
  · simp [hj]

/-- A gather delivers, to every rank in turn, what all ranks send. -/
theorem gatherDeliveries_eq {cs : List Contribution} {width : Nat} (hg : Gathered n cs)
    (hk : ∀ c ∈ cs, c.kind = .allgatherv ∧ c.tag.width = width) (h : Heap) :
    gatherDeliveries h width cs =
      .ok (cs.map fun target => target.recv.zip (cs.map fun source => (source.outgoing h width).bytes)).flatten := by
  have hrow : ∀ target ∈ cs, gatherRow (cs.map (·.outgoing h width)) target =
      .ok (target.recv.zip (cs.map fun source => (source.outgoing h width).bytes)) := by
    intro target htarget
    have hs := hg.shape target htarget
    simp only [Contribution.Shape, (hk target htarget).1] at hs
    rw [gatherRow_eq, List.map_map]
    · rfl
    · rw [hs.1, List.length_map, hg.length]
  rw [gatherDeliveries, gatherBlocks_eq hg hk h, ok_bind, mapM_eq_ok_map hrow]
  rfl

/-- An agreed gather is delivered block by block to the destinations of every rank. -/
theorem gatherDeliveries_ok {cs : List Contribution} {width : Nat} (hg : Gathered n cs) (ha : Agree cs)
    (hk : ∀ c ∈ cs, c.kind = .allgatherv ∧ c.tag.width = width) (h : Heap) :
    ∃ ds, gatherDeliveries h width cs = .ok ds ∧ ∀ d ∈ ds, Lands cs d := by
  refine ⟨_, gatherDeliveries_eq hg hk h, fun d hd => ?_⟩
  obtain ⟨row, hrow, hd⟩ := List.mem_flatten.mp hd
  obtain ⟨c, hc, rfl⟩ := List.mem_map.mp hrow
  obtain ⟨i, hi⟩ := List.mem_iff_getElem?.mp hc
  obtain ⟨j, hj⟩ := List.mem_iff_getElem?.mp hd
  obtain ⟨hplace, hblock⟩ := List.getElem?_zip_eq_some.mp hj
  rw [List.getElem?_map] at hblock
  obtain ⟨source, hsource, hbytes⟩ := Option.map_eq_some_iff.mp hblock
  have hs := hg.shape source (List.mem_of_getElem? hsource)
  simp only [Contribution.Shape, (hk source (List.mem_of_getElem? hsource)).1] at hs
  obtain ⟨-, ⟨count, hcount⟩, -⟩ := hs
  have hcompat := (ha i j c source hi hsource).2.2
  simp only [Contribution.Compatible, (hk c hc).1, hcount] at hcompat
  have hsum : source.sendCounts.sum = count := by rw [hcount, List.sum_singleton]
  intro block pos hcov
  refine ⟨i, c, hi, ?_⟩
  simp only [Contribution.Receives, (hk c hc).1, (hk c hc).2]
  refine ⟨j, _, count, hplace, hcompat, hcov.mono ?_⟩
  rw [← hbytes, ← hsum]
  exact h.length_read_le _ _

/-- The block that the source sends to rank `j`, and where the target puts what it receives from rank `i`. -/
def exchanged (h : Heap) (width : Nat) (target source : Contribution) (j i : Nat) : Delivery :=
  ((target.recv.getD 0 Address.nowhere).advance ((target.recvCounts.take i).sum * width),
    ((source.outgoing h width).bytes.drop ((source.sendCounts.take j).sum * width)).take
      (source.sendCounts.getD j 0 * width))

/-- One block of an agreed exchange is found within what its sender sends, and lands. -/
private theorem exchangeDelivery_ok {cs : List Contribution} {width i j : Nat} {source target : Contribution}
    (hg : Gathered n cs) (ha : Agree cs) (hi : cs[i]? = some source) (hj : cs[j]? = some target)
    (hks : source.kind = .alltoall ∨ source.kind = .alltoallv) (hws : source.tag.width = width) (h : Heap) :
    exchangeDelivery width target source (source.outgoing h width) j i = .ok (exchanged h width target source j i) ∧
      Lands cs (exchanged h width target source j i) := by
  have hms := List.mem_of_getElem? hi
  have hmt := List.mem_of_getElem? hj
  obtain ⟨hkind, htag, hcompat⟩ := ha i j source target hi hj
  have hshape {c : Contribution} (hc : c ∈ cs) (hck : c.kind = source.kind) :
      (∃ a, c.recv = [a]) ∧ c.sendCounts.length = n ∧ c.recvCounts.length = n := by
    have hs := hg.shape c hc
    rcases hks with hks | hks <;> simpa only [Contribution.Shape, hck, hks] using hs
  obtain ⟨⟨a, hrecv⟩, -, -⟩ := hshape hmt hkind.symm
  obtain ⟨-, hstarts, -⟩ := hshape hms rfl
  have hsent := (hg.fits source hms).sent
  have hreceived := (hg.fits target hmt).received
  rw [hws] at hsent
  rw [← htag, hws] at hreceived
  have hjn : j < source.sendCounts.length := by
    rw [hstarts, ← hg.length]
    exact (List.getElem?_eq_some_iff.mp hj).1
  obtain ⟨count, hcount⟩ : ∃ count, source.sendCounts[j]? = some count :=
    ⟨_, List.getElem?_eq_getElem hjn⟩
  have hexpected : target.recvCounts[i]? = some count := by
    rw [← hcount]
    rcases hks with hks | hks <;> simpa only [Contribution.Compatible, hks, eq_comm] using hcompat
  -- Every product below is at most the bytes of a whole table.
  have hblock : (source.sendCounts.take j).sum * width + count * width ≤ source.sendCounts.sum * width := by
    rw [← Nat.add_mul]
    exact Nat.mul_le_mul_right width (sum_take_add_le hcount)
  have hplace : (target.recvCounts.take i).sum * width + count * width ≤ target.recvCounts.sum * width := by
    rw [← Nat.add_mul]
    exact Nat.mul_le_mul_right width (sum_take_add_le hexpected)
  have hstretch : checkStretch (source.outgoing h width).length ((source.sendCounts.take j).sum * width)
      (count * width) = .ok () := checkStretch_eq_ok hblock hsent
  have h0 : target.recv[0]? = some a := by rw [hrecv]; rfl
  have hsums : source.sendCounts.sum < sizeLimit := sum_lt_of_bytes (hws.symm ▸ hsent)
  have hsumr : target.recvCounts.sum < sizeLimit := sum_lt_of_bytes (hg.fits target hmt).received
  have hexchanged : exchanged h width target source j i = (a.advance ((target.recvCounts.take i).sum * width),
      ((source.outgoing h width).bytes.drop ((source.sendCounts.take j).sum * width)).take (count * width)) := by
    rw [exchanged, hrecv, List.getD_eq_getElem?_getD, List.getD_eq_getElem?_getD, hcount]
    rfl
  rw [hexchanged]
  refine ⟨?_, fun b p hcov => ⟨j, target, hj, ?_⟩⟩
  · rw [exchangeDelivery, displacements_eq_ok hsumr, ok_bind, displacements_eq_ok hsums, ok_bind,
      entry_eq_ok (getElem?_places hcount), ok_bind, mulSize_eq_ok (by omega), ok_bind, entry_eq_ok hcount,
      ok_bind, mulSize_eq_ok (by omega), ok_bind, hstretch, ok_bind,
      entry_eq_ok (getElem?_places hexpected), ok_bind, mulSize_eq_ok (by omega), ok_bind, entry_eq_ok h0]
    rfl
  · have hwithin : a.Covers (target.recvCounts.sum * target.tag.width) b p := by
      refine Address.Covers.of_advance hcov ?_
      rw [← htag, hws]
      have hl := List.length_take_le (count * width)
        ((source.outgoing h width).bytes.drop ((source.sendCounts.take j).sum * width))
      exact le_trans (Nat.add_le_add_left hl _) hplace
    have hm : a ∈ target.recv := hrecv ▸ List.mem_singleton_self a
    rcases hks with hks | hks <;> simp only [Contribution.Receives, ← hkind, hks] <;>
      exact ⟨a, hm, hwithin⟩

/-- All that a rank sends is read at once in an agreed exchange. -/
theorem exchangeSent_eq {cs : List Contribution} {width : Nat} (hg : Gathered n cs)
    (hk : ∀ c ∈ cs, c.tag.width = width) (h : Heap) :
    (cs.mapM fun c => do outgoing h width c (← sumSizes c.sendCounts)) =
      .ok (cs.map (·.outgoing h width)) := by
  refine mapM_eq_ok_map fun c hc => ?_
  have hf := (hg.fits c hc).sent
  rw [sumSizes_eq_ok (sum_lt_of_bytes hf), ok_bind]
  exact outgoing_eq_ok rfl (hk c hc ▸ hf)

/-- An agreed exchange delivers the block of every two ranks, where the receiver's table puts it. -/
theorem exchangeDeliveries_eq {cs : List Contribution} {width : Nat} (hg : Gathered n cs) (ha : Agree cs)
    (hk : ∀ c ∈ cs, (c.kind = .alltoall ∨ c.kind = .alltoallv) ∧ c.tag.width = width) (h : Heap) :
    ∃ ds, exchangeDeliveries h width cs = .ok ds ∧ (∀ d ∈ ds, Lands cs d) ∧
      ∀ d, d ∈ ds ↔ ∃ i j source target, cs[i]? = some source ∧ cs[j]? = some target ∧
        d = exchanged h width target source j i := by
  have hmem {i : Nat} {source : Contribution} {out : Outgoing}
      (hs : ((source, out), i) ∈ (cs.zip (cs.map (Contribution.outgoing · h width))).zipIdx) :
      cs[i]? = some source ∧ source.outgoing h width = out := by
    obtain ⟨hi, ho⟩ := List.getElem?_zip_eq_some.mp (List.mk_mem_zipIdx_iff_getElem?.mp hs)
    rw [List.getElem?_map, hi] at ho
    exact ⟨hi, Option.some.inj ho⟩
  have hblock {i j : Nat} {source target : Contribution} (hi : cs[i]? = some source) (hj : cs[j]? = some target) :=
    exchangeDelivery_ok hg ha hi hj (hk source (List.mem_of_getElem? hi)).1 (hk source (List.mem_of_getElem? hi)).2 h
  have hrow : ∀ t ∈ cs.zipIdx, exchangeRow width (cs.zip (cs.map (Contribution.outgoing · h width))) t.1 t.2 =
      .ok ((cs.zip (cs.map (Contribution.outgoing · h width))).zipIdx.map fun s =>
        exchanged h width t.1 s.1.1 t.2 s.2) := by
    rintro ⟨target, j⟩ ht
    refine mapM_eq_ok_map ?_
    rintro ⟨⟨source, out⟩, i⟩ hs
    obtain ⟨hi, rfl⟩ := hmem hs
    exact (hblock hi (List.mk_mem_zipIdx_iff_getElem?.mp ht)).1
  have hds (d : Delivery) : d ∈ (cs.zipIdx.map fun t => (cs.zip (cs.map (Contribution.outgoing · h width))).zipIdx.map
      fun s => exchanged h width t.1 s.1.1 t.2 s.2).flatten ↔ ∃ i j source target, cs[i]? = some source ∧
        cs[j]? = some target ∧ d = exchanged h width target source j i := by
    constructor
    · intro hd
      obtain ⟨row, hrow, hd⟩ := List.mem_flatten.mp hd
      obtain ⟨⟨target, j⟩, ht, rfl⟩ := List.mem_map.mp hrow
      obtain ⟨⟨⟨source, out⟩, i⟩, hs, rfl⟩ := List.mem_map.mp hd
      exact ⟨i, j, source, target, (hmem hs).1, List.mk_mem_zipIdx_iff_getElem?.mp ht, rfl⟩
    · rintro ⟨i, j, source, target, hi, hj, rfl⟩
      refine List.mem_flatten.mpr ⟨_, List.mem_map.mpr ⟨(target, j), List.mk_mem_zipIdx_iff_getElem?.mpr hj, rfl⟩, ?_⟩
      refine List.mem_map.mpr ⟨((source, source.outgoing h width), i), ?_, rfl⟩
      refine List.mk_mem_zipIdx_iff_getElem?.mpr (List.getElem?_zip_eq_some.mpr ⟨hi, ?_⟩)
      rw [List.getElem?_map, hi, Option.map_some]
  rw [exchangeDeliveries, exchangeSent_eq hg (fun c hc => (hk c hc).2) h, ok_bind, mapM_eq_ok_map hrow, ok_bind]
  refine ⟨_, rfl, fun d hd => ?_, hds⟩
  obtain ⟨i, j, source, target, hi, hj, rfl⟩ := (hds d).mp hd
  exact (hblock hi hj).2

/-- An agreed exchange is delivered block by block, each where the receiver's table puts it. -/
theorem exchangeDeliveries_ok {cs : List Contribution} {width : Nat} (hg : Gathered n cs) (ha : Agree cs)
    (hk : ∀ c ∈ cs, (c.kind = .alltoall ∨ c.kind = .alltoallv) ∧ c.tag.width = width) (h : Heap) :
    ∃ ds, exchangeDeliveries h width cs = .ok ds ∧ ∀ d ∈ ds, Lands cs d := by
  obtain ⟨ds, hds, hland, -⟩ := exchangeDeliveries_eq hg ha hk h
  exact ⟨ds, hds, hland⟩

/-! ## Every agreed call is carried out -/

/-- Contributions that agree have deliveries, and all of them land. -/
theorem deliveries_ok {cs : List Contribution} (hg : Gathered n cs) (ha : Agree cs) (h : Heap) :
    ∃ ds, deliveries h cs = .ok ds ∧ ∀ d ∈ ds, Lands cs d := by
  cases cs with
  | nil => exact ⟨[], rfl, by simp⟩
  | cons first rest =>
    have hsame : ∀ c ∈ first :: rest, c.kind = first.kind ∧ c.tag.width = first.tag.width := by
      intro c hc
      obtain ⟨i, hi⟩ := List.mem_iff_getElem?.mp hc
      obtain ⟨hkind, htag⟩ := ha.same hi (j := 0) (d := first) rfl
      exact ⟨hkind, congrArg Tag.width htag⟩
    cases hk : first.kind with
    | barrier =>
      simp only [deliveries, hk]
      exact ⟨[], rfl, by simp⟩
    | bcast =>
      simp only [deliveries, hk]
      exact broadcastDeliveries_ok hg ha hk h
    | allreduce =>
      simp only [deliveries, hk]
      exact reductionDeliveries_ok hg ha (.inl hk) h
    | reduce =>
      simp only [deliveries, hk]
      exact reductionDeliveries_ok hg ha (.inr hk) h
    | allgatherv =>
      simp only [deliveries, hk]
      exact gatherDeliveries_ok hg ha (fun c hc => ⟨(hsame c hc).1.trans hk, (hsame c hc).2⟩) h
    | alltoall =>
      simp only [deliveries, hk]
      exact exchangeDeliveries_ok hg ha
        (fun c hc => ⟨.inl ((hsame c hc).1.trans hk), (hsame c hc).2⟩) h
    | alltoallv =>
      simp only [deliveries, hk]
      exact exchangeDeliveries_ok hg ha
        (fun c hc => ⟨.inr ((hsame c hc).1.trans hk), (hsame c hc).2⟩) h

/-- A collective ends with its outcome fixed by the contributions alone: a mismatch and untouched memory, or
deliveries that all land. -/
theorem perform_ok {cs : List Contribution} (hg : Gathered n cs) (h : Heap) :
    ∃ outcome h', mismatch? cs = .ok outcome ∧ perform cs h = .ok (outcome, h') ∧
      (outcome = none ↔ Agree cs) ∧ (outcome ≠ none → h' = h) ∧
      (outcome = none → ∃ ds, deliveries h cs = .ok ds ∧ h' = h.deliver ds ∧ ∀ d ∈ ds, Lands cs d) := by
  obtain ⟨outcome, ho, hn⟩ := mismatch?_ok hg.pos hg.length hg.shape
  cases outcome with
  | some m =>
    exact ⟨some m, h, ho, perform_mismatch ho, hn, fun _ => rfl, fun hm => absurd hm (by simp)⟩
  | none =>
    obtain ⟨ds, hds, hland⟩ := deliveries_ok hg (hn.mp rfl) h
    exact ⟨none, h.deliver ds, ho, perform_agreed ho hds, hn, fun hm => absurd rfl hm,
      fun _ => ⟨ds, hds, rfl, hland⟩⟩

/-- How a collective over the contributions of all ranks ends. -/
def verdict (cs : List Contribution) : CallOutcome :=
  match mismatch? cs with
  | .ok outcome => outcome
  | .error _ => none

/-- Memory after a collective over the contributions of all ranks. -/
def Heap.after (h : Heap) (cs : List Contribution) : Heap :=
  match perform cs h with
  | .ok (_, h') => h'
  | .error _ => h

/-- A collective of a whole group ends with its verdict, whatever is in memory. -/
theorem perform_eq_ok {cs : List Contribution} (hg : Gathered n cs) (h : Heap) :
    perform cs h = .ok (verdict cs, h.after cs) := by
  obtain ⟨outcome, h', ho, hp, -⟩ := perform_ok hg h
  simp only [verdict, Heap.after, ho, hp]

/-- The verdict reports nothing exactly if the ranks agree. -/
theorem verdict_eq_none_iff {cs : List Contribution} (hg : Gathered n cs) :
    verdict cs = none ↔ Agree cs := by
  obtain ⟨outcome, h', ho, -, hn, -⟩ := perform_ok hg {}
  simp only [verdict, ho, hn]

/-- Contributions that disagree leave memory as it was; otherwise their deliveries are made, and land. -/
theorem after_ok {cs : List Contribution} (hg : Gathered n cs) (h : Heap) :
    ¬Agree cs ∧ h.after cs = h ∨
      Agree cs ∧ ∃ ds, deliveries h cs = .ok ds ∧ h.after cs = h.deliver ds ∧ ∀ d ∈ ds, Lands cs d := by
  obtain ⟨outcome, h', -, hp, hn, hsame, hland⟩ := perform_ok hg h
  have ha : h.after cs = h' := by simp only [Heap.after, hp]
  rw [ha]
  by_cases ho : outcome = none
  · exact .inr ⟨hn.mp ho, hland ho⟩
  · exact .inl ⟨fun h => ho (hn.mpr h), hsame ho⟩

/-- A collective over contributions that passed the checks at issue, with byte counts that are sizes, never
faults: no sum or product leaves its range, and no entry or block is missing. It succeeds exactly if the
ranks agree, and a mismatch leaves every byte of memory as it was. -/
theorem perform_total_exact_atomic (hn : 0 < n) {cs : List Contribution} (hlen : cs.length = n)
    (hissued : ∀ c ∈ cs, c.Issued n) (hfits : ∀ c ∈ cs, c.Fits) (h : Heap) :
    ∃ outcome h', perform cs h = .ok (outcome, h') ∧ (outcome = none ↔ Agree cs) ∧
      (outcome ≠ none → h' = h) := by
  have hg : Gathered n cs := ⟨hn, hlen, fun c hc => (hissued c hc).shape, hfits⟩
  obtain ⟨outcome, h', -, hp, ha, hm, -⟩ := perform_ok hg h
  exact ⟨outcome, h', hp, ha, hm⟩

end Group

/-- The parts of two ranks in an exchange where the first sends two elements to the second, which expects
three. -/
def lopsided : List Contribution :=
  [{ kind := .alltoallv, tag := .int, recv := [.nowhere], sendCounts := [1, 2], recvCounts := [1, 2] },
   { kind := .alltoallv, tag := .int, recv := [.nowhere], sendCounts := [2, 0], recvCounts := [3, 0] }]

/-- The two ranks do not agree, and memory stays as it was. -/
theorem perform_lopsided :
    (∀ c ∈ lopsided, c.Issued 2) ∧ (∀ c ∈ lopsided, c.Fits) ∧ ¬Agree lopsided ∧
      ∃ outcome h', perform lopsided {} = .ok (outcome, h') ∧ outcome ≠ none ∧ h' = {} := by
  have hissued : ∀ c ∈ lopsided, c.Issued 2 := by
    refine List.forall_mem_cons.mpr ⟨.inl ⟨.alltoallv .nowhere [1, 2] .nowhere [1, 2] .int, rfl⟩,
      List.forall_mem_singleton.mpr (.inl ⟨.alltoallv .nowhere [2, 0] .nowhere [3, 0] .int, rfl⟩)⟩
  have hfits : ∀ c ∈ lopsided, c.Fits :=
    List.forall_mem_cons.mpr ⟨⟨by decide, by decide⟩, List.forall_mem_singleton.mpr ⟨by decide, by decide⟩⟩
  have hdis : ¬Agree lopsided := fun ha => absurd (ha 0 1 _ _ rfl rfl).2.2 (by simp [Contribution.Compatible])
  obtain ⟨outcome, h', hp, hn, hsame⟩ :=
    perform_total_exact_atomic (by decide) rfl hissued hfits {}
  have hne : outcome ≠ none := fun h => hdis (hn.mp h)
  exact ⟨hissued, hfits, hdis, outcome, h', hp, hne, hsame hne⟩

end Collectives
