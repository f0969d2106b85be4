import Collectives.Proofs.FlatRegions
import Collectives.Proofs.Footprint

/-!
# Exchanges between buffers

In an exchange every rank sends a block of adjacent elements to each rank, and receives a block from each, side by
side. The ranks agree if what one sends to another is as much as the other expects. Then every block arrives as its
sender had it, also where senders and receivers overlap, and no byte changes but those that are received into.
-/

namespace Collectives

/-! ## Rows and tables -/

namespace Heap

variable {h : Heap} {a : Address} {width : Nat}

/-- A row is its first elements and then the others. -/
theorem row_add (first rest : Nat) :
    h.row a width (first + rest) = h.row a width first ++ h.row (a.advance (first * width)) width rest := by
  unfold row
  rw [List.range_add, List.map_append, List.map_map]
  refine congrArg _ (List.map_congr_left fun i _ => ?_)
  simp only [Function.comp_apply, Address.advance, Nat.add_mul, Nat.add_assoc]

/-- Some adjacent elements of a row are a row themselves. -/
theorem row_drop_take {start length total : Nat} (hin : start + length ≤ total) :
    ((h.row a width total).drop start).take length = h.row (a.advance (start * width)) width length := by
  obtain ⟨rest, rfl⟩ := Nat.exists_eq_add_of_le hin
  have hskipped : (h.row a width start).length = start := length_row ..
  have hkept : (h.row (a.advance (start * width)) width length).length = length := length_row ..
  rw [Nat.add_assoc, row_add, List.drop_left' hskipped, row_add, List.take_left' hkept]

end Heap

section Tables

variable {i j : Nat}

/-- Each block of a table ends within the table, where there is no such block as well. -/
theorem sum_take_add_getD_le (counts : List Nat) (i : Nat) : (counts.take i).sum + counts.getD i 0 ≤ counts.sum := by
  rw [List.getD_eq_getElem?_getD]
  cases hc : counts[i]? with
  | some count => exact sum_take_add_le hc
  | none =>
    rw [Option.getD_none, Nat.add_zero, ← List.sum_take_add_sum_drop counts i]
    exact Nat.le_add_right ..

/-- A block of a table ends before the later ones begin. -/
theorem sum_take_add_getD_le_of_lt (counts : List Nat) (hij : i < j) :
    (counts.take i).sum + counts.getD i 0 ≤ (counts.take j).sum := by
  have hin := sum_take_add_getD_le (counts.take j) i
  rwa [List.take_take, Nat.min_eq_left hij.le, List.getD_eq_getElem?_getD, List.getElem?_take_of_lt hij,
    ← List.getD_eq_getElem?_getD] at hin

end Tables

namespace Buffer

variable {h h' : Heap} {b : Buffer} {n start length : Nat}

/-- Elements that lie in memory are no more than can be counted. -/
theorem Room.lt_sizeLimit (hb : b.Room h n) (hbounded : h.Bounded) : n < sizeLimit := by
  have hlimit : blockLimit < sizeLimit := by decide
  rcases Nat.eq_zero_or_pos n with rfl | hpos
  · exact lt_trans (by decide) hlimit
  · have hroom := hb hpos
    have hblock := hbounded b.block
    have hwidth := Nat.le_mul_of_pos_right (b.offset + n) b.dtype.width_pos
    omega

/-- A stretch begins so many elements after the buffer. -/
theorem place_stretch (b : Buffer) (start length : Nat) :
    (b.stretch start length).place (b.stretch start length).offset =
      (b.place b.offset).advance (start * b.dtype.width) := by
  simp only [place, stretch, Address.advance, Nat.add_mul]

/-- Adjacent elements of a buffer are a part of its words. -/
theorem Solid.words_stretch (hb : b.Solid h n) (hbounded : h.Bounded) (hin : start + length ≤ n) (h' : Heap) :
    (b.stretch start length).words h' = ((b.words h').drop start).take length := by
  have hsmall := hb.room.lt_sizeLimit hbounded
  rw [(hb.room.stretch hin (by omega)).words_eq h', hb.words_eq h', Heap.row_drop_take hin, place_stretch]
  rfl

end Buffer

/-! ## What a rank asks for -/

/-- The blocks that one rank sends and receives in an exchange, one for each rank. -/
@[ext]
structure Exchange where
  /-- The buffer from whose first element on the blocks lie that are sent. -/
  send : Buffer
  /-- Elements sent to each rank. -/
  sendCounts : List Nat
  /-- The buffer from whose first element on blocks are received. -/
  recv : Buffer
  /-- Elements received from each rank. -/
  recvCounts : List Nat
  /-- The kind of data. -/
  tag : Tag

namespace Exchange

/-- The call that asks for the exchange. -/
def call (x : Exchange) (h : Heap) : Except Fault Call := do
  return .alltoallv (← x.send.address h) x.sendCounts (← x.recv.address h) x.recvCounts x.tag

/-- The block that is sent to a rank. -/
def sent (x : Exchange) (rank : Nat) : Buffer := x.send.stretch (x.sendCounts.take rank).sum (x.sendCounts.getD rank 0)

/-- The block that is received from a rank. -/
def received (x : Exchange) (rank : Nat) : Buffer :=
  x.recv.stretch (x.recvCounts.take rank).sum (x.recvCounts.getD rank 0)

/-- All that is received. -/
def landing (x : Exchange) : Buffer := x.recv.stretch 0 x.recvCounts.sum

/-- What the rank contributes, given where its buffers begin. -/
def contribution (x : Exchange) (source target : Address) : Contribution :=
  { kind := .alltoallv, tag := x.tag, send := source, recv := [target], sendCounts := x.sendCounts,
    recvCounts := x.recvCounts }

/-- The addresses are where the buffers begin, as far as elements are sent and received. -/
structure Placed (x : Exchange) (source target : Address) : Prop where
  source : 0 < x.sendCounts.sum → source = x.send.place x.send.offset
  target : 0 < x.recvCounts.sum → target = x.recv.place x.recv.offset

/-- There is a block for each of `n` ranks on both sides, and all of them lie in memory. -/
structure Lent (x : Exchange) (n : Nat) (h : Heap) : Prop where
  sends : x.sendCounts.length = n
  receives : x.recvCounts.length = n
  source : x.send.Lends h x.tag x.sendCounts.sum
  target : x.recv.Lends h x.tag x.recvCounts.sum

variable {x : Exchange} {n : Nat} {h h' : Heap}

namespace Lent

theorem later (hx : x.Lent n h) (hlater : h.Extends h') : x.Lent n h' :=
  ⟨hx.sends, hx.receives, hx.source.later hlater, hx.target.later hlater⟩

/-- The exchange passes the checks at issue. -/
theorem contribution_eq_ok (hx : x.Lent n h) (source target : Address) :
    Fabric.contribution n (.alltoallv source x.sendCounts target x.recvCounts x.tag) =
      .ok (x.contribution source target) := by
  have hsends : Fabric.checkCounts n "send_counts" x.sendCounts = .ok () := if_pos hx.sends
  have hreceives : Fabric.checkCounts n "recv_counts" x.recvCounts = .ok () := if_pos hx.receives
  change (Fabric.checkCounts n "send_counts" x.sendCounts >>= fun _ => _) = _
  rw [hsends, ok_bind, hreceives, ok_bind]
  rfl

/-- What is contributed begins where the buffers do. -/
theorem of_call (hx : x.Lent n h) {call : Call} {c : Contribution} (hcall : x.call h = .ok call)
    (hc : Fabric.contribution n call = .ok c) :
    ∃ source target, c = x.contribution source target ∧ x.Placed source target := by
  obtain ⟨source, hsource, hcall⟩ := exists_of_bind_eq_ok hcall
  obtain ⟨target, htarget, hcall⟩ := exists_of_bind_eq_ok hcall
  cases hcall
  refine ⟨source, target, Except.ok.inj (hc.symm.trans (hx.contribution_eq_ok source target)), ?_, ?_⟩
  · exact fun hpos => Buffer.address_eq hx.source.room hpos hsource
  · exact fun hpos => Buffer.address_eq hx.target.room hpos htarget

theorem width_send (hx : x.Lent n h) : x.send.dtype.width = x.tag.width :=
  (ElementType.width_of_tag? hx.source.tagged).symm

theorem width_recv (hx : x.Lent n h) : x.recv.dtype.width = x.tag.width :=
  (ElementType.width_of_tag? hx.target.tagged).symm

theorem sent_solid (hx : x.Lent n h) (hb : h.Bounded) (rank : Nat) :
    (x.sent rank).Solid h (x.sendCounts.getD rank 0) := by
  have hin := sum_take_add_getD_le x.sendCounts rank
  have hsmall := hx.source.room.lt_sizeLimit hb
  exact hx.source.room.stretch hin (by omega)

theorem received_solid (hx : x.Lent n h) (hb : h.Bounded) (rank : Nat) :
    (x.received rank).Solid h (x.recvCounts.getD rank 0) := by
  have hin := sum_take_add_getD_le x.recvCounts rank
  have hsmall := hx.target.room.lt_sizeLimit hb
  exact hx.target.room.stretch hin (by omega)

theorem landing_solid (hx : x.Lent n h) (hb : h.Bounded) : x.landing.Solid h x.recvCounts.sum :=
  hx.target.room.stretch (Nat.zero_add _).le (hx.target.room.lt_sizeLimit hb)

/-- The bytes that are received are adjacent. -/
theorem holds_landing_iff (hx : x.Lent n h) (hb : h.Bounded) {block pos : Nat} : x.landing.Holds block pos ↔
    (x.recv.place x.recv.offset).Covers (x.recvCounts.sum * x.tag.width) block pos := by
  rw [(hx.landing_solid hb).holds_iff, ← hx.width_recv]
  exact Iff.rfl

/-- Every byte that is received is received from some rank. -/
theorem exists_received (hx : x.Lent n h) (hb : h.Bounded) {block pos : Nat} (hh : x.landing.Holds block pos) :
    ∃ i < n, (x.received i).Holds block pos := by
  obtain ⟨hblock, hlo, hhi⟩ := (hx.holds_landing_iff hb).mp hh
  obtain ⟨i, count, hcount, hstart, hstop⟩ :=
    exists_block_of_lt (x := pos - (x.recv.place x.recv.offset).pos) (by omega : _ < x.recvCounts.sum * x.tag.width)
  have hi : i < n := hx.receives ▸ (List.getElem?_eq_some_iff.mp hcount).1
  have hcount' : x.recvCounts.getD i 0 = count := by rw [List.getD_eq_getElem?_getD, hcount, Option.getD_some]
  have hwidth : (x.received i).dtype.width = x.tag.width := hx.width_recv
  refine ⟨i, hi, (hx.received_solid hb i).holds_iff.mpr ?_⟩
  rw [hcount', hwidth, received, Buffer.place_stretch, hx.width_recv]
  refine ⟨hblock, ?_, ?_⟩
  · simp only [Address.advance]
    omega
  · simp only [Address.advance]
    omega

/-- What is received from one rank is part of all that is received. -/
theorem holds_landing (hx : x.Lent n h) (hb : h.Bounded) {i block pos : Nat} (hh : (x.received i).Holds block pos) :
    x.landing.Holds block pos := by
  have hin := sum_take_add_getD_le x.recvCounts i
  have hend := Nat.mul_le_mul_right x.recv.dtype.width (Nat.add_le_add_left hin x.recv.offset)
  have hstart := Nat.mul_le_mul_right x.recv.dtype.width (Nat.le_add_right x.recv.offset (x.recvCounts.take i).sum)
  obtain ⟨hblock, hlo, hhi⟩ := Buffer.holds_stretch hh
  rw [← Nat.add_assoc] at hend
  rw [hx.holds_landing_iff hb, ← hx.width_recv, hblock]
  refine ⟨rfl, hstart.trans hlo, lt_of_lt_of_le hhi (hend.trans ?_)⟩
  rw [Nat.add_mul]
  exact le_rfl

/-- All that is received is the blocks of all ranks, in their order. -/
theorem words_landing (hx : x.Lent n h) (hb : h.Bounded) (h' : Heap) :
    x.landing.words h' = (List.range n).flatMap fun i => (x.received i).words h' := by
  have hsmall := hx.target.room.lt_sizeLimit hb
  have hfirst (k : Nat) (hk : k ≤ n) :
      h'.row (x.recv.place x.recv.offset) x.recv.dtype.width (x.recvCounts.take k).sum =
        (List.range k).flatMap fun i => (x.received i).words h' := by
    induction k with
    | zero => rfl
    | succ k ih =>
      have hk' : k < x.recvCounts.length := by
        rw [hx.receives]
        omega
      have hplace := x.recv.place_stretch (x.recvCounts.take k).sum (x.recvCounts.getD k 0)
      have hcount : x.recvCounts[k] = x.recvCounts.getD k 0 := by
        rw [List.getD_eq_getElem?_getD, List.getElem?_eq_getElem hk', Option.getD_some]
      rw [List.sum_take_succ x.recvCounts k hk', Heap.row_add, ih (by omega), List.range_succ, List.flatMap_append,
        List.flatMap_singleton, (hx.received_solid hb k).words_eq h', received, hplace, hcount]
      rfl
  have hall := hfirst n le_rfl
  rw [List.take_of_length_le hx.receives.le] at hall
  rw [(hx.landing_solid hb).words_eq h', ← hall]
  rfl

end Lent

/-- Of the blocks that a rank receives no two have a byte in common. -/
theorem received_unique {i k block pos : Nat} (hi : (x.received i).Holds block pos)
    (hk : (x.received k).Holds block pos) :
    i = k := by
  have hbefore {i k : Nat} (hlt : i < k) (hi : (x.received i).Holds block pos)
      (hk : (x.received k).Holds block pos) : False := by
    have hend := sum_take_add_getD_le_of_lt x.recvCounts hlt
    have hbytes := Nat.mul_le_mul_right x.recv.dtype.width (Nat.add_le_add_left hend x.recv.offset)
    obtain ⟨-, -, hhi⟩ := Buffer.holds_stretch hi
    obtain ⟨-, hlo, -⟩ := Buffer.holds_stretch hk
    rw [← Nat.add_assoc] at hbytes
    omega
  rcases Nat.lt_trichotomy i k with hlt | heq | hgt
  · exact (hbefore hlt hi hk).elim
  · exact heq
  · exact (hbefore hgt hk hi).elim

/-- Blocks begin where the blocks before them end. -/
theorem Placed.place_sent {source target : Address} {rank : Nat} (hx : x.Placed source target)
    (hpos : 0 < x.sendCounts.getD rank 0) : (x.sent rank).place (x.sent rank).offset =
      source.advance ((x.sendCounts.take rank).sum * x.send.dtype.width) := by
  have hin := sum_take_add_getD_le x.sendCounts rank
  rw [hx.source (by omega)]
  exact Buffer.place_stretch ..

theorem Placed.place_received {source target : Address} {rank : Nat} (hx : x.Placed source target)
    (hpos : 0 < x.recvCounts.getD rank 0) : (x.received rank).place (x.received rank).offset =
      target.advance ((x.recvCounts.take rank).sum * x.recv.dtype.width) := by
  have hin := sum_take_add_getD_le x.recvCounts rank
  rw [hx.target (by omega)]
  exact Buffer.place_stretch ..

end Exchange

/-! ## What an exchange makes of memory -/

/-- What all ranks contribute to an exchange of blocks that lie in memory. -/
structure Trade (n : Nat) (x : Nat → Exchange) (h : Heap) (cs : List Contribution) : Prop where
  gathered : Gathered n cs
  bounded : h.Bounded
  lent : ∀ q < n, (x q).Lent n h
  asked : ∀ q < n, ∃ source target, cs[q]? = some ((x q).contribution source target) ∧ (x q).Placed source target

namespace Trade

variable {n i j : Nat} {x : Nat → Exchange} {h : Heap} {cs : List Contribution}

/-- Every contribution is some rank's. -/
theorem exists_of_getElem? (ht : Trade n x h cs) {c : Contribution} (hc : cs[i]? = some c) :
    i < n ∧ ∃ source target, c = (x i).contribution source target ∧ (x i).Placed source target := by
  have hi : i < n := ht.gathered.length ▸ (List.getElem?_eq_some_iff.mp hc).1
  obtain ⟨source, target, hasked, hplaced⟩ := ht.asked i hi
  rw [hasked, Option.some.injEq] at hc
  exact ⟨hi, source, target, hc.symm, hplaced⟩

/-- The ranks agree if they have one kind of data and each receives what the others send to it. -/
theorem agree_iff (ht : Trade n x h cs) : Agree cs ↔
    ∀ i < n, ∀ j < n, (x i).tag = (x j).tag ∧ (x i).sendCounts.getD j 0 = (x j).recvCounts.getD i 0 := by
  have hcompatible {i j : Nat} (hi : i < n) (hj : j < n) :
      (x i).sendCounts[j]? = (x j).recvCounts[i]? ↔ (x i).sendCounts.getD j 0 = (x j).recvCounts.getD i 0 := by
    have hj' : j < (x i).sendCounts.length := (ht.lent i hi).sends.symm ▸ hj
    have hi' : i < (x j).recvCounts.length := (ht.lent j hj).receives.symm ▸ hi
    simp only [List.getD_eq_getElem?_getD, List.getElem?_eq_getElem hj', List.getElem?_eq_getElem hi', Option.getD_some,
      Option.some.injEq]
  constructor
  · intro ha i hi j hj
    obtain ⟨_, _, hc, -⟩ := ht.asked i hi
    obtain ⟨_, _, hd, -⟩ := ht.asked j hj
    obtain ⟨-, htag, hcounts⟩ := ha i j _ _ hc hd
    exact ⟨htag, (hcompatible hi hj).mp hcounts⟩
  · intro h i j c d hc hd
    obtain ⟨hi, _, _, rfl, -⟩ := ht.exists_of_getElem? hc
    obtain ⟨hj, _, _, rfl, -⟩ := ht.exists_of_getElem? hd
    obtain ⟨htag, hcounts⟩ := h i hi j hj
    exact ⟨rfl, htag, (hcompatible hi hj).mpr hcounts⟩

/-- The deliveries of an agreed exchange are the blocks of every two ranks. -/
theorem exists_deliveries (ht : Trade n x h cs) (ha : Agree cs) : ∃ ds width, h.after cs = h.deliver ds ∧
    (∀ q < n, (x q).tag.width = width) ∧ (∀ d ∈ ds, Lands cs d) ∧
    ∀ d, d ∈ ds ↔ ∃ i j source target, cs[i]? = some source ∧ cs[j]? = some target ∧
      d = exchanged h width target source j i := by
  obtain ⟨source, target, hfirst, -⟩ := ht.asked 0 ht.gathered.pos
  cases cs with
  | nil => cases hfirst
  | cons first rest =>
    obtain rfl := Option.some.inj hfirst
    rcases after_ok ht.gathered h with ⟨hdis, -⟩ | ⟨-, ds, hds, hafter, -⟩
    · exact absurd ha hdis
    have hkinds : ∀ c ∈ (x 0).contribution source target :: rest,
        (c.kind = .alltoall ∨ c.kind = .alltoallv) ∧ c.tag.width = (x 0).tag.width := by
      intro c hc
      obtain ⟨i, hi⟩ := List.mem_iff_getElem?.mp hc
      obtain ⟨-, _, _, rfl, -⟩ := ht.exists_of_getElem? hi
      obtain ⟨-, htag⟩ := ha.same hi hfirst
      exact ⟨.inr rfl, congrArg Tag.width htag⟩
    obtain ⟨ds', hds', hland, hmem⟩ := exchangeDeliveries_eq ht.gathered ha hkinds h
    have hsame : ds' = ds := Except.ok.inj (hds'.symm.trans hds)
    subst hsame
    refine ⟨ds', (x 0).tag.width, hafter, fun q hq => ?_, hland, hmem⟩
    exact congrArg Tag.width (ht.agree_iff.mp ha q hq 0 ht.gathered.pos).1

/-- An exchange changes no byte but those that some rank receives into. -/
theorem byte?_after (ht : Trade n x h cs) {block pos : Nat} (hout : ∀ q < n, ¬(x q).landing.Holds block pos) :
    (h.after cs).byte? block pos = h.byte? block pos := by
  rcases after_ok ht.gathered h with ⟨-, hsame⟩ | ⟨-, ds, -, hafter, hland⟩
  · rw [hsame]
  · rw [hafter]
    refine Heap.byte?_deliver_of_not_covers fun d hd hcov => ?_
    obtain ⟨q, c, hc, hreceives⟩ := hland d hd block pos hcov
    obtain ⟨hq, source, target, rfl, hplaced⟩ := ht.exists_of_getElem? hc
    obtain ⟨a, ha, hcov⟩ : ∃ a ∈ [target], a.Covers ((x q).recvCounts.sum * (x q).tag.width) block pos := hreceives
    obtain rfl := List.mem_singleton.mp ha
    have hpos : 0 < (x q).recvCounts.sum := by
      refine Nat.pos_of_ne_zero fun hzero => ?_
      obtain ⟨-, hlo, hhi⟩ := hcov
      rw [hzero, Nat.zero_mul] at hhi
      omega
    rw [hplaced.target hpos] at hcov
    exact hout q hq (((ht.lent q hq).holds_landing_iff ht.bounded).mpr hcov)

/-- The block of two ranks, as it is read and where it goes. -/
private theorem exchanged_eq (x y : Exchange) (h : Heap) (width : Nat) (source target source' target' : Address)
    (i j : Nat) :
    exchanged h width (y.contribution source' target') (x.contribution source target) j i =
      (target'.advance ((y.recvCounts.take i).sum * width),
        h.read (source.advance ((x.sendCounts.take j).sum * width)) (x.sendCounts.getD j 0 * width)) := by
  have hin := Nat.mul_le_mul_right width (sum_take_add_getD_le x.sendCounts j)
  rw [Nat.add_mul] at hin
  rw [Heap.read_advance hin]
  rfl

/-- A block that has elements is read where it is sent from, and goes where it is received. -/
private theorem exchanged_eq_block (ht : Trade n x h cs) {c c' : Contribution} {width : Nat} (hc : cs[i]? = some c)
    (hc' : cs[j]? = some c') (hwidth : (x i).tag.width = width) (hwidth' : (x j).tag.width = width)
    (hsent : 0 < (x i).sendCounts.getD j 0) (hreceived : 0 < (x j).recvCounts.getD i 0) :
    exchanged h width c' c j i = (((x j).received i).place ((x j).received i).offset,
      h.read (((x i).sent j).place ((x i).sent j).offset) ((x i).sendCounts.getD j 0 * width)) := by
  obtain ⟨hi, source, target, rfl, hplaced⟩ := ht.exists_of_getElem? hc
  obtain ⟨hj, source', target', rfl, hplaced'⟩ := ht.exists_of_getElem? hc'
  rw [exchanged_eq, hplaced.place_sent hsent, hplaced'.place_received hreceived, (ht.lent i hi).width_send,
    (ht.lent j hj).width_recv, hwidth, hwidth']

/-- What covers a byte at the place of a block that is received holds the byte, if it is no longer than the block. -/
private theorem holds_received_of_covers (ht : Trade n x h cs) {source target : Address} {length block pos : Nat}
    (hj : j < n) (hplaced : (x j).Placed source target) (hlength : length ≤ (x j).recvCounts.getD i 0 * (x j).tag.width)
    (hcov : (target.advance (((x j).recvCounts.take i).sum * (x j).tag.width)).Covers length block pos) :
    ((x j).received i).Holds block pos := by
  have hpos : 0 < (x j).recvCounts.getD i 0 := by
    apply Nat.pos_of_ne_zero
    intro hnone
    obtain ⟨-, hlo, hhi⟩ := hcov
    rw [hnone, Nat.zero_mul] at hlength
    omega
  have hwidth : ((x j).received i).dtype.width = (x j).tag.width := (ht.lent j hj).width_recv
  rw [((ht.lent j hj).received_solid ht.bounded i).holds_iff, hwidth, hplaced.place_received hpos,
    (ht.lent j hj).width_recv]
  obtain ⟨hblock, hlo, hhi⟩ := hcov
  exact ⟨hblock, hlo, by omega⟩

/-- A delivery to a byte that one rank receives from another is the block of these two. -/
private theorem eq_of_covers (ht : Trade n x h cs) (ha : Agree cs) (hj : j < n)
    (happart : ∀ q < n, q ≠ j → (x q).landing.Apart (x j).landing) {p q width block pos : Nat} {c c' : Contribution}
    (hc : cs[p]? = some c) (hc' : cs[q]? = some c') (hwidth : ∀ q < n, (x q).tag.width = width)
    (hheld : ((x j).received i).Holds block pos)
    (hcov : (exchanged h width c' c q p).1.Covers (exchanged h width c' c q p).2.length block pos) : p = i ∧ q = j := by
  obtain ⟨hp, source, target, rfl, -⟩ := ht.exists_of_getElem? hc
  obtain ⟨hq, source', target', rfl, hplaced⟩ := ht.exists_of_getElem? hc'
  rw [exchanged_eq] at hcov
  have hshort := h.length_read_le (source.advance (((x p).sendCounts.take q).sum * width))
    ((x p).sendCounts.getD q 0 * width)
  rw [(ht.agree_iff.mp ha p hp q hq).2, ← hwidth q hq] at hshort hcov
  have hheld' := ht.holds_received_of_covers hq hplaced hshort hcov
  obtain rfl : q = j := by
    by_contra hne
    exact happart q hq hne block pos ((ht.lent q hq).holds_landing ht.bounded hheld')
      ((ht.lent j hj).holds_landing ht.bounded hheld)
  exact ⟨Exchange.received_unique hheld' hheld, rfl⟩

/-- Every block of an agreed exchange is read where it arrives as it was read where it came from, if what the receiver
receives into is its own. -/
theorem read_after (ht : Trade n x h cs) (ha : Agree cs) (hi : i < n) (hj : j < n)
    (happart : ∀ q < n, q ≠ j → (x q).landing.Apart (x j).landing) :
    (h.after cs).read (((x j).received i).place ((x j).received i).offset)
        ((x j).recvCounts.getD i 0 * ((x j).received i).dtype.width) =
      h.read (((x i).sent j).place ((x i).sent j).offset) ((x i).sendCounts.getD j 0 * ((x i).sent j).dtype.width) := by
  obtain ⟨ds, width, hafter, hwidths, -, hmem⟩ := ht.exists_deliveries ha
  obtain ⟨source, target', hsource, -⟩ := ht.asked i hi
  obtain ⟨source', target, htarget, -⟩ := ht.asked j hj
  have hsends := (ht.lent i hi).sent_solid ht.bounded j
  have hreceives := (ht.lent j hj).received_solid ht.bounded i
  obtain ⟨-, hcount⟩ := ht.agree_iff.mp ha i hi j hj
  have hsendWidth : ((x i).sent j).dtype.width = width := ((ht.lent i hi).width_send).trans (hwidths i hi)
  have hrecvWidth : ((x j).received i).dtype.width = width := ((ht.lent j hj).width_recv).trans (hwidths j hj)
  rw [hsendWidth, hrecvWidth, ← hcount]
  rcases Nat.eq_zero_or_pos ((x i).sendCounts.getD j 0) with hzero | hpos
  · rw [hzero, Nat.zero_mul, Heap.read_zero, Heap.read_zero]
  have hpos' := hcount ▸ hpos
  have hsendInside := hsends.inside hpos
  have hrecvInside := hreceives.inside hpos'
  rw [hsendWidth] at hsendInside
  rw [hrecvWidth, ← hcount] at hrecvInside
  have hlength : (h.read (((x i).sent j).place ((x i).sent j).offset) ((x i).sendCounts.getD j 0 * width)).length =
      (x i).sendCounts.getD j 0 * width := Heap.length_read rfl hsendInside
  have hblock := ht.exchanged_eq_block hsource htarget (hwidths i hi) (hwidths j hj) hpos hpos'
  have hone := (hmem _).mpr ⟨i, j, _, _, hsource, htarget, rfl⟩
  rw [hblock] at hone
  rw [hafter]
  generalize hdata : h.read (((x i).sent j).place ((x i).sent j).offset) ((x i).sendCounts.getD j 0 * width) = data
    at hone hlength hblock ⊢
  rw [← hlength]
  refine Heap.read_deliver hone ⟨rfl, hlength.symm ▸ hrecvInside⟩ fun d hd block pos hmine hother => ?_
  obtain ⟨p, q, c, c', hc, hc', rfl⟩ := (hmem d).mp hd
  have hheld : ((x j).received i).Holds block pos := by
    rw [hreceives.holds_iff, hrecvWidth, ← hcount, ← hlength]
    exact hmine
  obtain ⟨rfl, rfl⟩ := ht.eq_of_covers ha hj happart hc hc' hwidths hheld hother
  obtain rfl := Option.some.inj (hsource.symm.trans hc)
  obtain rfl := Option.some.inj (htarget.symm.trans hc')
  exact hblock

/-- Every block of an agreed exchange arrives as its sender had it. -/
theorem words_after (ht : Trade n x h cs) (ha : Agree cs) (hi : i < n) (hj : j < n)
    (happart : ∀ q < n, q ≠ j → (x q).landing.Apart (x j).landing) :
    ((x j).received i).words (h.after cs) = ((x i).sent j).words h := by
  have hread := ht.read_after ha hi hj happart
  obtain ⟨htag, hcount⟩ := ht.agree_iff.mp ha i hi j hj
  have hwidth : ((x j).received i).dtype.width = ((x i).sent j).dtype.width := by
    change (x j).recv.dtype.width = (x i).send.dtype.width
    rw [(ht.lent j hj).width_recv, (ht.lent i hi).width_send, htag]
  rw [((ht.lent j hj).received_solid ht.bounded i).words_eq, ((ht.lent i hi).sent_solid ht.bounded j).words_eq, hwidth,
    ← hcount]
  rw [hwidth, ← hcount] at hread
  exact Heap.row_eq_of_read hread

/-- What an exchange makes of memory depends only on what is exchanged. -/
theorem after_congr {cs' : List Contribution} (ht : Trade n x h cs) (ht' : Trade n x h cs')
    (happart : ∀ i < n, ∀ j < n, i ≠ j → (x i).landing.Apart (x j).landing) : h.after cs = h.after cs' := by
  have hsize {cs : List Contribution} (hg : Gathered n cs) : (h.after cs).blocks.size = h.blocks.size := by
    rcases after_ok hg h with ⟨-, hsame⟩ | ⟨-, ds, -, hafter, -⟩
    · rw [hsame]
    · rw [hafter, Heap.size_deliver]
  refine Heap.ext_bytes ((hsize ht.gathered).trans (hsize ht'.gathered).symm) fun block pos => ?_
  have hagree : Agree cs ↔ Agree cs' := ht.agree_iff.trans ht'.agree_iff.symm
  by_cases hlanding : ∃ j < n, (x j).landing.Holds block pos
  · by_cases ha : Agree cs
    · obtain ⟨j, hj, hh⟩ := hlanding
      obtain ⟨i, hi, hheld⟩ := (ht.lent j hj).exists_received ht.bounded hh
      have hread := ht.read_after ha hi hj fun q hq hne => happart q hq j hj hne
      rw [← ht'.read_after (hagree.mp ha) hi hj fun q hq hne => happart q hq j hj hne] at hread
      obtain ⟨hblock, hlo, hhi⟩ := ((ht.lent j hj).received_solid ht.bounded i).holds_iff.mp hheld
      have hbyte := congrArg (·[pos - (((x j).received i).place ((x j).received i).offset).pos]?) hread
      simp only [Heap.getElem?_read hblock] at hbyte
      rwa [if_pos (by omega), if_pos (by omega), Nat.add_sub_cancel' hlo] at hbyte
    · rcases after_ok ht.gathered h with ⟨-, hsame⟩ | ⟨hyes, -⟩
      · rcases after_ok ht'.gathered h with ⟨-, hsame'⟩ | ⟨hyes, -⟩
        · rw [hsame, hsame']
        · exact absurd (hagree.mpr hyes) ha
      · exact absurd hyes ha
  · have hout : ∀ q < n, ¬(x q).landing.Holds block pos := fun q hq hh => hlanding ⟨q, hq, hh⟩
    rw [ht.byte?_after hout, ht'.byte?_after hout]

end Trade

end Collectives
