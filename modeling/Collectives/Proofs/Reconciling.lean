import Collectives.Proofs.Holding
import Collectives.Proofs.Settling

/-!
# Reconciling is exact

Buffers that lie end to end, each of those with elements where the one before it ends, are recognised as such whatever
empty buffers stand between them, and their region is the stretch that they fill together. All others get a new block
for exactly their elements. Nothing but sizes that overflow can keep a list from being reconciled.
-/

namespace Collectives

/-! ## Buffers end to end -/

/-- The buffers of a list that have elements are contiguous views of one block, and each begins where the one before it
ends. -/
structure EndToEnd (buffers : List Buffer) : Prop where
  contiguous : ∀ b ∈ buffers, b.count ≠ 0 → b.isContiguous = .ok true
  adjacent : (buffers.filter fun b => b.count ≠ 0).IsChain fun b c => c.block = b.block ∧ c.offset = b.offset + b.count

section EndToEnd

variable {buffers : List Buffer} {b : Buffer} {block start : Nat}

theorem lieFrom_cons : LieFrom (b :: buffers) block start ↔
    (b.count ≠ 0 → b.block = block ∧ b.isContiguous = .ok true ∧ b.offset = start) ∧
      LieFrom buffers block (start + b.count) := by
  have hnext (i : Nat) : elementsBefore (b :: buffers) (i + 1) = b.count + elementsBefore buffers i := by
    rw [elementsBefore, List.take_succ_cons, List.map_cons, List.sum_cons, elementsBefore]
  constructor
  · intro h
    refine ⟨fun hne => h 0 b rfl hne, fun i c hc hne => ?_⟩
    obtain ⟨hblock, hcontiguous, hoffset⟩ := h (i + 1) c hc hne
    rw [hnext] at hoffset
    exact ⟨hblock, hcontiguous, by omega⟩
  · rintro ⟨hfirst, hrest⟩ i c hc hne
    cases i with
    | zero =>
      cases hc
      exact hfirst hne
    | succ i =>
      obtain ⟨hblock, hcontiguous, hoffset⟩ := hrest i c hc hne
      rw [hnext]
      exact ⟨hblock, hcontiguous, by omega⟩

/-- Buffers lie from a place on exactly if they lie end to end and the first with elements begins there. -/
theorem lieFrom_iff : LieFrom buffers block start ↔ EndToEnd buffers ∧
    ∀ b ∈ (buffers.filter fun b => b.count ≠ 0).head?, b.block = block ∧ b.offset = start := by
  induction buffers generalizing start with
  | nil => exact iff_of_true (lieFrom_of_empty (by simp)) ⟨⟨by simp, .nil⟩, by simp⟩
  | cons b buffers ih =>
    rw [lieFrom_cons, ih]
    by_cases hzero : b.count = 0
    · have hskip : (b :: buffers).filter (fun b => b.count ≠ 0) = buffers.filter fun b => b.count ≠ 0 :=
        List.filter_cons_of_neg (by simpa using hzero)
      rw [hskip, hzero, Nat.add_zero]
      constructor
      · rintro ⟨-, ⟨hcontiguous, hchain⟩, hhead⟩
        refine ⟨⟨List.forall_mem_cons.mpr ⟨fun hne => absurd hzero hne, hcontiguous⟩, ?_⟩, hhead⟩
        rwa [hskip]
      · rintro ⟨⟨hcontiguous, hchain⟩, hhead⟩
        rw [hskip] at hchain
        exact ⟨fun hne => absurd rfl hne, ⟨(List.forall_mem_cons.mp hcontiguous).2, hchain⟩, hhead⟩
    · have hkeep : (b :: buffers).filter (fun b => b.count ≠ 0) = b :: buffers.filter fun b => b.count ≠ 0 :=
        List.filter_cons_of_pos (by simpa using hzero)
      rw [hkeep]
      constructor
      · rintro ⟨hb, ⟨hcontiguous, hchain⟩, hhead⟩
        obtain ⟨hblock, hdense, hoffset⟩ := hb hzero
        refine ⟨⟨List.forall_mem_cons.mpr ⟨fun _ => hdense, hcontiguous⟩, ?_⟩, ?_⟩
        · rw [hkeep, List.isChain_cons, hblock, hoffset]
          exact ⟨hhead, hchain⟩
        · rintro c ⟨⟩
          exact ⟨hblock, hoffset⟩
      · rintro ⟨⟨hcontiguous, hchain⟩, hhead⟩
        obtain ⟨hdense, hcontiguous⟩ := List.forall_mem_cons.mp hcontiguous
        obtain ⟨hblock, hoffset⟩ := hhead b rfl
        rw [hkeep, List.isChain_cons, hblock, hoffset] at hchain
        exact ⟨fun _ => ⟨hblock, hdense hzero, hoffset⟩, ⟨hcontiguous, hchain.2⟩, hchain.1⟩

/-- Buffers lie end to end exactly if there is a place from which they do. -/
theorem backToBack_iff_endToEnd : BackToBack buffers ↔ EndToEnd buffers := by
  constructor
  · rintro ⟨block, start, h⟩
    exact (lieFrom_iff.mp h).1
  · intro h
    cases hhead : (buffers.filter fun b => b.count ≠ 0).head? with
    | none =>
      refine ⟨0, 0, lieFrom_iff.mpr ⟨h, ?_⟩⟩
      rw [hhead]
      rintro c ⟨⟩
    | some b =>
      refine ⟨b.block, b.offset, lieFrom_iff.mpr ⟨h, ?_⟩⟩
      rw [hhead]
      rintro c ⟨⟩
      exact ⟨rfl, rfl⟩

/-- A list with elements has a last buffer with elements. -/
theorem exists_last (h : totalCount buffers ≠ 0) : ∃ i b, buffers[i]? = some b ∧ b.count ≠ 0 ∧
    elementsBefore buffers i + b.count = totalCount buffers := by
  induction buffers using List.reverseRecOn with
  | nil => exact absurd rfl h
  | append_singleton buffers b ih =>
    have hlength : elementsBefore (buffers ++ [b]) buffers.length = totalCount buffers := by
      rw [elementsBefore_concat le_rfl, elementsBefore, List.take_length, totalCount]
    have htotal : totalCount (buffers ++ [b]) = totalCount buffers + b.count := by simp [totalCount]
    by_cases hb : b.count = 0
    · rw [htotal, hb, Nat.add_zero] at h ⊢
      obtain ⟨i, c, hc, hne, hend⟩ := ih h
      have hi := (List.getElem?_eq_some_iff.mp hc).1
      refine ⟨i, c, ?_, hne, ?_⟩
      · rwa [List.getElem?_append_left hi]
      · rwa [elementsBefore_concat hi.le]
    · refine ⟨buffers.length, b, List.getElem?_concat_length, hb, ?_⟩
      rw [hlength, htotal]

end EndToEnd

/-! ## How reconciling ends -/

/-- There is an answer, or else a fault. -/
def Unrefused {α : Type} (x : Except Failure α) : Prop :=
  ∀ failure, x = .error failure → ∃ cause, failure = .fault cause

namespace Unrefused

variable {α β : Type}

theorem bind {x : Except Failure α} {f : α → Except Failure β} (hx : Unrefused x) (hf : ∀ a, Unrefused (f a)) :
    Unrefused (x >>= f) := by
  cases x with
  | ok a => exact hf a
  | error failure =>
    rintro failure' ⟨⟩
    exact hx failure rfl

theorem ok (a : α) : Unrefused (.ok a) := by
  rintro failure ⟨⟩

theorem size (x : Except Fault α) : Unrefused (liftM x : Except Failure α) := by
  cases x with
  | ok a => exact .ok a
  | error cause =>
    rintro failure ⟨⟩
    exact ⟨cause, rfl⟩

end Unrefused

namespace FlatLayout

theorem unrefused_follows (anchor b : Buffer) (running : Nat) : Unrefused (follows anchor b running) := by
  unfold follows
  split
  · exact .ok false
  · refine .bind (.size _) fun dense => ?_
    split
    · exact .ok false
    · exact .bind (.size _) fun stop => .ok _

theorem unrefused_step (w : Walk) (b : Buffer) : Unrefused (w.step b) := by
  refine .bind (.size _) fun length => .bind (.size _) fun anchored => ?_
  dsimp only
  split
  · exact .bind (unrefused_follows _ b w.running) fun inPlace => .bind (.size _) fun running => .ok _
  · exact .bind (.ok w.inPlace) fun inPlace => .bind (.size _) fun running => .ok _

theorem unrefused_walk (w : Walk) (buffers : List Buffer) : Unrefused (buffers.foldlM Walk.step w) := by
  induction buffers generalizing w with
  | nil => exact .ok w
  | cons b buffers ih =>
    rw [List.foldlM_cons]
    exact .bind (unrefused_step w b) ih

end FlatLayout

namespace Buffer

variable {h : Heap} {b : Buffer} {n : Nat}

/-- A stretch that its block has room for is taken, unless its place overflows. -/
theorem extent_ends (hroom : n ≠ 0 → (b.offset + n) * b.dtype.width ≤ h.blockSize b.block) :
    ((b.offset + n) * b.dtype.width < sizeLimit → b.extent h n = .ok { b with shape := [n], strides := [1] }) ∧
      (sizeLimit ≤ (b.offset + n) * b.dtype.width → ∃ cause, b.extent h n = .error (.fault cause)) := by
  constructor
  · intro hsmall
    have hwide := Nat.le_mul_of_pos_right (b.offset + n) b.dtype.width_pos
    have hrange : require (n == 0 || decide ((b.offset + n) * b.dtype.width ≤ h.blockSize b.block))
        (.extentRange n b.offset) = .ok () := by
      refine if_pos ?_
      rw [Bool.or_eq_true, beq_iff_eq, decide_eq_true_iff]
      by_cases hn : n = 0
      · exact .inl hn
      · exact .inr (hroom hn)
    have hstop : addSize b.offset n = .ok (b.offset + n) := addSize_eq_ok (by omega)
    unfold extent
    rw [lift_size_bind hstop, lift_size_bind (mulSize_eq_ok hsmall), hrange]
    rfl
  · intro hlarge
    unfold extent
    cases hstop : addSize b.offset n with
    | error cause => exact ⟨cause, rfl⟩
    | ok stop =>
      rw [lift_size_bind rfl]
      have hbytes : mulSize stop b.dtype.width = .error .mulOverflow := by
        rw [(addSize_eq_ok_iff.mp hstop).1]
        exact if_neg (Nat.not_lt.mpr hlarge)
      rw [hbytes]
      exact ⟨_, rfl⟩

/-- A new row of zeros is a new block of exactly as many bytes, unless that is too large. -/
theorem zeros_row_ends (dtype : ElementType) (hn : n < sizeLimit) (s : Store) :
    (n * dtype.width ≤ blockLimit → (zeros dtype [n]).run s =
      (.ok { block := s.heap.blocks.size, dtype, shape := [n], strides := [1], offset := 0 },
        { s with heap := { blocks := s.heap.blocks.push (Array.replicate (n * dtype.width) 0) } })) ∧
      (blockLimit < n * dtype.width → ∃ cause, (zeros dtype [n]).run s = (.error (.fault cause), s)) := by
  have hcount : productSizes [n] = .ok n := by
    rw [productSizes_eq_ok]
    · rw [List.prod_singleton]
    · intro k
      cases k with
      | zero =>
        rw [List.take_zero, List.prod_nil]
        decide
      | succ k => simpa using hn
  have hlimit : blockLimit < sizeLimit := by decide
  constructor
  · intro hfit
    unfold zeros
    rw [run_size_bind hcount, run_size_bind (mulSize_eq_ok (lt_of_le_of_lt hfit hlimit))]
    unfold allocate
    rw [if_neg (Nat.not_lt.mpr hfit)]
    rfl
  · intro hlarge
    unfold zeros
    rw [run_size_bind hcount]
    cases hbytes : mulSize n dtype.width with
    | error cause => exact ⟨cause, rfl⟩
    | ok bytes =>
      rw [run_size_bind rfl, (mulSize_eq_ok_iff.mp hbytes).1]
      unfold allocate
      rw [if_pos hlarge]
      exact ⟨_, rfl⟩

end Buffer

namespace FlatLayout

/-- The sizes of a list that begins with the given buffer do not overflow when it is reconciled. -/
structure Fits (first : Buffer) (buffers : List Buffer) : Prop where
  /-- The elements of every buffer can be counted. -/
  counted : ∀ b ∈ buffers, ∃ n, b.numel = .ok n
  /-- All the elements together take no more bytes than a block can have. -/
  addressable : totalCount buffers * (anchorOf first buffers).dtype.width ≤ blockLimit
  /-- If there are no elements, the region begins where the first buffer does. -/
  placed : totalCount buffers = 0 → first.offset * first.dtype.width < sizeLimit

/-- One dimension over all the elements of a list, in a block of its own. -/
def staging (first : Buffer) (buffers : List Buffer) (block : Nat) : Buffer :=
  { block, dtype := (anchorOf first buffers).dtype, shape := [totalCount buffers], strides := [1], offset := 0 }

/-- What a list that begins with the given buffer is reconciled to, with the memory before and after. -/
inductive Answers (first : Buffer) (buffers : List Buffer) (h : Heap) : FlatLayout → Heap → Prop where
  /-- Buffers that lie back to back are their own region. -/
  | inPlace : BackToBack buffers → Answers first buffers h
      { lengths := buffers.map Buffer.count, region := spanning first buffers, inPlace := true } h
  /-- Others get a new block of zeros. -/
  | staged : ¬BackToBack buffers → Answers first buffers h
      { lengths := buffers.map Buffer.count, region := staging first buffers h.blocks.size, inPlace := false }
      { blocks := h.blocks.push (Array.replicate (totalCount buffers * (anchorOf first buffers).dtype.width) 0) }

section Ending

variable {s s' : Store} {buffers : List Buffer} {first : Buffer} {l : FlatLayout}

theorem anchorOf_of_empty (hempty : totalCount buffers = 0) : anchorOf first buffers = first := by
  rcases anchor_cases first buffers with ⟨he, -⟩ | ⟨hne, i, hi, -⟩
  · exact he
  · have hle := le_totalCount (List.mem_of_getElem? hi)
    omega

/-- Buffers that lie back to back end in their block. -/
theorem room_inPlace (ht : Tenancy s buffers) (hfirst : buffers.head? = some first)
    (hcounted : ∀ b ∈ buffers, b.numel = .ok b.count) (hin : BackToBack buffers) (hsome : totalCount buffers ≠ 0) :
    ((anchorOf first buffers).offset + totalCount buffers) * (anchorOf first buffers).dtype.width ≤
      s.heap.blockSize (anchorOf first buffers).block := by
  obtain ⟨i, b, hb, hne, hend⟩ := exists_last hsome
  have hmem := List.mem_of_getElem? hb
  obtain ⟨hblock, hdense, hoffset⟩ := (backToBack_iff first).mp hin i b hb hne
  have hinside := (ht.sound b hmem).contiguous_inside (hcounted b hmem) hdense (Nat.pos_of_ne_zero hne)
  have htype := ht.typed b hmem _ (anchor_mem hfirst) hblock
  rw [← hend, ← Nat.add_assoc, ← hoffset, ← hblock, ← htype]
  exact hinside

/-- Buffers that lie back to back fit exactly if the stretch that they fill has a place. -/
theorem fits_iff_of_backToBack (ht : Tenancy s buffers) (hfirst : buffers.head? = some first)
    (hcounted : ∀ b ∈ buffers, b.numel = .ok b.count) (hin : BackToBack buffers) :
    Fits first buffers ↔
      ((anchorOf first buffers).offset + totalCount buffers) * (anchorOf first buffers).dtype.width < sizeLimit := by
  have hcount : ∀ b ∈ buffers, ∃ n, b.numel = .ok n := fun b hb => ⟨b.count, hcounted b hb⟩
  by_cases hzero : totalCount buffers = 0
  · rw [hzero, Nat.add_zero, anchorOf_of_empty hzero]
    refine ⟨fun hfits => hfits.placed hzero, fun hplaced => ⟨hcount, ?_, fun _ => hplaced⟩⟩
    rw [hzero, Nat.zero_mul]
    exact Nat.zero_le _
  · have hlimit : blockLimit < sizeLimit := by decide
    have hfill := (room_inPlace ht hfirst hcounted hin hzero).trans (ht.bounded _)
    refine iff_of_true ⟨hcount, ?_, fun hempty => absurd hempty hzero⟩ (lt_of_le_of_lt hfill hlimit)
    rw [Nat.add_mul] at hfill
    omega

/-- The walk ends in a fault or at the end of the list, and there if the sizes fit. -/
theorem walk_ends (ht : Tenancy s buffers) (hfirst : buffers.head? = some first) :
    (∃ w, walk first buffers = .ok w ∧ w.Passed first buffers) ∨
      ¬Fits first buffers ∧ ∃ cause, walk first buffers = .error (.fault cause) := by
  cases hw : walk first buffers with
  | ok w => exact .inl ⟨w, rfl, walk_passed hw hfirst⟩
  | error failure =>
    obtain ⟨cause, rfl⟩ := unrefused_walk _ _ failure hw
    refine .inr ⟨fun hfits => ?_, cause, rfl⟩
    have hmany : blockLimit < totalCount buffers → False := by
      intro hmany
      have hmore := Nat.le_mul_of_pos_right (totalCount buffers) (anchorOf first buffers).dtype.width_pos
      have hfit := hfits.addressable
      omega
    have hwalk : Settles False (walk first buffers) :=
      walk_settles ht.sound ht.bounded (fun b hb hnot => hnot (hfits.counted b hb)) hmany
        (List.mem_of_mem_head? hfirst) (fun b hb => hb) (Nat.zero_add _).le
    rw [hw] at hwalk
    exact hwalk

/-- A list of buffers that are held is reconciled if its sizes fit, and otherwise there is a fault. -/
theorem reconcile_ends (ht : Tenancy s buffers) (hfirst : buffers.head? = some first) :
    (Fits first buffers → ∃ l s', (reconcile buffers).run s = (.ok l, s') ∧ Answers first buffers s.heap l s'.heap) ∧
      (¬Fits first buffers → ∃ cause s', (reconcile buffers).run s = (.error (.fault cause), s')) := by
  have hwalk := walk_ends ht hfirst
  obtain ⟨rest, rfl⟩ := List.head?_eq_some_iff.mp hfirst
  rcases hwalk with ⟨w, hw, hpassed⟩ | ⟨hnot, cause, hw⟩
  · have hrunning : w.running = totalCount (first :: rest) := hpassed.running
    have hplace : w.inPlace = true ↔ BackToBack (first :: rest) := by
      rw [hpassed.inPlace, backToBack_iff first, hpassed.anchored]
    have hsmall := hpassed.small
    rw [hrunning] at hsmall
    have hgo {β : Type} (f : Walk → Edit β) :
        ((liftM (walk first (first :: rest)) : Edit Walk) >>= f).run s = (f w).run s := run_check_bind hw f s
    unfold reconcile
    dsimp only
    rw [hgo, hpassed.anchored, hrunning, hpassed.lengths]
    cases hin : w.inPlace with
    | true =>
      rw [if_pos rfl, run_get_bind]
      have hback := hplace.mp hin
      obtain ⟨hok, hfault⟩ := Buffer.extent_ends (room_inPlace ht rfl hpassed.counted hback)
      have hfits := fits_iff_of_backToBack ht rfl hpassed.counted hback
      constructor
      · intro hfit
        rw [run_check_bind (hok (hfits.mp hfit))]
        exact ⟨_, _, rfl, .inPlace hback⟩
      · intro hnot
        obtain ⟨cause, hcause⟩ := hfault (Nat.le_of_not_lt fun hlt => hnot (hfits.mpr hlt))
        exact ⟨cause, s, run_check_bind_error hcause _ s⟩
    | false =>
      rw [if_neg Bool.false_ne_true]
      have hback : ¬BackToBack (first :: rest) := by
        rw [← hplace, hin]
        exact Bool.false_ne_true
      -- A list without elements would be in place.
      have hsome : totalCount (first :: rest) ≠ 0 := by
        intro hzero
        refine hback ⟨0, 0, lieFrom_of_empty fun b hb => ?_⟩
        have hle := le_totalCount hb
        omega
      obtain ⟨hok, hfault⟩ := Buffer.zeros_row_ends (anchorOf first (first :: rest)).dtype hsmall s
      constructor
      · intro hfit
        rw [run_bind_ok (hok hfit.addressable)]
        exact ⟨_, _, rfl, .staged hback⟩
      · intro hnot
        have hcounted : ∀ b ∈ first :: rest, ∃ n, b.numel = .ok n := fun b hb => ⟨_, hpassed.counted b hb⟩
        obtain ⟨cause, hcause⟩ := hfault (Nat.lt_of_not_le fun hle => hnot ⟨hcounted, hle, fun he => absurd he hsome⟩)
        exact ⟨cause, s, run_bind_error hcause⟩
  · exact ⟨fun hfits => absurd hfits hnot, fun _ => ⟨cause, s, run_check_bind_error hw _ s⟩⟩

end Ending

/-! ## What a list is reconciled to -/

/-- A region that stands exactly for the buffers of a list, with the memory before and after. -/
structure Exact (l : FlatLayout) (buffers : List Buffer) (h h' : Heap) : Prop where
  /-- Entry `i` of the lengths is the number of elements of buffer `i`. -/
  counts : buffers.map Buffer.numel = l.lengths.map .ok
  shaped : l.region.shape = [totalCount buffers] ∧ l.region.strides = [1]
  inPlace : l.inPlace = true ↔ EndToEnd buffers
  /-- A list without elements is in place, and its region has none. -/
  empty : (∀ b ∈ buffers, b.count = 0) → l.inPlace = true ∧ l.region.shape = [0]
  /-- In place no memory is made, and all elements lie in the block of the region. -/
  aliased : l.inPlace = true → h' = h ∧ ∀ b ∈ buffers, b.count ≠ 0 → b.Beside l.region
  /-- The parts are stretches of the region; part `i` has the elements of buffer `i`. -/
  sliced : l.inPlace = true → ∃ parts, l.slices = .ok parts ∧ (∀ part ∈ parts, l.region.Beside part) ∧
    parts.map Buffer.offsets = buffers.map Buffer.offsets
  /-- The region reads as the buffers do, one after the other, now and later. -/
  joined : l.inPlace = true → l.region.offsets = buffers.flatMap Buffer.offsets ∧
    ∀ later, l.region.words later = buffers.flatMap (Buffer.words · later)
  /-- Otherwise the region is all of a new block of zeros, and has the type of the first buffer with elements. -/
  staged : l.inPlace = false → l.region.offset = 0 ∧ l.region.block = h.blocks.size ∧
    (∀ b ∈ buffers, b.block ≠ l.region.block) ∧
    ∃ b, buffers.find? (fun b => b.count ≠ 0) = some b ∧ l.region.dtype = b.dtype ∧
      h' = { blocks := h.blocks.push (Array.replicate (totalCount buffers * b.dtype.width) 0) }

section Exactness

variable {s s' : Store} {buffers : List Buffer} {first b : Buffer} {l : FlatLayout}

/-- Adjacent stretches have the elements of the whole. -/
theorem flatMap_offsets_stretches (b : Buffer) (start : Nat) (lengths : List Nat) :
    (b.stretches start lengths).flatMap Buffer.offsets = List.range' (b.offset + start) lengths.sum := by
  induction lengths generalizing start with
  | nil => rfl
  | cons length lengths ih =>
    rw [Buffer.stretches, List.flatMap_cons, ih, Buffer.offsets_stretch, ← Nat.add_assoc, List.range'_append_1,
      List.sum_cons]

/-- The elements of buffers that lie from a place on are adjacent. -/
theorem map_offsets_of_lieFrom {block : Nat} (ht : Tenancy s buffers) (hcounted : ∀ b ∈ buffers, b.numel = .ok b.count)
    (b : Buffer) {start : Nat} (h : LieFrom buffers block (b.offset + start)) :
    buffers.map Buffer.offsets = (b.stretches start (buffers.map Buffer.count)).map Buffer.offsets := by
  induction buffers generalizing start with
  | nil => rfl
  | cons c buffers ih =>
    obtain ⟨hfirst, hrest⟩ := lieFrom_cons.mp h
    obtain ⟨hcount, hcounted⟩ := List.forall_mem_cons.mp hcounted
    have hsound := ht.sound c List.mem_cons_self
    rw [Nat.add_assoc] at hrest
    have hoffsets : c.offsets = (b.stretch start c.count).offsets := by
      rw [Buffer.offsets_stretch]
      by_cases hzero : c.count = 0
      · rw [Buffer.offsets_of_mem ((Buffer.zero_mem_iff hcount).mpr hzero), hzero, List.range'_zero]
      · obtain ⟨-, hdense, hoffset⟩ := hfirst hzero
        rw [Buffer.offsets_of_isContiguous hsound.ranked hcount hdense, hoffset]
    rw [List.map_cons, hoffsets, ih (ht.among (List.subset_cons_self c buffers)) hcounted hrest]
    rfl

/-- What a list is reconciled to in place stands for it. -/
theorem exact_inPlace (ht : Tenancy s buffers) (hfirst : buffers.head? = some first) (hfits : Fits first buffers)
    (hcounted : ∀ b ∈ buffers, b.numel = .ok b.count) (hback : BackToBack buffers) :
    Exact { lengths := buffers.map Buffer.count, region := spanning first buffers, inPlace := true } buffers
      s.heap s.heap := by
  have hlie := (backToBack_iff first).mp hback
  have hflat : (spanning first buffers).Flat (buffers.map Buffer.count).sum := ⟨rfl, rfl⟩
  have hplace := (fits_iff_of_backToBack ht hfirst hcounted hback).mp hfits
  have hsmall : (spanning first buffers).offset + (buffers.map Buffer.count).sum < sizeLimit :=
    lt_of_le_of_lt (Nat.le_mul_of_pos_right _ (anchorOf first buffers).dtype.width_pos) hplace
  have hbeside : ∀ b ∈ buffers, b.count ≠ 0 → b.Beside (spanning first buffers) := by
    intro b hb hne
    obtain ⟨i, hi⟩ := List.mem_iff_getElem?.mp hb
    have hblock := (hlie i b hi hne).1
    exact ⟨hblock.symm, (ht.typed b hb _ (anchor_mem hfirst) hblock).symm⟩
  have hparts : buffers.map Buffer.offsets =
      ((spanning first buffers).stretches 0 (buffers.map Buffer.count)).map Buffer.offsets :=
    map_offsets_of_lieFrom ht hcounted (spanning first buffers) hlie
  have hwhole : (spanning first buffers).offsets = buffers.flatMap Buffer.offsets := by
    rw [List.flatMap_def, hparts, ← List.flatMap_def, flatMap_offsets_stretches]
    exact Buffer.offsets_stretch (spanning first buffers) 0 _
  refine ⟨?_, ⟨rfl, rfl⟩, iff_of_true rfl (backToBack_iff_endToEnd.mp hback), fun hempty => ⟨rfl, ?_⟩,
    fun _ => ⟨rfl, hbeside⟩, fun _ => ?_, fun _ => ⟨hwhole, fun later => ?_⟩,
    fun hno => absurd hno.symm Bool.false_ne_true⟩
  · rw [List.map_map]
    exact List.map_congr_left hcounted
  · exact congrArg ([·]) (totalCount_of_empty hempty)
  · refine ⟨_, hflat.split_eq_ok hsmall, fun part hpart => ?_, hparts.symm⟩
    obtain ⟨i, hi⟩ := List.mem_iff_getElem?.mp hpart
    rw [Buffer.getElem?_stretches] at hi
    obtain ⟨length, -, rfl⟩ := Option.map_eq_some_iff.mp hi
    exact ⟨rfl, rfl⟩
  · have hwords : ∀ b ∈ buffers, b.words later =
        b.offsets.map (later.word (spanning first buffers).block (spanning first buffers).dtype.width) := by
      intro b hb
      by_cases hzero : b.count = 0
      · have hnone : b.offsets = [] := Buffer.offsets_of_mem ((Buffer.zero_mem_iff (hcounted b hb)).mpr hzero)
        rw [Buffer.words, Heap.words, hnone, List.map_nil, List.map_nil]
      · obtain ⟨hblock, hdtype⟩ := hbeside b hb hzero
        rw [hblock, hdtype]
        rfl
    rw [Buffer.words, Heap.words, hwhole, List.map_flatMap]
    exact (List.flatMap_congr hwords).symm

/-- What a list is reconciled to in a new block stands for it. -/
theorem exact_staged (ht : Tenancy s buffers) (hcounted : ∀ b ∈ buffers, b.numel = .ok b.count)
    (hback : ¬BackToBack buffers) :
    Exact { lengths := buffers.map Buffer.count, region := staging first buffers s.heap.blocks.size, inPlace := false }
      buffers s.heap
      { blocks := s.heap.blocks.push
          (Array.replicate (totalCount buffers * (anchorOf first buffers).dtype.width) 0) } := by
  have hno : ¬false = true := Bool.false_ne_true
  refine ⟨?_, ⟨rfl, rfl⟩, iff_of_false hno fun h => hback (backToBack_iff_endToEnd.mpr h),
    fun hempty => absurd ⟨0, 0, lieFrom_of_empty hempty⟩ hback, fun h => absurd h hno, fun h => absurd h hno,
    fun h => absurd h hno, fun _ => ⟨rfl, rfl, fun b hb => (ht.there b hb).ne, ?_⟩⟩
  · rw [List.map_map]
    exact List.map_congr_left hcounted
  · -- A list without elements would be in place.
    cases hfind : buffers.find? fun b => b.count ≠ 0 with
    | none =>
      refine absurd ⟨0, 0, lieFrom_of_empty fun b hb => ?_⟩ hback
      simpa using List.find?_eq_none.mp hfind b hb
    | some b =>
      have hanchor : anchorOf first buffers = b := by
        rw [anchorOf, hfind, Option.getD_some]
      rw [← hanchor]
      exact ⟨_, rfl, rfl, rfl⟩

end Exactness

end FlatLayout

/-- A list of buffers that are held is reconciled, unless sizes overflow, and then there is a fault. What it is
reconciled to stands for it: in place exactly if the buffers lie end to end, with parts that have the elements of the
buffers, and otherwise in a new block of zeros for exactly all elements. -/
theorem Holding.reconcile_exact {s : Store} {buffers : List Buffer} {first : Buffer} (hheld : Holding s buffers)
    (hfirst : buffers.head? = some first) :
    ((∃ l s', (FlatLayout.reconcile buffers).run s = (.ok l, s')) ↔ FlatLayout.Fits first buffers) ∧
      (¬FlatLayout.Fits first buffers →
        ∃ cause s', (FlatLayout.reconcile buffers).run s = (.error (.fault cause), s')) ∧
      ∀ l s', (FlatLayout.reconcile buffers).run s = (.ok l, s') → l.Exact buffers s.heap s'.heap := by
  have ht := hheld.tenancy
  obtain ⟨hok, hfault⟩ := FlatLayout.reconcile_ends ht hfirst
  have hfits : ∀ l s', (FlatLayout.reconcile buffers).run s = (.ok l, s') → FlatLayout.Fits first buffers := by
    intro l s' h
    by_contra hnot
    obtain ⟨cause, s₁, h'⟩ := hfault hnot
    rw [h] at h'
    cases h'
  refine ⟨⟨fun ⟨l, s', h⟩ => hfits l s' h, fun h => ?_⟩, hfault, fun l s' h => ?_⟩
  · obtain ⟨l, s', hrun, -⟩ := hok h
    exact ⟨l, s', hrun⟩
  · have hfit := hfits l s' h
    have hcounted := (FlatLayout.reconcile_stands h).counted
    obtain ⟨l', s'', hrun, hanswer⟩ := hok hfit
    obtain ⟨hsame, hsame'⟩ := Prod.mk.inj (h.symm.trans hrun)
    cases hsame
    rw [← hsame'] at hanswer
    generalize s'.heap = after at hanswer ⊢
    cases hanswer with
    | inPlace hback => exact FlatLayout.exact_inPlace ht hfirst hfit hcounted hback
    | staged hback => exact FlatLayout.exact_staged ht hcounted hback

/-- An empty buffer of its own, and then a row in three parts of which one is empty. -/
theorem Holding.reconcile_parts : ∃ (s s' : Store) (first : Buffer) (parts : List Buffer) (l : FlatLayout),
    Holding s (first :: parts) ∧ (FlatLayout.reconcile (first :: parts)).run s = (.ok l, s') ∧
      l.lengths = [0, 1, 0, 3] ∧ l.inPlace = true ∧ FlatLayout.Fits first (first :: parts) ∧
      l.Exact (first :: parts) s.heap s'.heap := by
  let first : Buffer := { block := 0, dtype := .f64, shape := [0], strides := [1], offset := 0 }
  let row : Buffer := { block := 1, dtype := .i32, shape := [4], strides := [1], offset := 0 }
  let parts : List Buffer := [{ row with shape := [1] }, { row with shape := [0], offset := 1 },
    { row with shape := [3], offset := 1 }]
  let s₀ : Store := { heap := { blocks := #[#[]] } }
  let s : Store := { heap := { blocks := #[#[], Array.replicate 16 0] } }
  have hbounded : Heap.Bounded {} := fun block => Nat.zero_le _
  have hempty : (Buffer.empty .f64).run {} = (.ok first, s₀) := rfl
  have hrow : (Buffer.zeros .i32 [4]).run s₀ = (.ok row, s) := rfl
  have hparts : row.split [1, 0, 3] = .ok parts := rfl
  have hall : Holding s (parts ++ [row, first]) :=
    .parts (.zeros (.empty (.nothing hbounded) hempty) hrow) List.mem_cons_self hparts
  have hheld : Holding s (first :: parts) := .among hall (by decide)
  obtain ⟨hfits, -, hexact⟩ := hheld.reconcile_exact rfl
  let l : FlatLayout := { lengths := [0, 1, 0, 3], region := row, inPlace := true }
  have hrun : (FlatLayout.reconcile (first :: parts)).run s =
      (.ok l, ((FlatLayout.reconcile (first :: parts)).run s).2) := Prod.ext rfl rfl
  exact ⟨s, _, first, parts, l, hheld, hrun, rfl, rfl, hfits.mp ⟨_, _, hrun⟩, hexact _ _ hrun⟩

end Collectives
