import Collectives.Proofs.Elements

/-!
# Copies between buffers

The elements of a contiguous buffer are one row of bytes, so a copy between two of them is one read and one write:
what was read is found in the target, whether or not the two overlap. Any other copy moves element by element, and
what was read is found in the target if the two are apart. Copies one after the other into targets that are apart, from
sources that no target overlaps, can be read back all together.
-/

namespace Collectives

namespace Buffer

/-- The buffer has `n` elements, side by side in its block. -/
structure Solid (h : Heap) (b : Buffer) (n : Nat) : Prop where
  ranked : b.shape.length = b.strides.length
  counted : b.numel = .ok n
  contiguous : b.isContiguous = .ok true
  room : b.Room h n

/-- Number of elements that the shape asks for. -/
def count (b : Buffer) : Nat := b.shape.prod

/-- The bytes from the first element of a buffer on, as many as its elements take. -/
def bytes (b : Buffer) (h : Heap) : Bytes := h.read (b.place b.offset) (b.count * b.dtype.width)

/-- No byte of the elements of one buffer is a byte of the other's. -/
def Apart (b c : Buffer) : Prop := ∀ block pos, b.Holds block pos → ¬c.Holds block pos

variable {h h' : Heap} {b c : Buffer} {n block pos : Nat}

/-- Buffers of one type are apart exactly if they share no element. -/
theorem apart_iff (htype : c.dtype = b.dtype) : b.Apart c ↔ (b.block = c.block → ∀ i ∈ b.offsets, i ∉ c.offsets) := by
  constructor
  · intro hapart hblock i hi hi'
    have hfirst : (b.place i).Covers b.dtype.width b.block (i * b.dtype.width) :=
      ⟨rfl, le_rfl, Nat.lt_add_of_pos_right b.dtype.width_pos⟩
    have hplace : c.place i = b.place i := by rw [place, place, hblock, htype]
    apply hapart b.block (i * b.dtype.width) ⟨i, hi, hfirst⟩
    refine ⟨i, hi', ?_⟩
    rwa [hplace, htype]
  · rintro hdisjoint block pos ⟨i, hi, hcovers⟩ ⟨j, hj, hcovers'⟩
    obtain ⟨hblock, hindex⟩ := Heap.div_eq_of_covers hcovers
    obtain ⟨hblock', hindex'⟩ := Heap.div_eq_of_covers hcovers'
    rw [htype, hindex] at hindex'
    rw [hindex'] at hi
    exact hdisjoint (hblock.trans hblock'.symm) j hi hj

/-- The bytes of a buffer that can be held lie in blocks that are there. -/
theorem Sound.lt_size (hs : b.Sound h) (hh : b.Holds block pos) : block < h.blocks.size := by
  obtain ⟨i, hi, hb, -, -⟩ := hh
  cases hb
  have hpos : 0 < (i + 1) * b.dtype.width := Nat.mul_pos (Nat.succ_pos i) b.dtype.width_pos
  exact Heap.lt_size_of_blockSize_pos (lt_of_lt_of_le hpos (hs.inside i hi))

/-- Where the bytes of a buffer are the same, its words are. -/
theorem words_congr (hsame : ∀ block pos, b.Holds block pos → h.byte? block pos = h'.byte? block pos) :
    b.words h = b.words h' := by
  refine List.map_congr_left fun i hi => congrArg Bytes.toWord (Heap.read_congr fun block pos hc => ?_)
  exact hsame block pos ⟨i, hi, hc⟩

namespace Solid

theorem of_sound (hs : b.Sound h) (hn : b.numel = .ok n) (hc : b.isContiguous = .ok true) : b.Solid h n :=
  ⟨hs.ranked, hn, hc, .of_sound hs hn hc⟩

/-- A buffer of adjacent elements is sound. -/
theorem sound (hb : b.Solid h n) : b.Sound h := by
  have hoffsets := offsets_of_isContiguous hb.ranked hb.counted hb.contiguous
  refine ⟨hb.ranked, ?_, ?_⟩
  · rw [hoffsets]
    exact List.nodup_range'
  · intro i hi
    rw [hoffsets, List.mem_range'_1] at hi
    exact (Nat.mul_le_mul_right _ hi.2).trans (hb.room (by omega))

theorem later (hb : b.Solid h n) (hx : h.Extends h') : b.Solid h' n :=
  ⟨hb.ranked, hb.counted, hb.contiguous, hb.room.later hx⟩

theorem holds_iff (hb : b.Solid h n) :
    b.Holds block pos ↔ (b.place b.offset).Covers (n * b.dtype.width) block pos :=
  holds_iff_covers hb.ranked hb.counted hb.contiguous

theorem words_eq (hb : b.Solid h n) (h' : Heap) : b.words h' = h'.row (b.place b.offset) b.dtype.width n :=
  words_eq_row hb.ranked hb.counted hb.contiguous

theorem pos_of_holds (hb : b.Solid h n) (hh : b.Holds block pos) : 0 < n := by
  obtain ⟨-, hlo, hhi⟩ := hb.holds_iff.mp hh
  refine Nat.pos_of_ne_zero fun hzero => ?_
  rw [hzero, Nat.zero_mul] at hhi
  omega

/-- The bytes of all the elements lie in the block. -/
theorem inside (hb : b.Solid h n) (hpos : 0 < n) :
    (b.place b.offset).pos + n * b.dtype.width ≤ h.blockSize b.block := by
  have hroom := hb.room hpos
  rwa [Nat.add_mul] at hroom

theorem count_eq (hb : b.Solid h n) : b.count = n := (eq_of_productSizes hb.counted).symm

/-- All the bytes of the elements are there. -/
theorem length_bytes (hb : b.Solid h n) : (b.bytes h).length = n * b.dtype.width := by
  rw [bytes, hb.count_eq]
  rcases Nat.eq_zero_or_pos n with rfl | hpos
  · rw [Nat.zero_mul, Heap.read_zero, List.length_nil]
  · exact Heap.length_read rfl (hb.inside hpos)

theorem bytes_congr (hb : b.Solid h n) {h₁ h₂ : Heap}
    (hsame : ∀ block pos, b.Holds block pos → h₁.byte? block pos = h₂.byte? block pos) : b.bytes h₁ = b.bytes h₂ := by
  refine Heap.read_congr fun block pos hcovers => hsame block pos (hb.holds_iff.mpr ?_)
  rwa [hb.count_eq] at hcovers

/-- Buffers of one type and size that have the same bytes have the same words. -/
theorem words_of_bytes (hb : b.Solid h n) (hc : c.Solid h n) (htype : c.dtype = b.dtype) {h₁ h₂ : Heap}
    (hbytes : b.bytes h₁ = c.bytes h₂) : b.words h₁ = c.words h₂ := by
  rw [hb.words_eq, hc.words_eq, htype]
  apply Heap.row_eq_of_read
  rwa [bytes, bytes, hb.count_eq, hc.count_eq, htype] at hbytes

theorem nbytes (hb : b.Solid h n) (hbounded : h.Bounded) : b.nbytes = .ok (n * b.dtype.width) := by
  have hlimit : blockLimit < sizeLimit := by decide
  have hsize : n * b.dtype.width < sizeLimit := by
    rcases Nat.eq_zero_or_pos n with hzero | hpos
    · rw [hzero, Nat.zero_mul]
      decide
    · have hinside := hb.inside hpos
      have hblock := hbounded b.block
      omega
  rw [Buffer.nbytes, hb.counted, ok_bind, mulSize_eq_ok hsize]

end Solid

/-- A copy between contiguous buffers of one type and size is made, and it writes what the source has. -/
theorem copyFrom_run {target source : Buffer} {s : Store} (htarget : target.Solid s.heap n)
    (hsource : source.Solid s.heap n) (htype : source.dtype = target.dtype) (hbounded : s.heap.Bounded) :
    ∃ s', (target.copyFrom source).run s = (.ok (), s') ∧ ∀ block pos,
      s'.heap.byte? block pos = (s.heap.write (target.place target.offset) (source.bytes s.heap)).byte? block pos := by
  have htypes : require (source.dtype == target.dtype) (.copyType source.dtype target.dtype) = .ok () :=
    if_pos (beq_iff_eq.mpr htype)
  have hcounts : require (n == n) (.copyCount n n) = .ok () := if_pos (beq_self_eq_true n)
  unfold copyFrom
  rw [run_check_bind htypes, run_size_bind hsource.counted, run_size_bind htarget.counted, run_check_bind hcounts]
  rcases Nat.eq_zero_or_pos n with rfl | hpos
  · refine ⟨s, by rw [if_pos rfl]; rfl, fun block pos => ?_⟩
    rw [Heap.byte?_write_of_not_covers]
    rintro ⟨-, hlo, hhi⟩
    rw [hsource.length_bytes, Nat.zero_mul] at hhi
    omega
  · have hsrc := address_eq_ok hsource.room hbounded hpos
    have hdst := address_eq_ok htarget.room hbounded hpos
    rw [if_neg hpos.ne', run_get_bind, run_size_bind htarget.contiguous, run_size_bind hsource.contiguous,
      Bool.and_self, if_pos rfl, run_size_bind hsrc, run_size_bind hdst, run_size_bind (htarget.nbytes hbounded)]
    refine ⟨_, rfl, fun block pos => ?_⟩
    rw [bytes, hsource.count_eq, htype]

/-- The target then reads as the source did. -/
theorem copyFrom_ok {target source : Buffer} {s : Store} (htarget : target.Solid s.heap n)
    (hsource : source.Solid s.heap n) (htype : source.dtype = target.dtype) (hbounded : s.heap.Bounded) :
    ∃ s', (target.copyFrom source).run s = (.ok (), s') ∧ target.words s'.heap = source.words s.heap := by
  obtain ⟨s', hrun, hbytes⟩ := copyFrom_run htarget hsource htype hbounded
  refine ⟨s', hrun, htarget.words_of_bytes hsource htype ?_⟩
  have hread : target.bytes s'.heap =
      (s.heap.write (target.place target.offset) (source.bytes s.heap)).read (target.place target.offset)
        (source.bytes s.heap).length := by
    rw [hsource.length_bytes, bytes, htarget.count_eq, htype]
    exact Heap.read_congr fun block pos _ => hbytes block pos
  rw [hread]
  rcases Nat.eq_zero_or_pos n with rfl | hpos
  · rw [List.eq_nil_of_length_eq_zero (hsource.length_bytes.trans (Nat.zero_mul _))]
    exact Heap.read_zero ..
  · refine Heap.read_write rfl ?_
    rw [hsource.length_bytes, htype]
    exact htarget.inside hpos

/-! ## Copies whatever the strides are -/

/-- Two buffers in memory have one type and as many elements as each other. -/
structure Matches (h : Heap) (target source : Buffer) : Prop where
  typed : source.dtype = target.dtype
  written : target.Sound h
  taken : source.Sound h
  counted : ∃ n, target.numel = .ok n ∧ source.numel = .ok n

theorem Matches.later {target source : Buffer} (hm : Matches h target source) (hx : h.Extends h') :
    Matches h' target source :=
  ⟨hm.typed, hm.written.later hx, hm.taken.later hx, hm.counted⟩

/-- Elements that are moved to a buffer that is apart from theirs arrive in their order. -/
theorem words_moveElements {target source : Buffer} (hm : Matches h target source) (happart : target.Apart source) :
    target.words (h.moveElements source.block target.block target.dtype.width (source.offsets.zip target.offsets)) =
      source.words h := by
  obtain ⟨htype, htarget, hsource, n, hheld, hgiven⟩ := hm
  have hlength := length_offsets hsource.ranked hgiven
  have hlength' := length_offsets htarget.ranked hheld
  have htaken : (source.offsets.zip target.offsets).map Prod.fst = source.offsets := List.map_fst_zip (by omega)
  have hwritten : (source.offsets.zip target.offsets).map Prod.snd = target.offsets := List.map_snd_zip (by omega)
  have hmoved : (h.moveElements source.block target.block target.dtype.width
      (source.offsets.zip target.offsets)).words target.block target.dtype.width
        ((source.offsets.zip target.offsets).map Prod.snd) =
      h.words source.block target.dtype.width ((source.offsets.zip target.offsets).map Prod.fst) := by
    apply Heap.words_moveElements
    · rw [hwritten]
      exact htarget.distinct
    · intro m hmem
      rw [← htype]
      exact hsource.inside m.1 (List.of_mem_zip hmem).1
    · intro m hmem
      exact htarget.inside m.2 (List.of_mem_zip hmem).2
    · intro hblock m hmem hshared
      rw [hwritten] at hshared
      exact (apart_iff htype).mp happart hblock.symm m.1 hshared (List.of_mem_zip hmem).1
  rw [htaken, hwritten] at hmoved
  rw [words, words, htype]
  exact hmoved

/-- A copy between buffers that match is made. The target then reads as the source did, if both are contiguous or they
are apart. -/
theorem copyFrom_exact {target source : Buffer} {s : Store} (hm : Matches s.heap target source)
    (hbounded : s.heap.Bounded) : ∃ s', (target.copyFrom source).run s = (.ok (), s') ∧
      (target.isContiguous = .ok true ∧ source.isContiguous = .ok true ∨ target.Apart source →
        target.words s'.heap = source.words s.heap) := by
  obtain ⟨n, hheld, hgiven⟩ := hm.counted
  by_cases hboth : target.isContiguous = .ok true ∧ source.isContiguous = .ok true
  · have htarget := Solid.of_sound hm.written hheld hboth.1
    have hsource := Solid.of_sound hm.taken hgiven hboth.2
    obtain ⟨s', hrun, hwords⟩ := copyFrom_ok htarget hsource hm.typed hbounded
    exact ⟨s', hrun, fun _ => hwords⟩
  · have htypes : require (source.dtype == target.dtype) (.copyType source.dtype target.dtype) = .ok () :=
      if_pos (beq_iff_eq.mpr hm.typed)
    have hcounts : require (n == n) (.copyCount n n) = .ok () := if_pos (beq_self_eq_true n)
    unfold copyFrom
    rw [run_check_bind htypes, run_size_bind hgiven, run_size_bind hheld, run_check_bind hcounts]
    rcases Nat.eq_zero_or_pos n with rfl | hpos
    · refine ⟨s, by rw [if_pos rfl]; rfl, fun _ => ?_⟩
      rw [List.eq_nil_of_length_eq_zero (length_words hm.written.ranked hheld),
        List.eq_nil_of_length_eq_zero (length_words hm.taken.ranked hgiven)]
    · have hdense := isContiguous_eq hm.written.ranked hheld
      have hdense' := isContiguous_eq hm.taken.ranked hgiven
      have hneither := hboth
      rw [hdense, hdense', Except.ok.injEq, Except.ok.injEq, ← Bool.and_eq_true] at hneither
      rw [if_neg hpos.ne', run_get_bind, run_size_bind hdense, run_size_bind hdense', if_neg hneither]
      exact ⟨_, rfl, fun hor => words_moveElements hm (hor.resolve_left hboth)⟩

end Buffer

namespace FlatLayout

/-- Copies that can be made: each between contiguous buffers of one type and size. -/
def Copyable (h : Heap) (pairs : List (Buffer × Buffer)) : Prop :=
  ∀ p ∈ pairs, p.2.dtype = p.1.dtype ∧ ∃ n, p.1.Solid h n ∧ p.2.Solid h n

theorem Copyable.later {h h' : Heap} {pairs : List (Buffer × Buffer)} (hp : Copyable h pairs) (hx : h.Extends h') :
    Copyable h' pairs := by
  intro p hmem
  obtain ⟨htype, n, htarget, hsource⟩ := hp p hmem
  exact ⟨htype, n, htarget.later hx, hsource.later hx⟩

variable {pairs : List (Buffer × Buffer)} {s : Store}

theorem Copyable.matches (hp : Copyable s.heap pairs) : ∀ p ∈ pairs, p.1.Matches s.heap p.2 := by
  intro p hmem
  obtain ⟨htype, n, htarget, hsource⟩ := hp p hmem
  exact ⟨htype, htarget.sound, hsource.sound, n, htarget.counted, hsource.counted⟩

/-- Copies between buffers that match are made one after the other, and no byte outside the targets changes. -/
theorem copyAll_ok (hp : ∀ p ∈ pairs, p.1.Matches s.heap p.2) (hbounded : s.heap.Bounded) :
    ∃ s', (copyAll pairs).run s = (.ok (), s') ∧
      ∀ block pos, (∀ p ∈ pairs, ¬p.1.Holds block pos) → s'.heap.byte? block pos = s.heap.byte? block pos := by
  induction pairs generalizing s with
  | nil => exact ⟨s, rfl, fun _ _ _ => rfl⟩
  | cons p pairs ih =>
    obtain ⟨hfirst, hrest⟩ := List.forall_mem_cons.mp hp
    obtain ⟨s₁, hcopy, -⟩ := Buffer.copyFrom_exact hfirst hbounded
    have hx := (Buffer.copyFrom_extends p.1 p.2).of_run hcopy
    obtain ⟨s', hall, hkept⟩ := ih (fun q hq => (hrest q hq).later hx) (hx.bounded hbounded)
    refine ⟨s', (run_bind_ok hcopy).trans hall, fun block pos hout => ?_⟩
    obtain ⟨hnot, hnots⟩ := List.forall_mem_cons.mp hout
    have hframe := (Buffer.copyFrom_frame hfirst.written.ranked p.2).of_run hcopy
    exact (hkept block pos hnots).trans (hframe block pos hnot)

/-- Targets that are apart stay so beside their sources. -/
theorem pairwise_zip {targets sources : List Buffer} (h : targets.Pairwise Buffer.Apart) :
    (targets.zip sources).Pairwise fun p q => p.1.Apart q.1 := by
  induction h generalizing sources with
  | nil => exact .nil
  | cons hfirst _ ih =>
    cases sources with
    | nil => exact .nil
    | cons source sources =>
      rw [List.zip_cons_cons, List.pairwise_cons]
      exact ⟨fun p hp => hfirst p.1 (List.of_mem_zip hp).1, ih⟩

/-- Targets that are apart from each other and from all sources read as their sources did. -/
theorem words_copyAll (hp : ∀ p ∈ pairs, p.1.Matches s.heap p.2) (hbounded : s.heap.Bounded)
    (happart : pairs.Pairwise fun p q => p.1.Apart q.1) (hsources : ∀ p ∈ pairs, ∀ q ∈ pairs, p.1.Apart q.2)
    {s' : Store} (h : (copyAll pairs).run s = (.ok (), s')) : ∀ p ∈ pairs, p.1.words s'.heap = p.2.words s.heap := by
  induction pairs generalizing s with
  | nil => simp
  | cons p pairs ih =>
    obtain ⟨hfirst, hrest⟩ := List.forall_mem_cons.mp hp
    obtain ⟨hpapart, hpairs⟩ := List.pairwise_cons.mp happart
    obtain ⟨s₁, hcopy, hwords⟩ := Buffer.copyFrom_exact hfirst hbounded
    have hx := (Buffer.copyFrom_extends p.1 p.2).of_run hcopy
    have hframe := (Buffer.copyFrom_frame hfirst.written.ranked p.2).of_run hcopy
    have hlater : ∀ q ∈ pairs, q.1.Matches s₁.heap q.2 := fun q hq => (hrest q hq).later hx
    have hall : (copyAll pairs).run s₁ = (.ok (), s') := (run_bind_ok hcopy).symm.trans h
    obtain ⟨s₂, hrun, hkept⟩ := copyAll_ok hlater (hx.bounded hbounded)
    have hsame : s₂ = s' := congrArg Prod.snd (hrun.symm.trans hall)
    rw [hsame] at hkept
    refine List.forall_mem_cons.mpr ⟨?_, fun q hq => ?_⟩
    · -- Later copies leave the first target alone.
      rw [← hwords (.inr (hsources p List.mem_cons_self p List.mem_cons_self))]
      exact Buffer.words_congr fun block pos hh => hkept block pos fun q hq => hpapart q hq block pos hh
    · -- The first copy has left the later sources alone.
      have hq' := List.mem_cons_of_mem p hq
      have hsource' : q.2.words s₁.heap = q.2.words s.heap :=
        Buffer.words_congr fun block pos hh => hframe block pos fun hheld =>
          hsources p List.mem_cons_self q hq' block pos hheld hh
      rw [← hsource']
      refine ih hlater (hx.bounded hbounded) hpairs (fun p' hp' q' hq' => ?_) hall q hq
      exact hsources p' (List.mem_cons_of_mem p hp') q' (List.mem_cons_of_mem p hq')

/-- Copies from sources that no target overlaps write what the sources had, one after the other. -/
theorem copyAll_writes (hp : Copyable s.heap pairs) (hbounded : s.heap.Bounded)
    (hsources : ∀ p ∈ pairs, ∀ q ∈ pairs, p.1.Apart q.2) {s' : Store} (h : (copyAll pairs).run s = (.ok (), s')) :
    ∀ block pos, s'.heap.byte? block pos =
      (s.heap.deliver (pairs.map fun p => (p.1.place p.1.offset, p.2.bytes s.heap))).byte? block pos := by
  induction pairs generalizing s with
  | nil =>
    cases h
    exact fun _ _ => rfl
  | cons p pairs ih =>
    obtain ⟨hfirst, hrest⟩ := List.forall_mem_cons.mp hp
    obtain ⟨htype, n, htarget, hsource⟩ := hfirst
    obtain ⟨s₁, hcopy, hwrite⟩ := Buffer.copyFrom_run htarget hsource htype hbounded
    have hx := (Buffer.copyFrom_extends p.1 p.2).of_run hcopy
    have hframe := (Buffer.copyFrom_frame htarget.ranked p.2).of_run hcopy
    have hall : (copyAll pairs).run s₁ = (.ok (), s') := (run_bind_ok hcopy).symm.trans h
    -- The first copy has left the later sources alone.
    have hlater : pairs.map (fun q => (q.1.place q.1.offset, q.2.bytes s₁.heap)) =
        pairs.map fun q => (q.1.place q.1.offset, q.2.bytes s.heap) := by
      refine List.map_congr_left fun q hq => ?_
      obtain ⟨-, m, -, hq'⟩ := hrest q hq
      rw [hq'.bytes_congr fun block pos hh => hframe block pos fun hheld => ?_]
      exact hsources p List.mem_cons_self q (List.mem_cons_of_mem p hq) block pos hheld hh
    intro block pos
    rw [ih (Copyable.later hrest hx) (hx.bounded hbounded) (fun p' hp' q' hq' => ?_) hall block pos, hlater]
    · exact Heap.byte?_deliver_congr (hwrite block pos)
    · exact hsources p' (List.mem_cons_of_mem p hp') q' (List.mem_cons_of_mem p hq')

end FlatLayout

end Collectives
