import Collectives.Proofs.Contents

/-!
# Packing and unpacking

A region that is packed reads as the buffers of its list do, one after the other, and unpacking gives every buffer its
slice of what the region then reads. Where the buffers lie back to back there is nothing to do for either, as the region
is the buffers' own memory. Otherwise each buffer is copied to its part and back, whatever its strides are. Unpacking
right after packing writes what is there already, even if some of the buffers overlap.
-/

namespace Collectives

/-! ## What stretches read -/

namespace Buffer

variable {h h' : Heap} {b : Buffer} {start length total block pos : Nat}

theorem length_words_stretch (b : Buffer) (h : Heap) (start length : Nat) :
    ((b.stretch start length).words h).length = length := by
  rw [words, Heap.words, List.length_map, offsets_stretch, List.length_range']

/-- Two adjacent stretches read as the one over both of them. -/
theorem words_stretch_add (b : Buffer) (h : Heap) (start m n : Nat) :
    (b.stretch start (m + n)).words h = (b.stretch start m).words h ++ (b.stretch (start + m) n).words h := by
  have hoffsets : (b.stretch start (m + n)).offsets =
      (b.stretch start m).offsets ++ (b.stretch (start + m) n).offsets := by
    rw [offsets_stretch, offsets_stretch, offsets_stretch, ← Nat.add_assoc, List.range'_append_1]
  rw [words, Heap.words, hoffsets, List.map_append]
  rfl

/-- Adjacent stretches read as the one over all of them. -/
theorem flatMap_words_stretches (b : Buffer) (h : Heap) (start : Nat) (lengths : List Nat) :
    (b.stretches start lengths).flatMap (Buffer.words · h) = (b.stretch start lengths.sum).words h := by
  induction lengths generalizing start with
  | nil => rfl
  | cons length lengths ih => rw [stretches, List.flatMap_cons, ih, List.sum_cons, words_stretch_add]

/-- A stretch of a region reads as a slice of what the region does. -/
theorem Flat.words_stretch (hb : b.Flat total) (hin : start + length ≤ total) :
    (b.stretch start length).words h = ((b.words h).drop start).take length := by
  have hwhole : b.words h = (b.stretch 0 start).words h ++ ((b.stretch start length).words h ++
      (b.stretch (start + length) (total - (start + length))).words h) := by
    have htotal : total = start + (length + (total - (start + length))) := by omega
    rw [← words_stretch_add]
    have hsplit := words_stretch_add b h 0 start (length + (total - (start + length)))
    rwa [← htotal, hb.eq_stretch, Nat.zero_add] at hsplit
  rw [hwhole, List.drop_left' (length_words_stretch ..), List.take_left' (length_words_stretch ..)]

/-- Where a buffer reads the same, the bytes of its elements are the same. -/
theorem byte?_of_words (hs : b.Sound h) (hs' : b.Sound h') (hwords : b.words h' = b.words h)
    (hh : b.Holds block pos) : h'.byte? block pos = h.byte? block pos := by
  obtain ⟨i, hi, hcovers⟩ := hh
  have hword : h'.word b.block b.dtype.width i = h.word b.block b.dtype.width i := List.map_inj_left.mp hwords i hi
  have hlength := Heap.length_read (h := h) rfl (hs.encloses_place hi).2
  have hlength' := Heap.length_read (h := h') rfl (hs'.encloses_place hi).2
  have hread : h'.read (b.place i) b.dtype.width = h.read (b.place i) b.dtype.width :=
    Bytes.toWord_inj (hlength'.trans hlength.symm) hword
  obtain ⟨hblock, hlo, hhi⟩ := hcovers
  have hbyte := congrArg (·[pos - (b.place i).pos]?) hread
  rwa [Heap.getElem?_read hblock, Heap.getElem?_read hblock, if_pos (by omega), if_pos (by omega),
    Nat.add_sub_cancel' hlo] at hbyte

/-- A copy changes nothing if the target reads as the source already. -/
theorem copyFrom_idle {target source : Buffer} {s : Store} (hm : Matches s.heap target source)
    (hbounded : s.heap.Bounded) (happart : target.Apart source) (hsame : target.words s.heap = source.words s.heap) :
    ∃ s', (target.copyFrom source).run s = (.ok (), s') ∧
      ∀ block pos, s'.heap.byte? block pos = s.heap.byte? block pos := by
  obtain ⟨s', hrun, hwords⟩ := copyFrom_exact hm hbounded
  have hx := (copyFrom_extends target source).of_run hrun
  refine ⟨s', hrun, fun block pos => ?_⟩
  by_cases hh : target.Holds block pos
  · exact byte?_of_words hm.written (hm.written.later hx) ((hwords (.inr happart)).trans hsame.symm) hh
  · exact (copyFrom_frame hm.written.ranked source).of_run hrun block pos hh

end Buffer

namespace FlatLayout

variable {l : FlatLayout} {buffers : List Buffer} {s s' s₁ s₂ : Store} {h h' : Heap} {b : Buffer} {i : Nat}

/-- Copies change nothing if every target reads as its source already. -/
theorem copyAll_idle {pairs : List (Buffer × Buffer)} (hp : ∀ p ∈ pairs, p.1.Matches s.heap p.2)
    (hbounded : s.heap.Bounded) (happart : ∀ p ∈ pairs, p.1.Apart p.2)
    (hsame : ∀ p ∈ pairs, p.1.words s.heap = p.2.words s.heap) :
    ∃ s', (copyAll pairs).run s = (.ok (), s') ∧
      ∀ block pos, s'.heap.byte? block pos = s.heap.byte? block pos := by
  induction pairs generalizing s with
  | nil => exact ⟨s, rfl, fun _ _ => rfl⟩
  | cons p pairs ih =>
    obtain ⟨hfirst, hrest⟩ := List.forall_mem_cons.mp hp
    obtain ⟨hpapart, happart⟩ := List.forall_mem_cons.mp happart
    obtain ⟨hpsame, hsame⟩ := List.forall_mem_cons.mp hsame
    obtain ⟨s₁, hcopy, hkept⟩ := Buffer.copyFrom_idle hfirst hbounded hpapart hpsame
    have hx := (Buffer.copyFrom_extends p.1 p.2).of_run hcopy
    have hwords (b : Buffer) : b.words s₁.heap = b.words s.heap := Buffer.words_congr fun block pos _ => hkept block pos
    have hsame' : ∀ q ∈ pairs, q.1.words s₁.heap = q.2.words s₁.heap := by
      intro q hq
      rw [hwords, hwords]
      exact hsame q hq
    obtain ⟨s', hall, hkept'⟩ := ih (fun q hq => (hrest q hq).later hx) (hx.bounded hbounded) happart hsame'
    exact ⟨s', (run_bind_ok hcopy).trans hall, fun block pos => (hkept' block pos).trans (hkept block pos)⟩

/-- What a list of buffers of one type was reconciled to, in a memory in which the buffers still lie. -/
structure Serves (l : FlatLayout) (buffers : List Buffer) (s s' : Store) (h : Heap) : Prop where
  stands : l.Stands buffers s s'
  reached : s'.heap.Extends h
  bounded : h.Bounded
  sound : ∀ b ∈ buffers, b.Sound h ∧ b.dtype = l.region.dtype
  /-- A staging region is in a block of its own. -/
  outside : l.inPlace = false → ∀ b ∈ buffers, b.block ≠ l.region.block

namespace Serves

theorem of_reconcile {dtype : ElementType} (ht : Tenancy s buffers) (htype : ∀ b ∈ buffers, b.dtype = dtype)
    (hflat : (reconcile buffers).run s = (.ok l, s')) : l.Serves buffers s s' s'.heap := by
  have hl := reconcile_stands hflat
  have hx := (reconcile_extends buffers).of_run hflat
  obtain ⟨first, hfirst, hregion⟩ := hl.typed
  refine ⟨hl, .refl s'.heap, hx.bounded ht.bounded, fun b hb => ⟨(ht.sound b hb).later hx, ?_⟩, fun hstaged b hb => ?_⟩
  · rw [hregion, htype b hb, htype first hfirst]
  · rw [(hl.staged hstaged).1]
    exact (ht.there b hb).ne

theorem later (hv : l.Serves buffers s s' h) (hx : h.Extends h') : l.Serves buffers s s' h' where
  stands := hv.stands
  reached := hv.reached.trans hx
  bounded := hx.bounded hv.bounded
  sound b hb := ⟨(hv.sound b hb).1.later hx, (hv.sound b hb).2⟩
  outside := hv.outside

/-! ## Buffers and parts -/

/-- Buffers that lie back to back are contiguous. -/
theorem solid_inPlace (hv : l.Serves buffers s s' h) (hin : l.inPlace = true) (hb : b ∈ buffers) :
    b.Solid h b.count := by
  have hcount := hv.stands.counted b hb
  apply Buffer.Solid.of_sound (hv.sound b hb).1 hcount
  by_cases hzero : b.count = 0
  · rw [hzero] at hcount
    exact Buffer.isContiguous_of_empty hcount
  · obtain ⟨i, hi⟩ := List.mem_iff_getElem?.mp hb
    obtain ⟨block, start, hlie⟩ := hv.stands.inPlace.mp hin
    exact (hlie i b hi hzero).2.1

/-- Buffers that lie back to back are the parts of their region. -/
theorem words_part_inPlace (hv : l.Serves buffers s s' h) (hin : l.inPlace = true) (hb : buffers[i]? = some b)
    (h' : Heap) : (l.region.stretch (elementsBefore buffers i) b.count).words h' = b.words h' := by
  have hlisted := List.mem_of_getElem? hb
  exact (hv.stands.part_inPlace hin hb (hv.solid_inPlace hin hlisted) (hv.sound b hlisted).2 h').1

/-- The parts of a region have the type and the sizes of the buffers. -/
theorem buffers_match (hv : l.Serves buffers s s' h) :
    ∀ p ∈ buffers.zip (l.region.stretches 0 l.lengths), p.1.Matches h p.2 := by
  rintro ⟨b, part⟩ hmem
  obtain ⟨i, hb, rfl⟩ := hv.stands.exists_of_mem_zip hmem
  have hlisted := List.mem_of_getElem? hb
  obtain ⟨hsound, htype⟩ := hv.sound b hlisted
  have hpart := hv.stands.part_solid hb hv.reached
  exact ⟨htype.symm, hsound, hpart.sound, b.count, hv.stands.counted b hlisted, hpart.counted⟩

/-- The parts of a staging region are out of the buffers' reach. -/
theorem buffers_apart (hv : l.Serves buffers s s' h) (hstaged : l.inPlace = false) :
    ∀ p ∈ buffers.zip (l.region.stretches 0 l.lengths), ∀ q ∈ buffers.zip (l.region.stretches 0 l.lengths),
      p.1.Apart q.2 := by
  intro p hp q hq block pos hh hh'
  obtain ⟨i, -, hpart⟩ := hv.stands.exists_of_mem_zip hq
  rw [hpart] at hh'
  exact hv.outside hstaged p.1 (List.of_mem_zip hp).1 (hh.block_eq.symm.trans (Buffer.holds_stretch hh').1)

/-- The region has exactly the elements of all buffers. -/
theorem region_solid (hv : l.Serves buffers s s' h) : l.region.Solid h l.lengths.sum := by
  have hwhole := (hv.stands.room.later hv.reached).stretch (Nat.zero_add l.lengths.sum).le hv.stands.small
  rwa [hv.stands.flat.eq_stretch] at hwhole

/-- If every part reads as a buffer does, the region reads as the buffers do, one after the other. -/
theorem words_region (hv : l.Serves buffers s s' h) (hparts : ∀ i b, buffers[i]? = some b →
    (l.region.stretch (elementsBefore buffers i) b.count).words h' = b.words h) :
    l.region.words h' = (buffers.map (Buffer.words · h)).flatten := by
  have hl := hv.stands
  have hwords : (l.region.stretches 0 l.lengths).map (Buffer.words · h') = buffers.map (Buffer.words · h) := by
    ext1 i
    rw [List.getElem?_map, List.getElem?_map]
    cases hb : buffers[i]? with
    | none =>
      rw [Buffer.getElem?_stretches, hl.lengths, List.getElem?_map, hb]
      rfl
    | some b => rw [hl.getElem?_parts hb, Option.map_some, Option.map_some, hparts i b hb]
  rw [← hwords, ← List.flatMap_def, Buffer.flatMap_words_stretches, hl.flat.eq_stretch]

/-! ## Packing -/

/-- After packing every part reads as its buffer. Only the region is written to, and all buffers read as before. -/
theorem exists_pack (hv : l.Serves buffers s s' s₁.heap) : ∃ s₂, (l.pack buffers).run s₁ = (.ok (), s₂) ∧
    l.region.Frame s₁.heap s₂.heap ∧ (∀ b ∈ buffers, b.words s₂.heap = b.words s₁.heap) ∧
      ∀ i b, buffers[i]? = some b →
        (l.region.stretch (elementsBefore buffers i) b.count).words s₂.heap = b.words s₁.heap := by
  obtain ⟨s₂, hrun⟩ := hv.stands.exists_pack hv.reached hv.bounded hv.sound
  refine ⟨s₂, hrun, ?_⟩
  cases hin : l.inPlace with
  | true =>
    rw [Stands.pack_inPlace hin hrun]
    exact ⟨.refl l.region s₁.heap, fun _ _ => rfl, fun i b hb => hv.words_part_inPlace hin hb s₁.heap⟩
  | false =>
    have houtside : ∀ b ∈ buffers, ∀ block pos, b.Holds block pos → block ≠ l.region.block :=
      fun b hb block pos hh he => hv.outside hin b hb (hh.block_eq.symm.trans he)
    obtain ⟨hparts, hframe⟩ := hv.stands.pack_run hin hv.reached hv.bounded hv.sound houtside hrun
    refine ⟨hframe, fun b hb => ?_, hparts⟩
    apply Buffer.words_congr
    intro block pos hh
    exact hframe block pos fun hh' => houtside b hb block pos hh hh'.block_eq

/-! ## Unpacking -/

/-- Nothing is unpacked from a region in place. -/
theorem unpack_inPlace (hin : l.inPlace = true) (store : Store) : (l.unpack buffers).run store = (.ok (), store) := by
  unfold unpack
  rw [if_pos hin]
  rfl

/-- Unpacking writes to the buffers only. -/
theorem exists_unpack (hv : l.Serves buffers s s' s₁.heap) : ∃ s₂, (l.unpack buffers).run s₁ = (.ok (), s₂) ∧
    ∀ block pos, (∀ b ∈ buffers, ¬b.Holds block pos) → s₂.heap.byte? block pos = s₁.heap.byte? block pos := by
  cases hin : l.inPlace with
  | true => exact ⟨s₁, unpack_inPlace hin s₁, fun _ _ _ => rfl⟩
  | false =>
    obtain ⟨s₂, hcopied, hkept⟩ := copyAll_ok hv.buffers_match hv.bounded
    refine ⟨s₂, (hv.stands.unpack_run hin s₁).trans hcopied, fun block pos hout => ?_⟩
    exact hkept block pos fun p hp => hout p.1 (List.of_mem_zip hp).1

/-- Buffers that are apart read as their parts once they are unpacked. -/
theorem words_unpack (hv : l.Serves buffers s s' s₁.heap) (happart : buffers.Pairwise Buffer.Apart)
    (h : (l.unpack buffers).run s₁ = (.ok (), s₂)) (hb : buffers[i]? = some b) :
    b.words s₂.heap = (l.region.stretch (elementsBefore buffers i) b.count).words s₁.heap := by
  cases hin : l.inPlace with
  | true =>
    obtain rfl : s₁ = s₂ := congrArg Prod.snd ((unpack_inPlace hin s₁).symm.trans h)
    exact (hv.words_part_inPlace hin hb s₁.heap).symm
  | false =>
    have hcopied := (hv.stands.unpack_run hin s₁).symm.trans h
    exact words_copyAll hv.buffers_match hv.bounded (pairwise_zip happart) (hv.buffers_apart hin) hcopied _
      (hv.stands.mem_zip hb)

/-- Where every part reads as its buffer already, unpacking changes nothing. -/
theorem unpack_idle (hv : l.Serves buffers s s' s₁.heap) (hparts : ∀ i b, buffers[i]? = some b →
    (l.region.stretch (elementsBefore buffers i) b.count).words s₁.heap = b.words s₁.heap) :
    ∃ s₂, (l.unpack buffers).run s₁ = (.ok (), s₂) ∧
      ∀ block pos, s₂.heap.byte? block pos = s₁.heap.byte? block pos := by
  cases hin : l.inPlace with
  | true => exact ⟨s₁, unpack_inPlace hin s₁, fun _ _ => rfl⟩
  | false =>
    have hsame : ∀ p ∈ buffers.zip (l.region.stretches 0 l.lengths), p.1.words s₁.heap = p.2.words s₁.heap := by
      rintro ⟨b, part⟩ hmem
      obtain ⟨i, hb, rfl⟩ := hv.stands.exists_of_mem_zip hmem
      exact (hparts i b hb).symm
    have happart := hv.buffers_apart hin
    obtain ⟨s₂, hcopied, hkept⟩ :=
      copyAll_idle hv.buffers_match hv.bounded (fun p hp => happart p hp p hp) hsame
    exact ⟨s₂, (hv.stands.unpack_run hin s₁).trans hcopied, hkept⟩

/-- What the region is overwritten with is unpacked slice by slice, and only the region and the buffers change. -/
theorem exists_overwrite {data : List Nat} (hv : l.Serves buffers s s' s₁.heap) (hlength : data.length = l.lengths.sum)
    (hfit : ∀ word ∈ data, word < 256 ^ l.region.dtype.width) :
    ∃ s₂ s₃, (l.region.fill l.region.dtype data).run s₁ = (.ok (), s₂) ∧ (l.unpack buffers).run s₂ = (.ok (), s₃) ∧
      (buffers.Pairwise Buffer.Apart → ∀ i b, buffers[i]? = some b →
        b.words s₃.heap = (data.drop (elementsBefore buffers i)).take b.count) ∧
      ∀ block pos, (∀ b ∈ buffers, ¬b.Holds block pos) → ¬l.region.Holds block pos →
        s₃.heap.byte? block pos = s₁.heap.byte? block pos := by
  have hsolid := hv.region_solid
  have hfill := Buffer.fill_run (s := s₁) hsolid.counted hlength
  have hwords := Buffer.words_fill hsolid.sound hsolid.counted hlength hfit
  have hframe := (l.region.fill_frame l.region.dtype data).of_run hfill
  have hv' := hv.later ((l.region.fill_extends l.region.dtype data).of_run hfill)
  obtain ⟨s₃, hunpack, hkept⟩ := hv'.exists_unpack
  refine ⟨_, s₃, hfill, hunpack, fun happart i b hb => ?_, fun block pos hbuffers hregion => ?_⟩
  · have hin := hv.stands.elementsBefore_add_le hb
    rw [hv'.words_unpack happart hunpack hb, hv.stands.flat.words_stretch hin, hwords]
  · exact (hkept block pos hbuffers).trans (hframe block pos hregion)

/-- All buffers are read under their type. -/
theorem mapM_toWords {dtype : ElementType} (hv : l.Serves buffers s s' h) (htype : ∀ b ∈ buffers, b.dtype = dtype)
    (h' : Heap) : (buffers.mapM fun b => b.toWords h' dtype) = .ok (buffers.map (Buffer.words · h')) := by
  apply mapM_eq_ok_map
  intro b hb
  rw [← htype b hb]
  exact Buffer.toWords_eq_ok (hv.stands.counted b hb)

end Serves

end FlatLayout

section Held

variable {s s' s₁ : Store} {buffers : List Buffer} {dtype : ElementType} {l : FlatLayout}

/-- Packing a list of buffers of one type makes their region read as they do, one after the other, and changes none of
them. When the region is then overwritten and unpacked, every buffer reads its slice of the new words, if no two buffers
share elements, and only the buffers and the region change. Unpacking what was packed changes nothing. -/
theorem Holding.pack_unpack_inverse (hheld : Holding s buffers) (htype : ∀ b ∈ buffers, b.dtype = dtype)
    (hflat : (FlatLayout.reconcile buffers).run s = (.ok l, s')) (hx : s'.heap.Extends s₁.heap) :
    ∃ s₂ contents, (l.pack buffers).run s₁ = (.ok (), s₂) ∧
      (buffers.mapM fun b => b.toWords s₁.heap dtype) = .ok contents ∧
      (buffers.mapM fun b => b.toWords s₂.heap dtype) = .ok contents ∧
      l.region.toWords s₂.heap dtype = .ok contents.flatten ∧ l.region.Frame s₁.heap s₂.heap ∧
      (∀ data : List Nat, data.length = (buffers.map Buffer.count).sum → (∀ word ∈ data, word < 256 ^ dtype.width) →
        ∃ s₃ s₄, (l.region.fill dtype data).run s₂ = (.ok (), s₃) ∧ (l.unpack buffers).run s₃ = (.ok (), s₄) ∧
          (buffers.Pairwise Buffer.Apart → ∀ (i : Nat) b, buffers[i]? = some b →
            b.toWords s₄.heap dtype = .ok ((data.drop (elementsBefore buffers i)).take b.count)) ∧
          ∀ block pos, (∀ b ∈ buffers, ¬b.Holds block pos) → ¬l.region.Holds block pos →
            s₄.heap.byte? block pos = s₁.heap.byte? block pos) ∧
      ∃ s₃, (l.unpack buffers).run s₂ = (.ok (), s₃) ∧
        (buffers.mapM fun b => b.toWords s₃.heap dtype) = .ok contents ∧
        ∀ block pos, s₃.heap.byte? block pos = s₂.heap.byte? block pos := by
  have hv := (FlatLayout.Serves.of_reconcile hheld.tenancy htype hflat).later hx
  obtain ⟨first, hfirst, hregion⟩ := hv.stands.typed
  obtain rfl : l.region.dtype = dtype := hregion.trans (htype first hfirst)
  obtain ⟨s₂, hpack, hframe, hkept, hparts⟩ := hv.exists_pack
  have hv₂ := hv.later ((FlatLayout.pack_extends l buffers).of_run hpack)
  have hsame : buffers.map (Buffer.words · s₂.heap) = buffers.map (Buffer.words · s₁.heap) := List.map_congr_left hkept
  refine ⟨s₂, _, hpack, hv.mapM_toWords htype s₁.heap, ?_, ?_, hframe, fun data hlength hfit => ?_, ?_⟩
  · rw [hv.mapM_toWords htype s₂.heap, hsame]
  · rw [Buffer.toWords_eq_ok hv.region_solid.counted, hv.words_region hparts]
  · rw [← hv.stands.lengths] at hlength
    obtain ⟨s₃, s₄, hfill, hunpack, hslices, hout⟩ := hv₂.exists_overwrite hlength hfit
    refine ⟨s₃, s₄, hfill, hunpack, fun happart i b hb => ?_, fun block pos hbuffers hregion => ?_⟩
    · have hlisted := List.mem_of_getElem? hb
      rw [← htype b hlisted, Buffer.toWords_eq_ok (hv.stands.counted b hlisted), hslices happart i b hb]
    · exact (hout block pos hbuffers hregion).trans (hframe block pos hregion)
  · have hidle : ∀ (i : Nat) b, buffers[i]? = some b →
        (l.region.stretch (elementsBefore buffers i) b.count).words s₂.heap = b.words s₂.heap := by
      intro i b hb
      rw [hparts i b hb, hkept b (List.mem_of_getElem? hb)]
    obtain ⟨s₃, hunpack, hbytes⟩ := hv₂.unpack_idle hidle
    have hback : buffers.map (Buffer.words · s₃.heap) = buffers.map (Buffer.words · s₂.heap) :=
      List.map_congr_left fun b _ => Buffer.words_congr fun block pos _ => hbytes block pos
    refine ⟨s₃, hunpack, ?_, hbytes⟩
    rw [hv.mapM_toWords htype s₃.heap, hback, hsame]

/-- The last two columns of a table, no rows of it and its first column are packed, and other words are unpacked. -/
theorem Holding.pack_unpack_of_columns :
    ∃ (s s' s₂ s₃ s₄ : Store) (columns nothing first : Buffer) (l : FlatLayout), Holding s [columns, nothing, first] ∧
      columns.offsets = [1, 4, 2, 5] ∧ nothing.offsets = [] ∧ first.offsets = [0, 3] ∧
      (FlatLayout.reconcile [columns, nothing, first]).run s = (.ok l, s') ∧ l.inPlace = false ∧
      (l.pack [columns, nothing, first]).run s' = (.ok (), s₂) ∧
      l.region.toWords s₂.heap .i16 = .ok [2, 5, 3, 6, 1, 4] ∧
      (l.region.fill .i16 [10, 20, 30, 40, 50, 60]).run s₂ = (.ok (), s₃) ∧
      (l.unpack [columns, nothing, first]).run s₃ = (.ok (), s₄) ∧
      columns.toWords s₄.heap .i16 = .ok [10, 20, 30, 40] ∧ nothing.toWords s₄.heap .i16 = .ok [] ∧
      first.toWords s₄.heap .i16 = .ok [50, 60] := by
  let table : Buffer := { block := 0, dtype := .i16, shape := [2, 3], strides := [3, 1], offset := 0 }
  let turned : Buffer := { table with shape := [3, 2], strides := [1, 3] }
  let columns : Buffer := { turned with shape := [2, 2], offset := 1 }
  let nothing : Buffer := { table with shape := [0, 3] }
  let first : Buffer := { turned with shape := [1, 2] }
  let s : Store := { heap := { blocks := #[#[1, 0, 2, 0, 3, 0, 4, 0, 5, 0, 6, 0]] } }
  let region : Buffer := { block := 1, dtype := .i16, shape := [6], strides := [1], offset := 0 }
  let l : FlatLayout := { lengths := [4, 0, 2], region, inPlace := false }
  have hbounded : Heap.Bounded {} := fun block => Nat.zero_le _
  have htable : (Buffer.ofWords .i16 [1, 2, 3, 4, 5, 6] [2, 3]).run {} = (.ok table, s) := rfl
  have hturned : (View.transposed 0 1).of table = .ok turned := rfl
  have hcolumns : (View.rows 1 2).of turned = .ok columns := rfl
  have hnothing : (View.rows 0 0).of table = .ok nothing := rfl
  have hfirst : (View.rows 0 1).of turned = .ok first := rfl
  have htwo : Holding s [turned, table] := .view (.ofWords (.nothing hbounded) htable) (by decide) hturned
  have hviews : Holding s [first, nothing, columns, turned, table] :=
    .view (.view (.view htwo (by decide) hcolumns) (by decide) hnothing) (by decide) hfirst
  have hheld : Holding s [columns, nothing, first] := .among hviews (by decide)
  let s' : Store := ((FlatLayout.reconcile [columns, nothing, first]).run s).2
  have hflat : (FlatLayout.reconcile [columns, nothing, first]).run s = (.ok l, s') := Prod.ext rfl rfl
  have htype : ∀ b ∈ [columns, nothing, first], b.dtype = .i16 := by decide
  have hdisjoint : [columns, nothing, first].Pairwise fun b c =>
      b.block = c.block → ∀ i ∈ b.offsets, i ∉ c.offsets := by decide
  have hapart : [columns, nothing, first].Pairwise Buffer.Apart :=
    hdisjoint.imp_of_mem fun hb hc h => (Buffer.apart_iff ((htype _ hc).trans (htype _ hb).symm)).mpr h
  obtain ⟨s₂, contents, hpack, hbefore, -, hregion, -, hdata, -⟩ :=
    hheld.pack_unpack_inverse htype hflat (.refl s'.heap)
  have hcontents : ([columns, nothing, first].mapM fun b => b.toWords s'.heap .i16) =
      .ok [[2, 5, 3, 6], [], [1, 4]] := by
    have hheap : s'.heap = { blocks := s.heap.blocks.push (Array.replicate 12 0) } := rfl
    rw [hheap]
    rfl
  obtain rfl : contents = [[2, 5, 3, 6], [], [1, 4]] := Except.ok.inj (hbefore.symm.trans hcontents)
  obtain ⟨s₃, s₄, hfill, hunpack, hslices, -⟩ := hdata [10, 20, 30, 40, 50, 60] rfl (by decide)
  have hread := hslices hapart
  exact ⟨s, s', s₂, s₃, s₄, columns, nothing, first, l, hheld, rfl, rfl, rfl, hflat, rfl, hpack, hregion, hfill,
    hunpack, hread 0 columns rfl, hread 1 nothing rfl, hread 2 first rfl⟩

end Held

end Collectives
