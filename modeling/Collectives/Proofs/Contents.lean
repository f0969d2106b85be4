import Collectives.Proofs.Holding

/-!
# Contents of views

What a view reads after it was written or copied into, and what the other views of its block read then. An element
that two views share has one value for both; the others, and all other blocks, keep theirs. A copy that goes through
touches the elements of its target only.
-/

namespace Collectives

namespace Buffer

variable {s : Store} {h h' : Heap} {b c target source : Buffer} {n m i j k : Nat} {data : List Nat}

/-- The word of an element, by its place in the row-major order. -/
theorem getElem?_words (b : Buffer) (h : Heap) (k : Nat) :
    (b.words h)[k]? = b.offsets[k]?.map (h.word b.block b.dtype.width) :=
  List.getElem?_map

/-- An element that two buffers share reads the same through both. -/
theorem getElem?_words_of_shared (hbeside : b.Beside c) (hj : c.offsets[j]? = some i) (hk : b.offsets[k]? = some i) :
    (c.words h)[j]? = (b.words h)[k]? := by
  obtain ⟨hblock, htype⟩ := hbeside
  rw [getElem?_words, getElem?_words, hj, hk, hblock, htype]

/-! ## Writing -/

/-- Words of the right number are written to the elements of a buffer. -/
theorem fill_run (hn : b.numel = .ok n) (hlength : data.length = n) : (b.fill b.dtype data).run s =
    (.ok (), { s with heap := s.heap.setWords b.block b.dtype.width b.offsets data }) := by
  have htype : require (b.dtype == b.dtype) (.writeType b.dtype b.dtype) = .ok () := if_pos (beq_self_eq_true _)
  have hcount : require (data.length == n) (.writeCount n data.length) = .ok () := if_pos (beq_iff_eq.mpr hlength)
  unfold fill
  rw [run_check_bind htype, run_size_bind hn, run_check_bind hcount]
  rfl

/-- Words that the elements can hold are read back. -/
theorem words_fill (hs : b.Sound h) (hn : b.numel = .ok n) (hlength : data.length = n)
    (hfit : ∀ word ∈ data, word < 256 ^ b.dtype.width) :
    b.words (h.setWords b.block b.dtype.width b.offsets data) = data := by
  have hoffsets : data.length = b.offsets.length := by rw [hlength, length_offsets hs.ranked hn]
  rw [words, Heap.words_setWords hs.distinct hoffsets hs.inside]
  refine (List.map_congr_left fun word hword => ?_).trans (List.map_id data)
  exact Nat.mod_eq_of_lt (hfit word hword)

/-- An element of another view that is not written to keeps its word. -/
theorem getElem?_words_fill_of_not_mem (hbeside : b.Beside c) (hj : c.offsets[j]? = some i) (hi : i ∉ b.offsets) :
    (c.words (h.setWords b.block b.dtype.width b.offsets data))[j]? = (c.words h)[j]? := by
  obtain ⟨-, htype⟩ := hbeside
  rw [getElem?_words, getElem?_words, hj, Option.map_some, Option.map_some, htype,
    Heap.word_setWords_of_not_mem fun _ => hi]

/-- Words of another type are not written. -/
theorem fill_of_type {dtype : ElementType} (htype : dtype ≠ b.dtype) :
    (b.fill dtype data).run s = (.error (.error (.validation (.writeType b.dtype dtype))), s) := by
  have hcheck : require (dtype == b.dtype) (.writeType b.dtype dtype) =
      .error (.error (.validation (.writeType b.dtype dtype))) := if_neg (by simpa using htype)
  exact run_check_bind_error hcheck _ s

/-- Words of another number than there are elements are not written. -/
theorem fill_of_count (hn : b.numel = .ok n) (hlength : data.length ≠ n) :
    (b.fill b.dtype data).run s = (.error (.error (.validation (.writeCount n data.length))), s) := by
  have htype : require (b.dtype == b.dtype) (.writeType b.dtype b.dtype) = .ok () := if_pos (beq_self_eq_true _)
  have hcheck : require (data.length == n) (.writeCount n data.length) =
      .error (.error (.validation (.writeCount n data.length))) := if_neg (by simpa using hlength)
  unfold fill
  rw [run_check_bind htype, run_size_bind hn]
  exact run_check_bind_error hcheck _ s

/-! ## Copies that are refused -/

/-- Nothing is copied between buffers of two types. -/
theorem copyFrom_of_type (htype : source.dtype ≠ target.dtype) : (target.copyFrom source).run s =
    (.error (.error (.validation (.copyType source.dtype target.dtype))), s) := by
  have hcheck : require (source.dtype == target.dtype) (.copyType source.dtype target.dtype) =
      .error (.error (.validation (.copyType source.dtype target.dtype))) := if_neg (by simpa using htype)
  exact run_check_bind_error hcheck _ s

/-- Nothing is copied between buffers of two sizes. -/
theorem copyFrom_of_count (htype : source.dtype = target.dtype) (hn : target.numel = .ok n) (hm : source.numel = .ok m)
    (hne : m ≠ n) : (target.copyFrom source).run s = (.error (.error (.validation (.copyCount m n))), s) := by
  have htypes : require (source.dtype == target.dtype) (.copyType source.dtype target.dtype) = .ok () :=
    if_pos (beq_iff_eq.mpr htype)
  have hcheck : require (m == n) (.copyCount m n) = .error (.error (.validation (.copyCount m n))) :=
    if_neg (by simpa using hne)
  unfold copyFrom
  rw [run_check_bind htypes, run_size_bind hm, run_size_bind hn]
  exact run_check_bind_error hcheck _ s

end Buffer

/-! ## Buffers that are held -/

section Held

variable {s : Store} {held : List Buffer}

/-- Views of one block are of one type. -/
theorem Tenancy.beside {b c : Buffer} (ht : Tenancy s held) (hb : b ∈ held) (hc : c ∈ held)
    (hblock : c.block = b.block) : b.Beside c := ⟨hblock, ht.typed c hc b hb hblock⟩

/-- A view that was written reads what was written. Any other view of its block reads the same in the elements that the
two share, and what it read before in the others; the other blocks are as they were. Words of another type, or of
another number than there are elements, are refused, and nothing changes. -/
theorem Holding.write_seen_by_views {b : Buffer} {n : Nat} (hheld : Holding s held) (hb : b ∈ held)
    (hn : b.numel = .ok n) (dtype : ElementType) (data : List Nat) :
    (dtype = b.dtype → data.length = n → (∀ word ∈ data, word < 256 ^ b.dtype.width) →
      ∃ s', (b.fill dtype data).run s = (.ok (), s') ∧ b.toWords s'.heap b.dtype = .ok data ∧
        (∀ c ∈ held, c.block = b.block → ∀ m, c.numel = .ok m → ∃ before after,
          c.toWords s.heap c.dtype = .ok before ∧ c.toWords s'.heap c.dtype = .ok after ∧
            ∀ j i : Nat, c.offsets[j]? = some i → (∀ k : Nat, b.offsets[k]? = some i → after[j]? = data[k]?) ∧
              (i ∉ b.offsets → after[j]? = before[j]?)) ∧
        ∀ block pos, block ≠ b.block → s'.heap.byte? block pos = s.heap.byte? block pos) ∧
      (dtype ≠ b.dtype →
        (b.fill dtype data).run s = (.error (.error (.validation (.writeType b.dtype dtype))), s)) ∧
      (dtype = b.dtype → data.length ≠ n →
        (b.fill dtype data).run s = (.error (.error (.validation (.writeCount n data.length))), s)) := by
  have ht := hheld.tenancy
  refine ⟨?_, Buffer.fill_of_type, ?_⟩
  · rintro rfl hlength hfit
    have hrun := Buffer.fill_run (s := s) hn hlength
    have hwords := Buffer.words_fill (ht.sound b hb) hn hlength hfit
    refine ⟨_, hrun, ?_, fun c hc hblock m hm => ?_, fun block pos hne => ?_⟩
    · rw [Buffer.toWords_eq_ok hn, hwords]
    · have hbeside := ht.beside hb hc hblock
      refine ⟨_, _, Buffer.toWords_eq_ok hm, Buffer.toWords_eq_ok hm, fun j i hj => ⟨fun k hk => ?_, fun hi => ?_⟩⟩
      · rw [Buffer.getElem?_words_of_shared hbeside hj hk, hwords]
      · exact Buffer.getElem?_words_fill_of_not_mem hbeside hj hi
    · exact (b.fill_frame b.dtype data).of_run hrun block pos fun hh => hne hh.block_eq
  · rintro rfl hlength
    exact Buffer.fill_of_count hn hlength

/-- The second and third column of a table are written as rows. Of the second row, the first element is in neither. -/
theorem Holding.write_seen_by_views_of_table : ∃ (s s' : Store) (columns row : Buffer), Holding s [columns, row] ∧
    columns.offsets = [1, 4, 2, 5] ∧ row.offsets = [3, 4, 5] ∧ row.toWords s.heap .i16 = .ok [4, 5, 6] ∧
      (columns.fill .i16 [10, 20, 30, 40]).run s = (.ok (), s') ∧
      columns.toWords s'.heap .i16 = .ok [10, 20, 30, 40] ∧
      ∃ after, row.toWords s'.heap .i16 = .ok after ∧ after[0]? = some 4 ∧ after[1]? = some 20 ∧
        after[2]? = some 40 := by
  let table : Buffer := { block := 0, dtype := .i16, shape := [2, 3], strides := [3, 1], offset := 0 }
  let turned : Buffer := { table with shape := [3, 2], strides := [1, 3] }
  let columns : Buffer := { turned with shape := [2, 2], offset := 1 }
  let row : Buffer := { table with shape := [1, 3], offset := 3 }
  let s : Store := { heap := { blocks := #[#[1, 0, 2, 0, 3, 0, 4, 0, 5, 0, 6, 0]] } }
  have hbounded : Heap.Bounded {} := fun block => Nat.zero_le _
  have htable : (Buffer.ofWords .i16 [1, 2, 3, 4, 5, 6] [2, 3]).run {} = (.ok table, s) := rfl
  have hturned : (View.transposed 0 1).of table = .ok turned := rfl
  have hcolumns : (View.rows 1 2).of turned = .ok columns := rfl
  have hrow : (View.rows 1 1).of table = .ok row := rfl
  have htwo : Holding s [turned, table] := .view (.ofWords (.nothing hbounded) htable) (by decide) hturned
  have hviews : Holding s [row, columns, turned, table] :=
    .view (.view htwo (by decide) hcolumns) (by decide) hrow
  have hheld : Holding s [columns, row] := .among hviews (by decide)
  have hn : columns.numel = .ok 4 := rfl
  obtain ⟨hwritten, -, -⟩ := hheld.write_seen_by_views (by decide) hn .i16 [10, 20, 30, 40]
  obtain ⟨s', hrun, hread, hothers, -⟩ := hwritten rfl rfl (by decide)
  obtain ⟨before, after, hbefore, hafter, helements⟩ := hothers row (by decide) rfl 3 rfl
  have hwords : row.toWords s.heap .i16 = .ok [4, 5, 6] := rfl
  obtain rfl : before = [4, 5, 6] := Except.ok.inj (hbefore.symm.trans hwords)
  refine ⟨s, s', columns, row, hheld, rfl, rfl, hwords, hrun, hread, after, hafter, ?_, ?_, ?_⟩
  · exact (helements 0 3 rfl).2 (by decide)
  · exact (helements 1 4 rfl).1 1 rfl
  · exact (helements 2 5 rfl).1 3 rfl

/-- A copy between views of one type and size goes through, and the target then reads as the source did before, if both
are contiguous, however they overlap, or if they share no element; no byte outside the target's elements changes.
Between views of two types or sizes it is refused, and nothing changes. -/
theorem Holding.copy_reads_back {target source : Buffer} {n m : Nat} (hheld : Holding s held) (htarget : target ∈ held)
    (hsource : source ∈ held) (hn : target.numel = .ok n) (hm : source.numel = .ok m) :
    (source.dtype = target.dtype → m = n →
      target.isContiguous = .ok true ∧ source.isContiguous = .ok true ∨ target.Apart source →
      ∃ s' words, (target.copyFrom source).run s = (.ok (), s') ∧ source.toWords s.heap source.dtype = .ok words ∧
        target.toWords s'.heap target.dtype = .ok words ∧ target.Frame s.heap s'.heap) ∧
      (source.dtype ≠ target.dtype → (target.copyFrom source).run s =
        (.error (.error (.validation (.copyType source.dtype target.dtype))), s)) ∧
      (source.dtype = target.dtype → m ≠ n →
        (target.copyFrom source).run s = (.error (.error (.validation (.copyCount m n))), s)) := by
  have ht := hheld.tenancy
  refine ⟨?_, Buffer.copyFrom_of_type, fun htype hne => Buffer.copyFrom_of_count htype hn hm hne⟩
  rintro htype rfl hor
  have hmatches : target.Matches s.heap source :=
    ⟨htype, ht.sound target htarget, ht.sound source hsource, m, hn, hm⟩
  obtain ⟨s', hrun, hwords⟩ := Buffer.copyFrom_exact hmatches ht.bounded
  have hframe := (Buffer.copyFrom_frame hmatches.written.ranked source).of_run hrun
  refine ⟨s', source.words s.heap, hrun, Buffer.toWords_eq_ok hm, ?_, hframe⟩
  rw [Buffer.toWords_eq_ok hn, hwords hor]

/-- The first three of four bytes are copied one place on, over themselves, and a table to the columns of another. -/
theorem Holding.copy_reads_back_shifted :
    (∃ (s s' : Store) (later earlier : Buffer), Holding s [later, earlier] ∧ later.offsets = [1, 2, 3] ∧
      earlier.offsets = [0, 1, 2] ∧ earlier.toWords s.heap .u8 = .ok [1, 2, 3] ∧
      (later.copyFrom earlier).run s = (.ok (), s') ∧ later.toWords s'.heap .u8 = .ok [1, 2, 3]) ∧
    ∃ (s s' : Store) (columns table : Buffer), Holding s [columns, table] ∧ columns.offsets = [0, 2, 1, 3] ∧
      table.toWords s.heap .i16 = .ok [1, 2, 3, 4] ∧ (columns.copyFrom table).run s = (.ok (), s') ∧
      columns.toWords s'.heap .i16 = .ok [1, 2, 3, 4] := by
  have hbounded : Heap.Bounded {} := fun block => Nat.zero_le _
  constructor
  · let row : Buffer := { block := 0, dtype := .u8, shape := [4], strides := [1], offset := 0 }
    let later : Buffer := { row with shape := [3], offset := 1 }
    let earlier : Buffer := { row with shape := [3] }
    let s : Store := { heap := { blocks := #[#[1, 2, 3, 4]] } }
    have hrow : (Buffer.ofWords .u8 [1, 2, 3, 4] [4]).run {} = (.ok row, s) := rfl
    have hlater : (View.rows 1 3).of row = .ok later := rfl
    have hearlier : (View.rows 0 3).of row = .ok earlier := rfl
    have hviews : Holding s [earlier, later, row] :=
      .view (.view (.ofWords (.nothing hbounded) hrow) (by decide) hlater) (by decide) hearlier
    have hheld : Holding s [later, earlier] := .among hviews (by decide)
    have hn : later.numel = .ok 3 := rfl
    have hm : earlier.numel = .ok 3 := rfl
    obtain ⟨hcopied, -, -⟩ := hheld.copy_reads_back (by decide) (by decide) hn hm
    obtain ⟨s', words, hrun, hgiven, hread, -⟩ := hcopied rfl rfl (.inl ⟨rfl, rfl⟩)
    have hwords : earlier.toWords s.heap .u8 = .ok [1, 2, 3] := rfl
    obtain rfl : words = [1, 2, 3] := Except.ok.inj (hgiven.symm.trans hwords)
    exact ⟨s, s', later, earlier, hheld, rfl, rfl, hwords, hrun, hread⟩
  · let table : Buffer := { block := 0, dtype := .i16, shape := [2, 2], strides := [2, 1], offset := 0 }
    let other : Buffer := { table with block := 1 }
    let columns : Buffer := { other with strides := [1, 2] }
    let s₀ : Store := { heap := { blocks := #[#[1, 0, 2, 0, 3, 0, 4, 0]] } }
    let s : Store := { heap := { blocks := #[#[1, 0, 2, 0, 3, 0, 4, 0], Array.replicate 8 0] } }
    have htable : (Buffer.ofWords .i16 [1, 2, 3, 4] [2, 2]).run {} = (.ok table, s₀) := rfl
    have hother : (Buffer.zeros .i16 [2, 2]).run s₀ = (.ok other, s) := rfl
    have hcolumns : (View.transposed 0 1).of other = .ok columns := rfl
    have hviews : Holding s [columns, other, table] :=
      .view (.zeros (.ofWords (.nothing hbounded) htable) hother) (by decide) hcolumns
    have hheld : Holding s [columns, table] := .among hviews (by decide)
    have htype : table.dtype = columns.dtype := rfl
    have hapart : columns.Apart table := by
      rw [Buffer.apart_iff htype]
      exact fun hblock => absurd hblock (by decide)
    have hn : columns.numel = .ok 4 := rfl
    have hm : table.numel = .ok 4 := rfl
    obtain ⟨hcopied, -, -⟩ := hheld.copy_reads_back (by decide) (by decide) hn hm
    obtain ⟨s', words, hrun, hgiven, hread, -⟩ := hcopied rfl rfl (.inr hapart)
    have hwords : table.toWords s.heap .i16 = .ok [1, 2, 3, 4] := rfl
    obtain rfl : words = [1, 2, 3, 4] := Except.ok.inj (hgiven.symm.trans hwords)
    exact ⟨s, s', columns, table, hheld, rfl, hwords, hrun, hread⟩

end Held

end Collectives
