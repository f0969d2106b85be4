import Collectives.Proofs.Views

/-!
# Words in memory

A word that is written is read back, as far as its bytes can hold it, and a row of words that is delivered in one
piece is read back word by word. The elements of a contiguous buffer are such a row, from the buffer's address on.
-/

namespace Collectives

namespace Bytes

/-- A word is bounded by the number of its bytes. -/
theorem toWord_lt (bytes : Bytes) : bytes.toWord < 256 ^ bytes.length := by
  induction bytes with
  | nil => simp [toWord]
  | cons b bytes ih =>
    have hb : b.toNat < 256 := b.toNat_lt
    rw [toWord, List.length_cons, pow_succ]
    omega

/-- A word is its bytes, but for what they cannot hold. -/
theorem toWord_ofWord (width word : Nat) : toWord (ofWord width word) = word % 256 ^ width := by
  induction width generalizing word with
  | zero => simp [ofWord, toWord, Nat.mod_one]
  | succ width ih =>
    have hlow : (UInt8.ofNat word).toNat = word % 256 := by simp
    rw [ofWord, toWord, ih, hlow, pow_succ, Nat.mul_comm (256 ^ width), Nat.mod_mul]

/-- The bytes of each word of a row. -/
theorem getElem?_ofWords {width k j word : Nat} {words : List Nat} (hk : words[k]? = some word) (hj : j < width) :
    (ofWords width words)[k * width + j]? = (ofWord width word)[j]? := by
  induction words generalizing k with
  | nil => simp at hk
  | cons first words ih =>
    have hcons : ofWords width (first :: words) = ofWord width first ++ ofWords width words := rfl
    cases k with
    | zero =>
      have hfirst : first = word := by simpa using hk
      have hin : 0 * width + j < (ofWord width first).length := by simpa using hj
      rw [hcons, List.getElem?_append_left hin, hfirst, Nat.zero_mul, Nat.zero_add]
    | succ k =>
      have hrest : words[k]? = some word := by simpa using hk
      have hout : (ofWord width first).length ≤ (k + 1) * width + j := by
        rw [length_ofWord, Nat.add_mul]
        omega
      have hskip : (k + 1) * width + j - width = k * width + j := by
        rw [Nat.add_mul]
        omega
      rw [hcons, List.getElem?_append_right hout, length_ofWord, hskip]
      exact ih hrest

end Bytes

namespace Heap

variable {h h' : Heap} {a a' : Address} {block pos : Nat}

theorem byte?_isSome_iff : (h.byte? block pos).isSome ↔ pos < h.blockSize block := by
  unfold byte? blockSize
  cases h.blocks[block]? with
  | none => simp
  | some bytes => simp

theorem word_lt (block width index : Nat) : h.word block width index < 256 ^ width := by
  have hword := Bytes.toWord_lt (h.read { block := some block, pos := index * width } width)
  have hlength : (h.read { block := some block, pos := index * width } width).length ≤ width :=
    h.length_read_le _ _
  exact lt_of_lt_of_le hword (Nat.pow_le_pow_right (by omega) hlength)

/-- A part of what is read is read from further on. -/
theorem read_advance {skip part length : Nat} (hin : skip + part ≤ length) :
    h.read (a.advance skip) part = ((h.read a length).drop skip).take part := by
  cases hb : a.block with
  | none =>
    have hb' : (a.advance skip).block = none := hb
    simp [read, hb, hb']
  | some block =>
    refine List.ext_getElem? fun i => ?_
    have hb' : (a.advance skip).block = some block := hb
    rw [getElem?_read hb', List.getElem?_take, List.getElem?_drop, getElem?_read hb]
    by_cases hi : i < part
    · have hi' : skip + i < length := by omega
      rw [if_pos hi, if_pos hi, if_pos hi']
      simp only [Address.advance, Nat.add_assoc]
    · rw [if_neg hi, if_neg hi]

/-- What holds the bytes of a row of words is read as these words. -/
theorem row_of_read {width : Nat} {words : List Nat}
    (hread : h.read a (words.length * width) = Bytes.ofWords width words) :
    h.row a width words.length = words.map (· % 256 ^ width) := by
  refine List.ext_getElem? fun k => ?_
  rw [row, List.getElem?_map, List.getElem?_map]
  by_cases hk : k < words.length
  · have hin : k * width + width ≤ words.length * width := by
      rw [← Nat.succ_mul]
      exact Nat.mul_le_mul_right width hk
    have hword : words[k]? = some words[k] := List.getElem?_eq_getElem hk
    have hbytes : h.read (a.advance (k * width)) width = Bytes.ofWord width words[k] := by
      rw [read_advance hin, hread]
      refine List.ext_getElem? fun j => ?_
      rw [List.getElem?_take, List.getElem?_drop]
      by_cases hj : j < width
      · rw [if_pos hj, Bytes.getElem?_ofWords hword hj]
      · have hout : (Bytes.ofWord width words[k]).length ≤ j := by
          rw [Bytes.length_ofWord]
          omega
        rw [if_neg hj, List.getElem?_eq_none hout]
    rw [List.getElem?_range hk, hword, Option.map_some, Option.map_some, hbytes, Bytes.toWord_ofWord]
  · have hout : words.length ≤ k := Nat.le_of_not_lt hk
    have hrange : (List.range words.length).length ≤ k := by rwa [List.length_range]
    rw [List.getElem?_eq_none hrange, List.getElem?_eq_none hout, Option.map_none, Option.map_none]

/-! ## What deliveries leave -/

/-- A byte that is in memory has what the deliveries that cover it have there, if they have the same. -/
theorem byte?_deliver_of_covers {ds : List Delivery} {value : UInt8} (hold : pos < h.blockSize block)
    (hsome : ∃ d ∈ ds, d.1.Covers d.2.length block pos)
    (hall : ∀ d ∈ ds, d.1.Covers d.2.length block pos → d.2[pos - d.1.pos]? = some value) :
    (h.deliver ds).byte? block pos = some value := by
  induction ds generalizing h with
  | nil => simp at hsome
  | cons d ds ih =>
    obtain ⟨hd, hds⟩ := List.forall_mem_cons.mp hall
    have hdeliver : h.deliver (d :: ds) = (h.write d.1 d.2).deliver ds := rfl
    rw [hdeliver]
    -- The last delivery that covers the byte decides, and they all have the same there.
    by_cases hlater : ∃ d' ∈ ds, d'.1.Covers d'.2.length block pos
    · refine ih ?_ hlater hds
      rwa [blockSize_write]
    · obtain ⟨d', hmem, hcov⟩ := hsome
      have hfirst : d' = d := by
        rcases List.mem_cons.mp hmem with he | hmem
        · exact he
        · exact absurd ⟨d', hmem, hcov⟩ hlater
      rw [hfirst] at hcov
      have hrest : ∀ d' ∈ ds, ¬d'.1.Covers d'.2.length block pos := fun d' hmem hc => hlater ⟨d', hmem, hc⟩
      obtain ⟨old, hold⟩ := Option.isSome_iff_exists.mp (byte?_isSome_iff.mpr hold)
      rw [byte?_deliver_of_not_covers hrest, byte?_write hcov.1, hold, Option.map_some, if_pos hcov.2.1, hd hcov]
      rfl

/-- What was delivered to a place inside memory, and nothing else was, is read there. -/
theorem read_deliver {ds : List Delivery} {data : Bytes} (hd : (a, data) ∈ ds)
    (hin : a.block = some block ∧ a.pos + data.length ≤ h.blockSize block)
    (hapart : ∀ d ∈ ds, ∀ block pos, a.Covers data.length block pos → d.1.Covers d.2.length block pos →
      d = (a, data)) :
    (h.deliver ds).read a data.length = data := by
  obtain ⟨hb, hsize⟩ := hin
  refine List.ext_getElem? fun i => ?_
  rw [getElem?_read hb]
  by_cases hi : i < data.length
  · have hcov : a.Covers data.length block (a.pos + i) := ⟨hb, by omega, by omega⟩
    rw [if_pos hi]
    have hbyte : (h.deliver ds).byte? block (a.pos + i) = some data[i] := by
      refine byte?_deliver_of_covers (by omega) ⟨(a, data), hd, hcov⟩ fun d hmem hc => ?_
      rw [hapart d hmem block _ hcov hc]
      simp only [Nat.add_sub_cancel_left]
      exact List.getElem?_eq_getElem hi
    rw [hbyte, List.getElem?_eq_getElem hi]
  · rw [if_neg hi, List.getElem?_eq_none (Nat.le_of_not_lt hi)]

/-! ## Reads -/

/-- A read that stays in its block gives as many bytes as it is asked for. -/
theorem length_read {length : Nat} (hb : a.block = some block) (hin : a.pos + length ≤ h.blockSize block) :
    (h.read a length).length = length := by
  unfold blockSize at hin
  simp only [read, hb, Array.length_toList, Array.size_extract, Array.getD_eq_getD_getElem?]
  cases hg : h.blocks[block]? with
  | none =>
    rw [hg] at hin
    simp only [Option.getD_none, List.size_toArray, List.length_nil]
    dsimp only at hin
    omega
  | some bytes =>
    rw [hg] at hin
    simp only [Option.getD_some]
    dsimp only at hin
    omega

theorem read_zero (h : Heap) (a : Address) : h.read a 0 = [] :=
  List.eq_nil_of_length_eq_zero (Nat.le_zero.mp (h.length_read_le a 0))

/-- What is written inside a block is read back. -/
theorem read_write {data : Bytes} (hb : a.block = some block) (hin : a.pos + data.length ≤ h.blockSize block) :
    (h.write a data).read a data.length = data := by
  have hone : (a, data) ∈ [(a, data)] := List.mem_singleton_self _
  exact read_deliver hone ⟨hb, hin⟩ fun d hd _ _ _ _ => List.mem_singleton.mp hd

/-- Where the same bytes are read, rows of elements are the same. -/
theorem row_eq_of_read {width count : Nat} (hread : h.read a (count * width) = h'.read a' (count * width)) :
    h.row a width count = h'.row a' width count := by
  refine List.map_congr_left fun i hi => congrArg Bytes.toWord ?_
  have hin : i * width + width ≤ count * width := by
    rw [← Nat.succ_mul]
    exact Nat.mul_le_mul_right width (List.mem_range.mp hi)
  rw [read_advance hin, read_advance hin, hread]

end Heap

/-! ## Elements of a contiguous buffer -/

namespace Buffer

variable {h h' : Heap} {b : Buffer} {n : Nat} {a : Address}

/-- Where the elements of a buffer with elements begin. -/
theorem address_eq (hb : b.Room h n) (hpos : 0 < n) (ha : b.address h = .ok a) : a = b.place b.offset := by
  have hroom := hb hpos
  have hbytes : 0 < (b.offset + n) * b.dtype.width := Nat.mul_pos (by omega) b.dtype.width_pos
  unfold address at ha
  rw [if_neg (by omega)] at ha
  obtain ⟨pos, hp, ha⟩ := exists_of_bind_eq_ok ha
  cases ha
  rw [(mulSize_eq_ok_iff.mp hp).1]
  rfl

/-- The address of a buffer is where its first element would be, if its block has bytes and the place is a size. -/
theorem address_of_size (hblock : h.blockSize b.block ≠ 0) (hfits : b.offset * b.dtype.width < sizeLimit) :
    b.address h = .ok (b.place b.offset) := by
  unfold address
  rw [if_neg hblock, mulSize_eq_ok hfits]
  rfl

/-- Elements that lie in memory have an address. -/
theorem address_eq_ok (hb : b.Room h n) (hbounded : h.Bounded) (hpos : 0 < n) :
    b.address h = .ok (b.place b.offset) := by
  have hroom := hb hpos
  have hblock := hbounded b.block
  have hlimit : blockLimit < sizeLimit := by decide
  have hbytes : 0 < (b.offset + n) * b.dtype.width := Nat.mul_pos (by omega) b.dtype.width_pos
  have hsize : h.blockSize b.block ≠ 0 := by omega
  rw [Nat.add_mul] at hroom
  have hstart : b.offset * b.dtype.width < sizeLimit := by omega
  exact address_of_size hsize hstart

/-- The words of the elements, in row-major order. -/
def words (b : Buffer) (h : Heap) : List Nat := h.words b.block b.dtype.width b.offsets

theorem length_words (hr : b.shape.length = b.strides.length) (hn : b.numel = .ok n) : (b.words h).length = n := by
  rw [words, Heap.words, List.length_map, length_offsets hr hn]

/-- What is read in a buffer under its own type. -/
theorem toWords_eq_ok (hn : b.numel = .ok n) : b.toWords h b.dtype = .ok (b.words h) := by
  have htype : require (b.dtype == b.dtype) (.readType b.dtype b.dtype) = .ok () := by
    unfold require
    rw [if_pos (beq_self_eq_true b.dtype)]
  unfold toWords
  rw [htype, ok_bind, hn]
  rfl

/-- The elements of a contiguous buffer are a row of words. -/
theorem words_eq_row (hr : b.shape.length = b.strides.length) (hn : b.numel = .ok n)
    (hc : b.isContiguous = .ok true) :
    b.words h = h.row (b.place b.offset) b.dtype.width n := by
  rw [words, offsets_of_isContiguous hr hn hc, List.range'_eq_map_range, Heap.words, Heap.row, List.map_map]
  refine List.map_congr_left fun i _ => ?_
  simp only [Function.comp_apply, Heap.word, place, Address.advance, Nat.add_mul]

end Buffer

end Collectives
