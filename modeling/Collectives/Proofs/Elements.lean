import Collectives.Proofs.Words

/-!
# Elements written one by one

The elements of one width stand in a block side by side, so writing one of them leaves the others alone, and words
that are written to different elements are all read back. Elements that are moved one after the other arrive as they
were, as long as none is moved from where another has been moved to. With this a buffer can be filled and copied
whatever its strides are.
-/

namespace Collectives

namespace Bytes

/-- As many bytes with the same word are the same bytes. -/
theorem toWord_inj {bytes bytes' : Bytes} (hlength : bytes.length = bytes'.length) (h : bytes.toWord = bytes'.toWord) :
    bytes = bytes' := by
  induction bytes generalizing bytes' with
  | nil => exact (List.eq_nil_of_length_eq_zero hlength.symm).symm
  | cons b bytes ih =>
    cases bytes' with
    | nil => simp at hlength
    | cons b' bytes' =>
      have hb : b.toNat < 256 := b.toNat_lt
      have hb' : b'.toNat < 256 := b'.toNat_lt
      simp only [toWord] at h
      have hfirst : b = b' := UInt8.toNat_inj.mp (by omega)
      have hrest : bytes = bytes' := ih (by simpa using hlength) (by omega)
      rw [hfirst, hrest]

end Bytes

namespace Heap

variable {h : Heap} {block block' source target width i j pos : Nat} {data : Bytes} {indices words : List Nat}
  {moves : List (Nat × Nat)}

/-- A byte of an element tells which one it belongs to. -/
theorem div_eq_of_covers (hc : Address.Covers { block := some block', pos := i * width } width block pos) :
    block' = block ∧ pos / width = i := by
  obtain ⟨hblock, hlo, hhi⟩ := hc
  refine ⟨Option.some.inj hblock, ?_⟩
  apply Nat.div_eq_of_lt_le hlo
  rwa [Nat.succ_mul]

/-- An element that was written reads as what was written. -/
theorem word_write (hlength : data.length = width) (hin : (i + 1) * width ≤ h.blockSize block) :
    (h.write { block := some block, pos := i * width } data).word block width i = data.toWord := by
  subst hlength
  rw [Nat.succ_mul] at hin
  rw [word, read_write rfl hin]

/-- Writing an element leaves the others alone. -/
theorem word_write_of_ne (hlength : data.length ≤ width) (hne : block' = block → j ≠ i) :
    (h.write { block := some block, pos := i * width } data).word block' width j = h.word block' width j := by
  apply congrArg Bytes.toWord
  apply read_congr
  intro b pos hread
  apply byte?_write_of_not_covers
  intro hwritten
  obtain ⟨hb, hi⟩ := div_eq_of_covers (hwritten.mono hlength)
  obtain ⟨hb', hj⟩ := div_eq_of_covers hread
  exact hne (hb'.trans hb.symm) (hj.symm.trans hi)

/-! ## Words written to several elements -/

/-- Elements that no word is written to stay as they were. -/
theorem word_setWords_of_not_mem (hout : block' = block → j ∉ indices) :
    (h.setWords block width indices words).word block' width j = h.word block' width j := by
  induction indices generalizing h words with
  | nil => rfl
  | cons i indices ih =>
    cases words with
    | nil => rfl
    | cons word words =>
      have hne : block' = block → j ≠ i := fun hb => List.ne_of_not_mem_cons (hout hb)
      have hrest : block' = block → j ∉ indices := fun hb => List.not_mem_of_not_mem_cons (hout hb)
      rw [setWords, ih hrest]
      exact word_write_of_ne (Bytes.length_ofWord width word).le hne

/-- Words that are written to different elements are read back, as far as the elements can hold them. -/
theorem words_setWords (hdistinct : indices.Nodup) (hlength : words.length = indices.length)
    (hin : ∀ i ∈ indices, (i + 1) * width ≤ h.blockSize block) :
    (h.setWords block width indices words).words block width indices = words.map (· % 256 ^ width) := by
  induction indices generalizing h words with
  | nil =>
    rw [List.eq_nil_of_length_eq_zero hlength]
    rfl
  | cons i indices ih =>
    cases words with
    | nil => simp at hlength
    | cons word words =>
      obtain ⟨hnew, hdistinct⟩ := List.nodup_cons.mp hdistinct
      obtain ⟨hfirst, hrest⟩ := List.forall_mem_cons.mp hin
      have hword : ((h.setWord block width i word).setWords block width indices words).word block width i =
          word % 256 ^ width := by
        rw [word_setWords_of_not_mem fun _ => hnew, setWord, word_write (Bytes.length_ofWord width word) hfirst,
          Bytes.toWord_ofWord]
      have hwords : ((h.setWord block width i word).setWords block width indices words).words block width indices =
          words.map (· % 256 ^ width) := by
        apply ih hdistinct (by simpa using hlength)
        intro j hj
        rw [setWord, blockSize_write]
        exact hrest j hj
      rw [List.map_cons, ← hword, ← hwords]
      rfl

/-! ## Elements moved one after the other -/

/-- Elements that none is moved to stay as they were. -/
theorem word_moveElements_of_not_mem (hout : block' = target → j ∉ moves.map Prod.snd) :
    (h.moveElements source target width moves).word block' width j = h.word block' width j := by
  induction moves generalizing h with
  | nil => rfl
  | cons m moves ih =>
    have hne : block' = target → j ≠ m.2 := fun hb => List.ne_of_not_mem_cons (hout hb)
    have hrest : block' = target → j ∉ moves.map Prod.snd := fun hb => List.not_mem_of_not_mem_cons (hout hb)
    rw [moveElements, ih hrest]
    exact word_write_of_ne (length_read_le ..) hne

/-- Elements that are moved arrive, if none is taken from where another one is put. -/
theorem words_moveElements (hdistinct : (moves.map Prod.snd).Nodup)
    (hsource : ∀ m ∈ moves, (m.1 + 1) * width ≤ h.blockSize source)
    (htarget : ∀ m ∈ moves, (m.2 + 1) * width ≤ h.blockSize target)
    (hapart : source = target → ∀ m ∈ moves, m.1 ∉ moves.map Prod.snd) :
    (h.moveElements source target width moves).words target width (moves.map Prod.snd) =
      h.words source width (moves.map Prod.fst) := by
  induction moves generalizing h with
  | nil => rfl
  | cons m moves ih =>
    obtain ⟨hnew, hdistinct⟩ := List.nodup_cons.mp hdistinct
    obtain ⟨hread, hsource⟩ := List.forall_mem_cons.mp hsource
    obtain ⟨hwrite, htarget⟩ := List.forall_mem_cons.mp htarget
    rw [Nat.succ_mul] at hread
    have hlength := length_read (a := { block := some source, pos := m.1 * width }) rfl hread
    -- The first move takes its element as it is, and leaves those that are still to be taken alone.
    have hfirst : (h.moveElements source target width (m :: moves)).word target width m.2 =
        h.word source width m.1 := by
      rw [moveElements, word_moveElements_of_not_mem fun _ => hnew, word_write hlength hwrite]
      rfl
    have hkept : (h.write { block := some target, pos := m.2 * width }
        (h.read { block := some source, pos := m.1 * width } width)).words source width (moves.map Prod.fst) =
          h.words source width (moves.map Prod.fst) := by
      apply List.map_congr_left
      intro i hi
      obtain ⟨m', hm', rfl⟩ := List.mem_map.mp hi
      apply word_write_of_ne hlength.le
      intro hb
      exact List.ne_of_not_mem_cons (hapart hb m' (List.mem_cons_of_mem m hm'))
    have hrest : (h.moveElements source target width (m :: moves)).words target width (moves.map Prod.snd) =
        h.words source width (moves.map Prod.fst) := by
      rw [moveElements, ← hkept]
      apply ih hdistinct
      · intro m' hm'
        rw [blockSize_write]
        exact hsource m' hm'
      · intro m' hm'
        rw [blockSize_write]
        exact htarget m' hm'
      · intro hb m' hm'
        exact List.not_mem_of_not_mem_cons (hapart hb m' (List.mem_cons_of_mem m hm'))
    rw [words, words, List.map_cons, List.map_cons, List.map_cons, List.map_cons, hfirst]
    exact congrArg _ hrest

end Heap

end Collectives
