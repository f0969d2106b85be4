import Collectives.Proofs.RoundReduction

/-!
# What a reader finds after a reduction of integers

A round of reductions of signed integers leaves with every rank that gets the result, element by element, the sum or the
product of what the ranks held, in two's complement, or the smallest or the largest. The order of the ranks does not
matter, what the other ranks hold stays as it was, and so does every byte that no result goes to.
-/

namespace Collectives

/-! ## Reading integers -/

theorem getD_map_range {α : Type} (f : Nat → α) (d : α) {count k : Nat} (hk : k < count) :
    ((List.range count).map f).getD k d = f k := by
  rw [List.getD_eq_getElem?_getD, List.getElem?_map, List.getElem?_range hk, Option.map_some, Option.getD_some]

/-- The integer that a reader sees. -/
def Reading.integer? : Reading → Option Int
  | .integer value => some value
  | .bits _ | .notANumber => none

/-- A signed type that is moved, and combined in its own width. -/
def ElementType.IsSigned (t : ElementType) : Prop := t = .i8 ∨ t = .i32 ∨ t = .i64

theorem ElementType.IsSigned.isInteger {t : ElementType} (h : t.IsSigned) : t.IsInteger := .inr h

theorem ElementType.IsInteger.exists_tag {t : ElementType} (h : t.IsInteger) : ∃ tag, t.tag? = some tag := by
  rcases h with rfl | rfl | rfl | rfl
  · exact ⟨_, rfl⟩
  · exact ⟨_, rfl⟩
  · exact ⟨_, rfl⟩
  · exact ⟨_, rfl⟩

namespace Buffer

variable {h h' : Heap} {b : Buffer} {n k : Nat}

/-- The integers that a reader finds in a buffer. -/
def integers (h : Heap) (b : Buffer) : Except Failure (List Int) := do
  let words ← b.toWords h b.dtype
  return words.filterMap fun word => (b.dtype.reading? word).bind Reading.integer?

/-- Where every word is read as an integer, one is found for every element. -/
theorem integers_eq_ok (hr : b.shape.length = b.strides.length) (hn : b.numel = .ok n) {value : Nat → Int}
    (hvalue : ∀ word, (b.dtype.reading? word).bind Reading.integer? = some (value word)) :
    b.integers h = .ok ((List.range n).map fun k => value ((b.words h).getD k 0)) := by
  have hfound : (b.words h).filterMap (fun word => (b.dtype.reading? word).bind Reading.integer?) =
      (b.words h).map value := by
    simp only [hvalue]
    exact congrFun List.filterMap_eq_map' _
  have hlength := length_words (h := h) hr hn
  rw [integers, toWords_eq_ok hn]
  refine congrArg Except.ok (hfound.trans ?_)
  refine List.ext_getElem ?_ fun k hk hk' => ?_
  · rw [List.length_map, List.length_map, List.length_range, hlength]
  · rw [List.length_map] at hk
    rw [List.getElem_map, List.getElem_map, List.getElem_range, List.getD_eq_getElem _ _ hk]

/-- Signed elements are read in two's complement. -/
theorem integers_of_isSigned (hr : b.shape.length = b.strides.length) (hn : b.numel = .ok n) (ht : b.dtype.IsSigned) :
    b.integers h = .ok ((List.range n).map (b.signed h)) := by
  refine integers_eq_ok hr hn fun word => ?_
  rcases ht with ht | ht | ht
  · rw [ht]
    rfl
  · rw [ht]
    rfl
  · rw [ht]
    rfl

/-- What is read in a buffer stays the same as long as its bytes do. -/
theorem integers_congr (hsame : ∀ block pos, b.Holds block pos → h'.byte? block pos = h.byte? block pos) :
    b.integers h' = b.integers h := by
  rw [integers, integers, toWords_congr b.dtype hsame]

theorem word_lt (b : Buffer) (h : Heap) (k : Nat) : (b.words h).getD k 0 < 256 ^ b.dtype.width := by
  rw [List.getD_eq_getElem?_getD]
  cases hk : (b.words h)[k]? with
  | none => exact Nat.pow_pos (by decide)
  | some word =>
    obtain ⟨i, -, rfl⟩ := List.mem_map.mp (List.mem_of_getElem? hk)
    exact Heap.word_lt ..

theorem inRange_signed (b : Buffer) (h : Heap) (k : Nat) : InRange b.dtype.width (b.signed h k) :=
  inRange_signedValue (b.word_lt h k)

end Buffer

/-! ## Rounds -/

/-- What a reduction of integers makes of memory, where each rank reads the given values before. -/
structure IntegersReduced (n count : Nat) (buffer : Nat → Buffer) (total : List Int → Int) (root : Option Nat)
    (values : Nat → List Int) (h h' : Heap) : Prop where
  before : ∀ q < n, (buffer q).integers h = .ok (values q) ∧ (values q).length = count
  /-- The ranks' elements are combined in whatever order the ranks are taken. -/
  combined : ∀ order : List Nat, order.Perm (List.range n) → ∀ q < n, GetsResult root q → (buffer q).integers h' =
    .ok ((List.range count).map fun k => total (order.map fun p => (values p).getD k 0))
  kept : ∀ q < n, ¬GetsResult root q → (buffer q).integers h' = .ok (values q)
  elsewhere : ∀ block pos, (∀ q < n, GetsResult root q → ¬(buffer q).Holds block pos) →
    h'.byte? block pos = h.byte? block pos

/-- Of two ranks with one element each, those that get the result find what the two elements make together. -/
theorem IntegersReduced.pair {buffer : Nat → Buffer} {total : List Int → Int} {root : Option Nat}
    {values : Nat → List Int} {h h' : Heap} {x y : Int}
    (hreduced : IntegersReduced 2 1 buffer total root values h h') (hx : (buffer 0).integers h = .ok [x])
    (hy : (buffer 1).integers h = .ok [y]) {q : Nat} (hq : q < 2) (hgets : GetsResult root q) :
    (buffer q).integers h' = .ok [total [x, y]] := by
  have hx' : values 0 = [x] := Except.ok.inj ((hreduced.before 0 (by decide)).1.symm.trans hx)
  have hy' : values 1 = [y] := Except.ok.inj ((hreduced.before 1 (by decide)).1.symm.trans hy)
  rw [hreduced.combined [0, 1] (.refl _) q hq hgets]
  simp [hx', hy']

namespace Round

variable {n comm number count r : Nat} {group : Nat → Group} {buffer : Nat → Buffer} {t : ElementType}
  {how : Reduction} {total : List Int → Int} {root : Option Nat} {arrived : List Nat} {e : Engine Fabric}

/-- In a round of reductions of signed integers, a rank that comes and passes the checks is answered. Until the last
rank has come memory stays as it is; then the elements are added, multiplied or compared as integers, in any order of
the ranks, for all ranks or for the root, and nothing else changes. -/
theorem integers_reduced (h : Round n comm number group (fun q => .reduction (buffer q) how root) arrived e.machine)
    (hr : r < n) (hnext : e.machine.net.upcoming r comm = (comm, number)) (hown : OwnBuffers n buffer t count)
    (ht : t.IsSigned) (htotal : how.ofIntegers? t.width = some total) :
    ((group r).Ready (buffer r) root n comm r e → (group r).Answers (buffer r) how root comm r e) ∧
      ∀ e', (group r).Arrives (.reduction (buffer r) how root) comm r e e' →
        ((∃ q < n, q ≠ r ∧ q ∉ arrived) → e'.machine.store.heap = e.machine.store.heap) ∧
          ((∀ q < n, q ≠ r → q ∈ arrived) → ∃ values,
            IntegersReduced n count buffer total root values e.machine.store.heap e'.machine.store.heap) := by
  obtain ⟨tag, htag⟩ := ht.isInteger.exists_tag
  obtain ⟨op, hop, hfold⟩ := how.exists_operator htotal
  refine ⟨fun hready => ?_, fun e' ha => ⟨?_, fun hlast => ?_⟩⟩
  · exact h.answers_reduction hr hready ((hown.typed r hr).symm ▸ htag) hop (hown.counted r hr)
  · rintro ⟨q, hq, hne, hwaits⟩
    exact h.heap_of_waiting_reduction hr hnext ha hq hne hwaits
  · obtain ⟨a, first, rest, hreducing, hcs, hg, hheap⟩ := h.reducing_of_last hr hnext ha hlast hown htag hop
    have hread {q : Nat} (hq : q < n) (heap : Heap) :
        (buffer q).integers heap = .ok ((List.range count).map ((buffer q).signed heap)) :=
      Buffer.integers_of_isSigned (hreducing.sound q hq).ranked (hown.counted q hq) ((hown.typed q hq).symm ▸ ht)
    have helsewhere : ∀ block pos, (∀ q < n, GetsResult root q → ¬(buffer q).Holds block pos) →
        e'.machine.store.heap.byte? block pos = e.machine.store.heap.byte? block pos := by
      intro block pos hout
      rw [hheap]
      exact hreducing.byte?_after hcs hg hout
    refine ⟨fun q => (List.range count).map ((buffer q).signed e.machine.store.heap), ?_, ?_, ?_, helsewhere⟩
    · intro q hq
      exact ⟨hread hq _, by rw [List.length_map, List.length_range]⟩
    · intro order horder q hq hgets
      rw [hread hq, hheap]
      refine congrArg Except.ok (List.map_congr_left fun k hk => ?_)
      have hk := List.mem_range.mp hk
      have hcolumn : (order.map fun p => ((List.range count).map ((buffer p).signed e.machine.store.heap)).getD k 0) =
          order.map fun p => (buffer p).signed e.machine.store.heap k := by
        exact List.map_congr_left fun p _ => getD_map_range _ 0 hk
      -- What the ranks hold is in range, so it may be taken in any order.
      have hrange : ∀ x ∈ order.map fun p => (buffer p).signed e.machine.store.heap k, InRange t.width x := by
        intro x hx
        obtain ⟨p, hp, rfl⟩ := List.mem_map.mp hx
        rw [← hown.typed p (List.mem_range.mp (horder.mem_iff.mp hp))]
        exact Buffer.inRange_signed ..
      rw [hreducing.signed_after ht.isInteger hcs hg hq hgets hk, hcolumn,
        ← Operator.fold_perm hrange (horder.map _)]
      cases order with
      | nil => exact absurd (horder.mem_iff.mpr (List.mem_range.mpr hr)) List.not_mem_nil
      | cons p order => exact hfold _ _ hrange
    · intro q hq hother
      rw [← hread hq e.machine.store.heap]
      refine Buffer.integers_congr fun block pos hholds => helsewhere block pos fun p hp hgets => ?_
      have hne : q ≠ p := by
        rintro rfl
        exact hother hgets
      exact hown.apart q hq p hp hne block pos hholds

/-- The signed byte of a rank that has one. -/
theorem integers_ofRank {q word : Nat} {h : Heap} (hq : (ofRank .i8 q).words h = [word]) :
    (ofRank .i8 q).integers h = .ok [signedValue 1 word] := by
  rw [Buffer.integers_of_isSigned (n := 1) rfl rfl (.inl rfl)]
  change Except.ok [(ofRank .i8 q).signed _ 0] = _
  rw [Buffer.signed, hq]
  rfl

/-- Two ranks have 100 and 90 in a signed byte each. The first one is two calls ahead when the second one comes: it has
asked for the sum, for itself alone, and then for the largest, for both. With the second rank's first call it gets the
sum, which a signed byte does not hold, 66 below zero; with the second call both get 90. -/
theorem integers_reduced_ahead :
    ∃ e e' f f' : Engine Fabric,
      e.machine.net.upcoming 0 0 = (0, 2) ∧ e.machine.net.upcoming 1 0 = (0, 0) ∧
      Round 2 0 0 pairGroup (fun q => .reduction (ofRank .i8 q) .sum (some 0)) [0] e.machine ∧
      (pairGroup 1).Arrives (.reduction (ofRank .i8 1) .sum (some 0)) 0 1 e e' ∧ f.machine = e'.machine ∧
      Round 2 0 1 pairGroup (fun q => .reduction (ofRank .i8 q) .max none) [0] f.machine ∧
      (pairGroup 1).Arrives (.reduction (ofRank .i8 1) .max none) 0 1 f f' ∧
      (ofRank .i8 0).integers e.machine.store.heap = .ok [100] ∧
      (ofRank .i8 1).integers e.machine.store.heap = .ok [90] ∧
      (ofRank .i8 0).integers f.machine.store.heap = .ok [-66] ∧
      (ofRank .i8 1).integers f.machine.store.heap = .ok [90] ∧
      ∀ q < 2, (ofRank .i8 q).integers f'.machine.store.heap = .ok [90] := by
  have hown := ownBuffers_ofRank 2 .i8
  have hsum : ∀ q, (pairGroup q).Reduces (ofRank .i8 q) .sum (some 0) 1 .char .sum :=
    reduces_ofRank (.inr rfl) rfl fun r hr => Option.some.inj hr ▸ Nat.two_pos
  have hmax : ∀ q, (pairGroup q).Reduces (ofRank .i8 q) .max none 1 .char .max :=
    reduces_ofRank (.inr rfl) rfl fun r hr => by cases hr
  obtain ⟨s, hbounded, hb, hx, hy⟩ := exists_pair_store (t := .i8) (.inr rfl) 100 90
  obtain ⟨m, rfl, hready⟩ := exists_ready 2 hbounded
  -- The first rank makes both calls, and memory stays as it is.
  have hwaits : ∃ q < 2, q ≠ 0 ∧ q ∉ ([] : List Nat) := ⟨1, by decide, by decide, List.not_mem_nil⟩
  have hnext₀ := (hready 0 pairGroup fun q => .reduction (ofRank .i8 q) .sum (some 0)).upcoming_first
    (by decide) (List.not_mem_nil (a := 0))
  obtain ⟨e₀, e₀', f₀, f₀', rfl, ha₀, hf₀, hnext₀', hopen₀, hc₀, hround⟩ :=
    (hready 0 pairGroup _).exists_arrives_twice (hready 1 pairGroup _) (by decide) hnext₀ (hb 0 (by decide)) rfl
      (hsum 0) (hmax 0) (by decide)
  have hahead := hopen₀.upcoming_of_arrives (by decide) hnext₀' hc₀
  have hround' := hopen₀.call (by decide) hnext₀' hc₀
  have hkept₀ := (((hready 0 pairGroup _).integers_reduced (by decide) hnext₀ hown (.inl rfl) rfl).2 e₀' ha₀).1 hwaits
  have hkept := ((hopen₀.integers_reduced (by decide) hnext₀' hown (.inl rfl) rfl).2 f₀' hc₀).1 hwaits
  rw [hf₀, hkept₀] at hkept
  -- The second rank makes both calls, and is the last one each time.
  have hlast : ∀ q < 2, q ≠ 1 → q ∈ [0] := by decide
  have hnext := hround.upcoming_first (r := 1) (by decide) (by decide)
  have hhere : Obtained f₀'.machine.store (ofRank .i8 1) := (hb 1 (by decide)).later (hkept ▸ .refl _)
  obtain ⟨e, e', f, f', he, ha, hf, hnext', hopen, hc, -⟩ :=
    hround.exists_arrives_twice hround' (by decide) hnext hhere rfl (hsum 1) (hmax 1) (by decide)
  rw [← he] at hround hahead hnext hkept
  rw [← hkept] at hx hy
  have hx := integers_ofRank hx
  have hy := integers_ofRank hy
  obtain ⟨values, hreduced⟩ := ((hround.integers_reduced (by decide) hnext hown (.inl rfl) rfl).2 e' ha).2 hlast
  have hown₁ : (ofRank .i8 1).integers e'.machine.store.heap = .ok [90] := by
    have hother : ¬GetsResult (some 0) 1 := by rintro (h | h) <;> cases h
    rw [hreduced.kept 1 (by decide) hother, ← (hreduced.before 1 (by decide)).1, hy]
    rfl
  have hroot := hreduced.pair hx hy (q := 0) (by decide) (.inr rfl)
  rw [← hf] at hroot hown₁
  obtain ⟨values', hreduced'⟩ := ((hopen.integers_reduced (by decide) hnext' hown (.inl rfl) rfl).2 f' hc).2 hlast
  exact ⟨e, e', f, f', hahead, hnext, hround, ha, hf, hopen, hc, hx, hy, hroot, hown₁,
    fun q hq => hreduced'.pair hroot hown₁ hq (.inl rfl)⟩

end Round

end Collectives
