import Collectives.Proofs.IntegerReduction

/-!
# What a reduction makes of unsigned bytes

Unsigned bytes are moved under the tag of signed ones, and it is as signed ones that they are combined. Sums and
products come out the same modulo 256. The smallest and the largest byte do not: the answer is the smallest or largest
of the bytes taken as signed, and this is what it should be only if no byte reaches 128 or all do.
-/

namespace Collectives

/-- The integer that a byte is taken for when it is combined. -/
def signedByte (v : Int) : Int := Int.bmod v 256

/-- An unsigned byte. -/
def IsByte (v : Int) : Prop := 0 ≤ v ∧ v < 256

theorem signedByte_eq (v : Int) : signedByte v = if v % 256 < 128 then v % 256 else v % 256 - 256 := Int.bmod_def v 256

/-- Below 128 a byte is taken for itself. -/
theorem signedByte_of_lt {v : Int} (hv : IsByte v) (h : v < 128) : signedByte v = v := by
  obtain ⟨hlo, -⟩ := hv
  rw [signedByte_eq]
  omega

/-- From 128 on a byte is taken for 256 less. -/
theorem signedByte_of_le {v : Int} (hv : IsByte v) (h : 128 ≤ v) : signedByte v = v + -256 := by
  obtain ⟨-, hhi⟩ := hv
  rw [signedByte_eq]
  omega

theorem signedByte_emod (v : Int) : signedByte v % 256 = v % 256 := by
  rw [signedByte_eq]
  omega

theorem inRange_signedByte (v : Int) : InRange 1 (signedByte v) := Int.bmod_bmod

theorem signedByte_inj {v w : Int} (hv : IsByte v) (hw : IsByte w) (h : signedByte v = signedByte w) : v = w := by
  have hmod := congrArg (· % 256) h
  simp only [signedByte_emod] at hmod
  obtain ⟨hv, hv'⟩ := hv
  obtain ⟨hw, hw'⟩ := hw
  omega

/-- What comes of combining bytes. -/
structure Operator.CombinesBytes (op : Operator) (column : List Int) (result : Int) : Prop where
  /-- Sums and products are those of the bytes, modulo 256. -/
  wraps : ¬op.Chooses → result = op.exact column % 256
  /-- The smallest or the largest byte is that of the bytes taken as signed. -/
  chooses : op.Chooses → result ∈ column ∧ signedByte result = op.exact (column.map signedByte)
  /-- It is that of the bytes themselves only if they are all on one side of 128. -/
  unsigned_iff : op.Chooses → (result = op.exact column ↔ (∀ v ∈ column, v < 128) ∨ ∀ v ∈ column, 128 ≤ v)

namespace Operator

variable {op : Operator} {x r : Int} {xs : List Int}

/-- Bytes that are all on one side of 128 are ordered as they are when they are taken as signed. -/
theorem exact_signedByte (h : op.Chooses) (hbytes : ∀ v ∈ x :: xs, IsByte v) (hr : r ∈ x :: xs)
    (hsigned : signedByte r = op.exact ((x :: xs).map signedByte))
    (hside : (∀ v ∈ x :: xs, v < 128) ∨ ∀ v ∈ x :: xs, 128 ≤ v) : r = op.exact (x :: xs) := by
  rcases hside with hlow | hhigh
  · have hsame : (x :: xs).map signedByte = x :: xs := by
      refine (List.map_congr_left fun v hv => signedByte_of_lt (hbytes v hv) (hlow v hv)).trans ?_
      exact List.map_id' _
    rwa [hsame, signedByte_of_lt (hbytes r hr) (hlow r hr)] at hsigned
  · have hmoved : (x :: xs).map signedByte = (x :: xs).map (· + -256) :=
      List.map_congr_left fun v hv => signedByte_of_le (hbytes v hv) (hhigh v hv)
    rw [hmoved, exact_map_add h, signedByte_of_le (hbytes r hr) (hhigh r hr)] at hsigned
    exact add_right_cancel hsigned

/-- A byte on each side of 128 is enough to change the order. -/
theorem exact_ne_of_sides (h : op.Chooses) (hbytes : ∀ v ∈ x :: xs, IsByte v) {low high : Int} (hlow : low ∈ x :: xs)
    (hhigh : high ∈ x :: xs) (hlt : low < 128) (hle : 128 ≤ high)
    (hsigned : signedByte r = op.exact ((x :: xs).map signedByte)) : r ≠ op.exact (x :: xs) := by
  intro hr
  have hbyte : IsByte r := hr ▸ hbytes _ (exact_mem h x xs)
  -- The answer is chosen before both bytes, as they are and taken as signed.
  have hlow₁ := onInt_exact h hlow
  have hhigh₁ := onInt_exact h hhigh
  rw [← hr] at hlow₁ hhigh₁
  have hchosen (v : Int) (hv : v ∈ x :: xs) : op.onInt (signedByte r) (signedByte v) = signedByte r := by
    rw [hsigned, List.map_cons]
    exact onInt_exact h (List.mem_map_of_mem hv)
  have hlow₂ := hchosen low hlow
  have hhigh₂ := hchosen high hhigh
  rw [signedByte_of_lt (hbytes low hlow) hlt] at hlow₂
  rw [signedByte_of_le (hbytes high hhigh) hle] at hhigh₂
  obtain ⟨hlow₀, -⟩ := hbytes low hlow
  obtain ⟨-, hhigh₀⟩ := hbytes high hhigh
  rcases lt_or_ge r 128 with hside | hside
  · rw [signedByte_of_lt hbyte hside] at hlow₂ hhigh₂
    cases op with
    | sum => exact h
    | prod => exact h
    | min =>
      simp only [onInt] at hhigh₂
      obtain ⟨hr₀, -⟩ := hbyte
      omega
    | max =>
      simp only [onInt] at hhigh₁
      omega
  · rw [signedByte_of_le hbyte hside] at hlow₂ hhigh₂
    cases op with
    | sum => exact h
    | prod => exact h
    | min =>
      simp only [onInt] at hlow₁
      omega
    | max =>
      simp only [onInt] at hlow₂
      obtain ⟨-, hr₀⟩ := hbyte
      omega

/-- Bytes that are folded as signed ones come out as described. -/
theorem combinesBytes (hbytes : ∀ v ∈ x :: xs, IsByte v) (hr : IsByte r)
    (hfold : signedByte r = op.fold 1 ((x :: xs).map signedByte)) : op.CombinesBytes (x :: xs) r := by
  have hrange : ∀ v ∈ (x :: xs).map signedByte, InRange 1 v := by
    intro v hv
    obtain ⟨w, -, rfl⟩ := List.mem_map.mp hv
    exact inRange_signedByte w
  have hexact : signedByte r = signedByte (op.exact ((x :: xs).map signedByte)) := hfold.trans (fold_eq hrange)
  have hchosen (h : op.Chooses) : signedByte r = op.exact ((x :: xs).map signedByte) :=
    hexact.trans (hrange _ (exact_mem h ..))
  have hmem (h : op.Chooses) : r ∈ x :: xs := by
    have hchoice : op.exact ((x :: xs).map signedByte) ∈ (x :: xs).map signedByte := exact_mem h ..
    obtain ⟨v, hv, he⟩ := List.mem_map.mp hchoice
    rwa [signedByte_inj hr (hbytes v hv) ((hchosen h).trans he.symm)]
  refine ⟨fun h => ?_, fun h => ⟨hmem h, hchosen h⟩, fun h => ⟨fun hunsigned => ?_, fun hside => ?_⟩⟩
  · have hmod := congrArg (· % 256) hexact
    simp only [signedByte_emod] at hmod
    rw [exact_map_emod h signedByte_emod] at hmod
    obtain ⟨hlo, hhi⟩ := hr
    omega
  · by_contra hsides
    push Not at hsides
    obtain ⟨⟨high, hhigh, hle⟩, low, hlow, hlt⟩ := hsides
    exact exact_ne_of_sides h hbytes hlow hhigh hlt hle (hchosen h) hunsigned
  · exact exact_signedByte h hbytes (hmem h) (hchosen h) hside

end Operator

/-! ## Bytes in buffers -/

/-- The unsigned integer of an element. -/
def Buffer.unsigned (b : Buffer) (h : Heap) (k : Nat) : Int := ((b.words h).getD k 0 : Nat)

namespace Buffer

variable {b : Buffer} {n : Nat}

/-- Unsigned bytes are read as they are. -/
theorem integers_of_bytes (ht : b.dtype = .u8) (hr : b.shape.length = b.strides.length) (hn : b.numel = .ok n)
    (h : Heap) : b.integers h = .ok ((List.range n).map (b.unsigned h)) := by
  refine integers_eq_ok hr hn fun word => ?_
  rw [ht]
  rfl

theorem isByte_unsigned (ht : b.dtype = .u8) (h : Heap) (k : Nat) : IsByte (b.unsigned h k) := by
  have hlt := b.word_lt h k
  rw [ht] at hlt
  exact ⟨Int.natCast_nonneg _, Int.ofNat_lt.mpr hlt⟩

/-- When it is combined, a byte counts as the integer that it is taken for. -/
theorem signed_eq_signedByte (ht : b.dtype = .u8) (h : Heap) (k : Nat) :
    b.signed h k = signedByte (b.unsigned h k) := by
  rw [signed, signedValue_eq (b.word_lt h k), ht]
  rfl

end Buffer

/-- A rank that gets the result of a reduction of bytes finds them combined in each of its elements. -/
theorem Reducing.combinesBytes {n count q k : Nat} {buffer : Nat → Buffer} {tag : Tag} {op : Operator}
    {root : Option Nat} {a : Nat → Address} {h : Heap} {first : Contribution} {rest : List Contribution}
    (hr : Reducing n buffer .u8 count tag root a h)
    (hcs : ((List.range n).map fun q => Contribution.reduction (a q) count tag op root) = first :: rest)
    (hg : Gathered n (first :: rest)) (hq : q < n) (hgets : GetsResult root q) (hk : k < count) :
    op.CombinesBytes ((List.range n).map fun p => (buffer p).unsigned h k)
      ((buffer q).unsigned (h.after (first :: rest)) k) := by
  have hfold := hr.signed_after (.inl rfl) hcs hg hq hgets hk
  rw [Buffer.signed_eq_signedByte (hr.own.typed q hq)] at hfold
  have hcolumn : (List.range n).map (fun p => (buffer p).signed h k) =
      ((List.range n).map fun p => (buffer p).unsigned h k).map signedByte := by
    rw [List.map_map]
    refine List.map_congr_left fun p hp => ?_
    rw [Function.comp_apply, Buffer.signed_eq_signedByte (hr.own.typed p (List.mem_range.mp hp))]
  have hbytes : ∀ v ∈ (List.range n).map (fun p => (buffer p).unsigned h k), IsByte v := by
    intro v hv
    obtain ⟨p, hp, rfl⟩ := List.mem_map.mp hv
    exact Buffer.isByte_unsigned (hr.own.typed p (List.mem_range.mp hp)) h k
  obtain ⟨x, xs, hne⟩ : ∃ x xs, (List.range n).map (fun p => (buffer p).unsigned h k) = x :: xs := by
    refine List.exists_cons_of_ne_nil fun hnil => ?_
    rw [List.map_eq_nil_iff, List.range_eq_nil] at hnil
    omega
  rw [hcolumn] at hfold
  rw [hne] at hfold hbytes ⊢
  exact Operator.combinesBytes hbytes (Buffer.isByte_unsigned (hr.own.typed q hq) _ k) hfold

/-! ## Rounds -/

/-- What a reduction of bytes makes of memory, where each rank reads the given values before. -/
structure BytesReduced (n count : Nat) (buffer : Nat → Buffer) (op : Operator) (root : Option Nat)
    (values : Nat → List Int) (h h' : Heap) : Prop where
  before : ∀ q < n, (buffer q).integers h = .ok (values q) ∧ (values q).length = count ∧ ∀ v ∈ values q, IsByte v
  combined : ∀ q < n, GetsResult root q → ∃ results, (buffer q).integers h' = .ok results ∧ results.length = count ∧
    ∀ k < count, op.CombinesBytes ((List.range n).map fun p => (values p).getD k 0) (results.getD k 0)

namespace Round

variable {n comm number count r : Nat} {group : Nat → Group} {buffer : Nat → Buffer} {how : Reduction} {op : Operator}
  {root : Option Nat} {arrived : List Nat} {e : Engine Fabric}

/-- In a round of reductions of unsigned bytes, a rank that comes and passes the checks is answered; with the last one
the ranks that get the result find the bytes combined as signed ones. -/
theorem bytes_reduced (h : Round n comm number group (fun q => .reduction (buffer q) how root) arrived e.machine)
    (hr : r < n) (hnext : e.machine.net.upcoming r comm = (comm, number)) (hown : OwnBuffers n buffer .u8 count)
    (hop : how.operator? = some op) :
    ((group r).Ready (buffer r) root n comm r e → (group r).Answers (buffer r) how root comm r e) ∧
      ∀ e', (group r).Arrives (.reduction (buffer r) how root) comm r e e' → (∀ q < n, q ≠ r → q ∈ arrived) →
        ∃ values, BytesReduced n count buffer op root values e.machine.store.heap e'.machine.store.heap := by
  refine ⟨fun hready => ?_, fun e' ha hlast => ?_⟩
  · have htag : (buffer r).dtype.tag? = some .char := by rw [hown.typed r hr]; rfl
    exact h.answers_reduction hr hready htag hop (hown.counted r hr)
  · obtain ⟨a, first, rest, hreducing, hcs, hg, hheap⟩ := h.reducing_of_last hr hnext ha hlast hown rfl hop
    have hread {q : Nat} (hq : q < n) := Buffer.integers_of_bytes (hown.typed q hq) (hreducing.sound q hq).ranked
      (hown.counted q hq)
    refine ⟨fun q => (List.range count).map ((buffer q).unsigned e.machine.store.heap), fun q hq => ?_,
      fun q hq hgets => ?_⟩
    · refine ⟨hread hq _, by rw [List.length_map, List.length_range], fun v hv => ?_⟩
      obtain ⟨k, -, rfl⟩ := List.mem_map.mp hv
      exact Buffer.isByte_unsigned (hown.typed q hq) _ k
    · refine ⟨_, hread hq _, by rw [List.length_map, List.length_range], fun k hk => ?_⟩
      simp only [getD_map_range _ _ hk]
      rw [hheap]
      exact hreducing.combinesBytes hcs hg hq hgets hk

/-- Of the bytes 200 and 1 both ranks get 1 as the largest, since 200 is taken for 56 below zero. -/
theorem bytes_reduced_below_largest :
    ∃ arrived e e' r, Round 2 0 0 pairGroup (fun q => .reduction (ofRank .u8 q) .max none) arrived e.machine ∧
      (∀ q < 2, q ≠ r → q ∈ arrived) ∧ (pairGroup r).Arrives (.reduction (ofRank .u8 r) .max none) 0 r e e' ∧
      (ofRank .u8 0).integers e.machine.store.heap = .ok [200] ∧
      (ofRank .u8 1).integers e.machine.store.heap = .ok [1] ∧
      (∀ q < 2, (ofRank .u8 q).integers e'.machine.store.heap = .ok [1]) ∧ Operator.max.exact [200, 1] = 200 := by
  obtain ⟨arrived, e, e', r, round, hr, hnext, hlast, ha, hwords₀, hwords₁⟩ :=
    exists_last_pair .max none 200 1 (.inl rfl) rfl fun r hr => by cases hr
  have hread (q word : Nat) (hq : (ofRank .u8 q).words e.machine.store.heap = [word]) :
      (ofRank .u8 q).integers e.machine.store.heap = .ok [(word : Int)] := by
    rw [Buffer.integers_of_bytes (n := 1) rfl rfl rfl]
    change Except.ok [(ofRank .u8 q).unsigned _ 0] = _
    rw [Buffer.unsigned, hq]
    rfl
  have hread₀ := hread 0 200 hwords₀
  have hread₁ := hread 1 1 hwords₁
  obtain ⟨-, harrives⟩ := round.bytes_reduced hr hnext (ownBuffers_ofRank 2 .u8) rfl
  obtain ⟨values, hreduced⟩ := harrives e' ha hlast
  have hvalues₀ : values 0 = [200] := Except.ok.inj ((hreduced.before 0 (by decide)).1.symm.trans hread₀)
  have hvalues₁ : values 1 = [1] := Except.ok.inj ((hreduced.before 1 (by decide)).1.symm.trans hread₁)
  refine ⟨arrived, e, e', r, round, hlast, ha, hread₀, hread₁, fun q hq => ?_, by decide⟩
  obtain ⟨results, hresults, hlength, hcombined⟩ := hreduced.combined q hq (.inl rfl)
  obtain ⟨result, rfl⟩ := List.length_eq_one_iff.mp hlength
  have hcolumn : Operator.max.CombinesBytes [(values 0).getD 0 0, (values 1).getD 0 0] result :=
    hcombined 0 (by decide)
  rw [hvalues₀, hvalues₁] at hcolumn
  obtain ⟨hmem, hsigned⟩ := hcolumn.chooses trivial
  have hone : result = 1 := by
    rcases List.mem_cons.mp hmem with rfl | hmem
    · exact absurd hsigned (by decide)
    · exact List.mem_singleton.mp hmem
  rw [hresults, hone]

end Round

end Collectives
