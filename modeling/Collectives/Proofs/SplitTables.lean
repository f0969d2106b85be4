import Collectives.Proofs.Partition
import Collectives.Proofs.SplitExchange

/-!
# Counts of shares and the parts they count

A substrate is told how many elements each rank has a share of, and finds each share by adding up the counts before it.
Splitting the buffer by the same sizes makes a part for each rank out of its strides. Both are the same shares: the counts
are those of the parts, and the elements of each part are those that the counts point to.
-/

namespace Collectives

/-- The first few sizes of a product that passed every check multiply to a size. -/
theorem prod_take_lt_of_productSizes {xs : List Nat} {product : Nat} (h : productSizes xs = .ok product) (k : Nat) :
    (xs.take k).prod < sizeLimit := by
  unfold productSizes at h
  rw [← List.take_append_drop k xs, List.foldlM_append] at h
  obtain ⟨before, hbefore, -⟩ := exists_of_bind_eq_ok h
  rw [← eq_of_productSizes hbefore]
  exact lt_of_productSizes hbefore

/-- Lists that are laid end to end are found again by their lengths. -/
theorem take_drop_flatten {α : Type} {lists : List (List α)} {xs : List α} {i : Nat} (h : lists[i]? = some xs) :
    (lists.flatten.drop ((lists.map List.length).take i).sum).take xs.length = xs := by
  obtain ⟨hi, rfl⟩ := List.getElem?_eq_some_iff.mp h
  rw [List.drop_sum_flatten, List.drop_eq_getElem_cons hi, List.flatten_cons, List.take_left]

theorem take_drop_range' {start place count total : Nat} (hin : place + count ≤ total) :
    ((List.range' start total).drop place).take count = List.range' (start + place) count := by
  obtain ⟨rest, rfl⟩ := Nat.exists_eq_add_of_le hin
  rw [Nat.add_assoc, ← List.range'_append_1, ← List.range'_append_1, List.drop_left' List.length_range',
    List.take_left' List.length_range']

namespace Buffer

/-- What a table of counts says about the parts of a buffer: how many elements each has, and where they begin among those
of the buffer. -/
structure Counted (b : Buffer) (counts : List Nat) (parts : List Buffer) : Prop where
  numels : parts.mapM numel = .ok counts
  elements : ∀ (r place : Nat) (part : Buffer), parts[r]? = some part → (places counts)[r]? = some place →
    part.offsets = (b.offsets.drop place).take (counts.getD r 0)
  adjacent : b.isContiguous = .ok true → ∀ (r place : Nat) (part : Buffer), parts[r]? = some part →
    (places counts)[r]? = some place → part.offsets = List.range' (b.offset + place) (counts.getD r 0)

variable {b : Buffer} {rows start length : Nat} {dims sizes : List Nat}

theorem rows_lt_sizeLimit {n : Nat} (hn : b.numel = .ok n) : b.rows < sizeLimit := by
  have hfirst := prod_take_lt_of_productSizes hn 1
  rw [rows]
  cases hshape : b.shape with
  | nil => decide
  | cons dim dims =>
    rw [hshape, List.take_succ_cons, List.take_zero, List.prod_singleton] at hfirst
    exact hfirst

theorem Measured.rows_lt (hm : b.Measured) : b.rows < sizeLimit := by
  rw [rows]
  cases hshape : b.shape with
  | nil => decide
  | cons dim dims => exact hm.sized dim (hshape ▸ List.mem_cons_self)

/-- Fewer rows of a buffer that is counted are counted. -/
theorem numel_band (start : Nat) (hshape : b.shape = rows :: dims) (hcount : b.numel = .ok b.count)
    (hin : length ≤ rows) : (b.band start length).numel = .ok (length * b.rowLength) := by
  rw [numel, hshape] at hcount
  have hfits : ∀ k, ((length :: dims).take k).prod < sizeLimit := by
    intro k
    have hwhole := prod_take_lt_of_productSizes hcount k
    cases k with
    | zero => exact hwhole
    | succ k =>
      rw [List.take_succ_cons, List.prod_cons] at hwhole ⊢
      exact lt_of_le_of_lt (Nat.mul_le_mul_right _ hin) hwhole
  rw [numel, shape_band hshape, productSizes_eq_ok hfits, List.prod_cons, rowLength, hshape, List.tail_cons]

theorem numels_bands (hshape : b.shape = rows :: dims) (hcount : b.numel = .ok b.count)
    (hin : ∀ size ∈ sizes, size ≤ rows) :
    (b.bands start sizes).mapM numel = .ok (sizes.map (· * b.rowLength)) := by
  induction sizes generalizing start with
  | nil => rfl
  | cons size sizes ih =>
    obtain ⟨hsize, hsizes⟩ := List.forall_mem_cons.mp hin
    rw [bands, List.mapM_cons, numel_band start hshape hcount hsize, ok_bind, ih hsizes]
    rfl

/-- The counts of shares are those of the bands that the same sizes make. -/
theorem counted_bands (hr : b.shape.length = b.strides.length) (hshape : b.shape = rows :: dims)
    (hcount : b.numel = .ok b.count) (hsum : sizes.sum = rows) :
    b.Counted (sizes.map (· * b.rowLength)) (b.bands 0 sizes) := by
  have hin : ∀ size ∈ sizes, size ≤ rows := fun size hmem => hsum ▸ List.le_sum_of_mem hmem
  have hwhole : ((b.bands 0 sizes).map offsets).flatten = b.offsets := by
    rw [← List.flatMap_def, flatMap_offsets_bands hr hshape, hsum, band_whole hshape]
  have hlengths : ((b.bands 0 sizes).map offsets).map List.length = sizes.map (· * b.rowLength) := by
    apply List.ext_getElem?
    intro r
    rw [List.map_map, List.getElem?_map, getElem?_bands, List.getElem?_map]
    cases hsize : sizes[r]? with
    | none => rfl
    | some size =>
      have hmem := List.mem_of_getElem? hsize
      have hband := numel_band (0 + (sizes.take r).sum) hshape hcount (hin size hmem)
      exact congrArg some (length_offsets (ranked_band hr hshape _ size) hband)
  have helements : ∀ (r place : Nat) (part : Buffer), (b.bands 0 sizes)[r]? = some part →
      (places (sizes.map (· * b.rowLength)))[r]? = some place →
      part.offsets = (b.offsets.drop place).take ((sizes.map (· * b.rowLength)).getD r 0) := by
    intro r place part hpart hplace
    have hlist : ((b.bands 0 sizes).map offsets)[r]? = some part.offsets := by
      rw [List.getElem?_map, hpart, Option.map_some]
    have hlength : (sizes.map (· * b.rowLength))[r]? = some part.offsets.length := by
      rw [← hlengths, List.getElem?_map, hlist, Option.map_some]
    rw [getElem?_places hlength, Option.some.injEq] at hplace
    rw [List.getD_eq_getElem?_getD, hlength, Option.getD_some, ← hplace, ← hlengths, ← hwhole]
    exact (take_drop_flatten hlist).symm
  refine ⟨numels_bands hshape hcount hin, helements, fun hcontiguous r place part hpart hplace => ?_⟩
  -- The shares before this one and its own are some of the elements of the buffer.
  obtain ⟨size, hsize, -⟩ := Option.map_eq_some_iff.mp ((b.getElem?_bands 0 sizes r).symm.trans hpart)
  have hentry : (sizes.map (· * b.rowLength))[r]? = some (size * b.rowLength) := by
    rw [List.getElem?_map, hsize, Option.map_some]
  have hplaced := getElem?_places hentry
  rw [hplace, Option.some.injEq] at hplaced
  have hwithin := sum_take_add_le hentry
  have htotal : (sizes.map (· * b.rowLength)).sum = b.count := by
    rw [List.sum_map_mul_right, List.map_id', hsum, count, hshape, List.prod_cons, rowLength, hshape, List.tail_cons]
  rw [helements r place part hpart hplace, List.getD_eq_getElem?_getD, hentry, Option.getD_some,
    offsets_of_isContiguous hr hcount hcontiguous, take_drop_range' (by omega)]

end Buffer

/-- The rows of a held buffer are shared out among `n` ranks by one size for each exactly if the sizes add up to the
rows. The counts then make up the buffer, no product or division on the way leaves the sizes, and splitting the buffer by
the same sizes makes the parts that the counts tell of. Without sizes the rows are shared out exactly if `n` divides them
and a table of `n` entries can be made, and the shares are then equal. -/
theorem Holding.shares_counted {s : Store} {held : List Buffer} {b : Buffer} {n : Nat} (hheld : Holding s held)
    (hb : b ∈ held) (hdims : b.shape ≠ []) (hcount : b.numel = .ok b.count) (hn : 0 < n) :
    (∀ sizes : List Nat, sizes.length = n → sizes.sum < sizeLimit →
      (sizes.sum ≠ b.rows →
        splitCounts b sizes n = .error (.error (.validation (.splitTotal sizes.sum b.rows)))) ∧
      (sizes.sum = b.rows → ∃ counts, splitCounts b sizes n = .ok counts ∧ counts.length = n ∧ counts.sum = b.count ∧
        displacements counts = .ok (places counts) ∧
        (b.count ≠ 0 → b.rows ≠ 0 ∧ ∀ size ∈ sizes, size * (b.count / b.rows) < sizeLimit) ∧
        ((b.count = 0 → b.StartsFit sizes) → ∃ parts, b.split sizes = .ok parts ∧ b.Counted counts parts))) ∧
      (n ∣ b.rows → 8 * n < 2 ^ 63 → ∃ counts, splitCounts b [] n = .ok counts ∧
        splitCounts b (List.replicate n (b.rows / n)) n = .ok counts) ∧
      (n ∣ b.rows → 2 ^ 63 ≤ 8 * n → splitCounts b [] n = .error (.fault .capacity)) ∧
      (¬n ∣ b.rows → splitCounts b [] n = .error (.error (.validation (.unevenRows b.rows n)))) := by
  have hs := hheld.tenancy.sound b hb
  obtain ⟨rows, dims, hshape⟩ := List.exists_cons_of_ne_nil hdims
  have hrows : b.rows = rows := by rw [Buffer.rows, hshape, List.headD_cons]
  have hsized : rows < sizeLimit := hrows ▸ Buffer.rows_lt_sizeLimit hcount
  have hevenly := splitCounts_evenly hdims hcount hn
  refine ⟨fun sizes hlength hsmall => ?_, fun hdvd hfits => ?_, fun hdvd hlarge => ?_, fun hnot => ?_⟩
  · have hsizes := splitCounts_of_sizes hdims hcount hn hlength hsmall
    refine ⟨fun hsum => by rw [hsizes, if_neg hsum], fun hsum => ?_⟩
    rw [if_pos hsum] at hsizes
    obtain ⟨-, -, hmany, htotal⟩ := shares_of_splitCounts hsizes
    refine ⟨_, hsizes, hmany, htotal, displacements_eq_ok (htotal ▸ lt_of_productSizes hcount), fun hsome => ?_,
      fun hfits => ?_⟩
    · have hall := Buffer.count_eq_rows hdims
      refine ⟨fun hzero => hsome (by rw [hall, hzero, Nat.zero_mul]), fun size hmem => ?_⟩
      have hin : size ≤ b.rows := hsum ▸ List.le_sum_of_mem hmem
      have hproduct := (Nat.mul_le_mul_right (b.count / b.rows) hin).trans (Nat.mul_div_le b.count b.rows)
      exact lt_of_le_of_lt hproduct (lt_of_productSizes hcount)
    · have hsum' : sizes.sum = rows := hsum.trans hrows
      have hstarts := hheld.startsFit hb hshape hsum' hfits
      exact ⟨_, Buffer.split_eq_ok hshape hsum' hsized hstarts, Buffer.counted_bands hs.ranked hshape hcount hsum'⟩
  · have hsum : (List.replicate n (b.rows / n)).sum = b.rows := by
      rw [List.sum_replicate, smul_eq_mul, Nat.mul_div_cancel' hdvd]
    refine ⟨List.replicate n (b.count / n), ?_, ?_⟩
    · rw [hevenly, if_pos hdvd, if_pos (by omega)]
    · rw [splitCounts_of_sizes hdims hcount hn List.length_replicate (by omega), if_pos hsum, List.map_replicate,
        Buffer.count_div hdims hdvd]
  · rw [hevenly, if_pos hdvd, if_neg (by omega)]
  · rw [hevenly, if_neg hnot]

/-- Three rows of two elements are shared out as two, none and one, and evenly among three. -/
theorem Holding.shares_counted_of_table :
    ∃ (s : Store) (b : Buffer), Holding s [b] ∧ b.shape = [3, 2] ∧
      (∃ counts, splitCounts b [2, 0, 1] 3 = .ok counts ∧ counts.length = 3 ∧ counts.sum = 6 ∧
        ∃ parts, b.split [2, 0, 1] = .ok parts ∧ b.Counted counts parts) ∧
      splitCounts b [2, 0, 2] 3 = .error (.error (.validation (.splitTotal 4 3))) ∧
      (∃ counts, splitCounts b [] 3 = .ok counts ∧ splitCounts b [1, 1, 1] 3 = .ok counts) ∧
      splitCounts b [] 2 = .error (.error (.validation (.unevenRows 3 2))) := by
  let b : Buffer := { block := 0, dtype := .i16, shape := [3, 2], strides := [2, 1], offset := 0 }
  let s : Store := { heap := { blocks := #[#[1, 0, 2, 0, 3, 0, 4, 0, 5, 0, 6, 0]] } }
  have hbounded : Heap.Bounded {} := fun block => Nat.zero_le _
  have hb : (Buffer.ofWords .i16 [1, 2, 3, 4, 5, 6] [3, 2]).run {} = (.ok b, s) := rfl
  have hheld : Holding s [b] := .ofWords (.nothing hbounded) hb
  have hmem : b ∈ [b] := by decide
  have hdims : b.shape ≠ [] := by decide
  obtain ⟨hsizes, heven, -, -⟩ := hheld.shares_counted (n := 3) hmem hdims rfl (by decide)
  obtain ⟨-, -, -, huneven⟩ := hheld.shares_counted (n := 2) hmem hdims rfl (by decide)
  obtain ⟨-, hexact⟩ := hsizes [2, 0, 1] rfl (by decide)
  obtain ⟨counts, hcounts, hlength, htotal, -, -, hsplit⟩ := hexact rfl
  have hparts := hsplit fun hzero => absurd hzero (by decide)
  obtain ⟨hrefused, -⟩ := hsizes [2, 0, 2] rfl (by decide)
  have hthirds : List.replicate 3 (b.rows / 3) = [1, 1, 1] := by decide
  rw [hthirds] at heven
  exact ⟨s, b, hheld, rfl, ⟨counts, hcounts, hlength, htotal, hparts⟩, hrefused (by decide),
    heven (by decide) (by decide), huneven (by decide)⟩

/-- An empty buffer has no rows, which any number of ranks divides, but no table has `2 ^ 60` entries. -/
theorem Holding.shares_beyond_tables :
    ∃ (s : Store) (b : Buffer), Holding s [b] ∧ b.shape = [0] ∧ b.numel = .ok 0 ∧ b.isContiguous = .ok true ∧
      2 ^ 60 ∣ b.rows ∧ splitCounts b [] (2 ^ 60) = .error (.fault .capacity) ∧
      ¬∃ counts, splitCounts b [] (2 ^ 60) = .ok counts := by
  let b : Buffer := { block := 0, dtype := .i32, shape := [0], strides := [1], offset := 0 }
  let s : Store := { heap := { blocks := #[#[]] } }
  have hbounded : Heap.Bounded {} := fun block => Nat.zero_le _
  have hb : (Buffer.zeros .i32 [0]).run {} = (.ok b, s) := rfl
  have hfault : splitCounts b [] (2 ^ 60) = .error (.fault .capacity) := by
    rw [splitCounts_evenly (by decide) rfl (by decide), if_pos (by decide), if_neg (by decide)]
  refine ⟨s, b, .zeros (.nothing hbounded) hb, rfl, rfl, rfl, by decide, hfault, ?_⟩
  rw [hfault]
  rintro ⟨counts, hcounts⟩
  cases hcounts

end Collectives
