import Collectives.Proofs.Delivery

/-!
# Ledgers of contributions

A ledger says what every rank has issued on every communicator so far, in order. It is what the fabric has
to keep faith with: the slot of a call holds one row of the ledger, a call is full once every rank has come
that far, and the verdict on a full call no longer changes as the ledger grows.
-/

namespace Collectives

/-- A count over the first numbers grows by one where one more of them counts. -/
theorem countP_range_succ {n i : Nat} {p q : Nat → Bool} (hi : i < n) (hp : p i = false) (hq : q i = true)
    (h : ∀ j, j ≠ i → q j = p j) : (List.range n).countP q = (List.range n).countP p + 1 := by
  have hset : (List.range n).map q = ((List.range n).map p).set i true := by
    refine List.ext_getElem (by simp) fun j hj _ => ?_
    rw [List.getElem_map, List.getElem_range, List.getElem_set]
    by_cases hji : i = j
    · rw [if_pos hji, ← hji, hq]
    · rw [if_neg hji, List.getElem_map, List.getElem_range, h j (Ne.symm hji)]
  have hlen : i < ((List.range n).map p).length := by simpa using hi
  calc (List.range n).countP q = ((List.range n).map q).countP id := by rw [List.countP_map]; rfl
    _ = ((List.range n).map p).countP id + 1 := by
      rw [hset, List.countP_set hlen, List.getElem_map, List.getElem_range, hp]
      simp
    _ = (List.range n).countP p + 1 := by rw [List.countP_map]; rfl

/-- What each rank has issued on each communicator so far, oldest first. -/
abbrev Ledger := Nat → Nat → List Contribution

namespace Ledger

/-- The ledger after a rank has issued one more contribution on a communicator. -/
def add (l : Ledger) (rank comm : Nat) (c : Contribution) : Ledger := fun r k =>
  if r = rank ∧ k = comm then l r k ++ [c] else l r k

/-- The next call of a rank on a communicator. -/
def next (l : Ledger) (rank comm : Nat) : Nat × Nat := (comm, (l rank comm).length)

/-- Whether a rank has issued a call. -/
def HasIssued (l : Ledger) (rank : Nat) (call : Nat × Nat) : Prop := call.2 < (l rank call.1).length

instance (l : Ledger) (rank : Nat) (call : Nat × Nat) : Decidable (l.HasIssued rank call) :=
  inferInstanceAs (Decidable (_ < _))

/-- What each of `n` ranks has contributed to a call so far. -/
def row (l : Ledger) (n : Nat) (call : Nat × Nat) : List (Option Contribution) :=
  (List.range n).map fun r => (l r call.1)[call.2]?

/-- How many of `n` ranks have issued a call. -/
def issuers (l : Ledger) (n : Nat) (call : Nat × Nat) : Nat :=
  (List.range n).countP fun r => l.HasIssued r call

/-- Every one of `n` ranks has issued the call. -/
def Full (l : Ledger) (n : Nat) (call : Nat × Nat) : Prop := ∀ r < n, l.HasIssued r call

instance (l : Ledger) (n : Nat) (call : Nat × Nat) : Decidable (l.Full n call) :=
  inferInstanceAs (Decidable (∀ r < n, l.HasIssued r call))

/-- The contributions to a call that are there, in the order of the ranks. -/
def gathered (l : Ledger) (n : Nat) (call : Nat × Nat) : List Contribution :=
  (l.row n call).filterMap id

/-- How many calls of a communicator all of `n` ranks have issued. -/
def rounds (l : Ledger) (n comm : Nat) : Nat := (((List.range n).map fun r => (l r comm).length).min?).getD 0

/-- Every contribution passed the checks at issue, and its byte counts are sizes. -/
def Sound (n : Nat) (l : Ledger) : Prop := ∀ r comm, ∀ c ∈ l r comm, c.Issued n ∧ c.Fits

section Reading

variable {l : Ledger} {n rank comm : Nat} {call : Nat × Nat}

theorem length_row : (l.row n call).length = n := by
  rw [row, List.length_map, List.length_range]

theorem getElem?_row (hr : rank < n) : (l.row n call)[rank]? = some (l rank call.1)[call.2]? := by
  rw [row, List.getElem?_map, List.getElem?_range hr, Option.map_some]

/-- A rank has issued a call exactly if its contribution is there. -/
theorem hasIssued_iff : l.HasIssued rank call ↔ (l rank call.1)[call.2]?.isSome := by
  simp [HasIssued]

/-- The rank's next call is one it has not issued yet. -/
theorem not_hasIssued_next : ¬l.HasIssued rank (l.next rank comm) := Nat.lt_irrefl _

/-- All ranks have issued a call exactly if as many have as there are. -/
theorem issuers_eq_iff : l.issuers n call = n ↔ l.Full n call := by
  have h := List.countP_eq_length (p := fun r => decide (l.HasIssued r call)) (l := List.range n)
  rw [List.length_range] at h
  rw [issuers, h]
  simp only [List.mem_range, decide_eq_true_eq, Full]

/-- Some rank has issued a call as soon as one has. -/
theorem issuers_pos (hr : rank < n) (h : l.HasIssued rank call) : 0 < l.issuers n call :=
  List.countP_pos_iff.mpr ⟨rank, List.mem_range.mpr hr, decide_eq_true h⟩

/-- A full call is issued by someone, where there is a rank at all. -/
theorem Full.issuers_pos (hn : 0 < n) (h : l.Full n call) : 0 < l.issuers n call := by
  rwa [issuers_eq_iff.mpr h]

/-- The contributions that a row holds are those of the ranks that have issued the call. -/
theorem countP_row : (l.row n call).countP Option.isSome = l.issuers n call := by
  rw [row, List.countP_map, issuers]
  refine List.countP_congr fun r _ => ?_
  rw [Function.comp_apply, decide_eq_true_eq, hasIssued_iff]

/-- There are as many contributions as ranks that have issued the call. -/
theorem length_gathered : (l.gathered n call).length = l.issuers n call := by
  rw [gathered, List.length_filterMap_eq_countP]
  exact countP_row

/-- A gathered contribution is some rank's. -/
theorem exists_of_mem_gathered {c : Contribution} (h : c ∈ l.gathered n call) :
    ∃ r < n, (l r call.1)[call.2]? = some c := by
  obtain ⟨_, hx, rfl⟩ := List.mem_filterMap.mp h
  obtain ⟨r, hr, hc⟩ := List.mem_map.mp hx
  exact ⟨r, List.mem_range.mp hr, hc⟩

/-- The contributions to a full call of a sound ledger are those of a whole group. -/
theorem Full.group (hf : l.Full n call) (hn : 0 < n) (hs : l.Sound n) :
    Gathered n (l.gathered n call) := by
  have hmem : ∀ c ∈ l.gathered n call, c.Issued n ∧ c.Fits := by
    intro c hc
    obtain ⟨r, -, hr⟩ := exists_of_mem_gathered hc
    exact hs r call.1 c (List.mem_of_getElem? hr)
  exact ⟨hn, length_gathered.trans (issuers_eq_iff.mpr hf), fun c hc => (hmem c hc).1.shape,
    fun c hc => (hmem c hc).2⟩

/-- The contribution of a rank to a full call stands at the rank's place. -/
theorem Full.getElem?_gathered (hf : l.Full n call) (hr : rank < n) :
    (l.gathered n call)[rank]? = (l rank call.1)[call.2]? := by
  have hrow : ∀ r ∈ List.range n,
      (l r call.1)[call.2]? = some ((l r call.1).getD call.2 Fabric.barrierContribution) := by
    intro r hr
    have hi : call.2 < (l r call.1).length := hf r (List.mem_range.mp hr)
    rw [List.getD_eq_getElem?_getD, List.getElem?_eq_getElem hi, Option.getD_some]
  rw [gathered, row, List.filterMap_map, Function.id_comp, List.filterMap_eq_map_iff_forall_eq_some.mpr hrow,
    List.getElem?_map, List.getElem?_range hr, hrow rank (List.mem_range.mpr hr)]
  rfl

/-- A full call stays full, with the same contributions, whatever is issued after it. -/
theorem Full.mono {l' : Ledger} (hf : l.Full n call) (hl : ∀ r < n, l r call.1 <+: l' r call.1) :
    l'.Full n call ∧ l'.gathered n call = l.gathered n call := by
  refine ⟨fun r hr => lt_of_lt_of_le (hf r hr) (hl r hr).length_le, ?_⟩
  have hrow : l'.row n call = l.row n call := by
    refine List.map_congr_left fun r hr => ?_
    have hi : call.2 < (l r call.1).length := hf r (List.mem_range.mp hr)
    rw [List.getElem?_eq_getElem hi]
    exact List.prefix_iff_getElem?.mp (hl r (List.mem_range.mp hr)) call.2 hi
  rw [gathered, gathered, hrow]

/-- The calls that all ranks have issued are the first ones of a communicator. -/
theorem lt_rounds_iff (hn : 0 < n) {k : Nat} : k < l.rounds n comm ↔ l.Full n (comm, k) := by
  obtain ⟨least, hleast⟩ : ∃ least, ((List.range n).map fun r => (l r comm).length).min? = some least := by
    refine Option.isSome_iff_exists.mp (List.isSome_min?_of_mem (a := (l 0 comm).length) ?_)
    exact List.mem_map.mpr ⟨0, List.mem_range.mpr hn, rfl⟩
  obtain ⟨hmem, hle⟩ := List.min?_eq_some_iff.mp hleast
  rw [rounds, hleast, Option.getD_some]
  constructor
  · intro h r hr
    exact lt_of_lt_of_le h (hle _ (List.mem_map.mpr ⟨r, List.mem_range.mpr hr, rfl⟩))
  · intro h
    obtain ⟨r, hr, rfl⟩ := List.mem_map.mp hmem
    exact h r (List.mem_range.mp hr)

end Reading

/-! ## One more contribution -/

section Adding

variable {l : Ledger} {n rank comm : Nat} {c : Contribution}

/-- What a rank has contributed to a call, after one more contribution. -/
theorem getElem?_add (r : Nat) (call : Nat × Nat) :
    (l.add rank comm c r call.1)[call.2]? =
      if r = rank ∧ call = l.next rank comm then some c else (l r call.1)[call.2]? := by
  obtain ⟨k, i⟩ := call
  simp only [add, next, Prod.mk.injEq]
  by_cases h : r = rank ∧ k = comm
  · obtain ⟨rfl, rfl⟩ := h
    rw [if_pos ⟨rfl, rfl⟩]
    by_cases hi : i = (l r k).length
    · rw [if_pos ⟨rfl, rfl, hi⟩, hi, List.getElem?_concat_length]
    · rw [if_neg (fun h => hi h.2.2), List.getElem?_append]
      split
      · rfl
      · rw [List.getElem?_eq_none (by simp only [List.length_singleton]; omega),
          List.getElem?_eq_none (by omega)]
  · rw [if_neg h, if_neg (fun hc => h ⟨hc.1, hc.2.1⟩)]

/-- What a rank has issued comes first. -/
theorem prefix_add (r k : Nat) : l r k <+: l.add rank comm c r k := by
  rw [add]
  split
  · exact List.prefix_append _ _
  · exact List.prefix_rfl

theorem getElem?_add_of_some {r k i : Nat} {d : Contribution} (h : (l r k)[i]? = some d) :
    (l.add rank comm c r k)[i]? = some d := by
  obtain ⟨hi, rfl⟩ := List.getElem?_eq_some_iff.mp h
  exact List.prefix_iff_getElem?.mp (l.prefix_add r k) i hi

/-- The rank has issued one more contribution on the communicator. -/
theorem length_add (r k : Nat) :
    (l.add rank comm c r k).length = if r = rank ∧ k = comm then (l r k).length + 1 else (l r k).length := by
  rw [add]
  split
  · rw [List.length_append, List.length_singleton]
  · rfl

/-- Besides what was issued before, the rank has now issued its next call. -/
theorem hasIssued_add {r : Nat} {call : Nat × Nat} :
    (l.add rank comm c).HasIssued r call ↔ r = rank ∧ call = l.next rank comm ∨ l.HasIssued r call := by
  rw [hasIssued_iff, getElem?_add, hasIssued_iff]
  split <;> simp_all

/-- Nothing but the slot of the call is concerned. -/
theorem row_add_of_ne {call : Nat × Nat} (h : call ≠ l.next rank comm) :
    (l.add rank comm c).row n call = l.row n call := by
  refine List.map_congr_left fun r _ => ?_
  rw [getElem?_add, if_neg fun hc => h hc.2]

/-- The row of the call has the contribution at the place of the rank. -/
theorem row_add (hr : rank < n) :
    (l.add rank comm c).row n (l.next rank comm) = (l.row n (l.next rank comm)).set rank (some c) := by
  refine List.ext_getElem? fun r => ?_
  by_cases hn : r < n
  · rw [getElem?_row hn, getElem?_add, List.getElem?_set, length_row]
    by_cases h : r = rank
    · subst h
      rw [if_pos ⟨rfl, rfl⟩, if_pos rfl, if_pos hn]
    · rw [if_neg fun hc => h hc.1, if_neg fun hc => h hc.symm, getElem?_row hn]
  · rw [List.getElem?_eq_none (by rw [length_row]; omega),
      List.getElem?_eq_none (by rw [List.length_set, length_row]; omega)]

theorem issuers_add_of_ne {call : Nat × Nat} (h : call ≠ l.next rank comm) :
    (l.add rank comm c).issuers n call = l.issuers n call := by
  rw [← countP_row, ← countP_row, row_add_of_ne h]

/-- One more rank has issued the call. -/
theorem issuers_add (hr : rank < n) :
    (l.add rank comm c).issuers n (l.next rank comm) = l.issuers n (l.next rank comm) + 1 := by
  refine countP_range_succ hr ?_ ?_ fun r h => ?_
  · exact decide_eq_false not_hasIssued_next
  · exact decide_eq_true (hasIssued_add.mpr (.inl ⟨rfl, rfl⟩))
  · rw [decide_eq_decide, hasIssued_add]
    exact or_iff_right fun hc => h hc.1

/-- A call that is full stays full, with the same contributions. -/
theorem Full.add {call : Nat × Nat} (hf : l.Full n call) :
    (l.add rank comm c).Full n call ∧ (l.add rank comm c).gathered n call = l.gathered n call :=
  hf.mono fun r _ => l.prefix_add r call.1

/-- One more contribution fills at most the call it is for. -/
theorem full_add_iff {call : Nat × Nat} (hcall : call ≠ l.next rank comm) :
    (l.add rank comm c).Full n call ↔ l.Full n call := by
  refine ⟨fun h r hn => ?_, fun h => h.add.1⟩
  exact (hasIssued_add.mp (h r hn)).resolve_left fun hc => hcall hc.2

/-- The last contribution to a call is for the first call that is not full. -/
theorem rounds_eq (hr : rank < n) (hf : (l.add rank comm c).Full n (l.next rank comm)) :
    l.rounds n comm = (l rank comm).length := by
  refine eq_of_forall_lt_iff fun k => (lt_rounds_iff (Nat.zero_lt_of_lt hr)).trans ⟨fun h => h rank hr, ?_⟩
  intro hk r hn
  rcases hasIssued_add.mp (hf r hn) with ⟨rfl, -⟩ | h
  · exact hk
  · exact lt_trans hk h

/-- The last contribution to a call completes one more round of its communicator. -/
theorem rounds_add (hr : rank < n) (k : Nat) :
    (l.add rank comm c).rounds n k =
      if k = comm ∧ (l.add rank comm c).Full n (l.next rank comm) then l.rounds n k + 1
      else l.rounds n k := by
  have hn := Nat.zero_lt_of_lt hr
  refine eq_of_forall_lt_iff fun i => (lt_rounds_iff hn).trans ?_
  by_cases hcall : (k, i) = l.next rank comm
  · obtain ⟨rfl, rfl⟩ := Prod.mk.inj hcall
    by_cases hf : (l.add rank k c).Full n (l.next rank k)
    · rw [if_pos ⟨rfl, hf⟩, rounds_eq hr hf]
      exact iff_of_true hf (Nat.lt_succ_self _)
    · rw [if_neg fun h => hf h.2, lt_rounds_iff hn]
      exact iff_of_false hf fun h => not_hasIssued_next (h rank hr)
  · rw [full_add_iff hcall]
    split
    · rename_i h
      obtain ⟨rfl, hf⟩ := h
      have hi : i ≠ (l rank k).length := fun hi => hcall (by rw [hi, next])
      rw [← lt_rounds_iff hn, rounds_eq hr hf]
      omega
    · rw [lt_rounds_iff hn]

/-- Adding a sound contribution keeps a ledger sound. -/
theorem Sound.add (hs : l.Sound n) (hc : c.Issued n) (hf : c.Fits) : (l.add rank comm c).Sound n := by
  intro r k d hd
  by_cases h : r = rank ∧ k = comm
  · rw [Ledger.add, if_pos h, List.mem_append, List.mem_singleton] at hd
    rcases hd with hd | rfl
    · exact hs r k d hd
    · exact ⟨hc, hf⟩
  · rw [Ledger.add, if_neg h] at hd
    exact hs r k d hd

end Adding

end Ledger

end Collectives
