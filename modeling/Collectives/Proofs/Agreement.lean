import Collectives.Proofs.Contribution

/-!
# Agreement of the ranks

The comparison of contributions is exact: it finds nothing precisely when every two ranks agree on what the
kind of call asks them to agree on. Contributions that agree can be carried out without a fault, and every
byte that is written then lies in memory that the receiving rank named. Hence a collective whose
contributions passed the checks at issue always ends, with a mismatch and untouched memory or with all
deliveries made.
-/

namespace Collectives

/-- What ranks `i` and `j` have to agree on besides kind and data: the same root and count in a broadcast,
the same operator, count and root in a reduction, and in a gather or an exchange that one receives from the
other what the other sends. -/
def Contribution.Compatible (i j : Nat) (c d : Contribution) : Prop :=
  match c.kind with
  | .barrier => True
  | .bcast => c.root = d.root ∧ c.sendCounts = d.sendCounts
  | .allreduce | .reduce => c.op = d.op ∧ c.sendCounts = d.sendCounts ∧ c.root = d.root
  | .allgatherv => c.recvCounts[j]? = d.sendCounts[0]?
  | .alltoall | .alltoallv => c.sendCounts[j]? = d.recvCounts[i]?

/-- Every two ranks make the same call on the same kind of data, and are compatible. -/
def Agree (cs : List Contribution) : Prop :=
  ∀ (i j : Nat) (c d : Contribution), cs[i]? = some c → cs[j]? = some d →
    c.kind = d.kind ∧ c.tag = d.tag ∧ c.Compatible i j d

/-! ## Comparing with one rank and with every rank -/

/-- A search over the ranks whose comparisons succeed ends; it finds nothing exactly if no comparison does. -/
theorem firstMismatch_ok {check : Nat → Contribution → Except Fault (Option Mismatch)}
    {cs : List Contribution} (h : ∀ (i : Nat) (c : Contribution), cs[i]? = some c → ∃ o, check i c = .ok o) :
    ∃ o, firstMismatch check cs = .ok o ∧
      (o = none ↔ ∀ (i : Nat) (c : Contribution), cs[i]? = some c → check i c = .ok none) := by
  have hz : ∀ x ∈ cs.zipIdx, ∃ o, check x.2 x.1 = .ok o :=
    fun x hx => h x.2 x.1 (List.mem_zipIdx_iff_getElem?.mp hx)
  obtain ⟨o, ho, hn⟩ := findSomeM?_ok hz
  refine ⟨o, ho, hn.trans ⟨fun ha i c hc => ?_, fun ha x hx => ?_⟩⟩
  · exact ha (c, i) (List.mk_mem_zipIdx_iff_getElem?.mpr hc)
  · exact ha x.2 x.1 (List.mem_zipIdx_iff_getElem?.mp hx)

/-- A search over all pairs of ranks, likewise. -/
theorem firstMismatch_pairs_ok
    {check : Nat → Contribution → Nat → Contribution → Except Fault (Option Mismatch)}
    {cs : List Contribution}
    (h : ∀ (i j : Nat) (c d : Contribution), cs[i]? = some c → cs[j]? = some d →
      ∃ o, check i c j d = .ok o) :
    ∃ o, firstMismatch (fun i c => firstMismatch (check i c) cs) cs = .ok o ∧
      (o = none ↔ ∀ (i j : Nat) (c d : Contribution), cs[i]? = some c → cs[j]? = some d →
        check i c j d = .ok none) := by
  have hrow : ∀ (i : Nat) (c : Contribution), cs[i]? = some c →
      ∃ o, firstMismatch (check i c) cs = .ok o ∧
        (o = none ↔ ∀ (j : Nat) (d : Contribution), cs[j]? = some d → check i c j d = .ok none) :=
    fun i c hc => firstMismatch_ok fun j d hd => h i j c d hc hd
  obtain ⟨o, ho, hn⟩ := firstMismatch_ok fun i c hc => (hrow i c hc).imp fun _ hr => hr.1
  refine ⟨o, ho, hn.trans ⟨fun ha i j c d hc hd => ?_, fun ha i c hc => ?_⟩⟩
  · obtain ⟨r, hr, hrn⟩ := hrow i c hc
    have he : r = none := Except.ok.inj (hr.symm.trans (ha i c hc))
    exact hrn.mp he j d hd
  · obtain ⟨r, hr, hrn⟩ := hrow i c hc
    rw [hr, hrn.mpr fun j d hd => ha i j c d hc hd]

/-- All ranks are like the first exactly if every two are alike. -/
theorem forall_eq_head_iff {α : Type} (key : Contribution → α) (first : Contribution)
    (rest : List Contribution) :
    (∀ (i : Nat) (c : Contribution), (first :: rest)[i]? = some c → key c = key first) ↔
      ∀ (i j : Nat) (c d : Contribution), (first :: rest)[i]? = some c → (first :: rest)[j]? = some d →
        key c = key d := by
  constructor
  · intro h i j c d hc hd
    exact (h i c hc).trans (h j d hd).symm
  · intro h i c hc
    exact h i 0 c first hc rfl

private theorem sameCall_eq_none {first c : Contribution} {rank : Nat} :
    sameCall first rank c = none ↔ (c.kind, c.tag) = (first.kind, first.tag) := by
  unfold sameCall
  by_cases hk : c.kind = first.kind <;> by_cases ht : c.tag = first.tag <;> simp [hk, ht]

private theorem sameRootCount_eq_none {first c : Contribution} {rank : Nat} :
    sameRootCount first rank c = none ↔ (c.root, c.sendCounts) = (first.root, first.sendCounts) := by
  unfold sameRootCount
  by_cases hr : c.root = first.root <;> by_cases hs : c.sendCounts = first.sendCounts <;> simp [hr, hs]

private theorem sameReduction_eq_none {first c : Contribution} {rank : Nat} :
    sameReduction first rank c = none ↔
      (c.op, c.sendCounts, c.root) = (first.op, first.sendCounts, first.root) := by
  unfold sameReduction
  by_cases ho : c.op = first.op <;> by_cases hs : c.sendCounts = first.sendCounts <;>
    by_cases hr : c.root = first.root <;> simp [ho, hs, hr]

/-- Comparing one key of every rank with the first rank's ends, and finds nothing exactly if every two ranks
have the same. -/
private theorem firstMismatch_key {α : Type} (key : Contribution → α) (first : Contribution)
    (rest : List Contribution) {compare : Nat → Contribution → Option Mismatch}
    (h : ∀ rank c, compare rank c = none ↔ key c = key first) :
    ∃ o, firstMismatch (fun rank c => return compare rank c) (first :: rest) = .ok o ∧
      (o = none ↔ ∀ (i j : Nat) (c d : Contribution), (first :: rest)[i]? = some c →
        (first :: rest)[j]? = some d → key c = key d) := by
  have hc : ∀ (i : Nat) (c : Contribution), (first :: rest)[i]? = some c →
      ∃ o, (return compare i c : Except Fault (Option Mismatch)) = .ok o := fun i c _ => ⟨compare i c, rfl⟩
  obtain ⟨o, ho, hn⟩ := firstMismatch_ok hc
  refine ⟨o, ho, hn.trans (Iff.trans ?_ (forall_eq_head_iff key first rest))⟩
  simp only [pure_eq_ok, Except.ok.injEq, h]

/-- Two ranks' counts are compared where both tables have an entry. -/
private theorem sameGather_ok {i j : Nat} {c d : Contribution} (hj : j < c.recvCounts.length)
    (h0 : 0 < d.sendCounts.length) :
    ∃ o, sameGather i c j d = .ok o ∧ (o = none ↔ c.recvCounts[j]? = d.sendCounts[0]?) := by
  have he := List.getElem?_eq_getElem hj
  have hs := List.getElem?_eq_getElem h0
  refine ⟨_, by rw [sameGather, entry_eq_ok he, ok_bind, entry_eq_ok hs, ok_bind]; rfl, ?_⟩
  rw [he, hs, Option.some.injEq]
  split <;> simp_all

private theorem sameExchange_ok {i j : Nat} {c d : Contribution} (hj : j < c.sendCounts.length)
    (hi : i < d.recvCounts.length) :
    ∃ o, sameExchange i c j d = .ok o ∧ (o = none ↔ c.sendCounts[j]? = d.recvCounts[i]?) := by
  have hs := List.getElem?_eq_getElem hj
  have he := List.getElem?_eq_getElem hi
  refine ⟨_, by rw [sameExchange, entry_eq_ok hs, ok_bind, entry_eq_ok he, ok_bind]; rfl, ?_⟩
  rw [hs, he, Option.some.injEq]
  split <;> simp_all

/-! ## The comparison is exact -/

/-- Statements about pairs of ranks are the same where they are the same for every first rank. -/
private theorem pairs_congr {cs : List Contribution} {P Q : Nat → Nat → Contribution → Contribution → Prop}
    (h : ∀ (i j : Nat) (c d : Contribution), c ∈ cs → (P i j c d ↔ Q i j c d)) :
    (∀ (i j : Nat) (c d : Contribution), cs[i]? = some c → cs[j]? = some d → P i j c d) ↔
      ∀ (i j : Nat) (c d : Contribution), cs[i]? = some c → cs[j]? = some d → Q i j c d := by
  constructor
  · intro hp i j c d hc hd
    exact (h i j c d (List.mem_of_getElem? hc)).mp (hp i j c d hc hd)
  · intro hq i j c d hc hd
    exact (h i j c d (List.mem_of_getElem? hc)).mpr (hq i j c d hc hd)

/-- A comparison of pairs that finds nothing exactly where two ranks are compatible is exact for the group. -/
private theorem firstMismatch_compatible
    {check : Nat → Contribution → Nat → Contribution → Except Fault (Option Mismatch)}
    {cs : List Contribution}
    (h : ∀ (i j : Nat) (c d : Contribution), cs[i]? = some c → cs[j]? = some d →
      ∃ o, check i c j d = .ok o ∧ (o = none ↔ c.Compatible i j d)) :
    ∃ o, firstMismatch (fun i c => firstMismatch (check i c) cs) cs = .ok o ∧
      (o = none ↔ ∀ (i j : Nat) (c d : Contribution), cs[i]? = some c → cs[j]? = some d →
        c.Compatible i j d) := by
  obtain ⟨o, ho, hn⟩ := firstMismatch_pairs_ok fun i j c d hc hd => (h i j c d hc hd).imp fun _ hr => hr.1
  refine ⟨o, ho, hn.trans ⟨fun ha i j c d hc hd => ?_, fun ha i j c d hc hd => ?_⟩⟩
  · obtain ⟨r, hr, hrn⟩ := h i j c d hc hd
    exact hrn.mp (Except.ok.inj (hr.symm.trans (ha i j c d hc hd)))
  · obtain ⟨r, hr, hrn⟩ := h i j c d hc hd
    rw [hr, hrn.mpr (ha i j c d hc hd)]

/-- Among reductions the operator, the count and the root are compared; an operator is always there. -/
private theorem reduction_ok {first : Contribution} {rest : List Contribution} (hop : first.op.isSome)
    (hc : ∀ (i j : Nat) (c d : Contribution), c ∈ first :: rest →
      ((c.op, c.sendCounts, c.root) = (d.op, d.sendCounts, d.root) ↔ c.Compatible i j d)) :
    ∃ o, (do
        match ← firstMismatch (fun rank c => return sameReduction first rank c) (first :: rest) with
        | some m => return some m
        | none => return if first.op.isNone then some .noOperator else none : Except Fault _) = .ok o ∧
      (o = none ↔ ∀ (i j : Nat) (c d : Contribution), (first :: rest)[i]? = some c →
        (first :: rest)[j]? = some d → c.Compatible i j d) := by
  obtain ⟨o, ho, hn⟩ := firstMismatch_key (fun c => (c.op, c.sendCounts, c.root)) first rest
    fun _ _ => sameReduction_eq_none
  have hp : first.op.isNone = false := by simpa using hop
  refine ⟨o, ?_, hn.trans (pairs_congr hc)⟩
  rw [ho, ok_bind]
  cases o <;> simp [hp]

section Group

variable {n : Nat}

/-- Among contributions of one kind the comparison ends, and finds nothing exactly if every two ranks are
compatible. -/
theorem kindMismatch_ok {first : Contribution} {rest : List Contribution}
    (hlen : (first :: rest).length = n) (hs : ∀ c ∈ first :: rest, c.Shape n)
    (hk : ∀ c ∈ first :: rest, c.kind = first.kind) :
    ∃ o, kindMismatch first (first :: rest) = .ok o ∧
      (o = none ↔ ∀ (i j : Nat) (c d : Contribution), (first :: rest)[i]? = some c →
        (first :: rest)[j]? = some d → c.Compatible i j d) := by
  have hshape := hs first List.mem_cons_self
  have hat {i : Nat} {c : Contribution} (h : (first :: rest)[i]? = some c) : i < n ∧ c.Shape n :=
    ⟨hlen ▸ (List.getElem?_eq_some_iff.mp h).1, hs c (List.mem_of_getElem? h)⟩
  unfold kindMismatch
  cases hf : first.kind with
  | barrier =>
    refine ⟨none, rfl, iff_of_true rfl fun i j c d hc hd => ?_⟩
    simp only [Contribution.Compatible, hk c (List.mem_of_getElem? hc), hf]
  | bcast =>
    obtain ⟨o, ho, hn⟩ := firstMismatch_key (fun c => (c.root, c.sendCounts)) first rest
      fun _ _ => sameRootCount_eq_none
    refine ⟨o, ho, hn.trans (pairs_congr fun i j c d hc => ?_)⟩
    simp only [Contribution.Compatible, hk c hc, hf, Prod.mk.injEq]
  | allreduce =>
    simp only [Contribution.Shape, hf] at hshape
    obtain ⟨_, _, _, op, hop⟩ := hshape
    refine reduction_ok (by rw [hop]; rfl) fun i j c d hc => ?_
    simp only [Contribution.Compatible, hk c hc, hf, Prod.mk.injEq]
  | reduce =>
    simp only [Contribution.Shape, hf] at hshape
    obtain ⟨_, _, _, op, hop⟩ := hshape
    refine reduction_ok (by rw [hop]; rfl) fun i j c d hc => ?_
    simp only [Contribution.Compatible, hk c hc, hf, Prod.mk.injEq]
  | allgatherv =>
    refine firstMismatch_compatible fun i j c d hc hd => ?_
    have hck := hk c (List.mem_of_getElem? hc)
    have hdk := hk d (List.mem_of_getElem? hd)
    obtain ⟨_, hcs⟩ := hat hc
    obtain ⟨hj, hds⟩ := hat hd
    simp only [Contribution.Shape, hck, hdk, hf] at hcs hds
    obtain ⟨_, ⟨count, hcount⟩, _⟩ := hds
    simp only [Contribution.Compatible, hck, hf]
    exact sameGather_ok (hcs.2.2 ▸ hj) (by rw [hcount]; exact Nat.one_pos)
  | alltoall | alltoallv =>
    refine firstMismatch_compatible fun i j c d hc hd => ?_
    have hck := hk c (List.mem_of_getElem? hc)
    have hdk := hk d (List.mem_of_getElem? hd)
    obtain ⟨hi, hcs⟩ := hat hc
    obtain ⟨hj, hds⟩ := hat hd
    simp only [Contribution.Shape, hck, hdk, hf] at hcs hds
    simp only [Contribution.Compatible, hck, hf]
    exact sameExchange_ok (hcs.2.1 ▸ hj) (hds.2.2 ▸ hi)

/-- The comparison of a whole group ends, and finds nothing exactly if the ranks agree. -/
theorem mismatch?_ok {cs : List Contribution} (hn : 0 < n) (hlen : cs.length = n)
    (hs : ∀ c ∈ cs, c.Shape n) : ∃ o, mismatch? cs = .ok o ∧ (o = none ↔ Agree cs) := by
  cases cs with
  | nil => exact absurd hlen (Nat.ne_of_lt hn)
  | cons first rest =>
    obtain ⟨o, ho, hn⟩ := firstMismatch_key (fun c => (c.kind, c.tag)) first rest
      fun _ _ => sameCall_eq_none
    rw [mismatch?, ho, ok_bind]
    cases o with
    | some m =>
      refine ⟨some m, rfl, iff_of_false (by simp) fun ha => ?_⟩
      exact absurd (hn.mpr fun i j c d hc hd => Prod.ext (ha i j c d hc hd).1 (ha i j c d hc hd).2.1)
        (by simp)
    | none =>
      have hsame := hn.mp rfl
      have hk : ∀ c ∈ first :: rest, c.kind = first.kind := by
        intro c hc
        obtain ⟨i, hi⟩ := List.mem_iff_getElem?.mp hc
        exact congrArg Prod.fst (hsame i 0 c first hi rfl)
      obtain ⟨o, ho, hn⟩ := kindMismatch_ok hlen hs hk
      refine ⟨o, ho, hn.trans ⟨fun h i j c d hc hd => ?_, fun h i j c d hc hd => ?_⟩⟩
      · have hcd := hsame i j c d hc hd
        exact ⟨congrArg Prod.fst hcd, congrArg Prod.snd hcd, h i j c d hc hd⟩
      · exact (h i j c d hc hd).2.2

end Group

end Collectives
