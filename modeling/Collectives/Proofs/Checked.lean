import Collectives.Fault
import Mathlib

/-!
# Checked computations that succeed

A traversal with checked steps succeeds as soon as every step does, and its answer is then fixed step by
step. Sums and partial sums succeed as soon as the whole sum is a size, so one bound on a total discharges
every check on the way to it.
-/

namespace Collectives

variable {α β ε : Type}

/-- A checked answer passed on is the rest of the computation at that answer. -/
@[simp] theorem ok_bind (a : α) (f : α → Except ε β) : (Except.ok a >>= f) = f a := rfl

/-- Answering is succeeding. -/
@[simp] theorem pure_eq_ok (a : α) : (pure a : Except ε α) = .ok a := rfl

/-- Where a computation in two steps succeeds, each of the steps does. -/
theorem exists_of_bind_eq_ok {x : Except ε α} {f : α → Except ε β} {b : β} (h : (x >>= f) = .ok b) :
    ∃ a, x = .ok a ∧ f a = .ok b := by
  cases x with
  | error e => exact absurd h (by simp [bind, Except.bind])
  | ok a => exact ⟨a, rfl, h⟩

/-- Only a success is a success under another kind of error. -/
theorem eq_ok_of_mapError {δ : Type} {g : ε → δ} {x : Except ε α} {a : α} (h : x.mapError g = .ok a) :
    x = .ok a := by
  cases x with
  | error e => exact absurd h (by simp [Except.mapError])
  | ok b => exact congrArg Except.ok (Except.ok.inj h)

/-- A traversal whose steps all succeed succeeds, and what holds of every step's answer holds of every
answer in the list. -/
theorem mapM_ok {f : α → Except ε β} {P : β → Prop} {xs : List α}
    (h : ∀ x ∈ xs, ∃ y, f x = .ok y ∧ P y) : ∃ ys, xs.mapM f = .ok ys ∧ ∀ y ∈ ys, P y := by
  induction xs with
  | nil => exact ⟨[], rfl, by simp⟩
  | cons x xs ih =>
    obtain ⟨y, hy, hp⟩ := h x List.mem_cons_self
    obtain ⟨ys, hys, hps⟩ := ih fun z hz => h z (List.mem_cons_of_mem x hz)
    refine ⟨y :: ys, ?_, List.forall_mem_cons.mpr ⟨hp, hps⟩⟩
    rw [List.mapM_cons, hy, ok_bind, hys]
    rfl

/-- A traversal whose steps are known to succeed answers with the list of their answers. -/
theorem mapM_eq_ok_map {f : α → Except ε β} {g : α → β} {xs : List α} (h : ∀ x ∈ xs, f x = .ok (g x)) :
    xs.mapM f = .ok (xs.map g) := by
  induction xs with
  | nil => rfl
  | cons x xs ih =>
    rw [List.mapM_cons, h x List.mem_cons_self, ok_bind, ih fun y hy => h y (List.mem_cons_of_mem x hy)]
    rfl

/-- A traversal answers once for every element. -/
theorem length_of_mapM {f : α → Except ε β} {xs : List α} {ys : List β} (h : xs.mapM f = .ok ys) :
    ys.length = xs.length := by
  induction xs generalizing ys with
  | nil => cases h; rfl
  | cons x xs ih =>
    rw [List.mapM_cons] at h
    obtain ⟨y, _, h⟩ := exists_of_bind_eq_ok h
    obtain ⟨zs, hs, h⟩ := exists_of_bind_eq_ok h
    cases h
    exact congrArg (· + 1) (ih hs)

/-- Every answer of a traversal is the answer for some element. -/
theorem exists_of_mem_mapM {f : α → Except ε β} {xs : List α} {ys : List β} (h : xs.mapM f = .ok ys) {y : β}
    (hy : y ∈ ys) : ∃ x ∈ xs, f x = .ok y := by
  induction xs generalizing ys with
  | nil =>
    cases h
    cases hy
  | cons x xs ih =>
    rw [List.mapM_cons] at h
    obtain ⟨z, hz, h⟩ := exists_of_bind_eq_ok h
    obtain ⟨zs, hs, h⟩ := exists_of_bind_eq_ok h
    cases h
    rcases List.mem_cons.mp hy with rfl | hy
    · exact ⟨x, List.mem_cons_self, hz⟩
    · obtain ⟨x', hx', hf⟩ := ih hs hy
      exact ⟨x', List.mem_cons_of_mem x hx', hf⟩

/-- A traversal whose steps can only answer in one way answers in that way. -/
theorem eq_map_of_mapM {f : α → Except ε β} {g : α → β} {xs : List α} {ys : List β}
    (hf : ∀ x y, f x = .ok y → y = g x) (h : xs.mapM f = .ok ys) : ys = xs.map g := by
  induction xs generalizing ys with
  | nil =>
    cases h
    rfl
  | cons x xs ih =>
    rw [List.mapM_cons] at h
    obtain ⟨y, hy, h⟩ := exists_of_bind_eq_ok h
    obtain ⟨zs, hs, h⟩ := exists_of_bind_eq_ok h
    cases h
    rw [hf x y hy, ih hs, List.map_cons]

/-- A search whose tests all succeed succeeds; it finds nothing exactly if no test does. -/
theorem findSomeM?_ok {f : α → Except ε (Option β)} {xs : List α} (h : ∀ x ∈ xs, ∃ o, f x = .ok o) :
    ∃ o, xs.findSomeM? f = .ok o ∧ (o = none ↔ ∀ x ∈ xs, f x = .ok none) := by
  induction xs with
  | nil => exact ⟨none, rfl, by simp⟩
  | cons x xs ih =>
    obtain ⟨o, ho⟩ := h x List.mem_cons_self
    rw [List.findSomeM?_cons, ho, ok_bind]
    cases o with
    | some b => exact ⟨some b, rfl, by simp [ho]⟩
    | none =>
      obtain ⟨o, hs, hn⟩ := ih fun y hy => h y (List.mem_cons_of_mem x hy)
      exact ⟨o, hs, by rw [hn, List.forall_mem_cons]; simp [ho]⟩

/-- Taking an entry succeeds exactly with the entry that is there. -/
theorem entry_eq_ok_iff {xs : List α} {i : Nat} {x : α} : entry xs i = .ok x ↔ xs[i]? = some x := by
  unfold entry
  cases xs[i]? <;> simp

theorem entry_eq_ok {xs : List α} {i : Nat} {x : α} (h : xs[i]? = some x) : entry xs i = .ok x :=
  entry_eq_ok_iff.mpr h

/-- A stretch inside the list it is taken from is not refused. -/
theorem checkStretch_eq_ok {held start length : Nat} (h : start + length ≤ held) (hs : held < sizeLimit) :
    checkStretch held start length = .ok () := by
  rw [checkStretch, addSize_eq_ok (lt_of_le_of_lt h hs), ok_bind, if_pos h]

/-! ## Sizes -/

theorem addSize_eq_ok_iff {a b c : Nat} : addSize a b = .ok c ↔ c = a + b ∧ c < sizeLimit := by
  unfold addSize
  split
  · rw [Except.ok.injEq]
    omega
  · simp only [reduceCtorEq, false_iff, not_and]
    omega

theorem mulSize_eq_ok_iff {a b c : Nat} : mulSize a b = .ok c ↔ c = a * b ∧ c < sizeLimit := by
  unfold mulSize
  generalize a * b = product
  split
  · rw [Except.ok.injEq]
    omega
  · simp only [reduceCtorEq, false_iff, not_and]
    omega

private theorem eq_of_foldlM_mulSize {xs : List Nat} {start product : Nat}
    (h : xs.foldlM mulSize start = .ok product) : product = start * xs.prod := by
  induction xs generalizing start with
  | nil =>
    cases h
    simp
  | cons x xs ih =>
    rw [List.foldlM_cons] at h
    obtain ⟨next, hnext, h⟩ := exists_of_bind_eq_ok h
    rw [ih h, (mulSize_eq_ok_iff.mp hnext).1, List.prod_cons, Nat.mul_assoc]

/-- A product that passed every check is the product. -/
theorem eq_of_productSizes {xs : List Nat} {product : Nat} (h : productSizes xs = .ok product) :
    product = xs.prod := by
  rw [eq_of_foldlM_mulSize h, Nat.one_mul]

private theorem lt_of_foldlM_mulSize {xs : List Nat} {start product : Nat} (hstart : start < sizeLimit)
    (h : xs.foldlM mulSize start = .ok product) : product < sizeLimit := by
  induction xs generalizing start with
  | nil =>
    cases h
    exact hstart
  | cons x xs ih =>
    rw [List.foldlM_cons] at h
    obtain ⟨next, hnext, h⟩ := exists_of_bind_eq_ok h
    exact ih (mulSize_eq_ok_iff.mp hnext).2 h

/-- A product that passed every check is a size. -/
theorem lt_of_productSizes {xs : List Nat} {product : Nat} (h : productSizes xs = .ok product) : product < sizeLimit :=
  lt_of_foldlM_mulSize (by decide) h

private theorem foldlM_mulSize {xs : List Nat} {start : Nat}
    (h : ∀ k, start * (xs.take k).prod < sizeLimit) : xs.foldlM mulSize start = .ok (start * xs.prod) := by
  induction xs generalizing start with
  | nil => simp
  | cons x xs ih =>
    have hx : start * x < sizeLimit := by simpa using h 1
    have hrest : ∀ k, start * x * (xs.take k).prod < sizeLimit := by
      intro k
      have hnext := h (k + 1)
      rwa [List.take_succ_cons, List.prod_cons, ← Nat.mul_assoc] at hnext
    rw [List.foldlM_cons, mulSize_eq_ok hx, ok_bind, ih hrest, List.prod_cons, Nat.mul_assoc]

/-- A product passes every check if no product of the first few sizes is too large. -/
theorem productSizes_eq_ok {xs : List Nat} (h : ∀ k, (xs.take k).prod < sizeLimit) :
    productSizes xs = .ok xs.prod := by
  have hone : ∀ k, 1 * (xs.take k).prod < sizeLimit := by simpa only [Nat.one_mul] using h
  rw [productSizes, foldlM_mulSize hone, Nat.one_mul]

/-- A product of sizes of which none is zero passes every check if it is a size. -/
theorem productSizes_of_pos {xs : List Nat} (hpos : 0 < xs.prod) (hsize : xs.prod < sizeLimit) :
    productSizes xs = .ok xs.prod := by
  refine productSizes_eq_ok fun k => ?_
  have hwhole := List.prod_take_mul_prod_drop xs k
  have hrest : 0 < (xs.drop k).prod := Nat.pos_of_mul_pos_left (hwhole ▸ hpos)
  exact lt_of_le_of_lt ((Nat.le_mul_of_pos_right _ hrest).trans hwhole.le) hsize

private theorem eq_of_foldlM_addSize {xs : List Nat} {start total : Nat}
    (h : xs.foldlM addSize start = .ok total) : total = start + xs.sum := by
  induction xs generalizing start with
  | nil =>
    cases h
    simp
  | cons x xs ih =>
    rw [List.foldlM_cons] at h
    obtain ⟨next, hnext, h⟩ := exists_of_bind_eq_ok h
    rw [ih h, (addSize_eq_ok_iff.mp hnext).1, List.sum_cons, Nat.add_assoc]

/-- A sum that passed every check is the sum. -/
theorem eq_of_sumSizes {xs : List Nat} {total : Nat} (h : sumSizes xs = .ok total) : total = xs.sum := by
  rw [eq_of_foldlM_addSize h, Nat.zero_add]

private theorem foldlM_addSize {xs : List Nat} {start : Nat} (h : start + xs.sum < sizeLimit) :
    xs.foldlM addSize start = .ok (start + xs.sum) := by
  induction xs generalizing start with
  | nil => rfl
  | cons x xs ih =>
    rw [List.sum_cons, ← Nat.add_assoc] at h
    have hx : start + x < sizeLimit := by omega
    rw [List.foldlM_cons, addSize_eq_ok hx, ok_bind, ih h, List.sum_cons, Nat.add_assoc]

/-- A sum that is a size passes the check on every partial sum. -/
theorem sumSizes_eq_ok {xs : List Nat} (h : xs.sum < sizeLimit) : sumSizes xs = .ok xs.sum := by
  have hs : 0 + xs.sum < sizeLimit := by rwa [Nat.zero_add]
  rw [sumSizes, foldlM_addSize hs, Nat.zero_add]

private theorem foldlM_addSize_error {xs : List Nat} {start : Nat} (hstart : start < sizeLimit)
    (h : sizeLimit ≤ start + xs.sum) : xs.foldlM addSize start = .error .addOverflow := by
  induction xs generalizing start with
  | nil =>
    rw [List.sum_nil] at h
    omega
  | cons x xs ih =>
    rw [List.sum_cons, ← Nat.add_assoc] at h
    rw [List.foldlM_cons]
    by_cases hx : start + x < sizeLimit
    · rw [addSize_eq_ok hx, ok_bind]
      exact ih hx h
    · unfold addSize
      rw [if_neg hx]
      rfl

/-- A sum that is no size stops the call. -/
theorem sumSizes_eq_error {xs : List Nat} (h : sizeLimit ≤ xs.sum) : sumSizes xs = .error .addOverflow := by
  apply foldlM_addSize_error (by decide)
  rwa [Nat.zero_add]

private theorem displacementsFrom_eq_ok {xs : List Nat} {start : Nat} (h : start + xs.sum < sizeLimit) :
    displacementsFrom start xs = .ok ((List.range xs.length).map fun i => start + (xs.take i).sum) := by
  induction xs generalizing start with
  | nil => rfl
  | cons x xs ih =>
    rw [List.sum_cons, ← Nat.add_assoc] at h
    have hx : start + x < sizeLimit := by omega
    rw [displacementsFrom, addSize_eq_ok hx, ok_bind, ih h, ok_bind]
    simp [List.range_succ_eq_map, Nat.add_assoc, Function.comp_def]

/-- The places of adjacent blocks: block `i` starts where the blocks before it end. -/
def places (xs : List Nat) : List Nat := (List.range xs.length).map fun i => (xs.take i).sum

/-- Every block has its place. -/
theorem getElem?_places {xs : List Nat} {i x : Nat} (h : xs[i]? = some x) :
    (places xs)[i]? = some (xs.take i).sum := by
  obtain ⟨hi, -⟩ := List.getElem?_eq_some_iff.mp h
  rw [places, List.getElem?_map, List.getElem?_range hi, Option.map_some]

/-- The places of blocks whose total is a size are computed. -/
theorem displacements_eq_ok {xs : List Nat} (h : xs.sum < sizeLimit) :
    displacements xs = .ok (places xs) := by
  have hs : 0 + xs.sum < sizeLimit := by rwa [Nat.zero_add]
  rw [displacements, displacementsFrom_eq_ok hs, places]
  simp only [Nat.zero_add]

private theorem eq_of_displacementsFrom {xs ys : List Nat} {start : Nat} (h : displacementsFrom start xs = .ok ys) :
    ys = (List.range xs.length).map fun i => start + (xs.take i).sum := by
  induction xs generalizing start ys with
  | nil =>
    cases h
    rfl
  | cons x xs ih =>
    rw [displacementsFrom] at h
    obtain ⟨next, hnext, h⟩ := exists_of_bind_eq_ok h
    obtain ⟨zs, hs, h⟩ := exists_of_bind_eq_ok h
    cases h
    rw [ih hs, (addSize_eq_ok_iff.mp hnext).1]
    simp [List.range_succ_eq_map, Nat.add_assoc, Function.comp_def]

/-- Places that were computed are the places. -/
theorem eq_of_displacements {xs ys : List Nat} (h : displacements xs = .ok ys) : ys = places xs := by
  rw [eq_of_displacementsFrom h, places]
  simp only [Nat.zero_add]

/-- There is one place for every block. -/
theorem length_of_displacements {xs ys : List Nat} (h : displacements xs = .ok ys) :
    ys.length = xs.length := by
  rw [eq_of_displacements h, places, List.length_map, List.length_range]

/-- Each of a row of adjacent blocks ends within the row. -/
theorem sum_take_add_le {xs : List Nat} {i x : Nat} (h : xs[i]? = some x) :
    (xs.take i).sum + x ≤ xs.sum := by
  obtain ⟨hi, rfl⟩ := List.getElem?_eq_some_iff.mp h
  rw [← List.sum_take_succ xs i hi, ← List.sum_take_add_sum_drop xs (i + 1)]
  exact Nat.le_add_right _ _

/-! ## Checked steps on a state -/

section Steps

variable {σ : Type}

/-- A step that answers is followed by the rest, on the state it left. -/
theorem run_bind_ok {x : ExceptT ε (StateM σ) α} {f : α → ExceptT ε (StateM σ) β} {s s' : σ} {a : α}
    (h : x.run s = (.ok a, s')) : (x >>= f).run s = (f a).run s' := by
  change (ExceptT.bindCont f (x.run s).1) (x.run s).2 = _
  rw [h]
  rfl

/-- A step that fails ends the whole. -/
theorem run_bind_error {x : ExceptT ε (StateM σ) α} {f : α → ExceptT ε (StateM σ) β} {s s' : σ} {e : ε}
    (h : x.run s = (.error e, s')) : (x >>= f).run s = (.error e, s') := by
  change (ExceptT.bindCont f (x.run s).1) (x.run s).2 = _
  rw [h]
  rfl

/-- Where two steps have an answer, each of them has. -/
theorem exists_of_run_bind {x : ExceptT ε (StateM σ) α} {f : α → ExceptT ε (StateM σ) β} {s s' : σ} {b : β}
    (h : (x >>= f).run s = (.ok b, s')) :
    ∃ a s₁, x.run s = (.ok a, s₁) ∧ (f a).run s₁ = (.ok b, s') := by
  rcases hx : x.run s with ⟨answer, s₁⟩
  cases answer with
  | ok a => exact ⟨a, s₁, rfl, (run_bind_ok hx).symm.trans h⟩
  | error e =>
    rw [run_bind_error hx] at h
    cases h

/-- Naming the answer of a step differently does not change where it leads. -/
theorem run_bind_pure_snd (x : ExceptT ε (StateM σ) α) (g : α → β) (s : σ) :
    ((x >>= fun a => (pure (g a) : ExceptT ε (StateM σ) β)).run s).2 = (x.run s).2 := by
  change ((ExceptT.bindCont (fun a => pure (g a)) (x.run s).1 : StateM σ _) (x.run s).2).2 = _
  cases (x.run s).1 <;> rfl

@[simp] theorem run_get_bind (f : σ → ExceptT ε (StateM σ) β) (s : σ) :
    (get >>= f : ExceptT ε (StateM σ) β).run s = (f s).run s := rfl

@[simp] theorem run_set_bind (f : PUnit → ExceptT ε (StateM σ) β) (s s' : σ) :
    (set s' >>= f : ExceptT ε (StateM σ) β).run s = (f ⟨⟩).run s' := rfl

@[simp] theorem run_modify_bind (change : σ → σ) (f : PUnit → ExceptT ε (StateM σ) β) (s : σ) :
    (modify change >>= f : ExceptT ε (StateM σ) β).run s = (f ⟨⟩).run (change s) := rfl

@[simp] theorem run_pure (a : α) (s : σ) : (pure a : ExceptT ε (StateM σ) α).run s = (.ok a, s) := rfl

@[simp] theorem run_throw (e : ε) (s : σ) : (throw e : ExceptT ε (StateM σ) α).run s = (.error e, s) := rfl

/-- A check that succeeds is passed. -/
theorem run_check_bind {x : Except ε α} {a : α} (h : x = .ok a) (f : α → ExceptT ε (StateM σ) β) (s : σ) :
    ((liftM x : ExceptT ε (StateM σ) α) >>= f).run s = (f a).run s := by
  subst h
  rfl

/-- A check that fails ends the whole. -/
theorem run_check_bind_error {x : Except ε α} {e : ε} (h : x = .error e) (f : α → ExceptT ε (StateM σ) β)
    (s : σ) : ((liftM x : ExceptT ε (StateM σ) α) >>= f).run s = (.error e, s) := by
  subst h
  rfl

end Steps

end Collectives
