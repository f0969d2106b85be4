import Collectives.Proofs.Words

/-!
# Reductions of integers

In two's complement an operator on words is the operator on the integers they stand for, brought back into range.
Bringing the partial results back into range can be left to the end (`fold_eq`), so a reduction comes out the same
in whatever order the ranks' elements are taken (`fold_perm`): it is the sum or the product, brought back into range, or
the smallest or the largest (`Reduction.exists_operator`).
-/

namespace Collectives

/-! ## Words and the integers they stand for -/

/-- The integer is one that `width` bytes hold in two's complement. -/
def InRange (width : Nat) (x : Int) : Prop := Int.bmod x (256 ^ width) = x

/-- A word that is made of an integer stands for it, brought back into range. -/
theorem signedValue_wordOfInt (width : Nat) (x : Int) :
    signedValue width (wordOfInt width x) = Int.bmod x (256 ^ width) := by
  have hmodulus : ((Nat.pow 256 width : Nat) : Int) = ((256 ^ width : Nat) : Int) := rfl
  have hpos : (0 : Int) < ((256 ^ width : Nat) : Int) := by positivity
  have hlo : 0 ≤ x % ((256 ^ width : Nat) : Int) := Int.emod_nonneg x hpos.ne'
  have hword : ((wordOfInt width x : Nat) : Int) = x % ((256 ^ width : Nat) : Int) := by
    rw [wordOfInt, hmodulus]
    exact Int.toNat_of_nonneg hlo
  have htwice : 2 * wordOfInt width x < Nat.pow 256 width ↔
      x % ((256 ^ width : Nat) : Int) < (((256 ^ width : Nat) : Int) + 1) / 2 := by omega
  rw [signedValue, Int.bmod_def, hmodulus, hword]
  simp only [htwice]

theorem wordOfInt_lt (width : Nat) (x : Int) : wordOfInt width x < 256 ^ width := by
  have hmodulus : ((Nat.pow 256 width : Nat) : Int) = ((256 ^ width : Nat) : Int) := rfl
  have hpos : (0 : Int) < ((256 ^ width : Nat) : Int) := by positivity
  have hlo := Int.emod_nonneg x hpos.ne'
  have hhi := Int.emod_lt_of_pos x hpos
  rw [wordOfInt, hmodulus]
  omega

theorem wordOfInt_natCast {width word : Nat} (h : word < 256 ^ width) : wordOfInt width word = word := by
  have hmodulus : ((Nat.pow 256 width : Nat) : Int) = ((256 ^ width : Nat) : Int) := rfl
  have hlt : (word : Int) < ((256 ^ width : Nat) : Int) := by exact_mod_cast h
  rw [wordOfInt, hmodulus, Int.emod_eq_of_lt (Int.natCast_nonneg word) hlt, Int.toNat_natCast]

/-- A word stands for itself, brought into range. -/
theorem signedValue_eq {width word : Nat} (h : word < 256 ^ width) :
    signedValue width word = Int.bmod word (256 ^ width) := by
  rw [← signedValue_wordOfInt, wordOfInt_natCast h]

/-- Every word stands for an integer in range. -/
theorem inRange_signedValue {width word : Nat} (h : word < 256 ^ width) : InRange width (signedValue width word) := by
  rw [InRange, signedValue_eq h, Int.bmod_bmod]

/-! ## Folds -/

/-- The operator in two's complement: what leaves the range is brought back into it. -/
def Operator.wrapped (op : Operator) (width : Nat) (a b : Int) : Int := Int.bmod (op.onInt a b) (256 ^ width)

/-- The elements combined one after the other, in two's complement. -/
def Operator.fold (op : Operator) (width : Nat) : List Int → Int
  | [] => 0
  | x :: xs => xs.foldl (op.wrapped width) x

/-- The elements combined one after the other, however large the results become. -/
def Operator.exact (op : Operator) : List Int → Int
  | [] => 0
  | x :: xs => xs.foldl op.onInt x

namespace Operator

variable {op : Operator} {width : Nat} {a b x : Int} {xs ys : List Int}

instance (op : Operator) : Std.Commutative op.onInt where
  comm a b := by
    cases op with
    | sum => exact Int.add_comm a b
    | prod => exact Int.mul_comm a b
    | min => exact Int.min_comm a b
    | max => exact Int.max_comm a b

instance (op : Operator) : Std.Associative op.onInt where
  assoc a b c := by
    cases op with
    | sum => exact Int.add_assoc a b c
    | prod => exact Int.mul_assoc a b c
    | min => exact Int.min_assoc a b c
    | max => exact Int.max_assoc a b c

/-- Whether the operator answers with one of its operands. -/
def Chooses : Operator → Prop
  | .sum | .prod => False
  | .min | .max => True

/-- The smaller or the larger of two integers is one of them. -/
theorem onInt_eq_or (h : op.Chooses) (a b : Int) : op.onInt a b = a ∨ op.onInt a b = b := by
  cases op with
  | sum => exact h.elim
  | prod => exact h.elim
  | min => exact (le_total a b).imp min_eq_left min_eq_right
  | max => exact (le_total b a).imp max_eq_left max_eq_right

/-- Sums and products may be brought back into range before they are continued; a choice need not be. -/
private theorem wrapped_bmod (h : op.Chooses → InRange width a) :
    op.wrapped width (Int.bmod a (256 ^ width)) b = Int.bmod (op.onInt a b) (256 ^ width) := by
  cases op with
  | sum => exact Int.bmod_add_bmod
  | prod => exact Int.bmod_mul_bmod
  | min => rw [h trivial]; rfl
  | max => rw [h trivial]; rfl

private theorem foldl_wrapped (hx : op.Chooses → InRange width x) (hxs : ∀ y ∈ xs, InRange width y) :
    xs.foldl (op.wrapped width) (Int.bmod x (256 ^ width)) = Int.bmod (xs.foldl op.onInt x) (256 ^ width) := by
  -- The invariant of the fold: so far the wrapped result is the exact one, wrapped.
  induction xs generalizing x with
  | nil => rfl
  | cons y xs ih =>
    obtain ⟨hy, hxs⟩ := List.forall_mem_cons.mp hxs
    rw [List.foldl_cons, List.foldl_cons, wrapped_bmod hx]
    refine ih (fun hc => ?_) hxs
    rcases onInt_eq_or hc x y with he | he
    · rw [he]
      exact hx hc
    · rw [he]
      exact hy

/-- It is enough to bring the end result back into range. -/
theorem fold_eq (hxs : ∀ x ∈ xs, InRange width x) : op.fold width xs = Int.bmod (op.exact xs) (256 ^ width) := by
  cases xs with
  | nil => simp [fold, exact]
  | cons x xs =>
    obtain ⟨hx, hxs⟩ := List.forall_mem_cons.mp hxs
    rw [fold, exact, ← foldl_wrapped (fun _ => hx) hxs, hx]

/-- Sums and products of congruent integers are congruent. -/
theorem exact_map_emod {f : Int → Int} {m : Int} (h : ¬op.Chooses) (hf : ∀ x, f x % m = x % m) (xs : List Int) :
    op.exact (xs.map f) % m = op.exact xs % m := by
  have hstep {a b c d : Int} (hab : a % m = b % m) (hcd : c % m = d % m) : op.onInt a c % m = op.onInt b d % m := by
    cases op with
    | sum => exact Int.ModEq.add hab hcd
    | prod => exact Int.ModEq.mul hab hcd
    | min => exact absurd trivial h
    | max => exact absurd trivial h
  have hfold (xs : List Int) {a b : Int} (hab : a % m = b % m) :
      (xs.map f).foldl op.onInt a % m = xs.foldl op.onInt b % m := by
    induction xs generalizing a b with
    | nil => exact hab
    | cons x xs ih => exact ih (hstep hab (hf x))
  cases xs with
  | nil => rfl
  | cons x xs => exact hfold xs (hf x)

theorem exact_cons_cons (x y : Int) (xs : List Int) : op.exact (x :: y :: xs) = op.exact (op.onInt x y :: xs) := rfl

/-- The smallest or the largest of some integers is one of them. -/
theorem exact_mem (h : op.Chooses) (x : Int) (xs : List Int) : op.exact (x :: xs) ∈ x :: xs := by
  induction xs generalizing x with
  | nil => exact List.mem_singleton_self x
  | cons y xs ih =>
    rw [exact_cons_cons]
    rcases List.mem_cons.mp (ih (op.onInt x y)) with hchosen | hrest
    · rw [hchosen]
      rcases onInt_eq_or h x y with he | he
      · rw [he]
        exact List.mem_cons_self
      · rw [he]
        exact List.mem_cons_of_mem x List.mem_cons_self
    · exact List.mem_cons_of_mem x (List.mem_cons_of_mem y hrest)

/-- Against the smallest or the largest of some integers, none of them is chosen. -/
theorem onInt_exact (h : op.Chooses) {y : Int} (hy : y ∈ x :: xs) :
    op.onInt (op.exact (x :: xs)) y = op.exact (x :: xs) := by
  -- What is not below (or above) the choice of two is not below (or above) either.
  have habsorbs {a b c : Int} (habc : op.onInt a (op.onInt b c) = a) : op.onInt a b = a ∧ op.onInt a c = a := by
    cases op with
    | sum => exact h.elim
    | prod => exact h.elim
    | min =>
      simp only [onInt] at habc ⊢
      omega
    | max =>
      simp only [onInt] at habc ⊢
      omega
  induction xs generalizing x y with
  | nil =>
    obtain rfl := List.mem_singleton.mp hy
    rcases onInt_eq_or h y y with he | he
    · exact he
    · exact he
  | cons z xs ih =>
    rw [exact_cons_cons]
    obtain ⟨hx, hz⟩ := habsorbs (ih (x := op.onInt x z) List.mem_cons_self)
    rcases List.mem_cons.mp hy with rfl | hy
    · exact hx
    · rcases List.mem_cons.mp hy with rfl | hy
      · exact hz
      · exact ih (List.mem_cons_of_mem _ hy)

/-- Where all integers are moved by as much, so is the smallest or the largest. -/
theorem exact_map_add (h : op.Chooses) (d x : Int) (xs : List Int) :
    op.exact ((x :: xs).map (· + d)) = op.exact (x :: xs) + d := by
  have hmove (a b : Int) : op.onInt (a + d) (b + d) = op.onInt a b + d := by
    cases op with
    | sum => exact h.elim
    | prod => exact h.elim
    | min => exact min_add_add_right a b d
    | max => exact max_add_add_right a b d
  induction xs generalizing x with
  | nil => rfl
  | cons y xs ih =>
    rw [exact_cons_cons, ← ih, List.map_cons, List.map_cons, List.map_cons, exact_cons_cons, hmove]

/-- The operators do not depend on the order of their operands. -/
theorem exact_perm (h : xs.Perm ys) : op.exact xs = op.exact ys := by
  induction h with
  | nil => rfl
  | cons x h _ => exact h.foldl_op_eq
  | swap x y zs =>
    have hswap : op.onInt y x = op.onInt x y := Std.Commutative.comm y x
    rw [exact, exact, List.foldl_cons, List.foldl_cons, hswap]
  | trans _ _ ih₁ ih₂ => exact ih₁.trans ih₂

/-- Elements in range are reduced to the same in every order. -/
theorem fold_perm (hxs : ∀ x ∈ xs, InRange width x) (h : xs.Perm ys) : op.fold width xs = op.fold width ys := by
  have hys : ∀ y ∈ ys, InRange width y := fun y hy => hxs y (h.mem_iff.mpr hy)
  rw [fold_eq hxs, fold_eq hys, exact_perm h]

theorem exact_sum (x : Int) (xs : List Int) : Operator.sum.exact (x :: xs) = (x :: xs).sum := by
  rw [List.sum_eq_foldl, List.foldl_cons, Int.zero_add]
  rfl

theorem exact_prod (x : Int) (xs : List Int) : Operator.prod.exact (x :: xs) = (x :: xs).prod := by
  rw [List.prod_eq_foldl, List.foldl_cons, Int.one_mul]
  rfl

/-- A choice among integers in range needs not be brought back. -/
theorem fold_eq_exact (h : op.Chooses) (hxs : ∀ y ∈ x :: xs, InRange width y) :
    op.fold width (x :: xs) = op.exact (x :: xs) := by
  rw [fold_eq hxs, hxs _ (exact_mem h x xs)]

end Operator

/-- What a reduction makes of integers of so many bytes: their sum or their product, brought back into range, their
smallest or their largest. There is no other reduction of integers. -/
def Reduction.ofIntegers? (width : Nat) : Reduction → Option (List Int → Int)
  | .sum => some fun xs => xs.sum.bmod (256 ^ width)
  | .product => some fun xs => xs.prod.bmod (256 ^ width)
  | .min => some fun xs => xs.min?.getD 0
  | .max => some fun xs => xs.max?.getD 0
  | .average | .bitwiseAnd | .bitwiseOr | .bitwiseXor => none

/-- The operator of a reduction of integers, applied to one after the other, makes of them what the reduction does. -/
theorem Reduction.exists_operator {how : Reduction} {width : Nat} {total : List Int → Int}
    (htotal : how.ofIntegers? width = some total) :
    ∃ op, how.operator? = some op ∧ ∀ x xs, (∀ y ∈ x :: xs, InRange width y) →
      op.fold width (x :: xs) = total (x :: xs) := by
  cases how with
  | sum =>
    cases htotal
    exact ⟨.sum, rfl, fun x xs hxs => by rw [Operator.fold_eq hxs, Operator.exact_sum]⟩
  | product =>
    cases htotal
    exact ⟨.prod, rfl, fun x xs hxs => by rw [Operator.fold_eq hxs, Operator.exact_prod]⟩
  | min =>
    cases htotal
    have hchooses : Operator.min.Chooses := trivial
    exact ⟨.min, rfl, fun x xs hxs => Operator.fold_eq_exact hchooses hxs⟩
  | max =>
    cases htotal
    have hchooses : Operator.max.Chooses := trivial
    exact ⟨.max, rfl, fun x xs hxs => Operator.fold_eq_exact hchooses hxs⟩
  | average | bitwiseAnd | bitwiseOr | bitwiseXor => cases htotal

/-! ## Elements of a reduction -/

section Elements

variable {h : Heap} {tag : Tag} {op : Operator} {width count k : Nat} {first : Contribution}
  {rest : List Contribution} {word : Contribution → Nat}

/-- An element of a reduction is combined from the ranks' elements at its place. -/
theorem getElem?_reduced (op : Operator)
    (hword : ∀ c ∈ first :: rest, (h.row c.send tag.width count)[k]? = some (word c)) :
    (reduced h tag op count first rest)[k]? =
      some (rest.foldl (fun acc c => combineWord tag op acc (word c)) (word first)) := by
  obtain ⟨hfirst, hrest⟩ := List.forall_mem_cons.mp hword
  rw [reduced]
  generalize h.row first.send tag.width count = row at hfirst
  generalize word first = acc at hfirst
  clear hword
  induction rest generalizing row acc with
  | nil => exact hfirst
  | cons c rest ih =>
    obtain ⟨hc, hrest⟩ := List.forall_mem_cons.mp hrest
    rw [List.foldl_cons, List.foldl_cons]
    refine ih hrest _ _ ?_
    rw [combineWords, List.getElem?_zipWith, hfirst, hc]

/-- Combining two words is combining what they stand for. -/
theorem signedValue_combineInt (width : Nat) (op : Operator) (a b : Nat) :
    signedValue width (combineInt width op a b) = op.wrapped width (signedValue width a) (signedValue width b) :=
  signedValue_wordOfInt width _

/-- Words that are combined as integers stand for the fold of what each stands for. -/
theorem signedValue_foldl :
    signedValue width (rest.foldl (fun acc c => combineInt width op acc (word c)) (word first)) =
      op.fold width ((first :: rest).map fun c => signedValue width (word c)) := by
  rw [List.map_cons, Operator.fold]
  generalize word first = acc
  induction rest generalizing acc with
  | nil => rfl
  | cons c rest ih =>
    rw [List.foldl_cons, List.map_cons, List.foldl_cons, ← signedValue_combineInt]
    exact ih _

/-- A reduction of words in range is in range. -/
theorem foldl_combineInt_lt (op : Operator) (hword : ∀ c ∈ first :: rest, word c < 256 ^ width) :
    rest.foldl (fun acc c => combineInt width op acc (word c)) (word first) < 256 ^ width := by
  have hfirst := hword first List.mem_cons_self
  generalize word first = acc at hfirst
  clear hword
  induction rest generalizing acc with
  | nil => exact hfirst
  | cons c rest ih =>
    rw [List.foldl_cons]
    exact ih _ (wordOfInt_lt width _)

/-- A type whose words are combined as integers. -/
def ElementType.IsInteger (t : ElementType) : Prop := t = .u8 ∨ t = .i8 ∨ t = .i32 ∨ t = .i64

/-- Under the tag of an integer type words are combined in the width of the type. -/
theorem combineWord_of_isInteger {t : ElementType} (ht : t.IsInteger) (htag : t.tag? = some tag) :
    combineWord tag op = combineInt t.width op := by
  rcases ht with rfl | rfl | rfl | rfl
  · cases htag
    rfl
  · cases htag
    rfl
  · cases htag
    rfl
  · cases htag
    rfl

end Elements

end Collectives
