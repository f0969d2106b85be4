import Collectives.Memory.FlatLayout
import Collectives.Proofs.Checked

/-!
# What edits do to memory

An edit makes new blocks and writes into old ones; it never takes a block away or changes its size, and no block
it makes is larger than can be addressed. So memory after an edit `Extends` the memory before it, however the
edit ends. `Edit.Keeps` states this of any relation
between memories that is a preorder, step by step. The lemmas that take a checked step of an edit apart stand
here as well, for checks of the library and for checks of sizes.
-/

namespace Collectives

/-- No block is larger than can be addressed. -/
def Heap.Bounded (h : Heap) : Prop := ∀ block, h.blockSize block ≤ blockLimit

/-- A later memory: every block is still there, with the same size, and no new one is too large. -/
structure Heap.Extends (h h' : Heap) : Prop where
  blocks : h.blocks.size ≤ h'.blocks.size
  size : ∀ block, block < h.blocks.size → h'.blockSize block = h.blockSize block
  bounded : h.Bounded → h'.Bounded

namespace Heap

variable {h h' h'' : Heap} {a : Address} {data : Bytes} {block : Nat}

theorem Extends.refl (h : Heap) : h.Extends h := ⟨le_rfl, fun _ _ => rfl, id⟩

theorem Extends.trans (h₁ : h.Extends h') (h₂ : h'.Extends h'') : h.Extends h'' :=
  ⟨h₁.blocks.trans h₂.blocks, fun block hb =>
    (h₂.size block (lt_of_lt_of_le hb h₁.blocks)).trans (h₁.size block hb), h₂.bounded ∘ h₁.bounded⟩

theorem lt_size_of_blockSize_pos (hp : 0 < h.blockSize block) : block < h.blocks.size := by
  by_contra hout
  rw [blockSize, Array.getElem?_eq_none (Nat.le_of_not_lt hout)] at hp
  exact absurd hp (lt_irrefl 0)

/-- What reaches into a block of bytes still does so later. -/
theorem Extends.le_blockSize (hx : h.Extends h') {bytes : Nat} (hpos : 0 < bytes)
    (hb : bytes ≤ h.blockSize block) : bytes ≤ h'.blockSize block := by
  rwa [hx.size block (lt_size_of_blockSize_pos (lt_of_lt_of_le hpos hb))]

/-- A write changes bytes only. -/
theorem extends_write : h.Extends (h.write a data) := by
  refine ⟨?_, fun block _ => blockSize_write .., fun hb block => ?_⟩
  · unfold write
    cases a.block with
    | none => exact le_rfl
    | some block => exact (Array.size_modify ..).ge
  · rw [blockSize_write]
    exact hb block

theorem extends_setWords (width : Nat) (indices words : List Nat) :
    h.Extends (h.setWords block width indices words) := by
  induction indices generalizing h words with
  | nil => exact .refl h
  | cons index indices ih =>
    cases words with
    | nil => exact .refl h
    | cons word words => exact extends_write.trans (ih words)

theorem extends_moveElements {source target width : Nat} (moves : List (Nat × Nat)) :
    h.Extends (h.moveElements source target width moves) := by
  induction moves generalizing h with
  | nil => exact .refl h
  | cons move moves ih => exact extends_write.trans ih

/-- A new block leaves the others as they are. -/
theorem blockSize_push (h : Heap) (bytes : Array UInt8) (block : Nat) :
    Heap.blockSize { blocks := h.blocks.push bytes } block =
      if block = h.blocks.size then bytes.size else h.blockSize block := by
  unfold blockSize
  rw [Array.getElem?_push]
  by_cases hb : block = h.blocks.size
  · rw [if_pos hb, if_pos hb]
  · rw [if_neg hb, if_neg hb]

/-- A new block takes nothing away. -/
theorem extends_push (h : Heap) {bytes : Array UInt8} (hbytes : bytes.size ≤ blockLimit) :
    h.Extends { blocks := h.blocks.push bytes } := by
  refine ⟨?_, fun block hb => ?_, fun hb block => ?_⟩
  · rw [Array.size_push]
    exact Nat.le_succ _
  · rw [blockSize_push, if_neg hb.ne]
  · rw [blockSize_push]
    split
    · exact hbytes
    · exact hb block

end Heap

/-! ## Checked steps of an edit -/

section Steps

variable {α β : Type} {s s' : Store}

/-- A check of sizes that succeeds is passed. -/
theorem run_size_bind {x : Except Fault α} {a : α} (h : x = .ok a) (f : α → Edit β) (s : Store) :
    ((liftM x : Edit α) >>= f).run s = (f a).run s := by
  subst h
  rfl

/-- Where an edit goes on after a check of sizes, the check succeeded. -/
theorem exists_of_size_bind {x : Except Fault α} {f : α → Edit β} {b : β}
    (h : ((liftM x : Edit α) >>= f).run s = (.ok b, s')) :
    ∃ a, x = .ok a ∧ (f a).run s = (.ok b, s') := by
  cases x with
  | ok a => exact ⟨a, rfl, h⟩
  | error e => cases h

/-- Where an edit goes on after a check, the check succeeded. -/
theorem exists_of_check_bind {x : Except Failure α} {f : α → Edit β} {b : β}
    (h : ((liftM x : Edit α) >>= f).run s = (.ok b, s')) :
    ∃ a, x = .ok a ∧ (f a).run s = (.ok b, s') := by
  cases x with
  | ok a => exact ⟨a, rfl, h⟩
  | error e => cases h

/-- Where a check goes on after a check of sizes, the latter succeeded. -/
theorem exists_of_lift_bind {x : Except Fault α} {f : α → Except Failure β} {b : β}
    (h : ((liftM x : Except Failure α) >>= f) = .ok b) : ∃ a, x = .ok a ∧ f a = .ok b := by
  cases x with
  | ok a => exact ⟨a, rfl, h⟩
  | error e => cases h

/-- A check of sizes that succeeds is passed by another check. -/
theorem lift_size_bind {x : Except Fault α} {a : α} (h : x = .ok a) (f : α → Except Failure β) :
    ((liftM x : Except Failure α) >>= f) = f a := by
  subst h
  rfl

/-- A traversal by checks of sizes is a check of sizes. -/
theorem of_run_mapM {f : α → Except Fault β} {xs : List α} {ys : List β}
    (h : (xs.mapM fun x => (liftM (f x) : Edit β)).run s = (.ok ys, s')) : xs.mapM f = .ok ys ∧ s = s' := by
  induction xs generalizing ys with
  | nil =>
    cases h
    exact ⟨rfl, rfl⟩
  | cons x xs ih =>
    rw [List.mapM_cons] at h
    obtain ⟨y, hy, h⟩ := exists_of_size_bind h
    obtain ⟨zs, s₁, hs, h⟩ := exists_of_run_bind h
    cases h
    obtain ⟨hzs, hsame⟩ := ih hs
    refine ⟨?_, hsame⟩
    rw [List.mapM_cons, hy, ok_bind, hzs]
    rfl

theorem of_lift {x : Except Fault α} {a : α} (h : (liftM x : Except Failure α) = .ok a) : x = .ok a :=
  eq_ok_of_mapError h

theorem of_require {condition : Bool} {cause : Violation} {u : Unit} (h : require condition cause = .ok u) :
    condition = true := by
  unfold require at h
  split at h
  · assumption
  · cases h

end Steps

/-! ## Relations that edits keep -/

/-- However the edit ends, memory afterwards stands in the relation to memory before. -/
def Edit.Keeps {α : Type} (R : Heap → Heap → Prop) (x : Edit α) : Prop := ∀ s : Store, R s.heap (x.run s).2.heap

/-- However the edit ends, every block is still there with its size. -/
abbrev Edit.Extends {α : Type} (x : Edit α) : Prop := x.Keeps Heap.Extends

instance : IsPreorder Heap Heap.Extends where
  refl := Heap.Extends.refl
  trans _ _ _ := Heap.Extends.trans

namespace Edit.Keeps

variable {α β : Type} {R : Heap → Heap → Prop}

/-- Memory after an edit that ended in some way. -/
theorem of_run {x : Edit α} (hx : x.Keeps R) {s s' : Store} {answer : Except Failure α}
    (h : x.run s = (answer, s')) : R s.heap s'.heap := by
  have hs := hx s
  rwa [h] at hs

theorem modify {change : Store → Store} (h : ∀ s : Store, R s.heap (change s).heap) :
    Edit.Keeps R (modify change) := h

variable [IsPreorder Heap R]

theorem pure (a : α) : Edit.Keeps R (Pure.pure a) := fun s => refl s.heap

theorem throw (e : Failure) : Edit.Keeps R (throw e : Edit α) := fun s => refl s.heap

theorem check (x : Except Failure α) : Edit.Keeps R (liftM x : Edit α) := fun s => by
  cases x <;> exact refl s.heap

theorem size (x : Except Fault α) : Edit.Keeps R (liftM x : Edit α) := fun s => by
  cases x <;> exact refl s.heap

theorem get : Edit.Keeps R (MonadState.get : Edit Store) := fun s => refl s.heap

/-- What two edits keep is kept by one after the other. -/
theorem bind {x : Edit α} {f : α → Edit β} (hx : x.Keeps R) (hf : ∀ a, Edit.Keeps R (f a)) :
    Edit.Keeps R (x >>= f) := by
  intro s
  have hfirst := hx s
  rcases hrun : x.run s with ⟨answer, s₁⟩
  rw [hrun] at hfirst
  cases answer with
  | ok a =>
    rw [run_bind_ok hrun]
    exact IsTrans.trans _ _ _ hfirst (hf a s₁)
  | error e => rwa [run_bind_error hrun]

theorem mapM {xs : List α} {f : α → Edit β} (hf : ∀ x, (f x).Keeps R) : Edit.Keeps R (xs.mapM f) := by
  induction xs with
  | nil => exact .pure []
  | cons x xs ih =>
    rw [List.mapM_cons]
    exact .bind (hf x) fun y => .bind ih fun ys => .pure _

/-- What an edit keeps, it keeps from an earlier memory on. -/
theorem after {x : Edit α} {h : Heap} {s : Store} (hs : R h s.heap) (hx : x.Keeps R) : R h (x.run s).2.heap :=
  IsTrans.trans _ _ _ hs (hx s)

omit [IsPreorder Heap R] in
/-- What one edit keeps from an earlier memory on, another one goes on to keep. -/
theorem bind_run {x : Edit α} {f : α → Edit β} {h : Heap} {s : Store} (hx : R h (x.run s).2.heap)
    (hf : ∀ a s', x.run s = (.ok a, s') → R h s'.heap → R h ((f a).run s').2.heap) :
    R h ((x >>= f).run s).2.heap := by
  rcases hrun : x.run s with ⟨answer, s'⟩
  rw [hrun] at hx
  cases answer with
  | ok a =>
    rw [run_bind_ok hrun]
    exact hf a s' hrun hx
  | error e => rwa [run_bind_error hrun]

/-- What follows on a check does so on the same state. -/
theorem check_bind_run {x : Except Failure α} {f : α → Edit β} {s : Store}
    (hf : ∀ a, x = .ok a → R s.heap ((f a).run s).2.heap) : R s.heap (((liftM x : Edit α) >>= f).run s).2.heap := by
  cases x with
  | ok a => exact hf a rfl
  | error e => exact refl s.heap

/-- What follows on a check of sizes does so on the same state. -/
theorem size_bind_run {x : Except Fault α} {f : α → Edit β} {s : Store}
    (hf : ∀ a, x = .ok a → R s.heap ((f a).run s).2.heap) : R s.heap (((liftM x : Edit α) >>= f).run s).2.heap := by
  cases x with
  | ok a => exact hf a rfl
  | error e => exact refl s.heap

end Edit.Keeps

/-! ## Edits add to memory -/

/-- A relation that a memory has to any with one more block of zeros. -/
def Heap.KeptByPush (R : Heap → Heap → Prop) : Prop :=
  ∀ (h : Heap) bytes, bytes ≤ blockLimit → R h { blocks := h.blocks.push (Array.replicate bytes 0) }

theorem Heap.keptByPush_extends : Heap.KeptByPush Heap.Extends := by
  intro h bytes hbytes
  apply extends_push
  rwa [Array.size_replicate]

/-- The block that is made comes after all others, and is of zeros. -/
theorem allocate_run {bytes block : Nat} {s s' : Store} (h : (allocate bytes).run s = (.ok block, s')) :
    block = s.heap.blocks.size ∧ s'.heap = { blocks := s.heap.blocks.push (Array.replicate bytes 0) } := by
  unfold allocate at h
  split at h
  · cases h
  · cases h
    exact ⟨rfl, rfl⟩

section Adding

variable {R : Heap → Heap → Prop} [IsPreorder Heap R]

/-- The journal is no part of memory. -/
theorem note_keeps (level : Level) (component : Component) (text : String) : (note level component text).Keeps R :=
  fun s => refl s.heap

theorem allocate_keeps (hR : Heap.KeptByPush R) (bytes : Nat) : (allocate bytes).Keeps R := by
  intro s
  unfold allocate
  split
  · exact refl s.heap
  · rename_i hbytes
    exact hR s.heap bytes (Nat.le_of_not_lt hbytes)

theorem Buffer.zeros_keeps (hR : Heap.KeptByPush R) (dtype : ElementType) (shape : List Nat) :
    (zeros dtype shape).Keeps R :=
  .bind (.size _) fun _ => .bind (.size _) fun _ => .bind (allocate_keeps hR _) fun _ =>
    .bind (.size _) fun _ => .pure _

theorem Buffer.flatLike_keeps (hR : Heap.KeptByPush R) (buffers : List Buffer) : (flatLike buffers).Keeps R := by
  cases buffers with
  | nil => exact .throw _
  | cons first rest => exact zeros_keeps hR _ _

/-- Reconciling buffers makes at most a new block. -/
theorem FlatLayout.reconcile_keeps (hR : Heap.KeptByPush R) (buffers : List Buffer) : (reconcile buffers).Keeps R := by
  cases buffers with
  | nil => exact .throw _
  | cons first rest =>
    have hrest (w : Walk) (region : Buffer) : Edit.Keeps R (do
        note .trace .layout
          s!"flatten: {(first :: rest).length} buffers, {w.running} elements, flat={w.inPlace}"
        return { lengths := w.lengths, region, inPlace := w.inPlace : FlatLayout }) :=
      .bind (note_keeps _ _ _) fun _ => .pure _
    refine .bind (.check _) fun w => ?_
    split
    · exact .bind .get fun s => .bind (.check _) fun region => hrest w region
    · exact .bind (Buffer.zeros_keeps hR _ _) fun region => hrest w region

end Adding

/-! ## Edits extend memory -/

namespace Buffer

open Edit.Keeps (size_bind_run)

theorem zeros_extends (dtype : ElementType) (shape : List Nat) : (zeros dtype shape).Extends :=
  zeros_keeps Heap.keptByPush_extends dtype shape

theorem ofWords_extends (dtype : ElementType) (words shape : List Nat) : (ofWords dtype words shape).Extends := by
  refine .bind (.size _) fun _ => .bind (.check _) fun _ => .bind (zeros_extends _ _) fun b => .bind ?_ fun _ => .pure _
  refine .modify fun s => ?_
  dsimp only
  exact Heap.extends_write

theorem flatLike_extends (buffers : List Buffer) : (flatLike buffers).Extends :=
  flatLike_keeps Heap.keptByPush_extends buffers

theorem fill_extends (b : Buffer) (dtype : ElementType) (words : List Nat) : (b.fill dtype words).Extends :=
  .bind (.check _) fun _ => .bind (.size _) fun _ => .bind (.check _) fun _ =>
    .modify fun s => Heap.extends_setWords (h := s.heap) ..

/-- In whichever way elements are copied, they are written into blocks that are there. -/
theorem copyFrom_extends (target source : Buffer) : (target.copyFrom source).Extends := by
  refine .bind (.check _) fun _ => .bind (.size _) fun _ => .bind (.size _) fun held => .bind (.check _) fun _ => ?_
  split
  · exact .pure _
  · intro s
    rw [run_get_bind]
    refine size_bind_run fun dense _ => size_bind_run fun dense' _ => ?_
    -- Two contiguous buffers are copied in one move, others element by element.
    split
    · refine size_bind_run fun src _ => size_bind_run fun dst _ => size_bind_run fun length _ => ?_
      exact Heap.extends_write
    · exact Heap.extends_moveElements _

end Buffer

namespace FlatLayout

theorem reconcile_extends (buffers : List Buffer) : (reconcile buffers).Extends :=
  reconcile_keeps Heap.keptByPush_extends buffers

theorem copyAll_extends (pairs : List (Buffer × Buffer)) : (copyAll pairs).Extends := by
  induction pairs with
  | nil => exact .pure _
  | cons pair pairs ih => exact .bind (Buffer.copyFrom_extends _ _) fun _ => ih

theorem pack_extends (l : FlatLayout) (buffers : List Buffer) : (l.pack buffers).Extends := by
  unfold pack
  split
  · exact .pure _
  · exact .bind (.check _) fun parts => copyAll_extends _

end FlatLayout

end Collectives
