import Collectives.Proofs.Account
import Collectives.Proofs.Locality

/-!
# Interleavings do not matter

Ranks that each submit a fixed sequence of calls, in whatever interleaving, have the collectives of a
communicator performed in the order of their numbers, so the outcome of a whole run is that of performing
them one after the other. Where calls on different communicators touch no byte in common, the order between
communicators makes no difference either.
-/

namespace Collectives

/-- Collectives performed one after the other, with the outcome of each. -/
def performAll : List (List Contribution) → Heap → Except Fault (List CallOutcome × Heap)
  | [], h => return ([], h)
  | cs :: rest, h => do
    let (outcome, h) ← perform cs h
    let (outcomes, h) ← performAll rest h
    return (outcome :: outcomes, h)

/-- Collectives of whole groups are performed without a fault, each with its verdict. -/
theorem performAll_eq_ok {n : Nat} {calls : List (List Contribution)} (hg : ∀ cs ∈ calls, Gathered n cs)
    (h : Heap) : performAll calls h = .ok (calls.map verdict, calls.foldl Heap.after h) := by
  induction calls generalizing h with
  | nil => rfl
  | cons cs rest ih =>
    obtain ⟨hcs, hrest⟩ := List.forall_mem_cons.mp hg
    rw [performAll, perform_eq_ok hcs h, ok_bind]
    dsimp only
    rw [ih hrest (h.after cs)]
    rfl

/-! ## Sequences that differ in the order of independent steps -/

section Order

variable {α β σ : Type} (key : α → β) {f : σ → α → σ} {P : α → Prop}

/-- A step is taken before the steps of other keys as well as after them. -/
theorem foldl_cons_comm
    (hcomm : ∀ x y, P x → P y → key x ≠ key y → ∀ s, f (f s x) y = f (f s y) x) {x : α} (hx : P x)
    {ys : List α} (hys : ∀ y ∈ ys, P y) (hkey : ∀ y ∈ ys, key y ≠ key x) (s : σ) :
    ys.foldl f (f s x) = f (ys.foldl f s) x := by
  induction ys generalizing s with
  | nil => rfl
  | cons y ys ih =>
    obtain ⟨hy, hys⟩ := List.forall_mem_cons.mp hys
    obtain ⟨hk, hkey⟩ := List.forall_mem_cons.mp hkey
    rw [List.foldl_cons, List.foldl_cons, hcomm x y hx hy (Ne.symm hk), ih hys hkey]

/-- Two sequences with the same steps of each key, in the same order, lead to the same state if steps of
different keys can be exchanged. -/
theorem foldl_eq_of_filter_eq [DecidableEq β]
    (hcomm : ∀ x y, P x → P y → key x ≠ key y → ∀ s, f (f s x) y = f (f s y) x) {xs ys : List α}
    (hxs : ∀ x ∈ xs, P x) (hys : ∀ y ∈ ys, P y)
    (h : ∀ k, xs.filter (fun x => key x = k) = ys.filter fun y => key y = k) (s : σ) :
    xs.foldl f s = ys.foldl f s := by
  induction xs generalizing ys s with
  | nil =>
    cases ys with
    | nil => rfl
    | cons y ys =>
      have hy := (List.filter_eq_nil_iff.mp (h (key y)).symm) y List.mem_cons_self
      exact absurd (decide_eq_true rfl) hy
  | cons x xs ih =>
    obtain ⟨hx, hxs⟩ := List.forall_mem_cons.mp hxs
    have hfirst := h (key x)
    rw [List.filter_cons_of_pos (by simp)] at hfirst
    obtain ⟨before, after, rfl, hbefore, -, hafter⟩ := List.filter_eq_cons_iff.mp hfirst.symm
    have hkey : ∀ y ∈ before, key y ≠ key x := fun y hy he => hbefore y hy (decide_eq_true he)
    have hb : ∀ y ∈ before, P y := fun y hy => hys y (List.mem_append_left _ hy)
    have ha : ∀ y ∈ before ++ after, P y := fun y hy =>
      hys y ((List.mem_append.mp hy).elim (List.mem_append_left _)
        fun hy => List.mem_append_right _ (List.mem_cons_of_mem x hy))
    -- Without its first step, every key has the same steps left in both sequences.
    have hrest : ∀ k, xs.filter (fun x => key x = k) = (before ++ after).filter fun y => key y = k := by
      intro k
      have hk := h k
      rw [List.filter_append] at hk ⊢
      by_cases hxk : key x = k
      · have hnone : before.filter (fun y => decide (key y = k)) = [] :=
          List.filter_eq_nil_iff.mpr fun y hy hc => hkey y hy ((of_decide_eq_true hc).trans hxk.symm)
        rw [hnone, List.nil_append, ← hxk]
        exact hafter.symm
      · rwa [List.filter_cons_of_neg (by simpa using hxk), List.filter_cons_of_neg (by simpa using hxk)] at hk
    rw [List.foldl_cons, ih hxs ha hrest, List.foldl_append, List.foldl_append, List.foldl_cons,
      foldl_cons_comm key hcomm hx hb hkey]

end Order

/-! ## Runs of the fabric alone -/

/-- In the schedule only the fabric works on memory. -/
def FabricOnly (turns : List Turn) : Prop := ∀ change, Turn.work change ∉ turns

/-- The schedule submits, for each rank and on each communicator, the given calls in their order. -/
def Submits (n : Nat) (turns : List Turn) (program : Ledger) : Prop :=
  ∀ r < n, ∀ comm, ledger n turns r comm = program r comm

/-- No byte is touched by calls on two communicators. -/
def Ledger.Separate (n : Nat) (program : Ledger) : Prop :=
  ∀ comm comm', comm ≠ comm' → ∀ r < n, ∀ r' < n, ∀ c ∈ program r comm, ∀ c' ∈ program r' comm',
    ∀ block pos, c.Touches r block pos → ¬c'.Touches r' block pos

/-- The full calls of a communicator, by number, as the contributions of all ranks. -/
def Ledger.calls (program : Ledger) (n comm : Nat) : List (List Contribution) :=
  (List.range (program.rounds n comm)).map fun k => program.gathered n (comm, k)

section Runs

variable {n comm : Nat} {store : Store} {turns turns' : List Turn} {effects effects' : List Effect}
  {m m' : Machine Fabric} {program : Ledger}

/-- What ranks of the fabric have issued decides what is gathered and how far they have come. -/
theorem Submits.gathered_eq (hp : Submits n turns program) (call : Nat × Nat) :
    (ledger n turns).gathered n call = program.gathered n call := by
  have hrow : (ledger n turns).row n call = program.row n call :=
    List.map_congr_left fun r hr => by rw [hp r (List.mem_range.mp hr)]
  rw [Ledger.gathered, Ledger.gathered, hrow]

theorem Submits.rounds_eq (hp : Submits n turns program) (comm : Nat) :
    (ledger n turns).rounds n comm = program.rounds n comm := by
  have hlengths : (List.range n).map (fun r => (ledger n turns r comm).length) =
      (List.range n).map fun r => (program r comm).length :=
    List.map_congr_left fun r hr => by rw [hp r (List.mem_range.mp hr)]
  rw [Ledger.rounds, hlengths, Ledger.rounds]

/-- Where only the fabric works on memory, all that happens to memory is that collectives are performed. -/
theorem Fabric.Run.effects_eq (hr : Fabric.Run n store turns effects m) (hw : FabricOnly turns) :
    ∃ calls : List (Nat × Nat), effects = calls.map .performed := by
  induction hr with
  | start => exact ⟨[], rfl⟩
  | @step turns effects m a run admissible ih =>
    obtain ⟨calls, hcalls⟩ := ih fun change h => hw change (List.mem_append_left _ h)
    have hnone : ∀ change, a ≠ .work change :=
      fun change h => hw change (h ▸ List.mem_append_right _ List.mem_cons_self)
    obtain ⟨last, hlast⟩ := Turn.effect_cases m a hnone
    refine ⟨calls ++ last.toList, ?_⟩
    rw [hcalls, hlast, List.map_append]
    cases last <;> rfl

/-- Memory after collectives were performed. -/
theorem heap_foldl_performed (l : Ledger) (calls : List (Nat × Nat)) (store : Store) :
    ((calls.map .performed).foldl (Effect.apply l n) store).heap =
      (calls.map (l.gathered n)).foldl Heap.after store.heap := by
  induction calls generalizing store with
  | nil => rfl
  | cons call calls ih =>
    rw [List.map_cons, List.foldl_cons, ih, List.map_cons, List.foldl_cons]
    congr 1
    simp only [Effect.apply, Fabric.conclude]
    split <;> rfl

/-- The calls of one communicator, among those that were performed. -/
theorem filter_eq_of_performedOn {calls : List (Nat × Nat)} {k : Nat}
    (h : (calls.map Effect.performed).filterMap (Effect.performedOn comm) = List.range k) :
    calls.filter (fun call => call.1 = comm) = (List.range k).map fun i => (comm, i) := by
  rw [← h, List.filterMap_map, List.map_filterMap, ← List.filterMap_eq_filter]
  refine List.filterMap_congr fun call _ => ?_
  obtain ⟨k, i⟩ := call
  by_cases hk : k = comm <;> simp [Effect.performedOn, Option.guard, hk]

theorem Submits.full_iff (hp : Submits n turns program) (call : Nat × Nat) :
    (ledger n turns).Full n call ↔ program.Full n call := by
  refine forall₂_congr fun r hr => ?_
  rw [Ledger.HasIssued, Ledger.HasIssued, hp r hr]

/-- A full call of a program that was submitted is gathered from a whole group. -/
theorem Fabric.Run.group (hn : 0 < n) (hr : Fabric.Run n store turns effects m)
    (hp : Submits n turns program) {call : Nat × Nat} (hf : program.Full n call) :
    Gathered n (program.gathered n call) := by
  rw [← hp.gathered_eq]
  exact ((hp.full_iff call).mpr hf).group hn (hr.invariant hn).coherent.sound

/-- The collectives that a run performs: those of the full calls, each communicator's in the order of their
numbers. Memory is what they make of it, one after the other. -/
theorem Fabric.Run.performed_calls (hn : 0 < n) (hr : Fabric.Run n store turns effects m)
    (hw : FabricOnly turns) (hp : Submits n turns program) :
    ∃ calls : List (Nat × Nat), effects = calls.map .performed ∧
      (∀ comm, calls.filter (fun call => call.1 = comm) =
        (List.range (program.rounds n comm)).map fun k => (comm, k)) ∧
      (∀ call ∈ calls, program.Full n call) ∧
      m.store.heap = (calls.map (program.gathered n)).foldl Heap.after store.heap := by
  have hinv := hr.invariant hn
  obtain ⟨calls, rfl⟩ := hr.effects_eq hw
  refine ⟨calls, rfl, fun comm => ?_, fun call hcall => ?_, ?_⟩
  · rw [← hp.rounds_eq]
    exact filter_eq_of_performedOn (hinv.order comm)
  · rw [← hp.full_iff]
    exact full_of_performed hn hinv.order (List.mem_map_of_mem hcall)
  · rw [hinv.store, heap_foldl_performed]
    congr 1
    exact List.map_congr_left fun call _ => hp.gathered_eq call

/-- Where all calls are on one communicator, they are performed in the order of their numbers. -/
theorem filter_eq_self_of_single (hn : 0 < n) {calls : List (Nat × Nat)}
    (hfull : ∀ call ∈ calls, program.Full n call)
    (hsingle : ∀ r < n, ∀ k, k ≠ comm → program r k = []) :
    calls.filter (fun call => call.1 = comm) = calls := by
  refine List.filter_eq_self.mpr fun call hcall => decide_eq_true ?_
  by_contra hne
  have hissued := hfull call hcall 0 hn
  rw [Ledger.HasIssued, hsingle 0 hn call.1 hne] at hissued
  exact Nat.not_lt_zero _ hissued

/-- Calls on one communicator have no others to touch a byte of. -/
theorem Ledger.Separate.of_single (hsingle : ∀ r < n, ∀ k, k ≠ comm → program r k = []) :
    program.Separate n := by
  intro k k' hne r hr r' hr' c hc c' hc'
  by_cases hk : k = comm
  · rw [hsingle r' hr' k' (hk ▸ hne.symm)] at hc'
    cases hc'
  · rw [hsingle r hr k hk] at hc
    cases hc

/-- Calls on different communicators of a separate program are apart. -/
theorem Ledger.Separate.apart (hs : program.Separate n) {x y : Nat × Nat} (hx : program.Full n x)
    (hy : program.Full n y) (hgx : Gathered n (program.gathered n x)) (hgy : Gathered n (program.gathered n y))
    (hne : x.1 ≠ y.1) : Apart (program.gathered n x) (program.gathered n y) := by
  rintro block pos ⟨r, c, hc, htouch⟩ ⟨r', c', hc', htouch'⟩
  have hr : r < n := hgx.length ▸ (List.getElem?_eq_some_iff.mp hc).1
  have hr' : r' < n := hgy.length ▸ (List.getElem?_eq_some_iff.mp hc').1
  rw [hx.getElem?_gathered hr] at hc
  rw [hy.getElem?_gathered hr'] at hc'
  exact hs x.1 y.1 hne r hr r' hr' c (List.mem_of_getElem? hc) c' (List.mem_of_getElem? hc') block pos
    htouch htouch'

/-- Ranks submit fixed sequences of calls, and only the fabric works on memory. If all calls are on one
communicator, memory and the outcome of every full call are those of performing the calls one after the
other. If the calls of different communicators touch no byte in common, any two interleavings lead to the
same memory. Every request has the same answer whatever the interleaving. -/
theorem Fabric.Run.interleaving (hn : 0 < n) (hr : Fabric.Run n store turns effects m)
    (hw : FabricOnly turns) (hp : Submits n turns program) :
    (∀ comm, (∀ r < n, ∀ k, k ≠ comm → program r k = []) →
      effects = (List.range (program.rounds n comm)).map (fun k => .performed (comm, k)) ∧
        ∃ outcomes, performAll (program.calls n comm) store.heap = .ok (outcomes, m.store.heap) ∧
          outcomes.length = program.rounds n comm ∧
          ∀ rank < n, ∀ k o, outcomes[k]? = some o →
            (requests n turns rank)[k]? = some (comm, k) ∧ Fabric.answer m rank k = Fabric.report o) ∧
      ∀ turns' effects' m', Fabric.Run n store turns' effects' m' → FabricOnly turns' →
        Submits n turns' program →
          (program.Separate n → m'.store.heap = m.store.heap) ∧
            ∀ rank < n, ∀ i i' call, (requests n turns rank)[i]? = some call →
              (requests n turns' rank)[i']? = some call →
                Fabric.answer m' rank i' = Fabric.answer m rank i := by
  obtain ⟨calls, heffects, horder, hfull, hheap⟩ := hr.performed_calls hn hw hp
  have hgroup : ∀ call, program.Full n call → Gathered n (program.gathered n call) :=
    fun call hf => hr.group hn hp hf
  constructor
  · intro comm hsingle
    have hcalls : calls = (List.range (program.rounds n comm)).map fun k => (comm, k) := by
      rw [← horder comm, filter_eq_self_of_single hn hfull hsingle]
    have hg : ∀ cs ∈ program.calls n comm, Gathered n cs := by
      intro cs hcs
      obtain ⟨k, hk, rfl⟩ := List.mem_map.mp hcs
      exact hgroup (comm, k) ((Ledger.lt_rounds_iff hn).mp (List.mem_range.mp hk))
    have hlist : calls.map (program.gathered n) = program.calls n comm := by
      rw [hcalls, List.map_map]
      rfl
    refine ⟨by rw [heffects, hcalls, List.map_map]; rfl, (program.calls n comm).map verdict, ?_, ?_, ?_⟩
    · rw [performAll_eq_ok hg, hheap, hlist]
    · rw [List.length_map, Ledger.calls, List.length_map, List.length_range]
    · intro rank hrank k o ho
      rw [Ledger.calls, List.map_map, List.getElem?_map, Option.map_eq_some_iff] at ho
      obtain ⟨j, hj, rfl⟩ := ho
      obtain ⟨hk, rfl⟩ := List.getElem?_eq_some_iff.mp hj
      rw [List.length_range] at hk
      have hf : program.Full n (comm, k) := (Ledger.lt_rounds_iff hn).mp hk
      have hi : (requests n turns rank)[k]? = some (comm, k) :=
        getElem?_requests_of_single (fun k hk => by rw [hp rank hrank, hsingle rank hrank k hk])
          ((hp.full_iff _).mpr hf rank hrank)
      refine ⟨hi, ?_⟩
      rw [hr.answer_eq hn hrank hi, if_pos ((hp.full_iff _).mpr hf), hp.gathered_eq, List.getElem_range]
      rfl
  · intro turns' effects' m' hr' hw' hp'
    obtain ⟨calls', -, horder', hfull', hheap'⟩ := hr'.performed_calls hn hw' hp'
    constructor
    · intro hs
      rw [hheap, hheap', List.foldl_map, List.foldl_map]
      refine foldl_eq_of_filter_eq Prod.fst (fun x y hx hy hne h => ?_) hfull' hfull (fun comm => ?_) store.heap
      · exact Heap.after_comm (hgroup x hx) (hgroup y hy)
          (hs.apart hx hy (hgroup x hx) (hgroup y hy) hne) h
      · rw [horder, horder']
    · intro rank hrank i i' call hi hi'
      rw [hr.answer_eq hn hrank hi, hr'.answer_eq hn hrank hi', hp.gathered_eq, hp'.gathered_eq]
      simp only [hp.full_iff, hp'.full_iff]

/-! ## Two ranks with a byte each -/

/-- A rank combines the byte that it has for a communicator with the other rank's, in place. -/
def reduceByte (rank comm : Nat) (op : Operator) : Turn :=
  .issue rank comm (.allreduce ⟨some (2 * comm + rank), 0⟩ ⟨some (2 * comm + rank), 0⟩ 1 .char op) {}

/-- The bytes of two ranks, for two communicators. -/
def fourBytes : Store := { heap := { blocks := #[#[100], #[90], #[3], #[4]] } }

/-- The first rank is done before the second one begins. In their second calls they ask for different things. -/
def farAhead : List Turn :=
  [.create 0, .create 1, reduceByte 0 0 .sum, reduceByte 0 0 .max, reduceByte 0 0 .sum, reduceByte 1 0 .sum,
    reduceByte 1 0 .sum, reduceByte 1 0 .sum]

/-- The same calls, with the ranks taking turns. -/
def inTurn : List Turn :=
  [.create 1, .create 0, reduceByte 1 0 .sum, reduceByte 0 0 .sum, reduceByte 0 0 .max, reduceByte 1 0 .sum,
    reduceByte 1 0 .sum, reduceByte 0 0 .sum]

/-- The ranks make one call on each of two communicators. -/
def sideBySide : List Turn :=
  [.create 0, .create 0, .create 1, .create 1, reduceByte 0 0 .sum, reduceByte 0 1 .max, reduceByte 1 0 .sum,
    reduceByte 1 1 .max]

/-- The same calls; the second rank begins on the other communicator. -/
def crossed : List Turn :=
  [.create 0, .create 0, .create 1, .create 1, reduceByte 1 1 .max, reduceByte 0 0 .sum, reduceByte 0 1 .max,
    reduceByte 1 0 .sum]

theorem run_farAhead :
    ∃ m, Fabric.Run 2 fourBytes farAhead [.performed (0, 0), .performed (0, 1), .performed (0, 2)] m :=
  ⟨_, .of_allAdmissible (by decide)⟩

theorem run_inTurn :
    ∃ m, Fabric.Run 2 fourBytes inTurn [.performed (0, 0), .performed (0, 1), .performed (0, 2)] m :=
  ⟨_, .of_allAdmissible (by decide)⟩

theorem run_sideBySide : ∃ m, Fabric.Run 2 fourBytes sideBySide [.performed (0, 0), .performed (1, 0)] m ∧
    m.store.heap.blocks = #[#[190], #[190], #[4], #[4]] :=
  ⟨_, .of_allAdmissible (by decide), rfl⟩

theorem run_crossed : ∃ m, Fabric.Run 2 fourBytes crossed [.performed (1, 0), .performed (0, 0)] m :=
  ⟨_, .of_allAdmissible (by decide)⟩

/-- A rank's call on a communicator touches the byte that the rank has for it, and no other. -/
theorem block_of_sideBySide {r comm block pos : Nat} (hr : r < 2) {c : Contribution}
    (hc : c ∈ ledger 2 sideBySide r comm) (ht : c.Touches r block pos) : block = 2 * comm + r := by
  obtain ⟨hkind, hsend, hrecv⟩ :
      c.kind = .allreduce ∧ c.send.block = some (2 * comm + r) ∧ c.recv = [c.send] := by
    obtain rfl | rfl : r = 0 ∨ r = 1 := by omega
    · match comm with
      | 0 | 1 => exact List.mem_singleton.mp hc ▸ ⟨rfl, rfl, rfl⟩
      | comm + 2 => exact absurd hc List.not_mem_nil
    · match comm with
      | 0 | 1 => exact List.mem_singleton.mp hc ▸ ⟨rfl, rfl, rfl⟩
      | comm + 2 => exact absurd hc List.not_mem_nil
  rcases ht with hsent | hreceived
  · exact Option.some.inj (hsent.1.symm.trans hsend)
  · rw [Contribution.Receives, hkind, hrecv] at hreceived
    obtain ⟨a, ha, hcovers⟩ := hreceived
    rw [List.mem_singleton.mp ha] at hcovers
    exact Option.some.inj (hcovers.1.symm.trans hsend)

/-- The first rank is done with its calls before the second one begins, or the ranks take turns: either way the bytes
are added, then the ranks do not agree, then the sums are added. On two communicators they may also cross. -/
theorem interleaving_farAhead :
    (∃ m m' mismatch, Fabric.Run 2 fourBytes farAhead [.performed (0, 0), .performed (0, 1), .performed (0, 2)] m ∧
      Fabric.Run 2 fourBytes inTurn [.performed (0, 0), .performed (0, 1), .performed (0, 2)] m' ∧
      m.store.heap.blocks = #[#[124], #[124], #[3], #[4]] ∧ m'.store.heap = m.store.heap ∧
      ∀ rank < 2, Fabric.answer m rank 0 = .ok true ∧
        Fabric.answer m rank 1 = .error (.error (.mismatch mismatch)) ∧ Fabric.answer m rank 2 = .ok true ∧
        ∀ k < 3, Fabric.answer m' rank k = Fabric.answer m rank k) ∧
    ∃ m m', Fabric.Run 2 fourBytes sideBySide [.performed (0, 0), .performed (1, 0)] m ∧
      Fabric.Run 2 fourBytes crossed [.performed (1, 0), .performed (0, 0)] m' ∧
      m.store.heap.blocks = #[#[190], #[190], #[4], #[4]] ∧ m'.store.heap = m.store.heap ∧
      Fabric.answer m' 1 0 = Fabric.answer m 1 1 ∧ Fabric.answer m' 1 1 = Fabric.answer m 1 0 := by
  constructor
  · obtain ⟨m, hrun⟩ := run_farAhead
    obtain ⟨m', hrun'⟩ := run_inTurn
    have hw : FabricOnly farAhead := fun change h => by simp [farAhead, reduceByte] at h
    have hw' : FabricOnly inTurn := fun change h => by simp [inTurn, reduceByte] at h
    have hp' : Submits 2 inTurn (ledger 2 farAhead) := by
      intro r hr comm
      obtain rfl | rfl : r = 0 ∨ r = 1 := by omega
      · cases comm <;> rfl
      · cases comm <;> rfl
    have hsingle : ∀ r < 2, ∀ k, k ≠ 0 → ledger 2 farAhead r k = [] := by
      intro r hr k hk
      obtain ⟨k, rfl⟩ := Nat.exists_eq_succ_of_ne_zero hk
      obtain rfl | rfl : r = 0 ∨ r = 1 := by omega
      · rfl
      · rfl
    obtain ⟨hone, htwo⟩ := hrun.interleaving (by decide) hw (fun _ _ _ => rfl)
    obtain ⟨-, outcomes, hall, -, hanswers⟩ := hone 0 hsingle
    obtain ⟨hheap, hsame⟩ := htwo _ _ m' hrun' hw' hp'
    let mismatch : Mismatch := .reduction 1 (some .sum, [1], 0) (some .max, [1], 0)
    have hperformed : performAll ((ledger 2 farAhead).calls 2 0) fourBytes.heap = .ok
        ([none, some mismatch, none], { blocks := #[#[124], #[124], #[3], #[4]] }) := by
      rfl
    rw [hperformed] at hall
    obtain ⟨rfl, hafter⟩ := Prod.mk.inj (Except.ok.inj hall)
    refine ⟨m, m', mismatch, hrun, hrun', congrArg Heap.blocks hafter.symm, hheap (.of_single hsingle),
      fun rank hrank => ?_⟩
    refine ⟨(hanswers rank hrank 0 none rfl).2, (hanswers rank hrank 1 (some mismatch) rfl).2,
      (hanswers rank hrank 2 none rfl).2, fun k hk => ?_⟩
    have hcalls : ∀ rank < 2, ∀ k < 3,
        (requests 2 farAhead rank)[k]? = some (0, k) ∧ (requests 2 inTurn rank)[k]? = some (0, k) := by
      decide
    obtain ⟨hcall, hcall'⟩ := hcalls rank hrank k hk
    exact hsame rank hrank k k (0, k) hcall hcall'
  · obtain ⟨m, hrun, hbytes⟩ := run_sideBySide
    obtain ⟨m', hrun'⟩ := run_crossed
    have hw : FabricOnly sideBySide := fun change h => by simp [sideBySide, reduceByte] at h
    have hw' : FabricOnly crossed := fun change h => by simp [crossed, reduceByte] at h
    have hp' : Submits 2 crossed (ledger 2 sideBySide) := by
      intro r hr comm
      obtain rfl | rfl : r = 0 ∨ r = 1 := by omega
      · match comm with
        | 0 | 1 | comm + 2 => rfl
      · match comm with
        | 0 | 1 | comm + 2 => rfl
    have hs : (ledger 2 sideBySide).Separate 2 := by
      intro comm comm' hne r hr r' hr' c hc c' hc' block pos ht ht'
      have hblock := block_of_sideBySide hr hc ht
      have hblock' := block_of_sideBySide hr' hc' ht'
      omega
    obtain ⟨-, htwo⟩ := hrun.interleaving (by decide) hw (fun _ _ _ => rfl)
    obtain ⟨hheap, hsame⟩ := htwo _ _ m' hrun' hw' hp'
    exact ⟨m, m', hrun, hrun', hbytes, hheap hs, hsame 1 (by decide) 1 0 (1, 0) rfl rfl,
      hsame 1 (by decide) 0 1 (0, 0) rfl rfl⟩

end Runs

end Collectives
