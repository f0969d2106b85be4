import Collectives.Proofs.Dispersal

/-!
# Exchanges of rows

Every rank shares out the rows of its input among all ranks, and receives rows from each into its output, so many as
the split sizes say. If what each rank sends is what the receiver expects, the last call leaves every output with the
blocks for its rank, one after the other in the order of the senders, and no other byte changes; otherwise no byte
changes at all, and every wait fails.
-/

namespace Collectives

/-! ## How rows are planned -/

namespace Buffer

/-- Rows of a buffer. -/
def rows (b : Buffer) : Nat := b.shape.headD 0

/-- Elements of a row. -/
def rowLength (b : Buffer) : Nat := b.shape.tail.prod

/-- Rows for each of `n` ranks: as many as the sizes say, or equal shares where no sizes are given. -/
def shares (b : Buffer) (sizes : List Nat) (n : Nat) : List Nat :=
  if sizes.isEmpty then List.replicate n (b.rows / n) else sizes

variable {b : Buffer} {sizes : List Nat} {n size : Nat}

theorem leadingDim_eq_rows (hdims : b.shape ≠ []) : b.leadingDim = .ok b.rows := by
  obtain ⟨rows, dims, hshape⟩ := List.exists_cons_of_ne_nil hdims
  rw [leadingDim_eq hshape, Buffer.rows, hshape, List.headD_cons]

/-- A buffer with a leading dimension has so many rows. -/
theorem rows_of_leadingDim {rows : Nat} (h : b.leadingDim = .ok rows) : b.shape ≠ [] ∧ rows = b.rows := by
  unfold leadingDim at h
  split at h
  · rename_i hshape
    cases h
    rw [Buffer.rows, hshape]
    exact ⟨List.cons_ne_nil _ _, rfl⟩
  · cases h

theorem count_eq_rows (hdims : b.shape ≠ []) : b.count = b.rows * b.rowLength := by
  obtain ⟨rows, dims, hshape⟩ := List.exists_cons_of_ne_nil hdims
  rw [count, Buffer.rows, rowLength, hshape, List.prod_cons, List.headD_cons, List.tail_cons]

/-- The elements of a share are counted by the length of a row, which is computed only where there are elements. -/
theorem mul_rowLength (hdims : b.shape ≠ []) (hsum : sizes.sum = b.rows) (hsize : size ∈ sizes) :
    (size * if b.count = 0 then 0 else b.count / b.rows) = size * b.rowLength := by
  have hall := count_eq_rows hdims
  split
  · rename_i hzero
    rw [hall, Nat.mul_eq_zero] at hzero
    -- Without rows every size is zero, and without elements in a row so is every product.
    rcases hzero with hzero | hzero
    · have hle := List.le_sum_of_mem hsize
      have hnone : size = 0 := by omega
      rw [hnone, Nat.zero_mul, Nat.zero_mul]
    · rw [hzero]
  · rename_i hne
    have hpos : 0 < b.rows := by
      refine Nat.pos_of_ne_zero fun hzero => hne ?_
      rw [hall, hzero, Nat.zero_mul]
    rw [hall, Nat.mul_div_cancel_left _ hpos]

/-- Equal shares of the elements are equal shares of the rows. -/
theorem count_div (hdims : b.shape ≠ []) (hdvd : n ∣ b.rows) : b.count / n = b.rows / n * b.rowLength := by
  rw [count_eq_rows hdims, Nat.mul_comm, Nat.mul_div_assoc _ hdvd, Nat.mul_comm]

end Buffer

section SplitCounts

variable {b : Buffer} {sizes counts : List Nat} {n : Nat}

/-- Rows that are shared out make up the whole buffer. -/
theorem shares_of_splitCounts (h : splitCounts b sizes n = .ok counts) :
    b.numel = .ok b.count ∧ counts = (b.shares sizes n).map (· * b.rowLength) ∧ counts.length = n ∧
      counts.sum = b.count := by
  obtain ⟨rows, hrows, h⟩ := exists_of_bind_eq_ok h
  obtain ⟨numel, hnumel, h⟩ := exists_of_lift_bind h
  obtain rfl : numel = b.count := eq_of_productSizes hnumel
  obtain ⟨hdims, rfl⟩ := Buffer.rows_of_leadingDim hrows
  have hall := Buffer.count_eq_rows hdims
  refine ⟨hnumel, ?_⟩
  unfold Buffer.shares
  split at h
  · rename_i hempty
    obtain ⟨left, hleft, h⟩ := exists_of_lift_bind h
    obtain ⟨_, hexact, h⟩ := exists_of_bind_eq_ok h
    obtain ⟨_, -, h⟩ := exists_of_lift_bind h
    cases h
    have hrest : n ≠ 0 ∧ b.rows % n = left := by
      unfold remSize at hleft
      split at hleft
      · cases hleft
      · rename_i hne
        exact ⟨hne, Except.ok.inj hleft⟩
    have hdvd : n ∣ b.rows := Nat.dvd_of_mod_eq_zero (hrest.2.trans (eq_of_beq (of_require hexact)))
    rw [if_pos hempty, List.map_replicate, Buffer.count_div hdims hdvd, List.length_replicate, List.sum_replicate,
      smul_eq_mul, ← Nat.mul_assoc, Nat.mul_div_cancel' hdvd, ← hall]
    exact ⟨rfl, rfl, rfl⟩
  · rename_i hsizes
    obtain ⟨_, hlength, h⟩ := exists_of_bind_eq_ok h
    obtain ⟨total, htotal, h⟩ := exists_of_lift_bind h
    obtain ⟨_, hrequire, h⟩ := exists_of_bind_eq_ok h
    have hsum : sizes.sum = b.rows := (eq_of_sumSizes htotal).symm.trans (eq_of_beq (of_require hrequire))
    have hcounts := eq_map_of_mapM (fun _ _ hm => (mulSize_eq_ok_iff.mp (of_lift hm)).1) h
    have hsame : counts = sizes.map (· * b.rowLength) := by
      rw [hcounts]
      exact List.map_congr_left fun size hsize => Buffer.mul_rowLength hdims hsum hsize
    rw [if_neg hsizes]
    refine ⟨hsame, ?_, ?_⟩
    · rw [hsame, List.length_map]
      exact eq_of_beq (of_require hlength)
    · rw [hsame, List.sum_map_mul_right, List.map_id', hsum, hall]

/-- Rows are shared out by one size for each rank if the sizes add up to the rows. -/
theorem splitCounts_of_sizes (hdims : b.shape ≠ []) (hcount : b.numel = .ok b.count) (hn : 0 < n)
    (hlength : sizes.length = n) (hsmall : sizes.sum < sizeLimit) :
    splitCounts b sizes n = if sizes.sum = b.rows then .ok (sizes.map (· * b.rowLength))
      else .error (.error (.validation (.splitTotal sizes.sum b.rows))) := by
  have hsome : sizes.isEmpty = false := by
    rw [List.isEmpty_eq_false_iff, ← List.length_pos_iff, hlength]
    exact hn
  have hmany : require (sizes.length == n) (.splitLength sizes.length n) = .ok () := if_pos (beq_iff_eq.mpr hlength)
  unfold splitCounts
  rw [Buffer.leadingDim_eq_rows hdims, ok_bind, lift_size_bind hcount, hsome, if_neg Bool.false_ne_true, hmany, ok_bind,
    lift_size_bind (sumSizes_eq_ok hsmall)]
  by_cases hsum : sizes.sum = b.rows
  · have htotal : require (sizes.sum == b.rows) (.splitTotal sizes.sum b.rows) = .ok () := if_pos (beq_iff_eq.mpr hsum)
    have hcounts : ∀ size ∈ sizes, (liftM (mulSize size (if b.count = 0 then 0 else b.count / b.rows)) :
        Except Failure Nat) = .ok (size * b.rowLength) := by
      intro size hsize
      -- No share has more elements than the buffer.
      have hin : size * b.rowLength ≤ b.count := by
        rw [Buffer.count_eq_rows hdims, ← hsum]
        exact Nat.mul_le_mul_right _ (List.le_sum_of_mem hsize)
      have hproduct := Buffer.mul_rowLength hdims hsum hsize
      rw [mulSize_eq_ok (hproduct ▸ lt_of_le_of_lt hin (lt_of_productSizes hcount)), hproduct]
      rfl
    rw [htotal, ok_bind, if_pos hsum]
    exact mapM_eq_ok_map hcounts
  · have htotal : require (sizes.sum == b.rows) (.splitTotal sizes.sum b.rows) =
        .error (.error (.validation (.splitTotal sizes.sum b.rows))) := if_neg fun he => hsum (beq_iff_eq.mp he)
    rw [htotal, if_neg hsum]
    rfl

/-- Rows are shared out evenly if they divide, unless no table has an entry for every rank. -/
theorem splitCounts_evenly (hdims : b.shape ≠ []) (hcount : b.numel = .ok b.count) (hn : 0 < n) :
    splitCounts b [] n = if n ∣ b.rows then
        if 8 * n < 9223372036854775808 then .ok (List.replicate n (b.count / n)) else .error (.fault .capacity)
      else .error (.error (.validation (.unevenRows b.rows n))) := by
  have hleft : remSize b.rows n = .ok (b.rows % n) := if_neg hn.ne'
  unfold splitCounts
  rw [Buffer.leadingDim_eq_rows hdims, ok_bind, lift_size_bind hcount, List.isEmpty_nil, if_pos rfl,
    lift_size_bind hleft]
  by_cases hdvd : n ∣ b.rows
  · have heven : require (b.rows % n == 0) (.unevenRows b.rows n) = .ok () :=
      if_pos (beq_iff_eq.mpr (Nat.mod_eq_zero_of_dvd hdvd))
    rw [heven, ok_bind, if_pos hdvd, checkTable]
    split <;> rfl
  · have huneven : require (b.rows % n == 0) (.unevenRows b.rows n) =
        .error (.error (.validation (.unevenRows b.rows n))) :=
      if_neg fun he => hdvd (Nat.dvd_of_mod_eq_zero (beq_iff_eq.mp he))
    rw [huneven, if_neg hdvd]
    rfl

end SplitCounts

namespace Group

/-- An exchange of rows as it was planned. -/
structure PlansRows (g : Group) (output input : Buffer) (splits : Splits) (p : Plan) (x : Exchange) (s s' : Store) :
    Prop where
  operation : p.operation = "alltoall_base"
  inPlace : p.copyOut = none
  send : x.send = input
  recv : x.recv = output
  sendCounts : x.sendCounts = (input.shares splits.input g.size).map (· * input.rowLength)
  recvCounts : x.recvCounts = (output.shares splits.output g.size).map (· * output.rowLength)
  sent : input.Solid s.heap x.sendCounts.sum
  received : output.Solid s.heap x.recvCounts.sum
  asks : p.Asks x g.size s s'
  takes : p.Takes x s s' [(output, x.landing)]

/-- What an exchange of rows is planned as, if sizes are given for one side at least. -/
theorem exists_of_planAlltoallBase {g : Group} {output input : Buffer} {splits : Splits} {p : Plan} {s s' : Store}
    (hsplits : splits.isEven = false) (houtput : output.Sound s.heap) (hinput : input.Sound s.heap)
    (hb : s.heap.Bounded) (h : (g.planAlltoallBase output input splits).run s = (.ok p, s')) :
    ∃ x, g.PlansRows output input splits p x s s' ∧ s'.heap = s.heap := by
  obtain ⟨_, hci, h⟩ := exists_of_check_bind h
  obtain ⟨_, hco, h⟩ := exists_of_check_bind h
  rw [hsplits, if_neg Bool.false_ne_true] at h
  obtain ⟨_, hsame, h⟩ := exists_of_check_bind h
  obtain ⟨sendCounts, hsend, h⟩ := exists_of_check_bind h
  obtain ⟨recvCounts, hrecv, h⟩ := exists_of_check_bind h
  obtain ⟨tag, htag, h⟩ := exists_of_check_bind h
  obtain ⟨_, s₁, hreport, h⟩ := exists_of_run_bind h
  cases h
  obtain ⟨hgiven, hsendCounts, hsendLength, hsendSum⟩ := shares_of_splitCounts hsend
  obtain ⟨hheld, hrecvCounts, hrecvLength, hrecvSum⟩ := shares_of_splitCounts hrecv
  have hsent := Buffer.Solid.of_sound hinput hgiven (checkBuffer_eq_ok hci)
  have hreceived := Buffer.Solid.of_sound houtput hheld (checkBuffer_eq_ok hco)
  rw [← hsendSum] at hsent
  rw [← hrecvSum] at hreceived
  have hheap := report_run hreport
  have htags := tag_eq_ok htag
  let x : Exchange := { send := input, sendCounts, recv := output, recvCounts, tag }
  have hlent : x.Lent g.size s.heap := by
    refine ⟨hsendLength, hrecvLength, ⟨hsent.room, ?_⟩, hreceived.room, htags⟩
    rw [← eq_of_beq (of_require hsame)]
    exact htags
  refine ⟨x, ⟨rfl, rfl, rfl, rfl, hsendCounts, hrecvCounts, hsent, hreceived,
    ⟨rfl, hheap ▸ hlent, hheap ▸ .refl s.heap⟩, ?_⟩, hheap⟩
  refine ⟨fun _ => List.forall_mem_singleton.mpr (hreceived.stretch_whole hb), fun copyOut h => ?_,
    fun block pos hh => ?_⟩
  · cases h
  · exact .inr ⟨_, List.mem_singleton_self _, (hreceived.stretch_whole hb).2 block pos |>.mp hh⟩

end Group

/-! ## Blocks of rows -/

namespace Buffer

/-- Elements of the rows for one of `n` ranks. -/
def shareCount (b : Buffer) (sizes : List Nat) (n rank : Nat) : Nat := (b.shares sizes n).getD rank 0 * b.rowLength

/-- The rows for one of `n` ranks: they come after the rows for the ranks before it. -/
def share (b : Buffer) (sizes : List Nat) (n rank : Nat) (h : Heap) : List Nat :=
  ((b.words h).drop (((b.shares sizes n).take rank).sum * b.rowLength)).take (b.shareCount sizes n rank)

end Buffer

/-- All ranks exchange rows of one type of element, with sizes given for one side at least. What one rank receives into
is apart from what another does; it may be anything else that the rank has, its input too. -/
structure RowCalls (n : Nat) (what : Nat → Collective Buffer) (output input : Nat → Buffer) (splits : Nat → Splits)
    (t : ElementType) : Prop where
  calls : ∀ q < n, what q = .alltoallBase (output q) (input q) (splits q)
  split : ∀ q < n, (splits q).isEven = false
  typed : ∀ q < n, (input q).dtype = t
  apart : ∀ p < n, ∀ q < n, p ≠ q → (output p).Apart (output q)

/-- Every rank receives from each as many elements as that rank sends to it. -/
def RowsMatch (n : Nat) (output input : Nat → Buffer) (splits : Nat → Splits) : Prop :=
  ∀ i < n, ∀ j < n, (input i).shareCount (splits i).input n j = (output j).shareCount (splits j).output n i

/-- What the last call leaves if the rows match, and what the waits for it then find. -/
structure RowsTransposed (n : Nat) (visit : Nat → Visit) (output input : Nat → Buffer) (splits : Nat → Splits)
    (e e' : Engine Fabric) : Prop where
  /-- Every output is the blocks for its rank as the senders have them at that moment, in the order of the senders. -/
  delivered : ∀ j < n, (output j).words e'.machine.store.heap =
    (List.range n).flatMap fun i => (input i).share (splits i).input n j e.machine.store.heap
  elsewhere : ∀ block pos, (∀ q < n, ¬(output q).Holds block pos) →
    e'.machine.store.heap.byte? block pos = e.machine.store.heap.byte? block pos
  waits : ∀ quiet done m, (∀ q < n, ∀ block pos, (output q).Holds block pos → quiet block pos) →
    Dispersal n visit quiet e'.machine done m →
      Dispersal.Succeeds n visit (fun q => [output q]) quiet e.machine.store.heap done m ∧
        ∀ q < n, (output q).words m.store.heap = (output q).words e'.machine.store.heap

/-- What the last call leaves if the rows do not match, and what the waits for it then find. -/
structure RowsRefused (n : Nat) (visit : Nat → Visit) (e e' : Engine Fabric) : Prop where
  kept : e'.machine.store.heap = e.machine.store.heap
  waits : ∀ quiet done m, Dispersal n visit quiet e'.machine done m →
    Dispersal.Fails n visit "alltoall_base" quiet e.machine.store.heap done m

/-- An exchange of rows with sizes given is planned as an exchange. -/
theorem Group.trades_alltoallBase (g : Group) {output input : Buffer} {splits : Splits}
    (hsplits : splits.isEven = false) :
    g.Trades (.alltoallBase output input splits) := by
  intro s s' p hb hs h
  have hinput : input ∈ [output, input] := List.mem_cons_of_mem _ (List.mem_singleton_self input)
  obtain ⟨x, hx, -⟩ := exists_of_planAlltoallBase hsplits (hs output List.mem_cons_self) (hs input hinput) hb h
  exact fun call => hx.asks.trades

namespace Assembly

variable {n comm k r i j : Nat} {group : Nat → Group} {what : Nat → Collective Buffer} {visit : Nat → Visit}
  {arrived : List Nat} {e e' : Engine Fabric} {cs : List Contribution} {x : Nat → Exchange}
  {output input : Nat → Buffer} {splits : Nat → Splits} {t : ElementType}

/-- How the ranks have planned their exchanges of rows: without any new block. -/
structure RowsPlanned (n : Nat) (group : Nat → Group) (visit : Nat → Visit) (output input : Nat → Buffer)
    (splits : Nat → Splits) (x : Nat → Exchange) : Prop where
  plans : ∀ q < n,
    (group q).PlansRows (output q) (input q) (splits q) (visit q).plan (x q) (visit q).found (visit q).planned
  sized : ∀ q < n, (group q).size = n
  same : ∀ q < n, (visit q).planned.heap = (visit q).found.heap

theorem Met.exists_rowsPlanned (hm : Met n group what visit r e e' cs) (hn : 0 < n)
    (hcalls : ∀ q < n, what q = .alltoallBase (output q) (input q) (splits q))
    (hsplit : ∀ q < n, (splits q).isEven = false) :
    ∃ x, RowsPlanned n group visit output input splits x := by
  have hplans : ∀ q < n, ∃ x, (group q).PlansRows (output q) (input q) (splits q) (visit q).plan x (visit q).found
      (visit q).planned ∧ (visit q).planned.heap = (visit q).found.heap := by
    intro q hq
    have hplanned := hm.planned q hq
    have hrun := hplanned.planned
    have hobtained := hplanned.obtained
    rw [hcalls q hq] at hrun hobtained
    have hinput : input q ∈ [output q, input q] := List.mem_cons_of_mem _ (List.mem_singleton_self _)
    exact Group.exists_of_planAlltoallBase (hsplit q hq) (hobtained _ List.mem_cons_self).sound
      (hobtained _ hinput).sound hplanned.bounded hrun
  obtain ⟨x, hx⟩ := exists_family hn hplans
  exact ⟨x, fun q hq => (hx q hq).1, fun q hq => (hm.planned q hq).size, fun q hq => (hx q hq).2⟩

namespace RowsPlanned

variable (hp : RowsPlanned n group visit output input splits x)

include hp

theorem asks : ∀ q < n, (visit q).plan.Asks (x q) n (visit q).found (visit q).planned := by
  intro q hq
  rw [← hp.sized q hq]
  exact (hp.plans q hq).asks

theorem not_made (hq : i < n) (block : Nat) : ¬(visit i).Made block := by
  rintro ⟨hfirst, hlast⟩
  rw [hp.same i hq] at hlast
  omega

theorem sendCounts_getD (hi : i < n) (j : Nat) :
    (x i).sendCounts.getD j 0 = (input i).shareCount (splits i).input n j := by
  have hmap := List.getD_map (l := (input i).shares (splits i).input n) (n := j) (d := 0)
    fun rows => rows * (input i).rowLength
  rw [Nat.zero_mul] at hmap
  rw [(hp.plans i hi).sendCounts, hp.sized i hi]
  exact hmap

theorem recvCounts_getD (hj : j < n) (i : Nat) :
    (x j).recvCounts.getD i 0 = (output j).shareCount (splits j).output n i := by
  have hmap := List.getD_map (l := (output j).shares (splits j).output n) (n := i) (d := 0)
    fun rows => rows * (output j).rowLength
  rw [Nat.zero_mul] at hmap
  rw [(hp.plans j hj).recvCounts, hp.sized j hj]
  exact hmap

/-- The ranks agree exactly if the rows match. -/
theorem agree_iff (hm : Met n group what visit r e e' cs) (hcalls : RowCalls n what output input splits t) :
    Agree cs ↔ RowsMatch n output input splits := by
  have htag : ∀ q < n, t.tag? = some (x q).tag := by
    intro q hq
    rw [← hcalls.typed q hq, ← (hp.plans q hq).send]
    exact (hp.asks q hq).lent.source.tagged
  rw [(hm.trade hp.asks).agree_iff]
  constructor
  · intro h i hi j hj
    rw [← hp.sendCounts_getD hi, ← hp.recvCounts_getD hj]
    exact (h i hi j hj).2
  · intro h i hi j hj
    refine ⟨Option.some.inj ((htag i hi).symm.trans (htag j hj)), ?_⟩
    rw [hp.sendCounts_getD hi, hp.recvCounts_getD hj]
    exact h i hi j hj

/-- The ranks receive into their outputs, and into nothing else. -/
theorem taking (hcalls : RowCalls n what output input splits t) :
    Taking n visit x fun q => [(output q, (x q).landing)] := by
  refine ⟨fun q hq => (hp.plans q hq).takes, fun q _ => List.pairwise_singleton .., ?_, ?_⟩
  · intro p hp q hq hne b hb c hc
    rw [List.mem_singleton.mp hb, List.mem_singleton.mp hc]
    exact hcalls.apart p hp q hq hne
  · intro p hlt q _ b _ block pos _
    exact hp.not_made hlt block

/-- What a rank sends to another is the rows for it. -/
theorem words_sent (hi : i < n) (hb : (visit i).found.heap.Bounded) (h : Heap) :
    ((x i).sent j).words h = (input i).share (splits i).input n j h := by
  have hplans := hp.plans i hi
  have hin := sum_take_add_getD_le (x i).sendCounts j
  have hfirst : ((x i).sendCounts.take j).sum =
      (((input i).shares (splits i).input n).take j).sum * (input i).rowLength := by
    rw [hplans.sendCounts, hp.sized i hi, ← List.map_take, List.sum_map_mul_right, List.map_id']
  rw [Exchange.sent, hplans.send, hplans.sent.words_stretch hb hin, hp.sendCounts_getD hi, hfirst]
  rfl

end RowsPlanned

/-- An exchange of rows that is not the last to be asked for leaves memory as it was. -/
theorem rows_kept (h : Assembly n comm k group what visit arrived e.machine)
    (hcalls : RowCalls n what output input splits t) (hj : Joins n comm k group what visit arrived r e e')
    (hwaits : ∃ q < n, q ≠ r ∧ q ∉ arrived) : e'.machine.store.heap = e.machine.store.heap := by
  obtain ⟨l, hst⟩ := h.standing
  have hplanned := hj.calls.planned
  have hobtained := hj.calls.arrives.obtained
  rw [hj.calls.found, hcalls.calls r hj.rank] at hplanned
  rw [hcalls.calls r hj.rank] at hobtained
  have hinput : input r ∈ [output r, input r] := List.mem_cons_of_mem _ (List.mem_singleton_self _)
  obtain ⟨-, -, hsame⟩ := Group.exists_of_planAlltoallBase (hcalls.split r hj.rank)
    (hobtained _ List.mem_cons_self).sound (hobtained _ hinput).sound hst.round.bounded hplanned
  exact (h.heap_of_waiting hj hwaits).1.trans hsame

/-- In an exchange of rows a rank whose call passes the checks is answered. Until the last rank has come memory stays as
it is; then every output holds the blocks for its rank, if the rows match, and if not memory stays as it is. -/
theorem rows_transposed (h : Assembly n comm k group what visit arrived e.machine) (hr : r < n)
    (hcalls : RowCalls n what output input splits t) :
    ((group r).Passes (what r) comm r e → (group r).AnswersCall (what r) comm r e) ∧
      ∀ e', Joins n comm k group what visit arrived r e e' →
        ((∃ q < n, q ≠ r ∧ q ∉ arrived) → e'.machine.store.heap = e.machine.store.heap) ∧
          ((∀ q < n, q ≠ r → q ∈ arrived) →
            (RowsMatch n output input splits → RowsTransposed n visit output input splits e e') ∧
              (¬RowsMatch n output input splits → RowsRefused n visit e e')) := by
  have hn := Nat.zero_lt_of_lt hr
  have htrades : ∀ q < n, (group q).Trades (what q) := by
    intro q hq
    rw [hcalls.calls q hq]
    exact (group q).trades_alltoallBase (hcalls.split q hq)
  refine ⟨h.answers htrades hr, fun e' hj => ⟨h.rows_kept hcalls hj, fun hlast => ?_⟩⟩
  obtain ⟨cs, hm⟩ := h.exists_met hj hlast
  obtain ⟨x, hp⟩ := hm.exists_rowsPlanned hn hcalls.calls hcalls.split
  have hfound : (visit r).planned.heap = e.machine.store.heap := (hp.same r hr).trans hm.found
  have ht := hp.taking hcalls
  refine ⟨fun hmatch => ?_, fun hdiffer => ?_⟩
  · have ha := (hp.agree_iff hm hcalls).mpr hmatch
    refine ⟨fun j hj => ?_, fun block pos hout => ?_, fun quiet done m hquiet hd => ?_⟩
    · have hlent := (hp.asks j hj).lent
      have hwhole := ((hp.plans j hj).takes.inPlace (hp.plans j hj).inPlace _ (List.mem_singleton_self _)).1
      have hbounded : (visit j).planned.heap.Bounded := (hp.same j hj).symm ▸ (hm.planned j hj).bounded
      rw [hwhole, hlent.words_landing hbounded]
      refine congrArg List.flatten (List.map_congr_left fun i hi => ?_)
      have hi := List.mem_range.mp hi
      rw [hm.words_received ht hp.asks ha hi hj, hp.words_sent hi (hm.planned i hi).bounded, hfound]
    · exact hm.byte?_elsewhere ht hp.asks hr (fun q hq => hp.not_made hq block) fun q hq b hb => by
        rw [List.mem_singleton.mp hb]
        exact hout q hq
    · obtain ⟨hsucceeds, hwords⟩ := hm.dispersal_succeeds ht hp.asks hr ha hd (fun q => [output q])
        (fun q _ b hb => by rw [List.mem_singleton.mp hb]; exact List.mem_singleton_self _)
        (fun q hq b hb => by rw [List.mem_singleton.mp hb]; exact hquiet q hq)
      refine ⟨hsucceeds, fun q hq => ?_⟩
      have hplans := hp.plans q hq
      rw [hwords q hq (.inr hplans.inPlace) _ (List.mem_singleton_self _)]
      exact ((hplans.takes.inPlace hplans.inPlace _ (List.mem_singleton_self _)).1 _).symm
  · have ha : ¬Agree cs := fun ha => hdiffer ((hp.agree_iff hm hcalls).mp ha)
    refine ⟨?_, fun quiet done m hd => ?_⟩
    · rw [hm.performed, ← hfound]
      rcases after_ok hm.gathered (visit r).planned.heap with ⟨-, hsame⟩ | ⟨hagree, -⟩
      · exact hsame
      · exact absurd hagree ha
    · exact hm.dispersal_fails hr ha hd fun q hq => (hp.plans q hq).operation

/-- The first of two ranks keeps one row and sends two, the second sends two and keeps one, both within one buffer. -/
def pairSplits (rank : Nat) : Splits :=
  if rank = 0 then { output := [1, 2], input := [1, 2] } else { output := [2, 1], input := [2, 1] }

/-- Two ranks that exchange rows within their buffers, each two of its three, find what they kept and what they were
sent. -/
theorem rows_transposed_in_place :
    ∃ visit arrived e e' r,
      Assembly 2 0 0 pairGroup (fun q => .alltoallBase (pairPart q 0 3) (pairPart q 0 3) (pairSplits q))
        visit arrived e.machine ∧
      Joins 2 0 0 pairGroup (fun q => .alltoallBase (pairPart q 0 3) (pairPart q 0 3) (pairSplits q))
        visit arrived r e e' ∧
      e.machine.store.heap = pairHeap ∧ (pairPart 0 0 3).words e'.machine.store.heap = [1, 4, 5] ∧
      (pairPart 1 0 3).words e'.machine.store.heap = [2, 3, 6] := by
  let rows (q : Nat) : Buffer := pairPart q 0 3
  let what (q : Nat) : Collective Buffer := .alltoallBase (rows q) (rows q) (pairSplits q)
  have hcalls : RowCalls 2 what rows rows pairSplits .i8 := by
    refine ⟨fun q _ => rfl, fun q hq => ?_, fun q _ => rfl, ?_⟩
    · obtain rfl | rfl : q = 0 ∨ q = 1 := by omega
      · rfl
      · rfl
    · exact fun p _ q _ hne => pairPart_apart (.inl hne)
  have hplans : ∀ q < 2, ∀ s : Store, s.heap = pairHeap → ∃ p call store,
      ((pairGroup q).plan (what q)).run s = (.ok p, store) ∧ p.call = .ok call ∧ store.heap = pairHeap := by
    rintro q hq ⟨_, journal⟩ rfl
    obtain rfl | rfl : q = 0 ∨ q = 1 := by omega
    · exact ⟨_, _, _, rfl, rfl, rfl⟩
    · exact ⟨_, _, _, rfl, rfl, rfl⟩
  have hoperands : ∀ q < 2, ∀ b ∈ (what q).operands, Obtained { heap := pairHeap } b := by
    intro q hq b hmem
    have hsame : b = rows q := by simpa [what, Collective.operands] using hmem
    exact hsame ▸ obtained_pairPart hq (by decide)
  have hmatch : RowsMatch 2 rows rows pairSplits := by
    unfold RowsMatch
    decide
  have hprepared : Prepared 2 pairGroup what fun _ => pairHeap :=
    ⟨pairHeap_bounded, hoperands, fun q _ => rfl, fun q hq => (pairGroup q).trades_alltoallBase (hcalls.split q hq),
      hplans⟩
  obtain ⟨visit, arrived, e, e', r, hassembly, hjoins, hlast, hheap, -⟩ := hprepared.exists_last (by decide)
  obtain ⟨-, hjoined⟩ := hassembly.rows_transposed hjoins.rank hcalls
  obtain ⟨-, hdone⟩ := hjoined e' hjoins
  have hdelivered := ((hdone hlast).1 hmatch).delivered
  rw [hheap] at hdelivered
  refine ⟨visit, arrived, e, e', r, hassembly, hjoins, hheap, ?_, ?_⟩
  · rw [hdelivered 0 (by decide)]
    rfl
  · rw [hdelivered 1 (by decide)]
    rfl

end Assembly

end Collectives
