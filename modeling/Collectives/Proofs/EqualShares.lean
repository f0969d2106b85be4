import Collectives.Proofs.Operands
import Collectives.Proofs.SplitTables

/-!
# Exchanges of equal shares

An exchange of equal shares can be asked for without sizes or with a size for every rank. With sizes the rows of both
sides have to divide. Without them only those of the output are looked at: the input has as many elements, so these
divide too, but they may be cut across its rows.
-/

namespace Collectives

/-- A number of ranks can share out the rows of a buffer equally. -/
structure Buffer.SharesOut (n : Nat) (b : Buffer) : Prop where
  ranked : b.shape ≠ []
  divides : n ∣ b.rows

/-- Equal shares of the rows of both sides, for each of `n` ranks. -/
def Splits.equal (n : Nat) (output input : Buffer) : Splits :=
  { output := List.replicate n (output.rows / n), input := List.replicate n (input.rows / n) }

/-- Both sides of an exchange can be communicated, as elements of one type that substrates know. -/
structure Exchangeable (output input : Buffer) (tag : Tag) : Prop where
  sendable : checkBuffer input = .ok ()
  receivable : checkBuffer output = .ok ()
  typed : output.dtype = input.dtype
  tagged : output.dtype.tag = .ok tag

/-- The arguments of a collective pass the checks that are made before the substrate is entered. -/
def Group.Accepts (g : Group) (what : Collective Buffer) (s : Store) : Prop :=
  ∃ p s', (g.plan what).run s = (.ok p, s')

variable {b output input : Buffer} {g : Group} {tag : Tag} {n : Nat} {s : Store}

/-- The elements of a buffer that can be communicated are counted. -/
theorem numel_of_checkBuffer (h : checkBuffer b = .ok ()) : b.numel = .ok b.count := by
  have hcontiguous := checkBuffer_eq_ok h
  unfold Buffer.isContiguous at hcontiguous
  obtain ⟨numel, hnumel, -⟩ := exists_of_bind_eq_ok hcontiguous
  rwa [Buffer.count, ← eq_of_productSizes hnumel]

theorem Splits.equal_isEven (hn : 0 < n) (output input : Buffer) : (Splits.equal n output input).isEven = false := by
  obtain ⟨m, rfl⟩ := Nat.exists_eq_succ_of_ne_zero hn.ne'
  rfl

/-- The rows of a buffer are shared out by equal sizes exactly if they divide. -/
theorem splitCounts_equal_iff (hcheck : checkBuffer b = .ok ()) (hn : 0 < n) :
    (∃ counts, splitCounts b (List.replicate n (b.rows / n)) n = .ok counts) ↔ b.SharesOut n := by
  have hcount := numel_of_checkBuffer hcheck
  have hsum : (List.replicate n (b.rows / n)).sum = n * (b.rows / n) := by rw [List.sum_replicate, smul_eq_mul]
  have hsmall : (List.replicate n (b.rows / n)).sum < sizeLimit := by
    rw [hsum]
    exact lt_of_le_of_lt (Nat.mul_div_le b.rows n) (Buffer.rows_lt_sizeLimit hcount)
  constructor
  · rintro ⟨counts, hcounts⟩
    obtain ⟨rows, hrows, -⟩ := exists_of_bind_eq_ok hcounts
    obtain ⟨hdims, -⟩ := Buffer.rows_of_leadingDim hrows
    refine ⟨hdims, ?_⟩
    rw [splitCounts_of_sizes hdims hcount hn List.length_replicate hsmall] at hcounts
    split at hcounts
    · rename_i hwhole
      exact ⟨b.rows / n, hwhole.symm.trans hsum⟩
    · cases hcounts
  · rintro ⟨hdims, hdvd⟩
    rw [splitCounts_of_sizes hdims hcount hn List.length_replicate hsmall,
      if_pos (hsum.trans (Nat.mul_div_cancel' hdvd))]
    exact ⟨_, rfl⟩

/-- Equal sizes come to equal counts. -/
theorem Buffer.SharesOut.splitCounts_eq (h : b.SharesOut n) (hcheck : checkBuffer b = .ok ()) (hn : 0 < n) :
    splitCounts b (List.replicate n (b.rows / n)) n = .ok (List.replicate n (b.count / n)) := by
  obtain ⟨counts, hcounts⟩ := (splitCounts_equal_iff hcheck hn).mpr h
  obtain ⟨-, hshares, -, -⟩ := shares_of_splitCounts hcounts
  have hsome : (List.replicate n (b.rows / n)).isEmpty = false := by
    obtain ⟨m, rfl⟩ := Nat.exists_eq_succ_of_ne_zero hn.ne'
    rfl
  rw [Buffer.shares, hsome, if_neg Bool.false_ne_true, List.map_replicate, ← Buffer.count_div h.ranked h.divides]
    at hshares
  rw [hcounts, hshares]

namespace Group

/-! ## The plans -/

private theorem exists_report (g : Group) (text : String) (s : Store) :
    ∃ s', (g.report text).run s = (.ok (), s') ∧ s'.heap = s.heap := ⟨_, rfl, rfl⟩

/-- The call of equal shares without sizes. -/
def evenCall (n : Nat) (output input : Buffer) (tag : Tag) (h : Heap) : Except Fault Call := do
  return .alltoall (← input.address h) (← output.address h) (output.count / n) tag

/-- The call of equal shares with a size for each of them. -/
def equalCall (n : Nat) (output input : Buffer) (tag : Tag) (h : Heap) : Except Fault Call := do
  return .alltoallv (← input.address h) (List.replicate n (input.count / n)) (← output.address h)
    (List.replicate n (output.count / n)) tag

/-- Without sizes, all that is left to fail after the other checks is the type. -/
private theorem plan_evenly_run (hn : 0 < g.size) (hsendable : checkBuffer input = .ok ())
    (hreceivable : checkBuffer output = .ok ()) (htyped : output.dtype = input.dtype)
    (hcount : output.count = input.count) (hshares : output.SharesOut g.size) (s : Store) :
    (g.plan (.alltoallBase output input {})).run s = (do
      let tag ← output.dtype.tag
      g.report s!"alltoall {output.count / g.size} elements per rank"
      let h := (← get).heap
      return {
        operation := "alltoall_base"
        call := evenCall g.size output input tag h
        retained := [input, output] } : Edit Plan).run s := by
  have hheld := numel_of_checkBuffer hreceivable
  have hgiven := numel_of_checkBuffer hsendable
  have hnone : ({} : Splits).isEven = true := rfl
  have hsame : require (output.count == input.count && output.dtype == input.dtype) .unequalBuffers = .ok () := by
    rw [hcount, htyped, beq_self_eq_true, beq_self_eq_true]
    rfl
  have hleft : remSize output.rows g.size = .ok (output.rows % g.size) := if_neg hn.ne'
  have heven : require (output.rows % g.size == 0) (.unevenRows output.rows g.size) = .ok () :=
    if_pos (beq_iff_eq.mpr (Nat.mod_eq_zero_of_dvd hshares.divides))
  change (g.planAlltoallBase output input {}).run s = _
  unfold planAlltoallBase planEven
  rw [run_check_bind hsendable, run_check_bind hreceivable, if_pos hnone, run_size_bind hheld, run_size_bind hgiven,
    run_check_bind hsame, run_check_bind (Buffer.leadingDim_eq_rows hshares.ranked), run_size_bind hleft,
    run_check_bind heven]
  rfl

/-- Nor is there anything else with equal sizes for both sides. -/
private theorem plan_equally_run (hn : 0 < g.size) (hsendable : checkBuffer input = .ok ())
    (hreceivable : checkBuffer output = .ok ()) (htyped : output.dtype = input.dtype)
    (houtput : output.SharesOut g.size) (hinput : input.SharesOut g.size) (s : Store) :
    let sent := Text.numbers (List.replicate g.size (input.count / g.size))
    let received := Text.numbers (List.replicate g.size (output.count / g.size))
    (g.plan (.alltoallBase output input (.equal g.size output input))).run s = (do
      let tag ← output.dtype.tag
      g.report s!"alltoallv send {sent} recv {received}"
      let h := (← get).heap
      return {
        operation := "alltoall_base"
        call := equalCall g.size output input tag h
        retained := [input, output] } : Edit Plan).run s := by
  have htypes : require (output.dtype == input.dtype) (.exchangeTypes input.dtype output.dtype) = .ok () := by
    rw [htyped]
    exact if_pos (beq_self_eq_true _)
  have hsent : splitCounts input (Splits.equal g.size output input).input g.size =
      .ok (List.replicate g.size (input.count / g.size)) := hinput.splitCounts_eq hsendable hn
  have hreceived : splitCounts output (Splits.equal g.size output input).output g.size =
      .ok (List.replicate g.size (output.count / g.size)) := houtput.splitCounts_eq hreceivable hn
  change (g.planAlltoallBase output input (.equal g.size output input)).run s = _
  unfold planAlltoallBase planSplit
  rw [run_check_bind hsendable, run_check_bind hreceivable, Splits.equal_isEven hn, if_neg Bool.false_ne_true,
    run_check_bind htypes, run_check_bind hsent, run_check_bind hreceived]
  rfl

/-- What is planned without sizes. -/
theorem plan_evenly (hn : 0 < g.size) (hx : Exchangeable output input tag) (hcount : output.count = input.count)
    (hshares : output.SharesOut g.size) (s : Store) :
    ∃ s', (g.plan (.alltoallBase output input {})).run s =
      (.ok { operation := "alltoall_base", call := evenCall g.size output input tag s.heap, retained := [input, output] },
        s') ∧ s'.heap = s.heap := by
  obtain ⟨s', hreport, hheap⟩ := g.exists_report s!"alltoall {output.count / g.size} elements per rank" s
  refine ⟨s', ?_, hheap⟩
  rw [plan_evenly_run hn hx.sendable hx.receivable hx.typed hcount hshares, run_check_bind hx.tagged,
    run_bind_ok hreport, run_get_bind, hheap]
  rfl

/-- What is planned with equal sizes for both sides. -/
theorem plan_equally (hn : 0 < g.size) (hx : Exchangeable output input tag) (houtput : output.SharesOut g.size)
    (hinput : input.SharesOut g.size) (s : Store) :
    ∃ s', (g.plan (.alltoallBase output input (.equal g.size output input))).run s =
      (.ok { operation := "alltoall_base", call := equalCall g.size output input tag s.heap, retained := [input, output] },
        s') ∧ s'.heap = s.heap := by
  let sent := Text.numbers (List.replicate g.size (input.count / g.size))
  let received := Text.numbers (List.replicate g.size (output.count / g.size))
  obtain ⟨s', hreport, hheap⟩ := g.exists_report s!"alltoallv send {sent} recv {received}" s
  refine ⟨s', ?_, hheap⟩
  rw [plan_equally_run hn hx.sendable hx.receivable hx.typed houtput hinput, run_check_bind hx.tagged,
    run_bind_ok hreport, run_get_bind, hheap]
  rfl

/-- Buffers that cannot be exchanged are refused in one way, without sizes and with equal ones. -/
theorem plan_refused (hn : 0 < g.size) (htyped : output.dtype = input.dtype) (hcount : output.count = input.count)
    (houtput : output.SharesOut g.size) (hinput : input.SharesOut g.size)
    (hnot : ¬∃ tag, Exchangeable output input tag) :
    ∃ failure, ∀ s, (g.plan (.alltoallBase output input {})).run s = (.error failure, s) ∧
      (g.plan (.alltoallBase output input (.equal g.size output input))).run s = (.error failure, s) := by
  cases hsendable : checkBuffer input with
  | error failure => exact ⟨failure, fun s => ⟨run_check_bind_error hsendable _ s, run_check_bind_error hsendable _ s⟩⟩
  | ok =>
    cases hreceivable : checkBuffer output with
    | error failure =>
      refine ⟨failure, fun s => ⟨?_, ?_⟩⟩
      · exact (run_check_bind hsendable _ s).trans (run_check_bind_error hreceivable _ s)
      · exact (run_check_bind hsendable _ s).trans (run_check_bind_error hreceivable _ s)
    | ok =>
      cases htag : output.dtype.tag with
      | ok tag => exact absurd ⟨tag, hsendable, hreceivable, htyped, htag⟩ hnot
      | error failure =>
        refine ⟨failure, fun s => ⟨?_, ?_⟩⟩
        · rw [plan_evenly_run hn hsendable hreceivable htyped hcount houtput, run_check_bind_error htag]
        · rw [plan_equally_run hn hsendable hreceivable htyped houtput hinput, run_check_bind_error htag]

/-! ## What is accepted -/

/-- Without sizes, the rows of the output have to divide. -/
theorem accepts_evenly_iff (hn : 0 < g.size) : g.Accepts (.alltoallBase output input {}) s ↔
    (∃ tag, Exchangeable output input tag) ∧ output.count = input.count ∧ output.SharesOut g.size := by
  constructor
  · rintro ⟨p, s', h⟩
    obtain ⟨_, hsendable, h⟩ := exists_of_check_bind h
    obtain ⟨_, hreceivable, h⟩ := exists_of_check_bind h
    have hnone : ({} : Splits).isEven = true := rfl
    rw [if_pos hnone] at h
    obtain ⟨held, hheld, h⟩ := exists_of_size_bind h
    obtain ⟨given, hgiven, h⟩ := exists_of_size_bind h
    obtain ⟨_, hsame, h⟩ := exists_of_check_bind h
    obtain ⟨rows, hrows, h⟩ := exists_of_check_bind h
    obtain ⟨left, hleft, h⟩ := exists_of_size_bind h
    obtain ⟨_, heven, h⟩ := exists_of_check_bind h
    obtain ⟨tag, htag, -⟩ := exists_of_check_bind h
    obtain ⟨hcounts, htypes⟩ := Bool.and_eq_true_iff.mp (of_require hsame)
    obtain ⟨hdims, rfl⟩ := Buffer.rows_of_leadingDim hrows
    obtain rfl : held = output.count := eq_of_productSizes hheld
    obtain rfl : given = input.count := eq_of_productSizes hgiven
    have hleft' : remSize output.rows g.size = .ok (output.rows % g.size) := if_neg hn.ne'
    obtain rfl : output.rows % g.size = left := Except.ok.inj (hleft'.symm.trans hleft)
    exact ⟨⟨tag, hsendable, hreceivable, eq_of_beq htypes, htag⟩, eq_of_beq hcounts, hdims,
      Nat.dvd_of_mod_eq_zero (eq_of_beq (of_require heven))⟩
  · rintro ⟨⟨tag, hx⟩, hcount, hshares⟩
    obtain ⟨s', hplan, -⟩ := plan_evenly hn hx hcount hshares s
    exact ⟨_, s', hplan⟩

/-- With equal sizes for both sides, the rows of both have to divide. -/
theorem accepts_equally_iff (hn : 0 < g.size) :
    g.Accepts (.alltoallBase output input (.equal g.size output input)) s ↔
      (∃ tag, Exchangeable output input tag) ∧ output.SharesOut g.size ∧ input.SharesOut g.size := by
  constructor
  · rintro ⟨p, s', h⟩
    obtain ⟨_, hsendable, h⟩ := exists_of_check_bind h
    obtain ⟨_, hreceivable, h⟩ := exists_of_check_bind h
    rw [Splits.equal_isEven hn, if_neg Bool.false_ne_true] at h
    obtain ⟨_, hsame, h⟩ := exists_of_check_bind h
    obtain ⟨sent, hsent, h⟩ := exists_of_check_bind h
    obtain ⟨received, hreceived, h⟩ := exists_of_check_bind h
    obtain ⟨tag, htag, -⟩ := exists_of_check_bind h
    exact ⟨⟨tag, hsendable, hreceivable, eq_of_beq (of_require hsame), htag⟩,
      (splitCounts_equal_iff hreceivable hn).mp ⟨received, hreceived⟩,
      (splitCounts_equal_iff hsendable hn).mp ⟨sent, hsent⟩⟩
  · rintro ⟨⟨tag, hx⟩, houtput, hinput⟩
    obtain ⟨s', hplan, -⟩ := plan_equally hn hx houtput hinput s
    exact ⟨_, s', hplan⟩

/-- An exchange of equal shares passes its checks without sizes exactly if both sides can be communicated, have one type
and as many elements as each other, and the rows of the output divide among the ranks. The elements of the input then
divide as well, but not its rows: with equal sizes for both sides the same exchange passes exactly if these do. -/
theorem equal_shares_checked (g : Group) (output input : Buffer) (s : Store) (hn : 0 < g.size) :
    (g.Accepts (.alltoallBase output input {}) s ↔
      (∃ tag, Exchangeable output input tag) ∧ output.count = input.count ∧ output.SharesOut g.size) ∧
      (g.Accepts (.alltoallBase output input (.equal g.size output input)) s ↔
        (∃ tag, Exchangeable output input tag) ∧ output.SharesOut g.size ∧ input.SharesOut g.size) ∧
      (g.Accepts (.alltoallBase output input {}) s → g.size ∣ input.count ∧
        (g.Accepts (.alltoallBase output input (.equal g.size output input)) s ↔ input.SharesOut g.size)) := by
  refine ⟨accepts_evenly_iff hn, accepts_equally_iff hn, fun haccepted => ?_⟩
  obtain ⟨hx, hcount, hshares⟩ := (accepts_evenly_iff hn).mp haccepted
  constructor
  · rw [← hcount, Buffer.count_eq_rows hshares.ranked]
    exact hshares.divides.mul_right _
  · rw [accepts_equally_iff hn]
    exact ⟨fun h => h.2.2, fun hinput => ⟨hx, hshares, hinput⟩⟩

/-- Two ranks exchange equal shares of one row of four elements, which are received as four rows; a size for the one row
does not let them. -/
theorem equal_shares_of_one_row :
    ∃ (g : Group) (output input : Buffer) (s : Store), g.size = 2 ∧ Obtained s output ∧ Obtained s input ∧
      output.shape = [4] ∧ input.shape = [1, 4] ∧ g.Accepts (.alltoallBase output input {}) s ∧
      ¬g.Accepts (.alltoallBase output input (.equal g.size output input)) s := by
  let g : Group := { comm := { number := 1, rank := 0, size := 2, vector := true }, mode := .flat }
  let output : Buffer := { block := 0, dtype := .i32, shape := [4], strides := [1], offset := 0 }
  let input : Buffer := { block := 1, dtype := .i32, shape := [1, 4], strides := [4, 1], offset := 0 }
  let s₀ : Store := { heap := { blocks := #[Array.replicate 16 0] } }
  let s : Store := { heap := { blocks := #[Array.replicate 16 0, Array.replicate 16 0] } }
  have houtput : (Buffer.zeros .i32 [4]).run {} = (.ok output, s₀) := rfl
  have hinput : (Buffer.zeros .i32 [1, 4]).run s₀ = (.ok input, s) := rfl
  have hlater := (Buffer.zeros_extends .i32 [1, 4]).of_run hinput
  have hsize : 0 < g.size := by decide
  obtain ⟨heven, -, hequal⟩ := g.equal_shares_checked output input s hsize
  have haccepted : g.Accepts (.alltoallBase output input {}) s := by
    refine heven.mpr ⟨⟨.int, rfl, rfl, rfl, rfl⟩, rfl, ?_, ?_⟩
    · decide
    · decide
  refine ⟨g, output, input, s, rfl, .later (.zeros houtput) hlater, .zeros hinput, rfl, rfl, haccepted, ?_⟩
  rw [(hequal haccepted).2]
  rintro ⟨-, hdvd⟩
  exact absurd hdvd (by decide)

end Group

end Collectives
