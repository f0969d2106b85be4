import Collectives.Proofs.Reduction
import Collectives.Proofs.Rounds

/-!
# Rounds of reductions

In a round of reductions every rank contributes a buffer of its own, in place. The last call leaves the combined
elements with all ranks, or with the root, and changes no other byte. For integers the result is the fold of what the
ranks hold, the same in whatever order they are taken.
-/

namespace Collectives

/-- What a rank contributes to a reduction in place. -/
def Contribution.reduction (a : Address) (count : Nat) (tag : Tag) (op : Operator) : Option Nat → Contribution
  | none => { kind := .allreduce, tag, send := a, recv := [a], sendCounts := [count], op := some op }
  | some root => { kind := .reduce, tag, send := a, recv := [a], sendCounts := [count], root, op := some op }

/-- The rank gets the result of a reduction to the root, or to all ranks. -/
def GetsResult (root : Option Nat) (rank : Nat) : Prop := root = none ∨ root = some rank

/-- Every rank has a buffer of one type and size, and no byte of one is a byte of another. -/
structure OwnBuffers (n : Nat) (buffer : Nat → Buffer) (t : ElementType) (count : Nat) : Prop where
  typed : ∀ q < n, (buffer q).dtype = t
  counted : ∀ q < n, (buffer q).numel = .ok count
  apart : ∀ p < n, ∀ q < n, p ≠ q → ∀ block pos, (buffer p).Holds block pos → ¬(buffer q).Holds block pos

section Contributions

variable {n count : Nat} {a : Address} {tag : Tag} {op : Operator} {root : Option Nat} {c : Contribution}

/-- A reduction passes the checks at issue if its root is a rank. -/
theorem Fabric.contribution_reduction (hroot : ∀ r, root = some r → r < n) :
    Fabric.contribution n (.reduction a count tag op root) = .ok (.reduction a count tag op root) := by
  cases root with
  | none => rfl
  | some r =>
    have hcheck : Fabric.checkRoot n r = .ok () := if_pos (hroot r rfl)
    change (Fabric.checkRoot n r >>= fun _ => _) = _
    rw [hcheck]
    rfl

/-- A reduction that passed the checks at issue is contributed as it was called. -/
theorem Fabric.of_contribution_reduction (h : Fabric.contribution n (.reduction a count tag op root) = .ok c) :
    c = .reduction a count tag op root ∧ ∀ r, root = some r → r < n := by
  cases root with
  | none =>
    cases h
    exact ⟨rfl, fun r hr => by cases hr⟩
  | some r =>
    obtain ⟨_, hcheck, h⟩ := exists_of_bind_eq_ok h
    cases h
    refine ⟨rfl, fun r' hr => ?_⟩
    cases hr
    by_contra hout
    have hrefused : Fabric.checkRoot n r = .error (.error (.rootRange r n)) := if_neg hout
    rw [hrefused] at hcheck
    cases hcheck

/-- What a rank has contributed to a reduction of a buffer. -/
theorem Contributes.of_reduction {g : Group} {b : Buffer} {how : Reduction} {h : Heap}
    (hc : Contributes n g (.reduction b how root) h c) :
    ∃ a count tag op, c = .reduction a count tag op root ∧ g.Reduces b how root count tag op ∧ b.Sound h ∧
      (0 < count → a = b.place b.offset) ∧ ∀ r, root = some r → r < n := by
  obtain ⟨s, s', p, call, hobtained, hplan, hcall, hcontribution, hx⟩ := hc
  obtain ⟨count, tag, op, hreduces⟩ := Group.exists_of_plan_reduction hplan
  obtain ⟨p', s₁, hrun, hheap, -, -, hplanned⟩ := hreduces.plan_run s
  rw [hrun] at hplan
  cases hplan
  rw [hplanned] at hcall
  have hb : Obtained s b := by
    refine hobtained b ?_
    cases root with
    | none => exact List.mem_singleton_self b
    | some r => exact List.mem_singleton_self b
  have hsound := hb.sound
  rw [hheap] at hx
  cases haddress : b.address s.heap with
  | error cause =>
    rw [haddress] at hcall
    cases hcall
  | ok a =>
    rw [haddress] at hcall
    cases hcall
    obtain ⟨rfl, hroot⟩ := Fabric.of_contribution_reduction hcontribution
    refine ⟨a, count, tag, op, rfl, hreduces, hsound.later hx, fun hpos => ?_, hroot⟩
    have hroom := Buffer.Room.of_sound hsound hreduces.counted (checkBuffer_eq_ok hreduces.checked)
    exact Buffer.address_eq hroom hpos haddress

end Contributions

/-! ## What a reduction makes of memory -/

section Gathered

variable {n count : Nat} {tag : Tag} {op : Operator} {root : Option Nat} {a : Nat → Address}

/-- Ranks that contribute to one reduction agree. -/
theorem agree_reduction :
    Agree ((List.range n).map fun q => Contribution.reduction (a q) count tag op root) := by
  intro i j c d hc hd
  obtain ⟨p, -, rfl⟩ := List.mem_map.mp (List.mem_of_getElem? hc)
  obtain ⟨q, -, rfl⟩ := List.mem_map.mp (List.mem_of_getElem? hd)
  cases root with
  | none => exact ⟨rfl, rfl, rfl, rfl, rfl⟩
  | some r => exact ⟨rfl, rfl, rfl, rfl, rfl⟩

/-- A reduction delivers the combined elements to every rank that gets the result. -/
theorem after_reduction {first : Contribution} {rest : List Contribution} {h : Heap}
    (hcs : ((List.range n).map fun q => Contribution.reduction (a q) count tag op root) = first :: rest)
    (hg : Gathered n (first :: rest)) (hroot : ∀ r, root = some r → r < n) :
    ∃ ds, h.after (first :: rest) = h.deliver ds ∧ ∀ d, d ∈ ds ↔ ∃ q < n, GetsResult root q ∧
      d = (a q, Bytes.ofWords tag.width (reduced h tag op count first rest)) := by
  have hagree : Agree (first :: rest) := hcs ▸ agree_reduction
  have hfirst : ∃ q < n, first = .reduction (a q) count tag op root := by
    have hmem : first ∈ (List.range n).map fun q => Contribution.reduction (a q) count tag op root := by
      rw [hcs]
      exact List.mem_cons_self
    obtain ⟨q, hq, he⟩ := List.mem_map.mp hmem
    exact ⟨q, List.mem_range.mp hq, he.symm⟩
  obtain ⟨q₀, -, hfirst⟩ := hfirst
  rcases after_ok hg h with ⟨hdis, -⟩ | ⟨-, ds, hds, hafter, -⟩
  · exact absurd hagree hdis
  refine ⟨ds, hafter, fun d => ?_⟩
  have htag : first.tag = tag := by rw [hfirst]; cases root <;> rfl
  have hop : first.op = some op := by rw [hfirst]; cases root <;> rfl
  have hcount : first.sendCounts = [count] := by rw [hfirst]; cases root <;> rfl
  have hbytes : count * first.tag.width < sizeLimit := by
    have hsent := (hg.fits first List.mem_cons_self).sent
    rwa [hcount, List.sum_singleton] at hsent
  have hreduction : deliveries h (first :: rest) = reductionDeliveries h first rest := by
    rw [hfirst]
    cases root <;> rfl
  rw [hreduction, reductionDeliveries_eq hop hcount hbytes, htag] at hds
  dsimp only at hds
  generalize Bytes.ofWords tag.width (reduced h tag op count first rest) = data at hds ⊢
  cases root with
  | none =>
    have hkind : first.kind = .allreduce := by rw [hfirst]; rfl
    rw [if_pos hkind, ← hcs, mapM_eq_ok_map (g := fun c => (c.send, data))] at hds
    · cases hds
      rw [List.map_map, List.mem_map]
      constructor
      · rintro ⟨q, hq, rfl⟩
        exact ⟨q, List.mem_range.mp hq, .inl rfl, rfl⟩
      · rintro ⟨q, hq, -, rfl⟩
        exact ⟨q, List.mem_range.mpr hq, rfl⟩
    · intro c hc
      obtain ⟨q, -, rfl⟩ := List.mem_map.mp hc
      exact deliver_eq_ok rfl data
  | some r =>
    have hkind : first.kind ≠ .allreduce := by rw [hfirst]; exact fun h => by cases h
    have hfirstRoot : first.root = r := by rw [hfirst]; rfl
    have hentry : (first :: rest)[r]? = some (.reduction (a r) count tag op (some r)) := by
      rw [← hcs, List.getElem?_map, List.getElem?_range (hroot r rfl), Option.map_some]
    rw [if_neg hkind, hfirstRoot, entry_eq_ok hentry, ok_bind, deliver_eq_ok rfl data] at hds
    cases hds
    rw [List.mem_singleton]
    constructor
    · rintro rfl
      exact ⟨r, hroot r rfl, .inr rfl, rfl⟩
    · rintro ⟨q, -, hgets, rfl⟩
      rcases hgets with h | h
      · cases h
      · cases h
        rfl

end Gathered

/-- What all ranks contribute to a reduction, each from its own buffer. -/
structure Reducing (n : Nat) (buffer : Nat → Buffer) (t : ElementType) (count : Nat) (tag : Tag) (root : Option Nat)
    (a : Nat → Address) (h : Heap) : Prop where
  own : OwnBuffers n buffer t count
  tagged : t.tag? = some tag
  rooted : ∀ r, root = some r → r < n
  placed : ∀ q < n, 0 < count → a q = (buffer q).place (buffer q).offset
  sound : ∀ q < n, (buffer q).Sound h
  contiguous : ∀ q < n, (buffer q).isContiguous = .ok true

namespace Reducing

variable {n count q k : Nat} {buffer : Nat → Buffer} {t : ElementType} {tag : Tag} {op : Operator} {root : Option Nat}
  {a : Nat → Address} {h h' : Heap} {first : Contribution} {rest : List Contribution}

theorem width_eq (hr : Reducing n buffer t count tag root a h) (hq : q < n) : (buffer q).dtype.width = tag.width := by
  rw [hr.own.typed q hq, ElementType.width_of_tag? hr.tagged]

theorem words_eq (hr : Reducing n buffer t count tag root a h) (hq : q < n) (hpos : 0 < count) (h' : Heap) :
    (buffer q).words h' = h'.row (a q) tag.width count := by
  rw [hr.placed q hq hpos, ← hr.width_eq hq]
  exact Buffer.words_eq_row (hr.sound q hq).ranked (hr.own.counted q hq) (hr.contiguous q hq)

/-- The bytes that a rank contributes are those of its buffer. -/
theorem holds_iff (hr : Reducing n buffer t count tag root a h) (hq : q < n) (hpos : 0 < count) {block pos : Nat} :
    (buffer q).Holds block pos ↔ (a q).Covers (count * tag.width) block pos := by
  rw [hr.placed q hq hpos, ← hr.width_eq hq]
  exact Buffer.holds_iff_covers (hr.sound q hq).ranked (hr.own.counted q hq) (hr.contiguous q hq)

theorem encloses (hr : Reducing n buffer t count tag root a h) (hq : q < n) (hpos : 0 < count) :
    (a q).block = some (buffer q).block ∧ (a q).pos + count * tag.width ≤ h.blockSize (buffer q).block := by
  have hroom := (hr.sound q hq).contiguous_inside (hr.own.counted q hq) (hr.contiguous q hq) hpos
  rw [hr.placed q hq hpos, ← hr.width_eq hq]
  rw [Nat.add_mul] at hroom
  exact ⟨rfl, hroom⟩

/-- The deliveries of a reduction touch the buffers of the ranks that get the result, and nothing else. -/
theorem byte?_after (hr : Reducing n buffer t count tag root a h)
    (hcs : ((List.range n).map fun q => Contribution.reduction (a q) count tag op root) = first :: rest)
    (hg : Gathered n (first :: rest)) {block pos : Nat}
    (hout : ∀ q < n, GetsResult root q → ¬(buffer q).Holds block pos) :
    (h.after (first :: rest)).byte? block pos = h.byte? block pos := by
  obtain ⟨ds, hafter, hds⟩ := after_reduction (h := h) hcs hg hr.rooted
  rw [hafter]
  refine Heap.byte?_deliver_of_not_covers fun d hd hcov => ?_
  obtain ⟨q, hq, hgets, rfl⟩ := (hds d).mp hd
  dsimp only at hcov
  rw [length_ofWords, length_reduced] at hcov
  have hpos : 0 < count := by
    refine Nat.pos_of_ne_zero fun hzero => ?_
    obtain ⟨-, hlo, hhi⟩ := hcov
    rw [hzero, Nat.zero_mul] at hhi
    omega
  exact hout q hq hgets ((hr.holds_iff hq hpos).mpr hcov)

/-- A rank that gets the result finds the combined words in its buffer. -/
theorem words_after (hr : Reducing n buffer t count tag root a h)
    (hcs : ((List.range n).map fun q => Contribution.reduction (a q) count tag op root) = first :: rest)
    (hg : Gathered n (first :: rest)) (hq : q < n) (hgets : GetsResult root q) (hpos : 0 < count) :
    (buffer q).words (h.after (first :: rest)) =
      (reduced h tag op count first rest).map (· % 256 ^ tag.width) := by
  obtain ⟨ds, hafter, hds⟩ := after_reduction (h := h) hcs hg hr.rooted
  have hlength : (reduced h tag op count first rest).length = count := length_reduced ..
  have hbytes : (Bytes.ofWords tag.width (reduced h tag op count first rest)).length = count * tag.width := by
    rw [length_ofWords, hlength]
  obtain ⟨hblock, hinside⟩ := hr.encloses hq hpos
  have hread : (h.after (first :: rest)).read (a q) (count * tag.width) =
      Bytes.ofWords tag.width (reduced h tag op count first rest) := by
    rw [hafter, ← hbytes]
    refine Heap.read_deliver ((hds _).mpr ⟨q, hq, hgets, rfl⟩) ⟨hblock, hbytes ▸ hinside⟩ ?_
    intro d hd block pos hmine hother
    obtain ⟨p, hp, -, rfl⟩ := (hds d).mp hd
    rw [hbytes] at hmine
    dsimp only at hother
    rw [hbytes] at hother
    -- Only one rank holds the byte.
    by_cases hpq : p = q
    · rw [hpq]
    · have hholds := (hr.holds_iff hq hpos).mpr hmine
      exact absurd hholds (hr.own.apart p hp q hq hpq block pos ((hr.holds_iff hp hpos).mpr hother))
  have hread' : (h.after (first :: rest)).read (a q) ((reduced h tag op count first rest).length * tag.width) =
      Bytes.ofWords tag.width (reduced h tag op count first rest) := by
    rw [hlength]
    exact hread
  have hrow := Heap.row_of_read hread'
  rw [hlength] at hrow
  rw [hr.words_eq hq hpos, hrow]

end Reducing

/-- The words of a row are words of their width. -/
theorem Heap.getElem?_row_lt {h : Heap} {a : Address} {width count k word : Nat}
    (hk : (h.row a width count)[k]? = some word) : word < 256 ^ width := by
  obtain ⟨i, -, rfl⟩ := List.mem_map.mp (List.mem_of_getElem? hk)
  have hlength := h.length_read_le (a.advance (i * width)) width
  exact lt_of_lt_of_le (Bytes.toWord_lt _) (Nat.pow_le_pow_right (by omega) hlength)

/-- The integer that a word of a buffer stands for in two's complement. -/
def Buffer.signed (b : Buffer) (h : Heap) (k : Nat) : Int := signedValue b.dtype.width ((b.words h).getD k 0)

/-- A rank that gets the result of a reduction of integers finds in each of its elements the fold of the elements that
the ranks held there. -/
theorem Reducing.signed_after {n count q k : Nat} {buffer : Nat → Buffer} {t : ElementType} {tag : Tag}
    {op : Operator} {root : Option Nat} {a : Nat → Address} {h : Heap} {first : Contribution}
    {rest : List Contribution} (hr : Reducing n buffer t count tag root a h) (ht : t.IsInteger)
    (hcs : ((List.range n).map fun q => Contribution.reduction (a q) count tag op root) = first :: rest)
    (hg : Gathered n (first :: rest)) (hq : q < n) (hgets : GetsResult root q) (hk : k < count) :
    (buffer q).signed (h.after (first :: rest)) k =
      op.fold t.width ((List.range n).map fun p => (buffer p).signed h k) := by
  have hpos : 0 < count := Nat.zero_lt_of_lt hk
  have hwidth : tag.width = t.width := ElementType.width_of_tag? hr.tagged
  have hword : ∀ c ∈ first :: rest, (h.row c.send tag.width count)[k]? =
      some ((h.row c.send tag.width count).getD k 0) := by
    intro c _
    have hin : k < (h.row c.send tag.width count).length := by rwa [length_row]
    rw [List.getD_eq_getElem?_getD, List.getElem?_eq_getElem hin, Option.getD_some]
  have hreduced := getElem?_reduced op hword
  have hlt := foldl_combineInt_lt op fun c hc => Heap.getElem?_row_lt (hword c hc)
  rw [combineWord_of_isInteger ht hr.tagged, ← hwidth] at hreduced
  -- What the rank finds is the combined word itself, because that is in range.
  have hafter : ((buffer q).words (h.after (first :: rest))).getD k 0 =
      rest.foldl (fun acc c => combineInt tag.width op acc ((h.row c.send tag.width count).getD k 0))
        ((h.row first.send tag.width count).getD k 0) := by
    rw [hr.words_after hcs hg hq hgets hpos, List.getD_eq_getElem?_getD, List.getElem?_map, hreduced,
      Option.map_some, Option.getD_some, Nat.mod_eq_of_lt hlt]
  have hranks : (first :: rest).map (fun c => signedValue tag.width ((h.row c.send tag.width count).getD k 0)) =
      (List.range n).map fun p => (buffer p).signed h k := by
    rw [← hcs, List.map_map]
    refine List.map_congr_left fun p hp => ?_
    have hp := List.mem_range.mp hp
    have hsend : (Contribution.reduction (a p) count tag op root).send = a p := by cases root <;> rfl
    rw [Function.comp_apply, hsend, Buffer.signed, hr.words_eq hp hpos, hr.width_eq hp]
  rw [Buffer.signed, hr.width_eq hq, hafter, signedValue_foldl, hranks, hwidth]

/-! ## Calls of a round of reductions -/

/-- A rank can make a reduction that passes the checks: its environment is open and at the rank's end of the fabric,
the group is over the communicator, the rank holds the buffer, and the root is one of the `n` ranks. -/
structure Group.Ready (g : Group) (b : Buffer) (root : Option Nat) (n comm rank : Nat) (e : Engine Fabric) : Prop where
  substrate : e.environment.substrate = Fabric.substrate rank
  unfinalized : e.environment.finalized = false
  ends : g.comm = e.machine.net.communicator rank comm
  obtained : Obtained e.machine.store b
  checked : checkBuffer b = .ok ()
  rooted : ∀ r, root = some r → r < n
  /-- Where a buffer has no elements, its address is still a size. -/
  addressed : b.numel = .ok 0 → ∃ a, b.address e.machine.store.heap = .ok a

/-- The reduction is answered at once, with a handle that waits for the other ranks. -/
def Group.Answers (g : Group) (b : Buffer) (how : Reduction) (root : Option Nat) (comm rank : Nat) (e : Engine Fabric) :
    Prop :=
  ∀ tensor, ∃ handle e', (g.dispatch (.reduction b how root) tensor).run e = (.ok (.returned handle), e') ∧
    handle.isPending = true ∧ g.Arrives (.reduction b how root) comm rank e e'

namespace Round

variable {n comm number count r : Nat} {group : Nat → Group} {buffer : Nat → Buffer} {t : ElementType} {tag : Tag}
  {how : Reduction} {op : Operator} {root : Option Nat} {arrived : List Nat} {e e' : Engine Fabric}

/-- A rank that can make its reduction in a round is answered. -/
theorem answers_reduction {what : Nat → Collective Buffer} {b : Buffer}
    (h : Round n comm number group what arrived e.machine) (hr : r < n) (hready : (group r).Ready b root n comm r e)
    (htag : b.dtype.tag? = some tag) (hop : how.operator? = some op) (hcount : b.numel = .ok count) :
    (group r).Answers b how root comm r e := by
  obtain ⟨l, hst⟩ := h.standing
  have hsize : (group r).size = n := (congrArg Communicator.size hready.ends).trans hst.coherent.size
  have hreduces : (group r).Reduces b how root count tag op :=
    ⟨hready.checked, htag, hop, hcount, fun q hq => hsize.symm ▸ hready.rooted q hq⟩
  intro tensor
  obtain ⟨p, store, hplan, -, hcopy, -, hcall⟩ := hreduces.plan_run e.machine.store
  have hoperands : ∀ c ∈ (Collective.reduction b how root).operands, Obtained e.machine.store c := by
    intro c hc
    have hcb : c = b := by cases root <;> exact List.mem_singleton.mp hc
    exact hcb ▸ hready.obtained
  -- The elements, if there are any, lie in memory, so they have an address.
  obtain ⟨a, ha⟩ : ∃ a, b.address e.machine.store.heap = .ok a := by
    rcases Nat.eq_zero_or_pos count with hzero | hpos
    · exact hready.addressed (hzero ▸ hcount)
    · have hroom := Buffer.Room.of_sound hready.obtained.sound hcount (checkBuffer_eq_ok hready.checked)
      exact ⟨_, Buffer.address_eq_ok hroom hst.bounded hpos⟩
  rw [ha] at hcall
  have hcalled : p.call = .ok (.reduction a count tag op root) := hcall
  have hc : Fabric.contribution n (.reduction a count tag op root) = .ok (.reduction a count tag op root) :=
    Fabric.contribution_reduction hready.rooted
  have htable : (Call.reduction a count tag op root).TableFits := by cases root <;> trivial
  have hands : (group r).Hands (.reduction b how root) e p _ store := ⟨hready.unfinalized, hplan, hcalled⟩
  have hfits := hands.fits hoperands hst.bounded hsize htable hc
  obtain ⟨m', hissue, -⟩ :=
    Engine.exists_issued hready.substrate hready.ends hst.coherent hr (hst.made r hr) hc hfits store tensor
  have hrun := hands.dispatch_run hissue
  rw [hcopy] at hrun
  refine ⟨_, _, hrun, rfl, hready.substrate, hready.ends, hoperands, fun p' call store' hands' => ?_, tensor, _, hrun⟩
  have hsame := hands'.planned.symm.trans hplan
  cases hsame
  have hcall' := hands'.called.symm.trans hcalled
  cases hcall'
  exact htable

/-- Planning a reduction has not touched memory. -/
theorem heap_of_hands {g : Group} {b : Buffer} {p : Plan} {call : Call} {store : Store}
    (hands : g.Hands (.reduction b how root) e p call store) : store.heap = e.machine.store.heap := by
  obtain ⟨_, _, _, hreduces⟩ := Group.exists_of_plan_reduction hands.planned
  obtain ⟨p', store', hplan, hsame, -⟩ := hreduces.plan_run e.machine.store
  rw [hands.planned] at hplan
  cases hplan
  exact hsame

/-- The last of the ranks to come finds all contributions in place, each of its rank's own buffer, and the memory that
the reduction then makes of them. -/
theorem reducing_of_last (h : Round n comm number group (fun q => .reduction (buffer q) how root) arrived e.machine)
    (hr : r < n) (hnext : e.machine.net.upcoming r comm = (comm, number))
    (ha : (group r).Arrives (.reduction (buffer r) how root) comm r e e')
    (hlast : ∀ q < n, q ≠ r → q ∈ arrived) (hown : OwnBuffers n buffer t count) (htag : t.tag? = some tag)
    (hop : how.operator? = some op) :
    ∃ a first rest, Reducing n buffer t count tag root a e.machine.store.heap ∧
      ((List.range n).map fun q => Contribution.reduction (a q) count tag op root) = first :: rest ∧
      Gathered n (first :: rest) ∧ e'.machine.store.heap = e.machine.store.heap.after (first :: rest) := by
  obtain ⟨p, call, store, cs, hands, hg, hcontributed, hheap⟩ := h.heap_of_last hr hnext ha hlast
  have hkept := heap_of_hands hands
  rw [hkept] at hcontributed hheap
  have hrank : ∀ q < n, ∃ a, cs[q]? = some (.reduction a count tag op root) ∧ checkBuffer (buffer q) = .ok () ∧
      (buffer q).Sound e.machine.store.heap ∧ (0 < count → a = (buffer q).place (buffer q).offset) ∧
      ∀ r, root = some r → r < n := by
    intro q hq
    obtain ⟨c, hentry, hcontributes⟩ := hcontributed q hq
    obtain ⟨a, count', tag', op', rfl, hreduces, hsound, hplaced, hrooted⟩ := hcontributes.of_reduction
    obtain rfl := Except.ok.inj (hreduces.counted.symm.trans (hown.counted q hq))
    have htag' := hreduces.tagged
    rw [hown.typed q hq, htag] at htag'
    cases htag'
    have hop' := hreduces.operated
    rw [hop] at hop'
    cases hop'
    exact ⟨a, hentry, hreduces.checked, hsound, hplaced, hrooted⟩
  have : Nonempty Address := ⟨.nowhere⟩
  choose! a hentry hchecked hsound hplaced hrooted using hrank
  have hcs : ((List.range n).map fun q => Contribution.reduction (a q) count tag op root) = cs := by
    refine List.ext_getElem? fun q => ?_
    by_cases hq : q < n
    · rw [List.getElem?_map, List.getElem?_range hq, Option.map_some, hentry q hq]
    · have hout : n ≤ q := Nat.le_of_not_lt hq
      rw [List.getElem?_eq_none (by simpa using hout), List.getElem?_eq_none (hg.length.symm ▸ hout)]
  cases cs with
  | nil =>
    have hempty := hg.length
    rw [List.length_nil] at hempty
    omega
  | cons first rest =>
    exact ⟨a, first, rest, ⟨hown, htag, hrooted r hr, hplaced, hsound, fun q hq => checkBuffer_eq_ok (hchecked q hq)⟩,
      hcs, hg, hheap⟩

/-- A reduction that is not the last of its round changes no memory. -/
theorem heap_of_waiting_reduction
    (h : Round n comm number group (fun q => .reduction (buffer q) how root) arrived e.machine) (hr : r < n)
    (hnext : e.machine.net.upcoming r comm = (comm, number))
    (ha : (group r).Arrives (.reduction (buffer r) how root) comm r e e') {q : Nat} (hq : q < n)
    (hne : q ≠ r) (hwaits : q ∉ arrived) : e'.machine.store.heap = e.machine.store.heap := by
  obtain ⟨p, call, store, hands, hheap⟩ := h.heap_of_waiting hr hnext ha hq hne hwaits
  rw [hheap, heap_of_hands hands]

/-- A rank that holds a buffer can make a reduction of it, in an environment of its own. -/
theorem exists_arrives_reduction {what : Nat → Collective Buffer} {m : Machine Fabric} {b : Buffer}
    (h : Round n comm number group what arrived m) (hr : r < n) (hb : Obtained m.store b)
    (hends : (group r).comm = { number := comm, rank := r, size := n, vector := true })
    (hreduces : (group r).Reduces b how root count tag op) (hpos : 0 < count) :
    ∃ e e', e.machine = m ∧ (group r).Arrives (.reduction b how root) comm r e e' := by
  obtain ⟨l, hst⟩ := h.standing
  let e : Engine Fabric := { environment := { substrate := Fabric.substrate r, config := {} }, machine := m }
  have hgroup : (group r).comm = m.net.communicator r comm := by
    rw [hends, Fabric.communicator, hst.coherent.size]
  have hsize : (group r).size = n := congrArg Communicator.size hends
  have hready : (group r).Ready b root n comm r e := by
    refine ⟨rfl, rfl, hgroup, hb, hreduces.checked, fun q hq => hsize ▸ hreduces.rooted q hq, fun hzero => ?_⟩
    exact absurd (Except.ok.inj (hzero.symm.trans hreduces.counted)) hpos.ne
  obtain ⟨_, e', -, -, ha⟩ :=
    h.answers_reduction (e := e) hr hready hreduces.tagged hreduces.operated hreduces.counted ""
  exact ⟨e, e', rfl, ha⟩

/-- A rank that holds a buffer and comes next to the first of two rounds in a row can make a reduction of the buffer in
each of them, one after the other, whatever the other ranks have done. -/
theorem exists_arrives_twice {m : Machine Fabric} {arrived' : List Nat} {how' : Reduction} {op' : Operator}
    {root' : Option Nat} (h : Round n comm number group (fun q => .reduction (buffer q) how root) arrived m)
    (h' : Round n comm (number + 1) group (fun q => .reduction (buffer q) how' root') arrived' m) (hr : r < n)
    (hnext : m.net.upcoming r comm = (comm, number)) (hb : Obtained m.store (buffer r))
    (hends : (group r).comm = { number := comm, rank := r, size := n, vector := true })
    (hreduces : (group r).Reduces (buffer r) how root count tag op)
    (hreduces' : (group r).Reduces (buffer r) how' root' count tag op') (hpos : 0 < count) :
    ∃ e e' f f', e.machine = m ∧ (group r).Arrives (.reduction (buffer r) how root) comm r e e' ∧
      f.machine = e'.machine ∧ f.machine.net.upcoming r comm = (comm, number + 1) ∧
      Round n comm (number + 1) group (fun q => .reduction (buffer q) how' root') arrived' f.machine ∧
      (group r).Arrives (.reduction (buffer r) how' root') comm r f f' ∧
      Round n comm number group (fun q => .reduction (buffer q) how root) (r :: arrived) f'.machine := by
  obtain ⟨e, e', rfl, ha⟩ := h.exists_arrives_reduction hr hb hends hreduces hpos
  have hcame := h.call hr hnext ha
  have hopen := h'.beside hr (fun hsame => absurd (hnext.symm.trans hsame) (by simp)) ha
  have hnext' := h.upcoming_of_arrives hr hnext ha
  have hlater := hb.later (h.extends_of_arrives hr ha)
  obtain ⟨f, f', hf, ha'⟩ := hopen.exists_arrives_reduction hr hlater hends hreduces' hpos
  rw [← hf] at hcame hopen hnext'
  exact ⟨e, e', f, f', rfl, ha, hf, hnext', hopen, ha',
    hcame.beside hr (fun hsame => absurd (hnext'.symm.trans hsame) (by simp)) ha'⟩

/-- Ranks that hold buffers of their own can make a round of reductions on any memory, up to the last call. -/
theorem exists_last_reduction {s : Store} (hs : s.heap.Bounded) (hn : 0 < n)
    (hb : ∀ q < n, Obtained s (buffer q))
    (hends : ∀ q < n, (group q).comm = { number := 0, rank := q, size := n, vector := true })
    (hreduces : ∀ q < n, (group q).Reduces (buffer q) how root count tag op) (hpos : 0 < count) :
    ∃ arrived e e' r, Round n 0 0 group (fun q => .reduction (buffer q) how root) arrived e.machine ∧ r < n ∧
      e.machine.net.upcoming r 0 = (0, 0) ∧ (∀ q < n, q ≠ r → q ∈ arrived) ∧ e.machine.store.heap = s.heap ∧
      (group r).Arrives (.reduction (buffer r) how root) 0 r e e' := by
  have hround : ∀ j < n, ∃ m, Round n 0 0 group (fun q => .reduction (buffer q) how root) (List.range j).reverse m ∧
      m.store.heap = s.heap := by
    intro j
    induction j with
    | zero =>
      intro _
      obtain ⟨m, hstore, hbegin⟩ := exists_ready n hs
      exact ⟨m, hbegin _ _ _, hstore ▸ rfl⟩
    | succ j ih =>
      intro hj
      obtain ⟨m, round, hheap⟩ := ih (by omega)
      have hhere : Obtained m.store (buffer j) := (hb j (by omega)).later (hheap ▸ .refl s.heap)
      obtain ⟨e, e', rfl, ha⟩ :=
        round.exists_arrives_reduction (by omega) hhere (hends j (by omega)) (hreduces j (by omega)) hpos
      have hnext := round.upcoming_first (r := j) (by omega) (by simp)
      have hwaits : j + 1 ∉ (List.range j).reverse := by simp
      refine ⟨e'.machine, ?_, ?_⟩
      · rw [List.range_succ, List.reverse_append]
        exact round.call (by omega) hnext ha
      · rw [round.heap_of_waiting_reduction (by omega) hnext ha hj (by omega) hwaits, hheap]
  obtain ⟨m, round, hheap⟩ := hround (n - 1) (by omega)
  have hhere : Obtained m.store (buffer (n - 1)) := (hb (n - 1) (by omega)).later (hheap ▸ .refl s.heap)
  obtain ⟨e, e', rfl, ha⟩ :=
    round.exists_arrives_reduction (by omega) hhere (hends (n - 1) (by omega)) (hreduces (n - 1) (by omega)) hpos
  have hnext := round.upcoming_first (r := n - 1) (by omega) (by simp)
  refine ⟨_, e, e', n - 1, round, by omega, hnext, fun q hq hne => ?_, hheap, ha⟩
  rw [List.mem_reverse, List.mem_range]
  omega

/-! ## Two ranks with a byte each -/

/-- The buffer of a rank that has a block for one element. -/
def ofRank (t : ElementType) (rank : Nat) : Buffer :=
  { block := rank, dtype := t, shape := [1], strides := [1], offset := 0 }

theorem ownBuffers_ofRank (n : Nat) (t : ElementType) : OwnBuffers n (ofRank t) t 1 := by
  refine ⟨fun q _ => rfl, fun q _ => rfl, ?_⟩
  rintro p - q - hne block pos ⟨i, -, hp, -⟩ ⟨j, -, hq, -⟩
  exact hne (Option.some.inj (hp.trans hq.symm))

/-- Two ranks, each of which has a block with a byte. -/
theorem exists_pair_store (ht : t = .u8 ∨ t = .i8) (x y : Nat) :
    ∃ s : Store, s.heap.Bounded ∧ (∀ q < 2, Obtained s (ofRank t q)) ∧
      (ofRank t 0).words s.heap = [x % 256] ∧ (ofRank t 1).words s.heap = [y % 256] := by
  let s₁ : Store := { heap := { blocks := #[#[UInt8.ofNat x]] } }
  let s : Store := { heap := { blocks := #[#[UInt8.ofNat x], #[UInt8.ofNat y]] } }
  have hfirst : (Buffer.ofWords t [x] [1]).run {} = (.ok (ofRank t 0), s₁) := by
    rcases ht with rfl | rfl
    · rfl
    · rfl
  have hsecond : (Buffer.ofWords t [y] [1]).run s₁ = (.ok (ofRank t 1), s) := by
    rcases ht with rfl | rfl
    · rfl
    · rfl
  have hx₁ := (Buffer.ofWords_extends t [x] [1]).of_run hfirst
  have hx := (Buffer.ofWords_extends t [y] [1]).of_run hsecond
  have hempty : Heap.Bounded {} := fun block => Nat.zero_le _
  have hread (q byte : Nat) (hq : (ofRank t q).words s.heap = [(UInt8.ofNat byte).toNat]) :
      (ofRank t q).words s.heap = [byte % 256] := by
    rw [hq, UInt8.toNat_ofNat']
  refine ⟨s, hx.bounded (hx₁.bounded hempty), fun q hq => ?_, hread 0 x ?_, hread 1 y ?_⟩
  · obtain rfl | rfl : q = 0 ∨ q = 1 := by omega
    · exact .later (.ofWords hfirst) hx
    · exact .ofWords hsecond
  · rcases ht with rfl | rfl
    · rfl
    · rfl
  · rcases ht with rfl | rfl
    · rfl
    · rfl

/-- The two ranks can reduce their bytes. -/
theorem reduces_ofRank (ht : t = .u8 ∨ t = .i8) (hop : how.operator? = some op) (hroot : ∀ r, root = some r → r < 2)
    (q : Nat) : (pairGroup q).Reduces (ofRank t q) how root 1 .char op := by
  refine ⟨rfl, ?_, hop, rfl, hroot⟩
  rcases ht with rfl | rfl
  · rfl
  · rfl

/-- Two ranks can come to any reduction of any two bytes. -/
theorem exists_last_pair (how : Reduction) (root : Option Nat) (x y : Nat) (ht : t = .u8 ∨ t = .i8)
    (hop : how.operator? = some op) (hroot : ∀ r, root = some r → r < 2) :
    ∃ arrived e e' r, Round 2 0 0 pairGroup (fun q => .reduction (ofRank t q) how root) arrived e.machine ∧ r < 2 ∧
      e.machine.net.upcoming r 0 = (0, 0) ∧ (∀ q < 2, q ≠ r → q ∈ arrived) ∧
      (pairGroup r).Arrives (.reduction (ofRank t r) how root) 0 r e e' ∧
      (ofRank t 0).words e.machine.store.heap = [x % 256] ∧ (ofRank t 1).words e.machine.store.heap = [y % 256] := by
  obtain ⟨s, hbounded, hb, hx, hy⟩ := exists_pair_store ht x y
  obtain ⟨arrived, e, e', r, round, hr, hnext, hlast, hheap, ha⟩ := exists_last_reduction hbounded (by decide) hb
    (fun q _ => rfl) (fun q _ => reduces_ofRank ht hop hroot q) (by decide)
  rw [← hheap] at hx hy
  exact ⟨arrived, e, e', r, round, hr, hnext, hlast, ha, hx, hy⟩

end Round

end Collectives
