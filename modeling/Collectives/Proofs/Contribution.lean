import Collectives.Proofs.Checked
import Collectives.Substrate.Fabric

/-!
# Issued contributions

What the checks made at issue promise about a contribution, kind by kind, and which bytes of memory it
names: the bytes it sends and the bytes it may receive into. Both are stated of the contribution alone, so
they hold whatever the other ranks contribute.
-/

namespace Collectives

/-- A contribution that a rank of a group of `n` can leave: its call passed the checks made at issue, or it
came to a barrier. -/
def Contribution.Issued (n : Nat) (c : Contribution) : Prop :=
  (∃ call, Fabric.contribution n call = .ok c) ∨ c = Fabric.barrierContribution

/-- The byte counts of a contribution, sent and received, stay within the range of sizes. -/
structure Contribution.Fits (c : Contribution) : Prop where
  /-- All the bytes sent. -/
  sent : c.sendCounts.sum * c.tag.width < sizeLimit
  /-- All the bytes received. -/
  received : c.recvCounts.sum * c.tag.width < sizeLimit

instance (c : Contribution) : Decidable c.Fits :=
  decidable_of_iff (c.sendCounts.sum * c.tag.width < sizeLimit ∧ c.recvCounts.sum * c.tag.width < sizeLimit)
    ⟨fun h => ⟨h.1, h.2⟩, fun h => ⟨h.sent, h.received⟩⟩

/-- A barrier moves no bytes. -/
theorem Fabric.barrierContribution_fits : Fabric.barrierContribution.Fits := ⟨by decide, by decide⟩

/-- The root, the tables and the destinations that a contribution of each kind has. -/
def Contribution.Shape (n : Nat) (c : Contribution) : Prop :=
  match c.kind with
  | .barrier => c.recv = []
  | .bcast => c.root < n ∧ (∃ a, c.recv = [a]) ∧ ∃ count, c.sendCounts = [count]
  | .allreduce | .reduce =>
    (c.kind = .reduce → c.root < n) ∧ (∃ a, c.recv = [a]) ∧ (∃ count, c.sendCounts = [count]) ∧ ∃ op, c.op = some op
  | .allgatherv => c.recv.length = n ∧ (∃ count, c.sendCounts = [count]) ∧ c.recvCounts.length = n
  | .alltoall | .alltoallv => (∃ a, c.recv = [a]) ∧ c.sendCounts.length = n ∧ c.recvCounts.length = n

/-- No tag has elements without bytes. -/
theorem Tag.width_pos (t : Tag) : 0 < t.width := by
  cases t <;> decide

/-- A table whose bytes are a size has a size as its sum. -/
theorem sum_lt_of_bytes {counts : List Nat} {tag : Tag} (h : counts.sum * tag.width < sizeLimit) :
    counts.sum < sizeLimit :=
  lt_of_le_of_lt (Nat.le_mul_of_pos_right _ tag.width_pos) h

/-! ## The checks at issue -/

private theorem checkRoot_eq_ok {size root : Nat} (h : Fabric.checkRoot size root = .ok ()) :
    root < size := by
  unfold Fabric.checkRoot at h
  split at h
  · assumption
  · cases h

private theorem checkCounts_eq_ok {size : Nat} {table : String} {counts : List Nat}
    (h : Fabric.checkCounts size table counts = .ok ()) : counts.length = size := by
  unfold Fabric.checkCounts at h
  split at h
  · assumption
  · cases h

private theorem length_of_addresses {size : Nat} {tag : Tag} {counts : List Nat} {d : Destination}
    {starts : List Address} (hc : counts.length = size)
    (h : Fabric.addresses size tag counts d = .ok starts) : starts.length = size := by
  cases d with
  | flat start =>
    simp only [Fabric.addresses] at h
    obtain ⟨places, hp, h⟩ := exists_of_bind_eq_ok h
    rw [length_of_mapM h, length_of_displacements (eq_ok_of_mapError hp), hc]
  | perRank given =>
    simp only [Fabric.addresses] at h
    split at h
    · rename_i hg
      exact Except.ok.inj h ▸ hg
    · cases h

/-- Every contribution that passed the checks at issue has the shape of its kind. -/
theorem Contribution.Issued.shape {n : Nat} {c : Contribution} (h : c.Issued n) : c.Shape n := by
  rcases h with ⟨call, h⟩ | rfl
  · cases call with
    | bcast buffer count tag root =>
      obtain ⟨_, hr, h⟩ := exists_of_bind_eq_ok h
      cases h
      exact ⟨checkRoot_eq_ok hr, ⟨buffer, rfl⟩, count, rfl⟩
    | allreduce send recv count tag op =>
      cases h
      exact ⟨fun hk => (by cases hk), ⟨recv, rfl⟩, ⟨count, rfl⟩, op, rfl⟩
    | reduce send recv count tag op root =>
      obtain ⟨_, hr, h⟩ := exists_of_bind_eq_ok h
      cases h
      exact ⟨fun _ => checkRoot_eq_ok hr, ⟨recv, rfl⟩, ⟨count, rfl⟩, op, rfl⟩
    | allgatherv send count recv recvCounts tag =>
      obtain ⟨_, hc, h⟩ := exists_of_bind_eq_ok h
      obtain ⟨starts, ha, h⟩ := exists_of_bind_eq_ok h
      cases h
      exact ⟨length_of_addresses (checkCounts_eq_ok hc) ha, ⟨count, rfl⟩, checkCounts_eq_ok hc⟩
    | alltoall send recv count tag =>
      cases h
      exact ⟨⟨recv, rfl⟩, List.length_replicate, List.length_replicate⟩
    | alltoallv send sendCounts recv recvCounts tag =>
      obtain ⟨_, hs, h⟩ := exists_of_bind_eq_ok h
      obtain ⟨_, hc, h⟩ := exists_of_bind_eq_ok h
      cases h
      exact ⟨⟨recv, rfl⟩, checkCounts_eq_ok hs, checkCounts_eq_ok hc⟩
  · rfl

/-! ## The memory a contribution names -/

/-- The place is one of the `length` bytes from an address on. -/
def Address.Covers (a : Address) (length block pos : Nat) : Prop :=
  a.block = some block ∧ a.pos ≤ pos ∧ pos < a.pos + length

/-- The place is among the bytes that a contribution sends. -/
def Contribution.Sends (c : Contribution) (block pos : Nat) : Prop :=
  c.send.Covers (c.sendCounts.sum * c.tag.width) block pos

/-- The place is among the bytes that the rank's contribution may receive into: the buffer itself, or the
block of every rank, or all blocks one after the other. Only the root of a reduction receives. -/
def Contribution.Receives (c : Contribution) (rank block pos : Nat) : Prop :=
  match c.kind with
  | .barrier => False
  | .bcast | .allreduce => ∃ a ∈ c.recv, a.Covers (c.sendCounts.sum * c.tag.width) block pos
  | .reduce => rank = c.root ∧ ∃ a ∈ c.recv, a.Covers (c.sendCounts.sum * c.tag.width) block pos
  | .allgatherv =>
    ∃ (j : Nat) (a : Address) (count : Nat), c.recv[j]? = some a ∧ c.recvCounts[j]? = some count ∧
      a.Covers (count * c.tag.width) block pos
  | .alltoall | .alltoallv => ∃ a ∈ c.recv, a.Covers (c.recvCounts.sum * c.tag.width) block pos

/-- Fewer bytes from the same address on are some of them. -/
theorem Address.Covers.mono {a : Address} {length length' block pos : Nat}
    (h : a.Covers length block pos) (hl : length ≤ length') : a.Covers length' block pos :=
  ⟨h.1, h.2.1, lt_of_lt_of_le h.2.2 (Nat.add_le_add_left hl _)⟩

/-- A stretch of the bytes from an address on is some of them. -/
theorem Address.Covers.of_advance {a : Address} {skip length length' block pos : Nat}
    (h : (a.advance skip).Covers length block pos) (hl : skip + length ≤ length') :
    a.Covers length' block pos := by
  obtain ⟨hb, hs, he⟩ := h
  simp only [Address.advance] at hb hs he
  exact ⟨hb, by omega, by omega⟩

end Collectives
