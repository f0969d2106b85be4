import Collectives.Proofs.Workers

/-!
# Programs in lockstep

The ranks of a fabric run programs that issue the same calls on the same groups in the same order; each waits
for its calls when it likes, some of them within the call. In every state they can reach, all are finished or
one of them can take a step: the one that has issued least is never blocked, because whatever it has issued
all others have issued as well. No run goes on forever, so every run that is not cut short finishes.
-/

namespace Collectives

/-- Workers, one for each rank of a fabric, and the machine they share. -/
structure World (n : Nat) where
  /-- Memory, journal and fabric. -/
  machine : Machine Fabric
  /-- The workers by rank. -/
  workers : Fin n → Worker

namespace World

variable {n : Nat} {w w' : World n} {calls : List Nat}

/-- Workers that have not begun, each with an environment of its own over a new fabric. -/
def new (store : Store) (config : Fin n → Config) (programs : Fin n → Program) : World n where
  machine := { store, net := Fabric.ofSize n }
  workers r :=
    { environment := { substrate := Fabric.substrate r, config := config r }, stage := .idle (programs r) }

/-- The world after a step of a rank, if the rank can take one. -/
def step (w : World n) (r : Fin n) : Option (World n) :=
  ((w.workers r).step w.machine).map fun s =>
    { machine := s.2, workers := Function.update w.workers r s.1 }

/-- Where steps of the ranks lead, in any order. A rank that comes to a call does issue it, with byte counts that
are sizes. -/
inductive Reaches (w : World n) : World n → Prop
  /-- No step was taken. -/
  | start : Reaches w w
  /-- One more step. -/
  | step {u v : World n} (h : Reaches w u) (r : Fin n) (issues : (u.workers r).Issues n u.machine)
      (hstep : u.step r = some v) : Reaches w v

/-- Every worker is abreast of the calls. -/
def Lockstep (calls : List Nat) (w : World n) : Prop :=
  ∃ (l : Ledger) (past : Fin n → List Nat), ∀ r : Fin n, (w.workers r).Abreast n r l calls (past r) w.machine

/-- Workers with programs that issue the calls begin in lockstep. -/
theorem Lockstep.new {store : Store} {config : Fin n → Config} {programs : Fin n → Program}
    (h : ∀ r, (programs r).Issues calls) : (World.new store config programs).Lockstep calls :=
  ⟨fun _ _ => [], fun _ => [], fun r => Worker.Abreast.new (h r)⟩

/-- A step of any rank keeps the lockstep. -/
theorem Lockstep.step (h : w.Lockstep calls) {r : Fin n} (hissues : (w.workers r).Issues n w.machine)
    (hstep : w.step r = some w') : w'.Lockstep calls := by
  obtain ⟨l, past, hab⟩ := h
  obtain ⟨⟨v, m⟩, hworker, rfl⟩ := Option.map_eq_some_iff.mp hstep
  rcases (hab r).outcome r.isLt with hfinished | hout
  · rw [Worker.step, hfinished] at hworker
    cases hworker
  · rw [hworker] at hout
    cases hout with
    | taken hkeeps =>
      obtain ⟨l', p, hv, hothers, hrows⟩ := hkeeps hissues
      refine ⟨l', Function.update past r p, fun q => ?_⟩
      by_cases hq : q = r
      · subst hq
        simp only [Function.update_self]
        exact hv
      · have hne : q.val ≠ r.val := fun h => hq (Fin.ext h)
        simp only [Function.update_of_ne hq]
        exact (hab q).of_others hv.attached.coherent hne hothers (hrows q hne)

/-- Wherever a world in lockstep leads is in lockstep. -/
theorem Reaches.lockstep (hw : w.Lockstep calls) (h : w.Reaches w') : w'.Lockstep calls := by
  induction h with
  | start => exact hw
  | step _ _ hissues hstep ih => exact ih.step hissues hstep

/-- A world in lockstep is finished, or some rank can take a step. -/
theorem Lockstep.exists_step (h : w.Lockstep calls) :
    (∀ r, (w.workers r).Finished) ∨ ∃ r w', w.step r = some w' := by
  obtain ⟨l, past, hab⟩ := h
  by_contra hcon
  rw [not_or, not_forall] at hcon
  obtain ⟨⟨r₀, hr₀⟩, hstuck⟩ := hcon
  -- The unfinished rank that has issued least: every rank has come at least as far.
  obtain ⟨r, hr, hleast⟩ := Set.exists_min_image {r | ¬(w.workers r).Finished} (fun r => (past r).length)
    (Set.toFinite _) ⟨r₀, hr₀⟩
  have hbehind (q : Fin n) : past r <+: past q := by
    by_cases hq : (w.workers q).Finished
    · exact (hab r).past_of_le (hab q) (.inl hq)
    · exact (hab r).past_of_le (hab q) (.inr (hleast q hq))
  rcases (hab r).outcome r.isLt with hfinished | hout
  · exact hr hfinished
  · cases hstep : (w.workers r).step w.machine with
    | some s => exact hstuck ⟨r, _, by rw [World.step, hstep]; rfl⟩
    | none =>
      rw [hstep] at hout
      cases hout with
      | blocked hblocked =>
        obtain ⟨call, hissued, hopen⟩ := hblocked
        exact hopen fun q hq => (hab r).hasIssued (hab ⟨q, hq⟩) (hbehind ⟨q, hq⟩) hissued

/-- No run goes on forever. -/
theorem not_endless (run : Nat → World n) : ¬∀ i, ∃ r, (run i).step r = some (run (i + 1)) := by
  intro h
  have hdecreases (i : Nat) : (fun r => ((run (i + 1)).workers r).stage.length) <
      fun r => ((run i).workers r).stage.length := by
    obtain ⟨r, hstep⟩ := h i
    obtain ⟨⟨v, m⟩, hworker, hrun⟩ := Option.map_eq_some_iff.mp hstep
    rw [← hrun]
    refine Pi.lt_def.mpr ⟨fun q => ?_, r, ?_⟩
    · by_cases hq : q = r
      · subst hq
        simp only [Function.update_self]
        exact (Worker.length_step_lt hworker).le
      · simp only [Function.update_of_ne hq, le_refl]
    · simp only [Function.update_self]
      exact Worker.length_step_lt hworker
  exact (RelEmbedding.natGT _ hdecreases).not_wellFounded wellFounded_lt

/-- Ranks run programs that issue the same calls on the same groups in the same order, each through an
environment of its own, and wait for their calls when they like. Whatever state they reach, all ranks are
finished or one of them can take its next step, and they cannot go on from there forever. -/
theorem Reaches.progress {store : Store} {config : Fin n → Config} {programs : Fin n → Program}
    (hcalls : ∀ r, (programs r).Issues calls) (h : (World.new store config programs).Reaches w) :
    ((∀ r, (w.workers r).Finished) ∨ ∃ r w', w.step r = some w') ∧
      ¬∃ run : Nat → World n, run 0 = w ∧ ∀ i, ∃ r, (run i).step r = some (run (i + 1)) := by
  constructor
  · exact (h.lockstep (Lockstep.new hcalls)).exists_step
  · rintro ⟨run, -, hrun⟩
    exact not_endless run hrun

/-- Two ranks that make a group and meet at its barrier. -/
def joinAndMeet : Program :=
  .step (.join {}) fun _ _ => .step (.operate 0 .barrier) fun _ _ => .done

/-- Two ranks, of which the first waits at the barrier: the second can take its next step. -/
theorem progress_joinAndMeet : ∃ w : World 2,
    (World.new {} (fun _ => {}) fun _ => joinAndMeet).Reaches w ∧ w.step 0 = none ∧
      ((∀ r, (w.workers r).Finished) ∨ ∃ r w', w.step r = some w') := by
  have hcalls : joinAndMeet.Issues [0] := ⟨[0], rfl, fun _ _ => ⟨[], rfl, fun _ _ => rfl⟩⟩
  have h₀ : (World.new {} (fun _ => {}) fun _ : Fin 2 => joinAndMeet).Reaches _ := .start
  have h₁ := h₀.step 0 trivial rfl
  have h₂ := h₁.step 1 trivial rfl
  have h₃ := h₂.step 0 (fun _ => ⟨_, rfl, trivial, _, _, rfl⟩) rfl
  exact ⟨_, h₃, rfl, (Reaches.progress (fun _ => hcalls) h₃).1⟩

end World

end Collectives
