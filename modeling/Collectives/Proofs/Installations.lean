import Collectives.Engine.Process
import Collectives.Proofs.EnvironmentLife

/-!
# Installations

At most one environment is ever installed for a process, and with it one teardown is registered for the end of the
process. Another installation is refused and changes neither. But it has built an environment over the substrate it was
given, and giving that up finalizes the substrate, also where the installed environment runs on it: that one is open as
before, and the end of the process finalizes its substrate a second time.
-/

namespace Collectives

variable {τ α : Type}

namespace Process

variable {p p' p'' : Process τ} {number : Nat} {act : StateM (Engine τ) α}

/-! ## Environments of a process -/

/-- A call in an environment that is there changes the machine and that environment. -/
theorem within_run {environment : Environment τ} (h : p.environments[number]? = some environment)
    (act : StateM (Engine τ) α) : (within number act).run p =
      (.ok (act.run { environment, machine := p.machine }).1,
        { p with
          machine := (act.run { environment, machine := p.machine }).2.machine
          environments := p.environments.set number (act.run { environment, machine := p.machine }).2.environment }) := by
  unfold within
  rw [run_get_bind, h]
  rfl

/-- Nothing happens in an environment that is not there. -/
theorem within_absent (h : p.environments[number]? = none) (act : StateM (Engine τ) α) :
    (within number act).run p = (.error (.error (.internal "no such environment")), p) := by
  unfold within
  rw [run_get_bind, h]
  rfl

/-- An environment that is built comes after the others. -/
theorem build_run (p : Process τ) (substrate : Substrate τ) (config : Config) : (build substrate config).run p =
    (.ok p.environments.length, { p with environments := p.environments ++ [{ substrate, config }] }) := rfl

/-! ## What is installed -/

/-- What is installed stays so, with as many teardowns, and no environment goes. -/
structure Keeps (p p' : Process τ) : Prop where
  installed : p'.installed = p.installed
  teardowns : p'.teardowns = p.teardowns
  environments : p.environments.length ≤ p'.environments.length

theorem Keeps.refl (p : Process τ) : p.Keeps p := ⟨rfl, rfl, le_rfl⟩

theorem Keeps.trans (h : p.Keeps p') (h' : p'.Keeps p'') : p.Keeps p'' :=
  ⟨h'.installed.trans h.installed, h'.teardowns.trans h.teardowns, h.environments.trans h'.environments⟩

/-- What two steps keep is kept by one after the other. -/
theorem Keeps.bind {β : Type} {x : Run τ α} {f : α → Run τ β} (hx : p.Keeps (x.run p).2)
    (hf : ∀ (a : α) (p₁ : Process τ), p₁.Keeps ((f a).run p₁).2) : p.Keeps ((x >>= f).run p).2 := by
  rcases hrun : x.run p with ⟨answer, p₁⟩
  rw [hrun] at hx
  cases answer with
  | ok a =>
    rw [run_bind_ok hrun]
    exact hx.trans (hf a p₁)
  | error failure => rwa [run_bind_error hrun]

theorem within_keeps (number : Nat) (act : StateM (Engine τ) α) (p : Process τ) :
    p.Keeps ((within number act).run p).2 := by
  cases h : p.environments[number]? with
  | none =>
    rw [within_absent h]
    exact .refl p
  | some environment =>
    rw [within_run h]
    exact ⟨rfl, rfl, (List.length_set ..).ge⟩

theorem build_keeps (substrate : Substrate τ) (config : Config) (p : Process τ) :
    p.Keeps ((build substrate config).run p).2 := by
  rw [build_run]
  refine ⟨rfl, rfl, ?_⟩
  rw [List.length_append]
  exact Nat.le_add_right _ _

theorem perform_keeps (number : Nat) (act : Act τ α) (p : Process τ) : p.Keeps ((perform number act).run p).2 := by
  refine (within_keeps number act.run p).bind fun answer p₁ => ?_
  cases answer <;> exact .refl p₁

/-- An environment that is installed stays so, with one more teardown. -/
theorem install_keeps (number : Nat) (verb : String) (p : Process τ) :
    Keeps { p with installed := some number, teardowns := p.teardowns + 1 } ((install number verb).run p).2 := by
  unfold install
  rw [run_modify_bind]
  exact (within_keeps number _ _).bind fun _ p₁ => perform_keeps number _ p₁

/-- The process after an installation over a substrate was refused: what was built is finalized and given up. -/
def refusing (p : Process τ) (substrate : Substrate τ) (config : Config) : Process τ :=
  let machine := substrate.finalize p.machine
  { p with
    environments := p.environments ++ [{ substrate, config, finalized := true, holders := 0 }]
    machine := { machine with
      store := machine.store.log .info .environment s!"{substrate.name} environment finalized" } }

/-- A second installation is refused, and all that changes is that the substrate is finalized. -/
theorem installGlobal_refused (h : p.installed = some number) (substrate : Substrate τ) (config : Config) :
    (installGlobal substrate config).run p = (.error (.error .alreadyInitialized), p.refusing substrate config) := by
  have hnew : (p.environments ++ [({ substrate, config } : Environment τ)])[p.environments.length]? =
      some { substrate, config } := List.getElem?_concat_length ..
  have hset (e : Environment τ) :
      (p.environments ++ [({ substrate, config } : Environment τ)]).set p.environments.length e = p.environments ++ [e] := by
    simp
  unfold installGlobal
  rw [run_bind_ok (build_run p substrate config), run_get_bind]
  dsimp only
  rw [h]
  dsimp only
  rw [release, run_bind_ok (within_run hnew _), run_throw]
  simp only [hset, refusing, h]
  rfl

/-- One environment at most is installed. It is there, and one teardown is registered for it. -/
structure Single (p : Process τ) : Prop where
  there : ∀ number, p.installed = some number → number < p.environments.length
  once : p.teardowns = p.installed.toList.length

theorem Single.kept (hp : p.Single) (h : p.Keeps p') : p'.Single where
  there number hinstalled := (hp.there number (h.installed ▸ hinstalled)).trans_le h.environments
  once := by rw [h.teardowns, h.installed, hp.once]

/-- The states that a process comes to, whatever is done in its environments and to its machine. -/
inductive Reached : Process τ → Prop where
  | start (machine : Machine τ) : Reached { machine }
  | build {p : Process τ} (substrate : Substrate τ) (config : Config) : Reached p →
      Reached ((build substrate config).run p).2
  | within {p : Process τ} {α : Type} (number : Nat) (act : StateM (Engine τ) α) : Reached p →
      Reached ((within number act).run p).2
  | installGlobal {p : Process τ} (substrate : Substrate τ) (config : Config) : Reached p →
      Reached ((installGlobal substrate config).run p).2
  | installedOr {p : Process τ} (vars : Variables) (fallback : StateM τ (Substrate τ)) : Reached p →
      Reached ((installedOr vars fallback).run p).2
  | meanwhile {p : Process τ} (machine : Machine τ) : Reached p → Reached { p with machine }

/-- An environment that is built and installed is the only one. -/
theorem Single.install (hp : p.Single) (hnone : p.installed = none) (environment : Environment τ) (verb : String) :
    Single ((do
      Process.install p.environments.length verb
      return p.environments.length : Run τ Nat).run
        { p with environments := p.environments ++ [environment] }).2 := by
  rw [run_bind_pure_snd (Process.install _ verb) fun _ => p.environments.length]
  refine Single.kept ⟨fun number hnumber => ?_, ?_⟩ (install_keeps _ _ _)
  · obtain rfl := Option.some.inj hnumber
    rw [List.length_append]
    exact Nat.lt_succ_self _
  · have honce := hp.once
    rw [hnone] at honce
    exact congrArg (· + 1) honce

theorem Single.installGlobal (hp : p.Single) (substrate : Substrate τ) (config : Config) :
    Single ((Process.installGlobal substrate config).run p).2 := by
  cases h : p.installed with
  | some number =>
    rw [installGlobal_refused h]
    refine hp.kept ⟨rfl, rfl, ?_⟩
    rw [refusing, List.length_append]
    exact Nat.le_add_right _ _
  | none =>
    have hinstall := hp.install h { substrate, config } "installed"
    unfold Process.installGlobal
    rw [run_bind_ok (build_run p substrate config), run_get_bind]
    dsimp only
    rwa [h] at hinstall ⊢

theorem Single.installedOr (hp : p.Single) (vars : Variables) (fallback : StateM τ (Substrate τ)) :
    Single ((Process.installedOr vars fallback).run p).2 := by
  unfold Process.installedOr
  rw [run_get_bind]
  cases h : p.installed with
  | some number => exact hp.kept ((within_keeps number _ p).bind fun _ p₁ => .refl p₁)
  | none =>
    cases hc : Config.ofVariables vars with
    | error cause => exact hp
    | ok config =>
      rcases hfallback : fallback.run p.machine.net with ⟨substrate, net⟩
      have hfirst : Single { p with machine := { p.machine with net } } := ⟨hp.there, hp.once⟩
      have hinstall := hfirst.install h { substrate, config } "initialized"
      dsimp only
      rw [run_get_bind, hfallback]
      dsimp only
      rw [run_set_bind, run_bind_ok (build_run _ substrate config)]
      exact hinstall

theorem Reached.single (hp : p.Reached) : p.Single := by
  induction hp with
  | start machine => exact ⟨by simp, rfl⟩
  | build substrate config _ ih => exact ih.kept (build_keeps substrate config _)
  | within number act _ ih => exact ih.kept (within_keeps number act _)
  | installGlobal substrate config _ ih => exact ih.installGlobal substrate config
  | installedOr vars fallback _ ih => exact ih.installedOr vars fallback
  | meanwhile machine _ ih => exact ⟨ih.there, ih.once⟩

/-! ## The end of the process -/

/-- With one teardown, the installed environment is finalized. -/
theorem exit_run {environment : Environment τ} (hp : p.teardowns = 1) (hinstalled : p.installed = some number)
    (hthere : p.environments[number]? = some environment) : (exit : Run τ Unit).run p =
      (.ok (), { p with
        machine := (Engine.finalize { environment, machine := p.machine }).machine
        environments := p.environments.set number (Engine.finalize { environment, machine := p.machine }).environment }) := by
  have hexit : (exit : Run τ Unit).run p = (teardown >>= fun _ => pure () : Run τ Unit).run p := by
    unfold exit
    rw [run_get_bind, hp]
    rfl
  have hteardown : (teardown : Run τ Unit).run p = (within number (modify Engine.finalize)).run p := by
    unfold teardown
    rw [run_get_bind, hinstalled]
  rw [hexit]
  exact run_bind_ok (hteardown.trans (within_run hthere (modify Engine.finalize)))

end Process

/-- Whenever an environment is installed, another installation is refused; it leaves the installed environment and all
others as they are and registers no teardown. But what it has built is finalized: the substrate it was given, whichever
that is, is given back at once, nothing else is done to a substrate, and a line says so. Where the installed environment
runs on that substrate and is open, it stays open, and the end of the process gives the substrate back again. -/
theorem Process.refused_gives_back {s : Substrate τ} {p : Process (Watched τ)} {number : Nat} (hp : p.Reached)
    (hinstalled : p.installed = some number) (config : Config) :
    ∃ (environment : Environment (Watched τ)) (p' : Process (Watched τ)),
      p.environments[number]? = some environment ∧ p.teardowns = 1 ∧
      (Process.installGlobal s.watched config).run p = (.error (.error .alreadyInitialized), p') ∧
      p'.installed = some number ∧ p'.environments[number]? = some environment ∧ p'.teardowns = 1 ∧
      p'.environments = p.environments ++ [{ substrate := s.watched, config, finalized := true, holders := 0 }] ∧
      p'.machine.net.deeds = p.machine.net.deeds ++ [.finalization] ∧
      p'.machine.unwatched = { s.finalize p.machine.unwatched with
        store := (s.finalize p.machine.unwatched).store.log .info .environment s!"{s.name} environment finalized" } ∧
      (environment.substrate = s.watched → environment.finalized = false → ∃ p'' : Process (Watched τ),
        Process.exit.run p' = (.ok (), p'') ∧ p''.machine.net.deeds =
          p.machine.net.deeds ++ .finalization :: (environment.world.toList.map .release ++ [.finalization])) := by
  have hsingle := hp.single
  have honce : p.teardowns = 1 := by
    rw [hsingle.once, hinstalled]
    rfl
  have hlength := hsingle.there number hinstalled
  have hthere : (p.refusing s.watched config).environments[number]? = some p.environments[number] := by
    rw [Process.refusing, List.getElem?_append_left hlength, List.getElem?_eq_getElem hlength]
  refine ⟨p.environments[number], p.refusing s.watched config, List.getElem?_eq_getElem hlength, honce,
    Process.installGlobal_refused hinstalled _ config, hinstalled, hthere, honce, rfl, rfl, rfl, fun hs hf => ?_⟩
  refine ⟨_, Process.exit_run honce hinstalled hthere, ?_⟩
  obtain ⟨hdeeds, -⟩ := finalize_deeds
    (e := { environment := p.environments[number], machine := (p.refusing s.watched config).machine }) hs hf
  rw [hdeeds]
  exact List.append_assoc ..

/-- A process installs an environment over a rank of its own, and then again over the same rank. That is refused and
finalizes the rank, and the end of the process finalizes it once more. -/
theorem Process.refused_gives_back_twice :
    ∃ (p p' p'' : Process (Watched Fabric)) (number : Nat), p.Reached ∧ p.installed = some number ∧
      p.machine.net.deeds = [] ∧
      (Process.installGlobal (Fabric.substrate 0).watched {}).run p = (.error (.error .alreadyInitialized), p') ∧
      p'.machine.net.deeds = [.finalization] ∧ Process.exit.run p' = (.ok (), p'') ∧
      p''.machine.net.deeds = [.finalization, .finalization] := by
  let start : Process (Watched Fabric) := { machine := Machine.watched { store := {}, net := Fabric.ofSize 1 } [] }
  let p := ((Process.installGlobal (Fabric.substrate 0).watched {}).run start).2
  have hp : p.Reached := .installGlobal _ {} (.start _)
  have hinstalled : p.installed = some 0 := rfl
  obtain ⟨environment, p', hthere, -, hrefused, -, -, -, -, hdeeds, -, hexit⟩ :=
    Process.refused_gives_back (s := Fabric.substrate 0) hp hinstalled {}
  obtain rfl := Option.some.inj hthere
  obtain ⟨p'', hrun, hdeeds'⟩ := hexit rfl rfl
  exact ⟨p, p', p'', 0, hp, hinstalled, rfl, hrefused, hdeeds, hrun, hdeeds'⟩

end Collectives
