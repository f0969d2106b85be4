/-!
# How automata grow

An automaton grows state by state, and every state gets the next number. What it weighs is the memory of its
states and of the steps and ways that they hold. An automaton that weighs more than `greatestWeight` is too
large.
-/

namespace Collectives.Text

/-- The memory of a state. -/
def stateWeight : Nat := 32

/-- The memory of a step on a stretch of bytes. -/
def stepWeight : Nat := 8

/-- The memory of a way out of a fork. -/
def wayWeight : Nat := 4

/-- The most that an automaton may weigh. -/
def greatestWeight : Nat := 10485760

/-- How far an automaton has grown, or by how much. -/
structure Growth where
  /-- Its states; so many numbers are taken. -/
  states : Nat := 0
  /-- The memory that the states hold beside their own. -/
  held : Nat := 0
  deriving DecidableEq, Repr

namespace Growth

instance : Zero Growth := ⟨{}⟩

instance : Add Growth := ⟨fun a b => { states := a.states + b.states, held := a.held + b.held }⟩

/-- So many states that hold nothing. -/
def ofStates (states : Nat) : Growth := { states }

/-- So many ways out of forks. -/
def ofWays (ways : Nat) : Growth := { held := ways * wayWeight }

/-- A state with so many steps. -/
def ofSteps (steps : Nat) : Growth := { states := 1, held := steps * stepWeight }

/-- The same growth so many times. -/
def times (g : Growth) (count : Nat) : Growth := { states := count * g.states, held := count * g.held }

/-- What an automaton weighs. -/
def weight (g : Growth) : Nat := g.states * stateWeight + g.held

/-- Whether an automaton weighs too much. -/
def isTooLarge (g : Growth) : Bool := greatestWeight < g.weight

/-- Growths add up in any grouping. -/
theorem add_assoc (a b c : Growth) : a + b + c = a + (b + c) := by
  change Growth.mk (_ + _ + _) (_ + _ + _) = Growth.mk (_ + (_ + _)) (_ + (_ + _))
  rw [Nat.add_assoc, Nat.add_assoc]

/-- Weights add up. -/
theorem weight_add (a b : Growth) : (a + b).weight = a.weight + b.weight := by
  change (a.states + b.states) * stateWeight + (a.held + b.held) = _
  simp only [weight, Nat.add_mul]
  omega

/-- The weight of a growth counts so many times. -/
theorem weight_times (g : Growth) (count : Nat) : (g.times count).weight = count * g.weight := by
  simp only [weight, times, Nat.mul_add, Nat.mul_assoc]

/-- What has grown too large stays too large. -/
theorem isTooLarge_add {a : Growth} (h : a.isTooLarge = true) (b : Growth) : (a + b).isTooLarge = true := by
  simp only [isTooLarge, decide_eq_true_eq, weight_add] at h ⊢
  omega

end Growth

end Collectives.Text
