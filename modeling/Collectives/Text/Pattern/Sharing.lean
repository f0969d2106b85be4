import Collectives.Text.Pattern.Growth
import Collectives.Text.Utf8

/-!
# Sets of characters as states

A set of more than ASCII characters is followed byte by byte through its forms. States that lead on alike are
one, as long as the first of them is remembered: what is remembered has a place in a table, found by a hash of
how the state leads on, and it displaces what was in that place. The numbers of states are hashed too, so how
many states a set takes depends on how many there are before it.

Forwards, forms share what is left of them, and a state has a step for each stretch. Backwards, they share
what they begin with, a state has one step, and a fork leads to all forms.
-/

namespace Collectives.Text

/-! ## Remembered states -/

/-- A hash with one more number in it. -/
def hashed (hash : UInt64) (number : Nat) : UInt64 := (hash ^^^ number.toUInt64) * 1099511628211

/-- The place of a key among so many. -/
def placeAmong (places : Nat) (key : List Nat) : Nat :=
  (key.foldl hashed 14695981039346656037).toNat % places

/-- An automaton, and which of its states are remembered by how they lead on. -/
structure Sharing where
  /-- How many places there are to remember states in. -/
  places : Nat
  /-- How far the automaton has grown. -/
  grown : Growth
  /-- What was put into places, with the key and the number of the state, the latest first. -/
  known : List (Nat × List Nat × Nat) := []

namespace Sharing

/-- The state that is remembered for a key. -/
def find? (s : Sharing) (key : List Nat) : Option Nat :=
  match s.known.lookup (placeAmong s.places key) with
  | some (found, state) => if found = key then some state else none
  | none => none

/-- The state for a key: the one that is remembered, or a new one. -/
def state (s : Sharing) (key : List Nat) (size : Growth) : Nat × Sharing :=
  match s.find? key with
  | some state => (state, s)
  | none =>
    let new := s.grown.states
    (new, { s with
      grown := s.grown + size
      known := (placeAmong s.places key, key, new) :: s.known })

/-- A new state is remembered. -/
theorem find?_state {s : Sharing} {key : List Nat} (h : s.find? key = none) (size : Growth) :
    (s.state key size).2.find? key = some s.grown.states := by
  rw [state, h]
  simp [find?]

/-- A state that is remembered lets nothing grow. -/
theorem grown_state_of_find? {s : Sharing} {key : List Nat} {number : Nat} (h : s.find? key = some number)
    (size : Growth) : (s.state key size).2.grown = s.grown := by
  simp [state, h]

end Sharing

/-! ## Forwards -/

/-- Forms of bytes as a tree. Forms next to each other that begin with the same stretch begin as one. -/
inductive FormTree where
  /-- No more forms, or the end of one. -/
  | stop
  /-- The forms that begin with a stretch, and the others. -/
  | step (first last : Nat) (rest others : FormTree)
  deriving DecidableEq, Repr

namespace FormTree

/-- Puts a form before the others. -/
def add : List ByteRange → FormTree → FormTree
  | [], tree => tree
  | (first, last) :: form, .stop => .step first last (add form .stop) .stop
  | (first, last) :: form, .step f l rest others =>
    if first = f ∧ last = l then .step f l (rest.add form) others
    else .step first last (add form .stop) (.step f l rest others)

/-- The tree of forms. -/
def ofForms (forms : List (List ByteRange)) : FormTree := forms.foldr add .stop

/-- How many steps a tree begins with. -/
def steps : FormTree → Nat
  | .stop => 0
  | .step _ _ _ others => others.steps + 1

/-- The steps that a tree begins with, as numbers, with the state that each leads to. The ends of forms lead to
one state, and the states for what is left of forms are made on the way. -/
def settle (goal : Nat) : FormTree → Sharing → List Nat × Sharing
  | .stop, s => ([], s)
  | .step first last rest others, s =>
    let (below, s) := rest.settle goal s
    let (next, s) := if below.isEmpty then (goal, s) else s.state below (.ofSteps rest.steps)
    let (more, s) := others.settle goal s
    (first :: last :: next :: more, s)

/-- An automaton with the states of a tree: first the one where all forms end, and last the one where they
begin. -/
def grow (tree : FormTree) (g : Growth) : Growth :=
  let s : Sharing := { places := 10000, grown := g + .ofStates 1 }
  let (key, s) := tree.settle g.states s
  (s.state key (.ofSteps tree.steps)).2.grown

end FormTree

/-! ## Backwards -/

/-- The way back through a form, from its first byte on. -/
def Sharing.back (s : Sharing) (goal : Nat) (form : List ByteRange) : Sharing :=
  (form.foldl
    (fun (here : Nat × Sharing) (stretch : ByteRange) =>
      here.2.state [here.1, stretch.1, stretch.2] (.ofStates 1))
    (goal, s)).2

/-- An automaton with the states of forms that are followed backwards: a fork, the state where all forms end,
and those on the ways. -/
def growBack (forms : List (List ByteRange)) (g : Growth) : Growth :=
  let s : Sharing := { places := 1000, grown := g + .ofStates 2 }
  (forms.foldl (fun s form => s.back (g.states + 1) form) s).grown + .ofWays forms.length

/-- The states for all characters but a line end, forwards. -/
example : (FormTree.ofForms (CharSet.one '\n').other.byteForms).grow {} =
    { states := 9, held := 17 * stepWeight } := by decide +kernel

end Collectives.Text
