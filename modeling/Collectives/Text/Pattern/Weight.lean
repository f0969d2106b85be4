import Collectives.Text.Pattern
import Collectives.Text.Pattern.Sharing

/-!
# The weight of patterns

A pattern is looked for by an automaton on bytes, forwards for where a piece ends and backwards for where it
begins. A plan says in which order the states are made, with each repetition written in full. Most parts make
the same states wherever they stand; only sets of more than ASCII characters have to be followed each time.
-/

namespace Collectives.Text

/-! ## Plans -/

/-- What an automaton is made of, in the order in which the states are made. -/
inductive StatePlan where
  /-- A growth that is the same wherever it stands. -/
  | fixed (g : Growth)
  /-- The states for a set of characters, forwards. -/
  | forwards (tree : FormTree)
  /-- The states for a set of characters, backwards. -/
  | backwards (forms : List (List ByteRange))
  /-- One plan after the other. -/
  | pair (first rest : StatePlan)
  /-- A plan so many times. -/
  | copies (p : StatePlan) (count : Nat)

/-- Lets an automaton grow so many times, or until it is too large. -/
def growTimes (f : Growth → Growth) : Nat → Growth → Growth
  | 0, g => g
  | count + 1, g => if g.isTooLarge then g else growTimes f count (f g)

namespace StatePlan

/-- An automaton with the states of a plan. -/
def grow : StatePlan → Growth → Growth
  | .fixed more, g => g + more
  | .forwards tree, g => tree.grow g
  | .backwards forms, g => growBack forms g
  | .pair first rest, g => rest.grow (first.grow g)
  | .copies p count, g => growTimes p.grow count g

/-- One plan after the other. -/
protected def append : StatePlan → StatePlan → StatePlan
  | .fixed a, .fixed b => .fixed (a + b)
  | p, q => .pair p q

instance : Append StatePlan := ⟨StatePlan.append⟩

/-- A plan so many times. -/
def times (p : StatePlan) (count : Nat) : StatePlan :=
  match p with
  | .fixed g => .fixed (g.times count)
  | p => .copies p count

/-- A plan after another grows on what the other has made. -/
theorem grow_append (p q : StatePlan) (g : Growth) : (p ++ q).grow g = q.grow (p.grow g) := by
  change (p.append q).grow g = _
  unfold StatePlan.append
  split
  · exact (Growth.add_assoc _ _ _).symm
  · rfl

end StatePlan

/-! ## Parts -/

/-- A part of an automaton. -/
structure AutomatonPart where
  /-- Its states. -/
  plan : StatePlan
  /-- Whether it ends in a fork, so that what follows is one more way out. -/
  forked : Bool := false
  /-- The bytes of a text, in the order in which they are met. -/
  word : Option (List Nat) := none

namespace AutomatonPart

/-- The way that leads on from a part. -/
def leaving (p : AutomatonPart) : StatePlan := .fixed (.ofWays (if p.forked then 1 else 0))

/-- A part that consists of so many states. -/
def ofStates (count : Nat) : AutomatonPart := { plan := .fixed (.ofStates count) }

/-- The states of a part and the way that leads on. -/
def left (p : AutomatonPart) : StatePlan := p.plan ++ p.leaving

/-- A state in front that forks into so many ways. -/
def fork (ways : Nat) : StatePlan := .fixed (.ofStates 1 + .ofWays ways)

/-- One part after the other. -/
def followedBy (a b : AutomatonPart) : AutomatonPart := { plan := a.left ++ b.plan, forked := b.forked }

/-- A part so many times, one after the other. -/
def copies (p : AutomatonPart) : Nat → AutomatonPart
  | 0 => ofStates 1
  | count + 1 => { plan := p.left.times count ++ p.plan, forked := p.forked }

/-- A part that may be passed by. -/
def optional (p : AutomatonPart) : AutomatonPart :=
  { plan := fork 2 ++ p.left ++ StatePlan.fixed (.ofStates 1) }

/-- A part as often as one likes, where each time takes text. -/
def looped (p : AutomatonPart) : AutomatonPart := { plan := fork 1 ++ p.left, forked := true }

/-- A part as often as one likes, where it may take no text. -/
def loopedEmpty (p : AutomatonPart) : AutomatonPart :=
  { plan := p.left ++ fork 2 ++ fork 2 ++ StatePlan.fixed (.ofStates 1) }

/-- A part so many times at least, one time for certain. -/
def atLeast (p : AutomatonPart) (least : Nat) : AutomatonPart :=
  { plan := p.left.times least ++ fork 1, forked := true }

/-- A part so many times at least, and some times more at most. -/
def between (p : AutomatonPart) (least more : Nat) : AutomatonPart :=
  { plan := (p.copies least).left ++ StatePlan.fixed (.ofStates 1) ++ (fork 2 ++ p.left).times more }

/-- A repetition of a piece that may take no text. -/
def repeated (p : AutomatonPart) (takesText : Bool) (least : Nat) : Option Nat → AutomatonPart
  | none =>
    if 0 < least then p.atLeast least else if takesText then p.looped else p.loopedEmpty
  | some most =>
    if least = most then p.copies least
    else if least = 0 ∧ most = 1 then p.optional
    else p.between least (most - least)

end AutomatonPart

/-! ## Words -/

/-- Gathers what has the same head, in the order in which the heads come first. -/
def byHead : List (List Nat) → List (Nat × List (List Nat))
  | [] => []
  | [] :: rest => byHead rest
  | (b :: tail) :: rest =>
    let groups := byHead rest
    match groups.lookup b with
    | some tails => (b, tail :: tails) :: groups.filter fun g => g.1 != b
    | none => (b, [tail]) :: groups

/-- The words up to the next empty one, and so on. -/
def untilEmpty : List (List Nat) → List (List (List Nat))
  | [] => [[]]
  | [] :: rest => [] :: untilEmpty rest
  | word :: rest =>
    match untilEmpty rest with
    | [] => [[word]]
    | part :: parts => (word :: part) :: parts

/-- The words without those empty ones in front that repeat an empty one. -/
def oneEmpty : List (List Nat) → List (List Nat)
  | [] :: [] :: rest => oneEmpty ([] :: rest)
  | words => words

/-- The states of a tree of words, with fuel for their length. A node has a state for each run of words between
two that end there, and a fork to these. -/
def wordsGrowthWithin : Nat → List (List Nat) → Growth
  | 0, _ => 0
  | fuel + 1, words =>
    let parts := (untilEmpty (oneEmpty words)).map byHead
    let heads := parts.filter (!·.isEmpty)
    if heads.isEmpty then 0
    else
      let runs := heads.map fun part => Growth.ofSteps (if part.length = 1 then 0 else part.length)
      let below := heads.flatten.map fun group => wordsGrowthWithin fuel group.2
      Growth.ofStates 1 + .ofWays (heads.length + parts.length - 1) + runs.sum + below.sum

/-- The states of a choice of words. -/
def wordsGrowth (words : List (List Nat)) : Growth :=
  .ofStates 1 + wordsGrowthWithin (words.flatten.length + 1) words

/-! ## Patterns -/

/-- The part for a set of characters. -/
def CharSet.part (a : CharSet) (backwards : Bool) : AutomatonPart :=
  if a.isAscii then { plan := .fixed (.ofStates 1 + .ofSteps a.ranges.length) }
  else if backwards then { plan := .backwards a.byteForms }
  else { plan := .forwards (.ofForms a.byteForms) }

/-- The part for a text. -/
def textPart (chars : List Char) (backwards : Bool) : AutomatonPart :=
  let bytes := chars.flatMap fun c => utf8Bytes c.toNat
  { AutomatonPart.ofStates bytes.length with word := some (if backwards then bytes.reverse else bytes) }

/-- A choice of several parts: a fork to them, unless all are texts. The fork, and the state where they meet,
are made after the second part. -/
def AutomatonPart.choice : List AutomatonPart → AutomatonPart
  | [p] => p
  | ps =>
    match ps.mapM word with
    | some words => { plan := .fixed (wordsGrowth words) }
    | none =>
      let all (ps : List AutomatonPart) : StatePlan := (ps.map left).foldr (· ++ ·) (.fixed 0)
      { plan := all (ps.take 2) ++ StatePlan.fixed (.ofStates 2 + .ofWays ps.length) ++ all (ps.drop 2) }

/-- The parts that a pattern has to choose from. -/
def Pattern.parts (backwards : Bool) : Pattern → List AutomatonPart
  | .nothing => [.ofStates 1]
  | .text chars => [textPart chars backwards]
  | .char set _ => [set.part backwards]
  | .anchor _ => [.ofStates 1]
  | .capture _ p =>
    let part : AutomatonPart := .choice (p.parts backwards)
    if backwards then [{ part with word := none }]
    else [{ plan := StatePlan.fixed (.ofStates 1) ++ part.left ++ StatePlan.fixed (.ofStates 1) }]
  | .seq p q =>
    let first : AutomatonPart := .choice (p.parts backwards)
    let rest : AutomatonPart := .choice (q.parts backwards)
    [if backwards then rest.followedBy first else first.followedBy rest]
  | .alt p q => p.parts backwards ++ q.parts backwards
  | .repeated p least most _ =>
    [(AutomatonPart.choice (p.parts backwards)).repeated (p.shortest.any (0 < ·)) least most]

/-- The states in front of all others: at the start of a text there is nothing to pass over. -/
def leadPlan (anchored : Bool) : StatePlan :=
  .fixed (if anchored then .ofStates 1 else .ofStates 2 + .ofWays 2 + .ofSteps 1)

/-- The automaton that looks for a pattern forwards. -/
def Pattern.forwardsGrowth (p : Pattern) : Growth :=
  let part : AutomatonPart := .choice ((Pattern.capture 0 p).parts false)
  (leadPlan (p.beginsAt (.start .text)) ++ part.plan ++ StatePlan.fixed (.ofStates 1)).grow 0

/-- The automaton that looks for a pattern backwards. -/
def Pattern.backwardsGrowth (p : Pattern) : Growth :=
  let part : AutomatonPart := .choice (p.parts true)
  (leadPlan (p.endsAt (.stop .text)) ++ part.left ++ StatePlan.fixed (.ofStates 1)).grow 0

/-- What looks for a letter: the states in front, one at either end, and one for the letter. -/
example : (Pattern.text ['a']).forwardsGrowth = { states := 7, held := 16 } := by decide +kernel

end Collectives.Text
