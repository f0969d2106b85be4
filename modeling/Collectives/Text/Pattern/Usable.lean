import Collectives.Text.Pattern.Meaning
import Collectives.Text.Pattern.Opening
import Collectives.Text.Pattern.Reader
import Collectives.Text.Pattern.Weight

/-!
# Texts that are of use as patterns

`Pattern.parse?` answers the pattern that a text describes, or why the text is of no use as one. A flaw of the
text comes first, then parts that lie too deep, then what cannot be done, and last what the pattern as a whole
is like. A choice of a few texts needs no automaton, so no weight of one counts.
-/

namespace Collectives.Text

/-- How deep groups, brackets, rows, choices and repetitions may lie in each other. -/
def greatestDepth : Nat := 250

/-- What a text describes, unless it has a flaw. -/
def Pattern.described? (text : List Char) : Except PatternFlaw Pattern := do
  let tree ← PatternTree.read? text
  match tree.tooDeep? greatestDepth with
  | some stretch => flawed stretch (.tooDeep greatestDepth)
  | none => return (← tree.meaning {}).1

/-- The pattern that a text describes. -/
def Pattern.parse? (text : String) : Except Unusable Pattern :=
  match Pattern.described? text.toList with
  | .error flaw => .error (.flawed flaw)
  | .ok p =>
    if p.isFewTexts then .ok p
    else if p.forwardsGrowth.isTooLarge then .error .large
    else if p.asksWords then .error .words
    else if p.backwardsGrowth.isTooLarge then .error .large
    else .ok p

/-- A text without signs describes itself. -/
example : (Pattern.parse? "ab").toOption = some (.text ['a', 'b']) := by decide +kernel

end Collectives.Text
