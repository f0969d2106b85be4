import Collectives.Text.Pattern.Tree

/-!
# What patterns describe

The tree of a pattern is read in a mode, part by part, and switches in it change the mode for what follows. What
cannot be done is a flaw of the part that asks for it: classes, properties and cases are known for ASCII only,
and a set of ASCII characters has no others to turn to.
-/

namespace Collectives.Text

/-! ## Letters and classes -/

/-- Whether a mode for ASCII can look for a letter. A byte that is no character by itself it cannot. -/
def PatternMode.checkByte (m : PatternMode) (l : PatternLetter) : Except PatternFlaw Unit :=
  if m.ascii && l.byte && 128 ≤ l.char.toNat then flawed l.stretch .notText else .ok ()

/-- Whether a letter can be in a set. -/
def PatternMode.checkMember (m : PatternMode) (l : PatternLetter) : Except PatternFlaw Unit := do
  m.checkByte l
  if m.ascii && 128 ≤ l.char.toNat then flawed l.stretch .notAscii else return ()

/-- Names of values that are known to be no properties. -/
def valueNames : List String := ["cf", "sc", "lc"]

/-- The name of a property without what plays no part in it: case, dashes, blanks and an "is" in front. -/
def plainName (name : List Char) : List Char :=
  let named := lowered (name.take 2) == "is".toList
  let rest := if named then name.drop 2 else name
  let plain := lowered (rest.filter fun c => c.toNat < 128 && c != ' ' && c != '_' && c != '-')
  if named && plain == ['c'] then "isc".toList else plain

/-- What is wrong with asking for a property. -/
def PatternMode.propertyFault (m : PatternMode) (name : List Char) : PatternFault :=
  if m.ascii then .notAscii
  else if name.any fun c => c == ':' || c == '=' then .propertyUnavailable
  else if valueNames.contains (String.ofList (plainName name)) then .valueUnavailable
  else .propertyUnavailable

/-- The characters of a class with a letter of its own. -/
def PatternMode.brief (m : PatternMode) (s : Stretch) (set : CharSet) (negated : Bool) :
    Except PatternFlaw CharSet :=
  if !m.ascii then flawed s .classUnavailable
  else if negated then flawed s .notText
  else .ok set

/-! ## Sets -/

/-- A set that is being put together. -/
structure SetDraft where
  /-- Its characters. -/
  set : CharSet := .empty
  /-- Whether letters were joined whose other case was not looked for. -/
  bare : Bool := false

/-- Completes a set, so that the other case of each letter is in it where the mode wants it. -/
def PatternMode.complete (m : PatternMode) (s : Stretch) (d : SetDraft) : Except PatternFlaw CharSet :=
  if !m.anyCase then .ok d.set
  else if m.ascii then .ok d.set.anyCase
  else if d.bare then flawed s .caseUnavailable
  else .ok d.set

/-- All characters that are not in a set, where that is asked for. -/
def PatternMode.turn (m : PatternMode) (s : Stretch) (negated : Bool) (set : CharSet) :
    Except PatternFlaw CharSet :=
  if !negated then .ok set else if m.ascii then flawed s .notText else .ok set.other

/-- What a pair of signs makes of two sets. -/
def SetJoint.apply : SetJoint → CharSet → CharSet → CharSet
  | .both => .both
  | .without => .without
  | .differing => .differing

/-- The set of a symbol between brackets. -/
def PatternSymbol.members (m : PatternMode) : PatternSymbol → Except PatternFlaw SetDraft
  | .letter l => do
    m.checkMember l
    return { set := .one l.char, bare := true }
  | .brief s set negated => do return { set := ← m.brief s set negated }
  | .property s name => flawed s (m.propertyFault name)
  | _ => .ok {}

mutual

/-- The set of what stands between brackets. -/
def BracketTree.members (m : PatternMode) : BracketTree → Except PatternFlaw SetDraft
  | .nothing _ => .ok {}
  | .symbol sign => sign.members m
  | .range low high => do
    m.checkMember low
    m.checkMember high
    return { set := .range low.char high.char, bare := true }
  | .named s set negated => do
    let full ← m.complete s { set, bare := true }
    return { set := ← m.turn s negated full }
  | .bracket s negated inner => do
    let full ← m.complete s (← inner.members m)
    return { set := ← m.turn s negated full }
  | .union _ items => do
    let drafts ← BracketTree.allMembers m items
    return { set := .any (drafts.map (·.set)), bare := drafts.any (·.bare) }
  | .joint _ how lhs rhs => do
    let first ← lhs.members m
    let second ← rhs.members m
    let second ← m.complete rhs.stretch second
    let first ← m.complete lhs.stretch first
    return { set := how.apply first second }

/-- The sets of several things between brackets. -/
def BracketTree.allMembers (m : PatternMode) : List BracketTree → Except PatternFlaw (List SetDraft)
  | [] => .ok []
  | item :: more => do
    let first ← item.members m
    let rest ← BracketTree.allMembers m more
    return first :: rest

end

/-! ## Patterns -/

/-- The pattern of a letter. -/
def PatternMode.letter (m : PatternMode) (l : PatternLetter) : Except PatternFlaw Pattern := do
  m.checkByte l
  if !m.anyCase then return .text [l.char]
  else if m.ascii then return .ofSet (CharSet.one l.char).anyCase true
  else flawed l.stretch .caseUnavailable

/-- The pattern of a symbol. -/
def PatternSymbol.meaning (m : PatternMode) : PatternSymbol → Except PatternFlaw Pattern
  | .letter l => m.letter l
  | .brief s set negated => do return .ofSet (← m.brief s set negated) m.ascii
  | .property s name => flawed s (m.propertyFault name)
  | .dot s => if m.ascii then flawed s .notText else .ok (.ofSet m.dot false)
  | .start _ byMode => .ok (.anchor (.start (if byMode then m.extent else .text)))
  | .stop _ byMode => .ok (.anchor (.stop (if byMode then m.extent else .text)))
  | .word _ place => .ok (.anchor (.word place m.ascii))

/-- The mode inside of a group. -/
def GroupKind.mode (m : PatternMode) : GroupKind → PatternMode
  | .captured _ => m
  | .switched switches => switches.foldl .switched m

/-- The pattern of a group. -/
def GroupKind.around (p : Pattern) : GroupKind → Pattern
  | .captured number => .capture number p
  | .switched _ => p

mutual

/-- The pattern of a tree, and the mode after it. -/
def PatternTree.meaning (m : PatternMode) : PatternTree → Except PatternFlaw (Pattern × PatternMode)
  | .nothing _ => .ok (.nothing, m)
  | .switch _ switches => .ok (.nothing, switches.foldl .switched m)
  | .symbol sign => do return (← sign.meaning m, m)
  | .bracket s negated inner => do
    let full ← m.complete s (← inner.members m)
    return (.ofSet (← m.turn s negated full) m.ascii, m)
  | .repeated _ least most asksFew inner => do
    let (p, after) ← inner.meaning m
    return (p.times least most (asksFew == m.shy), after)
  | .group _ kind inner => do
    let (p, _) ← inner.meaning (kind.mode m)
    return (kind.around p, m)
  | .row _ items => do
    let (ps, after) ← PatternTree.meanings m items
    return (.row ps, after)
  | .choice _ items => do
    let (ps, after) ← PatternTree.meanings m items
    return (.oneOf ps, after)

/-- The patterns of several trees, one after the other, and the mode after them. -/
def PatternTree.meanings (m : PatternMode) :
    List PatternTree → Except PatternFlaw (List Pattern × PatternMode)
  | [] => .ok ([], m)
  | item :: more => do
    let (p, m) ← item.meaning m
    let (ps, m) ← PatternTree.meanings m more
    return (p :: ps, m)

end

end Collectives.Text
