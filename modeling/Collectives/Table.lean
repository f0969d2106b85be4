/-!
# Tables

A finite map as a list of entries, at most one for each key. Replacing an entry keeps its place; a new one
goes to the end.
-/

namespace Collectives

/-- A finite map. -/
structure Table (κ ν : Type) where
  /-- The entries. -/
  entries : List (κ × ν) := []

namespace Table

variable {κ ν : Type} [DecidableEq κ]

/-- The value in the first entry of a key. -/
def findIn (k : κ) : List (κ × ν) → Option ν
  | [] => none
  | (k', v) :: rest => if k = k' then some v else findIn k rest

/-- The value of a key. -/
def find? (t : Table κ ν) (k : κ) : Option ν := findIn k t.entries

/-- Entries with the value of a key replaced or added. -/
def putIn (k : κ) (v : ν) : List (κ × ν) → List (κ × ν)
  | [] => [(k, v)]
  | (k', v') :: rest => if k = k' then (k, v) :: rest else (k', v') :: putIn k v rest

/-- The table with the value of a key replaced or added. -/
def insert (t : Table κ ν) (k : κ) (v : ν) : Table κ ν := { entries := putIn k v t.entries }

/-- The table without a key. -/
def erase (t : Table κ ν) (k : κ) : Table κ ν := { entries := t.entries.filter fun e => e.1 ≠ k }

/-- The values, in the order of the entries. -/
def values (t : Table κ ν) : List ν := t.entries.map Prod.snd

theorem findIn_putIn (k k' : κ) (v : ν) (es : List (κ × ν)) :
    findIn k' (putIn k v es) = if k' = k then some v else findIn k' es := by
  induction es with
  | nil => simp [putIn, findIn]
  | cons e es ih =>
    obtain ⟨k₀, v₀⟩ := e
    by_cases h : k = k₀
    · subst h; by_cases h' : k' = k <;> simp [putIn, findIn, h']
    · by_cases h' : k' = k₀
      · subst h'
        have hk : ¬k' = k := fun e => h e.symm
        simp [putIn, findIn, h, hk]
      · simp [putIn, findIn, h, h', ih]

/-- Looking a key up after an insertion. -/
theorem find?_insert (t : Table κ ν) (k k' : κ) (v : ν) :
    (t.insert k v).find? k' = if k' = k then some v else t.find? k' :=
  findIn_putIn k k' v t.entries

theorem findIn_filter (k k' : κ) (es : List (κ × ν)) :
    findIn k' (es.filter fun e => e.1 ≠ k) = if k' = k then none else findIn k' es := by
  induction es with
  | nil => simp [findIn]
  | cons e es ih =>
    obtain ⟨k₀, v₀⟩ := e
    simp only [ne_eq, decide_not, List.filter_cons] at ih ⊢
    by_cases h : k₀ = k <;> by_cases h' : k' = k <;> by_cases h'' : k' = k₀ <;>
      simp_all [findIn]

/-- Looking a key up after a removal. -/
theorem find?_erase (t : Table κ ν) (k k' : κ) :
    (t.erase k).find? k' = if k' = k then none else t.find? k' :=
  findIn_filter k k' t.entries

end Table

end Collectives
