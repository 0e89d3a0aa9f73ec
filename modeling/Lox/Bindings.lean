/-!
# Bindings

Finitely many keys, each bound to one value, in the order in which the keys were first bound.

Contents: `Bindings` with `find?` and `insert`; main statements `find?_insert_self` and
`find?_insert_of_ne`.
-/

namespace Lox

structure Bindings (κ α : Type) where
  entries : List (κ × α)

namespace Bindings

variable {κ α : Type} [DecidableEq κ]

def empty : Bindings κ α := ⟨[]⟩

def findIn (key : κ) : List (κ × α) → Option α
  | [] => none
  | (k, value) :: rest => if k = key then some value else findIn key rest

/-- The entries with the value of one key replaced, or with a new entry at the end. -/
def insertIn (key : κ) (value : α) : List (κ × α) → List (κ × α)
  | [] => [(key, value)]
  | (k, old) :: rest => if k = key then (k, value) :: rest else (k, old) :: insertIn key value rest

def find? (b : Bindings κ α) (key : κ) : Option α := findIn key b.entries

def contains (b : Bindings κ α) (key : κ) : Bool := (b.find? key).isSome

def insert (b : Bindings κ α) (key : κ) (value : α) : Bindings κ α := ⟨insertIn key value b.entries⟩

@[simp] theorem find?_empty (key : κ) : (empty : Bindings κ α).find? key = none := rfl

@[simp] theorem find?_insert_self (b : Bindings κ α) (key : κ) (value : α) :
    (b.insert key value).find? key = some value := by
  obtain ⟨entries⟩ := b
  simp only [find?, insert]
  induction entries with
  | nil => simp [insertIn, findIn]
  | cons entry rest ih =>
    obtain ⟨k, old⟩ := entry
    by_cases same : k = key <;> simp [insertIn, findIn, same, ih]

theorem find?_insert_of_ne (b : Bindings κ α) {key other : κ} (value : α) (different : other ≠ key) :
    (b.insert key value).find? other = b.find? other := by
  obtain ⟨entries⟩ := b
  simp only [find?, insert]
  induction entries with
  | nil => simp [insertIn, findIn, different.symm]
  | cons entry rest ih =>
    obtain ⟨k, old⟩ := entry
    by_cases same : k = key
    · subst same
      simp [insertIn, findIn, different.symm]
    · simp [insertIn, findIn, same, ih]

end Bindings

end Lox
