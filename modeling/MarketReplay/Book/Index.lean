/-
An index: the position filed last under each key. Filing a position under a
key hides what was filed under that key before and touches no other key.
-/

namespace MarketReplay

/-- Positions filed under keys, the newest first. -/
structure Index (κ : Type) where
  entries : List (κ × Nat)
deriving DecidableEq, Repr

namespace Index

variable {κ : Type} [DecidableEq κ]

/-- The index under which nothing is filed. -/
def empty : Index κ := ⟨[]⟩

/-- The index with one more position filed. -/
def file (index : Index κ) (key : κ) (position : Nat) : Index κ :=
  ⟨(key, position) :: index.entries⟩

/-- The position filed last under a key. -/
def find? (index : Index κ) (key : κ) : Option Nat :=
  index.entries.lookup key

@[simp] theorem find?_empty (key : κ) : (empty : Index κ).find? key = none := rfl

theorem find?_file (index : Index κ) (key other : κ) (position : Nat) :
    (index.file key position).find? other
      = if other = key then some position else index.find? other := by
  unfold find? file
  rw [List.lookup_cons]
  by_cases h : other = key
  · simp [h]
  · have : (other == key) = false := by simpa using h
    simp [this, h]

end Index

end MarketReplay
