/-!
# Numbered stores

A store keeps values under consecutive numbers.  Values are added at the end
and changed in place; none is ever removed, so a number stays valid.
-/

namespace Stepwise

/-- Values under consecutive numbers from zero. -/
structure Store (α : Type) where
  values : Array α

namespace Store

variable {α : Type}

/-- A store without values. -/
def empty : Store α := ⟨#[]⟩

instance : Inhabited (Store α) := ⟨empty⟩

/-- How many values there are; the number of the next one. -/
def size (store : Store α) : Nat := store.values.size

/-- The value under a number. -/
def get? (store : Store α) (number : Nat) : Option α := store.values[number]?

/-- Add a value under the next number. -/
def push (store : Store α) (value : α) : Store α := ⟨store.values.push value⟩

/-- Change the value under a number, if there is one. -/
def modify (store : Store α) (number : Nat) (change : α → α) : Store α :=
  ⟨store.values.modify number change⟩

@[simp] theorem get?_empty (number : Nat) : (empty : Store α).get? number = none := by
  simp [empty, get?]

@[simp] theorem get?_push (store : Store α) (value : α) (number : Nat) :
    (store.push value).get? number =
      if number = store.size then some value else store.get? number :=
  Array.getElem?_push

@[simp] theorem get?_modify (store : Store α) (number : Nat) (change : α → α) (other : Nat) :
    (store.modify number change).get? other =
      if number = other then (store.get? other).map change else store.get? other := by
  simp [modify, get?, Array.getElem?_modify]

/-- Under a number that is not in use there is nothing to change. -/
theorem modify_of_none {store : Store α} {number : Nat} {change : α → α}
    (absent : store.get? number = none) : store.modify number change = store := by
  have beyond : store.values.size ≤ number := by simpa [get?] using absent
  have unchanged : store.values.modify number change = store.values := by
    apply Array.ext_getElem?
    intro index
    rw [Array.getElem?_modify]
    split
    · next equal => subst equal; simp [beyond]
    · rfl
  simp [modify, unchanged]

@[simp] theorem modify_id (store : Store α) (number : Nat) : store.modify number id = store := by
  have unchanged : store.values.modify number id = store.values := by
    apply Array.ext_getElem?
    intro index
    rw [Array.getElem?_modify]
    split <;> simp
  simp [modify, unchanged]

/-- Two changes of one value are one. -/
theorem modify_modify (store : Store α) (number : Nat) (first second : α → α) :
    (store.modify number first).modify number second =
      store.modify number fun value => second (first value) := by
  have unchanged : (store.values.modify number first).modify number second =
      store.values.modify number fun value => second (first value) := by
    apply Array.ext_getElem?
    intro index
    simp only [Array.getElem?_modify]
    split
    · rw [Option.map_map]
      rfl
    · rfl
  simp [modify, unchanged]

/-- What a changed store has under a number is the changed value, or was there. -/
theorem get?_of_modify {store : Store α} {number other : Nat} {found value : α}
    {change : α → α} (lookup : store.get? number = some found)
    (changed : (store.modify number change).get? other = some value) :
    (other = number ∧ value = change found) ∨ store.get? other = some value := by
  rw [get?_modify] at changed
  by_cases same : number = other
  · subst same
    simp only [if_true, lookup, Option.map_some, Option.some.injEq] at changed
    exact .inl ⟨rfl, changed.symm⟩
  · simp only [same, if_false] at changed
    exact .inr changed

@[simp] theorem size_push (store : Store α) (value : α) :
    (store.push value).size = store.size + 1 := by
  simp [push, size]

@[simp] theorem size_modify (store : Store α) (number : Nat) (change : α → α) :
    (store.modify number change).size = store.size := by
  simp [modify, size]

end Store

end Stepwise
