import Stepwise.Program

/-!
# Named tables

A table keeps at most one value under each name, which is part of its type.
-/

namespace Stepwise

/-- Values under names, no two under the same. -/
structure Table (α : Type) where
  entries : List (Name × α)
  distinct : (entries.map (·.1)).Nodup

namespace Table

variable {α : Type}

/-- A table without entries. -/
def empty : Table α := ⟨[], .nil⟩

instance : Inhabited (Table α) := ⟨empty⟩

/-- The value under a name. -/
def find? (table : Table α) (name : Name) : Option α := table.entries.lookup name

/-- Forget the value under a name. -/
def erase (table : Table α) (name : Name) : Table α :=
  ⟨table.entries.filter fun entry => entry.1 != name,
    table.distinct.sublist (List.filter_sublist.map _)⟩

/-- An erased name is in use no more. -/
theorem notMem_names_erase (table : Table α) (name : Name) :
    name ∉ (table.erase name).entries.map (·.1) := by
  intro member
  obtain ⟨entry, kept, rfl⟩ := List.mem_map.mp member
  simp [erase] at kept

/-- Keep a value under a name, in place of any other. -/
def insert (table : Table α) (name : Name) (value : α) : Table α :=
  ⟨(name, value) :: (table.erase name).entries,
    List.nodup_cons.mpr ⟨table.notMem_names_erase name, (table.erase name).distinct⟩⟩

/-- The names in use. -/
def names (table : Table α) : List Name := table.entries.map (·.1)

@[simp] theorem find?_empty (name : Name) : (empty : Table α).find? name = none := rfl

@[simp] theorem find?_erase (table : Table α) (name other : Name) :
    (table.erase name).find? other =
      if name = other then none else table.find? other := by
  obtain ⟨entries, distinct⟩ := table
  simp only [erase, find?]
  clear distinct
  induction entries with
  | nil => simp
  | cons entry rest ih =>
      by_cases removed : entry.1 = name
      · rw [List.filter_cons_of_neg (by simp [removed]), ih, List.lookup_cons]
        by_cases same : name = other
        · simp [same]
        · have differs : (other == entry.1) = false := by
            simpa [removed] using fun equal : other = name => same equal.symm
          simp [differs]
      · rw [List.filter_cons_of_pos (by simpa using removed), List.lookup_cons,
          List.lookup_cons, ih]
        by_cases same : name = other
        · have differs : (other == entry.1) = false := by
            simpa [← same] using fun equal : name = entry.1 => removed equal.symm
          simp [differs, same]
        · simp [same]

@[simp] theorem find?_insert (table : Table α) (name other : Name) (value : α) :
    (table.insert name value).find? other =
      if name = other then some value else table.find? other := by
  have erased := find?_erase table name other
  simp only [find?] at erased
  rw [find?, insert, List.lookup_cons, erased, find?]
  by_cases same : name = other
  · simp [same]
  · have differs : (other == name) = false := by
      simpa using fun equal : other = name => same equal.symm
    simp [differs, same]

end Table

end Stepwise
