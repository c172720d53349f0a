import Mathlib.Algebra.GroupWithZero.Nat
import Stepwise.Table
import Stepwise.Store

/-!
# Totals over stores and tables

Each value of a store or a table counts for a number.  To add, change or forget
one value changes the total by what that value counts for, and nothing else.
-/

namespace Stepwise

variable {α : Type}

/-- Changing the item at one index changes a sum by that item alone. -/
theorem sum_map_modify {items : List α} {index : Nat} {item : α}
    (found : items[index]? = some item) (change : α → α) (weigh : α → Nat) :
    ((items.modify index change).map weigh).sum + weigh item =
      (items.map weigh).sum + weigh (change item) := by
  induction items generalizing index with
  | nil => simp at found
  | cons head rest ih =>
      cases index with
      | zero =>
          simp only [List.getElem?_cons_zero, Option.some.injEq] at found
          subst found
          simp only [List.modify_zero_cons, List.map_cons, List.sum_cons]
          omega
      | succ index =>
          simp only [List.getElem?_cons_succ] at found
          have tail := ih found
          simp only [List.modify_succ_cons, List.map_cons, List.sum_cons]
          omega

namespace Store

/-- What all values of a store count for. -/
def total (store : Store α) (weigh : α → Nat) : Nat :=
  (store.values.toList.map weigh).sum

@[simp] theorem total_push (store : Store α) (value : α) (weigh : α → Nat) :
    (store.push value).total weigh = store.total weigh + weigh value := by
  simp [total, push]

theorem get?_toList (store : Store α) (number : Nat) :
    store.values.toList[number]? = store.get? number := by
  simp [get?]

theorem total_modify {store : Store α} {number : Nat} {value : α}
    (found : store.get? number = some value) (change : α → α) (weigh : α → Nat) :
    (store.modify number change).total weigh + weigh value =
      store.total weigh + weigh (change value) := by
  simp only [total, modify, Array.toList_modify]
  exact sum_map_modify (by rw [get?_toList, found]) change weigh

/-- A change that no value's weight notices leaves the total alone. -/
theorem total_modify_of_eq (store : Store α) (number : Nat) {change : α → α}
    {weigh : α → Nat} (same : ∀ value, weigh (change value) = weigh value) :
    (store.modify number change).total weigh = store.total weigh := by
  cases found : store.get? number with
  | some value =>
      have changed := total_modify found change weigh
      rw [same value] at changed
      omega
  | none =>
      rw [modify_of_none found]

theorem le_total {store : Store α} {number : Nat} {value : α}
    (found : store.get? number = some value) (weigh : α → Nat) :
    weigh value ≤ store.total weigh := by
  rw [← get?_toList] at found
  obtain ⟨before, after, split⟩ := List.append_of_mem (List.mem_of_getElem? found)
  simp only [total, split, List.map_append, List.map_cons, List.sum_append, List.sum_cons]
  omega

theorem exists_of_total_pos {store : Store α} {weigh : α → Nat}
    (positive : 0 < store.total weigh) :
    ∃ number value, store.get? number = some value ∧ 0 < weigh value := by
  obtain ⟨weight, member, heavy⟩ := List.sum_pos_iff_exists_pos_nat.mp positive
  obtain ⟨value, held, rfl⟩ := List.mem_map.mp member
  obtain ⟨number, found⟩ := List.getElem?_of_mem held
  exact ⟨number, value, by rw [← get?_toList, found], heavy⟩

end Store

namespace Table

/-- What all values of a table count for. -/
def total (table : Table α) (weigh : α → Nat) : Nat :=
  (table.entries.map fun entry => weigh entry.2).sum

/-- Without its name, a list of entries counts for what it did, less the value
that was under the name. -/
theorem total_erase (table : Table α) (name : Name) (weigh : α → Nat) :
    (table.erase name).total weigh + ((table.find? name).map weigh).getD 0 =
      table.total weigh := by
  obtain ⟨entries, distinct⟩ := table
  simp only [total, erase, find?]
  induction entries with
  | nil => simp
  | cons entry rest ih =>
      simp only [List.map_cons, List.nodup_cons] at distinct
      have tail := ih distinct.2
      by_cases removed : entry.1 = name
      · have absent : rest.filter (fun other => other.1 != name) = rest := by
          apply List.filter_eq_self.mpr
          intro other member
          have differs : other.1 ≠ entry.1 := fun equal =>
            distinct.1 (equal ▸ List.mem_map.mpr ⟨other, member, rfl⟩)
          simpa [removed] using differs
        rw [List.filter_cons_of_neg (by simp [removed]), List.lookup_cons, absent]
        simp [removed, Nat.add_comm]
      · have differs : (name == entry.1) = false := by
          simpa using fun equal : name = entry.1 => removed equal.symm
        rw [List.filter_cons_of_pos (by simpa using removed), List.lookup_cons, differs]
        simp only [List.map_cons, List.sum_cons]
        omega

theorem total_insert (table : Table α) (name : Name) (value : α) (weigh : α → Nat) :
    (table.insert name value).total weigh + ((table.find? name).map weigh).getD 0 =
      table.total weigh + weigh value := by
  have erased := total_erase table name weigh
  simp only [total, insert, List.map_cons, List.sum_cons] at erased ⊢
  omega

theorem le_total {table : Table α} {name : Name} {value : α}
    (found : table.find? name = some value) (weigh : α → Nat) :
    weigh value ≤ table.total weigh := by
  have erased := total_erase table name weigh
  rw [found] at erased
  simp only [Option.map_some, Option.getD_some] at erased
  omega

/-- What stands in a table is found under its name. -/
theorem find?_of_mem {table : Table α} {name : Name} {value : α}
    (member : (name, value) ∈ table.entries) : table.find? name = some value := by
  obtain ⟨entries, distinct⟩ := table
  simp only [find?] at member ⊢
  induction entries with
  | nil => simp at member
  | cons entry rest ih =>
      simp only [List.map_cons, List.nodup_cons] at distinct
      rcases List.mem_cons.mp member with rfl | later
      · simp
      · have differs : (name == entry.1) = false := by
          simp only [beq_eq_false_iff_ne, ne_eq]
          exact fun equal => distinct.1 (equal ▸ List.mem_map.mpr ⟨_, later, rfl⟩)
        rw [List.lookup_cons, differs]
        exact ih distinct.2 later

theorem exists_of_total_pos {table : Table α} {weigh : α → Nat}
    (positive : 0 < table.total weigh) :
    ∃ name value, table.find? name = some value ∧ 0 < weigh value := by
  obtain ⟨weight, member, heavy⟩ := List.sum_pos_iff_exists_pos_nat.mp positive
  obtain ⟨entry, held, rfl⟩ := List.mem_map.mp member
  exact ⟨entry.1, entry.2, find?_of_mem held, heavy⟩

end Table

end Stepwise
