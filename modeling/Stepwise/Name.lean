/-!
# Names

User code keeps what it owns under names.  A name is shared by all code of a
run, or belongs to a region of memory set aside for a purpose.
-/

namespace Stepwise

/-- Where a name belongs: to all code of a run, or to one region of memory set
aside for a machine. -/
inductive Scope where
  | shared
  | region (number : Nat)
  deriving DecidableEq, Inhabited

/-- The name under which user code keeps something. -/
structure Name where
  scope : Scope
  text : String
  deriving DecidableEq, Inhabited

/-- A name that all code of a run shares. -/
def Name.shared (text : String) : Name := ⟨.shared, text⟩

/-- A name within a region of memory. -/
def Name.within (region : Nat) (text : String) : Name := ⟨.region region, text⟩

end Stepwise
