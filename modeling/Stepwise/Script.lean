import Stepwise.Program

/-!
# Writing programs

A script is a program under construction: a function from what comes after a
result to the whole program.  Scripts are sequenced by `do`, make requests, and
may panic or end the whole program early.
-/

namespace Stepwise

/-- Code under construction: given what comes after a result, the whole
program. -/
def Script (α : Type) : Type := (α → Program) → Program

namespace Script

instance : Monad Script where
  pure result := fun next => next result
  bind script rest := fun next => script fun result => rest result next

/-- Make a request. -/
def request (request : Request) : Script Reply := fun next => .call request next

/-- Panic. -/
def panic {α : Type} (payload : Payload) : Script α := fun _ => .panic payload

/-- End the whole program with a reply. -/
def exit {α : Type} (reply : Reply) : Script α := fun _ => .ret reply

/-- The program of a script that ends with a reply. -/
def toProgram (script : Script Reply) : Program := script .ret

/-- The program of a script whose result does not matter. -/
def toCallback {α : Type} (script : Script α) : Program := script fun _ => .ret .done

/-- The number in a cell of memory; zero at first. -/
def loadNat (cell : Name) : Script Nat := do
  match ← request (.load cell) with
  | .outcome (.ok value) => pure value.asNat
  | _ => pure 0

/-- Put a number into a cell of memory. -/
def storeNat (cell : Name) (number : Nat) : Script Unit := do
  let _ ← request (.store cell (.ok (.int number)))

end Script

end Stepwise
