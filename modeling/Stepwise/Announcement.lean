import Stepwise.Record

/-!
# Announcements of the cube-root demonstration

The demonstration announces that it has started, that the cube is ready, that
the root is ready, and that it has finished.
-/

namespace Stepwise

/-- What the demonstration announces. -/
inductive Announcement where
  | started
  | cube (number : Float)
  | root (number : Float)
  | finished

/-- The diagnostic record of an announcement. -/
def Announcement.record : Announcement → Record
  | .started => .demoStarted
  | .cube number => .cubeReady number
  | .root number => .rootReady number
  | .finished => .demoFinished

end Stepwise
