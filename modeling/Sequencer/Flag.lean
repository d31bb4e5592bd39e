/-!
# Running flags

A flag is raised when it is made and lowered for good by a stop. Several holders may share one flag:
each sees what any of them did to it.
-/

namespace Sequencer

/-- The flags in the order of their making, and for each holder the flag that it holds. -/
structure Flags where
  raised : Array Bool
  holders : Array Nat

namespace Flags

def empty : Flags := { raised := #[], holders := #[] }

/-- Adds a holder with a flag of its own. -/
def addFresh (flags : Flags) : Flags :=
  { raised := flags.raised.push true, holders := flags.holders.push flags.raised.size }

/-- Adds a holder that shares the flag of another. -/
def share (flags : Flags) (holder : Nat) : Flags :=
  match flags.holders[holder]? with
  | some flag => { flags with holders := flags.holders.push flag }
  | none => flags

/-- Lowers the flag of a holder. -/
def lower (flags : Flags) (holder : Nat) : Flags :=
  match flags.holders[holder]? with
  | some flag => { flags with raised := flags.raised.setIfInBounds flag false }
  | none => flags

/-- For each holder, whether its flag is raised. -/
def running (flags : Flags) : Array Bool :=
  flags.holders.map fun flag => (flags.raised[flag]?).getD false

end Flags

end Sequencer
