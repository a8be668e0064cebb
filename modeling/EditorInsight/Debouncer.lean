import EditorInsight.Diagnostic

/-!
# Debouncing

A check has to wait until edits have rested for a while. A debouncer holds the time at which the
rest is over, and the findings of the last check that changed anything. Time is given by the caller,
in milliseconds.

* `Debouncer.arm` restarts the rest, `Debouncer.cancel` stops it.
* `Debouncer.poll` says whether the rest is over, at most once for each time it was armed.
* `Debouncer.record` compares findings with the last ones.
-/

namespace EditorInsight

/-- What findings are compared with the last ones. -/
inductive CheckOutcome where
  /-- The same findings as last time. -/
  | unchanged
  /-- Other findings. -/
  | changed
deriving DecidableEq, Repr

/-- The timer of one buffer. -/
structure Debouncer where
  /-- How long edits have to rest. -/
  quiet : Nat
  /-- When the rest is over; none if nothing is waited for. -/
  deadline : Option Nat := none
  /-- The findings of the last check that changed anything. -/
  lastFired : Option (List Diagnostic) := none
deriving DecidableEq, Repr, Inhabited

namespace Debouncer

/-- Whether the end of a rest is waited for. -/
def isPending (d : Debouncer) : Bool := d.deadline.isSome

/-- Restarts the rest. -/
def arm (d : Debouncer) (now : Nat) : Debouncer := { d with deadline := some (now + d.quiet) }

/-- Stops waiting. -/
def cancel (d : Debouncer) : Debouncer := { d with deadline := none }

/-- Whether the rest is over at the given time. -/
def isDue (d : Debouncer) (now : Nat) : Bool := d.deadline.any (· ≤ now)

/-- Says whether the rest is over, and then stops waiting. -/
def poll (d : Debouncer) (now : Nat) : Debouncer × Bool :=
  if d.isDue now then (d.cancel, true) else (d, false)

/-- Compares findings with the last ones. Other findings are kept and restart the rest, so that
checks go on until the findings settle. -/
def record (d : Debouncer) (findings : List Diagnostic) (now : Nat) : Debouncer × CheckOutcome :=
  if d.lastFired = some findings then (d, .unchanged)
  else ({ d with lastFired := some findings }.arm now, .changed)

/-- Forgets the last findings, so that the next ones count as other findings. -/
def reset (d : Debouncer) : Debouncer := { d with lastFired := none }

end Debouncer

end EditorInsight
