/-
  Boundary.Thread — threads and the journal of a running state (`GLOBAL_ERRORS`, which
  each thread has its own of).

  A thread runs to its end before its caller goes on; what is kept per thread is its
  own. The journal is read piece by piece.
-/
import Boundary.Store

namespace Boundary

/-- States with the parts that a whole process shares. -/
class Threaded (σ : Type) where
  shared : σ → Shared
  setShared : Shared → σ → σ

variable {σ α : Type} [Threaded σ]

/-- The notes since the last time, oldest first. -/
def takeNotes : StateM σ (List Note) := fun s =>
  let shared := Threaded.shared s
  (shared.journal.reverse, Threaded.setShared { shared with journal := [] } s)

/-- Runs on a thread that was not there before. -/
def onThread (x : StateM σ α) : StateM σ α := fun s =>
  let shared := Threaded.shared s
  let (a, s) := x (Threaded.setShared shared.startThread s)
  (a, Threaded.setShared { Threaded.shared s with thread := shared.thread } s)

end Boundary
