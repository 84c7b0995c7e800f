/-
  Boundary.Proofs.Exports.Primes — what primes exports do to the ledger.

  These objects own nothing, so references come with new objects alone. What is known of
  the books has to outlast the reports of a calculation, whatever it was about to store.
-/
import Boundary.Proofs.Exports.Calculator
import Boundary.Proofs.Primes.Results

namespace Boundary.Primes

open Exchange (Cell)

variable {ω : Type} {J : ω → Prop} {e : Ledger}

def inCell (cell : Cell Handle) : Ledger := .of .primes [cell.getD Handle.null]

theorem create_gives (kind : Kind) {cell : Cell Handle} (hc : inCell cell = 0) :
    Gives J (create kind cell : Act ω _) inCell := by
  refine primesSite.gives _ cell hc fun e => ?_
  refine .bind (Reads.lift _).balanced fun _ => ?_
  refine .bind (primesSite.insert_bare (o := { kind := kind }) rfl (stays_const True)) fun h => ?_
  exact .pure fun _ hs => hs.balanced

/-- Changes of calculators move no reference. -/
theorem update_balanced (x : Handle) (f : Object → Object) :
    Does (Balanced J e) (part.update x f : Op (Process ω) _) (fun _ => Balanced J e)
      fun _ => Balanced J e :=
  primesSite.update_same (f := f) (fun _ => rfl) (fun _ _ => trivial) x

theorem setValue_gives (x : Handle) (value : UInt64) :
    Gives J (setValue x value : Act ω _) fun _ => 0 := by
  refine primesSite.gives x () rfl fun e => ?_
  rw [add_zero]
  exact .bind (Reads.get part x).balanced fun _ => update_balanced x _

theorem setProgressCallback_gives (x : Handle) (callback : Option Foreign) :
    Gives J (setProgressCallback x callback : Act ω _) fun _ => 0 := by
  refine primesSite.gives x () rfl fun e => ?_
  rw [add_zero]
  exact .bind (Reads.get part x).balanced fun _ => update_balanced x _

theorem hold_reads (x : Handle) : Reads (part.hold x : Op (Process ω) _) := by
  intro P s hs
  show Either _ _ (((part (ω := ω)).view s).table.hold x) s
  cases ((part (ω := ω)).view s).table.hold x <;> exact hs

theorem calculate_gives {out : Outside ω} (q : OutsideOnly J out) (x : Handle) :
    Gives J (calculate out x) fun _ => 0 := by
  refine primesSite.gives x () rfl fun e => ?_
  rw [add_zero]
  refine .bind (hold_reads x).balanced fun (serial, o) => ?_
  refine .bind (Q := fun _ => Balanced J e) ?_ fun found => ?_
  · exact (outcome_does (fun f p => q.progress_balanced f p) o).post fun _ _ h => h.2
  refine .bind (Q := fun _ => Balanced J e) (fun s h => h) fun now => ?_
  refine .ite (fun _ => .throw_bind fun _ h => h) fun _ => ?_
  exact primesSite.updateHeld (f := fun o => { o with result := some found }) (fun _ => rfl)
    (fun _ _ => trivial) x serial

end Boundary.Primes
