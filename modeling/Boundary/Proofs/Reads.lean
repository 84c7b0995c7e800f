/-
  Boundary.Proofs.Reads — what only reads.

  An operation that reads leaves the state as it found it, whether it succeeds or fails.
  Two exports do nothing else, even where they fail: no guard records their failures.
-/
import Boundary.Perform
import Boundary.Proofs.Store

namespace Boundary

variable {σ ω O α β : Type}

def Reads (op : Op σ α) : Prop := ∀ P : σ → Prop, Does P op (fun _ => P) fun _ => P

namespace Reads

theorem pure (a : α) : Reads (pure a : Op σ α) := fun _ => .pure fun _ h => h

theorem throw (e : Fault) : Reads (throw e : Op σ α) := fun _ => .throw fun _ h => h

theorem throw_bind (e : Fault) (f : α → Op σ β) : Reads (MonadExcept.throw e >>= f : Op σ β) :=
  fun _ => .throw_bind fun _ h => h

theorem bind {op : Op σ α} {f : α → Op σ β} (h : Reads op) (hf : ∀ a, Reads (f a)) :
    Reads (op >>= f) :=
  fun P => .bind (h P) fun a => hf a P

theorem lift (r : Except Fault α) : Reads (liftM r : Op σ α) :=
  fun _ => .lift (fun _ _ _ h => h) fun _ _ _ h => h

theorem get (p : Part σ O) (x : Handle) : Reads (p.get x) := by
  intro P s hs
  show Either _ _ ((p.view s).table.get x) s
  cases (p.view s).table.get x <;> exact hs

theorem after_ok {op : Op σ α} (h : Reads op) {a : α} {s s' : σ} (hop : op s = (.ok a, s')) :
    s' = s :=
  (h (· = s)).after_ok rfl hop

end Reads

/-! ## Functions that only read -/

/-- Reading the last error leaves everything as it is, even where it fails. -/
theorem Fixed.getLastError_same (p : Part σ O) (h : Handle) (capacity : UInt32)
    (place : Exchange.Place UInt32 UInt8) (hasError : Exchange.Cell Bool) (s : σ) :
    (Fixed.getLastError p h capacity place hasError s).2 = s := by
  have hread (P : σ → Prop) : Ends P (p.lastError h).run fun _ => P := by
    intro s hs
    show P (p.lastError h s).2
    unfold Part.lastError
    dsimp only
    split
    · exact hs
    · cases (p.view s).table.slots.get? h <;> exact hs
  have hall : Ends (fun s' => s' = s) (Fixed.getLastError p h capacity place hasError)
      fun _ s' => s' = s := by
    refine .bind (hread _) fun r => ?_
    cases r with
    | error why => exact .pure fun _ h => h
    | ok message =>
      dsimp only
      split <;> exact .pure fun _ h => h
  exact hall s rfl

theorem lookupSymbol_same (ns name : TextArg) (address : Exchange.Cell (Option Address))
    (s : Process ω) : (lookupSymbol ns name address s).2 = s := by
  unfold lookupSymbol
  dsimp only
  split <;> rfl

/-! ## Objects of a kind -/

namespace Zoo

theorem animalsOf_reads (zoo : Handle) : Reads (animalsOf (ω := ω) zoo) := by
  refine .bind (.get part zoo) fun o => ?_
  cases o with
  | zoo animals => exact .pure animals
  | _ => exact .throw _

theorem fat_reads (h : Handle) : Reads (fat (ω := ω) h) :=
  .bind (.get part h) fun _ => .pure _

end Zoo

namespace Calculator

theorem valueOf_reads (v : Handle) : Reads (valueOf (ω := ω) v) := by
  refine .bind (.get part v) fun o => ?_
  cases o with
  | var value => exact .pure value
  | _ => exact .throw _

theorem enlistedIn_reads (calculator : Handle) : Reads (enlistedIn (ω := ω) calculator) := by
  refine .bind (.get part calculator) fun o => ?_
  cases o with
  | calculator enlisted => exact .pure enlisted
  | _ => exact .throw _

theorem valueOf_run {s : Process ω} {v : Handle} {value : Float}
    (hv : s.calculator.get v = .ok (.var value)) : valueOf v s = (.ok value, s) := by
  rw [valueOf, run_bind_ok (Part.get_run (p := part) hv)]
  rfl

theorem enlistedIn_run {s : Process ω} {calculator : Handle} {vs : List Handle}
    (hc : s.calculator.get calculator = .ok (.calculator vs)) :
    enlistedIn calculator s = (.ok vs, s) := by
  rw [enlistedIn, run_bind_ok (Part.get_run (p := part) hc)]
  rfl

theorem foldValues_reads (op : Float → Float → Float) (acc : Float) (vs : List Handle) :
    Reads (foldValues (ω := ω) op acc vs) := by
  induction vs generalizing acc with
  | nil => exact .pure acc
  | cons v rest ih => exact .bind (valueOf_reads v) fun _ => ih _

end Calculator

end Boundary
