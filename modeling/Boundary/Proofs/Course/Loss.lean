/-
  Boundary.Proofs.Course.Loss — moves that make and change no object.

  References come and go, failures are recorded and notes are added: under any handle there is
  the object that was there before, or none any more, and no handle is issued. So a relation
  that holds of states that differ in no more than that (`AllowsLoss`) holds of the states before
  and after such a move, and what is known outlasts the moves if it outlasts the relation
  (`AllowsLoss.outlastsRefs`).
-/
import Boundary.Proofs.Course.Rules
import Boundary.Proofs.Release

namespace Boundary

variable {σ O : Type} {p : Part σ O} {R : σ → σ → Prop}

/-- What is left after a release is what it was. -/
theorem Table.object_release [Resource O] (t : Table O) (x : Handle) {y : Handle} {o : O}
    (h : (t.release x).1.get? y = some o) : t.get? y = some o := by
  obtain ⟨a', ha', rfl⟩ := Option.map_eq_some_iff.mp h
  obtain ⟨a, ha, -, ho⟩ := t.release_slots x ha'
  rw [get?, ha, ho]
  rfl

/-- The relation bears that objects of the component are gone. -/
structure AllowsLoss (p : Part σ O) (R : σ → σ → Prop) : Prop where
  refl : ∀ s, R s s
  trans : ∀ {s t u}, R s t → R t u → R s u
  put : ∀ {s st}, st.shared.issued = (p.view s).shared.issued →
    (∀ x o, st.table.get? x = some o → (p.view s).table.get? x = some o) → R s (p.put st s)

namespace AllowsLoss

variable (allowsLoss : AllowsLoss p R)
include allowsLoss

theorem same {s : σ} {st : Store O} (hi : st.shared.issued = (p.view s).shared.issued)
    (ho : ∀ x, st.table.get? x = (p.view s).table.get? x) : R s (p.put st s) :=
  allowsLoss.put hi fun x _ h => ho x ▸ h

theorem note (n : String → Note) (s : σ) : R s (p.note n s).2 := allowsLoss.same rfl fun _ => rfl

theorem recordError (x : Handle) (message : String) (s : σ) : R s (p.recordError x message s).2 := by
  unfold Part.recordError
  dsimp only
  split
  · exact allowsLoss.same rfl (Table.object_modify _ x
      (f := fun a => { a with lastError := some message }) fun _ => rfl)
  · exact allowsLoss.same rfl fun _ => rfl

theorem fail (x : Handle) (why : Fault) (s : σ) : R s (p.fail x why s).2 :=
  allowsLoss.trans (allowsLoss.note (fun component => .callFailed component why) s)
    (allowsLoss.recordError x _ _)

theorem acquire (x : Handle) (s : σ) : R s (p.acquire x s).2 := by
  cases ha : (p.view s).table.acquire x with
  | error why =>
    rw [Part.acquire_error ha]
    exact allowsLoss.refl s
  | ok t =>
    rw [Part.acquire_ok ha]
    obtain ⟨a, -, -, rfl⟩ := Table.acquire_ok ha
    exact allowsLoss.same rfl (Table.object_setCount _ x _)

theorem release [Resource O] (x : Handle) (s : σ) : R s (p.release x s).2 :=
  allowsLoss.put rfl fun _ _ ho => Table.object_release _ x ho

/-- What outlasts the relation outlasts references that come and go. -/
theorem outlastsRefs [Resource O] {P : σ → Prop} (hP : ∀ {s s'}, P s → R s s' → P s') :
    OutlastsRefs p P where
  acquire x s h := hP h (allowsLoss.acquire x s)
  release x s h := hP h (allowsLoss.release x s)
  lost _ _ s h := hP h (allowsLoss.note _ s)

end AllowsLoss

end Boundary
