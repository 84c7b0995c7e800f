/-
  Boundary.Proofs.Reached.Held — what a running call holds is not lost.

  A call that holds an object sees it under the handle and the serial number it had. Other calls
  that run in the meantime may release the object's last reference, or so many objects may be
  made that another one gets the handle: then its last state is among those that are kept. So an
  object that was seen once can be seen from then on (`Table.Seen`).

  Proved: in every state that calls lead to from one in which it is seen (`Reaches.seen`).
-/
import Boundary.Proofs.Reached.Objects

namespace Boundary

open Process (primesPart)

variable {ω ρ O : Type}

namespace Table

/-- Who holds the object sees it, destroyed or not. -/
def Seen (t : Table O) (x : Handle) (n : Nat) : Prop := ∃ o, t.held? x n = some o

variable {t t' : Table O} {x y : Handle} {n : Nat}

/-- It is where it was, or its last state is kept. -/
theorem seen_iff : t.Seen x n ↔
    (∃ a, t.slots.get? x = some a ∧ a.serial = n) ∨ ∃ o, (n, o) ∈ t.retired := by
  have hslot : (∃ a, t.slots.get? x = some a ∧ a.serial = n) ↔ ∃ a, t.slotOf? x n = some a := by
    simp [slotOf?, Option.filter_eq_some_iff]
  have hkept : (∃ o, (n, o) ∈ t.retired) ↔ (t.retired.lookup n).isSome = true := by
    rw [List.lookup_isSome_iff]
    constructor
    · rintro ⟨o, ho⟩
      exact ⟨(n, o), ho, beq_self_eq_true n⟩
    · rintro ⟨⟨m, o⟩, hm, he⟩
      obtain rfl : n = m := beq_iff_eq.mp he
      exact ⟨o, hm⟩
  rw [hslot, hkept, Seen, held?]
  cases t.slotOf? x n with
  | some a => simp
  | none => simp [Option.isSome_iff_exists]

theorem seen_of_slot {a : Slot O} (h : t.slots.get? x = some a) : t.Seen x a.serial :=
  seen_iff.mpr (.inl ⟨a, h, rfl⟩)

/-- Whatever becomes of the slots, each is where it was or its state is kept. -/
theorem Seen.change (h : t.Seen x n) (hkept : ∀ r ∈ t.retired, r ∈ t'.retired)
    (hslot : ∀ a, t.slots.get? x = some a → (∃ a', t'.slots.get? x = some a' ∧ a'.serial = a.serial)
      ∨ (a.serial, a.object) ∈ t'.retired) : t'.Seen x n := by
  rcases seen_iff.mp h with ⟨a, ha, rfl⟩ | ⟨o, ho⟩
  · rcases hslot a ha with ⟨a', ha', he⟩ | hr
    · exact seen_iff.mpr (.inl ⟨a', ha', he⟩)
    · exact seen_iff.mpr (.inr ⟨a.object, hr⟩)
  · exact seen_iff.mpr (.inr ⟨o, hkept _ ho⟩)

theorem Seen.modify (h : t.Seen x n) (y : Handle) {f : Slot O → Slot O}
    (hf : ∀ a, (f a).serial = a.serial) :
    ({ t with slots := t.slots.modify y f } : Table O).Seen x n := by
  refine h.change (fun _ hr => hr) fun a ha => .inl ?_
  show ∃ a', (t.slots.modify y f).get? x = some a' ∧ _
  rw [Handle.Map.get?_modify, ha]
  split
  · exact ⟨f a, rfl, hf a⟩
  · exact ⟨a, rfl, rfl⟩

theorem Seen.acquire (h : t.Seen x n) (ha : t.acquire y = .ok t') : t'.Seen x n := by
  obtain ⟨a, -, -, rfl⟩ := acquire_ok ha
  exact h.modify y fun _ => rfl

/-- An object that has the handle of a new one has its state kept. -/
theorem Seen.insert (h : t.Seen x n) (y : Handle) (m : Nat) (o : O) : (t.insert y m o).Seen x n := by
  have hretired : ∀ r ∈ t.retired, r ∈ (t.insert y m o).retired := by
    intro r hr
    unfold Table.insert
    cases t.slots.get? y with
    | none => exact hr
    | some b => exact List.mem_cons_of_mem _ hr
  refine h.change hretired fun a ha => ?_
  by_cases hxy : y = x
  · subst hxy
    refine .inr ?_
    rw [Table.insert, ha]
    exact List.mem_cons_self
  · refine .inl ⟨a, ?_, rfl⟩
    rw [slots_insert, Handle.Map.get?_insert, if_neg hxy, ha]

variable [Resource O]

theorem Seen.releaseOnce (h : t.Seen x n) (y : Handle) : (t.releaseOnce y).1.Seen x n := by
  unfold Table.releaseOnce
  split
  · exact h
  · split
    · exact h
    · next b hb =>
      split
      · refine h.change (fun _ hr => List.mem_cons_of_mem _ hr) fun a ha => ?_
        by_cases hxy : y = x
        · subst hxy
          cases hb.symm.trans ha
          exact .inr List.mem_cons_self
        · exact .inl ⟨a, by rw [get?_destroy, if_neg hxy, ha], rfl⟩
      · exact h.modify y fun _ => rfl

/-- Induction on the calls of the cascade. -/
theorem Seen.drained {due : List Handle} (h : t.Seen x n) (d : Drained t due t') : t'.Seen x n := by
  induction d with
  | done t => exact h
  | call _ _ ih => exact ih (h.releaseOnce _)

theorem Seen.release (h : t.Seen x n) (y : Handle) : (t.release y).1.Seen x n :=
  h.drained (release_drained t y)

end Table

/-! ## Calls -/

section

variable {x : Handle} {n : Nat}

theorem seen_outlastsInserts : OutlastsInserts (primesPart (ω := ω)) fun s => s.primes.Seen x n where
  insert o s h := h.insert _ _ o
  acquire y s h := by
    cases ha : s.primes.acquire y with
    | error why => rwa [Part.acquire_error (p := primesPart) ha]
    | ok t =>
      rw [Part.acquire_ok (p := primesPart) ha]
      exact h.acquire ha
  release y s h := h.release y
  lost _ _ _ h := h

/-- A failure is recorded beside the calculators or in the slot of one of them. -/
theorem fail_seen (c : Component) (y : Handle) (why : Fault) (s : Process ω)
    (h : s.primes.Seen x n) : (c.fail y why s).2.primes.Seen x n := by
  cases c with
  | zoo =>
    have hsame : (Component.zoo.fail y why s).2.primes = s.primes :=
      Part.fail_beside (π := Process.primes) (fun _ _ => rfl) y why s
    rwa [hsame]
  | calculator =>
    have hsame : (Component.calculator.fail y why s).2.primes = s.primes :=
      Part.fail_beside (π := Process.primes) (fun _ _ => rfl) y why s
    rwa [hsame]
  | primes =>
    show (primesPart.fail y why s).2.primes.Seen x n
    rw [Part.fail_run fun _ => rfl]
    unfold Store.fail Store.record
    split
    · exact h.modify y fun _ => rfl
    · exact h

theorem seen_outlastsGrowth {out : Outside ω}
    (happly : ∀ a v, Ends (fun s => s.primes.Seen x n) (out.apply a v) fun _ s => s.primes.Seen x n)
    (hprogress : ∀ f p, Ends (fun s => s.primes.Seen x n) (out.progress f p)
      fun _ s => s.primes.Seen x n) :
    OutlastsGrowth out (fun _ => True) fun s => s.primes.Seen x n where
  zoo :=
    (OutlastsInserts.beside (π := Process.primes) (fun _ _ => rfl) fun t => t.Seen x n).toOutlastsRefs
  makeZoo := (OutlastsInserts.beside (π := Process.primes) (fun _ _ => rfl) fun t => t.Seen x n).insert
  calculator := .beside (π := Process.primes) (fun _ _ => rfl) fun t => t.Seen x n
  primes := seen_outlastsInserts
  pushAnimal _ _ _ h := h
  updateCalculator _ _ _ h := h
  updatePrimes y _ _ h := h.modify y fun _ => rfl
  updateHeld y m f s h := h.modify y fun a => by split <;> rfl
  entryPoint c address s h := by
    unfold entryPoint
    dsimp only
    split <;> exact h
  registerSymbol _ _ _ _ h := h
  injected _ _ _ _ := trivial
  inject _ _ _ _ h := h
  apply := happly
  progress := hprogress

/-- What was seen once can be seen from then on. Induction on the calls made, those made in the
    middle of others included. -/
theorem Reaches.seen {s u : Process ω} (r : Reaches s u) (h : s.primes.Seen x n) :
    u.primes.Seen x n := by
  induction r with
  | refl s => exact h
  | call out via c _ _ _ _ ih happly hprogress hvia =>
    refine perform_keeps (seen_outlastsGrowth (fun a v s hs => happly a v s hs)
      fun f p s hs => hprogress f p s hs) (fun _ => ?_) (fun _ _ _ h => h) (fun _ _ => trivial)
      (fun site _ why s h => fail_seen site.1 site.2 why s h) _ (ih h)
    exact ⟨fun a _ name s h => ⟨fun _ _ => trivial, hvia a _ s h⟩, fun _ a _ s h => hvia a _ s h,
      fun a _ _ _ _ s h => hvia a _ s h, fun a _ _ _ s h => hvia a _ s h⟩
  | turn thread w _ ih => exact ih h
  | note n _ ih => exact ih h

end

end Boundary
