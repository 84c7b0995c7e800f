/-
  Boundary.Proofs.Zoo.Objects — what is known of zoo objects alone, through a session.

  Such knowledge (`Observed`) outlasts whatever makes or changes no zoo object. So a session
  keeps it if the calls do that make animals, zoos and iterators, add animals and move
  iterators on.
-/
import Boundary.Proofs.Zoo.Roll

namespace Boundary

open Session (World Harmless Staged Between Run Ready)

variable {ω ρ : Type} {J : ω → Prop} {out : Outside ω} {s s' : Process ω}
  {K : Process ω → Prop}

abbrev Observed (K : Process ω → Prop) (J : ω → Prop) (s : Process ω) : Prop := GuardedWith J s ∧ K s

abbrev Lasts (K : Process ω → Prop) : Prop := ∀ {s s'}, K s → Thinned s s' → K s'

theorem Observed.fewer (hK : Lasts K) (h : Observed K J s) (l : Fewer s s') : Observed K J s' :=
  ⟨h.1.fewer l, hK h.2 l.thinned⟩

/-- A call keeps it that does nothing to zoo objects but what keeps it. -/
theorem perform_observed (q : OutsideOnly J out) (hK : Lasts K) {c : Call ρ}
    (spares : c.Spares (Observed K J)) (hover : ∀ a, c.handedOver = some a → a.Native) :
    Ends (Observed K J) (perform out (out.reach .none) c) fun _ => Observed K J :=
  q.performs (fun h => h.1) (fun h l g => ⟨g, hK h.2 l⟩) spares hover

theorem observed_upheld (hK : Lasts K)
    (hcall : ∀ {ρ : Type} (c : Call ρ), (∀ a, c.handedOver = some a → a.Native) →
      Ends (Observed K J) (perform out (out.reach .none) c) fun _ => Observed K J) :
    Upheld out .all fun _ => Observed K J :=
  Host.upheld_const
    (fun _ _ h => ⟨h.1.same rfl rfl rfl, hK h.2 (.same rfl rfl)⟩)
    (fun _ h => h.1.reserved) fun c hover _ => hcall c hover

namespace Session

variable {out : Outside World} {s u : Process World} {K : Process World → Prop}

/-- What all calls keep, a session keeps. -/
theorem observed_staged (hK : Lasts K)
    (hcall : ∀ {ρ : Type} (c : Call ρ) (ws ls), (∀ a, c.handedOver = some a → a.Native) →
      Ends (Observed K (Stage ws ls)) (perform out (out.reach .none) c)
        fun _ => Observed K (Stage ws ls)) :
    Staged out .all fun J _ => Observed K J where
  upheld ws ls := observed_upheld hK fun c => hcall c ws ls
  outer h := h.1.outer
  move h _ _ hw := ⟨⟨hw, h.1.reserved, h.1.injected⟩, hK h.2 (.same rfl rfl)⟩

theorem Run.observed (hK : Lasts K) (g : Staged out .all fun J _ => Observed K J) (r : Run out s u)
    (h₀ : Ready s) (h : K s) : K u := by
  have hbetween : Between (fun J _ => Observed K J) s := by
    obtain ⟨ws, ls, t, hs⟩ := h₀
    exact t.between (B := fun J _ => Observed K J) ⟨hs.1, h⟩
  obtain ⟨_, _, _, hu⟩ := r.between g (fun n m h => ⟨h.1.same rfl rfl rfl,
    hK h.2 (.same rfl rfl)⟩) hbetween
  exact hu.2

/-- Handles are issued one after the other. -/
theorem Run.issued_le (q : Harmless out) (r : Run out s u) (h₀ : Ready s) :
    s.shared.issued ≤ u.shared.issued := by
  have hlasts : Lasts (ω := World) fun v => s.shared.issued ≤ v.shared.issued :=
    fun h l => h.trans l.issued
  refine r.observed hlasts (observed_staged hlasts fun c ws ls hover => ?_) h₀ le_rfl
  exact perform_observed (q ws ls) hlasts
    ⟨fun o _ v h => ⟨h.1.same rfl rfl rfl, Nat.le_succ_of_le h.2⟩,
      fun _ _ _ v h => ⟨h.1.same rfl rfl rfl, h.2⟩,
      fun _ _ v h => ⟨h.1.same rfl rfl rfl, h.2⟩⟩ hover

end Session

end Boundary
