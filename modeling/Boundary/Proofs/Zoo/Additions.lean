/-
  Boundary.Proofs.Zoo.Additions — the animals that a run adds to a zoo.

  A run is told beside it what its steps have added to a zoo so far (`Tally`): what a step
  adds is the animal of a call for that zoo, if the step succeeds, and nothing in all other
  cases. Every run has such a tally.

  Proved: after any run the zoo has its default animals on the roll and those of the tally
  after them, and nothing else (`Tally.rolls`); names on a tally hold no zero (`Tally.clean`).
-/
import Boundary.Proofs.Iterator.Walk
import Boundary.Proofs.Zoo.Roll

namespace Boundary

open Exchange (Host)

/-! ## What the method does -/

/-- The animal comes last on the roll if the method succeeds, and its name holds no zero then. -/
theorem Host.Zoo.addAnimal_appends {ω : Type} {out : Outside ω} {J : ω → Prop} {roll : Zoo.Roll}
    {i : Host.Instance} (hi : i.Home) (species : Zoo.Species) (name : String) :
    Does (Rolling i.handle roll J) (Host.Zoo.addAnimal out.invoker i species name)
      (fun _ s => '\x00' ∉ name.toList ∧ Rolling i.handle (roll ++ [(species, name)]) J s)
      fun _ => Rolling i.handle roll J := by
  refine .bind Host.Instance.checked_does fun h => .assume fun hh => ?_
  subst hh
  refine .ite (fun _ => .throw_bind fun _ h => h) fun hzero => ?_
  refine Host.Instance.ask_told hi (fun n _ _ h => h.note n) ?_
  refine (addAnimal_enrolls species name).post fun r s h => ?_
  split at h
  · next hok => exact if_pos hok ▸ ⟨by simpa using hzero, h⟩
  · next hne => exact if_neg hne ▸ h

namespace Session

open Host (Instance Library)

variable {out : Outside World} {s u : Process World} {zoo : Handle} {roll added : Zoo.Roll}

/-! ## Tallies -/

def Step.adds (out : Outside World) (zoo : Handle) (s : Process World) : Step → Zoo.Roll
  | .addAnimal on species name =>
    if Stands on zoo s ∧ ((Step.addAnimal on species name).run out s).1.isOk = true then
      [(species, name)]
    else []
  | _ => []

/-- Safe steps from a fresh process, on whatever threads, and what they have added to the zoo
    in order. -/
inductive Tally (out : Outside World) (zoo : Handle) : Zoo.Roll → Process World → Prop where
  | start : Tally out zoo [] { outer := {} }
  | step {added : Zoo.Roll} {u : Process World} {st : Step} : Tally out zoo added u → st.Safe →
      Tally out zoo (added ++ st.adds out zoo u) (st.run out u).2
  | thread {added : Zoo.Roll} {u : Process World} (n m : Nat) : Tally out zoo added u →
      Tally out zoo added { u with shared := { u.shared with thread := n, threads := m } }

theorem Tally.run (r : Tally out zoo added s) : Run out { outer := {} } s := by
  induction r with
  | start => exact .refl
  | step _ safe ih => exact ih.step safe
  | thread n m _ ih => exact ih.thread n m

/-- Every run can be told so, of any zoo. -/
theorem Run.tally (r : Run out { outer := {} } s) (zoo : Handle) :
    ∃ added, Tally out zoo added s := by
  induction r with
  | refl => exact ⟨[], .start⟩
  | step _ safe ih =>
    obtain ⟨added, h⟩ := ih
    exact ⟨_, h.step safe⟩
  | thread n m _ ih =>
    obtain ⟨added, h⟩ := ih
    exact ⟨added, h.thread n m⟩

def addsAll (out : Outside World) (zoo : Handle) : Process World → List Step → Zoo.Roll
  | _, [] => []
  | s, st :: rest => st.adds out zoo s ++ addsAll out zoo (st.run out s).2 rest

theorem Tally.steps {sts : List Step} (r : Tally out zoo added s) (safe : ∀ st ∈ sts, st.Safe) :
    Tally out zoo (added ++ addsAll out zoo s sts)
      (sts.foldl (fun s st => (st.run out s).2) s) := by
  induction sts generalizing added s with
  | nil =>
    rw [addsAll, List.append_nil]
    exact r
  | cons st rest ih =>
    rw [addsAll, ← List.append_assoc]
    refine ih (r.step (safe st List.mem_cons_self)) fun st' h => ?_
    exact safe st' (List.mem_cons_of_mem _ h)

/-! ## The roll in a run -/

abbrev Rolls (zoo : Handle) (roll : Zoo.Roll) : (World → Prop) → Ledger → Process World → Prop :=
  fun J _ => Rolling zoo roll J

theorem rolls_staged (q : Harmless out) : Staged out (.sparing zoo) (Rolls zoo roll) where
  upheld ws ls := roll_upheld (q ws ls)
  outer h := h.1
  move h _ _ hw := ⟨hw, ⟨h.2.guarded, h.2.injected, h.2.made, h.2.animals⟩⟩

/-- Nothing was made yet, so any zoo is still to be made. -/
theorem rolls_start : Between (Rolls zoo Zoo.defaults) { outer := {} } := by
  refine ⟨[], [], ⟨List.nodup_nil, by simp, by simp, by simp⟩, ⟨rfl, rfl, by simp [Hook.NoActions]⟩, ?_⟩
  obtain ⟨_, _, _, h⟩ := ready_start
  have hnone : ({ outer := {} } : Process World).zoo.get? zoo = none := by
    rw [Table.get?, Handle.Map.get?_empty, Option.map_none]
  refine ⟨h.1.reserved, h.1.injected, fun _ => .inr ⟨hnone, rfl⟩, fun _ hs hzoo => ?_⟩
  simp [hnone] at hzoo

theorem rolls_thread (h : Between (Rolls zoo roll) u) (n m : Nat) :
    Between (Rolls zoo roll) { u with shared := { u.shared with thread := n, threads := m } } := by
  obtain ⟨ws, ls, t, h⟩ := h
  exact t.between (B := Rolls zoo roll) (h.fewer ⟨le_rfl, fun _ _ h => h, rfl, rfl, rfl⟩)

/-- A step for this zoo. -/
theorem addAnimal_rolls {on : String} (hon : Stands on zoo u)
    (species : Zoo.Species) (name : String) (h : Between (Rolls zoo roll) u) :
    Does (fun s => s = u) ((Step.addAnimal on species name).run out)
      (fun _ s => '\x00' ∉ name.toList ∧ Between (Rolls zoo (roll ++ [(species, name)])) s)
      fun _ => Between (Rolls zoo roll) := by
  obtain ⟨ws, ls, t, h⟩ := h
  obtain ⟨i, hi, hc, rfl, hfind⟩ := hon.object t h.1.wrappers
  refine .bind (hfind _) fun i' => .assume fun hi' => ?_
  subst hi'
  have started : ∀ s, s = u → Known (Rolls i'.handle roll) ws ls s := fun _ hs => hs ▸ h
  refine .bind ((bindings_does ((Host.Zoo.addAnimal_appends hi species name).pre started)).failing
    fun _ _ h => t.between h) fun _ => ?_
  exact .pure fun s hs => ⟨hs.1, t.between (B := Rolls i'.handle _) hs.2⟩

theorem Step.adds_ok {on : String} {species : Zoo.Species} {name : String} {v : Value}
    (hon : Stands on zoo s) (hrun : ((Step.addAnimal on species name).run out s).1 = .ok v) :
    (Step.addAnimal on species name).adds out zoo s = [(species, name)] :=
  if_pos ⟨hon, by rw [hrun]; rfl⟩

theorem Step.adds_error {on : String} {species : Zoo.Species} {name : String} {why : Problem}
    (hrun : ((Step.addAnimal on species name).run out s).1 = .error why) :
    (Step.addAnimal on species name).adds out zoo s = [] :=
  if_neg fun h => by
    rw [hrun] at h
    cases h.2

theorem Step.adds_of_not {st : Step}
    (h : ∀ on species name, st = .addAnimal on species name → ¬ Stands on zoo s) :
    st.adds out zoo s = [] := by
  cases st with
  | addAnimal on species name => exact if_neg fun hadd => h on species name rfl hadd.1
  | _ => rfl

/-- A step that is not for this zoo is allowed to one that spares it. -/
theorem Step.allowed_sparing {st : Step}
    (h : ∀ on species name, st = .addAnimal on species name → ¬ Stands on zoo s) :
    st.Allowed (.sparing zoo) s.outer.wrappers := by
  refine ⟨fun _ _ _ _ _ => trivial, fun on hon w hw hc => ?_⟩
  cases st with
  | addAnimal on' species name =>
    obtain rfl : on' = on := Option.some.inj hon
    rintro rfl
    exact h on' species name rfl (by rw [Stands, hw, ← hc]; rfl)
  | _ => cases hon

/-- What a step adds comes last on the roll, and is all that changes on it. -/
theorem Step.rolls (q : Harmless out) {st : Step} (safe : st.Safe)
    (h : Between (Rolls zoo roll) u) :
    Between (Rolls zoo (roll ++ st.adds out zoo u)) (st.run out u).2 ∧
      ∀ a ∈ st.adds out zoo u, '\x00' ∉ a.2.toList := by
  by_cases hst : ∃ on species name, st = .addAnimal on species name ∧ Stands on zoo u
  · obtain ⟨on, species, name, rfl, hon⟩ := hst
    have hafter : Either _ _ ((Step.addAnimal on species name).run out u).1 _ :=
      addAnimal_rolls hon species name h u rfl
    cases hrun : ((Step.addAnimal on species name).run out u).1 with
    | ok v =>
      rw [hrun] at hafter
      rw [Step.adds_ok hon hrun]
      exact ⟨hafter.2, fun a ha => List.mem_singleton.mp ha ▸ hafter.1⟩
    | error why =>
      rw [hrun] at hafter
      rw [Step.adds_error hrun, List.append_nil]
      exact ⟨hafter, by simp⟩
  · have hnot : ∀ on species name, st = .addAnimal on species name → ¬ Stands on zoo u :=
      fun on species name e hon => hst ⟨on, species, name, e, hon⟩
    rw [Step.adds_of_not hnot, List.append_nil]
    exact ⟨h.step (rolls_staged q) safe (Step.allowed_sparing hnot), by simp⟩

/-- The default animals come first, and then those that were added. -/
theorem Tally.rolls (q : Harmless out) (r : Tally out zoo added s) :
    Between (Rolls zoo (Zoo.defaults ++ added)) s := by
  induction r with
  | start => exact rolls_start
  | step _ safe ih =>
    rw [← List.append_assoc]
    exact (Step.rolls q safe ih).1
  | thread n m _ ih => exact rolls_thread ih n m

theorem Tally.clean (q : Harmless out) (r : Tally out zoo added s) :
    ∀ a ∈ added, '\x00' ∉ a.2.toList := by
  induction r with
  | start => simp
  | step r safe ih =>
    intro a ha
    rcases List.mem_append.mp ha with ha | ha
    · exact ih a ha
    · exact (Step.rolls q safe (r.rolls q)).2 a ha
  | thread _ _ _ ih => exact ih

end Session

end Boundary
