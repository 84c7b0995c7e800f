/-
  Boundary.Proofs.Session.Steps — what every step leaves behind.

  A step is safe if a host can take it without vouching for anything: it loads components
  through their own entry points, hands over no handle and no function of its own making,
  and plans no calls for the hook. Steps that walk an iterator or add an animal to a zoo are
  allowed if the iterator may be moved on, and the zoo may grow.

  Proved: whatever is upheld on every stage is known after a safe, allowed step if it was
  known before it, whether the step succeeds or fails (`step_does`): one lemma for each group of
  steps (`Step.group`), from one for each kind of thing that a step does.
-/
import Boundary.Proofs.Session.Stage

namespace Boundary.Session

open Exchange (Host)
open Host (Instance Library Makes MovesNone)

variable {out : Outside World} {leave : Leave}
  {B : (World → Prop) → Ledger → Process World → Prop} {ws : List (String × Wrapper)}
  {ls : List (String × Library)}

def Step.Safe : Step → Prop
  | .load _ _ _ way => way = .component
  | .injectComponent _ _ _ | .resolve _ _ _ _ _ _ | .direct _ _ _ _ => False
  | .hook plan => ∀ r ∈ plan, r.action = none
  | _ => True

def Step.walked : Step → Option String
  | .nextAnimal on _ | .nextMandatoryAnimal on _ | .collect on _ => some on
  | _ => none

/-- The step walks no iterator but those whose turn it is. -/
def Step.InTurn (turn : Handle → Prop) (ws : List (String × Wrapper)) (st : Step) : Prop :=
  ∀ on, st.walked = some on → ∀ w, ws.lookup on = some w →
    w.object.library.component = .zoo → turn w.object.handle

def Step.grown : Step → Option String
  | .addAnimal on _ _ => some on
  | _ => none

structure Step.Allowed (leave : Leave) (ws : List (String × Wrapper)) (st : Step) : Prop where
  advance : st.InTurn leave.advance ws
  grow : ∀ on, st.grown = some on → ∀ w, ws.lookup on = some w →
    w.object.library.component = .zoo → leave.grow w.object.handle

theorem Step.InTurn.allowed {turn : Handle → Prop} {st : Step} (h : st.InTurn turn ws) :
    st.Allowed (.turns turn) ws :=
  ⟨h, fun _ _ _ _ _ => trivial⟩

theorem Step.allowed_all (st : Step) (ws : List (String × Wrapper)) : st.Allowed .all ws :=
  ⟨fun _ _ _ _ _ => trivial, fun _ _ _ _ _ => trivial⟩

/-! ## Walks -/

/-- Every animal that comes is dropped again. -/
theorem collectNames_movesNone {B : Ledger → Process World → Prop} (u : Upheld out leave B)
    {i : Instance} (hi : i.Home) (hc : i.library.component = .zoo) (hmay : leave.advance i.handle)
    (limit : Nat) : MovesNone B (collectNames out i limit) := by
  intro e
  induction limit with
  | zero => exact .pure fun _ h => h
  | succ limit ih =>
    refine .bind (Host.Zoo.nextAnimal_does u hi hc hmay) fun next => ?_
    cases next with
    | none => exact .pure fun _ h => h
    | some animal =>
      refine .assume fun ha => ?_
      refine .bind (Host.outcome_does (Host.Zoo.animalName_movesNone u ha _)) fun name => ?_
      refine .bind (Q := fun _ => B e) (.monadLift ?_) fun _ => ?_
      · refine (u.drop ha e _).pre fun s h => ?_
        cases name <;> exact h
      · refine .bind (.lift (fun _ _ _ h => h) fun _ _ _ h => h) fun name => ?_
        exact .bind ih fun _ => .pure fun _ h => h

/-- Every variable that comes is dropped again. -/
theorem collectValues_movesNone {B : Ledger → Process World → Prop} (u : Upheld out leave B)
    {i : Instance} (hi : i.Home) (hc : i.library.component = .calculator) (index limit : Nat) :
    MovesNone B (collectValues out i index limit) := by
  intro e
  induction limit generalizing index with
  | zero => exact .pure fun _ h => h
  | succ limit ih =>
    refine .bind (Host.outcome_does (Host.Calculator.enlistedVariable_makes u hi hc _ _))
      fun next => ?_
    cases next with
    | error _ => exact .pure fun _ h => h
    | ok v =>
      refine .assume fun hv => ?_
      refine .bind (Host.outcome_does (Host.Calculator.value_movesNone u hv _)) fun value => ?_
      refine .bind (Q := fun _ => B e) (.monadLift ?_) fun _ => ?_
      · refine (u.drop hv e _).pre fun s h => ?_
        cases value <;> exact h
      · refine .bind (.lift (fun _ _ _ h => h) fun _ _ _ h => h) fun value => ?_
        exact .bind (ih _) fun _ => .pure fun _ h => h

/-! ## Steps that store -/

/-- An animal that came is kept. -/
theorem came_does (g : Staged out leave B) (t : NamedApart ws ls) {P : Process World → Prop}
    {x : Host (Process World) (Option Instance)}
    (hx : Does P x (Host.Zoo.Came (B (Stage ws ls)) (owners ws)) fun _ => Known B ws ls)
    (keep : String) :
    Does P (do
        match ← bindings x with
        | some animal => keepAs out keep .animal animal true
        | none => return .exhausted) (fun _ => Between B) fun _ => Between B := by
  refine .bind (part_does t hx) fun next => ?_
  cases next with
  | some animal => exact .assume fun ha => keepAs_does g t keep .animal ha
  | none => exact .pure fun _ h => t.between h

/-- A new variable without a value is dropped. -/
theorem keepComputed_does (g : Staged out leave B) (t : NamedApart ws ls) (name : String)
    {x : Host (Process World) Instance} (hx : Makes (B (Stage ws ls)) x) :
    Does (Known B ws ls) (keepComputed out name x) (fun _ => Between B) fun _ => Between B := by
  refine .bind (part_does t (hx _)) fun v => .assume fun hv => ?_
  have hvalue := Host.Calculator.value_movesNone (g.upheld ws ls) hv
  refine .bind (outcome_does (bindings_does (hvalue _))) fun r => ?_
  cases r with
  | ok value =>
    refine .bind (keepWrapper_does g t name (w := ⟨.calculatorVariable, v, true⟩) hv
      fun h => by cases h) fun _ => ?_
    exact .pure fun _ h => h
  | error why =>
    exact .bind (.monadLift ((g.upheld ws ls).drop hv _ _)) fun _ => .throw fun _ h => t.between h

theorem keepLibrary_does (g : Staged out leave B) (t : NamedApart ws ls) (name : String) {l : Library}
    (hl : l.Home) :
    Ends (Known B ws ls) (keepLibrary name l) fun _ => Between B := by
  refine .modify fun s h => ?_
  have namedApart : NamedApart ws ((name, l) :: ls.filter fun e => e.1 != name) := by
    refine ⟨t.names, t.wrappers, t.lent, fun e he => ?_⟩
    rcases List.mem_cons.mp he with rfl | he
    · exact hl
    · exact t.libraries e (List.mem_filter.mp he).1
  refine namedApart.between (g.move h ⟨(g.outer h).wrappers, ?_, (g.outer h).noActions⟩)
  rw [(g.outer h).libraries]

theorem load_does (g : Staged out leave B) (t : NamedApart ws ls) (c : Component) (name : String)
    (options : LoadOptions) :
    Does (Known B ws ls) (load out c name options .component) (fun _ => Between B)
      fun _ => Between B := by
  refine .bind (part_does t (Library.loadEntry_does (g.upheld ws ls) c options)) fun l =>
    .assume fun hl => ?_
  exact .bind (.monadLift (keepLibrary_does g t name hl)) fun _ => .pure fun _ h => h

/-! ## Steps on a wrapper -/

/-- The wrapper goes, and its reference goes into the new one or is given back. -/
theorem cast_does (g : Staged out leave B) (t : NamedApart ws ls) (name : String)
    (target : Host.Class) (keep : String) :
    Does (Known B ws ls) (cast out name target keep) (fun _ => Between B) fun _ => Between B := by
  refine .bind (ownedNamed_does g t name) fun w => .assume fun ⟨hw, hi, ho⟩ => ?_
  refine .ite (fun _ => .throw_bind fun _ h => t.between h) fun _ => ?_
  refine .bind (.monadLift (takeWrapper_does g t hw)) fun _ => ?_
  rw [claim_owned ho]
  refine make_does g (t.without name) ?_ keep target
  refine (Host.adopt_does (g.upheld _ _) target hi none).post fun i s h => ?_
  obtain ⟨rfl, h⟩ := h
  exact ⟨hi, h⟩

theorem classify_does (g : Staged out leave B) (t : NamedApart ws ls)
    (name keep : String) :
    Does (Known B ws ls) (classify out name keep) (fun _ => Between B) fun _ => Between B := by
  refine .bind (ownedNamed_does g t name) fun w => .assume fun ⟨hw, hi, ho⟩ => ?_
  have namedApart := t.without name
  refine .bind (.monadLift (takeWrapper_does g t hw)) fun _ => ?_
  rw [claim_owned ho]
  refine .bind (part_does namedApart (Host.classify_does (g.upheld _ _) hi)) fun known => ?_
  have hkeep : ∀ label : Host.Class,
      Does (B (Stage (without name ws) ls) (owners (without name ws) + w.object.holds))
        (keepWrapper out keep { w with label := label }) (fun _ => Between B) fun _ => Between B :=
    fun label => (keepWrapper_does g namedApart keep (w := { w with label := label }) hi
      fun h => by simp [ho] at h).pre fun s h => by
        rwa [claim_owned (w := { w with label := label }) ho]
  cases known with
  | some r => exact .bind (hkeep r.1) fun _ => .pure fun _ h => h
  | none => exact .bind (hkeep w.label) fun _ => .pure fun _ h => h

theorem relabel_does (g : Staged out leave B) (t : NamedApart ws ls) (name : String)
    (label : Host.Class) (keep : String) :
    Does (Known B ws ls) (relabel out name label keep) (fun _ => Between B) fun _ => Between B := by
  refine .bind (ownedNamed_does g t name) fun w => .assume fun ⟨hw, hi, ho⟩ => ?_
  refine .ite (fun _ => .throw_bind fun _ h => t.between h) fun _ => ?_
  refine .bind (.monadLift (takeWrapper_does g t hw)) fun _ => ?_
  rw [claim_owned ho]
  exact keepAs_does g (t.without name) keep label hi

/-- What is left in the wrapper's place owns nothing. -/
theorem release_does (g : Staged out leave B) (t : NamedApart ws ls) (name : String) :
    Does (Known B ws ls) (release out name) (fun _ => Between B) fun _ => Between B := by
  refine .bind (ownedNamed_does g t name) fun w => .assume fun ⟨hw, hi, ho⟩ => ?_
  have htake : ∀ s, Known B ws ls s →
      B (Stage ws ls) (owners (without name ws) + w.object.holds) s := fun s h => by
    rwa [Known, owners_without t.names hw, claim_owned ho] at h
  have hrel : Does (Known B ws ls) (bindings (w.object.release out.invoker))
      (fun _ => B (Stage ws ls) (owners (without name ws)))
      fun _ => B (Stage ws ls) (owners (without name ws)) :=
    bindings_does (((g.upheld ws ls).release hi _ _).pre htake)
  refine .bind (outcome_does hrel) fun r => ?_
  have hset : Ends (B (Stage ws ls) (owners (without name ws)))
      (setWrapper name (some ⟨w.label, w.object.nulled, w.owned⟩)) fun _ => Between B := by
    have namedApart := t.keep name (w := ⟨w.label, w.object.nulled, w.owned⟩) hi
      fun h => by simp [ho] at h
    refine (setWrapper_does g name _).post fun _ s h => namedApart.between ?_
    rwa [Known, owners_cons, claim_nulled, add_zero]
  refine .bind (.monadLift (hset.pre fun s h => ?_)) fun _ => ?_
  · cases r <;> exact h
  · exact .bind (.lift (fun _ _ _ h => h) fun _ _ _ h => h) fun _ => .pure fun _ h => h

/-- A wrapper that is dropped is gone, with its reference. -/
theorem drop_settles (g : Staged out leave B) (t : NamedApart ws ls) (name : String) :
    Does (Known B ws ls) ((Step.drop name).run out)
      (fun _ => Known B (without name ws) ls) fun _ => Known B (without name ws) ls := by
  refine .bind ((wrapperNamed_finds g t name).failing fun _ s h => ?_)
    fun w => .assume fun ⟨hw, hi⟩ => ?_
  · rw [without_of_none h.1]
    exact h.2
  · refine .bind (.monadLift (takeWrapper_does g t hw)) fun _ => ?_
    exact .bind (.monadLift (dropWrapper_does g hi)) fun _ => .pure fun _ h => h

/-! ## Steps that use no wrapper -/

theorem modifyHook_does (g : Staged out leave B) (t : NamedApart ws ls) {f : Hook → Hook}
    (hf : ∀ k, k.NoActions → (f k).NoActions) :
    Ends (Known B ws ls) (modifyHook f) fun _ => Between B :=
  .modify fun _ h => t.between
    (g.move h ⟨(g.outer h).wrappers, (g.outer h).libraries, hf _ (g.outer h).noActions⟩)

theorem modifyScript_does (g : Staged out leave B) (t : NamedApart ws ls) (f : Script → Script) :
    Ends (Known B ws ls) (modifyScript f) fun _ => Between B :=
  .modify fun _ h => t.between
    (g.move h ⟨(g.outer h).wrappers, (g.outer h).libraries, (g.outer h).noActions⟩)

theorem read_does (t : NamedApart ws ls) (f : Process World → Value) :
    Does (Known B ws ls) (do return f (← get) : Turn Value) (fun _ => Between B)
      fun _ => Between B :=
  .bind (Q := fun _ => Known B ws ls) (fun _ h => h) fun _ => .pure fun _ h => t.between h

/-! ## All steps -/

inductive Step.Group where
  | libraries
  | zoo
  | calculator
  | primes
  | wrappers
  | outside

def Step.group : Step → Step.Group
  | .load _ _ _ _ | .version _ | .libraryError _ | .library _ | .typeOfHandle _ _ | .find _ _
  | .resolveSymbol _ _ | .register _ _ _ | .registry _ => .libraries
  | .createZoo _ _ | .addAnimal _ _ _ | .animalCount _ | .animalAt _ _ _ | .iterate _ _
  | .nextAnimal _ _ | .nextMandatoryAnimal _ _ | .collect _ _ | .animalName _ | .roar _ => .zoo
  | .createVariable _ _ _ | .createCalculator _ _ | .getVariable _ | .setVariable _ _ | .enlist _ _
  | .enlisted _ _ _ | .clear _ | .values _ _ | .add _ _ | .multiply _ _ | .apply _ _
  | .injectPrimes _ _ | .injectComponent _ _ _ | .enlistPrimes _ _ => .calculator
  | .createFactorization _ _ | .createSieve _ _ | .getValue _ | .setValue _ _ | .calculate _
  | .setCallback _ _ | .primeFactors _ | .primes _ | .primesSummary _ => .primes
  | .acquire _ _ | .release _ | .drop _ | .cast _ _ _ | .classify _ _ | .relabel _ _ _
  | .resolve _ _ _ _ _ _ | .classTypeId _ | .lastError _ | .describe _ | .count _ _ | .live =>
    .wrappers
  | .hook _ | .hookLog | .script _ | .scriptLog | .direct _ _ _ _ => .outside

section

variable (g : Staged out leave B) (t : NamedApart ws ls) {st : Step}
include g t

theorem libraryStep_does (h : st.group = .libraries) (safe : st.Safe) :
    Does (Known B ws ls) (st.run out) (fun _ => Between B) fun _ => Between B := by
  have u := g.upheld ws ls
  cases st with
  | load c keep options way =>
    obtain rfl : way = .component := safe
    exact load_does g t c keep options
  | version lib =>
    refine .bind (libraryNamed_does g t lib) fun l => .assume fun hl => ?_
    exact answer_does t (fun _ => Library.version_does u hl) .version
  | libraryError lib =>
    refine .bind (libraryNamed_does g t lib) fun l => .assume fun hl => ?_
    exact answer_does t (fun e => Library.fetchLastError_does (u.outlastsNotes e) hl _) .message
  | library lib => exact .bind (libraryNamed_does g t lib) fun l => .pure fun _ h => t.between h.2
  | typeOfHandle lib target =>
    refine .bind (handleOf_does g t target) fun h => ?_
    refine .bind (libraryNamed_does g t lib) fun l => .assume fun hl => ?_
    exact answer_does t (fun _ => Library.classTypeId_does u hl h) .tag
  | find lib s =>
    refine .bind (libraryNamed_does g t lib) fun l => .assume fun hl => ?_
    exact answer_does t (fun _ => (Host.find_does u hl.lookup s).post fun _ _ h => h.2) .address
  | resolveSymbol lib s =>
    refine .bind (libraryNamed_does g t lib) fun l => .assume fun hl => ?_
    exact answer_does t (fun _ => (Host.resolveSymbol_does u hl.lookup s).post fun _ _ h => h.2)
      fun a => .address (some a)
  | register lib s f =>
    refine .bind (libraryNamed_does g t lib) fun l => .assume fun hl => ?_
    exact effect_does t fun _ => Host.register_does u hl.lookup s _
  | registry s => exact read_does t fun p => .addresses (p.registry.find s) (p.registry.findHost s)
  | _ => cases h

theorem zooStep_does (h : st.group = .zoo) (hmay : st.Allowed leave ws) :
    Does (Known B ws ls) (st.run out) (fun _ => Between B) fun _ => Between B := by
  have u := g.upheld ws ls
  cases st with
  | createZoo lib keep =>
    refine .bind (libraryOf_does g t .zoo lib) fun l => .assume fun ⟨hl, hc⟩ => ?_
    exact make_does g t (Host.Zoo.create_makes u hl hc _) keep .zoo
  | addAnimal on species name =>
    refine .bind (objectOf_finds g t .zoo on) fun i => .assume fun ⟨⟨w, hw, hwi⟩, hi, hc⟩ => ?_
    subst hwi
    exact effect_does t (Host.Zoo.addAnimal_movesNone u hi (hmay.grow on rfl w hw hc) species name)
  | animalCount on =>
    refine .bind (objectOf_does g t .zoo on) fun i => .assume fun ⟨hi, _⟩ => ?_
    exact answer_does t (Host.Zoo.animalCount_movesNone u hi) .count
  | animalAt on index keep =>
    refine .bind (objectOf_does g t .zoo on) fun i => .assume fun ⟨hi, hc⟩ => ?_
    exact lend_does g t ((Host.Zoo.animalAt_does u hi index).post fun _ _ h =>
      ⟨⟨h.1.1, h.1.2 ▸ hc⟩, h.2⟩) keep .animal
  | iterate on keep =>
    refine .bind (objectOf_does g t .zoo on) fun i => .assume fun ⟨hi, hc⟩ => ?_
    exact make_does g t (Host.Zoo.iterate_makes u hi hc _) keep .animalIterator
  | nextAnimal on keep =>
    refine .bind (objectOf_finds g t .zoo on) fun i => .assume fun ⟨⟨w, hw, hwi⟩, hi, hc⟩ => ?_
    subst hwi
    exact came_does g t (Host.Zoo.nextAnimal_does u hi hc (hmay.advance on rfl w hw hc)) keep
  | nextMandatoryAnimal on keep =>
    refine .bind (objectOf_finds g t .zoo on) fun i => .assume fun ⟨⟨w, hw, hwi⟩, hi, hc⟩ => ?_
    subst hwi
    exact make_does g t (Host.Zoo.nextMandatoryAnimal_makes u hi hc (hmay.advance on rfl w hw hc) _) keep
      .animal
  | collect on limit =>
    refine .bind (objectOf_finds g t .zoo on) fun i => .assume fun ⟨⟨w, hw, hwi⟩, hi, hc⟩ => ?_
    subst hwi
    exact answer_does t (collectNames_movesNone u hi hc (hmay.advance on rfl w hw hc) limit) .names
  | animalName on =>
    refine .bind (objectOf_does g t .zoo on) fun i => .assume fun ⟨hi, _⟩ => ?_
    exact answer_does t (Host.Zoo.animalName_movesNone u hi) .text
  | roar on =>
    refine .bind (objectOf_does g t .zoo on) fun i => .assume fun ⟨hi, _⟩ => ?_
    exact answer_does t (Host.Zoo.roar_movesNone u hi) .text
  | _ => cases h

theorem calculatorStep_does (h : st.group = .calculator) (safe : st.Safe) :
    Does (Known B ws ls) (st.run out) (fun _ => Between B) fun _ => Between B := by
  have u := g.upheld ws ls
  cases st with
  | createVariable lib initial keep =>
    refine .bind (libraryOf_does g t .calculator lib) fun l => .assume fun ⟨hl, hc⟩ => ?_
    exact make_does g t (Host.Calculator.createVariable_makes u hl hc initial _) keep
      .calculatorVariable
  | createCalculator lib keep =>
    refine .bind (libraryOf_does g t .calculator lib) fun l => .assume fun ⟨hl, hc⟩ => ?_
    exact make_does g t (Host.Calculator.createCalculator_makes u hl hc _) keep .calculator
  | getVariable on =>
    refine .bind (objectOf_does g t .calculator on) fun i => .assume fun ⟨hi, _⟩ => ?_
    exact answer_does t (Host.Calculator.value_movesNone u hi) .float
  | setVariable on value =>
    refine .bind (objectOf_does g t .calculator on) fun i => .assume fun ⟨hi, _⟩ => ?_
    exact effect_does t (Host.Calculator.setValue_movesNone u hi value)
  | enlist on variableName =>
    refine .bind (objectOf_does g t .calculator variableName) fun v => .assume fun _ => ?_
    refine .bind (objectOf_does g t .calculator on) fun i => .assume fun ⟨hi, _⟩ => ?_
    exact effect_does t (Host.Calculator.enlistVariable_movesNone u hi v)
  | enlisted on index keep =>
    refine .bind (objectOf_does g t .calculator on) fun i => .assume fun ⟨hi, hc⟩ => ?_
    exact make_does g t (Host.Calculator.enlistedVariable_makes u hi hc index _) keep
      .calculatorVariable
  | clear on =>
    refine .bind (objectOf_does g t .calculator on) fun i => .assume fun ⟨hi, _⟩ => ?_
    exact effect_does t (Host.Calculator.clearVariables_movesNone u hi)
  | values on limit =>
    refine .bind (objectOf_does g t .calculator on) fun i => .assume fun ⟨hi, hc⟩ => ?_
    exact answer_does t (collectValues_movesNone u hi hc 0 limit) .floats
  | add on keep =>
    refine .bind (objectOf_does g t .calculator on) fun i => .assume fun ⟨hi, hc⟩ => ?_
    exact keepComputed_does g t keep (Host.Calculator.add_makes u hi hc)
  | multiply on keep =>
    refine .bind (objectOf_does g t .calculator on) fun i => .assume fun ⟨hi, hc⟩ => ?_
    exact keepComputed_does g t keep (Host.Calculator.multiply_makes u hi hc)
  | apply on s =>
    refine .bind (objectOf_does g t .calculator on) fun i => .assume fun ⟨hi, _⟩ => ?_
    exact effect_does t (Host.Calculator.apply_movesNone u hi s)
  | injectPrimes lib source =>
    refine .bind (libraryOf_does g t .calculator lib) fun l => .assume fun ⟨hl, _⟩ => ?_
    refine .bind (libraryOf_does g t .primes source) fun p => .assume fun ⟨hp, _⟩ => ?_
    exact effect_does t (Host.Calculator.injectPrimes_movesNone u hl hp)
  | injectComponent lib ns lookup => exact safe.elim
  | enlistPrimes on sieve =>
    refine .bind (objectOf_does g t .primes sieve) fun s => .assume fun _ => ?_
    refine .bind (objectOf_does g t .calculator on) fun i => .assume fun ⟨hi, _⟩ => ?_
    exact effect_does t (Host.Calculator.enlistPrimes_movesNone u hi s)
  | _ => cases h

theorem primesStep_does (h : st.group = .primes) :
    Does (Known B ws ls) (st.run out) (fun _ => Between B) fun _ => Between B := by
  have u := g.upheld ws ls
  cases st with
  | createFactorization lib keep =>
    refine .bind (libraryOf_does g t .primes lib) fun l => .assume fun ⟨hl, hc⟩ => ?_
    exact make_does g t (Host.Primes.createFactorization_makes u hl hc _) keep
      .factorizationCalculator
  | createSieve lib keep =>
    refine .bind (libraryOf_does g t .primes lib) fun l => .assume fun ⟨hl, hc⟩ => ?_
    exact make_does g t (Host.Primes.createSieve_makes u hl hc _) keep .sieveCalculator
  | getValue on =>
    refine .bind (objectOf_does g t .primes on) fun i => .assume fun ⟨hi, _⟩ => ?_
    exact answer_does t (Host.Primes.value_movesNone u hi) .word
  | setValue on value =>
    refine .bind (objectOf_does g t .primes on) fun i => .assume fun ⟨hi, _⟩ => ?_
    exact effect_does t (Host.Primes.setValue_movesNone u hi value)
  | calculate on =>
    refine .bind (objectOf_does g t .primes on) fun i => .assume fun ⟨hi, _⟩ => ?_
    exact effect_does t (Host.Primes.calculate_movesNone u hi)
  | setCallback on set =>
    refine .bind (objectOf_does g t .primes on) fun i => .assume fun ⟨hi, _⟩ => ?_
    exact effect_does t (Host.Primes.setProgressCallback_movesNone u hi _)
  | primeFactors on =>
    refine .bind (objectOf_does g t .primes on) fun i => .assume fun ⟨hi, _⟩ => ?_
    exact answer_does t (Host.Primes.primeFactors_movesNone u hi) .factors
  | primes on =>
    refine .bind (objectOf_does g t .primes on) fun i => .assume fun ⟨hi, _⟩ => ?_
    exact answer_does t (Host.Primes.primes_movesNone u hi) .primes
  | primesSummary on =>
    refine .bind (objectOf_does g t .primes on) fun i => .assume fun ⟨hi, _⟩ => ?_
    exact answer_does t (Host.Primes.primes_movesNone u hi) summarize
  | _ => cases h

theorem wrapperStep_does (h : st.group = .wrappers) (safe : st.Safe) :
    Does (Known B ws ls) (st.run out) (fun _ => Between B) fun _ => Between B := by
  have u := g.upheld ws ls
  cases st with
  | acquire on keep =>
    refine .bind (wrapperNamed_does g t on) fun w => .assume fun ⟨_, hi⟩ => ?_
    refine make_does g t ((Instance.acquire_does u hi).post fun i s h => ?_) keep w.label
    obtain ⟨rfl, h⟩ := h
    exact ⟨hi, h⟩
  | release on => exact release_does g t on
  | drop on =>
    exact (drop_settles g t on).mono (fun _ h => h) (fun _ _ h => (t.without on).between h)
      fun _ _ h => (t.without on).between h
  | cast on target keep => exact cast_does g t on target keep
  | classify on keep => exact classify_does g t on keep
  | relabel on label keep => exact relabel_does g t on label keep
  | resolve target lib on tag borrow keep => exact safe.elim
  | classTypeId on =>
    refine .bind (wrapperNamed_does g t on) fun w => .assume fun ⟨_, hi⟩ => ?_
    exact answer_does t (Instance.classTypeId_movesNone u hi) .tag
  | lastError on =>
    refine .bind (wrapperNamed_does g t on) fun w => .assume fun ⟨_, hi⟩ => ?_
    exact answer_does t (Instance.lastError_movesNone u hi) .message
  | describe on => exact .bind (wrapperNamed_does g t on) fun w => .pure fun _ h => t.between h.2
  | count c target =>
    refine .bind (handleOf_does g t target) fun h => ?_
    exact read_does t fun p => .references (p.count? c h)
  | live => exact read_does t fun p => .live (liveObjects p)
  | _ => cases h

theorem outsideStep_does (h : st.group = .outside) (safe : st.Safe) :
    Does (Known B ws ls) (st.run out) (fun _ => Between B) fun _ => Between B := by
  cases st with
  | hook plan =>
    exact .bind (.monadLift (modifyHook_does g t fun _ _ => safe)) fun _ => .pure fun _ h => h
  | hookLog =>
    refine .bind (Q := fun _ => Known B ws ls) (fun _ h => h) fun p => ?_
    exact .bind (.monadLift (modifyHook_does g t fun _ h => h)) fun _ => .pure fun _ h => h
  | script k =>
    exact .bind (.monadLift (modifyScript_does g t _)) fun _ => .pure fun _ h => h
  | scriptLog =>
    refine .bind (Q := fun _ => Known B ws ls) (fun _ h => h) fun p => ?_
    exact .bind (.monadLift (modifyScript_does g t _)) fun _ => .pure fun _ h => h
  | direct s target other args => exact safe.elim
  | _ => cases h

theorem step_does (safe : st.Safe) (hmay : st.Allowed leave ws) :
    Does (Known B ws ls) (st.run out) (fun _ => Between B) fun _ => Between B := by
  cases h : st.group with
  | libraries => exact libraryStep_does g t h safe
  | zoo => exact zooStep_does g t h hmay
  | calculator => exact calculatorStep_does g t h safe
  | primes => exact primesStep_does g t h
  | wrappers => exact wrapperStep_does g t h safe
  | outside => exact outsideStep_does g t h safe

end

/-- What is known between steps is known after one more. -/
theorem Between.step (g : Staged out leave B) {st : Step} (safe : st.Safe) {s : Process World}
    (hmay : st.Allowed leave s.outer.wrappers) (h : Between B s) : Between B (st.run out s).2 := by
  obtain ⟨ws, ls, t, h⟩ := h
  rw [(g.outer h).wrappers] at hmay
  exact (step_does g t safe hmay).leaves h

end Boundary.Session
