/-
  Boundary.Proofs.Host.Casts — what the bindings let pass, the components let pass.

  The hierarchy of classes is written down four times: in the lists of what a class accepts, in
  the tags that a wrapper is made for, in the objects of the components, and in what their
  functions ask of an object. A wrapper of an object whose class is known was made because its
  class accepts that of the object (`Wrapped.sound`), so the object is what the functions ask for
  that the class provides, itself or by inheritance.

  Proved: no method of such a wrapper, with arguments that are such wrappers, fails because a
  component finds an object to be of the wrong class, when the wrapper was made or at any later
  time (`wrapped_accepted`).
-/
import Boundary.Proofs.Host.Tags
import Boundary.Proofs.Reached.Fits
import Mathlib.Logic.Relation

namespace Boundary

open Exchange (Cell Filled Host Place Room)

variable {ω α ρ : Type} {out : Outside ω} {s s' u : Process ω} {w : ω}

namespace Host

variable {T D : Class}

/-! ## Classes above classes -/

def Class.IsA : Class → Class → Prop := Relation.ReflTransGen fun k above => k.parent? = some above

theorem Class.accepts_parent (h : T.parent? = some D) :
    D.component = T.component ∧ ∀ k ∈ T.accepts, k ∈ D.accepts := by
  cases T <;> cases h <;> decide

theorem Class.IsA.component (h : T.IsA D) : D.component = T.component := by
  induction h with
  | refl => rfl
  | tail _ hparent ih => exact (accepts_parent hparent).1.trans ih

theorem Class.IsA.accepts (h : T.IsA D) {k : Class} (hk : k ∈ T.accepts) : k ∈ D.accepts := by
  induction h with
  | refl => exact hk
  | tail _ hparent ih => exact (accepts_parent hparent).2 k ih

end Host

theorem Process.Fits.above {T D : Host.Class} {x : Handle} (h : u.Fits T x) (hD : T.IsA D) :
    u.Fits D x :=
  ⟨h.issued, fun n hn =>
    have ⟨k, hk, htag⟩ := h.accepted n (hD.component ▸ hn)
    ⟨k, hD.accepts hk, hD.component.symm ▸ htag⟩⟩

/-! ## Wrappers of known objects -/

/-- Under the reserved namespaces there are functions of the components alone. -/
theorem Reaches.guarded (r : Reaches { outer := w } u) : u.registry.Guarded := by
  refine r.keeps (fun registry event h => ?_) fun x a _ h => by cases h
  cases event with
  | install c => exact (h.install c).1
  | register ns name address => exact (h.register ns name address).1

/-- A handle of a live object of a class that the bindings know. If a tag came with it, it is that
    of the object. -/
def RawHandle.Known (raw : RawHandle) (c : Component) (s : Process ω) : Prop :=
  ∃ n k, s.className? c raw.handle = some n ∧ Host.Class.ofTag? c (Tag.ofName n) = some k ∧
    ∀ tag, raw.cached = some tag → tag = Tag.ofName n

namespace Host

variable {T D : Class} {i : Instance} {l : Library} {raw : RawHandle}

/-- The bindings made the wrapper, as one of class `T`, of a live object of a class that they know,
    and calls have led to `u` since. -/
inductive Wrapped (start : Process ω) (T : Class) (i : Instance) (u : Process ω) : Prop
  | resolved {out : Outside ω} {l : Library} {raw : RawHandle} {s s' : Process ω} :
      Reaches start s → l.Home → T.component = l.component → raw.Known l.component s →
      resolve out.invoker l T raw s = (.ok i, s') → Reaches s' u → Wrapped start T i u
  | lent {out : Outside ω} {l : Library} {raw : RawHandle} {s s' : Process ω} :
      Reaches start s → l.Home → T.component = l.component → raw.Known l.component s →
      resolveBorrowed out.invoker l T raw s = (.ok i, s') → Reaches s' u → Wrapped start T i u
  | cast {out : Outside ω} {j : Instance} {s s' : Process ω} :
      Reaches start s → j.library.Home → T.component = j.library.component →
      (RawHandle.bare j.handle).Known j.library.component s →
      cast out.invoker T j s = (.ok i, s') → Reaches s' u → Wrapped start T i u

/-- A known class is accepted, or it does not fit. -/
theorem resolveInstance_known {n : String} {k : Class} {cached : Option Tag} (hi : i.Home)
    (hx : i.isNull = false) (hn : s.className? i.library.component i.handle = some n)
    (hk : Class.ofTag? i.library.component (Tag.ofName n) = some k)
    (hcached : ∀ tag, cached = some tag → tag = Tag.ofName n) :
    resolveInstance out.invoker T i cached s =
      (if T.accepts.contains k then .ok i else .error (.invalidCast T.name (Tag.ofName n), i), s) := by
  have htag : cached.getD (Tag.ofName n) = Tag.ofName n := by
    cases cached with
    | none => rfl
    | some tag => exact hcached tag rfl
  rw [resolveInstance_judges out hi hx hn, htag, wrapTagged, dispatch, hk]
  dsimp only
  rw [Dispatched.convert]
  cases T.accepts.contains k <;> rfl

structure Sound (T : Class) (i : Instance) (u : Process ω) : Prop where
  home : i.Home
  live : i.isNull = false
  component : i.library.component = T.component
  fits : u.Fits T i.handle

/-- The class is checked of every wrapper in the same way. -/
theorem Wrapped.checked {start : Process ω} (h : Wrapped start T i u) :
    ∃ (out : Outside ω) (raw : RawHandle) (s s' : Process ω), Reaches start s ∧ i.Home ∧
      T.component = i.library.component ∧ raw.Known i.library.component s ∧ i.handle = raw.handle ∧
      resolveInstance out.invoker T ⟨i.library, raw.handle⟩ raw.cached s =
        (.ok ⟨i.library, raw.handle⟩, s') ∧ Reaches s' u := by
  cases h with
  | resolved hs hl hT hknown hrun r =>
    obtain ⟨hresolved, rfl⟩ := Resolution.settled_made hrun
    exact ⟨_, _, _, _, hs, hl, hT, hknown, rfl, hresolved, r⟩
  | lent hs hl hT hknown hrun r =>
    obtain ⟨hresolved, rfl⟩ := Resolution.settled_made hrun
    exact ⟨_, _, _, _, hs, hl, hT, hknown, rfl, hresolved, r⟩
  | cast hs hl hT hknown hrun r =>
    obtain ⟨hresolved, rfl⟩ := Resolution.settled_made hrun
    exact ⟨_, _, _, _, hs, hl, hT, hknown, rfl, hresolved, r⟩

/-- The handle of a known object is not the null handle, and the check changes nothing. -/
theorem known_passed (hs : Reaches { outer := w } s) (hb : s'.shared.issued < handleLimit)
    (hl : l.Home) (h : raw.Known l.component s)
    (hresolved : resolveInstance out.invoker T ⟨l, raw.handle⟩ raw.cached s =
      (.ok ⟨l, raw.handle⟩, s')) :
    s' = s ∧ Instance.isNull ⟨l, raw.handle⟩ = false ∧
      ∃ n, s.className? l.component raw.handle = some n ∧
        ∃ k ∈ T.accepts, Class.ofTag? l.component (Tag.ofName n) = some k := by
  obtain ⟨n, k, hn, hk, hcached⟩ := h
  have hsame : s' = s := by
    by_cases hnull : Instance.isNull ⟨l, raw.handle⟩ = true
    · rw [resolveInstance_null hnull] at hresolved
      exact (congrArg Prod.snd hresolved).symm
    · rw [resolveInstance_known hl (by simpa using hnull) hn hk hcached] at hresolved
      exact (congrArg Prod.snd hresolved).symm
  subst hsame
  have hx : Instance.isNull ⟨l, raw.handle⟩ = false := by
    refine Bool.eq_false_iff.mpr fun hnull => ?_
    have hnull : raw.handle = Handle.null := Table.isNull_iff.mp hnull
    have hnumbered := ((hs.kindred (.refl _) hb).numbered _ _ _ hn).1
    rw [hnull] at hnumbered
    exact absurd hnumbered (by decide)
  rw [resolveInstance_known hl hx hn hk hcached] at hresolved
  refine ⟨rfl, hx, n, hn, k, ?_, hk⟩
  by_contra hno
  rw [if_neg (by simpa using hno)] at hresolved
  cases hresolved

/-- The check that a wrapper was made after settles what its object is. -/
theorem Wrapped.sound (h : Wrapped { outer := w } T i u) (hb : u.shared.issued < handleLimit) :
    Sound T i u ∧ Reaches { outer := w } u := by
  obtain ⟨out, raw, s, s', hs, hi, hT, hknown, hraw, hresolved, r⟩ := h.checked
  have hbefore : s'.shared.issued < handleLimit := r.issued_le.trans_lt hb
  obtain ⟨rfl, hx, n, hn, k, hk, htag⟩ := known_passed hs hbefore hi hknown hresolved
  have fits : s'.Fits T raw.handle := by
    refine ⟨((hs.kindred (.refl _) hbefore).numbered _ _ _ hn).2, fun m hm => ⟨k, hk, ?_⟩⟩
    rw [hT] at hm ⊢
    obtain rfl := Option.some.inj (hn.symm.trans hm)
    exact htag
  exact ⟨⟨hi, (congrArg Handle.isNull hraw).trans hx, hT.symm, hraw ▸ (hs.kindred r hb).fits fits⟩,
    hs.trans r⟩

/-! ## What the classes provide -/

/-- The methods of a wrapper that a class provides itself, and the wrappers that they are given,
    each of a class. -/
inductive Provides {σ : Type} [Journal σ] (via : Invoker σ) (i : Instance) :
    Class → List (Class × Instance) → {α : Type} → Host σ α → Prop where
  | classTypeId {T : Class} : T.parent? = none → Provides via i T [] (i.classTypeId via)
  | lastError {T : Class} : T.parent? = none → Provides via i T [] (i.lastError via)
  -- zoos
  | animalName : Provides via i .animal [] (Zoo.animalName via i)
  | roar : Provides via i .tiger [] (Zoo.roar via i)
  | addAnimal (species : Boundary.Zoo.Species) (name : String) :
      Provides via i .zoo [] (Zoo.addAnimal via i species name)
  | animalCount : Provides via i .zoo [] (Zoo.animalCount via i)
  | animalAt (index : UInt32) : Provides via i .zoo [] (Zoo.animalAt via i index)
  | iterate : Provides via i .zoo [] (Zoo.iterate via i)
  | nextAnimal : Provides via i .animalIterator [] (Zoo.nextAnimal via i)
  | nextMandatoryAnimal : Provides via i .animalIterator [] (Zoo.nextMandatoryAnimal via i)
  -- variables and calculators
  | variableValue : Provides via i .calculatorVariable [] (Calculator.value via i)
  | setVariable (value : Float) : Provides via i .calculatorVariable [] (Calculator.setValue via i value)
  | enlistVariable (v : Instance) :
      Provides via i .calculator [(.calculatorVariable, v)] (Calculator.enlistVariable via i v)
  | enlistedVariable (index : UInt32) :
      Provides via i .calculator [] (Calculator.enlistedVariable via i index)
  | clearVariables : Provides via i .calculator [] (Calculator.clearVariables via i)
  | add : Provides via i .calculator [] (Calculator.add via i)
  | multiply : Provides via i .calculator [] (Calculator.multiply via i)
  | apply (x : Symbol) : Provides via i .calculator [] (Calculator.apply via i x)
  | enlistPrimes (sieve : Instance) :
      Provides via i .calculator [(.sieveCalculator, sieve)] (Calculator.enlistPrimes via i sieve)
  -- factorizations and sieves
  | primesValue : Provides via i .primesCalculator [] (Primes.value via i)
  | setPrimesValue (value : UInt64) :
      Provides via i .primesCalculator [] (Primes.setValue via i value)
  | calculate : Provides via i .primesCalculator [] (Primes.calculate via i)
  | setProgressCallback (callback : Option Foreign) :
      Provides via i .primesCalculator [] (Primes.setProgressCallback via i callback)
  | primeFactors : Provides via i .factorizationCalculator [] (Primes.primeFactors via i)
  | primes : Provides via i .sieveCalculator [] (Primes.primes via i)

/-! ## Methods -/

/-- The method does not fail because a component finds an object to be of the wrong class, while
    there are handles left. -/
def Accepted (x : Host (Process ω) α) (u : Process ω) : Prop :=
  (x u).2.shared.issued < handleLimit →
    ∀ component message, (x u).1 ≠ .error (.native component Status.invalidCast message)

/-- Where a method fails, its call did. -/
theorem Method.accepted {c : Call ρ} {x : Host (Process ω) α} (hi : Sound D i u)
    (m : Method out.invoker i.library c (pure ()) x) (hc : c.guard = some (D.component, i.handle))
    (haccepts : AcceptsYet (· = u) (perform out (out.reach .none) c)) : Accepted x u := by
  intro hb component message hfails
  have hreports := m.reports hi.home (hi.component ▸ hc)
  have hrun : perform out (out.reach .none) c u = (((perform out (out.reach .none) c u).1.1,
      (perform out (out.reach .none) c u).1.2), (perform out (out.reach .none) c u).2) := rfl
  by_cases hok : (perform out (out.reach .none) c u).1.1 = Status.ok
  · rw [hok] at hrun
    cases hreports.passed hrun _ hfails
  · obtain ⟨told, notes, hblamed⟩ := hreports.blamed hok hrun
    rw [hblamed] at hb hfails
    exact haccepts u rfl hb (Failure.native.inj (Except.error.inj hfails)).2.1

/-- A failure of the bindings' own is no component's. -/
theorem NeverNative.accepted {P : Process ω → Prop} {x : Host (Process ω) α} (h : NeverNative P x)
    (hu : P u) : Accepted x u := by
  intro _ component message hfails
  have hown : Either _ _ (x u).1 (x u).2 := h u hu
  rw [hfails] at hown
  cases hown

/-- A placeholder is refused by the bindings. -/
theorem Instance.checked_neverNative {P : Process ω → Prop} (i : Instance) :
    Does P (liftM i.checked : Host (Process ω) Handle) (fun _ => P) fun why _ => why.isNative = false := by
  unfold checked
  split
  · exact .throw fun _ _ => rfl
  · exact .pure fun _ h => h

/-- So is a text that would end early. -/
theorem textArg_neverNative {P : Process ω → Prop} (t : String) :
    Does P (liftM (textArg t) : Host (Process ω) TextArg) (fun _ s => '\x00' ∉ t.toList ∧ P s)
      fun why _ => why.isNative = false := by
  by_cases h : '\x00' ∈ t.toList
  · rw [textArg_bad h]
    exact .throw fun _ _ => rfl
  · rw [textArg_ok h]
    exact .pure fun _ hs => ⟨h, hs⟩

/-- The last error is told of an object of any class. -/
theorem Instance.lastError_accepted (hi : i.Home) : Accepted (i.lastError out.invoker) u := by
  let E (why : Failure) : Prop := ∀ component message, why ≠ .native component Status.invalidCast message
  have hown (why : Failure) (h : why.isNative = false) : E why := by
    rintro component message rfl
    cases h
  have hask (h : Handle) (room : Room UInt32) :
      Does (fun _ : Process ω × Bool => True) (i.library.askLastError out.invoker h room)
        (fun _ _ => True) fun why _ => E why := by
    rintro ⟨v, flag⟩ -
    have haccepts : (perform out (out.reach .none) (.getLastError i.library.component h room.capacity
        room.narrow (some flag)) v).1.1 ≠ Status.invalidCast :=
      getLastError_accepts (P := fun _ => True) i.library.component h room.capacity room.narrow
        (some flag) v trivial
    rw [← hi.call] at haccepts
    show Either _ _ (if _ then _ else _) _
    split
    · trivial
    · exact fun component message he => haccepts (Failure.native.inj he).2.1
  have hfetch (h : Handle) : Does (fun _ : Process ω => True) (i.library.fetchLastError out.invoker h)
      (fun _ _ => True) fun why _ => E why := by
    intro v _
    have hf := Exchange.fetchText_does (E := fun why _ => E why) (fun _ _ _ _ => trivial)
      (fun why _ _ hnative => hown why hnative) (hask h) i.library.options.attempts (v, false) trivial
    show Either _ _ (Except.map _ (Exchange.fetchText _ _ (v, false)).1) _
    change Either _ _ (Exchange.fetchText _ _ (v, false)).1 _ at hf
    revert hf
    cases (Exchange.fetchText i.library.options.attempts (i.library.askLastError out.invoker h)
      (v, false)).1 <;> exact id
  have hall : Does (fun _ : Process ω => True) (i.lastError out.invoker) (fun _ _ => True)
      fun why _ => E why := by
    exact .bind (i.checked_neverNative.failing fun why _ h => hown why h) hfetch
  intro _ component message hfails
  exact hall.after_error (s := u) trivial (Prod.ext hfails rfl) component message rfl

theorem Zoo.addAnimal_accepted (species : Boundary.Zoo.Species) {name : String}
    (h : '\x00' ∈ name.toList) : Accepted (Zoo.addAnimal out.invoker i species name) u := by
  refine NeverNative.accepted (P := fun _ => True) (.bind i.checked_neverNative fun _ => ?_) trivial
  exact .ite (fun _ => .throw_bind fun _ _ => rfl) fun hno => (hno (by simpa using h)).elim

theorem Calculator.apply_accepted {x : Symbol} (h : ¬ Passable x) :
    Accepted (Calculator.apply out.invoker i x) u := by
  refine NeverNative.accepted (P := fun _ => True) (.bind i.checked_neverNative fun _ => ?_) trivial
  refine Does.bind (textArg_neverNative x.ns) fun _ => .assume fun hns => ?_
  exact Does.bind (textArg_neverNative x.name) fun _ => .assume fun hname => (h ⟨hns, hname⟩).elim

/-- What a class provides is accepted of its wrappers. -/
theorem Provides.accepted {args : List (Class × Instance)} {x : Host (Process ω) α}
    (m : Provides out.invoker i D args x) (q : out.Calling) (hi : Sound D i u)
    (hargs : ∀ a ∈ args, Sound a.1 a.2 u) (k : Kindred u u) (hguard : u.registry.Guarded)
    (hinjected : (∃ sieve, (.sieveCalculator, sieve) ∈ args) → ∀ a, u.injected = some a → a.Native) :
    Accepted x u := by
  have hx := hi.live
  cases m with
  | classTypeId _ =>
    exact Method.accepted hi (.classTypeId i hx) (by rw [← hi.component]; rfl)
      (classTypeId_accepts _ _ _).yet
  | lastError _ => exact Instance.lastError_accepted hi.home
  | animalName =>
    exact Method.accepted hi (.animalName i hx) rfl (Boundary.Zoo.animalName_accepts hi.fits _ _).yet
  | roar => exact Method.accepted hi (.roar i hx) rfl (Boundary.Zoo.tigerRoar_accepts hi.fits _ _).yet
  | addAnimal species name =>
    by_cases hname : '\x00' ∈ name.toList
    · exact Zoo.addAnimal_accepted species hname
    · exact Method.accepted hi (.addAnimal i species name hx hname) rfl
        (Boundary.Zoo.addAnimal_accepts hi.fits _ _).yet
  | animalCount =>
    exact Method.accepted hi (.animalCount i hx) rfl (Boundary.Zoo.animalCount_accepts hi.fits _).yet
  | animalAt index =>
    exact Method.accepted hi (.animalAt i index hx) rfl (Boundary.Zoo.animalAt_accepts hi.fits _ _).yet
  | iterate => exact Method.accepted hi (.iterate i hx) rfl (Boundary.Zoo.iterator_accepts hi.fits _).yet
  | nextAnimal =>
    exact Method.accepted hi (.nextAnimal i hx) rfl (Boundary.Zoo.nextAnimal_accepts hi.fits _ _).yet
  | nextMandatoryAnimal =>
    exact Method.accepted hi (.nextMandatoryAnimal i hx) rfl
      (Boundary.Zoo.nextMandatoryAnimal_accepts hi.fits _).yet
  | variableValue =>
    exact Method.accepted hi (.variableValue i hx) rfl
      (Boundary.Calculator.getVariable_accepts hi.fits _)
  | setVariable value =>
    exact Method.accepted hi (.setVariable i value hx) rfl
      (Boundary.Calculator.setVariable_accepts hi.fits value)
  | enlistVariable v =>
    have hv := hargs _ List.mem_cons_self
    exact Method.accepted hi (.enlistVariable i v hx hv.live) rfl
      (Boundary.Calculator.enlistVariable_accepts hi.fits hv.fits)
  | enlistedVariable index =>
    exact Method.accepted hi (.enlistedVariable i index hx) rfl
      (Boundary.Calculator.enlistedVariable_accepts hi.fits _ _)
  | clearVariables =>
    exact Method.accepted hi (.clearVariables i hx) rfl
      (Boundary.Calculator.clearVariables_accepts hi.fits)
  | add =>
    exact Method.accepted hi (.add i hx) rfl (Boundary.Calculator.combine_accepts hi.fits k 0 (· + ·) _)
  | multiply =>
    exact Method.accepted hi (.multiply i hx) rfl
      (Boundary.Calculator.combine_accepts hi.fits k 1 (· * ·) _)
  | apply symbol =>
    by_cases hsymbol : Passable symbol
    · exact Method.accepted hi (.apply i symbol hx hsymbol) rfl
        (Boundary.Calculator.apply_accepts q hi.fits k _ _)
    · exact Calculator.apply_accepted hsymbol
  | enlistPrimes sieve =>
    have hsieve := hargs _ List.mem_cons_self
    exact Method.accepted hi (.enlistPrimes i sieve hx hsieve.live) rfl
      (Boundary.Calculator.enlistPrimes_accepts .none hi.fits hsieve.fits hguard
        (hinjected ⟨sieve, List.mem_cons_self⟩))
  | primesValue =>
    exact Method.accepted hi (.primesValue i hx) rfl (Boundary.Primes.getValue_accepts _ _).yet
  | setPrimesValue value =>
    exact Method.accepted hi (.setPrimesValue i value hx) rfl
      (Boundary.Primes.setValue_accepts _ _).yet
  | calculate =>
    exact Method.accepted hi (.calculate i hx) rfl (Boundary.Primes.calculate_accepts out _).yet
  | setProgressCallback callback =>
    exact Method.accepted hi (.setProgressCallback i callback hx) rfl
      (Boundary.Primes.setProgressCallback_accepts _ _).yet
  | primeFactors =>
    exact Method.accepted hi (.primeFactors i hx) rfl
      (Boundary.Primes.primeFactors_accepts hi.fits _ _).yet
  | primes =>
    exact Method.accepted hi (.primes i hx) rfl
      (Boundary.Primes.primes_accepts (fun _ hs => hs ▸ hi.fits) _ _).yet

theorem Sound.above (h : Sound T i u) (hD : T.IsA D) : Sound D i u :=
  ⟨h.home, h.live, h.component.trans hD.component.symm, h.fits.above hD⟩

/-- A wrapper was made, as one of class `T`, of a live object whose class is known. Then no method
    that `T` or a class above it provides, given wrappers made in the same way, fails because a
    component finds an object to be of the wrong class: neither then nor at any later time,
    whatever calls are made in between and by callables and callbacks in the middle of it. Where a
    sieve is read, that has to be in the process, if there is anything to read it from; and fewer
    objects have been made than there are handles. -/
theorem wrapped_accepted (q : out.Calling) (hi : Wrapped { outer := w } T i u) (hD : T.IsA D)
    {args : List (Class × Instance)} {x : Host (Process ω) α} (m : Provides out.invoker i D args x)
    (hargs : ∀ a ∈ args, ∃ S : Class, Wrapped { outer := w } S a.2 u ∧ S.IsA a.1)
    (hinjected : (∃ sieve, (.sieveCalculator, sieve) ∈ args) → ∀ a, u.injected = some a → a.Native)
    (hu : u.shared.issued < handleLimit) (hb : (x u).2.shared.issued < handleLimit)
    (component : String) (message : Option String) :
    (x u).1 ≠ .error (.native component Status.invalidCast message) := by
  obtain ⟨sound, reached⟩ := hi.sound hu
  refine m.accepted q (sound.above hD) (fun a ha => ?_) (reached.kindred (.refl u) hu) reached.guarded
    hinjected hb component message
  obtain ⟨S, ha, hS⟩ := hargs a ha
  exact (ha.sound hu).1.above hS

/-- A known object is wrapped as any class that accepts it. -/
theorem resolve_known {n : String} {k : Class} (hl : l.Home) (hx : raw.handle.isNull = false)
    (hn : s.className? l.component raw.handle = some n)
    (hk : Class.ofTag? l.component (Tag.ofName n) = some k)
    (hcached : ∀ tag, raw.cached = some tag → tag = Tag.ofName n) (hT : T.accepts.contains k = true) :
    resolve out.invoker l T raw s = (.ok ⟨l, raw.handle⟩, s) := by
  have hresolved : resolveInstance out.invoker T ⟨l, raw.handle⟩ raw.cached s =
      (.ok ⟨l, raw.handle⟩, s) := by
    rw [resolveInstance_known (i := ⟨l, raw.handle⟩) (T := T) hl hx hn hk hcached, if_pos hT]
  exact Resolution.settled_ok hresolved

def unread : Process Unit :=
  idle.after { outer := () }
    [⟨_, .createCalculator (some Handle.null)⟩, ⟨_, .createSieve (some Handle.null)⟩]

theorem unread_wrapped {n : String} {k : Class} {x : Handle} (hx : x.isNull = false)
    (hT : T.component = l.component) (hl : l.Home) (hn : unread.className? l.component x = some n)
    (hk : Class.ofTag? l.component (Tag.ofName n) = some k) (hmem : T.accepts.contains k = true) :
    Wrapped { outer := () } T ⟨l, x⟩ unread := by
  have hcached : ∀ tag, (RawHandle.bare x).cached = some tag → tag = Tag.ofName n :=
    fun _ h => by cases h
  have hknown : (RawHandle.bare x).Known l.component unread := ⟨n, k, hn, hk, hcached⟩
  have hresolve : resolve idle.invoker l T (.bare x) unread = (.ok ⟨l, x⟩, unread) :=
    resolve_known hl hx hn hk hcached hmem
  exact .resolved (idle_calling.after (.refl _) _) hl hT hknown hresolve (.refl _)

/-- There is nothing to read the sieve from, but it is a sieve. -/
theorem wrapped_accepted_unread : unread.injected = none ∧ ∀ message : Option String,
    (Calculator.enlistPrimes idle.invoker ⟨.own .calculator {}, ⟨1⟩⟩ ⟨.own .primes {}, ⟨2⟩⟩ unread).1 ≠
      .error (.native "Calculator" Status.invalidCast message) := by
  have hcalculator : Wrapped { outer := () } .calculator ⟨.own .calculator {}, ⟨1⟩⟩ unread :=
    unread_wrapped rfl rfl (Library.own_home _ _ _) (n := "Calculator::Calculator") (by decide +kernel)
      Calculator.ofTag?_calculator rfl
  have hsieve : Wrapped { outer := () } .sieveCalculator ⟨.own .primes {}, ⟨2⟩⟩ unread :=
    unread_wrapped rfl rfl (Library.own_home _ _ _) (n := "Primes::SieveCalculator")
      (k := .sieveCalculator) (by decide +kernel) (by decide +kernel) rfl
  have hinjected : unread.injected = none := rfl
  refine ⟨hinjected, fun message => ?_⟩
  refine wrapped_accepted idle_calling hcalculator .refl (.enlistPrimes _) (fun a ha => ?_)
    (fun _ a ha => ?_) (by decide +kernel) (by decide +kernel) _ _
  · rw [List.mem_singleton] at ha
    exact ⟨.sieveCalculator, ha ▸ hsieve, ha ▸ .refl⟩
  · exact absurd ha (by simp [hinjected])

end Host

end Boundary
