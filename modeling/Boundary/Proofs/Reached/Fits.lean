/-
  Boundary.Proofs.Reached.Fits — objects whose class is accepted are not refused.

  The bindings know an object by its tag, and let it pass as a class if that class accepts the
  concrete one with the tag. A component looks at the object itself, in every export anew. Where
  whatever a handle names is of a concrete class that is accepted (`Process.Fits`), the export
  that the class is there for does not find the object to be of the wrong kind (`Accepts`).

  Two exports look again after other code has run. What callables do in the meantime, or how many
  variables are made, does not matter, as long as there are handles left: a handle that named an
  object of a class names no object of another (`Kindred.fits`).
-/
import Boundary.Host.Class
import Boundary.Proofs.Exports.Calculator
import Boundary.Proofs.Reached.Classes

namespace Boundary

open Exchange (Cell Place)

variable {ω σ O α ρ : Type} {s s' u : Process ω} {x : Handle} {T : Host.Class}

/-! ## Objects and classes -/

namespace Zoo

def Species.class? : Species → Option Host.Class
  | giraffe => some .giraffe
  | tiger => some .tiger
  | snake => some .snake
  | turtle => some .turtle
  | axolotl => none

def Object.class? : Object → Option Host.Class
  | zoo _ => some .zoo
  | iterator _ _ => some .animalIterator
  | animal species _ => species.class?

theorem Object.ofTag? (o : Object) : Host.Class.ofTag? .zoo (Tag.ofName o.className) = o.class? := by
  have hzoo : Host.Class.ofTag? .zoo (Tag.ofName "Zoo::Zoo") = some .zoo := by decide +kernel
  have hiterator : Host.Class.ofTag? .zoo (Tag.ofName "Zoo::AnimalIterator") = some .animalIterator := by
    decide +kernel
  have hanimal (species : Species) :
      Host.Class.ofTag? .zoo (Tag.ofName ("Zoo::" ++ species.name)) = species.class? := by
    cases species <;> decide +kernel
  cases o with
  | zoo _ => exact hzoo
  | iterator _ _ => exact hiterator
  | animal species _ => exact hanimal species

end Zoo

theorem Calculator.ofTag?_variable :
    Host.Class.ofTag? .calculator (Tag.ofName "Calculator::Variable") = some .calculatorVariable := by
  decide +kernel

theorem Calculator.ofTag?_calculator :
    Host.Class.ofTag? .calculator (Tag.ofName "Calculator::Calculator") = some .calculator := by
  decide +kernel

namespace Primes

def Kind.class : Kind → Host.Class
  | factorization => .factorizationCalculator
  | sieve => .sieveCalculator

theorem Object.ofTag? (o : Object) :
    Host.Class.ofTag? .primes (Tag.ofName o.className) = some o.kind.class := by
  have hfactorization : Host.Class.ofTag? .primes (Tag.ofName "Primes::FactorizationCalculator") =
      some .factorizationCalculator := by decide +kernel
  have hsieve : Host.Class.ofTag? .primes (Tag.ofName "Primes::SieveCalculator") =
      some .sieveCalculator := by decide +kernel
  unfold className
  split
  · next h => rw [h, hfactorization, Kind.class]
  · next h => rw [h, hsieve, Kind.class]

end Primes

/-- The handle was issued, and if it names anything, the class of that is one of those that
    `T` accepts. -/
structure Process.Fits (s : Process ω) (T : Host.Class) (x : Handle) : Prop where
  issued : x.raw.toNat ≤ s.shared.issued
  accepted : ∀ n, s.className? T.component x = some n →
    ∃ k ∈ T.accepts, Host.Class.ofTag? T.component (Tag.ofName n) = some k

namespace Process.Fits

/-- Some other object is under the handle only if it was not issued before. -/
theorem of_className (h : s.Fits T x) (hi : s.shared.issued ≤ s'.shared.issued)
    (hn : ∀ n, s'.className? T.component x = some n → s.className? T.component x = some n) :
    s'.Fits T x :=
  ⟨h.issued.trans hi, fun n h' => h.accepted n (hn n h')⟩

theorem subsides (h : s.Fits T x) (l : Subsides s s') : s'.Fits T x :=
  h.of_className l.issued.ge fun _ => l.className?

theorem insert {o : Calculator.Object} (h : s.Fits T x) (hb : s.shared.issued + 1 < handleLimit) :
    (Process.calculatorPart.insert o s).2.Fits T x := by
  refine h.of_className (Nat.le_succ _) fun n hn => ?_
  generalize hc : T.component = c at hn
  cases c with
  | calculator =>
    refine (Table.name_insert hn).resolve_left fun hx => ?_
    have hraw := (made_raw hb hx rfl).1
    have := h.issued
    omega
  | zoo => exact hn
  | primes => exact hn

theorem zooObject (h : s.Fits T x) (hT : T.component = .zoo) {o : Zoo.Object}
    (ho : s.zoo.get? x = some o) : ∃ k ∈ T.accepts, o.class? = some k := by
  obtain ⟨k, hk, htag⟩ := h.accepted o.className (by
    rw [hT]
    exact congrArg (Option.map Zoo.Object.className) ho)
  exact ⟨k, hk, by rw [← o.ofTag?, ← hT, htag]⟩

theorem zoo (h : s.Fits .zoo x) {o : Zoo.Object} (ho : s.zoo.get? x = some o) :
    ∃ animals, o = .zoo animals := by
  obtain ⟨k, hk, hclass⟩ := h.zooObject rfl ho
  cases o with
  | zoo animals => exact ⟨animals, rfl⟩
  | iterator _ _ =>
    cases hclass
    exact absurd hk (by decide)
  | animal species _ =>
    cases species <;> cases hclass <;> exact absurd hk (by decide)

theorem iterator (h : s.Fits .animalIterator x) {o : Zoo.Object} (ho : s.zoo.get? x = some o) :
    ∃ animals k, o = .iterator animals k := by
  obtain ⟨k, hk, hclass⟩ := h.zooObject rfl ho
  cases o with
  | iterator animals k => exact ⟨animals, k, rfl⟩
  | zoo _ =>
    cases hclass
    exact absurd hk (by decide)
  | animal species _ =>
    cases species <;> cases hclass <;> exact absurd hk (by decide)

theorem animal (h : s.Fits .animal x) {o : Zoo.Object} (ho : s.zoo.get? x = some o) :
    ∃ species name, o = .animal species name := by
  obtain ⟨k, hk, hclass⟩ := h.zooObject rfl ho
  cases o with
  | animal species name => exact ⟨species, name, rfl⟩
  | zoo _ =>
    cases hclass
    exact absurd hk (by decide)
  | iterator _ _ =>
    cases hclass
    exact absurd hk (by decide)

theorem tiger (h : s.Fits .tiger x) {o : Zoo.Object} (ho : s.zoo.get? x = some o) :
    ∃ name, o = .animal .tiger name := by
  obtain ⟨k, hk, hclass⟩ := h.zooObject rfl ho
  cases o with
  | animal species name =>
    cases species
    case tiger => exact ⟨name, rfl⟩
    case axolotl => cases hclass
    all_goals
      cases hclass
      exact absurd hk (by decide)
  | zoo _ =>
    cases hclass
    exact absurd hk (by decide)
  | iterator _ _ =>
    cases hclass
    exact absurd hk (by decide)

theorem var (h : s.Fits .calculatorVariable x) {o : Calculator.Object}
    (ho : s.calculator.get? x = some o) : ∃ value, o = .var value := by
  obtain ⟨k, hk, htag⟩ := h.accepted o.className
    (congrArg (Option.map Calculator.Object.className) ho)
  cases o with
  | var value => exact ⟨value, rfl⟩
  | calculator _ =>
    cases Calculator.ofTag?_calculator.symm.trans htag
    exact absurd hk (by decide)

theorem calculator (h : s.Fits .calculator x) {o : Calculator.Object}
    (ho : s.calculator.get? x = some o) : ∃ vs, o = .calculator vs := by
  obtain ⟨k, hk, htag⟩ := h.accepted o.className
    (congrArg (Option.map Calculator.Object.className) ho)
  cases o with
  | calculator vs => exact ⟨vs, rfl⟩
  | var _ =>
    cases Calculator.ofTag?_variable.symm.trans htag
    exact absurd hk (by decide)

theorem kind (h : s.Fits T x) (hT : T.component = .primes) {o : Primes.Object}
    (ho : s.primes.get? x = some o) : o.kind.class ∈ T.accepts := by
  obtain ⟨k, hk, htag⟩ := h.accepted o.className (by
    rw [hT]
    exact congrArg (Option.map Primes.Object.className) ho)
  rw [hT, o.ofTag?] at htag
  exact Option.some.inj htag ▸ hk

theorem factorization (h : s.Fits .factorizationCalculator x) {o : Primes.Object}
    (ho : s.primes.get? x = some o) : o.kind = .factorization := by
  have hk := h.kind rfl ho
  generalize o.kind = kind at hk
  cases kind with
  | factorization => rfl
  | sieve => exact absurd hk (by decide)

theorem sieve (h : s.Fits .sieveCalculator x) {o : Primes.Object}
    (ho : s.primes.get? x = some o) : o.kind = .sieve := by
  have hk := h.kind rfl ho
  generalize o.kind = kind at hk
  cases kind with
  | sieve => rfl
  | factorization => exact absurd hk (by decide)

end Process.Fits

namespace Kindred

theorem fits (k : Kindred s u) (h : s.Fits T x) : u.Fits T x :=
  h.of_className k.issued fun n => k.same _ _ n h.issued

/-- What is enlisted in a calculator is good for a variable. -/
theorem listed (k : Kindred s u) (h : u.Enlists x) : u.Fits .calculatorVariable x :=
  ⟨(k.enlisted x h).1, fun n hn => ⟨.calculatorVariable, List.mem_singleton_self _,
    (k.enlisted x h).2 n hn ▸ Calculator.ofTag?_variable⟩⟩

end Kindred

/-! ## Operations -/

def Suits (P : σ → Prop) (op : Op σ α) (Q : α → σ → Prop) : Prop :=
  Does P op Q fun why _ => why.code ≠ Status.invalidCast

def Accepts (P : σ → Prop) (f : StateM σ (Status × ρ)) : Prop :=
  Ends P f fun r _ => r.1 ≠ Status.invalidCast

namespace Suits

variable {P : σ → Prop}

theorem lift {r : Except Fault α} (h : ∀ e, r = .error e → e.Neutral) :
    Suits P (liftM r : Op σ α) fun _ => P :=
  Does.lift (fun _ _ _ hs => hs) fun e he _ _ => (h e he).fits

theorem guard {p : Part σ O} {cells : ρ} {op : Op σ ρ} {Q : ρ → σ → Prop} (hop : Suits P op Q) :
    Accepts P (p.guard x cells op) := by
  refine (Part.guard_ends hop).post fun r s hr => ?_
  rcases hr with ⟨hok, -⟩ | ⟨why, s', hcode, hne, -⟩
  · rw [hok]
    decide
  · rwa [hcode]

theorem require (cell : Cell α) : Suits P (liftM (Fixed.require cell) : Op σ Unit) fun _ => P :=
  .lift fun _ h => Fixed.require_neutral h

theorem read (a : TextArg) : Suits P (liftM a.read : Op σ String) fun _ => P :=
  .lift fun _ h => TextArg.read_neutral h

theorem get (p : Part σ O) (x : Handle) :
    Suits P (p.get x) fun o s => P s ∧ (p.view s).table.get? x = some o := by
  intro s hs
  show Either _ _ ((p.view s).table.get x) s
  cases hg : (p.view s).table.get x with
  | ok o => exact ⟨hs, Table.get_ok hg⟩
  | error why => exact (Table.get_neutral hg).fits

theorem acquire [Resource O] {p : Part σ O} (m : OutlastsRefs p P) (x : Handle) :
    Suits P (p.acquire x) fun _ => P := by
  refine Does.of_run fun s hs => ?_
  have h := m.acquire x s hs
  cases ha : (p.view s).table.acquire x with
  | ok t =>
    rw [Part.acquire_ok ha] at h
    exact .inl ⟨_, _, Part.acquire_ok ha, h⟩
  | error why => exact .inr ⟨_, _, Part.acquire_error ha, (Table.acquire_neutral ha).fits⟩

theorem release [Resource O] {p : Part σ O} (m : OutlastsRefs p P) (x : Handle) :
    Suits P (p.release x) fun _ => P := by
  intro s hs
  have h := m.release x s hs
  show Either _ _ (Release.answer ((p.view s).table.release x).2) (p.release x s).2
  cases hans : Release.answer ((p.view s).table.release x).2 with
  | ok _ => exact h
  | error why => exact (Release.answer_neutral hans).fits

end Suits

/-- Nothing is known, and that lasts. -/
theorem outlastsRefs_true [Resource O] (p : Part σ O) : OutlastsRefs p fun _ => True :=
  ⟨fun _ _ _ => trivial, fun _ _ _ => trivial, fun _ _ _ _ => trivial⟩

namespace Fixed

variable [Resource O] (p : Part σ O)

theorem classTypeId_accepts (x : Handle) (tag : Cell UInt64) {P : σ → Prop} :
    Accepts P (classTypeId p x tag) :=
  Suits.guard (.bind (Suits.get p x) fun _ => .bind (Suits.require tag) fun _ =>
    .pure (Q := fun _ _ => True) fun _ _ => trivial)

omit [Resource O] in
/-- The error is read without a look at the object. -/
theorem getLastError_accepts (x : Handle) (capacity : UInt32) (place : Place UInt32 UInt8)
    (hasError : Cell Bool) {P : σ → Prop} : Accepts P (getLastError p x capacity place hasError) := by
  refine .bind (Q := fun r _ => ∀ e, r = .error e → e.Neutral) (fun s _ => ?_) fun r => ?_
  · show ∀ e, (p.lastError x s).1 = .error e → e.Neutral
    unfold Part.lastError
    dsimp only
    split
    · exact fun _ h => by cases h
    · cases (p.view s).table.slots.get? x with
      | some _ => exact fun _ h => by cases h
      | none =>
        intro e h
        cases h
        exact .unknownHandle x
  · cases r with
    | error e => exact .pure fun _ h => (h e rfl).fits
    | ok message =>
      dsimp only
      split
      · exact .pure fun _ _ => (by decide : Status.ok ≠ Status.invalidCast)
      · next hserve => exact .pure fun _ _ => (Exchange.serveText_neutral hserve).fits

end Fixed

section

variable {out : Outside ω} {via : Invoker (Process ω)} {P : Process ω → Prop} (c : Component) (x : Handle)

theorem classTypeId_accepts (tag : Cell UInt64) :
    Accepts P (perform out via (.classTypeId c x tag)) := by
  cases c with
  | zoo => exact Fixed.classTypeId_accepts Process.zooPart x tag
  | calculator => exact Fixed.classTypeId_accepts Process.calculatorPart x tag
  | primes => exact Fixed.classTypeId_accepts Process.primesPart x tag

theorem getLastError_accepts (capacity : UInt32) (place : Place UInt32 UInt8) (hasError : Cell Bool) :
    Accepts P (perform out via (.getLastError c x capacity place hasError)) := by
  cases c with
  | zoo => exact Fixed.getLastError_accepts Process.zooPart x capacity place hasError
  | calculator => exact Fixed.getLastError_accepts Process.calculatorPart x capacity place hasError
  | primes => exact Fixed.getLastError_accepts Process.primesPart x capacity place hasError

end

/-! ## Zoos, iterators and animals -/

namespace Zoo

theorem fat_suits {P : Process ω → Prop} (x : Handle) : Suits P (fat x) fun _ _ => True :=
  .bind (Suits.get part x) fun _ => .pure fun _ _ => trivial

theorem animalsOf_suits (h : u.Fits .zoo x) : Suits (· = u) (animalsOf x) fun _ s => s = u := by
  refine .bind (Suits.get part x) fun o => ?_
  cases o with
  | zoo _ => exact .pure fun _ h => h.1
  | _ =>
    refine .throw fun s ⟨hs, ho⟩ => ?_
    obtain ⟨animals, hzoo⟩ := h.zoo (hs ▸ ho)
    cases hzoo

theorem addAnimal_accepts (h : u.Fits .zoo x) (species : UInt32) (name : TextArg) :
    Accepts (· = u) (addAnimal x species name) := by
  refine Suits.guard (Q := fun _ _ => True) (.bind (animalsOf_suits h) fun _ => ?_)
  split
  · refine .bind (Suits.read name) fun name => ?_
    refine .ite (fun _ => .throw_bind fun _ _ => (by decide)) fun _ => ?_
    exact fun _ _ => trivial
  · exact .throw fun _ _ => (by decide : Status.invalidParam ≠ Status.invalidCast)

theorem animalCount_accepts (h : u.Fits .zoo x) (count : Cell UInt32) :
    Accepts (· = u) (animalCount x count) := by
  refine Suits.guard (Q := fun _ _ => True) (.bind (animalsOf_suits h) fun _ => ?_)
  refine .bind (Suits.require count) fun _ => ?_
  exact .ite (fun _ => .throw_bind fun _ _ => (by decide)) fun _ => .pure fun _ _ => trivial

theorem animalAt_accepts (h : u.Fits .zoo x) (index : UInt32) (animal : Cell FatHandle) :
    Accepts (· = u) (animalAt x index animal) := by
  refine Suits.guard (Q := fun _ _ => True) (.bind (Suits.require animal) fun _ => ?_)
  refine .bind (animalsOf_suits h) fun _ => ?_
  split
  · exact .bind (fat_suits _) fun _ => .pure fun _ _ => trivial
  · exact .throw fun _ _ => (by decide : Status.invalidParam ≠ Status.invalidCast)

/-- Where a reference cannot be taken, that is the failure. -/
theorem acquireAll_suits (taken rest : List Handle) :
    Suits (fun _ : Process ω => True) (acquireAll taken rest) fun _ _ => True := by
  induction rest generalizing taken with
  | nil => exact .pure fun _ h => h
  | cons x rest ih =>
    refine .bind (Does.outcome (Suits.acquire (outlastsRefs_true part) x)) fun r => ?_
    cases r with
    | ok _ => exact ih _
    | error why =>
      refine Does.pre (P := fun _ => why.code ≠ Status.invalidCast ∧ True)
        (.assume fun hne => ?_) fun _ h => ⟨h, trivial⟩
      refine .bind (((outlastsRefs_true part).rollBack_answers taken).failing fun _ _ h => h.elim) fun _ => ?_
      exact .throw fun _ _ => hne

theorem iterator_accepts (h : u.Fits .zoo x) (cell : Cell FatHandle) :
    Accepts (· = u) (iterator x cell) := by
  refine Suits.guard (Q := fun _ _ => True) (.bind (Suits.require cell) fun _ => ?_)
  refine .bind (animalsOf_suits h) fun animals => ?_
  refine .bind ((acquireAll_suits [] animals).pre fun _ _ => trivial) fun _ => ?_
  refine .bind (Q := fun _ _ => True) (fun _ _ => trivial) fun it => ?_
  exact .bind (fat_suits it) fun _ => .pure fun _ _ => trivial

theorem animalName_accepts (h : u.Fits .animal x) (capacity : UInt32) (place : Place UInt32 UInt8) :
    Accepts (· = u) (animalName x capacity place) := by
  refine Suits.guard (Q := fun _ _ => True) (.bind (Suits.get part x) fun o => ?_)
  cases o with
  | animal _ _ =>
    exact (Suits.lift fun _ h => Exchange.serveText_neutral h).post fun _ _ _ => trivial
  | _ =>
    refine .throw fun s ⟨hs, ho⟩ => ?_
    obtain ⟨_, _, hanimal⟩ := h.animal (hs ▸ ho)
    cases hanimal

theorem tigerRoar_accepts (h : u.Fits .tiger x) (capacity : UInt32) (place : Place UInt32 UInt8) :
    Accepts (· = u) (tigerRoar x capacity place) := by
  refine Suits.guard (Q := fun _ _ => True) (.bind (Suits.get part x) fun o => ?_)
  by_cases ho : ∃ name, o = .animal .tiger name
  · obtain ⟨name, rfl⟩ := ho
    exact (Suits.lift fun _ h => Exchange.serveText_neutral h).post fun _ _ _ => trivial
  · exact fun s ⟨hs, hget⟩ => (ho (h.tiger (hs ▸ hget))).elim

theorem advance_suits (h : u.Fits .animalIterator x) :
    Suits (· = u) (advance x) fun _ _ => True := by
  refine .bind (Suits.get part x) fun o => ?_
  cases o with
  | iterator animals position =>
    dsimp only
    split
    · exact .pure fun _ _ => trivial
    · refine .bind (fat_suits _) fun _ => .bind (Suits.acquire (outlastsRefs_true part) _) fun _ => ?_
      exact .bind (Q := fun _ _ => True) (fun _ _ => trivial) fun _ => .pure fun _ _ => trivial
  | _ =>
    refine .throw fun s ⟨hs, ho⟩ => ?_
    obtain ⟨_, _, hiterator⟩ := h.iterator (hs ▸ ho)
    cases hiterator

theorem nextAnimal_accepts (h : u.Fits .animalIterator x) (animal : Cell FatHandle)
    (hasAnimal : Cell Bool) : Accepts (· = u) (nextAnimal x animal hasAnimal) := by
  refine Suits.guard (Q := fun _ _ => True) (.bind (Suits.require animal) fun _ => ?_)
  refine .bind (Suits.require hasAnimal) fun _ => .bind (advance_suits h) fun next => ?_
  cases next <;> exact .pure fun _ _ => trivial

theorem nextMandatoryAnimal_accepts (h : u.Fits .animalIterator x) (animal : Cell FatHandle) :
    Accepts (· = u) (nextMandatoryAnimal x animal) := by
  refine Suits.guard (Q := fun _ _ => True) (.bind (Suits.require animal) fun _ => ?_)
  refine .bind (advance_suits h) fun next => ?_
  cases next with
  | some next => exact .pure fun _ _ => trivial
  | none => exact .throw fun _ _ => (by decide : Status.noResult ≠ Status.invalidCast)

end Zoo

/-! ## Factorizations and sieves -/

namespace Primes

variable {P : Process ω → Prop}

theorem getValue_accepts (x : Handle) (value : Cell UInt64) : Accepts P (getValue x value) :=
  Suits.guard (Q := fun _ _ => True) (.bind (Suits.require value) fun _ =>
    .bind (Suits.get part x) fun _ => .pure fun _ _ => trivial)

theorem setValue_accepts (x : Handle) (value : UInt64) : Accepts P (setValue x value) :=
  Suits.guard (Q := fun _ _ => True) (.bind (Suits.get part x) fun _ => fun _ _ => trivial)

theorem setProgressCallback_accepts (x : Handle) (callback : Option Foreign) :
    Accepts P (setProgressCallback x callback) :=
  Suits.guard (Q := fun _ _ => True) (.bind (Suits.get part x) fun _ => fun _ _ => trivial)

theorem report_suits (out : Outside ω) (callback : Option Foreign) (p : Progress) :
    Suits (fun _ => True) (report out callback p) fun _ _ => True := by
  unfold report
  split
  · exact .pure fun _ h => h
  · refine .bind (Q := fun _ _ => True) (.monadLift fun _ h => h) fun _ => ?_
    exact .ite (fun _ => .throw fun _ _ => (by decide : Status.aborted ≠ Status.invalidCast)) fun _ =>
      .pure fun _ h => h

theorem calculate_accepts (out : Outside ω) (x : Handle) : Accepts P (calculate out x) := by
  refine Suits.guard (Q := fun _ _ => True) (.bind (Q := fun _ _ => True) (.of_run fun s _ => ?_)
    fun (serial, o) => ?_)
  · cases hh : ((part (ω := ω)).view s).table.hold x with
    | ok o => exact .inl ⟨o, s, congrArg (·, s) hh, trivial⟩
    | error why =>
      have hg : ((part (ω := ω)).view s).table.get x = .error why := by rw [Table.get, hh]; rfl
      exact .inr ⟨why, s, congrArg (·, s) hh, (Table.get_neutral hg).fits⟩
  · refine .bind (outcome_finds (report_suits out o.callback) fun _ _ _ =>
      (by decide : Status.invalidParam ≠ Status.invalidCast)) fun _ => ?_
    refine .bind (Q := fun _ _ => True) (fun _ _ => trivial) fun now => ?_
    exact .ite (fun _ => .throw_bind fun _ _ => (by decide : Status.generic ≠ Status.invalidCast))
      fun _ => fun _ _ => trivial

theorem primeFactors_accepts (h : u.Fits .factorizationCalculator x) (capacity : UInt64)
    (place : Place UInt64 PrimeFactor) : Accepts (· = u) (primeFactors x capacity place) := by
  refine Suits.guard (Q := fun _ _ => True) (.bind (Suits.get part x) fun o => ?_)
  refine .ite (fun hne => .throw_bind fun s ⟨hs, ho⟩ => (hne (h.factorization (hs ▸ ho))).elim)
    fun _ => ?_
  split
  · exact (Suits.lift fun _ h => Exchange.serveArray_neutral h).post fun _ _ _ => trivial
  · exact .throw fun _ _ => (by decide : Status.noResult ≠ Status.invalidCast)

theorem primes_accepts (h : ∀ s, P s → s.Fits .sieveCalculator x) (capacity : UInt64)
    (place : Place UInt64 UInt64) : Accepts P (primes x capacity place) := by
  refine Suits.guard (Q := fun _ _ => True) (.bind (Suits.get part x) fun o => ?_)
  refine .ite (fun hne => .throw_bind fun s ⟨hs, ho⟩ => (hne ((h s hs).sieve ho)).elim) fun _ => ?_
  split
  · exact (Suits.lift fun _ h => Exchange.serveArray_neutral h).post fun _ _ _ => trivial
  · exact .throw fun _ _ => (by decide : Status.noResult ≠ Status.invalidCast)

end Primes

/-! ## Variables and calculators -/

def SuitsYet (P : Process ω → Prop) (op : Op (Process ω) α) (Q : α → Process ω → Prop) : Prop :=
  Does P op Q fun why s => s.shared.issued < handleLimit → why.code ≠ Status.invalidCast

/-- While there are handles left, the function does not find an object to be of the wrong kind. -/
def AcceptsYet (P : Process ω → Prop) (f : Act ω (Status × ρ)) : Prop :=
  Ends P f fun r s => s.shared.issued < handleLimit → r.1 ≠ Status.invalidCast

theorem Suits.yet {P : Process ω → Prop} {op : Op (Process ω) α} {Q : α → Process ω → Prop}
    (h : Suits P op Q) : SuitsYet P op Q :=
  Does.failing h fun _ _ hne _ => hne

theorem Accepts.yet {P : Process ω → Prop} {f : Act ω (Status × ρ)} (h : Accepts P f) :
    AcceptsYet P f :=
  h.post fun _ _ hne _ => hne

namespace Calculator

theorem accepts_guard {P : Process ω → Prop} {cells : ρ} {op : Op (Process ω) ρ}
    {Q : ρ → Process ω → Prop} (hop : SuitsYet P op Q) : AcceptsYet P (part.guard x cells op) := by
  refine (Part.guard_ends hop).post fun r s hr hb => ?_
  rcases hr with ⟨hok, -⟩ | ⟨why, s', hcode, hne, rfl⟩
  · rw [hok]
    decide
  · rw [hcode]
    exact hne ((Subsides.fail .calculator x why s').issued ▸ hb)

section

variable {P : Process ω → Prop}

theorem valueOf_suits (h : ∀ s, P s → s.shared.issued < handleLimit → s.Fits .calculatorVariable x) :
    SuitsYet P (valueOf x) fun _ => P := by
  refine .bind (Suits.get part x).yet fun o => ?_
  cases o with
  | var _ => exact .pure fun _ h => h.1
  | calculator _ =>
    refine .throw fun s ⟨hs, ho⟩ hb => ?_
    obtain ⟨_, hvar⟩ := (h s hs hb).var ho
    cases hvar

theorem enlistedIn_suits (h : ∀ s, P s → s.shared.issued < handleLimit → s.Fits .calculator x) :
    SuitsYet P (enlistedIn x) fun vs s => (∀ v ∈ vs, s.Enlists v) ∧ P s := by
  refine .bind (Suits.get part x).yet fun o => ?_
  cases o with
  | calculator vs => exact .pure fun _ h => ⟨fun v hv => ⟨x, vs, h.2, hv⟩, h.1⟩
  | var _ =>
    refine .throw fun s ⟨hs, ho⟩ hb => ?_
    obtain ⟨_, hcalculator⟩ := (h s hs hb).calculator ho
    cases hcalculator

theorem finite_suits (value : Float) : SuitsYet P (liftM (finite value) : Op (Process ω) Float)
    fun w s => w.isFinite = true ∧ P s :=
  .lift (fun _ h _ hs => ⟨finite_ok h, hs⟩) fun _ h _ _ _ => (finite_neutral h).fits

theorem enlistAll_suits (h : ∀ s, P s → s.shared.issued < handleLimit → s.Fits .calculator x)
    (vs : List Handle) : SuitsYet P (enlistAll x vs) fun _ _ => True := by
  refine .bind (Does.outcome (enlistedIn_suits h)) fun r => ?_
  cases r with
  | ok _ => exact fun _ _ => trivial
  | error why =>
    -- What is given back are references; no handle is issued for that.
    refine .bind (((Subsides.calculatorAllowsLoss.outlastsRefs
      fun h l hb => h (l.issued ▸ hb)).rollBack_answers vs).failing fun _ _ h => h.elim) fun _ => ?_
    exact .throw fun _ h => h

end

variable {P : Process ω → Prop}

theorem getVariable_accepts (h : u.Fits .calculatorVariable x) (value : Cell Float) :
    AcceptsYet (· = u) (getVariable x value) :=
  accepts_guard (Q := fun _ _ => True) (.bind (Suits.require value).yet fun _ =>
    .bind (valueOf_suits fun _ hs _ => hs ▸ h) fun _ => .pure fun _ _ => trivial)

theorem setVariable_accepts (h : u.Fits .calculatorVariable x) (value : Float) :
    AcceptsYet (· = u) (setVariable x value) :=
  accepts_guard (Q := fun _ _ => True) (.bind (finite_suits value) fun _ =>
    .bind (valueOf_suits fun _ hs _ => hs.2 ▸ h) fun _ => fun _ _ => trivial)

/-- What fits goes on to fit while references come and go. -/
theorem fits_outlastsRefs (T : Host.Class) (x : Handle) :
    OutlastsRefs part fun s : Process ω => s.Fits T x :=
  Subsides.calculatorAllowsLoss.outlastsRefs fun h l => h.subsides l

theorem enlistVariable_accepts {v : Handle} (h : u.Fits .calculator x)
    (hv : u.Fits .calculatorVariable v) : AcceptsYet (· = u) (enlistVariable x v) := by
  refine accepts_guard (Q := fun _ _ => True) (.bind (valueOf_suits fun _ hs _ => hs ▸ hv) fun _ => ?_)
  refine .bind ((Suits.acquire (fits_outlastsRefs .calculator x) v).yet.pre fun _ hs => hs ▸ h)
    fun _ => ?_
  exact enlistAll_suits (fun _ h _ => h) [v]

theorem enlistedVariable_accepts (h : u.Fits .calculator x) (index : UInt32) (v : Cell Handle) :
    AcceptsYet (· = u) (enlistedVariable x index v) := by
  refine accepts_guard (Q := fun _ _ => True) (.bind (Suits.require v).yet fun _ => ?_)
  refine .bind (enlistedIn_suits fun _ hs _ => hs ▸ h) fun vs => ?_
  split
  · refine .bind ((Suits.acquire (outlastsRefs_true part) _).yet.pre fun _ _ => trivial) fun _ => ?_
    exact .pure fun _ _ => trivial
  · exact .throw fun _ _ _ => (by decide : Status.invalidParam ≠ Status.invalidCast)

theorem releaseAll_suits (vs : List Handle) :
    SuitsYet (fun _ : Process ω => True) (releaseAll vs) fun _ _ => True := by
  induction vs with
  | nil => exact .pure fun _ h => h
  | cons x rest ih => exact .bind (Suits.release (outlastsRefs_true part) x).yet fun _ => ih

theorem clearVariables_accepts (h : u.Fits .calculator x) :
    AcceptsYet (· = u) (clearVariables x) := by
  refine accepts_guard (Q := fun _ _ => True) (.bind (enlistedIn_suits fun _ hs _ => hs ▸ h) fun vs => ?_)
  exact .bind (Q := fun _ _ => True) (fun _ _ => trivial) fun _ => releaseAll_suits vs

theorem foldValues_suits {vs : List Handle}
    (h : ∀ v ∈ vs, ∀ s, P s → s.shared.issued < handleLimit → s.Fits .calculatorVariable v)
    (op : Float → Float → Float) (acc : Float) : SuitsYet P (foldValues op acc vs) fun _ => P := by
  induction vs generalizing acc with
  | nil => exact .pure fun _ h => h
  | cons v rest ih =>
    refine .bind (valueOf_suits (h v List.mem_cons_self)) fun value => ?_
    exact ih (fun w hw => h w (List.mem_cons_of_mem v hw)) _

theorem combine_accepts (h : u.Fits .calculator x) (k : Kindred u u) (initial : Float)
    (op : Float → Float → Float) (result : Cell Handle) :
    AcceptsYet (· = u) (combine x initial op result) := by
  refine accepts_guard (Q := fun _ _ => True) (.bind (Suits.require result).yet fun _ => ?_)
  refine .bind (enlistedIn_suits fun _ hs _ => hs ▸ h) fun vs => ?_
  refine .bind (foldValues_suits (P := fun s => (∀ v ∈ vs, s.Enlists v) ∧ s = u)
    (fun v hv s hs _ => ?_) op initial) fun value => ?_
  · obtain ⟨hvs, rfl⟩ := hs
    exact k.listed (hvs v hv)
  · exact .bind (finite_suits value) fun _ => fun _ _ => trivial

/-! ### Other code in between -/

/-- The callable makes calls, so what fitted goes on to fit. -/
theorem mapValues_suits {f : Float → Act ω Float} (hf : ∀ x s, Reaches s (f x s).2) (vs : List Handle)
    (h : ∀ v ∈ vs, u.Fits .calculatorVariable v) :
    SuitsYet (fun s => s.shared.issued < handleLimit → Kindred u s) (mapValues f vs)
      fun _ _ => True := by
  induction vs with
  | nil => exact .pure fun _ _ => trivial
  | cons v rest ih =>
    have hv := h v List.mem_cons_self
    refine .bind (valueOf_suits fun s hs hb => (hs hb).fits hv) fun input => ?_
    refine .bind (Q := fun _ s => s.shared.issued < handleLimit → Kindred u s) (.monadLift fun s hs =>
      (kindred_outlastsChanges u).reaches (hf input s) hs) fun output => ?_
    refine Does.bind (finite_suits output) fun output => .assume fun hfinite => ?_
    refine .bind (valueOf_suits fun s hs hb => (hs hb).fits hv) fun _ => ?_
    refine .bind ?_ fun _ => ih fun w hw => h w (List.mem_cons_of_mem v hw)
    exact .of_run fun s hs =>
      .inl ⟨_, _, rfl, (kindred_outlastsChanges u).changeCalculator v _ s (.store hfinite) hs⟩

theorem apply_accepts {out : Outside ω} (q : out.Calling) (h : u.Fits .calculator x)
    (k : Kindred u u) (ns name : TextArg) : AcceptsYet (· = u) (apply out x ns name) := by
  refine accepts_guard (Q := fun _ _ => True)
    (.bind (Suits.lift fun _ h => TextArg.read_neutral h).yet fun ns => ?_)
  refine .bind (Suits.lift fun _ h => TextArg.read_neutral h).yet fun name => ?_
  refine .bind (Q := fun _ s => s = u) (fun s hs => hs) fun s => ?_
  split
  · next f _ =>
    refine .bind (enlistedIn_suits fun _ hs _ => hs ▸ h) fun vs => ?_
    refine Does.pre (P := fun s => (∀ v ∈ vs, u.Fits .calculatorVariable v) ∧
      (s.shared.issued < handleLimit → Kindred u s)) (.assume fun hvs => ?_) fun s ⟨hvs, hs⟩ => ?_
    · exact mapValues_suits (fun input s => q.apply f input s) vs hvs
    · subst hs
      exact ⟨fun v hv => k.listed (hvs v hv), fun _ => k⟩
  · exact .throw fun _ _ _ => (by decide : Status.symbolNotFound ≠ Status.invalidCast)

section

variable {via : Invoker (Process ω)} {A : Address → Prop} {sieve : Handle}
  (inner : Inner via P A sieve) {lookup : Address} (hl : A lookup)
include inner hl

theorem resolve_suits (name : String) :
    Suits P (resolve via lookup name) fun a s => A a ∧ P s := by
  have hcode : Status.symbolNotFound ≠ Status.invalidCast := by decide
  refine .bind (.monadLift (inner.lookup lookup hl name)) fun (status, cell) => ?_
  dsimp only
  split
  · next a =>
    exact .ite (fun _ => .pure fun _ h => ⟨h.1 a rfl, h.2⟩) fun _ => .throw fun _ _ => hcode
  · exact .throw fun _ _ => hcode

/-- The status passed on is what it was. -/
theorem passOn_suits {status : Status} (h : status ≠ Status.invalidCast) :
    Suits P (passOn (α := α) via lookup sieve status) fun _ => P :=
  .bind ((readMessage_answers inner hl).failing fun _ _ h => h.elim) fun _ => .throw fun _ _ => h

theorem readPrimes_suits (hprimes : ∀ a, A a → ∀ capacity place,
      Ends P (via.call a (.primes sieve capacity place)) fun r s => r.1 ≠ Status.invalidCast ∧ P s) :
    Suits P (readPrimes via lookup sieve) fun _ => P := by
  refine Does.bind (resolve_suits inner hl _) fun f => .assume fun hf => ?_
  refine Does.bind (.monadLift (hprimes f hf _ _)) fun (status, place) => .assume fun hstatus => ?_
  refine .check (fun _ => passOn_suits inner hl hstatus) fun _ => ?_
  refine .ite (fun _ => .throw_bind fun _ _ => (by decide : Status.generic ≠ Status.invalidCast))
    fun _ => ?_
  refine Does.bind (.monadLift (hprimes f hf _ _)) fun (status, place) => .assume fun hstatus => ?_
  refine .check (fun _ => passOn_suits inner hl hstatus) fun _ => ?_
  exact .ite (fun _ => .throw_bind fun _ _ => (by decide)) fun _ => .pure fun _ h => h

end

/-- There may be no handles left when the last variable is made. -/
theorem insertAll_suits (done : List Handle) (ps : List UInt64) :
    SuitsYet (fun s : Process ω => s.shared.issued < handleLimit → s.Fits .calculator x)
      (insertAll done ps) fun _ s => s.shared.issued < handleLimit → s.Fits .calculator x := by
  induction ps generalizing done with
  | nil => exact .pure fun _ h => h
  | cons p rest ih =>
    refine .bind (.of_run fun s hs => .inl ⟨_, _, rfl, fun hb => ?_⟩) fun h => ih (h :: done)
    exact (hs (Nat.lt_of_succ_lt hb)).insert hb

/-- The primes component is asked in the process itself, or there is none to be asked. -/
theorem enlistPrimes_accepts {out : Outside ω} (via : Invoker (Process ω)) {sieve : Handle}
    (h : u.Fits .calculator x) (hsieve : u.Fits .sieveCalculator sieve) (hguard : u.registry.Guarded)
    (hnative : ∀ a, u.injected = some a → a.Native) :
    AcceptsYet (· = u) (enlistPrimes (out.reach via) x sieve) := by
  refine accepts_guard (Q := fun _ _ => True) (.bind (enlistedIn_suits fun _ hs _ => hs ▸ h) fun _ => ?_)
  refine Does.bind (Q := fun s s' => s = u ∧ s' = u) (fun s hs => ⟨hs.2, hs.2⟩) fun s =>
    .assume fun hs => ?_
  subst hs
  split
  · next lookup hinjected =>
    have hl := hnative lookup hinjected
    let P (t : Process ω) : Prop :=
      t.registry.Guarded ∧ t.Fits .calculator x ∧ t.Fits .sieveCalculator sieve
    have inner : Inner (out.reach via) P Address.Native sieve :=
      native_inner via (fun _ h => h.1) fun why t ⟨hg, hx, hs⟩ =>
        have l := Subsides.fail .primes sieve why t
        ⟨(Component.fail_registry .primes sieve why t).symm ▸ hg, hx.subsides l, hs.subsides l⟩
    have hprimes (a : Address) (ha : a.Native) (capacity : UInt64) (place : Place UInt64 UInt64) :
        Ends P ((out.reach via).call a (.primes sieve capacity place))
          fun r t => r.1 ≠ Status.invalidCast ∧ P t := by
      intro t ht
      refine ⟨?_, inner.primes a ha capacity place t ht⟩
      obtain ⟨e, rfl⟩ := ha
      exact Primes.primes_accepts (fun _ h => h.2.2) capacity place t ht
    refine .bind ((readPrimes_suits inner hl hprimes).yet.pre fun t ht => ht ▸ ⟨hguard, h, hsieve⟩)
      fun ps => ?_
    refine .bind ((insertAll_suits [] ps).pre fun t ht _ => ht.2.1) fun vs => ?_
    exact enlistAll_suits (fun _ h => h) vs
  · exact .throw fun _ _ _ => (by decide)

end Calculator

end Boundary
