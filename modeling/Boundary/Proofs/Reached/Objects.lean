/-
  Boundary.Proofs.Reached.Objects — what is known of the objects of a process.

  Some facts are about the objects alone: about no count, no message, nothing of the registry
  and nothing outside the components. Such a fact outlasts all that makes and changes no
  object (`Subsides`). So if it outlasts the objects that calls make, and the changes they
  make of them (`OutlastsChanges`), it outlasts every call.

  Proved: it holds in every state that calls lead to, whatever callables and callbacks do in
  the middle of them (`OutlastsChanges.reaches`).
-/
import Boundary.Proofs.Course.Loss
import Boundary.Proofs.Registry.History

namespace Boundary

open Process (zooPart calculatorPart primesPart)

variable {ω ρ O : Type} {P : Process ω → Prop} {s s' : Process ω}

structure Subsides (s s' : Process ω) : Prop where
  issued : s'.shared.issued = s.shared.issued
  zoo : ∀ x o, s'.zoo.get? x = some o → s.zoo.get? x = some o
  calculator : ∀ x o, s'.calculator.get? x = some o → s.calculator.get? x = some o
  primes : ∀ x o, s'.primes.get? x = some o → s.primes.get? x = some o

namespace Subsides

theorem refl (s : Process ω) : Subsides s s :=
  ⟨rfl, fun _ _ h => h, fun _ _ h => h, fun _ _ h => h⟩

theorem trans {s'' : Process ω} (h : Subsides s s') (h' : Subsides s' s'') : Subsides s s'' :=
  ⟨h'.issued.trans h.issued, fun x o ho => h.zoo x o (h'.zoo x o ho),
    fun x o ho => h.calculator x o (h'.calculator x o ho),
    fun x o ho => h.primes x o (h'.primes x o ho)⟩

/-- The same objects, whatever else. -/
theorem same (hi : s'.shared.issued = s.shared.issued) (hz : s'.zoo = s.zoo)
    (hc : s'.calculator = s.calculator) (hp : s'.primes = s.primes) : Subsides s s' :=
  ⟨hi, fun _ _ h => hz ▸ h, fun _ _ h => hc ▸ h, fun _ _ h => hp ▸ h⟩

theorem zooAllowsLoss : AllowsLoss (zooPart (ω := ω)) Subsides :=
  ⟨refl, trans, fun hi ho => ⟨hi, ho, fun _ _ h => h, fun _ _ h => h⟩⟩

theorem calculatorAllowsLoss : AllowsLoss (calculatorPart (ω := ω)) Subsides :=
  ⟨refl, trans, fun hi ho => ⟨hi, fun _ _ h => h, ho, fun _ _ h => h⟩⟩

theorem primesAllowsLoss : AllowsLoss (primesPart (ω := ω)) Subsides :=
  ⟨refl, trans, fun hi ho => ⟨hi, fun _ _ h => h, fun _ _ h => h, ho⟩⟩

theorem fail (c : Component) (x : Handle) (why : Fault) (s : Process ω) :
    Subsides s (c.fail x why s).2 := by
  cases c with
  | zoo => exact zooAllowsLoss.fail x why s
  | calculator => exact calculatorAllowsLoss.fail x why s
  | primes => exact primesAllowsLoss.fail x why s

end Subsides

/-- It is known of the objects alone, and outlasts what calls make of them. -/
structure OutlastsChanges (P : Process ω → Prop) : Prop where
  subside : ∀ {s s'}, P s → Subsides s s' → P s'
  makeZoo : ∀ o s, P s → P (zooPart.insert o s).2
  makeCalculator : ∀ o, o.Fresh → ∀ s, P s → P (calculatorPart.insert o s).2
  makePrimes : ∀ kind s, P s → P (primesPart.insert { kind := kind } s).2
  changeZoo : ∀ x f s, Zoo.Change f → P s → P (zooPart.update x f s).2
  changeCalculator : ∀ x f s, Calculator.Change s.calculator f → P s →
    P (calculatorPart.update x f s).2
  changePrimes : ∀ x f s, Primes.Change f → P s → P (primesPart.update x f s).2
  found : ∀ x n outcome s, outcome.Listed → P s →
    P (primesPart.updateHeld x n (Primes.found outcome) s).2

namespace OutlastsChanges

variable (a : OutlastsChanges P) {out : Outside ω} {via : Invoker (Process ω)}
include a

/-- Nothing but the objects matters. -/
theorem same (h : P s) (hi : s'.shared.issued = s.shared.issued) (hz : s'.zoo = s.zoo)
    (hc : s'.calculator = s.calculator) (hp : s'.primes = s.primes) : P s' :=
  a.subside h (.same hi hz hc hp)

theorem outlastsInjection (happly : ∀ f x, Ends P (out.apply f x) fun _ => P)
    (hprogress : ∀ f p, Ends P (out.progress f p) fun _ => P) :
    OutlastsInjection out (fun _ => True) P where
  zoo := Subsides.zooAllowsLoss.outlastsRefs a.subside
  calculator := Subsides.calculatorAllowsLoss.outlastsRefs a.subside
  primes := Subsides.primesAllowsLoss.outlastsRefs a.subside
  makeCalculator := a.makeCalculator
  makePrimes := a.makePrimes
  changeCalculator := a.changeCalculator
  changePrimes := a.changePrimes
  found := a.found
  entryPoint c address s h := by
    unfold entryPoint
    dsimp only
    split
    · exact h
    · exact a.same h rfl rfl rfl rfl
  registerSymbol _ _ _ _ h := a.same h rfl rfl rfl rfl
  injected _ _ _ _ := trivial
  inject _ _ _ _ h := a.same h rfl rfl rfl rfl
  apply := happly
  progress := hprogress

/-- A call keeps it, as far as callables, callbacks and the functions that are called in turn
    do. -/
theorem performs (happly : ∀ f x, Ends P (out.apply f x) fun _ => P)
    (hprogress : ∀ f p, Ends P (out.progress f p) fun _ => P)
    (hvia : ∀ {ρ : Type} f (c : Call ρ), Ends P (via.call f c) fun _ => P) (c : Call ρ) :
    Ends P (perform out via c) fun _ => P := by
  refine (a.outlastsInjection happly hprogress).keeps (fun _ => ?_)
    ⟨fun o _ => a.makeZoo o, fun x _ animal s => a.changeZoo x _ s (.push animal),
      fun x _ s => a.changeZoo x _ s .step⟩
    (fun _ _ => trivial) fun site _ why s h => a.subside h (.fail site.1 site.2 why s)
  exact ⟨fun f _ name s h => ⟨fun _ _ => trivial, hvia f _ s h⟩, fun _ f _ => hvia f _,
    fun f _ _ _ _ => hvia f _, fun f _ _ _ => hvia f _⟩

/-- Induction on the calls made, those made in the middle of others included. -/
theorem reaches {u : Process ω} (r : Reaches s u) (h : P s) : P u := by
  induction r with
  | refl s => exact h
  | call out via c _ _ _ _ ih happly hprogress hvia =>
    exact a.performs (fun f x v hv => happly f x v hv) (fun f p v hv => hprogress f p v hv)
      (fun f d v hv => hvia f d v hv) c _ (ih h)
  | turn thread w _ ih => exact a.same (ih h) rfl rfl rfl rfl
  | note n _ ih => exact a.same (ih h) rfl rfl rfl rfl

end OutlastsChanges

theorem Reaches.trans {s t u : Process ω} (r : Reaches s t) (r' : Reaches t u) : Reaches s u := by
  induction r' with
  | refl _ => exact r
  | call out via c _ happly hprogress hvia ih _ _ _ => exact .call out via c (ih r) happly hprogress hvia
  | turn thread w _ ih => exact .turn thread w (ih r)
  | note n _ ih => exact .note n (ih r)

/-! ## Functions outside that call back -/

/-- What the functions outside the components do, they do by calls. -/
structure Outside.Calling (out : Outside ω) : Prop where
  call : ∀ {ρ : Type} f (c : Call ρ) s, Reaches s (out.call f c s).2
  apply : ∀ f x s, Reaches s (out.apply f x s).2
  progress : ∀ f p s, Reaches s (out.progress f p s).2

namespace Outside.Calling

variable {out : Outside ω} (q : out.Calling) {via : Invoker (Process ω)}
include q

theorem performs (hvia : ∀ {ρ : Type} f (c : Call ρ) s, Reaches s (via.call f c s).2) {s u : Process ω}
    (r : Reaches s u) (c : Call ρ) : Reaches s (perform out via c u).2 :=
  .call out via c r q.apply q.progress hvia

theorem reach (hvia : ∀ {ρ : Type} f (c : Call ρ) s, Reaches s (via.call f c s).2) {ρ : Type}
    (f : Address) (c : Call ρ) (s : Process ω) : Reaches s ((out.reach via).call f c s).2 := by
  cases f with
  | native e => exact q.performs hvia (.refl s) c
  | foreign f => exact q.call f c s

/-- So is what the bindings do. -/
theorem invoker {ρ : Type} (f : Address) (c : Call ρ) (s : Process ω) :
    Reaches s (out.invoker.call f c s).2 :=
  q.reach (q.reach fun _ _ s => .refl s) f c s

/-- A call that the process makes itself. -/
theorem native {s u : Process ω} (r : Reaches s u) (c : Call ρ) :
    Reaches s (perform out (out.reach .none) c u).2 :=
  q.performs (q.reach fun _ _ s => .refl s) r c

end Outside.Calling

theorem idle_calling : idle.Calling :=
  ⟨fun _ _ s => .refl s, fun _ _ s => .refl s, fun _ _ s => .refl s⟩

def Outside.after (out : Outside ω) (s : Process ω) (calls : List ((ρ : Type) × Call ρ)) :
    Process ω :=
  calls.foldl (fun s c => (perform out (out.reach .none) c.2 s).2) s

theorem Outside.Calling.after {out : Outside ω} (q : out.Calling) {s u : Process ω}
    (r : Reaches s u) (calls : List ((ρ : Type) × Call ρ)) : Reaches s (out.after u calls) := by
  induction calls generalizing u with
  | nil => exact r
  | cons c rest ih => exact ih (q.native r c.2)

end Boundary
