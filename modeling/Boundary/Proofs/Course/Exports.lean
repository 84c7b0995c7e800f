/-
  Boundary.Proofs.Course.Exports — the course of every guarded export.

  Each export is routed when what is known outlasts references that come and go in its
  component's store, and the objects and the changes of objects that the export makes: a
  few functions of an object, named at the export that uses them, with what is known of what
  they store (`Change`). What runs outside the component in the middle of an export has to
  keep what is known too: callables and callbacks of the host, and the functions of the
  primes component that the calculator reads from (`Inner`).
-/
import Boundary.Proofs.Calculator.Conversion
import Boundary.Proofs.Course.Changes
import Boundary.Proofs.Course.Rules
import Boundary.Proofs.Primes.Sieve
import Boundary.Proofs.Reads

namespace Boundary

open Exchange (Cell Place)

variable {σ ω O α ρ : Type}

/-! ## Every component -/

namespace Fixed

variable {P : σ → Prop} {p : Part σ O}

theorem require_fares (c : Cell α) : Fares P (liftM (require c) : Op σ Unit) :=
  .lift fun _ h => require_code h

theorem getVersion_routed (v : Version) (major minor micro : Cell UInt32) :
    Routed p Handle.null P (getVersion p v major minor micro) := by
  have hop : Fares P (do
      require major
      require minor
      require micro : Op σ Unit) :=
    .bind (require_fares major) fun _ => .bind (require_fares minor) fun _ => require_fares micro
  exact ⟨_, _, (p.guard_runs Handle.null () _).map _, hop⟩

variable [Resource O]

theorem acquireInstance_routed (m : OutlastsRefs p P) (h : Handle) :
    Routed p h P (acquireInstance p h) :=
  .guard (m.acquire_fares h)

theorem releaseInstance_routed (m : OutlastsRefs p P) (h : Handle) :
    Routed p h P (releaseInstance p h) :=
  .guard (m.release_fares h)

theorem classTypeId_routed (h : Handle) (tag : Cell UInt64) :
    Routed p h P (classTypeId p h tag) :=
  .guard (.bind (.get p h) fun _ => .bind (require_fares tag) fun _ => .pure _)

end Fixed

open Fixed (require_fares)

/-! ## Zoos -/

namespace Zoo

variable {P : Process ω → Prop}

theorem fat_fares (h : Handle) : Fares P (fat h) := .bind (.get part h) fun _ => .pure _

theorem animalsOf_fares (zoo : Handle) : Fares P (animalsOf zoo) := by
  refine .bind (.get part zoo) fun o => ?_
  cases o with
  | zoo animals => exact .pure animals
  | _ => exact .throw (by decide)

theorem insertAll_fares (hmake : ∀ o s, P s → P (part.insert o s).2)
    (animals : List (Species × String)) : Fares P (insertAll animals) := by
  induction animals with
  | nil => exact .pure _
  | cons a rest ih => exact .bind (Part.insert_fares (hmake _)) fun _ => .bind ih fun _ => .pure _

theorem createZoo_routed (hmake : ∀ o s, P s → P (part.insert o s).2) (zoo : Cell FatHandle) :
    Routed part Handle.null P (createZoo zoo) := by
  refine .guard (.bind (require_fares zoo) fun _ => ?_)
  refine .bind (insertAll_fares hmake defaults) fun _ => ?_
  exact .bind (Part.insert_fares (hmake _)) fun _ => .bind (fat_fares _) fun _ => .pure _

theorem addAnimal_routed {zoo : Handle}
    (hmake : ∀ species name s, P s → P (part.insert (.animal species name) s).2)
    (hpush : ∀ a s, P s → P (part.update zoo (pushAnimal a) s).2) (species : UInt32)
    (name : TextArg) : Routed part zoo P (addAnimal zoo species name) := by
  refine .guard (.bind (animalsOf_fares zoo) fun _ => ?_)
  split
  · refine .bind (.lift fun _ h => TextArg.read_code h) fun name => ?_
    refine .ite (fun _ => .throw_bind (by decide)) fun _ => ?_
    refine .bind (Part.insert_fares (hmake _ _)) fun a => ?_
    exact .of_ok fun s hs => ⟨_, _, rfl, hpush a s hs⟩
  · exact .throw (by decide : Status.invalidParam ≠ Status.ok)

theorem animalCount_routed (zoo : Handle) (count : Cell UInt32) :
    Routed (part (ω := ω)) zoo P (animalCount zoo count) := by
  refine .guard (.bind (animalsOf_fares zoo) fun _ => .bind (require_fares count) fun _ => ?_)
  exact .ite (fun _ => .throw_bind (by decide)) fun _ => .pure _

theorem animalAt_routed (zoo : Handle) (index : UInt32) (animal : Cell FatHandle) :
    Routed (part (ω := ω)) zoo P (animalAt zoo index animal) := by
  refine .guard (.bind (require_fares animal) fun _ => .bind (animalsOf_fares zoo) fun animals => ?_)
  split
  · exact .bind (fat_fares _) fun _ => .pure _
  · exact .throw (by decide : Status.invalidParam ≠ Status.ok)

theorem acquireAll_fares (m : OutlastsRefs part P) (taken rest : List Handle) :
    Fares P (acquireAll taken rest) := by
  induction rest generalizing taken with
  | nil => exact .pure _
  | cons x rest ih =>
    refine Does.bind (m.acquire_fares x).outcome fun r => .assume fun hcode => ?_
    cases r with
    | ok _ => exact ih _
    | error why =>
      exact Fares.bind (m.rollBack_fares taken) fun _ => .throw (hcode why rfl)

theorem iterator_routed (m : OutlastsRefs part P)
    (hmake : ∀ animals s, P s → P (part.insert (.iterator animals 0) s).2) (zoo : Handle)
    (cell : Cell FatHandle) : Routed part zoo P (iterator zoo cell) := by
  refine .guard (.bind (require_fares cell) fun _ => .bind (animalsOf_fares zoo) fun animals => ?_)
  refine .bind (acquireAll_fares m [] animals) fun _ => ?_
  refine .bind (Part.insert_fares (hmake animals)) fun _ => ?_
  exact .bind (fat_fares _) fun _ => .pure _

theorem animalName_routed (animal : Handle) (capacity : UInt32) (place : Place UInt32 UInt8) :
    Routed (part (ω := ω)) animal P (animalName animal capacity place) := by
  refine .guard (.bind (.get part animal) fun o => ?_)
  cases o with
  | animal species name => exact .lift fun _ h => Exchange.serveText_code h
  | _ => exact .throw (by decide)

theorem tigerRoar_routed (tiger : Handle) (capacity : UInt32) (place : Place UInt32 UInt8) :
    Routed (part (ω := ω)) tiger P (tigerRoar tiger capacity place) := by
  refine .guard (.bind (.get part tiger) fun o => ?_)
  split
  · exact .lift fun _ h => Exchange.serveText_code h
  · exact .throw (by decide : Status.invalidCast ≠ Status.ok)
  · exact .throw (by decide)

section

variable (m : OutlastsRefs part P) {iterator : Handle}
  (hstep : ∀ s, P s → P (part.update iterator stepOn s).2)
include m hstep

theorem advance_fares : Fares P (advance iterator) := by
  refine .bind (.get part iterator) fun o => ?_
  cases o with
  | iterator animals position =>
    dsimp only
    split
    · exact .pure _
    · refine .bind (fat_fares _) fun _ => .bind (m.acquire_fares _) fun _ => ?_
      exact .bind (.of_ok fun s hs => ⟨_, _, rfl, hstep s hs⟩) fun _ => .pure _
  | _ => exact .throw (by decide)

theorem nextAnimal_routed (animal : Cell FatHandle) (hasAnimal : Cell Bool) :
    Routed part iterator P (nextAnimal iterator animal hasAnimal) := by
  refine .guard (.bind (require_fares animal) fun _ => .bind (require_fares hasAnimal) fun _ => ?_)
  refine .bind (advance_fares m hstep) fun next => ?_
  cases next <;> exact .pure _

theorem nextMandatoryAnimal_routed (animal : Cell FatHandle) :
    Routed part iterator P (nextMandatoryAnimal iterator animal) := by
  refine .guard (.bind (require_fares animal) fun _ => .bind (advance_fares m hstep) fun next => ?_)
  cases next with
  | some next => exact .pure _
  | none => exact .throw (by decide)

end

end Zoo

/-! ## Variables and calculators -/

namespace Calculator

variable {P : Process ω → Prop}

theorem finite_neutral {v : Float} {e : Fault} (h : finite v = .error e) : e.Neutral := by
  unfold finite at h
  split at h
  · cases h
  · cases h
    exact ⟨(by decide : Status.invalidParam ≠ Status.ok),
      (by decide : Status.invalidParam ≠ Status.invalidCast)⟩

theorem finite_code {v : Float} {e : Fault} (h : finite v = .error e) : e.code ≠ Status.ok :=
  (finite_neutral h).failed

theorem finite_ok {v w : Float} (h : finite v = .ok w) : w.isFinite = true := by
  unfold finite at h
  split at h
  · next hv =>
    cases h
    exact hv
  · cases h

/-- What passes the check is finite. -/
theorem finite_does (v : Float) :
    Does P (liftM (finite v) : Op (Process ω) Float) (fun w s => w.isFinite = true ∧ P s)
      fun why s => why.code ≠ Status.ok ∧ P s :=
  .lift (fun _ h _ hs => ⟨finite_ok h, hs⟩) fun _ h _ hs => ⟨finite_code h, hs⟩

/-- What has a value is a variable. -/
theorem valueOf_finds (v : Handle) :
    Does P (valueOf v) (fun value s => P s ∧ s.calculator.get? v = some (.var value))
      fun why s => why.code ≠ Status.ok ∧ P s := by
  refine .bind (part.get_finds v) fun o => ?_
  cases o with
  | var value => exact .pure fun _ h => h
  | _ => exact .throw fun _ h => ⟨by decide, h.1⟩

theorem valueOf_fares (v : Handle) : Fares P (valueOf v) :=
  (valueOf_finds v).post fun _ _ h => h.1

section

variable (hmake : ∀ value s, value.isFinite = true → P s → P (part.insert (.var value) s).2)
include hmake

/-- A new variable with a value that passes the check. -/
theorem insertFinite_fares (value : Float) :
    Fares P (do
      let value ← finite value
      let h ← part.insert (.var value)
      return some h : Op (Process ω) (Cell Handle)) :=
  Does.bind (finite_does value) fun _ => .assume fun hv =>
    Fares.bind (Part.insert_fares fun s => hmake _ s hv) fun _ => .pure _

theorem createVariable_routed (initial : Float) (v : Cell Handle) :
    Routed part Handle.null P (createVariable initial v) :=
  .guard (.bind (require_fares v) fun _ => insertFinite_fares hmake initial)

end

theorem getVariable_routed (v : Handle) (value : Cell Float) :
    Routed (part (ω := ω)) v P (getVariable v value) :=
  .guard (.bind (require_fares value) fun _ => .bind (valueOf_fares v) fun _ => .pure _)

theorem setVariable_routed {v : Handle}
    (hstore : ∀ value s, value.isFinite = true → P s → P (part.update v (store value) s).2)
    (value : Float) : Routed part v P (setVariable v value) :=
  .guard (Does.bind (finite_does value) fun value => .assume fun hv =>
    Fares.bind (valueOf_fares v) fun _ => .of_ok fun s hs => ⟨_, _, rfl, hstore value s hv hs⟩)

theorem enlistedIn_fares (calculator : Handle) : Fares P (enlistedIn calculator) := by
  refine .bind (.get part calculator) fun o => ?_
  cases o with
  | calculator enlisted => exact .pure enlisted
  | _ => exact .throw (by decide)

/-- What is known of the variables is known when they are enlisted. -/
theorem enlistAll_extends (m : OutlastsRefs part P) {calculator : Handle} {vs : List Handle}
    {R : Process ω → Prop}
    (hextend : ∀ s, R s → P s → P (part.update calculator (extend vs) s).2) :
    Does (fun s => R s ∧ P s) (enlistAll calculator vs) (fun _ => P)
      fun why s => why.code ≠ Status.ok ∧ P s := by
  refine Does.bind ((enlistedIn_fares calculator).outcome.failing fun _ _ h => ⟨h.1, h.2.2⟩)
    fun r => .assume fun hcode => ?_
  cases r with
  | ok _ => exact .of_run fun s hs => .inl ⟨_, _, rfl, hextend s hs.1 hs.2⟩
  | error why =>
    refine Does.pre (P := P) ?_ fun _ h => h.2
    exact Fares.bind (m.rollBack_fares vs) fun _ => .throw (hcode why rfl)

theorem createCalculator_routed (hmake : ∀ s, P s → P (part.insert (.calculator []) s).2)
    (cell : Cell Handle) : Routed part Handle.null P (createCalculator cell) :=
  .guard (.bind (require_fares cell) fun _ => .bind (Part.insert_fares hmake) fun _ => .pure _)

/-- A reference more to variables. -/
theorem acquire_variables (m : OutlastsRefs part P) (v : Handle) (vs : List Handle) :
    Does (fun s => Variables s.calculator vs ∧ P s) (part.acquire v)
      (fun _ s => Variables s.calculator vs ∧ P s) fun why s => why.code ≠ Status.ok ∧ P s := by
  refine Does.of_run fun s hs => ?_
  have hkept := m.acquire v s hs.2
  cases ha : (part.view s).table.acquire v with
  | ok t =>
    rw [Part.acquire_ok ha] at hkept
    exact .inl ⟨_, _, Part.acquire_ok ha, Variables.acquire hs.1 ha, hkept⟩
  | error why => exact .inr ⟨_, _, Part.acquire_error ha, Table.acquire_code ha, hs.2⟩

theorem enlistVariable_routed (m : OutlastsRefs part P) {calculator : Handle}
    (hextend : ∀ vs s, Variables s.calculator vs → P s → P (part.update calculator (extend vs) s).2)
    (v : Handle) : Routed part calculator P (enlistVariable calculator v) := by
  refine .guard (Does.bind (valueOf_finds v) fun value => ?_)
  refine .bind ((acquire_variables m v [v]).pre fun s h => ⟨fun x hx => ?_, h.1⟩) fun _ =>
    enlistAll_extends m (hextend [v])
  exact ⟨value, List.mem_singleton.mp hx ▸ h.2⟩

theorem enlistedVariable_routed (m : OutlastsRefs part P) (calculator : Handle) (index : UInt32)
    (v : Cell Handle) : Routed part calculator P (enlistedVariable calculator index v) := by
  refine .guard (.bind (require_fares v) fun _ => .bind (enlistedIn_fares calculator) fun vs => ?_)
  split
  · exact .bind (m.acquire_fares _) fun _ => .pure _
  · exact .throw (by decide : Status.invalidParam ≠ Status.ok)

theorem releaseAll_fares (m : OutlastsRefs part P) (vs : List Handle) : Fares P (releaseAll vs) := by
  induction vs with
  | nil => exact .pure _
  | cons x rest ih => exact .bind (m.release_fares x) fun _ => ih

theorem clearVariables_routed (m : OutlastsRefs part P) {calculator : Handle}
    (hclear : ∀ s, P s → P (part.update calculator clear s).2) :
    Routed part calculator P (clearVariables calculator) :=
  .guard (.bind (enlistedIn_fares calculator) fun vs =>
    .bind (.of_ok fun s hs => ⟨_, _, rfl, hclear s hs⟩) fun _ => releaseAll_fares m vs)

theorem foldValues_fares (op : Float → Float → Float) (acc : Float) (vs : List Handle) :
    Fares P (foldValues op acc vs) := by
  induction vs generalizing acc with
  | nil => exact .pure acc
  | cons v rest ih => exact .bind (valueOf_fares v) fun _ => ih _

theorem combine_routed
    (hmake : ∀ value s, value.isFinite = true → P s → P (part.insert (.var value) s).2)
    (calculator : Handle) (initial : Float) (op : Float → Float → Float) (result : Cell Handle) :
    Routed part calculator P (combine calculator initial op result) := by
  refine .guard (.bind (require_fares result) fun _ => .bind (enlistedIn_fares calculator) fun vs => ?_)
  exact .bind (foldValues_fares op initial vs) fun value => insertFinite_fares hmake value

theorem mapValues_fares {f : Float → Act ω Float} (hf : ∀ x, Ends P (f x) fun _ => P)
    (hstore : ∀ v value s, value.isFinite = true → P s → P (part.update v (store value) s).2)
    (vs : List Handle) : Fares P (mapValues f vs) := by
  induction vs with
  | nil => exact .pure _
  | cons v rest ih =>
    refine .bind (valueOf_fares v) fun input => .bind (.monadLift (hf input)) fun _ => ?_
    refine Does.bind (finite_does _) fun output => .assume fun hv => ?_
    refine Fares.bind (valueOf_fares v) fun _ => ?_
    exact .bind (.of_ok fun s hs => ⟨_, _, rfl, hstore v output s hv hs⟩) fun _ => ih

theorem apply_routed {out : Outside ω} (hout : ∀ a x, Ends P (out.apply a x) fun _ => P)
    (hstore : ∀ v value s, value.isFinite = true → P s → P (part.update v (store value) s).2)
    (calculator : Handle) (ns name : TextArg) :
    Routed part calculator P (apply out calculator ns name) := by
  refine .guard (.bind (.lift fun _ h => TextArg.read_code h) fun ns => ?_)
  refine .bind (.lift fun _ h => TextArg.read_code h) fun name => ?_
  refine .bind (.of_ok fun s hs => ⟨s, s, rfl, hs⟩) fun s => ?_
  split
  · exact .bind (enlistedIn_fares calculator) fun vs => mapValues_fares (hout _) hstore vs
  · exact .throw (by decide : Status.symbolNotFound ≠ Status.ok)

/-! ## The primes component -/

end Calculator

/-- Calls into the primes component through `via` keep what is known: those about a sieve, or
    about no object. `A` tells the addresses that they can go to. -/
structure Inner (via : Invoker (Process ω)) (P : Process ω → Prop) (A : Address → Prop)
    (sieve : Handle) : Prop where
  lookup : ∀ a, A a → ∀ name, Ends P
    (via.call a (.lookupSymbol (.text Calculator.primesNs) (.text name) (some none)))
    fun r s => (∀ b, r.2 = some (some b) → A b) ∧ P s
  version : sieve = Handle.null → ∀ a, A a →
    Ends P (via.call a (.getVersion .primes (some 0) (some 0) (some 0))) fun _ => P
  lastError : ∀ a, A a → ∀ capacity place hasError,
    Ends P (via.call a (.getLastError .primes sieve capacity place hasError)) fun _ => P
  primes : ∀ a, A a → ∀ capacity place,
    Ends P (via.call a (.primes sieve capacity place)) fun _ => P

namespace Calculator

section

variable {P : Process ω → Prop} {via : Invoker (Process ω)} {A : Address → Prop} {sieve : Handle}
  (inner : Inner via P A sieve) {lookup : Address}

theorem resolve_fares {name : String} (hlookup : Ends P
      (via.call lookup (.lookupSymbol (.text primesNs) (.text name) (some none)))
      fun r s => (∀ b, r.2 = some (some b) → A b) ∧ P s) :
    Does P (resolve via lookup name) (fun a s => A a ∧ P s)
      fun why s => why.code ≠ Status.ok ∧ P s := by
  refine .bind (.monadLift hlookup) fun (status, cell) => ?_
  dsimp only
  split
  · next a =>
    refine .ite (fun _ => .pure fun _ h => ⟨h.1 a rfl, h.2⟩) fun _ => ?_
    exact .throw fun _ h => ⟨(by decide : Status.symbolNotFound ≠ Status.ok), h.2⟩
  · exact .throw fun _ h => ⟨(by decide : Status.symbolNotFound ≠ Status.ok), h.2⟩

theorem injectComponent_routed (inner : Inner via P A Handle.null) (ns : TextArg)
    {lookup : Option Address} (hl : ∀ a, lookup = some a → A a ∧ ∀ v s, P s →
      P (Journal.note (.injected v) { s with injected := some a })) :
    Routed part Handle.null P (injectComponent via ns lookup) := by
  refine .guard (.bind (.lift fun _ h => TextArg.read_code h) fun ns => ?_)
  refine .ite (fun _ => .throw_bind (by decide : Status.invalidParam ≠ Status.ok)) fun _ => ?_
  split
  · next lookup =>
    obtain ⟨ha, hinject⟩ := hl lookup rfl
    refine Does.bind (resolve_fares (inner.lookup _ ha _)) fun f => .assume fun hf => ?_
    refine Does.bind (.monadLift (inner.version rfl f hf)) fun (status, v) => ?_
    refine Fares.ite (fun h => .throw_bind h) fun _ => ?_
    refine .ite (fun _ => .throw_bind (by decide : Status.incompatibleVersion ≠ Status.ok)) fun _ => ?_
    exact .of_ok fun s hs => ⟨_, _, rfl, hinject _ s hs⟩
  · exact .throw (by decide)

include inner

/-- Where no message can be had, that is the answer. -/
theorem readMessage_answers (hl : A lookup) :
    Does P (readMessage via lookup sieve) (fun _ => P) fun _ _ => False := by
  refine Does.bind (Does.outcome (resolve_fares (inner.lookup _ hl "getlasterror"))) fun r => ?_
  cases r with
  | error _ => exact .pure fun _ h => h.2
  | ok f =>
    refine .assume fun hf => ?_
    refine Does.bind (.monadLift (inner.lastError f hf _ _ _)) fun (status, place, flag) => ?_
    refine .ite (fun _ => .pure fun _ h => h) fun _ => ?_
    refine .bind (.monadLift (inner.lastError f hf _ _ _)) fun (status, place, flag) => ?_
    exact .ite (fun _ => .pure fun _ h => h) fun _ => .pure fun _ h => h

theorem readMessage_fares (hl : A lookup) : Fares P (readMessage via lookup sieve) :=
  (readMessage_answers inner hl).failing fun _ _ h => h.elim

/-- The status passed on is no success. -/
theorem passOn_fares (hl : A lookup) {status : Status} (h : status ≠ Status.ok) :
    Fares P (passOn (α := α) via lookup sieve status) :=
  .bind (readMessage_fares inner hl) fun _ => .throw h

theorem readPrimes_fares (hl : A lookup) : Fares P (readPrimes via lookup sieve) := by
  refine Does.bind (resolve_fares (inner.lookup _ hl _)) fun f => .assume fun hf => ?_
  refine Fares.bind (.monadLift (inner.primes f hf _ _)) fun (status, place) => ?_
  refine .check (fun h => passOn_fares inner hl h) fun _ => ?_
  refine .ite (fun _ => .throw_bind (by decide)) fun _ => ?_
  refine .bind (.monadLift (inner.primes f hf _ _)) fun (status, place) => ?_
  refine .check (fun h => passOn_fares inner hl h) fun _ => ?_
  exact .ite (fun _ => .throw_bind (by decide)) fun _ => .pure _

omit inner in
/-- The new variables are there when the last one is made. -/
theorem insertAll_makes
    (hmake : ∀ value s, value.isFinite = true → P s → P (part.insert (.var value) s).2)
    (done : List Handle) (ps : List UInt64) :
    Does (fun s => Variables s.calculator done ∧ P s) (insertAll done ps)
      (fun vs s => Variables s.calculator vs ∧ P s) fun why s => why.code ≠ Status.ok ∧ P s := by
  induction ps generalizing done with
  | nil => exact .pure fun s h => ⟨fun v hv => h.1 v (List.mem_reverse.mp hv), h.2⟩
  | cons p rest ih =>
    refine .bind (.of_run fun s hs => .inl ⟨_, _, rfl, ?_, ?_⟩) fun h => ih (h :: done)
    · exact hs.1.insert _ _ _
    · exact hmake _ s (isFinite_toFloat p) hs.2

omit inner in
theorem insertAll_fares
    (hmake : ∀ value s, value.isFinite = true → P s → P (part.insert (.var value) s).2)
    (ps : List UInt64) : Does P (insertAll [] ps) (fun vs s => Variables s.calculator vs ∧ P s)
      fun why s => why.code ≠ Status.ok ∧ P s :=
  (insertAll_makes hmake [] ps).pre fun _ h => ⟨Variables.nil _, h⟩

omit inner in
/-- What is made is enlisted. -/
theorem enlistNew_fares (m : OutlastsRefs part P) {calculator : Handle}
    (hmake : ∀ value s, value.isFinite = true → P s → P (part.insert (.var value) s).2)
    (hextend : ∀ vs s, Variables s.calculator vs → P s → P (part.update calculator (extend vs) s).2)
    (ps : List UInt64) : Fares P (do
      let vs ← insertAll [] ps
      enlistAll calculator vs) :=
  Does.bind (insertAll_fares hmake ps) fun vs => enlistAll_extends m (hextend vs)

theorem enlistPrimes_routed (m : OutlastsRefs part P) {calculator : Handle}
    (hmake : ∀ value s, value.isFinite = true → P s → P (part.insert (.var value) s).2)
    (hextend : ∀ vs s, Variables s.calculator vs → P s → P (part.update calculator (extend vs) s).2)
    (hinjected : ∀ a s, P s → s.injected = some a → A a) :
    Routed part calculator P (enlistPrimes via calculator sieve) := by
  refine .guard (.bind (enlistedIn_fares calculator) fun _ => ?_)
  refine Does.bind (Q := fun s s' => (∀ a, s.injected = some a → A a) ∧ P s')
    (fun s h => ⟨fun a ha => hinjected a s h ha, h⟩) fun s => .assume fun hinj => ?_
  split
  · next lookup hs =>
    exact Fares.bind (readPrimes_fares inner (hinj lookup hs)) fun ps =>
      enlistNew_fares m hmake hextend ps
  · exact Fares.throw (by decide)

end

end Calculator

/-! ## Factorizations and sieves -/

namespace Primes

section

variable {P : σ → Prop} {E : Fault → σ → Prop} {report : Progress → Op σ Unit}
  (hr : ∀ p, Does P (report p) (fun _ => P) E)
include hr

theorem factorsFrom_reports (value rest d : UInt64) (hd : 2 ≤ d) :
    Does P (factorsFrom report value rest d hd) (fun _ => P) E := by
  fun_induction factorsFrom report value rest d hd with
  | case1 rest d hd hn => exact .pure fun _ h => h
  | case2 rest d hd e hn found ih =>
    exact .bind (hr _) fun _ => .bind ih fun _ => .pure fun _ h => h

/-- The table stays as long as it is. -/
theorem sieveFrom_sized (table : Marks) (c : Nat) (hc : 0 < c) :
    Does P (sieveFrom report table c hc) (fun t s => t.size = table.size ∧ P s) E := by
  fun_induction sieveFrom report table c hc with
  | case1 table c hc h hlt hm ih => exact ih
  | case2 table c hc h hlt hm struck ih =>
    refine .bind (hr _) fun _ => ih.post fun t s ht => ⟨ht.1.trans ?_, ht.2⟩
    exact size_strike ..
  | case3 table c hc h => exact .pure fun _ hs => ⟨rfl, hs⟩

variable (hlarge : ∀ limit s, P s → E (.boundTooLarge limit sieveLimit) s)
include hlarge

/-- A bound that is not refused leaves few primes. -/
theorem sieve_lists (limit : UInt64) :
    Does P (sieve limit report) (fun ps s => Listing ps ∧ P s) E := by
  refine .ite (fun _ => .throw_bind (hlarge limit)) fun hlimit => ?_
  refine .bind (hr .start) fun _ => .bind (sieveFrom_sized hr _ _ _) fun table => ?_
  refine .assume fun hsize => .bind (hr .finish) fun _ => .pure fun _ hs => ⟨?_, hs⟩
  rw [hsize, Marks.size_blank]
  refine ⟨?_, ascending_unmarked table limit.toNat_lt⟩
  have hlen := length_unmarked table (limit.toNat + 1) []
  have hle : limit.toNat ≤ sieveLimit.toNat := UInt64.le_iff_toNat_le.mp (UInt64.not_lt.mp hlimit)
  rw [List.length_nil] at hlen
  omega

end

variable {P : Process ω → Prop}

theorem create_routed (hmake : ∀ kind s, P s → P (part.insert { kind := kind } s).2) (kind : Kind)
    (cell : Cell Handle) : Routed part Handle.null P (create kind cell) :=
  .guard (.bind (require_fares cell) fun _ => .bind (Part.insert_fares (hmake kind)) fun _ => .pure _)

theorem getValue_routed (x : Handle) (value : Cell UInt64) :
    Routed (part (ω := ω)) x P (getValue x value) :=
  .guard (.bind (require_fares value) fun _ => .bind (.get part x) fun _ => .pure _)

section

variable {x : Handle} (hchange : ∀ f s, Change f → P s → P (part.update x f s).2)
include hchange

theorem setValue_routed (value : UInt64) : Routed part x P (setValue x value) :=
  .guard (.bind (.get part x) fun _ => .of_ok fun s hs => ⟨_, _, rfl, hchange _ s (.value _) hs⟩)

theorem setProgressCallback_routed (callback : Option Foreign) :
    Routed part x P (setProgressCallback x callback) :=
  .guard (.bind (.get part x) fun _ => .of_ok fun s hs => ⟨_, _, rfl, hchange _ s (.callback _) hs⟩)

end

theorem report_fares {out : Outside ω} (hout : ∀ f p, Ends P (out.progress f p) fun _ => P)
    (callback : Option Foreign) (p : Progress) : Fares P (report out callback p) := by
  unfold report
  split
  · exact .pure _
  · refine .bind (.monadLift (hout _ p)) fun abort => ?_
    exact .ite (fun _ => .throw (by decide)) fun _ => .pure _

/-- What a calculation finds is as it should be listed. It fails as its reports do, or over its bound. -/
theorem outcome_finds {out : Outside ω} {o : Object} {E : Fault → Process ω → Prop}
    (hreport : ∀ p, Does P (report out o.callback p) (fun _ => P) E)
    (hlarge : ∀ limit s, P s → E (.boundTooLarge limit sieveLimit) s) :
    Does P (outcome out o) (fun outcome s => outcome.Listed ∧ P s) E := by
  unfold outcome
  split
  · refine .bind (Q := fun _ => P) ?_ fun fs => .pure fun _ hs => ⟨fun ps h => (by cases h), hs⟩
    refine .bind (hreport .start) fun _ => .bind (factorsFrom_reports hreport _ _ _ _) fun _ => ?_
    exact .bind (hreport .finish) fun _ => .pure fun _ h => h
  · refine .bind (sieve_lists hreport hlarge o.value) fun ps =>
      .pure fun _ hs => ⟨fun ps' h => ?_, hs.2⟩
    cases h
    exact hs.1

theorem outcome_fares {out : Outside ω} {o : Object}
    (hreport : ∀ p, Fares P (report out o.callback p)) :
    Does P (outcome out o) (fun outcome s => outcome.Listed ∧ P s)
      fun why s => why.code ≠ Status.ok ∧ P s :=
  outcome_finds hreport fun _ _ h => ⟨(by decide : Status.invalidParam ≠ Status.ok), h⟩

theorem hold_fares (x : Handle) : Fares P (part.hold x) := by
  refine Does.of_run fun s hs => ?_
  show (∃ o s', (((part (ω := ω)).view s).table.hold x, s) = _ ∧ _) ∨ _
  cases hh : ((part (ω := ω)).view s).table.hold x with
  | ok o => exact .inl ⟨o, s, rfl, hs⟩
  | error why =>
    have hg : ((part (ω := ω)).view s).table.get x = .error why := by rw [Table.get, hh]; rfl
    exact .inr ⟨why, s, by rw [← hh]; rfl, Table.get_code hg, hs⟩

theorem calculate_routed {out : Outside ω} (hout : ∀ f p, Ends P (out.progress f p) fun _ => P)
    {x : Handle}
    (hheld : ∀ n outcome s, outcome.Listed → P s → P (part.updateHeld x n (found outcome) s).2) :
    Routed part x P (calculate out x) := by
  refine .guard (.bind (hold_fares x) fun (serial, o) => ?_)
  refine Does.bind (outcome_fares (report_fares hout o.callback)) fun outcome => .assume fun hlisted => ?_
  refine Fares.bind (.of_ok fun s hs => ⟨_, s, rfl, hs⟩) fun now => ?_
  refine .ite (fun _ => .throw_bind (by decide : Status.generic ≠ Status.ok)) fun _ => ?_
  exact .of_ok fun s hs => ⟨_, _, rfl, hheld serial outcome s hlisted hs⟩

theorem primeFactors_routed (x : Handle) (capacity : UInt64) (place : Place UInt64 PrimeFactor) :
    Routed (part (ω := ω)) x P (primeFactors x capacity place) := by
  refine .guard (.bind (.get part x) fun o => .ite (fun _ => .throw_bind (by decide)) fun _ => ?_)
  split
  · exact .lift fun _ h => Exchange.serveArray_code h
  · exact .throw (by decide)

theorem primes_routed (x : Handle) (capacity : UInt64) (place : Place UInt64 UInt64) :
    Routed (part (ω := ω)) x P (primes x capacity place) := by
  refine .guard (.bind (.get part x) fun o => .ite (fun _ => .throw_bind (by decide)) fun _ => ?_)
  split
  · exact .lift fun _ h => Exchange.serveArray_code h
  · exact .throw (by decide)

end Primes

end Boundary
