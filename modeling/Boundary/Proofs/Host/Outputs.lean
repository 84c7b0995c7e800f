/-
  Boundary.Proofs.Host.Outputs — what calls that succeeded hand out and read.

  A handle that a successful call puts in an output names an object then, in whatever state the
  call was made (`Finds`), and a tag that comes with it is that of the object (`Zoo.Labels`). Calls
  that read a variable-length output do not come to differ by the memory they are offered: once the
  query for the size has succeeded, a query and a call with a fresh buffer succeed for as long as
  nothing but notes is made (`Readable`).
-/
import Boundary.Proofs.Exchange.Text
import Boundary.Proofs.Host.Library

namespace Boundary

open Exchange (Cell Place Room)
open Fixed (require_fares)

variable {σ ω O α ρ : Type} {out : Outside ω} {via : Invoker (Process ω)} {s : Process ω}

def Process.Found (s : Process ω) (c : Component) (x : Handle) : Prop :=
  x.isNull = true ∨ (s.count? c x).isSome = true

/-- A call that succeeds leaves an object behind the handle in its outputs. -/
def Finds (c : Component) (handle : ρ → Handle) (x : Act ω (Status × ρ)) : Prop :=
  Ends (fun _ => True) x fun r s => r.1 = Status.ok → s.Found c (handle r.2)

theorem Finds.guard {p : Part (Process ω) O} {x : Handle} {c : Component} {handle : ρ → Handle}
    {cells : ρ} {op : Op (Process ω) ρ}
    (hop : Does (fun _ => True) op (fun cells s => s.Found c (handle cells))
      fun why _ => why.code ≠ Status.ok) : Finds c handle (p.guard x cells op) :=
  Part.guard_succeeds hop

/-! ## Objects that are there -/

def Part.Has (p : Part σ O) (x : Handle) (s : σ) : Prop := ((p.view s).table.count? x).isSome = true

namespace Part

variable {p : Part σ O} (hput : ∀ st s, p.view (p.put st s) = st) {P : σ → Prop}
  {E : Fault → σ → Prop} {x : Handle}

theorem Has.of_object {s : σ} {o : O} (h : (p.view s).table.get? x = some o) : p.Has x s := by
  rw [Table.get?, Option.map_eq_some_iff] at h
  obtain ⟨a, ha, -⟩ := h
  rw [Has, Table.count?, ha]
  rfl

include hput

theorem insert_has (o : O) : Does P (p.insert o) (fun h s => p.Has h s) E := by
  intro s _
  show Part.Has p _ (p.put _ s)
  rw [Has, hput, Table.count?, Table.slots_insert, Handle.Map.get?_insert, if_pos rfl]
  rfl

theorem acquire_has (x : Handle) :
    Does P (p.acquire x) (fun _ s => p.Has x s) fun why _ => why.code ≠ Status.ok := by
  refine .of_run fun s _ => ?_
  cases ha : (p.view s).table.acquire x with
  | ok t =>
    obtain ⟨a, hslot, -, rfl⟩ := Table.acquire_ok ha
    refine .inl ⟨_, _, Part.acquire_ok ha, ?_⟩
    rw [Has, hput, Table.count?, Table.setCount, Handle.Map.get?_modify, if_pos rfl, hslot]
    rfl
  | error why => exact .inr ⟨_, _, Part.acquire_error ha, Table.acquire_code ha⟩

end Part

/-! ## What is handed out -/

/-- Nothing is known, and that lasts. -/
theorem outlastsInserts_true [Resource O] (p : Part σ O) : OutlastsInserts p fun _ => True :=
  ⟨⟨fun _ _ _ => trivial, fun _ _ _ => trivial, fun _ _ _ _ => trivial⟩, fun _ _ _ => trivial⟩

/-- What comes before the last steps of an operation does not matter. -/
theorem Fares.then {op : Op σ α} {f : α → Op σ ρ} {Q : ρ → σ → Prop} (h : Fares (fun _ => True) op)
    (hf : ∀ a, Does (fun _ => True) (f a) Q fun why _ => why.code ≠ Status.ok) :
    Does (fun _ => True) (op >>= f) Q fun why _ => why.code ≠ Status.ok :=
  .bind (h.failing fun _ _ h => h.1) hf

def Process.Labels (s : Process ω) (f : FatHandle) : Prop :=
  f = FatHandle.null ∨ ∃ n, s.className? .zoo f.handle = some n ∧ f.tagWord = (Tag.ofName n).value

namespace Zoo

def handleIn (cell : Cell FatHandle) : Handle := (cell.getD FatHandle.null).handle

def Labelled (cell : Cell FatHandle) (s : Process ω) : Prop := ∀ f, cell = some f → s.Labels f

theorem Labelled.found {cell : Cell FatHandle} (h : Labelled cell s) :
    s.Found .zoo (handleIn cell) := by
  cases cell with
  | none => exact .inl rfl
  | some f =>
    rcases h f rfl with rfl | ⟨n, hn, -⟩
    · exact .inl rfl
    · obtain ⟨o, ho, -⟩ := Option.map_eq_some_iff.mp hn
      exact .inr (Part.Has.of_object (p := part) ho)

def Labels (cell : ρ → Cell FatHandle) (x : Act ω (Status × ρ)) : Prop :=
  Ends (fun _ => True) x fun r s => r.1 = Status.ok → Labelled (cell r.2) s

theorem Labels.guard {cell : ρ → Cell FatHandle} {x : Handle} {cells : ρ} {op : Op (Process ω) ρ}
    (hop : Does (fun _ => True) op (fun cells s => Labelled (cell cells) s)
      fun why _ => why.code ≠ Status.ok) : Labels cell (part.guard x cells op) :=
  Part.guard_succeeds hop

theorem Labels.finds {cell : ρ → Cell FatHandle} {x : Act ω (Status × ρ)} (h : Labels cell x) :
    Finds .zoo (fun cells => handleIn (cell cells)) x :=
  h.post fun _ _ h hok => (h hok).found

theorem fat_labels {P : Process ω → Prop} (h : Handle) :
    Does P (fat h) (fun f s => ∃ n, s.className? .zoo h = some n ∧ f = ⟨h, (Tag.ofName n).value⟩)
      fun why _ => why.code ≠ Status.ok := by
  refine .bind ((Part.get_finds part h).failing fun _ _ h => h.1) fun o => .pure fun s hs => ?_
  exact ⟨_, congrArg (Option.map Object.className) hs.2, rfl⟩

/-- An operation that ends with a fat handle. -/
theorem fat_labelled (h : Handle) :
    Does (fun _ => True) (do return some (← fat (ω := ω) h)) Labelled
      fun why _ => why.code ≠ Status.ok := by
  refine .bind (fat_labels h) fun f => .pure fun s ⟨n, hn, hf⟩ f' hf' => .inr ⟨n, ?_⟩
  obtain rfl := Option.some.inj hf'
  rw [hf]
  exact ⟨hn, rfl⟩

theorem createZoo_labels (zoo : Cell FatHandle) : Labels id (createZoo (ω := ω) zoo) := by
  refine Labels.guard ((require_fares zoo).then fun _ => ?_)
  refine (insertAll_fares (outlastsInserts_true part).insert defaults).then fun animals => ?_
  exact ((outlastsInserts_true part).insert_fares _).then fat_labelled

theorem animalAt_labels (zoo : Handle) (index : UInt32) (animal : Cell FatHandle) :
    Labels id (animalAt (ω := ω) zoo index animal) := by
  refine Labels.guard ((require_fares animal).then fun _ => ?_)
  refine (animalsOf_fares zoo).then fun animals => ?_
  split
  · exact fat_labelled _
  · exact .throw fun _ _ => (by decide : Status.invalidParam ≠ Status.ok)

theorem iterator_labels (zoo : Handle) (cell : Cell FatHandle) :
    Labels id (iterator (ω := ω) zoo cell) := by
  refine Labels.guard ((require_fares cell).then fun _ => ?_)
  refine (animalsOf_fares zoo).then fun animals => ?_
  refine (acquireAll_fares (outlastsInserts_true part).toOutlastsRefs [] animals).then fun _ => ?_
  exact ((outlastsInserts_true part).insert_fares _).then fat_labelled

/-- A reference that is taken and an iterator that moves on do not change classes. -/
theorem advance_labels (it : Handle) :
    Does (fun _ => True) (advance (ω := ω) it) Labelled fun why _ => why.code ≠ Status.ok := by
  refine (Fares.get part it).then fun o => ?_
  cases o with
  | iterator animals position =>
    dsimp only
    split
    · exact .pure fun _ _ f hf => by cases hf
    · next h _ =>
      refine .bind (fat_labels h) fun f => ?_
      refine .bind (Q := fun _ s => ∃ n, s.className? .zoo h = some n ∧
        f = ⟨h, (Tag.ofName n).value⟩) (.of_run fun s ⟨n, hn, hf⟩ => ?_) fun _ => ?_
      · cases ha : s.zoo.acquire h with
        | ok t =>
          refine .inl ⟨_, _, Part.acquire_ok (p := part) ha, n, ?_, hf⟩
          obtain ⟨a, -, -, rfl⟩ := Table.acquire_ok ha
          exact (congrArg (Option.map Object.className) (Table.object_setCount s.zoo h _ h)).trans hn
        | error why => exact .inr ⟨_, _, Part.acquire_error ha, Table.acquire_code ha⟩
      · refine .bind (Q := fun _ s => s.Labels f) (fun s ⟨n, hn, hf⟩ => .inr ⟨n, ?_⟩) fun _ =>
          .pure fun s hs f' hf' => Option.some.inj hf' ▸ hs
        rw [hf]
        exact ⟨(Table.name_update Change.step.className s.zoo it h).trans hn, rfl⟩
  | _ => exact .throw fun _ _ => (by decide : Status.invalidCast ≠ Status.ok)

theorem nextAnimal_labels (it : Handle) (animal : Cell FatHandle) (hasAnimal : Cell Bool) :
    Labels Prod.fst (nextAnimal (ω := ω) it animal hasAnimal) := by
  refine Labels.guard ((require_fares animal).then fun _ => ?_)
  refine (require_fares hasAnimal).then fun _ => ?_
  refine .bind (advance_labels it) fun next => ?_
  cases next with
  | some f => exact .pure fun _ h => h
  | none => exact .pure fun _ _ f hf => .inl (Option.some.inj hf).symm

theorem nextMandatoryAnimal_labels (it : Handle) (animal : Cell FatHandle) :
    Labels id (nextMandatoryAnimal (ω := ω) it animal) := by
  refine Labels.guard ((require_fares animal).then fun _ => ?_)
  refine .bind (advance_labels it) fun next => ?_
  cases next with
  | some f => exact .pure fun _ h => h
  | none => exact .throw fun _ _ => (by decide : Status.noResult ≠ Status.ok)

end Zoo

namespace Calculator

/-- The handle in a cell of the caller. -/
def handleIn (cell : Cell Handle) : Handle := cell.getD Handle.null

theorem insert_finds (o : Object) :
    Does (fun _ => True) (do return some (← part (ω := ω).insert o))
      (fun cell s => s.Found .calculator (handleIn cell)) fun why _ => why.code ≠ Status.ok :=
  .bind (Part.insert_has (fun _ _ => rfl) o) fun _ => .pure fun _ hs => .inr hs

theorem createVariable_finds (initial : Float) (v : Cell Handle) :
    Finds (ω := ω) .calculator handleIn (createVariable initial v) := by
  refine Finds.guard ((require_fares v).then fun _ => ?_)
  exact Fares.then (.lift fun _ h => finite_code h) fun initial => insert_finds (.var initial)

theorem createCalculator_finds (cell : Cell Handle) :
    Finds (ω := ω) .calculator handleIn (createCalculator cell) :=
  Finds.guard ((require_fares cell).then fun _ => insert_finds (.calculator []))

theorem enlistedVariable_finds (calculator : Handle) (index : UInt32) (v : Cell Handle) :
    Finds (ω := ω) .calculator handleIn (enlistedVariable calculator index v) := by
  refine Finds.guard ((require_fares v).then fun _ => ?_)
  refine (enlistedIn_fares calculator).then fun enlisted => ?_
  split
  · next h _ =>
    exact .bind (Part.acquire_has (fun _ _ => rfl) h) fun _ => .pure fun _ hs => .inr hs
  · exact .throw fun _ _ => (by decide : Status.invalidParam ≠ Status.ok)

theorem combine_finds (calculator : Handle) (initial : Float) (op : Float → Float → Float)
    (result : Cell Handle) :
    Finds (ω := ω) .calculator handleIn (combine calculator initial op result) := by
  refine Finds.guard ((require_fares result).then fun _ => ?_)
  refine (enlistedIn_fares calculator).then fun enlisted => ?_
  refine (foldValues_fares op initial enlisted).then fun value => ?_
  exact Fares.then (.lift fun _ h => finite_code h) fun value => insert_finds (.var value)

end Calculator

theorem Primes.create_finds (kind : Primes.Kind) (cell : Cell Handle) :
    Finds (ω := ω) .primes Calculator.handleIn (Primes.create kind cell) := by
  refine Finds.guard ((require_fares cell).then fun _ => ?_)
  exact .bind (Part.insert_has (fun _ _ => rfl) _) fun _ => .pure fun _ hs => .inr hs

/-! ## What is read -/

def Readable {κ : Type} (f : Room κ → Act ω (Status × Place κ α)) : Prop :=
  ∃ P : Process ω → Prop, OutlastsNotes P ∧ (∀ s, (f .query s).1.1 = Status.ok → P s) ∧
    ∀ room, Ends P (f room) fun r s => r.1 = Status.ok ∧ P s

/-- The call looks at an object. If that serves the query, it serves all. -/
theorem Readable.of_look {κ : Type} {p : Part (Process ω) O} {x : Handle}
    {cells : Room κ → Place κ α} {op : Room κ → O → Op (Process ω) (Place κ α)}
    (look : Room κ → O → Except Fault (Place κ α))
    (hnote : ∀ n s, (p.view (Journal.note n s)).table = (p.view s).table)
    (hop : ∀ room o s, op room o s = (look room o, s))
    (hcode : ∀ o why, look .query o = .error why → why.code ≠ Status.ok)
    (hroom : ∀ o place, look .query o = .ok place → ∀ room, ∃ place, look room o = .ok place) :
    Readable fun room => p.guard x (cells room) (p.get x >>= op room) := by
  refine ⟨fun s => ∃ o place, (p.view s).table.get x = .ok o ∧ look .query o = .ok place,
    fun n _ s hs => ?_, fun s hok => ?_, fun room s hs => ?_⟩
  · show ∃ o place, (p.view (Journal.note n s)).table.get x = .ok o ∧ look .query o = .ok place
    rwa [hnote]
  · change (p.guard x (cells .query) (p.get x >>= op .query) s).1.1 = Status.ok at hok
    cases hget : (p.view s).table.get x with
    | error why =>
      have hrun : (p.get x >>= op .query) s = (.error why, s) :=
        run_bind_error (congrArg (·, s) hget)
      rw [Part.guard_of_error hrun] at hok
      exact absurd hok (Table.get_code hget)
    | ok o =>
      have hrun := (run_bind_ok (f := op .query) (Part.get_run hget)).trans (hop .query o s)
      cases hlook : look .query o with
      | ok place => exact ⟨o, place, rfl, hlook⟩
      | error why =>
        rw [hlook] at hrun
        rw [Part.guard_of_error hrun] at hok
        exact absurd hok (hcode o why hlook)
  · obtain ⟨o, place, hget, hlook⟩ := hs
    obtain ⟨after, hafter⟩ := hroom o place hlook room
    have hrun := (run_bind_ok (f := op room) (Part.get_run hget)).trans (hop room o s)
    rw [hafter] at hrun
    dsimp only
    rw [Part.guard_of_ok hrun]
    exact ⟨rfl, o, place, hget, hlook⟩

namespace Exchange

/-- A text that can be counted for a query is served to every caller. -/
theorem serveText_room {t : String} {place : Place UInt32 UInt8}
    (h : serveText t 0 ⟨some 0, none⟩ = .ok place) (room : Room UInt32) :
    ∃ place, serveText t room.capacity room.narrow = .ok place := by
  have ht : Servable t := by
    by_contra hlong
    have hsize : UInt32.size ≤ (Text.Utf8.write t ++ [0]).length := by
      rw [length_bytes]
      exact Nat.succ_le_succ (Nat.not_lt.mp hlong)
    unfold serveText at h
    rw [if_pos hsize] at h
    cases h
  have hserve := serveText_filling ht room
  revert hserve
  cases serveText t room.capacity room.narrow with
  | ok place => exact fun _ => ⟨place, rfl⟩
  | error why => exact fun h => by cases h

theorem serveArray_room [Element α] (data : List α) (room : Room UInt64) :
    ∃ place, serveArray data room.capacity room.wide = .ok place := by
  cases room with
  | query => exact ⟨_, rfl⟩
  | buffer n => exact ⟨_, by simp [serveArray, Room.wide]; rfl⟩

end Exchange

namespace Zoo

def serveName (room : Exchange.Room UInt32) : Object → Except Fault (Exchange.Place UInt32 UInt8)
  | .animal _ name => Exchange.serveText name room.capacity room.narrow
  | _ => .error .notAnimal

def serveRoar (room : Exchange.Room UInt32) : Object → Except Fault (Exchange.Place UInt32 UInt8)
  | .animal .tiger name => Exchange.serveText (roar name) room.capacity room.narrow
  | .animal _ name => .error (.notTiger name)
  | _ => .error .notAnimal

theorem animalName_readable (x : Handle) : Readable fun room =>
    animalName (ω := ω) x room.capacity room.narrow := by
  refine .of_look serveName (fun _ _ => rfl) (fun room o s => ?_) (fun o why h => ?_)
    fun o place h room => ?_
  · cases o <;> rfl
  · cases o with
    | animal species name => exact Exchange.serveText_code h
    | _ =>
      cases h
      decide
  · cases o with
    | animal species name => exact Exchange.serveText_room h room
    | _ => cases h

theorem tigerRoar_readable (x : Handle) : Readable fun room =>
    tigerRoar (ω := ω) x room.capacity room.narrow := by
  refine .of_look serveRoar (fun _ _ => rfl) (fun room o s => ?_) (fun o why h => ?_)
    fun o place h room => ?_
  · rcases o with _ | _ | ⟨_ | _, _⟩ <;> rfl
  · rcases o with _ | _ | ⟨_ | _, _⟩
    case animal.tiger name => exact Exchange.serveText_code h
    all_goals
      cases h
      exact (by decide : Status.invalidCast ≠ Status.ok)
  · rcases o with _ | _ | ⟨_ | _, _⟩
    case animal.tiger name => exact Exchange.serveText_room h room
    all_goals cases h

end Zoo

namespace Primes

def serveFactors (room : Exchange.Room UInt64) (o : Object) :
    Except Fault (Exchange.Place UInt64 PrimeFactor) :=
  if o.kind ≠ .factorization then .error .notFactorization else
    match o.result with
    | some (.factors fs) => Exchange.serveArray fs room.capacity room.wide
    | _ => .error .noFactorization

def servePrimes (room : Exchange.Room UInt64) (o : Object) :
    Except Fault (Exchange.Place UInt64 UInt64) :=
  if o.kind ≠ .sieve then .error .notSieve else
    match o.result with
    | some (.primes ps) => Exchange.serveArray ps room.capacity room.wide
    | _ => .error .noPrimes

/-- An object refuses whatever the room, or has a list to serve. -/
theorem readable_of_lists [Exchange.Element α] {x : Handle} {cells : Room UInt64 → Place UInt64 α}
    {op : Room UInt64 → Object → Op (Process ω) (Place UInt64 α)}
    (serve : Room UInt64 → Object → Except Fault (Place UInt64 α))
    (hop : ∀ room o s, op room o s = (serve room o, s))
    (hserve : ∀ o, (∃ why, why.code ≠ Status.ok ∧ ∀ room, serve room o = .error why) ∨
      ∃ data, ∀ room, serve room o = Exchange.serveArray data room.capacity room.wide) :
    Readable fun room => part.guard x (cells room) (part.get x >>= op room) := by
  refine .of_look serve (fun _ _ => rfl) hop (fun o why h => ?_) fun o place h room => ?_
  · obtain ⟨why', hcode, hfails⟩ | ⟨data, hdata⟩ := hserve o
    · rw [hfails] at h
      exact Except.error.inj h ▸ hcode
    · exact Exchange.serveArray_code ((hdata .query).symm.trans h)
  · obtain ⟨why', -, hfails⟩ | ⟨data, hdata⟩ := hserve o
    · rw [hfails] at h
      cases h
    · rw [hdata]
      exact Exchange.serveArray_room data room

theorem primeFactors_readable (x : Handle) : Readable fun room =>
    primeFactors (ω := ω) x room.capacity room.wide := by
  refine readable_of_lists serveFactors (fun room o s => ?_) fun o => ?_
  · unfold serveFactors
    split
    · rfl
    · rcases o.result with _ | _ | _ <;> rfl
  · by_cases hkind : o.kind ≠ .factorization
    · exact .inl ⟨.notFactorization, by decide, fun _ => if_pos hkind⟩
    · rcases hresult : o.result with _ | fs | _
      case some.factors => exact .inr ⟨fs, fun _ => by simp [serveFactors, hkind, hresult]⟩
      all_goals exact .inl ⟨.noFactorization, by decide, fun _ => by simp [serveFactors, hkind, hresult]⟩

theorem primes_readable (x : Handle) : Readable fun room =>
    primes (ω := ω) x room.capacity room.wide := by
  refine readable_of_lists servePrimes (fun room o s => ?_) fun o => ?_
  · unfold servePrimes
    split
    · rfl
    · rcases o.result with _ | _ | _ <;> rfl
  · by_cases hkind : o.kind ≠ .sieve
    · exact .inl ⟨.notSieve, by decide, fun _ => if_pos hkind⟩
    · rcases hresult : o.result with _ | _ | ps
      case some.primes => exact .inr ⟨ps, fun _ => by simp [servePrimes, hkind, hresult]⟩
      all_goals exact .inl ⟨.noPrimes, by decide, fun _ => by simp [servePrimes, hkind, hresult]⟩

end Primes

end Boundary
