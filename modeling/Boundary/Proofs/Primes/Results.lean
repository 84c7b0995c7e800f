/-
  Boundary.Proofs.Primes.Results — a stored result belongs to the stored value.

  A calculation reads the value, runs callbacks that may call any primes export on any
  object, itself included, and only then stores. `Reach` covers all of that: the calls of
  a process one after the other, and those that a callback makes in the middle of one,
  as deep as they nest.

  Two things are kept by every call (`Served`): stored results are complete for the value
  beside them, and a serial number goes on naming an object of one kind. With the second,
  the object that a calculation stores into is the one it began with.

  Proved: in every reachable state, results are complete for the current value and of
  their object's kind, and the two getters answer nothing else.
-/
import Boundary.Proofs.Course.Perform
import Boundary.Proofs.Primes.Factor
import Boundary.Proofs.Primes.Sieve
import Boundary.Proofs.Release

namespace Boundary.Primes

open Exchange (Place)

variable {ω ρ : Type}

/-! ## Complete results -/

def Complete (kind : Kind) (value : UInt64) : Outcome → Prop
  | .factors fs => kind = .factorization ∧ fs.map PrimeFactor.pair = primePowers value.toNat
  | .primes ps => kind = .sieve ∧ ps.map UInt64.toNat = primesTo value.toNat

def Object.Current (o : Object) : Prop :=
  ∀ found, o.result = some found → Complete o.kind o.value found

/-! ## States that can be reached -/

/-- What primes exports leave of a process: any calls of them, each with functions outside
    the components of its own. A callback among these makes such calls in turn, in any state
    it finds, and goes about its own state as it likes. The states inside a callback are
    among these: a calculation changes nothing before its last report. -/
inductive Reach : Process ω → Process ω → Prop
  | refl (s : Process ω) : Reach s s
  | call {s u : Process ω} (out : Outside ω) (via : Invoker (Process ω)) {ρ : Type} (c : Call ρ) :
      Reach s u → c.target ∈ Export.ofComponent .primes →
      (∀ f p v, Reach v (out.progress f p v).2) → Reach s (perform out via c u).2
  | turn {s u : Process ω} (thread : Nat) (w : ω) : Reach s u →
      Reach s { u with shared := { u.shared with thread := thread }, outer := w }

/-! ## What every call keeps -/

/-- Results are current, and as long as the object with serial number `n` is there, `h` names
    it and it is of kind `k`. -/
structure Served (h : Handle) (n : Nat) (k : Kind) (s : Process ω) : Prop where
  /-- Serial numbers to come are new. -/
  serial : ∀ x a, s.primes.slots.get? x = some a → a.serial ≤ s.shared.issued
  current : ∀ x a, s.primes.slots.get? x = some a → a.object.Current
  known : n ≤ s.shared.issued
  kind : ∀ a, s.primes.slots.get? h = some a → a.serial = n → a.object.kind = k

def Keeps (x : Act ω ρ) : Prop := ∀ h n k, Ends (Served h n k) x fun _ => Served h n k

section

variable {h : Handle} {n : Nat} {k : Kind} {s s' : Process ω}

/-- Slots may go, and objects may change as long as their kind stays and results are current. -/
theorem Served.change (hs : Served h n k s) (hi : s'.shared.issued = s.shared.issued)
    (hc : ∀ x a', s'.primes.slots.get? x = some a' → ∃ a, s.primes.slots.get? x = some a ∧
      a'.serial = a.serial ∧ a'.object.kind = a.object.kind ∧
      (a.object.Current → a'.object.Current)) : Served h n k s' where
  serial x a' hx := by
    obtain ⟨a, ha, hser, -⟩ := hc x a' hx
    rw [hser, hi]
    exact hs.serial x a ha
  current x a' hx := by
    obtain ⟨a, ha, -, -, hcur⟩ := hc x a' hx
    exact hcur (hs.current x a ha)
  known := hi ▸ hs.known
  kind a' hx hn := by
    obtain ⟨a, ha, hser, hk, -⟩ := hc h a' hx
    rw [hk]
    exact hs.kind a ha (hser ▸ hn)

theorem Served.same (hs : Served h n k s) (hi : s'.shared.issued = s.shared.issued)
    (hp : s'.primes = s.primes) : Served h n k s' :=
  hs.change hi fun _ a' hx => ⟨a', hp ▸ hx, rfl, rfl, id⟩

/-- A slot changed in place. -/
theorem Served.modify (hs : Served h n k s) (hi : s'.shared.issued = s.shared.issued)
    {x : Handle} {f : Slot Object → Slot Object}
    (hm : s'.primes.slots = s.primes.slots.modify x f)
    (hf : ∀ a, s.primes.slots.get? x = some a → (f a).serial = a.serial ∧
      (f a).object.kind = a.object.kind ∧ (a.object.Current → (f a).object.Current)) :
    Served h n k s' := by
  refine hs.change hi fun y a' hy => ?_
  rw [hm, Handle.Map.get?_modify] at hy
  split at hy
  · next e =>
    subst e
    rw [Option.map_eq_some_iff] at hy
    obtain ⟨a, ha, rfl⟩ := hy
    exact ⟨a, ha, hf a ha⟩
  · exact ⟨a', hy, rfl, rfl, id⟩

end

/-! ## Single operations -/

section

variable {h : Handle} {n : Nat} {k : Kind} {E : Fault → Process ω → Prop}

theorem insert_served {o : Object} (ho : o.result = none) :
    Does (Served h n k : Process ω → Prop) (part.insert o) (fun _ => Served h n k) E := by
  intro s hs
  have hslot : ∀ (t : Table Object) y z (b : Slot Object),
      (t.insert y (s.shared.issued + 1) o).slots.get? z = some b →
        (b.serial = s.shared.issued + 1 ∧ b.object = o) ∨ t.slots.get? z = some b := by
    intro t y z b hb
    rw [Table.slots_insert, Handle.Map.get?_insert] at hb
    split at hb
    · cases hb
      exact .inl ⟨rfl, rfl⟩
    · exact .inr hb
  constructor
  · intro z b hb
    show b.serial ≤ s.shared.issued + 1
    rcases hslot _ _ z b hb with ⟨hser, -⟩ | hb
    · omega
    · have := hs.serial z b hb
      omega
  · intro z b hb
    rcases hslot _ _ z b hb with ⟨-, rfl⟩ | hb
    · intro found hf
      rw [ho] at hf
      cases hf
    · exact hs.current z b hb
  · exact Nat.le_succ_of_le hs.known
  · intro b hb hn
    rcases hslot _ _ h b hb with ⟨hser, -⟩ | hb
    · have := hs.known
      omega
    · exact hs.kind b hb hn

theorem update_served (x : Handle) {f : Object → Object}
    (hf : ∀ o, (f o).kind = o.kind ∧ (o.Current → (f o).Current)) :
    Does (Served h n k : Process ω → Prop) (part.update x f) (fun _ => Served h n k) E :=
  fun _ hs => hs.modify (x := x) (f := fun a => { a with object := f a.object }) rfl rfl
    fun a _ => ⟨rfl, hf a.object⟩

theorem acquire_served (x : Handle) :
    Does (Served h n k : Process ω → Prop) (part.acquire x) (fun _ => Served h n k)
      fun _ => Served h n k := by
  intro s hs
  show Either _ _ (part.acquire x s).1 (part.acquire x s).2
  cases hx : s.primes.acquire x with
  | error e =>
    rw [Part.acquire_error (p := part) hx]
    exact hs
  | ok t =>
    rw [Part.acquire_ok (p := part) hx]
    obtain ⟨a, -, -, rfl⟩ := Table.acquire_ok hx
    exact hs.modify rfl rfl fun b _ => ⟨rfl, rfl, id⟩

theorem release_served (x : Handle) :
    Does (Served h n k : Process ω → Prop) (part.release x) (fun _ => Served h n k)
      fun _ => Served h n k := by
  intro s hs
  have hs' : Served h n k (part.release x s).2 := by
    refine hs.change rfl fun y a' hy => ?_
    obtain ⟨a, ha, hser, hobj⟩ := Table.release_slots s.primes x hy
    exact ⟨a, ha, hser, congrArg _ hobj, fun h => hobj ▸ h⟩
  show Either _ _ (Release.answer (s.primes.release x).2) _
  cases Release.answer (s.primes.release x).2 <;> exact hs'

/-- Recording a failure changes no object. -/
theorem fail_keeps (x : Handle) (why : Fault) : Keeps (part.fail x why : Act ω _) := by
  intro h n k s hs
  rw [Part.fail_run fun _ => rfl]
  unfold Store.fail Store.record
  split
  · exact hs.modify rfl rfl fun b _ => ⟨rfl, rfl, id⟩
  · exact hs.same rfl rfl

/-- An exported operation keeps what the operation itself does. -/
theorem guard_keeps {ρ : Type} (x : Handle) (cells : ρ) {op : Op (Process ω) ρ}
    (hop : ∀ h n k, Does (Served h n k) op (fun _ => Served h n k) fun _ => Served h n k) :
    Keeps (part.guard x cells op) := by
  intro h n k
  exact Part.guard_leaves (hop h n k) fun why s hs => fail_keeps x why h n k s hs

end

/-! ## Calculations -/

/-- What is calculated of a value, whatever becomes of the reports. -/
def compute {σ : Type} (kind : Kind) (value : UInt64) (report : Progress → Op σ Unit) :
    Op σ Outcome :=
  match kind with
  | .factorization => do return .factors (← factorize value report)
  | .sieve => do return .primes (← sieve value report)

theorem outcome_eq (out : Outside ω) (o : Object) :
    outcome out o = compute o.kind o.value (report out o.callback) := by
  unfold outcome compute
  cases o.kind <;> rfl

/-- What is found is the whole result for the value. -/
theorem compute_does {σ : Type} {P : σ → Prop} {report : Progress → Op σ Unit}
    (hr : ∀ p, Does P (report p) (fun _ => P) fun _ => P) (kind : Kind) (value : UInt64) :
    Does P (compute kind value report) (fun found s => Complete kind value found ∧ P s)
      fun _ => P := by
  cases kind with
  | factorization =>
    exact .bind (factorize_does hr value) fun fs => .pure fun s h => ⟨⟨rfl, h.1⟩, h.2⟩
  | sieve =>
    exact .bind (sieve_does hr value fun _ _ h => h) fun ps => .pure fun s h => ⟨⟨rfl, h.1⟩, h.2⟩

section

variable {out : Outside ω}

/-- Reports run the callback and nothing else. -/
theorem report_does {P : Process ω → Prop} (hout : ∀ f p, Ends P (out.progress f p) fun _ => P)
    (callback : Option Foreign) (p : Progress) :
    Does P (report out callback p) (fun _ => P) fun _ => P := by
  cases callback with
  | none => exact .pure fun _ h => h
  | some f =>
    refine .bind (.monadLift (hout f p)) fun abort => ?_
    exact .ite (fun _ => .throw fun _ h => h) fun _ => .pure fun _ h => h

/-- What a calculation finds is the whole result for the value it began with. -/
theorem outcome_does {P : Process ω → Prop} (hout : ∀ f p, Ends P (out.progress f p) fun _ => P)
    (o : Object) :
    Does P (outcome out o) (fun found s => Complete o.kind o.value found ∧ P s) fun _ => P := by
  rw [outcome_eq]
  exact compute_does (report_does hout o.callback) o.kind o.value

theorem hold_served {h : Handle} {n : Nat} {k : Kind} (x : Handle) :
    Does (Served h n k : Process ω → Prop) (part.hold x)
      (fun r s => Served h n k s ∧ Served x r.1 r.2.kind s) fun _ => Served h n k := by
  intro s hs
  show Either _ _ (s.primes.hold x) s
  unfold Table.hold
  split
  · exact hs
  · cases ha : s.primes.slots.get? x with
    | none => exact hs
    | some a =>
      refine ⟨hs, hs.serial, hs.current, hs.serial x a ha, fun b hb _ => ?_⟩
      rw [ha] at hb
      cases hb
      rfl

/-- The result goes to the object the calculation began with, and that has the value the
    result is for. -/
theorem store_served {h x : Handle} {n serial : Nat} {k kind : Kind} {value : UInt64}
    {found : Outcome} (hf : Complete kind value found) {E : Fault → Process ω → Prop} :
    Does (fun s : Process ω => (∀ o, s.primes.held? x serial = some o → o.value = value) ∧
        Served h n k s ∧ Served x serial kind s)
      (part.updateHeld x serial fun o => { o with result := some found })
      (fun _ => Served h n k) E := by
  rintro s ⟨hv, hs, hx⟩
  refine hs.modify (x := x) rfl rfl fun a ha => ?_
  by_cases hser : a.serial = serial
  · simp only [if_pos hser]
    refine ⟨trivial, trivial, fun _ found' hfound => ?_⟩
    cases hfound
    have hheld : s.primes.held? x serial = some a.object := hser ▸ Table.held_of_slot ha
    rw [show a.object.kind = kind from hx.kind a ha hser, hv a.object hheld]
    exact hf
  · simp only [if_neg hser]
    exact ⟨trivial, trivial, id⟩

/-- A calculation keeps what its callbacks keep: a value that was changed in the meantime, and
    not changed back, stops it before it stores. -/
theorem calculate_keeps (hout : ∀ f p, Keeps (out.progress f p)) (x : Handle) :
    Keeps (calculate out x) := by
  refine guard_keeps x () fun h n k => ?_
  refine .bind (hold_served x) fun (serial, o) => ?_
  have hboth (f p) : Ends (fun s => Served h n k s ∧ Served x serial o.kind s)
      (out.progress f p) fun _ s => Served h n k s ∧ Served x serial o.kind s := fun s hs =>
    ⟨hout f p h n k s hs.1, hout f p x serial o.kind s hs.2⟩
  refine .bind ((outcome_does hboth o).failing fun _ _ h => h.1)
    fun found => .assume fun hfound => ?_
  refine .bind (Q := fun held s => s.primes.held? x serial = held ∧ Served h n k s ∧
    Served x serial o.kind s) (fun s hs => ⟨rfl, hs⟩) fun held => ?_
  refine .ite (fun _ => .throw_bind fun s hs => hs.2.1) fun hnow => ?_
  refine (store_served hfound).pre fun s hs => ⟨fun o' ho' => ?_, hs.2⟩
  rw [hs.1.symm.trans ho', Option.map_some, Option.getD_some] at hnow
  exact Classical.not_not.mp hnow

end

/-! ## All exports -/

/-- A function that does nothing but record its failures. -/
theorem idle_keeps {x : Act ω (Status × ρ)} {y : Handle} (hx : ∀ P, Routed part y P x) : Keeps x :=
  fun h n k => (hx _).keeps fun why s hs => fail_keeps y why h n k s hs

theorem create_keeps (kind : Kind) (cell : Exchange.Cell Handle) :
    Keeps (create kind cell : Act ω _) :=
  guard_keeps _ _ fun _ _ _ => .bind (Reads.lift _ _) fun _ =>
    .bind (insert_served rfl) fun _ => .pure fun _ h => h

theorem setValue_keeps (x : Handle) (value : UInt64) : Keeps (setValue x value : Act ω _) := by
  refine guard_keeps _ _ fun _ _ _ => .bind (Reads.get part x _) fun _ => ?_
  refine update_served x fun o => ⟨rfl, fun _ found hf => ?_⟩
  cases hf

theorem setProgressCallback_keeps (x : Handle) (callback : Option Foreign) :
    Keeps (setProgressCallback x callback : Act ω _) :=
  guard_keeps _ _ fun _ _ _ => .bind (Reads.get part x _) fun _ =>
    update_served x fun _ => ⟨rfl, fun h found hf => h found hf⟩

theorem entryPoint_keeps (c : Component) (cell : Exchange.Cell (Option Address)) :
    Keeps (entryPoint c cell : Act ω _) := by
  intro h n k s hs
  unfold entryPoint
  dsimp only
  split
  · exact hs
  · exact hs.same rfl rfl

/-- Case by case over the calls of the component. -/
theorem perform_keeps {out : Outside ω} (hout : ∀ f p, Keeps (out.progress f p))
    (via : Invoker (Process ω)) (c : Call ρ) (hc : c.target ∈ Export.ofComponent .primes) :
    Keeps (perform out via c) := by
  cases c with
  | entryPoint c cell => exact entryPoint_keeps c cell
  | getVersion c major minor micro =>
    obtain rfl : c = .primes := by
      simpa [Call.target, Export.ofComponent, Export.fixed, Export.specific] using hc
    exact idle_keeps fun _ => Fixed.getVersion_routed _ major minor micro
  | getLastError c h capacity place hasError =>
    exact fun _ _ _ s hs => by rwa [getLastError_same]
  | acquireInstance c h =>
    obtain rfl : c = .primes := by
      simpa [Call.target, Export.ofComponent, Export.fixed, Export.specific] using hc
    exact guard_keeps h () fun _ _ _ => acquire_served h
  | releaseInstance c h =>
    obtain rfl : c = .primes := by
      simpa [Call.target, Export.ofComponent, Export.fixed, Export.specific] using hc
    exact guard_keeps h () fun _ _ _ => release_served h
  | classTypeId c h tag =>
    obtain rfl : c = .primes := by
      simpa [Call.target, Export.ofComponent, Export.fixed, Export.specific] using hc
    exact idle_keeps fun _ => Fixed.classTypeId_routed h tag
  | createFactorization cell => exact create_keeps .factorization cell
  | createSieve cell => exact create_keeps .sieve cell
  | getValue h cell => exact idle_keeps fun _ => getValue_routed h cell
  | setValue h value => exact setValue_keeps h value
  | calculate h => exact calculate_keeps hout h
  | setProgressCallback h callback => exact setProgressCallback_keeps h callback
  | primeFactors h capacity place => exact idle_keeps fun _ => primeFactors_routed h capacity place
  | primes h capacity place => exact idle_keeps fun _ => primes_routed h capacity place
  | _ => simp [Call.target, Export.ofComponent, Export.fixed, Export.specific] at hc

/-- Induction on the calls made, those of callbacks included. -/
theorem Reach.served {s u : Process ω} (r : Reach s u) {h : Handle} {n : Nat} {k : Kind}
    (hs : Served h n k s) : Served h n k u := by
  induction r generalizing h n k with
  | refl s => exact hs
  | call out via c _ hc _ ih hout =>
    exact perform_keeps (fun f p h n k v hv => hout f p v hv) via c hc h n k _ (ih hs)
  | turn thread w _ ih => exact (ih hs).same rfl rfl

/-! ## The getters -/

section

variable {x : Handle} {capacity : UInt64} {s : Process ω}

theorem get_reads :
    Does (fun s' => s' = s) (part.get x) (fun o s' => s' = s ∧ s.primes.get? x = some o)
      fun why _ => why.code ≠ Status.ok :=
  (part.get_finds x).mono (fun _ h => h) (fun _ _ h => ⟨h.1, h.1 ▸ h.2⟩) fun _ _ h => h.1

/-- Factors answered are those stored in the object. -/
theorem primeFactors_answer {place after : Place UInt64 PrimeFactor}
    (h : (primeFactors x capacity place s).1 = (Status.ok, after)) :
    ∃ o fs, s.primes.get? x = some o ∧ o.result = some (.factors fs) ∧
      Exchange.serveArray fs capacity place = .ok after := by
  refine Part.guard_ok (Q := fun a => ∃ o fs, s.primes.get? x = some o ∧
    o.result = some (.factors fs) ∧ Exchange.serveArray fs capacity place = .ok a) ?_ h
  refine .bind get_reads fun o => ?_
  refine .ite (fun _ => .throw_bind fun _ _ => by decide) fun _ => ?_
  split
  · next fs hr =>
    refine .lift (fun a ha s' hs => ?_) fun e he s' hs => ?_
    · exact ⟨o, fs, hs.2, hr, ha⟩
    · exact Exchange.serveArray_code he
  · exact .throw fun _ _ => by decide

/-- Primes answered are those stored in the object. -/
theorem primes_answer {place after : Place UInt64 UInt64}
    (h : (primes x capacity place s).1 = (Status.ok, after)) :
    ∃ o ps, s.primes.get? x = some o ∧ o.result = some (.primes ps) ∧
      Exchange.serveArray ps capacity place = .ok after := by
  refine Part.guard_ok (Q := fun a => ∃ o ps, s.primes.get? x = some o ∧
    o.result = some (.primes ps) ∧ Exchange.serveArray ps capacity place = .ok a) ?_ h
  refine .bind get_reads fun o => ?_
  refine .ite (fun _ => .throw_bind fun _ _ => by decide) fun _ => ?_
  split
  · next ps hr =>
    refine .lift (fun a ha s' hs => ?_) fun e he s' hs => ?_
    · exact ⟨o, ps, hs.2, hr, ha⟩
    · exact Exchange.serveArray_code he
  · exact .throw fun _ _ => by decide

end

/-! ## Results -/

theorem Served.start (w : ω) : Served Handle.null 0 .sieve ({ outer := w } : Process ω) where
  serial x a hx := by simp at hx
  current x a hx := by simp at hx
  known := Nat.le_refl 0
  kind a hx := by simp at hx

/-- In every state that primes exports lead to, with callbacks that make any calls of them, a
    stored result is the complete one for the value stored beside it and of its object's
    kind; and the getters answer such results alone. -/
theorem result_current {w : ω} {s : Process ω} (r : Reach { outer := w } s) :
    (∀ x o, s.primes.get? x = some o → ∀ found, o.result = some found →
      Complete o.kind o.value found) ∧
    (∀ x capacity place after, (primeFactors x capacity place s).1 = (Status.ok, after) →
      ∃ o fs, s.primes.get? x = some o ∧ o.kind = .factorization ∧
        fs.map PrimeFactor.pair = primePowers o.value.toNat ∧
        Exchange.serveArray fs capacity place = .ok after) ∧
    ∀ x capacity place after, (primes x capacity place s).1 = (Status.ok, after) →
      ∃ o ps, s.primes.get? x = some o ∧ o.kind = .sieve ∧
        ps.map UInt64.toNat = primesTo o.value.toNat ∧
        Exchange.serveArray ps capacity place = .ok after := by
  have hcur : ∀ x o, s.primes.get? x = some o → ∀ found, o.result = some found →
      Complete o.kind o.value found := by
    intro x o ho
    rw [Table.get?, Option.map_eq_some_iff] at ho
    obtain ⟨a, ha, rfl⟩ := ho
    exact (r.served (Served.start w)).current x a ha
  refine ⟨hcur, fun x capacity place after h => ?_, fun x capacity place after h => ?_⟩
  · obtain ⟨o, fs, ho, hr, hserve⟩ := primeFactors_answer h
    obtain ⟨hk, hfs⟩ := hcur x o ho _ hr
    exact ⟨o, fs, ho, hk, hfs, hserve⟩
  · obtain ⟨o, ps, ho, hr, hserve⟩ := primes_answer h
    obtain ⟨hk, hps⟩ := hcur x o ho _ hr
    exact ⟨o, ps, ho, hk, hps, hserve⟩

def still : Outside Unit :=
  ⟨fun _ c => pure (Status.notImplemented, c.cells), fun _ x => pure x, fun _ _ => pure false⟩

/-- A callback that, at every report, makes the first object calculate for another value and
    changes its value back. -/
def meddling : Outside Unit :=
  { still with progress := fun _ _ => do
    discard (perform still .none (.setValue ⟨1⟩ 5))
    discard (perform still .none (.calculate ⟨1⟩))
    discard (perform still .none (.setValue ⟨1⟩ 12))
    return false }

theorem Reach.meddling (v : Process Unit) (f : Foreign) (p : Progress) :
    Reach v (Primes.meddling.progress f p v).2 := by
  refine .call still .none (.setValue ⟨1⟩ 12) ?_ (by decide) fun _ _ v => .refl v
  refine .call still .none (.calculate ⟨1⟩) ?_ (by decide) fun _ _ v => .refl v
  exact .call still .none (.setValue ⟨1⟩ 5) (.refl v) (by decide) fun _ _ v => .refl v

def meddled : Process Unit :=
  let s : Process Unit := { outer := () }
  let s := (perform meddling .none (.createFactorization (some Handle.null)) s).2
  let s := (perform meddling .none (.setProgressCallback ⟨1⟩ (some .lookup)) s).2
  let s := (perform meddling .none (.setValue ⟨1⟩ 12) s).2
  (perform meddling .none (.calculate ⟨1⟩) s).2

theorem reach_meddled : Reach { outer := () } meddled := by
  refine .call _ .none (.calculate ⟨1⟩) ?_ (by decide) fun f p v => .meddling v f p
  refine .call _ .none (.setValue ⟨1⟩ 12) ?_ (by decide) fun f p v => .meddling v f p
  refine .call _ .none (.setProgressCallback ⟨1⟩ (some .lookup)) ?_ (by decide)
    fun f p v => .meddling v f p
  exact .call _ .none (.createFactorization (some Handle.null)) (.refl _) (by decide)
    fun f p v => .meddling v f p

theorem result_meddled :
    meddled.primes.get? ⟨1⟩
      = some ⟨.factorization, 12, some .lookup, some (.factors [⟨2, 2⟩, ⟨3, 1⟩])⟩ ∧
    Complete .factorization 12 (.factors [⟨2, 2⟩, ⟨3, 1⟩]) := by
  have hget : meddled.primes.get? ⟨1⟩
      = some ⟨.factorization, 12, some .lookup, some (.factors [⟨2, 2⟩, ⟨3, 1⟩])⟩ := by
    decide +kernel
  exact ⟨hget, (result_current reach_meddled).1 ⟨1⟩ _ hget _ rfl⟩

end Boundary.Primes
