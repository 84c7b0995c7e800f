/-
  Boundary.Proofs.Calculator.Injection — the lookup method that calculators read through.

  A lookup method is taken on if it leads to a primes component that can be read: it answers an
  address for the version function of that component, and that function answers a version that
  serves (`Compatible`). What the two do meanwhile is theirs to choose: they may make calls of any
  kind, and inject other lookup methods. So may callables, callbacks and whatever else is called in
  the middle of a call.

  The record is ghost state: beside its own state the host keeps the lookup methods that it
  injected, newest first. A call that hands one over adds it if it succeeds (`Call.recorded`),
  when it is over: those that were injected in the middle of it are older.

  Proved: a lookup method is injected if and only if it is compatible, the newest of the record
  is the one that calculators read through, and they call no other one (`injected_checked`).
-/
import Boundary.Proofs.Course.Perform
import Boundary.Proofs.Course.Loss

namespace Boundary

open Exchange (Cell)

variable {ω ρ : Type} {out : Outside ω} {via via' : Invoker (Process ω)} {s s' : Process ω}
  {a f : Address} {name : String} {v : Version} {ns : TextArg} {lookup : Option Address}
  {c x : Handle} {P : Process ω → Prop}

namespace Calculator

/-! ## Lookup methods -/

def Answers (via : Invoker (Process ω)) (a : Address) (name : String) (s : Process ω) (f : Address)
    (s' : Process ω) : Prop :=
  via.call a (.lookupSymbol (.text primesNs) (.text name) (some none)) s =
    ((Status.ok, some (some f)), s')

theorem resolve_answered (h : Answers via a name s f s') : resolve via a name s = (.ok f, s') :=
  (run_bind_ok (run_lift h)).trans rfl

/-- A status that is no success, and an address that is null, are no answers. -/
theorem resolve_unanswered (h : ∀ f s', ¬ Answers via a name s f s') :
    ∃ s', resolve via a name s = (.error (.unregistered primesNs name), s') := by
  rcases hcall : via.call a (.lookupSymbol (.text primesNs) (.text name) (some none)) s with
    ⟨⟨status, cell⟩, s'⟩
  refine ⟨s', (run_bind_ok (run_lift hcall)).trans ?_⟩
  dsimp only
  rcases cell with _ | _ | f
  · rfl
  · rfl
  · have hne : status ≠ Status.ok := by
      rintro rfl
      exact h f s' hcall
    exact congrFun (if_neg hne) s'

/-- The lookup method leads to a primes component of a version that can be read, the first major
    one and its second minor one or a later. Asking for it leaves `s'`. -/
def Compatible (via : Invoker (Process ω)) (a : Address) (s : Process ω) (v : Version)
    (s' : Process ω) : Prop :=
  ∃ f t major minor micro, Answers via a "getversion" s f t ∧
    via.call f (.getVersion .primes (some 0) (some 0) (some 0)) t =
      ((Status.ok, major, minor, micro), s') ∧
    v = ⟨major.getD 0, minor.getD 0, micro.getD 0⟩ ∧ v.major = 1 ∧ 2 ≤ v.minor

theorem serves_primesVersion (v : Version) :
    v.serves primesVersion = true ↔ v.major = 1 ∧ 2 ≤ v.minor := by
  unfold Version.serves
  rw [Bool.and_eq_true, beq_iff_eq, decide_eq_true_iff]
  rfl

/-! ## Single calls -/

/-- A compatible lookup method is taken on. -/
theorem injectComponent_run (h : Compatible via a s v s') :
    injectComponent via (.text primesNs) (some a) s =
      ((Status.ok, ()), Journal.note (.injected v) { s' with injected := some a }) := by
  obtain ⟨f, t, major, minor, micro, hanswers, hversion, rfl, hserves⟩ := h
  refine Part.guard_of_ok ?_
  refine (run_bind_ok (run_lift_ok (rfl : TextArg.read (.text primesNs) = .ok primesNs) s)).trans ?_
  rw [if_neg (by simp)]
  refine (run_bind_ok (resolve_answered hanswers)).trans ?_
  refine (run_bind_ok (run_lift hversion)).trans ?_
  dsimp only
  rw [if_neg (by simp), if_neg (by simp [(serves_primesVersion _).mpr hserves])]
  rfl

/-- Where the call succeeds, the lookup method was compatible. -/
theorem injectComponent_checks (via : Invoker (Process ω)) (ns : TextArg) (lookup : Option Address)
    (s : Process ω) (hok : (injectComponent via ns lookup s).1.1 = Status.ok) :
    ns = .text primesNs ∧ ∃ a v s', lookup = some a ∧ Compatible via a s v s' := by
  have hop : Ends (fun u => u = s) (injectComponent via ns lookup) fun r _ => r.1 = Status.ok →
      ns = .text primesNs ∧ ∃ a v s', lookup = some a ∧ Compatible via a s v s' := by
    refine Part.guard_succeeds (Q := fun _ _ => ns = .text primesNs ∧
      ∃ a v s', lookup = some a ∧ Compatible via a s v s')
      (.bind (Q := fun t u => ns = .text t ∧ u = s) ?_ fun t => ?_)
    · cases ns with
      | text t => exact .lift (fun _ h _ hu => ⟨by cases h; rfl, hu⟩) fun _ h => by cases h
      | _ => exact .lift (fun _ h => by cases h) fun _ h _ _ => TextArg.read_code h
    refine .assume fun hns => .ite
      (fun _ => .throw_bind fun _ _ => (by decide : Status.invalidParam ≠ Status.ok)) fun ht => ?_
    have hprimes : ns = .text primesNs := by
      rw [hns, not_not.mp ht]
    split
    · next a =>
      refine Does.bind (Q := fun f u => Answers via a "getversion" s f u) ?_ fun f => ?_
      · refine .of_run fun u hu => ?_
        subst hu
        by_cases hanswers : ∃ f s', Answers via a "getversion" u f s'
        · obtain ⟨f, s', h⟩ := hanswers
          exact .inl ⟨f, s', resolve_answered h, h⟩
        · obtain ⟨s', h⟩ := resolve_unanswered fun f s' h => hanswers ⟨f, s', h⟩
          exact .inr ⟨_, s', h, (by decide : Status.symbolNotFound ≠ Status.ok)⟩
      refine Does.bind (Q := fun r u => ∃ t, Answers via a "getversion" s f t ∧
        via.call f (.getVersion .primes (some 0) (some 0) (some 0)) t = (r, u))
        (.monadLift fun t ht => ⟨t, ht, rfl⟩) fun (status, major, minor, micro) => ?_
      refine .ite (fun hne => .throw_bind fun _ _ => hne) fun hstatus => ?_
      refine .ite (fun _ => .throw_bind fun _ _ =>
        (by decide : Status.incompatibleVersion ≠ Status.ok)) fun hserves => ?_
      refine .of_run fun u hu => .inl ⟨_, _, rfl, hprimes, a,
        ⟨major.getD 0, minor.getD 0, micro.getD 0⟩, u, rfl, ?_⟩
      obtain ⟨t, hanswers, hversion⟩ := hu
      rw [not_not.mp hstatus] at hversion
      refine ⟨f, t, major, minor, micro, hanswers, hversion, rfl, ?_⟩
      exact (serves_primesVersion _).mp (by simpa using hserves)
    · exact .throw fun _ _ => (by decide : Status.invalidParam ≠ Status.ok)
  exact hop s rfl hok

/-- What is called to find out about a lookup method keeps what is known. -/
structure Inquires (via : Invoker (Process ω)) (P : Process ω → Prop) : Prop where
  lookup : ∀ a, Ends P
    (via.call a (.lookupSymbol (.text primesNs) (.text "getversion") (some none))) fun _ => P
  version : ∀ a, Ends P (via.call a (.getVersion .primes (some 0) (some 0) (some 0))) fun _ => P

/-- The call succeeds and the lookup method is taken on, or what is known is kept as far as the
    functions do that are called in turn. -/
theorem injectComponent_told (inquires : Inquires via P)
    (hfail : ∀ why s, P s → P (part.fail Handle.null why s).2) (ns : TextArg)
    (lookup : Option Address) :
    Ends P (injectComponent via ns lookup) fun r s =>
      if r.1 = Status.ok then lookup.isSome = true ∧ s.injected = lookup else P s := by
  refine (Part.guard_told (E := P) (Q := fun _ s => lookup.isSome = true ∧ s.injected = lookup)
    ?_ hfail).post fun _ _ h => h
  refine .bind (Q := fun _ => P) (.lift (fun _ _ _ h => h) fun _ h _ hs => ⟨TextArg.read_code h, hs⟩)
    fun _ => ?_
  refine .ite (fun _ => .throw_bind fun _ hs =>
    ⟨(by decide : Status.invalidParam ≠ Status.ok), hs⟩) fun _ => ?_
  split
  · next a =>
    refine Does.bind (resolve_fares (A := fun _ => True) fun s h =>
      ⟨fun _ _ => trivial, inquires.lookup a s h⟩) fun f => .assume fun _ => ?_
    refine Does.bind (.monadLift (inquires.version f)) fun (status, major, minor, micro) => ?_
    refine .ite (fun hne => .throw_bind fun _ hs => ⟨hne, hs⟩) fun _ => ?_
    refine .ite (fun _ => .throw_bind fun _ hs =>
      ⟨(by decide : Status.incompatibleVersion ≠ Status.ok), hs⟩) fun _ => ?_
    exact .of_run fun s _ => .inl ⟨_, _, rfl, rfl, rfl⟩
  · exact .throw fun _ hs => ⟨(by decide : Status.invalidParam ≠ Status.ok), hs⟩

/-! ## What is called -/

section

def SameBut (a : Address) (via via' : Invoker (Process ω)) : Prop :=
  ∀ {ρ : Type} b (d : Call ρ), b = a ∨ d.target ≠ .lookupSymbol → via'.call b d = via.call b d

variable (h : SameBut a via via')
include h

theorem resolve_congr (name : String) : resolve via' a name = resolve via a name := by
  unfold resolve
  rw [h a _ (.inl rfl)]

theorem readMessage_congr : readMessage via' a x = readMessage via a x := by
  have hlast (f : Address) (capacity : UInt32) (place : Exchange.Place UInt32 UInt8)
      (flag : Cell Bool) : via'.call f (.getLastError .primes x capacity place flag) =
        via.call f (.getLastError .primes x capacity place flag) :=
    h f _ (.inr (by simp [Call.target]))
  unfold readMessage
  simp only [resolve_congr h, hlast]

theorem readPrimes_congr : readPrimes via' a x = readPrimes via a x := by
  have hprimes (f : Address) (capacity : UInt64) (place : Exchange.Place UInt64 UInt64) :
      via'.call f (.primes x capacity place) = via.call f (.primes x capacity place) :=
    h f _ (.inr (by simp [Call.target]))
  unfold readPrimes passOn
  simp only [resolve_congr h, readMessage_congr h, hprimes]

end

/-- A calculator reads through no lookup method but the injected one. -/
theorem enlistPrimes_congr (h : ∀ a, s.injected = some a → SameBut a via via') :
    enlistPrimes via' c x s = enlistPrimes via c x s := by
  refine Part.guard_congr (run_bind_congr fun vs t ht => ?_)
  obtain rfl : t = s := (enlistedIn_reads c).after_ok ht
  refine (run_bind_ok (show _ = (Except.ok t, t) from rfl)).trans
    (Eq.trans ?_ (run_bind_ok (show _ = (Except.ok t, t) from rfl)).symm)
  cases hinjected : t.injected with
  | none => rfl
  | some a =>
    dsimp only
    rw [readPrimes_congr (h a hinjected)]

end Calculator

/-! ## The record -/

def Call.recorded (c : Call ρ) (status : Status) (s : Process (List Address × ω)) :
    Process (List Address × ω) :=
  { s with outer :=
      (if status = Status.ok then c.handedOver.toList ++ s.outer.1 else s.outer.1, s.outer.2) }

/-- What calls leave of a process, whose host keeps its record. Callables, callbacks and what is
    called in turn make such calls again, in any state they find. -/
inductive Recorded : Process (List Address × ω) → Process (List Address × ω) → Prop
  | refl (s : Process (List Address × ω)) : Recorded s s
  | call {s u : Process (List Address × ω)} (out : Outside (List Address × ω))
      (via : Invoker (Process (List Address × ω))) {ρ : Type} (c : Call ρ) :
      Recorded s u → (∀ a x t, Recorded t (out.apply a x t).2) →
      (∀ f p t, Recorded t (out.progress f p t).2) →
      (∀ {ρ : Type} a (d : Call ρ) t, Recorded t (via.call a d t).2) →
      Recorded s (c.recorded (perform out via c u).1.1 (perform out via c u).2)
  | turn {s u : Process (List Address × ω)} (thread : Nat) (w : ω) : Recorded s u →
      Recorded s { u with
        shared := { u.shared with thread := thread }, outer := (u.outer.1, w) }
  | note {s u : Process (List Address × ω)} (n : Note) : Recorded s u →
      Recorded s (Journal.note n u)

/-- The newest of the record is what calculators read through. -/
def Newest (s : Process (List Address × ω)) : Prop := s.injected = s.outer.1.head?

def Beside (s s' : Process ω) : Prop := s'.injected = s.injected ∧ s'.outer = s.outer

theorem beside_allowsLoss {O : Type} {p : Part (Process ω) O}
    (hp : ∀ st s, Beside s (p.put st s)) : AllowsLoss p Beside where
  refl _ := ⟨rfl, rfl⟩
  trans h h' := ⟨h'.1.trans h.1, h'.2.trans h.2⟩
  put _ _ := hp _ _

theorem Component.fail_beside (c : Component) (x : Handle) (why : Fault) (s : Process ω) :
    Beside s (c.fail x why s).2 := by
  cases c with
  | zoo => exact (beside_allowsLoss (p := Process.zooPart) fun _ _ => ⟨rfl, rfl⟩).fail x why s
  | calculator =>
    exact (beside_allowsLoss (p := Process.calculatorPart) fun _ _ => ⟨rfl, rfl⟩).fail x why s
  | primes => exact (beside_allowsLoss (p := Process.primesPart) fun _ _ => ⟨rfl, rfl⟩).fail x why s

namespace Newest

variable {s u : Process (List Address × ω)} {out : Outside (List Address × ω)}
  {via : Invoker (Process (List Address × ω))}

theorem beside (h : Newest s) (hs : Beside s u) : Newest u := by
  rw [Newest, hs.1, hs.2]
  exact h

/-- Nothing but a lookup method that is taken on is of any matter. -/
theorem outlastsCalls (happly : ∀ a x, Ends Newest (out.apply a x) fun _ => Newest)
    (hprogress : ∀ f p, Ends Newest (out.progress f p) fun _ => Newest) :
    OutlastsCalls out (fun _ => True) Newest where
  zoo := (beside_allowsLoss fun _ _ => ⟨rfl, rfl⟩).outlastsRefs beside
  calculator := (beside_allowsLoss fun _ _ => ⟨rfl, rfl⟩).outlastsRefs beside
  primes := (beside_allowsLoss fun _ _ => ⟨rfl, rfl⟩).outlastsRefs beside
  makeCalculator _ _ _ h := h
  makePrimes _ _ h := h
  changeCalculator _ _ _ _ h := h
  changePrimes _ _ _ _ h := h
  found _ _ _ _ _ h := h
  entryPoint c address s h := by
    unfold entryPoint
    dsimp only
    split
    · exact h
    · exact h
  registerSymbol _ _ _ _ h := h
  injected _ _ _ _ := trivial
  apply := happly
  progress := hprogress

/-- A call keeps it with what the host records, as far as callables, callbacks and the functions that
    are called in turn do. -/
theorem performs (happly : ∀ a x, Ends Newest (out.apply a x) fun _ => Newest)
    (hprogress : ∀ f p, Ends Newest (out.progress f p) fun _ => Newest)
    (hvia : ∀ {ρ : Type} a (d : Call ρ), Ends Newest (via.call a d) fun _ => Newest) (c : Call ρ) :
    Ends Newest (perform out via c) fun r s => Newest (c.recorded r.1 s) := by
  cases hc : c.handedOver with
  | none =>
    have inner : Inner via Newest (fun _ => True) c.sieve :=
      ⟨fun a _ _ s h => ⟨fun _ _ => trivial, hvia a _ s h⟩, fun _ a _ => hvia a _,
        fun a _ _ _ _ => hvia a _, fun a _ _ _ => hvia a _⟩
    have hkeeps : Ends Newest (perform out via c) fun _ => Newest :=
      (outlastsCalls happly hprogress).keeps (fun _ => inner)
        ⟨fun _ _ _ h => h, fun _ _ _ _ h => h, fun _ _ _ h => h⟩
        (fun a ha => by rw [hc] at ha; cases ha)
        fun site _ why s h => h.beside (site.1.fail_beside site.2 why s)
    refine hkeeps.post fun r s h => ?_
    unfold Call.recorded Newest
    rw [hc]
    split <;> exact h
  | some a =>
    cases c <;> cases hc
    case some.injectComponent.refl ns =>
      refine (Calculator.injectComponent_told ⟨fun a => hvia a _, fun a => hvia a _⟩
        (fun why s h => h.beside (Component.fail_beside .calculator _ why s)) ns
        (some a)).post fun r s h => ?_
      unfold Call.recorded Newest
      by_cases hok : r.1 = Status.ok
      · rw [if_pos hok] at h ⊢
        exact h.2
      · rw [if_neg hok] at h ⊢
        exact h

end Newest

/-- Induction on the calls made, those made in the middle of others included. -/
theorem Recorded.newest {s u : Process (List Address × ω)} (r : Recorded s u) (h : Newest s) :
    Newest u := by
  induction r with
  | refl s => exact h
  | call out via c _ _ _ _ ih happly hprogress hvia =>
    exact Newest.performs (fun a x t ht => happly a x t ht) (fun f p t ht => hprogress f p t ht)
      (fun a d t ht => hvia a d t ht) c _ (ih h)
  | turn thread w _ ih => exact ih h
  | note n _ ih => exact ih h

open Calculator (Compatible Inquires SameBut primesNs)

/-- In every state that calls lead to, calculators read through the lookup method that was injected
    last, if there was one. Injecting one succeeds if and only if the namespace is that of the
    primes component and the lookup method is compatible; it is injected then. A call that fails
    leaves the one before it, unless what it calls injects another. A calculator that enlists
    primes calls no lookup method but the injected one: whatever others there are, it comes to the
    same. -/
theorem injected_checked {w : ω} {s : Process (List Address × ω)}
    (r : Recorded { outer := ([], w) } s) :
    s.injected = s.outer.1.head? ∧
    (∀ out via ns lookup,
      let u := perform out via (.injectComponent ns lookup) s
      (u.1.1 = Status.ok ↔
        ns = .text primesNs ∧ ∃ a v s', lookup = some a ∧ Compatible via a s v s') ∧
      (u.1.1 = Status.ok → u.2.injected = lookup) ∧
      (u.1.1 ≠ Status.ok → Inquires via (fun t => t.injected = s.injected) →
        u.2.injected = s.injected)) ∧
    ∀ out via via' c x, (∀ a, s.outer.1.head? = some a → SameBut a via via') →
      perform out via' (.enlistPrimes c x) s = perform out via (.enlistPrimes c x) s := by
  have hnewest : Newest s := r.newest rfl
  refine ⟨hnewest, fun out via ns lookup => ⟨⟨?_, ?_⟩, fun hok => ?_, fun hne inquires => ?_⟩,
    fun out via via' c x h => ?_⟩
  · exact Calculator.injectComponent_checks via ns lookup s
  · rintro ⟨rfl, a, v, s', rfl, h⟩
    exact congrArg (fun u => u.1.1) (Calculator.injectComponent_run h)
  · have inquires : Inquires via fun _ => True :=
      ⟨fun _ _ _ => trivial, fun _ _ _ => trivial⟩
    have htold := Calculator.injectComponent_told inquires (fun _ _ _ => trivial) ns lookup s trivial
    have hok : (Calculator.injectComponent via ns lookup s).1.1 = Status.ok := hok
    dsimp only at htold
    rw [if_pos hok] at htold
    exact htold.2
  · have htold := Calculator.injectComponent_told inquires
      (fun why t ht => (Component.fail_beside .calculator _ why t).1.trans ht) ns lookup s rfl
    have hne : (Calculator.injectComponent via ns lookup s).1.1 ≠ Status.ok := hne
    dsimp only at htold
    rw [if_neg hne] at htold
    exact htold
  · exact Calculator.enlistPrimes_congr fun a ha => h a (hnewest ▸ ha)

def bystander : Outside (List Address × Unit) where
  call _ d := pure (Status.notImplemented, d.cells)
  apply _ x := pure x
  progress _ _ := pure false

/-- Every address is that of a lookup method that answers itself, and of a version function. Only the
    registry's answers a version that can be read. -/
def versions : Invoker (Process (List Address × Unit)) where
  call a d := match d with
    | .lookupSymbol _ _ _ => pure (Status.ok, some (some a))
    | .getVersion _ _ _ _ =>
      pure (Status.ok, some 1, some (if a = .registryLookup then 2 else 1), some 0)
    | d => pure (Status.notImplemented, d.cells)

def equipped : Process (List Address × Unit) :=
  let c : Call Unit := .injectComponent (.text "primes") (some .registryLookup)
  let u := perform bystander versions c { outer := ([], ()) }
  c.recorded u.1.1 u.2

/-- A lookup method that leads to an older version is refused, and the one before it stays. -/
theorem injected_outdated :
    equipped.injected = some .registryLookup ∧
    (perform bystander versions (.injectComponent (.text "primes") (some (.foreign .lookup)))
      equipped).1.1 = Status.incompatibleVersion ∧
    (perform bystander versions (.injectComponent (.text "primes") (some (.foreign .lookup)))
      equipped).2.injected = some .registryLookup := by
  have r : Recorded { outer := ([], ()) } equipped :=
    .call bystander versions _ (.refl _) (fun _ _ t => .refl t) (fun _ _ t => .refl t)
      fun _ d t => by cases d <;> exact .refl t
  have inquires : Inquires versions fun t => t.injected = equipped.injected :=
    ⟨fun _ _ ht => ht, fun _ _ ht => ht⟩
  have hrecord : equipped.outer.1 = [.registryLookup] := by decide +kernel
  have hstatus : (perform bystander versions
      (.injectComponent (.text "primes") (some (.foreign .lookup))) equipped).1.1 =
        Status.incompatibleVersion := by decide +kernel
  obtain ⟨hnewest, hinject, -⟩ := injected_checked r
  obtain ⟨-, -, hleft⟩ := hinject bystander versions (.text "primes") (some (.foreign .lookup))
  rw [hrecord] at hnewest
  have hne : Status.incompatibleVersion ≠ Status.ok := by decide
  exact ⟨hnewest, hstatus, (hleft (hstatus ▸ hne) inquires).trans hnewest⟩

end Boundary
