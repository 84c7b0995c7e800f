/-
  Boundary.Proofs.Host.LoadOrder — a load is decided by its first step that fails.

  A library is loaded in steps (`steps`): its fixed functions are resolved one by one, the version
  is asked for and compared if that was ordered, and the component's own functions are resolved one
  by one. Behind the lookup method may be anything (`Binary`): it tells of each symbol what it likes,
  the same while the objects and the registry are untouched, and the function for the version answers
  what it likes, with any state outside of these.

  Proved: the load fails with the failure of the first step that fails, and if there is none it
  succeeds with the addresses that were told; either way objects and registry are untouched; and
  without a check no version is asked for (`load_ordered`).
-/
import Boundary.Proofs.Host.Asking
import Boundary.Proofs.Registry.Loading

namespace Boundary

open Exchange (Cell Erases Host)

variable {σ ω α β : Type}

structure Process.Untouched (s s' : Process ω) : Prop where
  zoo : s'.zoo = s.zoo
  calculator : s'.calculator = s.calculator
  primes : s'.primes = s.primes
  registry : s'.registry = s.registry

namespace Process.Untouched

theorem refl (s : Process ω) : s.Untouched s := ⟨rfl, rfl, rfl, rfl⟩

theorem outlastsNotes (s : Process ω) : OutlastsNotes s.Untouched := fun _ _ _ h =>
  ⟨h.zoo, h.calculator, h.primes, h.registry⟩

end Process.Untouched

namespace Host

/-! ## Steps of a load -/

abbrev Directory := Symbol → Status × Option Address

def Directory.missing (told : Directory) (x : Symbol) : Option Failure :=
  if (told x).1 = Status.ok ∧ (told x).2 ≠ none then none
  else if (told x).1 = Status.ok ∨ (told x).1 = Status.symbolNotFound then
    some (.symbolNotFound x.ns x.name)
  else some (.native registryNs (told x).1 (some ("lookup of " ++ x.text ++ " failed")))

def Directory.locate (told : Directory) (f : Export) : Export × Address :=
  (f, (told f.symbol).2.getD (.native f))

/-- The outcome, if `failure` is what fails first. -/
def verdict (failure : Option Failure) (a : α) : Except Failure α := failure.elim (.ok a) .error

/-- Of two computations one after the other the first failure is what counts; the second is run if the
    first does not fail. -/
theorem verdict_bind {x : Host σ α} {f : α → Host σ β} {first later : Option Failure} {a : α} {b : β}
    {s s₁ : σ} {P : σ → Prop} (hx : x s = (verdict first a, s₁)) (hs₁ : P s₁)
    (hf : first = none → ∃ s₂, f a s₁ = (verdict later b, s₂) ∧ P s₂) :
    ∃ s₂, (x >>= f) s = (verdict (first.or later) b, s₂) ∧ P s₂ := by
  cases first with
  | some why => exact ⟨s₁, run_bind_error hx, hs₁⟩
  | none =>
    obtain ⟨s₂, hrun, hs₂⟩ := hf rfl
    exact ⟨s₂, (run_bind_ok hx).trans hrun, hs₂⟩

/-- An answer to the question for the version: the status, the numbers, and the message that can be
    had for the status. -/
structure VersionAnswer where
  status : Status
  version : Version
  message : Option String

def VersionAnswer.Serves (answer : VersionAnswer) (binding : Version) : Prop :=
  answer.status = Status.ok ∧ answer.version.major = binding.major ∧
    binding.minor ≤ answer.version.minor

namespace Library

inductive Step where
  | resolve (f : Export)
  | askVersion
  | compareVersion
  deriving DecidableEq, Repr

def checks (options : LoadOptions) : List Step :=
  if options.verify then [.askVersion, .compareVersion] else []

def steps (c : Component) (options : LoadOptions) : List Step :=
  (Export.fixed c).map .resolve ++ checks options ++ (Export.specific c).map .resolve

def Step.failure (c : Component) (told : Directory) (answer : VersionAnswer) :
    Step → Option Failure
  | resolve f => told.missing f.symbol
  | askVersion =>
    if answer.status = Status.ok then none
    else some (.native c.name answer.status answer.message)
  | compareVersion =>
    if answer.version.major = c.binding.major ∧ c.binding.minor ≤ answer.version.minor then none
    else some (.incompatibleVersion c.name answer.version c.binding)

def versionAnswer [Journal σ] (via : Invoker σ) (l : Library) (s : σ) : VersionAnswer :=
  let ((status, major, minor, micro), s') :=
    l.call via (.getVersion l.component (some 0) (some 0) (some 0)) s
  ⟨status, ⟨major.getD 0, minor.getD 0, micro.getD 0⟩,
    (l.messageFor via Handle.null status s').1⟩

def located (told : Directory) (c : Component) (options : LoadOptions) (lookup : Address)
    (fs : List Export) : Library :=
  ⟨c, options, lookup, fs.map told.locate⟩

/-- What is behind a lookup method while nothing touches the objects and the registry of `s`. -/
structure Binary (via : Invoker (Process ω)) (lookup : Address) (told : Directory) (c : Component)
    (s : Process ω) : Prop where
  lookups : ∀ x s', s.Untouched s' →
    via.call lookup (.lookupSymbol (.text x.ns) (.text x.name) (some none)) s' =
      (((told x).1, some (told x).2), s')
  version : ∀ a, told (Export.getVersion c).symbol = (Status.ok, some a) → ∀ major minor micro,
    Ends s.Untouched (via.call a (.getVersion c major minor micro)) fun _ => s.Untouched
  lastError : ∀ a, told (Export.getLastError c).symbol = (Status.ok, some a) →
    ∀ h capacity place flag,
    Ends s.Untouched (via.call a (.getLastError c h capacity place flag)) fun _ => s.Untouched

/-! ## What succeeds -/

section

variable {told : Directory} {x : Symbol} {fs : List Export} {c : Component} {options : LoadOptions}
  {answer : VersionAnswer}

theorem missing_eq_none : told.missing x = none ↔ ∃ a, told x = (Status.ok, some a) := by
  unfold Directory.missing
  rcases told x with ⟨status, _ | a⟩ <;> by_cases hok : status = Status.ok <;>
    by_cases hmissing : status = Status.symbolNotFound <;> simp [hok, hmissing]

theorem resolves_eq_none :
    (fs.map Step.resolve).findSome? (Step.failure c told answer) = none ↔
      ∀ f ∈ fs, ∃ a, told f.symbol = (Status.ok, some a) := by
  simp only [List.findSome?_eq_none_iff, List.mem_map, forall_exists_index, and_imp,
    forall_apply_eq_imp_iff₂, Step.failure, missing_eq_none]

theorem compare_failure : Step.compareVersion.failure c told answer =
    if answer.version.serves c.binding then none
    else some (.incompatibleVersion c.name answer.version c.binding) := by
  simp [Step.failure, Version.serves]

theorem checks_eq_none :
    (checks options).findSome? (Step.failure c told answer) = none ↔
      (options.verify = true → answer.Serves c.binding) := by
  unfold checks
  cases options.verify with
  | false => simp
  | true =>
    rw [if_pos rfl, List.findSome?_eq_none_iff]
    by_cases hok : answer.status = Status.ok <;> simp [Step.failure, VersionAnswer.Serves, hok]

/-- No step fails when all symbols are told, and the version serves if it is checked. -/
theorem steps_eq_none :
    (steps c options).findSome? (Step.failure c told answer) = none ↔
      (∀ f ∈ Export.fixed c ++ Export.specific c, ∃ a, told f.symbol = (Status.ok, some a)) ∧
      (options.verify = true → answer.Serves c.binding) := by
  rw [steps, List.findSome?_append, List.findSome?_append, Option.or_eq_none_iff,
    Option.or_eq_none_iff, resolves_eq_none, resolves_eq_none, checks_eq_none, List.forall_mem_append]
  tauto

end

/-! ## Resolving -/

section

variable {told : Directory} {f : Export} {fs : List Export} {via : Invoker σ} {lookup : Address}
  {s : σ}

theorem find_answered {x : Symbol} {status : Status} {address : Option Address} (hx : Passable x)
    (hcall : via.call lookup (.lookupSymbol (.text x.ns) (.text x.name) (some none)) s =
      ((status, some address), s)) :
    find via lookup x s = (if status = Status.ok then .ok address
      else if status = Status.symbolNotFound then .ok none
      else .error (.native registryNs status (some ("lookup of " ++ x.text ++ " failed"))), s) := by
  refine (run_bind_ok (run_lift_ok (textArg_ok hx.1) s)).trans ?_
  refine (run_bind_ok (run_lift_ok (textArg_ok hx.2) s)).trans ?_
  refine (run_bind_ok (run_lift hcall)).trans ?_
  dsimp only
  by_cases hok : status = Status.ok
  · rw [if_pos hok, if_pos hok]
    rfl
  · by_cases hmissing : status = Status.symbolNotFound
    · rw [if_neg hok, if_neg hok, if_pos hmissing, if_pos hmissing]
      rfl
    · rw [if_neg hok, if_neg hok, if_neg hmissing, if_neg hmissing]
      rfl

/-- One step: what is told of the symbol decides. -/
theorem resolveSymbol_told (hcall : via.call lookup (.lookupSymbol (.text f.symbol.ns)
      (.text f.symbol.name) (some none)) s = (((told f.symbol).1, some (told f.symbol).2), s)) :
    resolveSymbol via lookup f.symbol s =
      (verdict (told.missing f.symbol) (told.locate f).2, s) := by
  have hfind := find_answered (export_passable f) hcall
  unfold Directory.missing Directory.locate
  generalize told f.symbol = t at hfind ⊢
  obtain ⟨status, address⟩ := t
  by_cases hok : status = Status.ok
  · rw [if_pos hok] at hfind
    refine (run_bind_ok hfind).trans ?_
    cases address <;> simp [hok] <;> rfl
  · rw [if_neg hok] at hfind
    by_cases hmissing : status = Status.symbolNotFound
    · rw [if_pos hmissing] at hfind
      refine (run_bind_ok hfind).trans ?_
      rw [if_neg fun h => hok h.1, if_pos (.inr hmissing)]
      rfl
    · rw [if_neg hmissing] at hfind
      refine (run_bind_error hfind).trans ?_
      rw [if_neg fun h => hok h.1, if_neg fun h => h.elim hok hmissing]
      rfl

/-- Step by step, in the order of the list. -/
theorem resolveAll_told (fs : List Export)
    (hcall : ∀ x, via.call lookup (.lookupSymbol (.text x.ns) (.text x.name) (some none)) s =
      (((told x).1, some (told x).2), s)) :
    resolveAll via lookup fs s =
      (verdict (fs.findSome? fun f => told.missing f.symbol) (fs.map told.locate), s) := by
  induction fs with
  | nil => rfl
  | cons f rest ih =>
    have hfirst := resolveSymbol_told (f := f) (hcall f.symbol)
    rw [List.findSome?_cons]
    cases hf : told.missing f.symbol with
    | some why => exact run_bind_error (hfirst.trans (by rw [hf]; rfl))
    | none =>
      refine (run_bind_ok (hfirst.trans (by rw [hf]; rfl))).trans ?_
      cases hrest : rest.findSome? fun f => told.missing f.symbol with
      | some why => exact run_bind_error (ih.trans (by rw [hrest]; rfl))
      | none => exact (run_bind_ok (ih.trans (by rw [hrest]; rfl))).trans rfl

end

/-! ## The version -/

section

theorem checkStatus_passed [Journal σ] (via : Invoker σ) (l : Library) (h : Handle) {status : Status}
    (hok : status = Status.ok) : l.checkStatus via h status = pure () :=
  if_neg (not_not.mpr hok)

variable [Journal σ] {via : Invoker σ} {l : Library} {s : σ} {P : σ → Prop}

section

variable (hP : OutlastsNotes P) (hs : P s)
  (hversion : ∀ major minor micro,
    Ends P (l.call via (.getVersion l.component major minor micro)) fun _ => P)
  (hask : AsksKeep via l Handle.null P)
include hP hs hversion hask

/-- The question is one step: the status of its answer decides. -/
theorem version_answered (told : Directory) : ∃ s', l.version via s =
    (verdict (Step.askVersion.failure l.component told (l.versionAnswer via s))
      (l.versionAnswer via s).version, s') ∧ P s' := by
  rcases hcall : l.call via (.getVersion l.component (some 0) (some 0) (some 0)) s with
    ⟨⟨status, major, minor, micro⟩, s₁⟩
  have hs₁ : P s₁ := by
    have := hversion (some 0) (some 0) (some 0) s hs
    rwa [hcall] at this
  have hanswer : l.versionAnswer via s = ⟨status, ⟨major.getD 0, minor.getD 0, micro.getD 0⟩,
      (l.messageFor via Handle.null status s₁).1⟩ := by
    rw [versionAnswer, hcall]
  rw [hanswer]
  by_cases hok : status = Status.ok
  · have hpassed : l.checkStatus via Handle.null status s₁ = (.ok (), s₁) :=
      congrFun (checkStatus_passed via l Handle.null hok) s₁
    refine ⟨s₁, ?_, hs₁⟩
    rw [Step.failure, if_pos hok]
    exact (run_bind_ok ((run_bind_ok (run_lift hcall)).trans (run_bind_ok hpassed))).trans rfl
  · refine ⟨_, ?_, hask.messageFor hP status s₁ hs₁⟩
    rw [Step.failure, if_neg hok]
    exact run_bind_error ((run_bind_ok (run_lift hcall)).trans
      (run_bind_error (checkStatus_run hok rfl)))

/-- A version that is not to be checked is not asked for. One that is checked is asked for, and
    compared if the question was answered. -/
theorem verifyVersion_answered (told : Directory) : ∃ s', l.verifyVersion via s =
    (verdict ((checks l.options).findSome?
      (Step.failure l.component told (l.versionAnswer via s))) (), s') ∧ P s' := by
  unfold verifyVersion checks
  cases l.options.verify with
  | false => exact ⟨s, rfl, hs⟩
  | true =>
    obtain ⟨s₁, hrun, hs₁⟩ := version_answered hP hs hversion hask told
    have hsteps (failure : Step → Option Failure) :
        [Step.askVersion, .compareVersion].findSome? failure =
          (failure .askVersion).or (failure .compareVersion) := by
      rw [List.findSome?_cons, List.findSome?_singleton]
      cases failure .askVersion <;> rfl
    rw [if_pos rfl, if_pos rfl, hsteps]
    refine verdict_bind hrun hs₁ fun _ => ⟨s₁, ?_, hs₁⟩
    rw [compare_failure]
    cases (l.versionAnswer via s).version.serves l.component.binding <;> rfl

end

end

/-! ## Loading -/

section

variable {told : Directory} {c : Component} {lookup : Address} {options : LoadOptions}

/-- A function that was found is called where it was told to be. -/
theorem located_address {fs : List Export} {f : Export} {a : Address} (hf : f ∈ fs)
    (ha : told f.symbol = (Status.ok, some a)) :
    (located told c options lookup fs).address f = a := by
  have hlocate : told.locate f = (f, a) := by rw [Directory.locate, ha, Option.getD_some]
  have hlookup : (fs.map told.locate).lookup f = some a := by
    induction fs with
    | nil => cases hf
    | cons g rest ih =>
      rw [List.map_cons]
      by_cases hfg : f = g
      · rw [← hfg, hlocate, List.lookup_cons, beq_self_eq_true]
      · rw [Directory.locate, List.lookup_cons, beq_false_of_ne hfg]
        exact ih ((List.mem_cons.mp hf).resolve_left hfg)
  rw [address, located, hlookup, Option.getD_some]

variable {via : Invoker (Process ω)} {s : Process ω}

namespace Binary

variable (hb : Binary via lookup told c s)
  (hfound : ∀ f ∈ Export.fixed c, ∃ a, told f.symbol = (Status.ok, some a))
include hb hfound

theorem call_version (major minor micro : Cell UInt32) :
    Ends s.Untouched ((located told c options lookup (Export.fixed c)).call via
      (.getVersion c major minor micro)) fun _ => s.Untouched := by
  have hmem : Export.getVersion c ∈ Export.fixed c := by simp [Export.fixed]
  obtain ⟨a, ha⟩ := hfound _ hmem
  rw [call, Call.target, located_address hmem ha]
  exact hb.version a ha major minor micro

theorem asksKeep (h : Handle) :
    AsksKeep via (located told c options lookup (Export.fixed c)) h s.Untouched := by
  intro capacity place flag
  have hmem : Export.getLastError c ∈ Export.fixed c := by simp [Export.fixed]
  obtain ⟨a, ha⟩ := hfound _ hmem
  change Ends _ (via.call ((located told c options lookup (Export.fixed c)).address
    (.getLastError c)) _) _
  rw [located_address hmem ha]
  exact hb.lastError a ha h capacity place flag

end Binary

/-- The load comes to what its first failing step says, if one fails. The lists of its steps are gone
    through one after the other, each from the state that the one before left. -/
theorem load_told (hb : Binary via lookup told c s) (options : LoadOptions) :
    ∃ s', load via c options lookup s =
      (verdict ((steps c options).findSome? (Step.failure c told
        ((located told c options lookup (Export.fixed c)).versionAnswer via s)))
          (located told c options lookup (Export.fixed c ++ Export.specific c)), s') ∧
      s.Untouched s' := by
  have hresolve (fs : List Export) {s' : Process ω} (h : s.Untouched s') :=
    resolveAll_told fs fun x => hb.lookups x s' h
  have hresolves (fs : List Export) (answer : VersionAnswer) :
      (fs.map Step.resolve).findSome? (Step.failure c told answer) =
        fs.findSome? fun f => told.missing f.symbol := by
    rw [List.findSome?_map]
    rfl
  rw [steps, List.append_assoc, List.findSome?_append, List.findSome?_append, hresolves, hresolves]
  refine verdict_bind (hresolve (Export.fixed c) (.refl s)) (.refl s) fun hmissing => ?_
  have hfound : ∀ f ∈ Export.fixed c, ∃ a, told f.symbol = (Status.ok, some a) := fun f hf =>
    missing_eq_none.mp (List.findSome?_eq_none_iff.mp hmissing f hf)
  obtain ⟨s₁, hverify, hs₁⟩ := verifyVersion_answered
    (l := located told c options lookup (Export.fixed c)) (Process.Untouched.outlastsNotes s) (.refl s)
    (hb.call_version hfound) (hb.asksKeep hfound Handle.null) told
  refine verdict_bind hverify hs₁ fun _ => ?_
  have hs₂ := Process.Untouched.outlastsNotes s (.loaded c.name c.ns) ⟨rfl, rfl⟩ s₁ hs₁
  have hnoted : (note (.loaded c.name c.ns) : Host (Process ω) PUnit) s₁ =
    (.ok ⟨⟩, Journal.note (.loaded c.name c.ns) s₁) := rfl
  have hspecific := hresolve (Export.specific c) hs₂
  refine ⟨_, (run_bind_ok hnoted).trans ?_, hs₂⟩
  cases hmissing' : (Export.specific c).findSome? fun f => told.missing f.symbol with
  | some why => exact run_bind_error (hspecific.trans (by rw [hmissing']; rfl))
  | none =>
    refine (run_bind_ok (hspecific.trans (by rw [hmissing']; rfl))).trans ?_
    rw [located, List.map_append]
    rfl

end

/-! ## The calls of a load -/

section

variable [Journal σ] (via : Invoker σ) (lookup : Address)

omit [Journal σ] in
/-- To remember the calls changes nothing else. -/
theorem resolveSymbol_erases (x : Symbol) :
    Erases Prod.fst (resolveSymbol via.overheard lookup x) (resolveSymbol via lookup x) := by
  refine .bind (.bind (.lift _) fun ns => .bind (.lift _) fun name => ?_) fun found => ?_
  · exact .bind (fun _ => rfl) fun _ => .ite (.pure _) (.ite (.pure _) (.throw _))
  · cases found with
    | some a => exact .pure a
    | none => exact .throw _

omit [Journal σ] in
theorem resolveAll_erases (fs : List Export) :
    Erases Prod.fst (resolveAll via.overheard lookup fs) (resolveAll via lookup fs) := by
  induction fs with
  | nil => exact .pure []
  | cons f rest ih =>
    exact .bind (resolveSymbol_erases via lookup f.symbol) fun _ => .bind ih fun _ => .pure _

theorem checkStatus_erases (l : Library) (h : Handle) (status : Status) :
    Erases Prod.fst (l.checkStatus via.overheard h status) (l.checkStatus via h status) := by
  intro t
  by_cases hok : status = Status.ok
  · rw [checkStatus_passed via.overheard l h hok, checkStatus_passed via l h hok]
    rfl
  · rcases hheard : Exchange.fetchText l.options.attempts (l.askLastError via.overheard h) (t, false)
      with ⟨r, t', flag⟩
    have hplain := (Exchange.fetchText_erases (fun _ _ => rfl) (askLastError_erases via l h)
      l.options.attempts).run hheard
    cases r with
    | ok text =>
      rw [checkStatus_run hok (messageFor_found (fetchLastError_run hheard)),
        checkStatus_run hok (messageFor_found (fetchLastError_run hplain))]
    | error why =>
      rw [checkStatus_run hok (messageFor_lost (fetchLastError_run hheard)),
        checkStatus_run hok (messageFor_lost (fetchLastError_run hplain))]
      rfl

theorem load_erases (c : Component) (options : LoadOptions) :
    Erases Prod.fst (load via.overheard c options lookup) (load via c options lookup) := by
  refine .bind (resolveAll_erases via lookup _) fun _ => .bind ?_ fun _ =>
    .bind (Exchange.note_erases (fun _ _ => rfl) _) fun _ =>
      .bind (resolveAll_erases via lookup _) fun _ => .pure _
  refine .ite (.bind (.bind (.bind (fun _ => rfl) fun _ => ?_) fun _ => .pure _) fun _ => ?_) (.pure _)
  · exact .bind (checkStatus_erases via _ _ _) fun _ => .pure _
  · exact .ite (.throw _) (.pure _)

variable {options : LoadOptions}

def Unasked (t : σ × List Invocation) : Prop := ∀ a d, .other a (.getVersion d) ∉ t.2

omit [Journal σ] in
theorem resolveSymbol_unasked (x : Symbol) :
    Does Unasked (resolveSymbol via.overheard lookup x) (fun _ => Unasked) fun _ => Unasked := by
  have hcall (ns name : TextArg) : Ends Unasked
      (via.overheard.call lookup (.lookupSymbol ns name (some none))) fun _ => Unasked := by
    intro t ht a d hmem
    rcases List.mem_append.mp hmem with h | h
    · exact ht a d h
    · cases List.mem_singleton.mp h
  refine .bind (Q := fun _ => Unasked) ?_ fun found => ?_
  · refine .bind (Q := fun _ => Unasked) (.lift (fun _ _ _ h => h) fun _ _ _ h => h) fun ns => ?_
    refine .bind (Q := fun _ => Unasked) (.lift (fun _ _ _ h => h) fun _ _ _ h => h) fun name => ?_
    refine .bind (.monadLift (hcall ns name)) fun _ => ?_
    exact .ite (fun _ => .pure fun _ h => h) fun _ =>
      .ite (fun _ => .pure fun _ h => h) fun _ => .throw fun _ h => h
  · cases found with
    | some a => exact .pure fun _ h => h
    | none => exact .throw fun _ h => h

omit [Journal σ] in
theorem resolveAll_unasked (fs : List Export) :
    Does Unasked (resolveAll via.overheard lookup fs) (fun _ => Unasked) fun _ => Unasked := by
  induction fs with
  | nil => exact .pure fun _ h => h
  | cons f rest ih =>
    refine .bind (resolveSymbol_unasked via lookup f.symbol) fun _ => .bind ih fun _ => ?_
    exact .pure fun _ h => h

/-- Without a check the only calls are lookups. -/
theorem load_unasked (c : Component) (hverify : options.verify = false) :
    Does Unasked (load via.overheard c options lookup) (fun _ => Unasked) fun _ => Unasked := by
  refine .bind (resolveAll_unasked via lookup _) fun _ => ?_
  refine .bind (Q := fun _ => Unasked) ?_ fun _ => ?_
  · refine .ite (fun h => ?_) fun _ => .pure fun _ h => h
    exact absurd (hverify.symm.trans h) Bool.false_ne_true
  · refine .bind (Q := fun _ => Unasked) (fun _ h => h) fun _ => ?_
    exact .bind (resolveAll_unasked via lookup _) fun _ => .pure fun _ h => h

end

/-! ## All or nothing -/

/-- Whatever is behind the lookup method, a load succeeds exactly when all symbols of the component
    are told with addresses and the version, if it is to be checked, is answered and serves the
    bindings. If it fails, then with the failure of its first step that fails. No object and no entry
    of the registry is touched, and a version that is not to be checked is not asked for. -/
theorem load_ordered {via : Invoker (Process ω)} {lookup : Address} {told : Directory} {c : Component}
    {s : Process ω} (hb : Binary via lookup told c s) (options : LoadOptions) :
    ∃ r s' log answer,
      load via c options lookup s = (r, s') ∧
      load via.overheard c options lookup (s, []) = (r, (s', log)) ∧
      answer = (located told c options lookup (Export.fixed c)).versionAnswer via s ∧
      r = verdict ((steps c options).findSome? (Step.failure c told answer))
        (located told c options lookup (Export.fixed c ++ Export.specific c)) ∧
      ((∃ l, r = .ok l) ↔
        (∀ f ∈ Export.fixed c ++ Export.specific c, ∃ a, told f.symbol = (Status.ok, some a)) ∧
        (options.verify = true → answer.Serves c.binding)) ∧
      s.Untouched s' ∧
      (options.verify = false → ∀ a d, .other a (.getVersion d) ∉ log) := by
  obtain ⟨s', hrun, huntouched⟩ := load_told hb options
  rcases hheard : load via.overheard c options lookup (s, []) with ⟨r, s₁, log⟩
  have hsame := (load_erases via lookup c options).run hheard
  obtain ⟨rfl, rfl⟩ := Prod.mk.inj (hsame.symm.trans hrun)
  refine ⟨_, s₁, log, _, hrun, rfl, rfl, rfl, ?_, huntouched, fun hverify => ?_⟩
  · rw [← steps_eq_none]
    cases (steps c options).findSome? _ <;> simp [verdict]
  · have hunasked := (load_unasked via lookup c hverify).leaves (s := (s, [])) (by simp [Unasked])
    rwa [show (load via.overheard c options lookup).run (s, []) = _ from hheard] at hunasked

def hoarse : Directory := fun x =>
  (Status.ok, if x.name = "tiger_roar" then none else some .registryLookup)

def hoarseBinary : Invoker (Process Unit) where
  call _ c :=
    match c with
    | .lookupSymbol (.text ns) (.text name) _ => pure (Status.ok, some (hoarse ⟨ns, name⟩).2)
    | .getVersion _ _ _ _ => pure (Status.ok, some 1, some 7, some 0)
    | c => pure (Status.notImplemented, c.cells)

/-- The version serves, and the function that is nowhere is the first to fail. -/
theorem load_hoarse :
    Binary hoarseBinary .registryLookup hoarse .zoo { outer := () } ∧
    ∃ s', load hoarseBinary .zoo {} .registryLookup { outer := () } =
      (.error (.symbolNotFound "zoo" "tiger_roar"), s') ∧
      Process.Untouched { outer := () } s' := by
  have hb : Binary hoarseBinary .registryLookup hoarse .zoo { outer := () } :=
    ⟨fun _ _ _ => rfl, fun _ _ _ _ _ _ h => h, fun _ _ _ _ _ _ _ h => h⟩
  obtain ⟨r, s', log, answer, hrun, -, hanswer, hr, -, huntouched, -⟩ := load_ordered hb {}
  have hfirst : (steps .zoo {}).findSome? (Step.failure .zoo hoarse answer) =
      some (.symbolNotFound "zoo" "tiger_roar") := by
    rw [hanswer]
    decide +kernel
  rw [hfirst] at hr
  exact ⟨hb, s', hrun.trans (by rw [hr]; rfl), huntouched⟩

end Library

end Host

end Boundary
