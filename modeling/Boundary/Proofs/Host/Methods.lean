/-
  Boundary.Proofs.Host.Methods — the methods of the bindings, and what they say of a failure.

  A method makes a call of its component, with a live object, a placeholder's null handle apart,
  or without a target, and checks the status (`Method`). What it does beside that may fail too,
  but with failures of its own: the class of what it got does not fit, a text is no text.

  Proved of every method, in any state of the process and whatever functions outside the
  components do (`failures_reported`): if its call fails, the method fails with the component's
  name, the status and the very message the call recorded, left out only if the target is gone;
  all that reading it back leaves is notes. If its call succeeds, the component is not blamed.
-/
import Boundary.Host.Calculator
import Boundary.Host.Primes
import Boundary.Host.Zoo
import Boundary.Proofs.Host.Instance
import Boundary.Proofs.Host.Messages
import Boundary.Proofs.Host.Outputs
import Boundary.Proofs.Intact.Tables
import Boundary.Proofs.Registry.Loading

namespace Boundary

open Exchange (Cell Servable Element Filled Host Place Room)

variable {σ ω O α ρ : Type} {out : Outside ω} {via : Invoker (Process ω)} {s : Process ω}

/-! ## Failures of the bindings' own -/

def NeverNative (P : σ → Prop) (x : Host σ α) : Prop :=
  Does P x (fun _ _ => True) fun why _ => why.isNative = false

/-! ## Targets -/

/-- Where the message of a failure is asked for: with the target, but of a release, after which
    the target may be gone, with the null handle. -/
def Call.slot {ρ : Type} : Call ρ → Handle
  | releaseInstance _ _ => Handle.null
  | c => c.guard.elim Handle.null Prod.snd

namespace Host

/-- The method makes the call, and its failure if the call fails is that of the call, with its
    message; `after` is what is done then. If the call succeeds, a failure is the method's own. -/
structure Reports (out : Outside ω) (l : Library) (c : Call ρ) (after : Act ω Unit)
    (x : Host (Process ω) α) : Prop where
  failed : ∀ {y : Handle} {why : Fault} {before s : Process ω} {cells : ρ},
    c.guard = some (l.component, y) → why.code ≠ Status.ok → Servable why.message →
    why.message.toList.getLast? ≠ some '\x00' →
    perform out (out.reach .none) c s = ((why.code, cells), (l.component.fail y why before).2) →
    ∃ notes, x s = (.error (.native l.component.name why.code
        ((l.component.fail y why before).2.reported l.component c.slot why)),
      (after ((l.component.fail y why before).2.noted notes)).2)
  /-- With whatever message can be had. -/
  blamed : ∀ {s u : Process ω} {status : Status} {cells : ρ}, status ≠ Status.ok →
    perform out (out.reach .none) c s = ((status, cells), u) → ∃ message notes,
      x s = (.error (.native l.component.name status message), (after (u.noted notes)).2)
  passed : ∀ {s u : Process ω} {cells : ρ},
    perform out (out.reach .none) c s = ((Status.ok, cells), u) →
    ∀ why, (x s).1 = .error why → why.isNative = false

namespace Reports

variable {l : Library} {c : Call ρ} {after : Act ω Unit} {x x' : Host (Process ω) α}

theorem congr (h : Reports out l c after x') (hx : ∀ s, x s = x' s) : Reports out l c after x where
  failed hc hcode ht hend hrun := by
    obtain ⟨notes, hfails⟩ := h.failed hc hcode ht hend hrun
    exact ⟨notes, (hx _).trans hfails⟩
  blamed hne hrun := by
    obtain ⟨message, notes, hfails⟩ := h.blamed hne hrun
    exact ⟨message, notes, (hx _).trans hfails⟩
  passed hrun why hwhy := h.passed hrun why ((hx _).symm ▸ hwhy)

end Reports

namespace Instance

variable {i : Instance} {c : Call ρ}

theorem ask_run (hi : i.Home) {status : Status} {cells : ρ} {u : Process ω}
    (hrun : perform out (out.reach .none) c s = ((status, cells), u)) :
    i.ask out.invoker c s = (do
      i.library.checkStatus out.invoker i.handle status
      return cells : Host (Process ω) ρ) u := by
  have hcall : i.call out.invoker c s = ((status, cells), u) := (congrFun (hi.call c) s).trans hrun
  exact (run_bind_ok (run_lift hcall)).trans rfl

/-- What is done with the answer is not done after a failure. -/
theorem ask_bind_reports (hi : i.Home) (htarget : c.guard.map Prod.snd = some i.handle)
    (hslot : c.slot = i.handle) {rest : ρ → Host (Process ω) α}
    (hrest : ∀ cells, NeverNative (fun u => ∃ s, perform out (out.reach .none) c s = ((Status.ok, cells), u))
      (rest cells)) :
    Reports out i.library c (pure ()) (i.ask out.invoker c >>= rest) where
  failed {y why before s cells} hc hcode ht hend hrun := by
    have hy : y = i.handle := by
      rw [hc] at htarget
      exact Option.some.inj htarget
    obtain ⟨notes, hcheck⟩ := Library.checkStatus_failed hi out i.handle hcode ht hend (s := before)
      (x := y) (.inl hy.symm) []
    refine ⟨notes, run_bind_error ?_⟩
    rw [ask_run hi hrun, hslot]
    exact run_bind_error hcheck
  blamed {s u status cells} hne hrun := by
    obtain ⟨message, notes, hcheck⟩ := Library.checkStatus_blames hi hne i.handle u
    refine ⟨message, notes, run_bind_error ?_⟩
    rw [ask_run hi hrun]
    exact run_bind_error hcheck
  passed {s u cells} hrun why hwhy := by
    have hask : i.ask out.invoker c s = (.ok cells, u) := ask_run hi hrun
    rw [run_bind_ok hask] at hwhy
    have hafter : Either _ _ (rest cells u).1 _ := hrest cells u ⟨s, hrun⟩
    rw [hwhy] at hafter
    exact hafter

theorem ask_reports (hi : i.Home) (htarget : c.guard.map Prod.snd = some i.handle)
    (hslot : c.slot = i.handle) : Reports out i.library c (pure ()) (i.ask out.invoker c) := by
  have h : Reports out i.library c (pure ()) (i.ask out.invoker c >>= pure) :=
    ask_bind_reports hi htarget hslot fun _ => .pure fun _ _ => trivial
  rwa [bind_pure] at h

theorem checked_run (h : i.isNull = false) {f : Handle → Host (Process ω) α} (s : Process ω) :
    (liftM i.checked >>= f : Host (Process ω) α) s = f i.handle s :=
  run_bind_ok (run_lift_ok (if_neg (by simp [h])) s)

/-! ## Classes -/

/-- The tag of the object is asked for with it. -/
theorem classTypeId_eq (h : i.isNull = false) (s : Process ω) :
    i.classTypeId out.invoker s = (do
      let tag ← i.ask out.invoker (.classTypeId i.library.component i.handle (some 0))
      return ⟨tag.getD 0⟩ : Host (Process ω) Tag) s := by
  refine (checked_run h s).trans ?_
  unfold Library.classTypeId
  rw [if_neg (show ¬ i.handle.isNull = true by simpa [isNull] using h)]
  simp only [ask, call, check, bind_assoc, pure_bind]

theorem classTypeId_reports (hi : i.Home) (h : i.isNull = false) :
    Reports out i.library (.classTypeId i.library.component i.handle (some 0)) (pure ())
      (i.classTypeId out.invoker) :=
  (ask_bind_reports hi rfl rfl fun _ => .pure fun _ _ => trivial).congr (classTypeId_eq h)

end Instance

end Host

/-- A live object tells its class. -/
theorem Fixed.classTypeId_tells [Resource O] {p : Part (Process ω) O} {x : Handle} {o : O}
    (hx : x.isNull = false) (ho : (p.view s).table.get? x = some o) (tag : UInt64) :
    Fixed.classTypeId p x (some tag) s = ((Status.ok, some (Resource.tag o).value), s) := by
  exact Part.guard_of_ok ((run_bind_ok (Part.get_run (Table.get_some hx ho))).trans rfl)

theorem Fixed.classTypeId_live [Resource O] {p : Part (Process ω) O} {x : Handle}
    (hx : x.isNull = false) (hlive : p.Has x s) (tag : UInt64) :
    (Fixed.classTypeId p x (some tag) s).1.1 = Status.ok ∧
      (Fixed.classTypeId p x (some tag) s).2 = s := by
  rw [Part.Has, Table.count?, Option.isSome_map] at hlive
  obtain ⟨a, ha⟩ := Option.isSome_iff_exists.mp hlive
  rw [Fixed.classTypeId_tells hx (congrArg (Option.map Slot.object) ha) tag]
  exact ⟨rfl, rfl⟩

theorem classTypeId_live (out : Outside ω) (via : Invoker (Process ω)) {c : Component} {x : Handle}
    (hx : x.isNull = false) (hlive : (s.count? c x).isSome = true) (tag : UInt64) :
    (perform out via (.classTypeId c x (some tag)) s).1.1 = Status.ok := by
  cases c with
  | zoo => exact (Fixed.classTypeId_live (p := Process.zooPart) hx hlive tag).1
  | calculator => exact (Fixed.classTypeId_live (p := Process.calculatorPart) hx hlive tag).1
  | primes => exact (Fixed.classTypeId_live (p := Process.primesPart) hx hlive tag).1

namespace Host

variable {l : Library} {i : Instance}

theorem Instance.classTypeId_neverNative (hi : i.Home) (h : i.isNull = false) :
    NeverNative (fun s => s.Found i.library.component i.handle) (i.classTypeId out.invoker) := by
  intro s hs
  have hx : i.handle.isNull = false := h
  have hlive := hs.resolve_left (by simp [hx])
  have hok := classTypeId_live out (out.reach .none) hx hlive 0
  have hreports : Reports out _ _ _ (i.classTypeId out.invoker) := Instance.classTypeId_reports hi h
  have hown := hreports.passed (s := s) (Prod.ext (Prod.ext hok rfl) rfl)
  show Either _ _ (i.classTypeId out.invoker s).1 _
  cases hr : (i.classTypeId out.invoker s).1 with
  | ok tag => trivial
  | error why => exact hown why hr

/-- A class that does not fit is a failure of the bindings. -/
theorem wrapTagged_neverNative {P : Process ω → Prop} (target : Class) (tag : Tag) :
    Does P (wrapTagged target i tag) (fun _ _ => True) fun e _ => e.1.isNative = false := by
  unfold wrapTagged
  split
  · split
    · exact .pure fun _ _ => trivial
    · exact .throw fun _ _ => rfl
  · exact fun _ _ => trivial

theorem resolveInstance_neverNative (hi : i.Home) (target : Class) (cached : Option Tag) :
    Does (fun s => s.Found i.library.component i.handle)
      (resolveInstance out.invoker target i cached) (fun _ _ => True)
      fun e _ => e.1.isNative = false := by
  refine .ite (fun _ => .pure fun _ _ => trivial) fun hn => ?_
  have hn : i.isNull = false := by simpa using hn
  refine .bind (Q := fun _ _ => True) ?_ (wrapTagged_neverNative target)
  cases cached with
  | some tag => exact .pure fun _ _ => trivial
  | none => exact .adapt (Instance.classTypeId_neverNative hi hn)

/-- Whatever becomes of the instance. -/
theorem Resolution.settled_neverNative {P : Process ω → Prop} {x : Resolution (Process ω) Instance}
    (hx : Does P x (fun _ _ => True) fun e _ => e.1.isNative = false)
    (settle : Instance → Act ω Unit) : NeverNative P (x.settled settle) :=
  settled_does hx fun _ _ _ h => h

theorem adopt_neverNative (hi : i.Home) (target : Class) (cached : Option Tag) :
    NeverNative (fun s => s.Found i.library.component i.handle) (adopt out.invoker target i cached) :=
  Resolution.settled_neverNative (resolveInstance_neverNative hi target cached) _

theorem resolve_neverNative (hl : l.Home) (target : Class) (raw : RawHandle) :
    NeverNative (fun s => s.Found l.component raw.handle) (resolve out.invoker l target raw) :=
  adopt_neverNative (i := ⟨l, raw.handle⟩) hl target raw.cached

theorem resolveBorrowed_neverNative (hl : l.Home) (target : Class) (raw : RawHandle) :
    NeverNative (fun s => s.Found l.component raw.handle) (resolveBorrowed out.invoker l target raw) :=
  Resolution.settled_neverNative
    (resolveInstance_neverNative (i := ⟨l, raw.handle⟩) hl target raw.cached) _

namespace Reports

variable {c : Call ρ} {x : Host (Process ω) α}

/-- What may follow in any state. -/
theorem bind {β : Type} (h : Reports out l c (pure ()) x) {rest : α → Host (Process ω) β}
    (hrest : ∀ a, NeverNative (fun _ => True) (rest a)) : Reports out l c (pure ()) (x >>= rest) where
  failed hc hcode ht hend hrun := by
    obtain ⟨notes, hfails⟩ := h.failed hc hcode ht hend hrun
    exact ⟨notes, run_bind_error hfails⟩
  blamed hne hrun := by
    obtain ⟨message, notes, hfails⟩ := h.blamed hne hrun
    exact ⟨message, notes, run_bind_error hfails⟩
  passed {s u cells} hrun why hwhy := by
    have hown := h.passed hrun
    have hx : x s = ((x s).1, (x s).2) := rfl
    cases hr : (x s).1 with
    | ok a =>
      rw [hr] at hx
      rw [run_bind_ok hx] at hwhy
      have hafter : Either _ _ (rest a (x s).2).1 _ := hrest a (x s).2 trivial
      rw [hwhy] at hafter
      exact hafter
    | error why' =>
      rw [hr] at hx
      rw [run_bind_error hx] at hwhy
      rw [← Except.error.inj hwhy]
      exact hown why' hr

/-- What is done after a failure, before it is the failure of all. -/
theorem outcome_error {β : Type} {rest : Except Failure α → Host (Process ω) β} {why : Failure}
    {s u : Process ω} {after : Act ω Unit} (hx : x s = (.error why, u))
    (herror : rest (.error why) = do
      after
      throw why) : (x.outcome >>= rest) s = (.error why, (after u).2) := by
  refine (run_bind_ok (outcome_run hx)).trans ?_
  rw [herror]
  rfl

theorem afterwards {β : Type} (h : Reports out l c (pure ()) x) {after : Act ω Unit}
    {rest : Except Failure α → Host (Process ω) β}
    (hok : ∀ a, NeverNative (fun _ => True) (rest (.ok a)))
    (herror : ∀ why, rest (.error why) = do
      after
      throw why) :
    Reports out l c after (x.outcome >>= rest) where
  failed {y why before s cells} hc hcode ht hend hrun := by
    obtain ⟨notes, hfails⟩ := h.failed hc hcode ht hend hrun
    exact ⟨notes, outcome_error hfails (herror _)⟩
  blamed {s u status cells} hne hrun := by
    obtain ⟨message, notes, hfails⟩ := h.blamed hne hrun
    exact ⟨message, notes, outcome_error hfails (herror _)⟩
  passed {s u cells} hrun why hwhy := by
    have hown := h.passed hrun
    cases hr : (x s).1 with
    | ok a =>
      have hx : x s = (.ok a, (x s).2) := Prod.ext hr rfl
      rw [run_bind_ok (outcome_run hx)] at hwhy
      have hafter : Either _ _ (rest (.ok a) (x s).2).1 _ := hok a (x s).2 trivial
      rw [hwhy] at hafter
      exact hafter
    | error why' =>
      have hx : x s = (.error why', (x s).2) := Prod.ext hr rfl
      rw [run_bind_ok (outcome_run hx), herror] at hwhy
      have hwhy : Except.error why' = Except.error why := hwhy
      rw [← Except.error.inj hwhy]
      exact hown why' hr

end Reports

/-- The class is asked for, and the instance is settled if that fails. -/
theorem Resolution.settled_reports (hi : i.Home) (h : i.isNull = false) (target : Class)
    (settle : Instance → Act ω Unit) :
    Reports out i.library (.classTypeId i.library.component i.handle (some 0)) (settle i)
      ((resolveInstance out.invoker target i none).settled settle) :=
  ((Instance.classTypeId_reports hi h).afterwards
    (fun tag => settled_neverNative (wrapTagged_neverNative target tag) settle) fun _ => rfl).congr
      fun _ => settled_none h target

theorem adopt_reports (hi : i.Home) (h : i.isNull = false) (target : Class) :
    Reports out i.library (.classTypeId i.library.component i.handle (some 0))
      (i.drop out.invoker) (adopt out.invoker target i none) :=
  Resolution.settled_reports hi h target fun i => i.drop out.invoker

theorem classify_reports (hi : i.Home) (h : i.isNull = false) :
    Reports out i.library (.classTypeId i.library.component i.handle (some 0))
      (i.drop out.invoker) (classify out.invoker i) :=
  (Instance.classTypeId_reports hi h).afterwards (fun _ => .pure fun _ _ => trivial) fun _ => rfl

/-- To detach the instance leaves nothing to do after the failure. -/
theorem resolveBorrowed_reports {raw : RawHandle} (hl : l.Home) (h : raw.handle.isNull = false)
    (hraw : raw.cached = none) (target : Class) :
    Reports out l (.classTypeId l.component raw.handle (some 0)) (pure ())
      (resolveBorrowed out.invoker l target raw) := by
  let i : Instance := ⟨l, raw.handle⟩
  have hdetach : (do let _ ← i.detach out.invoker : Act ω Unit) = pure () := i.detach_silent
  rw [resolveBorrowed, hraw, ← hdetach]
  exact Resolution.settled_reports (i := i) hl h target fun i => do
    let _ ← i.detach out.invoker

/-! ## Objects that are made and lent -/

section

variable {c : Call ρ} {k : Component} {y : Handle} (hi : i.Home)
  (htarget : c.guard.map Prod.snd = some i.handle) (hslot : c.slot = i.handle)
  {handle : ρ → Handle} (hfinds : Finds k handle (perform out (out.reach .none) c))
  (hc : c.guard = some (i.library.component, y)) (hk : c.guard.map Prod.fst = some k)
include hi htarget hslot hfinds hc hk

/-- What follows may rely on the object that the call hands out. -/
theorem handed_reports {rest : ρ → Host (Process ω) α}
    (hrest : ∀ cells, NeverNative (fun s => s.Found i.library.component (handle cells)) (rest cells)) :
    Reports out i.library c (pure ()) (i.ask out.invoker c >>= rest) := by
  rw [hc] at hk
  obtain rfl : i.library.component = k := Option.some.inj hk
  refine Instance.ask_bind_reports hi htarget hslot fun cells => (hrest cells).pre ?_
  rintro u ⟨s, hrun⟩
  have hfound := hfinds s trivial
  rw [hrun] at hfound
  exact hfound rfl

/-- It is adopted. -/
theorem made_reports {raw : ρ → RawHandle} (hraw : ∀ cells, (raw cells).handle = handle cells)
    (target : Class) : Reports out i.library c (pure ()) (do
      let cells ← i.ask out.invoker c
      resolve out.invoker i.library target (raw cells)) := by
  refine handed_reports hi htarget hslot hfinds hc hk fun cells => ?_
  rw [← hraw]
  exact resolve_neverNative hi target (raw cells)

/-- It is adopted, of a call for an object. -/
theorem Instance.makes_reports (h : i.isNull = false) {raw : ρ → RawHandle}
    (hraw : ∀ cells, (raw cells).handle = handle cells) (target : Class)
    {f : Handle → Host (Process ω) Instance} (hf : f i.handle = do
      let cells ← i.ask out.invoker c
      resolve out.invoker i.library target (raw cells)) :
    Reports out i.library c (pure ()) (liftM i.checked >>= f) := by
  refine Reports.congr (made_reports hi htarget hslot hfinds hc hk hraw target) fun s => ?_
  rw [checked_run h, hf]

end

/-! ## Variable-length outputs -/

namespace Instance

/-- A call that succeeds fills what it is offered. -/
theorem fill_does {κ : Type} [OfNat κ 0] (hi : i.Home) {c : Call (Place κ α)}
    {P : Process ω → Prop}
    (hcall : Ends P (perform out (out.reach .none) c) fun r s => r.1 = Status.ok ∧ P s)
    {E : Failure → Process ω → Prop} :
    Does P (do return (← i.ask out.invoker c).filled : Host (Process ω) (Filled κ α))
      (fun _ => P) E := by
  refine .of_run fun s hs => ?_
  have hask : i.ask out.invoker c s = (.ok (perform out (out.reach .none) c s).1.2, _) :=
    ask_run hi (Prod.ext (Prod.ext (hcall s hs).1 rfl) rfl)
  exact .inl ⟨_, _, (run_bind_ok hask).trans rfl, (hcall s hs).2⟩

/-- The query for the size is the call that is seen to fail. -/
theorem fill_reports {κ : Type} [OfNat κ 0] (hi : i.Home) {c : Call (Place κ α)}
    (htarget : c.guard.map Prod.snd = some i.handle) (hslot : c.slot = i.handle) :
    Reports out i.library c (pure ())
      (do return (← i.ask out.invoker c).filled : Host (Process ω) (Filled κ α)) :=
  ask_bind_reports hi htarget hslot fun _ => .pure fun _ _ => trivial

/-- An exchange fails as its query does. Where the query succeeds, so does every call that
    follows, and only the bindings may give up. -/
theorem exchange_reports {κ β : Type} [OfNat κ 0] (hi : i.Home) (c : Room κ → Call (Place κ α))
    (htarget : (c .query).guard.map Prod.snd = some i.handle) (hslot : (c .query).slot = i.handle)
    (hread : Readable fun room => perform out (out.reach .none) (c room)) {x : Host (Process ω) β}
    (hfails : ∀ {s u why}, (do return (← i.ask out.invoker (c .query)).filled :
      Host (Process ω) (Filled κ α)) s = (.error why, u) → x s = (.error why, u))
    (hdoes : ∀ {P : Process ω → Prop}, OutlastsNotes P →
      (∀ room, Does P (do return (← i.ask out.invoker (c room)).filled) (fun _ => P)
        fun why _ => why.isNative = false) →
      Does P x (fun _ => P) fun why _ => why.isNative = false) :
    Reports out i.library (c .query) (pure ()) x where
  failed hc hcode ht hend hrun := by
    obtain ⟨notes, hquery⟩ := (fill_reports hi htarget hslot).failed hc hcode ht hend hrun
    exact ⟨notes, hfails hquery⟩
  blamed hne hrun := by
    obtain ⟨message, notes, hquery⟩ := (fill_reports hi htarget hslot).blamed hne hrun
    exact ⟨message, notes, hfails hquery⟩
  passed {s u cells} hrun why hwhy := by
    obtain ⟨P, hnotes, hquery, hroom⟩ := hread
    have hs : P s := hquery s (congrArg (·.1.1) hrun)
    have hx : Either _ _ (x s).1 _ := hdoes hnotes (fun room => fill_does hi (hroom room)) s hs
    rw [hwhy] at hx
    exact hx

theorem fetchText_reports (hi : i.Home) (h : i.isNull = false)
    {c : Handle → UInt32 → Place UInt32 UInt8 → Call (Place UInt32 UInt8)}
    (htarget : (c i.handle 0 ⟨some 0, none⟩).guard.map Prod.snd = some i.handle)
    (hslot : (c i.handle 0 ⟨some 0, none⟩).slot = i.handle)
    (hread : Readable fun room => perform out (out.reach .none) (c i.handle room.capacity room.narrow)) :
    Reports out i.library (c i.handle 0 ⟨some 0, none⟩) (pure ()) (i.fetchText out.invoker c) := by
  refine Reports.congr ?_ (checked_run h)
  refine exchange_reports hi (fun room => c i.handle room.capacity room.narrow) htarget hslot hread
    (fun hquery => ?_) fun hnotes hfill => ?_
  · exact Exchange.fetchText_fails _ hquery
  · exact Exchange.fetchText_does hnotes (fun _ _ _ hown => hown) hfill _

theorem fetchArray_reports [Element α] (hi : i.Home) (h : i.isNull = false)
    {c : Handle → UInt64 → Place UInt64 α → Call (Place UInt64 α)}
    (htarget : (c i.handle 0 ⟨some 0, none⟩).guard.map Prod.snd = some i.handle)
    (hslot : (c i.handle 0 ⟨some 0, none⟩).slot = i.handle)
    (hread : Readable fun room => perform out (out.reach .none) (c i.handle room.capacity room.wide)) :
    Reports out i.library (c i.handle 0 ⟨some 0, none⟩) (pure ()) (do
      let h ← i.checked
      Exchange.fetchArray i.library.options.attempts fun room => do
        return (← i.ask out.invoker (c h room.capacity room.wide)).filled) := by
  refine Reports.congr ?_ (checked_run h)
  refine exchange_reports hi (fun room => c i.handle room.capacity room.wide) htarget hslot hread
    (fun hquery => ?_) fun hnotes hfill => ?_
  · exact Exchange.fetchArray_fails _ hquery
  · exact Exchange.fetchArray_does hnotes (fun _ _ _ hown => hown) hfill _

end Instance

end Host

/-! ## Releases -/

/-- A release that fails leaves no object that could be asked. -/
theorem Site.release_gone [Resource O] [Layered O] {p : Part (Process ω) O} {k : Component}
    (site : Site p k) (x : Handle) :
    Ends (fun _ => True) (Fixed.releaseInstance p x) fun r s => r.1 ≠ Status.ok →
      ((p.view s).table.count? x).isSome = false := by
  refine Part.guard_failed (E := fun s => ((p.view s).table.count? x).isSome = false)
    (.of_run fun s _ => ?_) fun why s hs => ?_
  · cases ha : Release.answer ((p.view s).table.release x).2 with
    | ok a => exact .inl ⟨a, _, congrArg (·, (p.release x s).2) ha, trivial⟩
    | error why =>
      refine .inr ⟨why, _, congrArg (·, (p.release x s).2) ha, ?_⟩
      show ((p.view (p.put _ s)).table.count? x).isSome = false
      rw [site.view_put]
      show (((p.view s).table.release x).1.count? x).isSome = false
      rw [Table.release_error ha, Table.count?, (Table.release_missing ha).2]
      rfl
  · rw [site.live_fail]
    rwa [Table.count?, Option.isSome_map] at hs

theorem release_gone (out : Outside ω) (via : Invoker (Process ω)) (c : Component) (x : Handle)
    (s : Process ω)
    (hne : (perform out via (.releaseInstance c x) s).1.1 ≠ Status.ok) :
    ((perform out via (.releaseInstance c x) s).2.count? c x).isSome = false := by
  cases c with
  | zoo => exact zooSite.release_gone x s trivial hne
  | calculator => exact calculatorSite.release_gone x s trivial hne
  | primes => exact primesSite.release_gone x s trivial hne

namespace Host

/-- The release is noted before its status is looked at. -/
theorem Instance.release_run {i : Instance} (hi : i.Home) (h : i.isNull = false) {status : Status}
    {cells : Unit} {s u : Process ω}
    (hrun : perform out (out.reach .none) (.releaseInstance i.library.component i.handle) s =
      ((status, cells), u)) :
    i.release out.invoker s = i.library.checkStatus out.invoker Handle.null status
      (u.noted [.released i.library.component.ns i.handle]) := by
  have hcall : i.call out.invoker (.releaseInstance i.library.component i.handle) s =
      ((status, cells), u) := (congrFun (hi.call _) s).trans hrun
  unfold release
  rw [if_pos (by simpa using h)]
  exact (run_bind_ok (run_lift hcall)).trans rfl

/-- Where the object is gone, its component has the message for the running thread. -/
theorem Instance.release_reports {i : Instance} (hi : i.Home) (h : i.isNull = false) :
    Reports out i.library (.releaseInstance i.library.component i.handle) (pure ())
      (i.release out.invoker) := by
  refine ⟨fun {y why before s cells} hc hcode ht hend hrun => ?_, fun {s u status cells} hne hrun => ?_,
    fun {s u cells} hrun why hwhy => ?_⟩
  · obtain rfl : i.handle = y := congrArg Prod.snd (Option.some.inj hc)
    have hgone := release_gone out (out.reach .none) i.library.component i.handle s
    rw [hrun] at hgone
    rw [release_run hi h hrun]
    exact Library.checkStatus_failed hi out _ hcode ht hend (.inr ⟨rfl, hgone hcode⟩) _
  · obtain ⟨message, notes, hcheck⟩ := Library.checkStatus_blames hi hne Handle.null
      (u.noted [.released i.library.component.ns i.handle])
    refine ⟨message, notes ++ [.released i.library.component.ns i.handle], ?_⟩
    rw [release_run hi h hrun, hcheck, Process.noted_noted]
    rfl
  · rw [release_run hi h hrun] at hwhy
    cases hwhy

/-! ## Methods -/

/-- The methods of the bindings that make a call: the library of the component, the call that is
    made first, what is done if it fails, and the method. A method is given arguments with which
    the call is made: no placeholders, and no texts that cannot be passed. -/
inductive Method {σ : Type} [Journal σ] (via : Invoker σ) :
    {ρ α : Type} → Library → Call ρ → StateM σ Unit → Host σ α → Prop where
  -- every component
  | version (l : Library) : Method via l (.getVersion l.component (some 0) (some 0) (some 0))
      (pure ()) (l.version via)
  | classTypeId (i : Instance) : i.isNull = false →
      Method via i.library (.classTypeId i.library.component i.handle (some 0)) (pure ())
        (i.classTypeId via)
  | acquire (i : Instance) : i.isNull = false →
      Method via i.library (.acquireInstance i.library.component i.handle) (pure ()) (i.acquire via)
  | release (i : Instance) : i.isNull = false →
      Method via i.library (.releaseInstance i.library.component i.handle) (pure ()) (i.release via)
  /-- With the class of the object unknown. -/
  | adopt (target : Class) (i : Instance) : i.isNull = false →
      Method via i.library (.classTypeId i.library.component i.handle (some 0)) (i.drop via)
        (adopt via target i none)
  | classify (i : Instance) : i.isNull = false →
      Method via i.library (.classTypeId i.library.component i.handle (some 0)) (i.drop via)
        (classify via i)
  | borrow (l : Library) (target : Class) (raw : RawHandle) : raw.handle.isNull = false →
      raw.cached = none → Method via l (.classTypeId l.component raw.handle (some 0)) (pure ())
        (resolveBorrowed via l target raw)
  -- zoos
  | createZoo (l : Library) :
      Method via l (.createZoo (some FatHandle.null)) (pure ()) (Zoo.create via l)
  | addAnimal (i : Instance) (species : Boundary.Zoo.Species) (name : String) : i.isNull = false →
      '\x00' ∉ name.toList → Method via i.library (.addAnimal i.handle species.code (.text name))
        (pure ()) (Zoo.addAnimal via i species name)
  | animalCount (i : Instance) : i.isNull = false →
      Method via i.library (.animalCount i.handle (some 0)) (pure ()) (Zoo.animalCount via i)
  | animalAt (i : Instance) (index : UInt32) : i.isNull = false →
      Method via i.library (.animalAt i.handle index (some FatHandle.null)) (pure ())
        (Zoo.animalAt via i index)
  | iterate (i : Instance) : i.isNull = false →
      Method via i.library (.iterator i.handle (some FatHandle.null)) (pure ()) (Zoo.iterate via i)
  | nextAnimal (i : Instance) : i.isNull = false →
      Method via i.library (.nextAnimal i.handle (some FatHandle.null) (some false)) (pure ())
        (Zoo.nextAnimal via i)
  | nextMandatoryAnimal (i : Instance) : i.isNull = false →
      Method via i.library (.nextMandatoryAnimal i.handle (some FatHandle.null)) (pure ())
        (Zoo.nextMandatoryAnimal via i)
  | animalName (i : Instance) : i.isNull = false →
      Method via i.library (.animalName i.handle 0 ⟨some 0, none⟩) (pure ()) (Zoo.animalName via i)
  | roar (i : Instance) : i.isNull = false →
      Method via i.library (.tigerRoar i.handle 0 ⟨some 0, none⟩) (pure ()) (Zoo.roar via i)
  -- variables and calculators
  | createVariable (l : Library) (initial : Float) :
      Method via l (.createVariable initial (some Handle.null)) (pure ())
        (Calculator.createVariable via l initial)
  | createCalculator (l : Library) :
      Method via l (.createCalculator (some Handle.null)) (pure ()) (Calculator.createCalculator via l)
  | injectComponent (l : Library) (ns : String) (lookup : Address) : '\x00' ∉ ns.toList →
      Method via l (.injectComponent (.text ns) (some lookup)) (pure ())
        (Calculator.injectComponent via l ns lookup)
  | variableValue (i : Instance) : i.isNull = false →
      Method via i.library (.getVariable i.handle (some 0)) (pure ()) (Calculator.value via i)
  | setVariable (i : Instance) (value : Float) : i.isNull = false →
      Method via i.library (.setVariable i.handle value) (pure ()) (Calculator.setValue via i value)
  | enlistVariable (i v : Instance) : i.isNull = false → v.isNull = false →
      Method via i.library (.enlistVariable i.handle v.handle) (pure ())
        (Calculator.enlistVariable via i v)
  | enlistedVariable (i : Instance) (index : UInt32) : i.isNull = false →
      Method via i.library (.enlistedVariable i.handle index (some Handle.null)) (pure ())
        (Calculator.enlistedVariable via i index)
  | clearVariables (i : Instance) : i.isNull = false →
      Method via i.library (.clearVariables i.handle) (pure ()) (Calculator.clearVariables via i)
  | add (i : Instance) : i.isNull = false →
      Method via i.library (.add i.handle (some Handle.null)) (pure ()) (Calculator.add via i)
  | multiply (i : Instance) : i.isNull = false →
      Method via i.library (.multiply i.handle (some Handle.null)) (pure ())
        (Calculator.multiply via i)
  | apply (i : Instance) (x : Symbol) : i.isNull = false → Passable x →
      Method via i.library (.apply i.handle (.text x.ns) (.text x.name)) (pure ())
        (Calculator.apply via i x)
  | enlistPrimes (i sieve : Instance) : i.isNull = false → sieve.isNull = false →
      Method via i.library (.enlistPrimes i.handle sieve.handle) (pure ())
        (Calculator.enlistPrimes via i sieve)
  -- factorizations and sieves
  | createFactorization (l : Library) :
      Method via l (.createFactorization (some Handle.null)) (pure ()) (Primes.createFactorization via l)
  | createSieve (l : Library) :
      Method via l (.createSieve (some Handle.null)) (pure ()) (Primes.createSieve via l)
  | primesValue (i : Instance) : i.isNull = false →
      Method via i.library (.getValue i.handle (some 0)) (pure ()) (Primes.value via i)
  | setPrimesValue (i : Instance) (value : UInt64) : i.isNull = false →
      Method via i.library (.setValue i.handle value) (pure ()) (Primes.setValue via i value)
  | calculate (i : Instance) : i.isNull = false →
      Method via i.library (.calculate i.handle) (pure ()) (Primes.calculate via i)
  | setProgressCallback (i : Instance) (callback : Option Foreign) : i.isNull = false →
      Method via i.library (.setProgressCallback i.handle callback) (pure ())
        (Primes.setProgressCallback via i callback)
  | primeFactors (i : Instance) : i.isNull = false →
      Method via i.library (.primeFactors i.handle 0 ⟨some 0, none⟩) (pure ())
        (Primes.primeFactors via i)
  | primes (i : Instance) : i.isNull = false →
      Method via i.library (.primes i.handle 0 ⟨some 0, none⟩) (pure ()) (Primes.primes via i)

namespace Instance

variable {i : Instance} {c : Call ρ} (hi : i.Home) (h : i.isNull = false)
  (htarget : c.guard.map Prod.snd = some i.handle) (hslot : c.slot = i.handle)
include hi h htarget hslot

/-- A method that asks with the object, and does with the answer what cannot fail. -/
theorem asks_reports {f : Handle → Host (Process ω) α} (rest : ρ → Host (Process ω) α)
    (hf : ∀ s, f i.handle s = (i.ask out.invoker c >>= rest) s)
    (hrest : ∀ cells, NeverNative (fun _ => True) (rest cells)) :
    Reports out i.library c (pure ()) (liftM i.checked >>= f) :=
  ((ask_reports hi htarget hslot).bind hrest).congr fun s => (checked_run h s).trans (hf s)

end Instance

/-- Every method reports how its call went. -/
theorem Method.reports {l : Library} {c : Call ρ} {after : Act ω Unit} {x : Host (Process ω) α}
    (m : Method out.invoker l c after x) (hl : l.Home) {y : Handle}
    (hc : c.guard = some (l.component, y)) : Reports out l c after x := by
  have hown {β : Type} (b : β) : NeverNative (fun _ : Process ω => True) (pure b) :=
    .pure fun _ _ => trivial
  cases m with
  | version l => exact (Instance.ask_reports (i := ⟨l, Handle.null⟩) hl rfl rfl).bind fun _ => hown _
  | classTypeId i h => exact Instance.classTypeId_reports hl h
  | acquire i h =>
    refine Instance.asks_reports hl h rfl rfl (fun _ => do
      note (.acquired i.library.component.ns i.handle)
      return i) (fun _ => rfl) fun _ => ?_
    exact .bind (Q := fun _ _ => True) (fun _ _ => trivial) fun _ => hown _
  | release i h => exact Instance.release_reports hl h
  | adopt target i h => exact adopt_reports hl h target
  | classify i h => exact classify_reports hl h
  | borrow l target raw h hraw => exact resolveBorrowed_reports hl h hraw target
  | createZoo l =>
    exact made_reports (i := ⟨l, Handle.null⟩) hl rfl rfl (Zoo.createZoo_labels _).finds hc rfl
      (fun _ => rfl) _
  | addAnimal i species name h hname =>
    refine (Instance.ask_reports hl rfl rfl).congr fun s => (Instance.checked_run h s).trans ?_
    rw [if_neg (by simpa using hname)]
  | animalCount i h => exact Instance.asks_reports hl h rfl rfl _ (fun _ => rfl) fun _ => hown _
  | animalAt i index h =>
    refine Reports.congr ?_ (Instance.checked_run h)
    refine handed_reports hl rfl rfl (Zoo.animalAt_labels _ _ _).finds hc rfl fun cell => ?_
    exact resolveBorrowed_neverNative hl .animal (.fat (cell.getD FatHandle.null))
  | iterate i h =>
    exact Instance.makes_reports hl rfl rfl (Zoo.iterator_labels _ _).finds hc rfl
      h (fun _ => rfl) _ rfl
  | nextAnimal i h =>
    refine Reports.congr ?_ (Instance.checked_run h)
    refine handed_reports hl rfl rfl (Zoo.nextAnimal_labels _ _ _).finds hc rfl fun cells => ?_
    refine .ite (fun _ => ?_) fun _ => .pure fun _ _ => trivial
    exact .bind (resolve_neverNative hl .animal (.fat (cells.1.getD FatHandle.null))) fun _ => hown _
  | nextMandatoryAnimal i h =>
    exact Instance.makes_reports hl rfl rfl (Zoo.nextMandatoryAnimal_labels _ _).finds hc rfl
      h (fun _ => rfl) _ rfl
  | animalName i h =>
    exact Instance.fetchText_reports hl h rfl rfl (Boundary.Zoo.animalName_readable i.handle)
  | roar i h =>
    exact Instance.fetchText_reports hl h rfl rfl (Boundary.Zoo.tigerRoar_readable i.handle)
  | createVariable l initial =>
    exact made_reports (i := ⟨l, Handle.null⟩) hl rfl rfl (Calculator.createVariable_finds _ _) hc rfl
      (fun _ => rfl) _
  | createCalculator l =>
    exact made_reports (i := ⟨l, Handle.null⟩) hl rfl rfl (Calculator.createCalculator_finds _) hc rfl
      (fun _ => rfl) _
  | injectComponent l ns lookup hns =>
    refine (Instance.ask_reports (i := ⟨l, Handle.null⟩) hl rfl rfl).congr fun s => ?_
    exact run_bind_ok (run_lift_ok (textArg_ok hns) s)
  | variableValue i h => exact Instance.asks_reports hl h rfl rfl _ (fun _ => rfl) fun _ => hown _
  | setVariable i value h =>
    exact (Instance.ask_reports hl rfl rfl).congr (Instance.checked_run h)
  | enlistVariable i v h hv =>
    refine (Instance.ask_reports hl rfl rfl).congr fun s => (Instance.checked_run h s).trans ?_
    exact Instance.checked_run hv s
  | enlistedVariable i index h =>
    exact Instance.makes_reports hl rfl rfl (Calculator.enlistedVariable_finds _ _ _) hc rfl
      h (fun _ => rfl) _ rfl
  | clearVariables i h => exact (Instance.ask_reports hl rfl rfl).congr (Instance.checked_run h)
  | add i h =>
    exact Instance.makes_reports hl rfl rfl (Calculator.combine_finds _ 0 (· + ·) _) hc rfl
      h (fun _ => rfl) _ rfl
  | multiply i h =>
    exact Instance.makes_reports hl rfl rfl (Calculator.combine_finds _ 1 (· * ·) _) hc rfl
      h (fun _ => rfl) _ rfl
  | apply i x h hx =>
    refine (Instance.ask_reports hl rfl rfl).congr fun s => (Instance.checked_run h s).trans ?_
    refine (run_bind_ok (run_lift_ok (textArg_ok hx.1) s)).trans ?_
    exact run_bind_ok (run_lift_ok (textArg_ok hx.2) s)
  | enlistPrimes i sieve h hsieve =>
    refine (Instance.ask_reports hl rfl rfl).congr fun s => (Instance.checked_run h s).trans ?_
    exact Instance.checked_run hsieve s
  | createFactorization l =>
    exact made_reports (i := ⟨l, Handle.null⟩) hl rfl rfl (Primes.create_finds .factorization _) hc rfl
      (fun _ => rfl) _
  | createSieve l =>
    exact made_reports (i := ⟨l, Handle.null⟩) hl rfl rfl (Primes.create_finds .sieve _) hc rfl
      (fun _ => rfl) _
  | primesValue i h => exact Instance.asks_reports hl h rfl rfl _ (fun _ => rfl) fun _ => hown _
  | setPrimesValue i value h =>
    exact (Instance.ask_reports hl rfl rfl).congr (Instance.checked_run h)
  | calculate i h => exact (Instance.ask_reports hl rfl rfl).congr (Instance.checked_run h)
  | setProgressCallback i callback h =>
    exact (Instance.ask_reports hl rfl rfl).congr (Instance.checked_run h)
  | primeFactors i h =>
    exact Instance.fetchArray_reports hl h rfl rfl (Boundary.Primes.primeFactors_readable i.handle)
  | primes i h =>
    exact Instance.fetchArray_reports hl h rfl rfl (Boundary.Primes.primes_readable i.handle)

end Host

/-! ## Failures of calls -/

/-- A guarded call that fails does so with a fault that it has recorded in the end. -/
theorem perform_fails {c : Call ρ} {k : Component} {x : Handle} (hc : c.guard = some (k, x))
    (hne : (perform out (out.reach via) c s).1.1 ≠ Status.ok) : ∃ why before,
      (perform out (out.reach via) c s).1.1 = why.code ∧ why.code ≠ Status.ok ∧
        (perform out (out.reach via) c s).2 = (k.fail x why before).2 := by
  have hgrowth : OutlastsGrowth out (fun _ => True) fun _ => True :=
    { zoo := (outlastsInserts_true _).toOutlastsRefs
      calculator := outlastsInserts_true _, primes := outlastsInserts_true _
      makeZoo := fun _ _ _ => trivial
      pushAnimal := fun _ _ _ _ => trivial, updateCalculator := fun _ _ _ _ => trivial
      updatePrimes := fun _ _ _ _ => trivial, updateHeld := fun _ _ _ _ _ => trivial
      entryPoint := fun _ _ _ _ => trivial, registerSymbol := fun _ _ _ _ _ => trivial
      injected := fun _ _ _ _ => trivial, inject := fun _ _ _ _ _ => trivial
      apply := fun _ _ _ _ => trivial, progress := fun _ _ _ _ => trivial }
  have hinner : c.Asks → Inner (out.reach via) (fun _ => True) (fun _ => True) c.sieve := fun _ =>
    { lookup := fun _ _ _ _ _ => ⟨fun _ _ => trivial, trivial⟩
      version := fun _ _ _ _ _ => trivial, lastError := fun _ _ _ _ _ _ _ => trivial
      primes := fun _ _ _ _ _ _ => trivial }
  rcases (perform_routed hgrowth hinner (fun _ _ _ _ => trivial) (fun _ _ => trivial) hc).tells s
    trivial with ⟨hok, -⟩ | ⟨why, before, hcode, hwhy, -, hstate⟩
  · exact absurd hok hne
  · exact ⟨why, before, hcode, hwhy, hstate⟩

namespace Host

/-- A failure of a component is the failure of the method: a call that failed for a reason `why`,
    which it recorded for its target `y`, makes the method fail with the component's name, the
    code and the message of `why`. The message is asked for with the target, or with the null
    handle if there is none and after a release; it is there unless the target is gone. All this
    leaves are notes. A call that succeeds makes no method fail as the component would. And where
    the last error of an object that is gone is asked for, there is no message. -/
theorem failures_reported (out : Outside ω) {l : Library} (hl : l.Home) (s : Process ω) :
    (∀ {ρ α : Type} {c : Call ρ} {after : Act ω Unit} {x : Host (Process ω) α} {y : Handle},
      Method out.invoker l c after x → c.guard = some (l.component, y) →
      ((perform out (out.reach .none) c s).1.1 ≠ Status.ok → ∃ why before,
        (perform out (out.reach .none) c s).1.1 = why.code ∧
        (perform out (out.reach .none) c s).2 = (l.component.fail y why before).2 ∧
        (Servable why.message → why.message.toList.getLast? ≠ some '\x00' → ∃ notes,
          x s = (.error (.native l.component.name why.code
              ((perform out (out.reach .none) c s).2.reported l.component c.slot why)),
            (after ((perform out (out.reach .none) c s).2.noted notes)).2))) ∧
      ((perform out (out.reach .none) c s).1.1 = Status.ok →
        ∀ why, (x s).1 = .error why → why.isNative = false)) ∧
    ∀ h : Handle, h.isNull = false → (s.count? l.component h).isSome = false →
      Instance.lastError out.invoker ⟨l, h⟩ s =
        (.error (.native l.component.name Status.invalidParam none), s) := by
  refine ⟨fun {ρ α c after x y} m hc => ?_, fun h hn hgone => ?_⟩
  · have hrun : perform out (out.reach .none) c s = (((perform out (out.reach .none) c s).1.1,
        (perform out (out.reach .none) c s).1.2), (perform out (out.reach .none) c s).2) := rfl
    refine ⟨fun hne => ?_, fun hok => ?_⟩
    · obtain ⟨why, before, hcode, hwhy, hstate⟩ := perform_fails hc hne
      refine ⟨why, before, hcode, hstate, fun ht hend => ?_⟩
      rw [hcode, hstate] at hrun
      rw [hstate]
      exact (m.reports hl hc).failed hc hwhy ht hend hrun
    · rw [hok] at hrun
      exact (m.reports hl hc).passed hrun
  · refine (Instance.checked_run (i := ⟨l, h⟩) hn s).trans ?_
    have hcode : (Fault.unknownHandle h).code ≠ Status.ok :=
      (by decide : Status.invalidParam ≠ Status.ok)
    exact Library.fetchLastError_refused hl hcode (Process.lastRead_gone hn hgone)

def lone : Process Unit := (perform idle .none (.createCalculator (some Handle.null)) { outer := () }).2

/-- It is no variable to be enlisted with itself, and of another object nothing is known. -/
theorem failures_reported_lone :
    (Calculator.enlistVariable idle.invoker ⟨.own .calculator { attempts := 0 }, ⟨1⟩⟩
        ⟨.own .calculator {}, ⟨1⟩⟩ lone).1 =
      .error (.native "Calculator" Status.invalidCast (some "not a variable")) ∧
    (Instance.lastError idle.invoker ⟨.own .calculator {}, ⟨7⟩⟩ lone).1 =
      .error (.native "Calculator" Status.invalidParam none) := by
  have hhome (options : LoadOptions) : (Library.own .calculator options).Home :=
    Library.own_home .calculator options _
  refine ⟨?_, ?_⟩
  · obtain ⟨hreports, -⟩ := failures_reported idle (hhome { attempts := 0 }) lone
    obtain ⟨hfails, -⟩ := hreports (.enlistVariable
      ⟨.own .calculator { attempts := 0 }, ⟨1⟩⟩ ⟨.own .calculator {}, ⟨1⟩⟩ rfl rfl) rfl
    obtain ⟨why, before, hcode, hstate, htold⟩ := hfails (by decide +kernel)
    have hlive : ((perform idle (idle.reach .none) (.enlistVariable ⟨1⟩ ⟨1⟩) lone).2.count?
        .calculator ⟨1⟩).isSome = true := by decide +kernel
    have hread : (perform idle (idle.reach .none) (.enlistVariable ⟨1⟩ ⟨1⟩) lone).2.lastRead
        .calculator ⟨1⟩ = .ok (some "not a variable") := by decide +kernel
    have hstate : (perform idle (idle.reach .none) (.enlistVariable ⟨1⟩ ⟨1⟩) lone).2 =
        (Component.calculator.fail ⟨1⟩ why before).2 := hstate
    have hmessage : why.message = "not a variable" := by
      have h := hread
      rw [hstate] at hlive h
      rw [Component.recorded_live rfl hlive] at h
      exact Option.some.inj (Except.ok.inj h)
    have hwhy : why.code = Status.invalidCast := hcode.symm.trans (by decide +kernel)
    rw [hmessage] at htold
    obtain ⟨notes, hrun⟩ := htold (by unfold Servable; decide +kernel) (by decide +kernel)
    rw [hrun, hwhy]
    show Except.error (Failure.native "Calculator" _ (Process.reported _ .calculator ⟨1⟩ why)) = _
    rw [Process.reported, if_pos (.inr hlive), hmessage]
  · rw [(failures_reported idle (hhome {}) lone).2 ⟨7⟩ rfl (by decide +kernel)]
    rfl

end Host

end Boundary
