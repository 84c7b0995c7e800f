/-
  Boundary.Proofs.Host.Instance — wrappers, and what their use upholds.

  An owned wrapper stands for one reference (`Instance.holds`). Where a class is checked
  and does not fit, the reference is given back. A release of a reference that is held
  does not fail, so a drop notes nothing.

  Proved: balanced books are upheld (`books_upheld`), and so is what notes and calls keep
  whatever references are held (`upheld_const`).
-/
import Boundary.Host.Resolve
import Boundary.Proofs.Host.Library

namespace Boundary.Host

open Exchange (Host)

variable {ω α ρ : Type} {J : ω → Prop} {e : Ledger} {φ : Process ω → Prop} {out : Outside ω}
  {leave : Leave} {B : Ledger → Process ω → Prop}

/-- The outcome of a computation as an answer of its own. -/
theorem outcome_does {σ : Type} {P : σ → Prop} {x : Host σ α} {Q : α → σ → Prop}
    {E E' : Failure → σ → Prop} (h : Does P x Q E) :
    Does P (Host.outcome x) (Either Q E) E' := h

theorem outcome_run {σ : Type} {x : Host σ α} {r : Except Failure α} {s u : σ} (h : x s = (r, u)) :
    Host.outcome x s = (.ok r, u) := by
  show (Except.ok (x s).1, (x s).2) = _
  rw [h]

def MovesNone (B : Ledger → Process ω → Prop) (x : Host (Process ω) α) : Prop :=
  ∀ e, Does (B e) x (fun _ => B e) fun _ => B e

namespace Instance

variable {i : Instance}

def holds (i : Instance) : Ledger := .of i.library.component [i.handle]

abbrev Home (i : Instance) : Prop := i.library.Home

theorem holds_nulled (i : Instance) : i.nulled.holds = 0 := Ledger.of_null _

theorem holds_of_isNull (h : i.isNull = true) : i.holds = 0 := by
  have hn : i.handle = Handle.null := Table.isNull_iff.mp h
  rw [holds, hn, Ledger.of_null]

/-- Only a placeholder fails the check. -/
theorem checked_from {P E : Process ω → Prop} (hnull : i.isNull = true → ∀ s, P s → E s) :
    Does P (liftM i.checked : Host (Process ω) Handle) (fun h s => h = i.handle ∧ P s)
      fun _ => E := by
  unfold checked
  split
  · next hn => exact .throw (hnull hn)
  · exact .pure fun _ h => ⟨rfl, h⟩

theorem checked_does {P : Process ω → Prop} :
    Does P (liftM i.checked : Host (Process ω) Handle) (fun h s => h = i.handle ∧ P s)
      fun _ => P :=
  checked_from fun _ _ h => h

/-- What a call leaves behind is known once the status is passed, or where it is not. -/
theorem ask_told (hi : i.Home) {P E : Process ω → Prop} (hE : OutlastsNotes E)
    {Q : ρ → Process ω → Prop} {c : Call ρ} (hcall : Ends P (perform out (out.reach .none) c) fun r s =>
      if r.1 = Status.ok then Q r.2 s else E s) :
    Does P (i.ask out.invoker c) Q fun _ => E := by
  refine .bind (.monadLift (hi.call c ▸ hcall)) fun (status, cells) => ?_
  refine .bind (Q := fun _ => Q cells) ?_ fun _ => .pure fun _ h => h
  refine Library.checkStatus_does hE hi _ (fun hok s h => ?_) fun hne s h => ?_
  · rwa [if_pos hok] at h
  · rwa [if_neg hne] at h

/-- Asking, where it is known what the call comes to. -/
theorem ask_from (u : Upheld out leave B) (hi : i.Home) {P : Process ω → Prop} {c : Call ρ}
    (hcall : Ends P (perform out (out.reach .none) c)
      fun r => B (e + if r.1 = Status.ok then c.gives r.2 else 0)) :
    Does P (i.ask out.invoker c) (fun cells => B (e + c.gives cells)) fun _ => B e := by
  refine ask_told hi (u.outlastsNotes e) (hcall.post fun r s h => ?_)
  split at h
  · next hok => rwa [if_pos hok]
  · next hne => rwa [if_neg hne, ← add_zero e]

theorem ask_does (u : Upheld out leave B) (hi : i.Home) {c : Call ρ} (hc : c.Plain)
    (hmay : c.Allowed leave) :
    Does (B e) (i.ask out.invoker c) (fun cells => B (e + c.gives cells)) fun _ => B e :=
  ask_from u hi (u.call c hc hmay e)

/-- What a call leaves behind where it succeeds is known once the status is passed. -/
theorem ask_tells (hi : i.Home) {P : Process ω → Prop} {Q : ρ → Process ω → Prop} {c : Call ρ}
    (hcall : Ends P (perform out (out.reach .none) c) fun r s => r.1 = Status.ok → Q r.2 s) :
    Does P (i.ask out.invoker c) Q fun _ _ => True := by
  refine ask_told hi (fun _ _ _ _ => trivial) (hcall.post fun r s h => ?_)
  split
  · next hok => exact h hok
  · trivial

theorem lastError_movesNone (u : Upheld out leave B) (hi : i.Home) :
    MovesNone B (i.lastError out.invoker) :=
  fun e => .bind checked_does fun _ => .assume fun _ =>
    Library.fetchLastError_does (u.outlastsNotes e) hi _

theorem classTypeId_movesNone (u : Upheld out leave B) (hi : i.Home) :
    MovesNone B (i.classTypeId out.invoker) :=
  fun _ => .bind checked_does fun _ => .assume fun _ => Library.classTypeId_does u hi _

/-! ## References -/

theorem acquire_does (u : Upheld out leave B) (hi : i.Home) :
    Does (B e) (i.acquire out.invoker) (fun i' s => i' = i ∧ B (e + i.holds) s)
      fun _ => B e := by
  refine .bind checked_does fun h => .assume fun hh => ?_
  subst hh
  refine .bind (ask_does u hi (c := .acquireInstance i.library.component i.handle) trivial trivial)
    fun _ => ?_
  exact .bind ((u.outlastsNotes _).note ⟨rfl, rfl⟩) fun _ => .pure fun _ h => ⟨rfl, h⟩

/-- What is known once the reference is gone, and what is where its release failed. -/
theorem release_does {R Q E : Process ω → Prop} (hi : i.Home) (hQ : OutlastsNotes Q)
    (hE : OutlastsNotes E)
    (hcall : Ends R (perform out (out.reach .none) (.releaseInstance i.library.component i.handle))
      fun r s => if r.1 = Status.ok then Q s else E s)
    (hnull : i.isNull = true → ∀ s, R s → Q s) :
    Does R (i.release out.invoker) (fun _ => Q) fun _ => E := by
  refine .ite (fun _ => ?_) fun hn => .pure (hnull (by simpa using hn))
  refine .bind (.monadLift (hi.call _ ▸ hcall)) fun (status, _) => ?_
  have hnotes : OutlastsNotes fun s => if status = Status.ok then Q s else E s := by
    by_cases hok : status = Status.ok
    · simpa only [if_pos hok] using hQ
    · simpa only [if_neg hok] using hE
  refine .bind (hnotes.note ⟨rfl, rfl⟩) fun _ => ?_
  refine Library.checkStatus_does hE hi _ (fun hok s h => ?_) fun hne s h => ?_
  · rwa [if_pos hok] at h
  · rwa [if_neg hne] at h

/-- A placeholder has nothing to release, so nothing is noted when it is dropped. -/
theorem drop_null {via : Invoker (Process ω)} (h : i.isNull = true) (s : Process ω) :
    i.drop via s = ((), s) := by
  have hrelease : i.release via s = (.ok (), s) := by
    unfold release
    rw [h]
    rfl
  exact state_bind hrelease

/-- What is dropped when an instance is detached is a placeholder. -/
theorem detach_run {via : Invoker (Process ω)} (i : Instance) (s : Process ω) :
    i.detach via s = (i.handle, s) :=
  state_bind (drop_null (i := i.nulled) rfl s)

/-- To give a reference up without giving it back changes nothing. -/
theorem detach_silent {via : Invoker (Process ω)} (i : Instance) :
    (do let _ ← i.detach via : Act ω Unit) = pure () :=
  funext fun s => state_bind (detach_run i s)

/-- A reference that is held is given back. -/
theorem release_books (hi : i.Home) :
    Does (Balanced J (e + i.holds)) (i.release out.invoker) (fun _ => Balanced J e)
      fun _ => Books J e fun _ => False := by
  refine release_does hi books_outlastsNotes books_outlastsNotes ?_ fun hn s h => ?_
  · refine (perform_release _ _ _).post fun r s h => ?_
    split
    · exact h.balanced
    · next hne => exact h.mono fun _ hok => hne hok
  · rwa [holds_of_isNull hn, add_zero] at h

/-- A note of whatever kind is not made where the books balance. -/
theorem drop_books (hi : i.Home) :
    Ends (Balanced J (e + i.holds)) (i.drop out.invoker) fun _ => Balanced J e := by
  refine .bind (release_books hi) fun r => ?_
  cases r with
  | ok _ => exact .pure fun _ h => h
  | error why =>
    exact fun s h => ⟨h.1.same rfl rfl rfl, fun hb => (h.2 hb).2.elim⟩

end Instance

/-- There is nothing that the drop of a view could change. -/
theorem Borrowed.drop_silent {via : Invoker (Process ω)} (b : Borrowed) :
    (b.drop via : Act ω Unit) = pure () :=
  b.inner.detach_silent

/-- Books that balance are upheld, whatever is done to objects. -/
theorem books_upheld (q : OutsideOnly J out) : Upheld out .all (Balanced J) where
  outlastsNotes _ := books_outlastsNotes
  guarded _ _ h := h.1.reserved
  call c hc _ := perform_gives q .none c hc
  release hl _ x := (Instance.release_books (i := ⟨_, x⟩) hl).failing fun _ _ h => h.balanced
  drop hl _ x := Instance.drop_books (i := ⟨_, x⟩) hl

/-- What notes and calls keep is upheld, whatever references are held. -/
theorem upheld_const {P : Process ω → Prop} (hnote : ∀ n s, P s → P (Journal.note n s))
    (hguard : ∀ s, P s → s.registry.Guarded)
    (hcall : ∀ {ρ : Type} (c : Call ρ), (∀ a, c.handedOver = some a → a.Native) →
      c.Allowed leave → Ends P (perform out (out.reach .none) c) fun _ => P) :
    Upheld out leave fun _ => P := by
  have hrelease {l : Library} (hl : l.Home) (x : Handle) :
      Does P (Instance.release out.invoker ⟨l, x⟩) (fun _ => P) fun _ => P := by
    refine Instance.release_does (i := ⟨l, x⟩) hl (fun n _ => hnote n) (fun n _ => hnote n) ?_
      fun _ _ h => h
    refine (hcall (.releaseInstance l.component x) (fun _ h => by cases h) trivial).post
      fun r s h => ?_
    rwa [ite_self]
  refine ⟨fun _ n _ => hnote n, fun _ => hguard, fun c hc hmay _ => hcall c (fun a ha => ?_) hmay,
    fun hl _ => hrelease hl, fun hl _ x => .bind (hrelease hl x) fun r => ?_⟩
  · cases c with
    | injectComponent ns lookup => exact hc a ha
    | _ => cases ha
  · cases r with
    | ok _ => exact .pure fun _ h => h
    | error why => exact hnote _

/-! ## Resolution -/

/-- The instance becomes the wrapper's, or comes back with the failure. -/
theorem wrapTagged_does {P : Process ω → Prop} (hP : OutlastsNotes P) (target : Class) (i : Instance)
    (tag : Tag) : Does P (wrapTagged target i tag) (fun j s => j = i ∧ P s)
      fun e s => e.2 = i ∧ P s := by
  unfold wrapTagged dispatch
  cases Class.ofTag? i.library.component tag with
  | some known =>
    dsimp only
    unfold Dispatched.convert
    cases target.accepts.contains known with
    | true => exact .pure fun _ h => ⟨rfl, h⟩
    | false => exact .throw fun _ h => ⟨rfl, h⟩
  | none => exact .bind (hP.note ⟨rfl, rfl⟩) fun _ => .pure fun _ h => ⟨rfl, h⟩

/-- On whatever exit, what notes and the question for the class keep is kept, and the instance is
    the one that was given. -/
theorem resolveInstance_does {P : Process ω → Prop} {via : Invoker (Process ω)} (hP : OutlastsNotes P)
    (target : Class) {i : Instance} (hasks : Does P (i.classTypeId via) (fun _ => P) fun _ => P)
    (cached : Option Tag) :
    Does P (resolveInstance via target i cached) (fun j s => j = i ∧ P s)
      fun e s => e.2 = i ∧ P s := by
  refine .ite (fun _ => .pure fun _ h => ⟨rfl, h⟩) fun _ => ?_
  have htag : Does P (tagOf via i cached) (fun _ => P) fun e s => e.2 = i ∧ P s := by
    cases cached with
    | some tag => exact .pure fun _ h => h
    | none => exact .adapt (hasks.failing fun _ _ h => ⟨rfl, h⟩)
  exact .bind htag (wrapTagged_does hP target i)

/-- What a resolution answers, or gives back, is the instance that it was given. -/
theorem resolveInstance_given (via : Invoker (Process ω)) (target : Class) (i : Instance)
    (cached : Option Tag) (s : Process ω) :
    Either (fun j _ => j = i) (fun e _ => e.2 = i) (resolveInstance via target i cached s).1 s := by
  have hasks : Does (fun _ => True) (i.classTypeId via) (fun _ _ => True) fun _ _ => True := by
    intro s _
    cases ((i.classTypeId via).run s).1 <;> trivial
  have h := resolveInstance_does (fun _ _ _ _ => trivial) target hasks cached s trivial
  revert h
  show Either _ _ (resolveInstance via target i cached s).1 _ → _
  cases (resolveInstance via target i cached s).1 <;> exact And.left

/-- What comes back with a failure is settled before the failure is told. -/
theorem Resolution.settled_does {P : Process ω → Prop} {x : Resolution (Process ω) Instance}
    {settle : Instance → Act ω Unit} {Q : Instance → Process ω → Prop}
    {E : Failure × Instance → Process ω → Prop} {E' : Failure → Process ω → Prop}
    (hx : Does P x Q E) (hsettle : ∀ why j, Ends (E (why, j)) (settle j) fun _ => E' why) :
    Does P (x.settled settle) Q E' := by
  refine .bind (Q := Either Q E) (.monadLift hx) fun r => ?_
  cases r with
  | ok _ => exact .pure fun _ h => h
  | error e => exact .bind (.monadLift (hsettle e.1 e.2)) fun _ => .throw fun _ h => h

section

variable {via : Invoker (Process ω)} {x y : Resolution (Process ω) Instance}
  {settle : Instance → Act ω Unit} {i : Instance} {s s' : Process ω}

theorem Resolution.settled_ok (h : x s = (.ok i, s')) : x.settled settle s = (.ok i, s') :=
  (run_bind_ok (run_lift h)).trans rfl

theorem Resolution.settled_error {why : Failure} (h : x s = (.error (why, i), s')) :
    x.settled settle s = (.error why, (settle i s').2) :=
  (run_bind_ok (run_lift h)).trans rfl

/-- What becomes of the instance is of no consequence for the answer. -/
theorem Resolution.settled_answer (settle settle' : Instance → Act ω Unit) :
    (x.settled settle s).1 = (x.settled settle' s).1 := by
  cases hx : x s with
  | mk r u =>
    cases r with
    | ok _ => rw [settled_ok hx, settled_ok hx]
    | error e =>
      obtain ⟨why, j⟩ := e
      rw [settled_error hx, settled_error hx]

theorem Resolution.settled_congr (h : x s = y s') : x.settled settle s = y.settled settle s' := by
  cases hy : y s' with
  | mk r u =>
    cases r with
    | ok _ => rw [settled_ok hy, settled_ok (h.trans hy)]
    | error e =>
      obtain ⟨why, j⟩ := e
      rw [settled_error hy, settled_error (h.trans hy)]

/-- A wrapper is made where the resolution gives one, and of the instance that it was given. -/
theorem Resolution.settled_made {target : Class} {cached : Option Tag} {j : Instance}
    (h : (resolveInstance via target i cached).settled settle s = (.ok j, s')) :
    resolveInstance via target i cached s = (.ok i, s') ∧ j = i := by
  have hgiven := resolveInstance_given via target i cached s
  cases hrun : resolveInstance via target i cached s with
  | mk r u =>
    rw [hrun] at hgiven
    cases r with
    | ok k =>
      obtain rfl : k = i := hgiven
      rw [settled_ok hrun] at h
      cases h
      exact ⟨rfl, rfl⟩
    | error e =>
      obtain ⟨why, k⟩ := e
      rw [settled_error hrun] at h
      cases h

/-- A placeholder is wrapped as anything. -/
theorem resolveInstance_null {target : Class} {cached : Option Tag} (h : i.isNull = true) :
    resolveInstance via target i cached s = (.ok i, s) := by
  unfold resolveInstance
  rw [if_pos h]
  rfl

/-- A class that did not come with the handle is asked for first. -/
theorem resolveInstance_none {target : Class} (h : i.isNull = false) :
    resolveInstance via target i none =
      (i.classTypeId via).adapt (·, i) >>= wrapTagged target i := by
  unfold resolveInstance
  rw [if_neg (by simp [h])]
  rfl

theorem resolveInstance_some {target : Class} {tag : Tag} (h : i.isNull = false) :
    resolveInstance via target i (some tag) = wrapTagged target i tag := by
  unfold resolveInstance
  rw [if_neg (by simp [h])]
  rfl

/-- Where the question for the class fails, the instance is settled as it is. -/
theorem Resolution.settled_none (h : i.isNull = false) (target : Class) :
    (resolveInstance via target i none).settled settle s =
      ((i.classTypeId via).outcome >>= fun
        | .ok tag => (wrapTagged target i tag).settled settle
        | .error why => do
          settle i
          throw why : Host (Process ω) Instance) s := by
  rw [resolveInstance_none h]
  cases hasked : i.classTypeId via s with
  | mk r s' =>
    rw [run_bind_ok (outcome_run hasked)]
    have hadapted := run_adapt (·, i) hasked
    cases r with
    | ok tag => exact settled_congr (run_bind_ok hadapted)
    | error why => exact settled_error (run_bind_error hadapted)

end

theorem resolveInstance_upheld (u : Upheld out leave B) (target : Class) {i : Instance}
    (hi : i.Home) (cached : Option Tag) :
    Does (B e) (resolveInstance out.invoker target i cached) (fun j s => j = i ∧ B e s)
      fun r s => r.2 = i ∧ B e s :=
  resolveInstance_does (u.outlastsNotes e) target (Instance.classTypeId_movesNone u hi e) cached

/-- The reference is kept or given back. -/
theorem adopt_does (u : Upheld out leave B) (target : Class) {i : Instance} (hi : i.Home)
    (cached : Option Tag) :
    Does (B (e + i.holds)) (adopt out.invoker target i cached)
      (fun i' s => i' = i ∧ B (e + i.holds) s) fun _ => B e := by
  refine Resolution.settled_does (resolveInstance_upheld u target hi cached) fun _ j => .assume fun hj => ?_
  subst hj
  exact u.drop hi _ _

/-- A new wrapper holds the reference that came with the handle. -/
theorem resolve_does (u : Upheld out leave B) {l : Library} (hl : l.Home) (target : Class)
    (raw : RawHandle) :
    Does (B (e + .of l.component [raw.handle])) (resolve out.invoker l target raw)
      (fun i s => i.Home ∧ B (e + i.holds) s) fun _ => B e := by
  refine (adopt_does u target (i := ⟨l, raw.handle⟩) hl raw.cached).post fun i s h => ?_
  obtain ⟨rfl, h⟩ := h
  exact ⟨hl, h⟩

/-- A view takes no reference, and its instance is detached where there is to be none. -/
theorem resolveBorrowed_does (u : Upheld out leave B) {l : Library} (hl : l.Home) (target : Class)
    (raw : RawHandle) :
    Does (B e) (resolveBorrowed out.invoker l target raw)
      (fun i s => (i.Home ∧ i.library = l) ∧ B e s) fun _ => B e := by
  have hresolved := resolveInstance_upheld (e := e) u target (i := ⟨l, raw.handle⟩) hl raw.cached
  refine Resolution.settled_does (hresolved.post fun i s h => ?_) fun _ j => .assume fun _ => ?_
  · obtain ⟨rfl, h⟩ := h
    exact ⟨⟨hl, rfl⟩, h⟩
  · rw [Instance.detach_silent]
    exact .pure fun _ h => h

/-- A reference whose class cannot be queried is given back. -/
theorem classify_does (u : Upheld out leave B) {i : Instance} (hi : i.Home) :
    Does (B (e + i.holds)) (classify out.invoker i) (fun _ => B (e + i.holds))
      fun _ => B e := by
  refine .bind (outcome_does (Instance.classTypeId_movesNone u hi _)) fun r => ?_
  cases r with
  | ok tag => exact .pure fun _ h => h
  | error why => exact .bind (.monadLift (u.drop hi _ _)) fun _ => .throw fun _ h => h

end Boundary.Host
