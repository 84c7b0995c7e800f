/-
  Boundary.Proofs.Host.Library — loaded components, and what their use upholds.

  What is known may depend on the references that the caller holds: a family `B` of facts,
  one for each ledger. It is upheld (`Upheld`) if it is kept by plain notes, by calls, which
  add what they give to the ledger, and by giving references back. Books that balance with
  the ledger are upheld; so is what does not depend on the ledger, if calls keep it.

  A library at home calls functions of the components alone. What the bindings do around a
  call, fetching a message or a text in several attempts included, moves no reference: it
  reads and notes. So asking gives the caller what the call gives, and where the call
  failed, nothing.
-/
import Boundary.Host.Instance
import Boundary.Proofs.Course.Perform
import Boundary.Proofs.Perform

namespace Boundary

open Exchange (Host Room Filled)

/-- What calls may do to objects of the zoo component: which iterators they may move on, and
    which zoos they may add animals to. -/
structure Leave where
  advance : Handle → Prop
  grow : Handle → Prop

namespace Leave

def all : Leave := ⟨fun _ => True, fun _ => True⟩

/-- Any zoo may grow, but only some iterators may be moved on. -/
def turns (turn : Handle → Prop) : Leave := ⟨turn, fun _ => True⟩

end Leave

variable {σ ω α ρ : Type} {J : ω → Prop} {e : Ledger} {ψ : Prop} {out : Outside ω}
  {leave : Leave} {B : Ledger → Process ω → Prop}

/-! ## Notes -/

def OutlastsNotes [Journal σ] (P : σ → Prop) : Prop :=
  ∀ n : Note, n.Plain → ∀ s, P s → P (Journal.note n s)

theorem books_outlastsNotes : OutlastsNotes (Books J e fun _ => ψ) :=
  fun n hn _ h => h.notes [n] (by simpa using hn)

section

variable [Journal σ] {P : σ → Prop}

theorem OutlastsNotes.note {ε : Type} (h : OutlastsNotes P) {n : Note} (hn : n.Plain)
    {E : ε → σ → Prop} :
    Does P (note n : ExceptT ε (StateM σ) PUnit) (fun _ => P) E :=
  fun s hs => h n hn s hs

/-! ## Fetching -/

namespace Exchange

variable {E : Failure → σ → Prop} (h : OutlastsNotes P)
  (hown : ∀ why s, P s → why.isNative = false → E why s)
include h hown

/-- What is fetched in calls fails as they do, or with a failure of the bindings' own. -/
theorem fetchFrom_does [Element α] {fill : Room UInt64 → Host σ (Filled UInt64 α)}
    (hf : ∀ room, Does P (fill room) (fun _ => P) E) (total left : Nat) :
    Does P (fetchFrom fill total left) (fun _ => P) E := by
  induction left with
  | zero => exact .throw fun s hs => hown _ s hs rfl
  | succ left ih =>
    refine .bind (hf .query) fun asked => ?_
    refine .ite (fun _ => .pure fun _ hs => hs) fun _ => ?_
    refine .ite (fun _ => .throw_bind fun s hs => hown _ s hs rfl) fun _ => ?_
    refine .bind (hf (.buffer asked.needed)) fun filled => ?_
    refine .ite (fun _ => ?_) fun _ => ?_
    · exact .bind (h.note ⟨rfl, rfl⟩) fun _ => .pure fun _ hs => hs
    · exact .bind (h.note ⟨rfl, rfl⟩) fun _ => ih

theorem fetchArray_does [Element α] {fill : Room UInt64 → Host σ (Filled UInt64 α)}
    (hf : ∀ room, Does P (fill room) (fun _ => P) E) (attempts : Nat) :
    Does P (fetchArray attempts fill) (fun _ => P) E :=
  .bind (fetchFrom_does h hown hf _ _) fun _ => .pure fun _ h => h

theorem fetchText_does {fill : Room UInt32 → Host σ (Filled UInt32 UInt8)}
    (hf : ∀ room, Does P (fill room) (fun _ => P) E) (attempts : Nat) :
    Does P (fetchText attempts fill) (fun _ => P) E := by
  refine .bind (fetchFrom_does h hown (fun room => ?_) _ _) fun bytes => ?_
  · refine .bind (Q := fun _ => P) (.lift (fun _ _ _ h => h) fun why hw s hs => ?_) fun room => ?_
    · cases room with
      | query => cases hw
      | buffer n =>
        rw [Room.asText] at hw
        split at hw
        · cases hw
        · cases hw
          exact hown _ s hs rfl
    · exact .bind (hf room) fun _ => .pure fun _ h => h
  · split
    · exact .pure fun _ h => h
    · exact .throw fun s hs => hown _ s hs rfl

end Exchange

end

/-! ## Calls -/

namespace Host.Library

variable {l : Library}

structure Home (l : Library) : Prop where
  lookup : l.lookup.Native
  resolved : ∀ f a, l.resolved.lookup f = some a → a.Native

theorem Home.call (hl : l.Home) (c : Call ρ) :
    l.call out.invoker c = perform out (out.reach .none) c := by
  have haddress : (l.address c.target).Native := by
    unfold address
    cases hr : l.resolved.lookup c.target with
    | some a => exact hl.resolved _ a hr
    | none => exact ⟨_, rfl⟩
  obtain ⟨f, hf⟩ := haddress
  rw [Library.call, hf]
  rfl

/-! ## The last-error channel -/

section

variable [Journal σ] {via : Invoker σ} {s s' : σ} {x : Handle} {status : Status}

/-- The text that was fetched is the message, if the flag tells that there is one. -/
theorem fetchLastError_run {r : Except Failure String} {flag : Bool}
    (h : Exchange.fetchText l.options.attempts (l.askLastError via x) (s, false) = (r, (s', flag))) :
    l.fetchLastError via x s = (r.map fun text => if flag then some text else none, s') := by
  simp only [fetchLastError, h]

theorem messageFor_found {message : Option String}
    (h : l.fetchLastError via x s = (.ok message, s')) :
    l.messageFor via x status s = (message, s') :=
  state_bind h

/-- A message that cannot be had is left out. -/
theorem messageFor_lost {why : Failure} (h : l.fetchLastError via x s = (.error why, s')) :
    l.messageFor via x status s =
      (none, Journal.note (.messageLost l.component.name status why) s') :=
  state_bind h

/-- Whatever message there is goes with the status. -/
theorem checkStatus_run (hne : status ≠ Status.ok) {message : Option String}
    (h : l.messageFor via x status s = (message, s')) :
    l.checkStatus via x status s = (.error (.native l.component.name status message), s') := by
  rw [checkStatus, if_pos hne]
  exact (run_bind_ok (run_lift h)).trans rfl

end

section

variable [Journal σ] {via : Invoker σ} {P : σ → Prop} {h : Handle}

def AsksKeep (via : Invoker σ) (l : Library) (h : Handle) (P : σ → Prop) : Prop :=
  ∀ capacity place flag, Ends P (l.call via (.getLastError l.component h capacity place flag)) fun _ => P

omit [Journal σ] in
theorem AsksKeep.ask (hask : AsksKeep via l h P) (room : Room UInt32) :
    Does (fun s => P s.1) (l.askLastError via h room) (fun _ s => P s.1) fun _ s => P s.1 := by
  rintro ⟨s, flag⟩ hs
  have hcall := hask room.capacity room.narrow (some flag) s hs
  show Either _ _ (if _ then _ else _) _
  split <;> exact hcall

/-- The bindings note on the way, and add nothing else. -/
theorem AsksKeep.fetchLastError (hask : AsksKeep via l h P) (hP : OutlastsNotes P) :
    Does P (l.fetchLastError via h) (fun _ => P) fun _ => P := by
  intro s hs
  have hnotes : OutlastsNotes fun s : σ × Bool => P s.1 := fun n hn s hs => hP n hn s.1 hs
  have hf := Exchange.fetchText_does hnotes (fun _ _ h _ => h) hask.ask l.options.attempts (s, false) hs
  revert hf
  show Either _ _ ((Exchange.fetchText l.options.attempts (l.askLastError via h)).run
      (s, false)).1 _ →
    Either _ _ (Except.map _ ((Exchange.fetchText l.options.attempts
      (l.askLastError via h)).run (s, false)).1) _
  cases ((Exchange.fetchText l.options.attempts (l.askLastError via h)).run (s, false)).1
  · exact id
  · exact id

theorem AsksKeep.messageFor (hask : AsksKeep via l h P) (hP : OutlastsNotes P) (status : Status) :
    Ends P (l.messageFor via h status) fun _ => P := by
  refine .bind (hask.fetchLastError hP) fun r => ?_
  cases r with
  | ok message => exact .pure fun _ h => h
  | error why =>
    exact .bind (Q := fun _ => P) (fun s hs => hP _ ⟨rfl, rfl⟩ s hs) fun _ => .pure fun _ h => h

end

/-- The components' own functions for the last error read, and change nothing. -/
theorem Home.asksKeep (hl : l.Home) (h : Handle) (P : Process ω → Prop) :
    AsksKeep out.invoker l h P := by
  intro capacity place flag s hs
  rw [hl.call]
  show P (perform out _ (.getLastError l.component h capacity place flag) s).2
  rwa [getLastError_same]

section

variable {P : Process ω → Prop} (hP : OutlastsNotes P)
include hP

theorem fetchLastError_does (hl : l.Home) (h : Handle) :
    Does P (l.fetchLastError out.invoker h) (fun _ => P) fun _ => P :=
  (hl.asksKeep h P).fetchLastError hP

theorem messageFor_does (hl : l.Home) (h : Handle) (status : Status) :
    Ends P (l.messageFor out.invoker h status) fun _ => P :=
  (hl.asksKeep h P).messageFor hP status

/-- A status is passed, or it is the failure. -/
theorem checkStatus_does (hl : l.Home) (h : Handle) {status : Status} {R : Process ω → Prop}
    {Q : Unit → Process ω → Prop} (hok : status = Status.ok → ∀ s, R s → Q () s)
    (herr : status ≠ Status.ok → ∀ s, R s → P s) :
    Does R (l.checkStatus out.invoker h status) Q fun _ => P := by
  refine .ite (fun hne => ?_) fun heq => ?_
  · refine .bind (.monadLift ?_) fun _ => .throw fun _ h => h
    exact (messageFor_does hP hl h status).pre (herr hne)
  · exact .pure (hok (Decidable.not_not.mp heq))

end

end Library

end Host

/-! ## What is upheld -/

def Call.InTurn (turn : Handle → Prop) (c : Call ρ) : Prop := c.advances.elim True turn

def Call.Allowed {ρ : Type} (leave : Leave) : Call ρ → Prop
  | nextAnimal h _ _ => leave.advance h
  | nextMandatoryAnimal h _ => leave.advance h
  | addAnimal h _ _ => leave.grow h
  | _ => True

theorem Call.InTurn.allowed {turn : Handle → Prop} {c : Call ρ} (h : c.InTurn turn) :
    c.Allowed (.turns turn) := by
  cases c <;> exact h

theorem Call.Allowed.inTurn {c : Call ρ} (h : c.Allowed leave) : c.InTurn leave.advance := by
  cases c <;> first | exact h | exact trivial

theorem Call.allowed_all (c : Call ρ) : c.Allowed .all := by
  cases c <;> exact trivial

/-- The use of loaded components upholds what is known. -/
structure Upheld (out : Outside ω) (leave : Leave) (B : Ledger → Process ω → Prop) :
    Prop where
  outlastsNotes : ∀ e, OutlastsNotes (B e)
  guarded : ∀ e s, B e s → s.registry.Guarded
  call : ∀ {ρ : Type} (c : Call ρ), c.Plain → c.Allowed leave → ∀ e,
    Ends (B e) (perform out (out.reach .none) c)
      fun r => B (e + if r.1 = Status.ok then c.gives r.2 else 0)
  /-- A reference that is held is given back. -/
  release : ∀ {l : Host.Library}, l.Home → ∀ e x,
    Does (B (e + .of l.component [x])) (Host.Instance.release out.invoker ⟨l, x⟩) (fun _ => B e)
      fun _ => B e
  drop : ∀ {l : Host.Library}, l.Home → ∀ e x,
    Ends (B (e + .of l.component [x])) (Host.Instance.drop out.invoker ⟨l, x⟩) fun _ => B e

/-- A call that gives nothing. -/
theorem Upheld.same (u : Upheld out leave B) {c : Call ρ} (hc : c.Plain) (hmay : c.Allowed leave)
    (hg : ∀ cells, c.gives cells = 0) :
    Ends (B e) (perform out (out.reach .none) c) fun _ => B e := by
  refine (u.call c hc hmay e).post fun r s h => ?_
  rwa [hg, ite_self, add_zero] at h

/-- References that nobody else knows of are held beside it. -/
theorem Upheld.beside (u : Upheld out leave B) (held : Ledger) :
    Upheld out leave fun e => B (e + held) where
  outlastsNotes _ := u.outlastsNotes _
  guarded _ := u.guarded _
  call c hc hmay e := (u.call c hc hmay (e + held)).post fun r s h => by
    rwa [add_right_comm] at h
  release hl e x := (u.release hl (e + held) x).pre fun s h => by rwa [add_right_comm] at h
  drop hl e x := (u.drop hl (e + held) x).pre fun s h => by rwa [add_right_comm] at h

namespace Host

namespace Library

variable {l : Library}

/-- The caller has what was given once the status is passed. -/
theorem passed_does (u : Upheld out leave B) (hl : l.Home) (h : Handle) {given : Ledger}
    {status : Status} :
    Does (B (e + if status = Status.ok then given else 0)) (l.checkStatus out.invoker h status)
      (fun _ => B (e + given)) fun _ => B e := by
  refine checkStatus_does (u.outlastsNotes e) hl h (fun hok s hs => ?_) fun hne s hs => ?_
  · rwa [if_pos hok] at hs
  · rwa [if_neg hne, add_zero] at hs

theorem ask_does (u : Upheld out leave B) (hl : l.Home) {c : Call ρ} (hc : c.Plain)
    (hmay : c.Allowed leave) :
    Does (B e) (l.ask out.invoker c) (fun cells => B (e + c.gives cells)) fun _ => B e := by
  refine .bind (.monadLift (hl.call c ▸ u.call c hc hmay e)) fun (status, cells) => ?_
  exact .bind (passed_does u hl Handle.null) fun _ => .pure fun _ h => h

/-! ## The fixed functions -/

theorem version_does (u : Upheld out leave B) (hl : l.Home) :
    Does (B e) (l.version out.invoker) (fun _ => B e) fun _ => B e :=
  .bind (ask_does u hl rfl trivial) fun _ => .pure fun _ h => h

/-- What notes and the call keep, the question for a tag keeps. -/
theorem classTypeId_keeps {P : Process ω → Prop} (hP : OutlastsNotes P) (hl : l.Home) (h : Handle)
    (hcall : Ends P (perform out (out.reach .none) (.classTypeId l.component h (some 0)))
      fun _ => P) :
    Does P (l.classTypeId out.invoker h) (fun _ => P) fun _ => P := by
  refine .ite (fun _ => .throw_bind fun _ h => h) fun _ => ?_
  refine .bind (.monadLift (hl.call _ ▸ hcall)) fun (status, tag) => ?_
  refine .bind (Q := fun _ => P) ?_ fun _ => .pure fun _ h => h
  exact checkStatus_does hP hl h (fun _ _ hs => hs) fun _ _ hs => hs

theorem classTypeId_does (u : Upheld out leave B) (hl : l.Home) (h : Handle) :
    Does (B e) (l.classTypeId out.invoker h) (fun _ => B e) fun _ => B e :=
  classTypeId_keeps (u.outlastsNotes e) hl h (u.same rfl trivial fun _ => rfl)

end Library

/-! ## Symbols -/

theorem textArg_does {P : Process ω → Prop} (s : String) :
    Does P (liftM (textArg s) : Host (Process ω) TextArg) (fun a st => a = .text s ∧ P st)
      fun _ => P := by
  refine .lift (fun a ha st hs => ⟨?_, hs⟩) fun _ _ _ h => h
  unfold textArg at ha
  split at ha
  · cases ha
  · exact (Except.ok.inj ha).symm

theorem find_does (u : Upheld out leave B) {lookup : Address} (hl : lookup.Native) (s : Symbol) :
    Does (B e) (find out.invoker lookup s)
      (fun found st => (isReserved s.ns = true → ∀ a, found = some a → a.Native) ∧ B e st)
      fun _ => B e := by
  obtain ⟨f, rfl⟩ := hl
  refine .bind (textArg_does s.ns) fun ns => .assume fun hns => ?_
  refine .bind (textArg_does s.name) fun name => .assume fun _ => ?_
  have hcall : Ends (B e) (out.invoker.call (.native f) (.lookupSymbol ns name (some none)))
      fun r st => (isReserved s.ns = true → ∀ a, r.2 = some (some a) → a.Native) ∧ B e st := by
    intro st hs
    subst hns
    refine ⟨fun hr a => Registry.Guarded.finds (u.guarded e st hs) hr name, ?_⟩
    show B e (lookupSymbol _ name (some none) st).2
    rwa [lookupSymbol_same]
  refine .bind (.monadLift hcall) fun (status, cell) => ?_
  refine .ite (fun _ => .pure fun st h => ⟨fun hr a ha => ?_, h.2⟩) fun _ => ?_
  · cases cell with
    | none => cases ha
    | some found => exact h.1 hr a (congrArg some ha)
  · refine .ite (fun _ => .pure fun st h => ⟨fun _ a ha => (by cases ha), h.2⟩)
      fun _ => ?_
    exact .throw fun _ h => h.2

theorem resolveSymbol_does (u : Upheld out leave B) {lookup : Address} (hl : lookup.Native)
    (s : Symbol) :
    Does (B e) (resolveSymbol out.invoker lookup s)
      (fun a st => (isReserved s.ns = true → a.Native) ∧ B e st) fun _ => B e := by
  refine .bind (find_does u hl s) fun found => ?_
  cases found with
  | some a => exact .pure fun st h => ⟨fun hr => h.1 hr a rfl, h.2⟩
  | none => exact .throw fun _ h => h.2

theorem register_does (u : Upheld out leave B) {lookup : Address} (hl : lookup.Native) (s : Symbol)
    (address : Option Address) :
    Does (B e) (register out.invoker lookup s address) (fun _ => B e)
      fun _ => B e := by
  refine .bind (resolveSymbol_does u hl _) fun f => .assume fun hf => ?_
  obtain ⟨f, rfl⟩ := hf (by decide)
  refine .bind (textArg_does s.ns) fun ns => .assume fun _ => ?_
  refine .bind (textArg_does s.name) fun name => .assume fun _ => ?_
  refine .bind (.monadLift (u.same (c := .registerSymbol ns name address) rfl trivial
    fun _ => rfl)) fun (status, _) => ?_
  refine .ite (fun _ => (u.outlastsNotes e).note ⟨rfl, rfl⟩) fun _ => ?_
  exact .ite (fun _ => .throw fun _ h => h) fun _ => .throw fun _ h => h

/-! ## Loading -/

namespace Library

theorem openEntry_does (u : Upheld out leave B) (c : Component) :
    Does (B e) (openEntry out.invoker c (.native (.entryPoint c)))
      (fun a st => a.Native ∧ B e st) fun _ => B e := by
  have hcall : Ends (B e) (out.invoker.call (.native (.entryPoint c)) (.entryPoint c (some none)))
      fun r st => (∀ a, r.2 = some (some a) → a.Native) ∧ B e st :=
    fun st hs => ⟨fun a => entryPoint_native c,
      u.same (c := .entryPoint c (some none)) rfl trivial (fun _ => rfl) st hs⟩
  refine .bind (.monadLift hcall) fun (status, cell) => .assume fun hcell => ?_
  refine .ite (fun _ => .throw_bind fun _ h => h) fun _ => ?_
  dsimp only
  split
  · next a => exact .pure fun _ h => ⟨hcell a rfl, h⟩
  · exact .throw fun _ h => h

theorem resolveAll_does (u : Upheld out leave B) {lookup : Address} (hl : lookup.Native)
    (fs : List Export) (hfs : ∀ f ∈ fs, isReserved f.symbol.ns = true) :
    Does (B e) (resolveAll out.invoker lookup fs)
      (fun as st => (∀ a ∈ as, a.2.Native) ∧ B e st) fun _ => B e := by
  induction fs with
  | nil => exact .pure fun _ h => ⟨by simp, h⟩
  | cons f rest ih =>
    refine .bind (resolveSymbol_does u hl f.symbol) fun a => .assume fun ha => ?_
    have hnative := ha (hfs f List.mem_cons_self)
    refine .bind (ih fun g hg => hfs g (List.mem_cons_of_mem _ hg)) fun as => ?_
    refine .pure fun st h => ⟨fun b hb => ?_, h.2⟩
    rcases List.mem_cons.mp hb with rfl | hb
    · exact hnative
    · exact h.1 b hb

theorem fixed_reserved (c : Component) : ∀ f ∈ Export.fixed c, isReserved f.symbol.ns = true := by
  cases c <;> decide

theorem specific_reserved (c : Component) :
    ∀ f ∈ Export.specific c, isReserved f.symbol.ns = true := by
  cases c <;> decide

theorem home_of {c : Component} {options : LoadOptions} {lookup : Address} (hl : lookup.Native)
    {resolved : List (Export × Address)} (hr : ∀ a ∈ resolved, a.2.Native) :
    Home ⟨c, options, lookup, resolved⟩ :=
  ⟨hl, fun f a ha => by
    obtain ⟨before, after, rfl, -⟩ := List.lookup_eq_some_iff.mp ha
    exact hr (f, a) (List.mem_append_right before List.mem_cons_self)⟩

theorem verifyVersion_does (u : Upheld out leave B) {l : Library} (hl : l.Home) :
    Does (B e) (l.verifyVersion out.invoker) (fun _ => B e) fun _ => B e := by
  refine .ite (fun _ => ?_) fun _ => .pure fun _ h => h
  refine .bind (version_does u hl) fun native => ?_
  exact .ite (fun _ => .throw fun _ h => h) fun _ => .pure fun _ h => h

/-- A library loaded through a component's own entry point is at home. -/
theorem loadEntry_does (u : Upheld out leave B) (c : Component) (options : LoadOptions) :
    Does (B e) (loadEntry out.invoker c options (.native (.entryPoint c)))
      (fun l st => l.Home ∧ B e st) fun _ => B e := by
  refine .bind (openEntry_does u c) fun lookup => .assume fun hl => ?_
  refine .bind (resolveAll_does u hl _ (fixed_reserved c)) fun base => .assume fun hbase => ?_
  refine .bind (verifyVersion_does u (home_of hl hbase)) fun _ => ?_
  refine .bind ((u.outlastsNotes e).note ⟨rfl, rfl⟩) fun _ => ?_
  refine .bind (resolveAll_does u hl _ (specific_reserved c)) fun more => .assume fun hmore => ?_
  refine .pure fun _ h => ⟨home_of hl fun a ha => ?_, h⟩
  rcases List.mem_append.mp ha with ha | ha
  · exact hbase a ha
  · exact hmore a ha

end Host.Library

end Boundary
