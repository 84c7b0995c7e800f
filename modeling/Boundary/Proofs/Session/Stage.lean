/-
  Boundary.Proofs.Session.Stage — the wrappers of a session and the ledger.

  Between the parts of a step the wrappers, the libraries and a hook that makes no calls
  are as they are (`Stage`). Every owned wrapper over an object stands for one reference:
  `owners` counts them. What is known of the components, whatever the stage, is a family `B`
  (`Staged`): it is upheld, and nothing outside the components matters to it but the stage.
  Between two steps it is known with the references of the owned wrappers (`Between`). A
  session is ready for a step when its books balance with that ledger (`Ready`).

  Proved: taking a wrapper away leaves its reference to the step, and keeping one takes
  it back, the reference of the wrapper it replaces included.
-/
import Boundary.Proofs.Host.Wrappers
import Boundary.Session.Run

namespace Boundary.Session

open Exchange (Host)
open Host (Instance Library Makes MovesNone)

variable {α β : Type} {out : Outside World} {leave : Leave}
  {B : (World → Prop) → Ledger → Process World → Prop} {ws : List (String × Wrapper)}
  {ls : List (String × Library)} {name : String} {w : Wrapper} {e : Ledger}

/-! ## The world during a step -/

def Hook.NoActions (k : Hook) : Prop := ∀ r ∈ k.plan, r.action = none

structure Stage (ws : List (String × Wrapper)) (ls : List (String × Library)) (w : World) :
    Prop where
  wrappers : w.wrappers = ws
  libraries : w.libraries = ls
  noActions : w.hook.NoActions

/-- Callables and callbacks of the host make no calls, whatever they answer. -/
def Harmless (out : Outside World) : Prop := ∀ ws ls, OutsideOnly (Stage ws ls) out

theorem actAll_noActions (out : Outside World) (n : Nat) {rules : List HookRule}
    (h : ∀ r ∈ rules, r.action = none) (s : Process World) : (actAll out n rules s).2 = s := by
  induction rules with
  | nil => rfl
  | cons r rest ih =>
    have hr := h r List.mem_cons_self
    unfold actAll
    rw [hr]
    exact ih fun r' hr' => h r' (List.mem_cons_of_mem _ hr')

theorem callHook_noActions (out : Outside World) (report : Option Primes.Progress)
    {s : Process World} (h : Stage ws ls s.outer) :
    ∃ w, Stage ws ls w ∧ (callHook out report s).2 = { s with outer := w } := by
  obtain ⟨hw, hl, hs⟩ := h
  let k := { s.outer.hook with
    calls := s.outer.hook.calls + 1, progress := report.toList ++ s.outer.hook.progress }
  have hdue : ∀ r ∈ k.due k.calls, r.action = none := fun r hr => hs r (List.mem_filter.mp hr).1
  exact ⟨{ s.outer with hook := k }, ⟨hw, hl, hs⟩, actAll_noActions out k.calls hdue _⟩

/-- Without plans that act, those of a session are harmless. -/
theorem outside_harmless (n : Nat) : Harmless (outside n) := by
  intro ws ls
  cases n with
  | zero => exact ⟨fun _ _ s h => ⟨s.outer, h, rfl⟩, fun _ _ s h => ⟨s.outer, h, rfl⟩⟩
  | succ n =>
    refine ⟨fun a x s h => ?_, fun f p s h => callHook_noActions _ _ h⟩
    have hother : ∃ w, Stage ws ls w ∧ s = { s with outer := w } := ⟨s.outer, h, rfl⟩
    cases a with
    | native f => exact hother
    | foreign f =>
      cases f with
      | function f =>
        cases f with
        | hook => exact callHook_noActions _ _ h
        | _ => exact hother
      | _ => exact hother

/-! ## Owners -/

def Wrapper.claim (w : Wrapper) : Ledger := if w.owned then w.object.holds else 0

def owners (ws : List (String × Wrapper)) : Ledger := fun c x =>
  ws.countP fun e => e.2.owned && !e.2.object.isNull
    && decide (e.2.object.library.component = c ∧ e.2.object.handle = x)

theorem owners_cons (e : String × Wrapper) (ws : List (String × Wrapper)) :
    owners (e :: ws) = owners ws + e.2.claim := by
  funext c x
  rw [owners, List.countP_cons, Pi.add_apply, Pi.add_apply]
  congr 1
  unfold Wrapper.claim Instance.holds Ledger.of Instance.isNull
  by_cases ho : e.2.owned = true
  · by_cases hx : e.2.object.handle = x
    · by_cases hn : x.isNull = true <;> by_cases hc : c = e.2.object.library.component
      all_goals simp [ho, hx, hn, hc, eq_comm]
    · simp [ho, hx]
  · simp [ho]

abbrev without (name : String) (ws : List (String × Wrapper)) : List (String × Wrapper) :=
  ws.filter fun e => e.1 != name

theorem without_of_not (h : ∀ e ∈ ws, e.1 ≠ name) : without name ws = ws :=
  List.filter_eq_self.mpr fun e he => by simpa using h e he

theorem without_of_none (h : ws.lookup name = none) : without name ws = ws := by
  refine without_of_not fun e he hn => ?_
  have := List.lookup_eq_none_iff.mp h e he
  simp [hn] at this

/-- The wrapper of a name is one of them. -/
theorem owners_without (hnd : (ws.map Prod.fst).Nodup) (h : ws.lookup name = some w) :
    owners ws = owners (without name ws) + w.claim := by
  induction ws with
  | nil => cases h
  | cons e rest ih =>
    obtain ⟨n, v⟩ := e
    rw [List.map_cons, List.nodup_cons] at hnd
    by_cases hn : n = name
    · subst hn
      have hv : v = w := by simpa using h
      have hrest : without n rest = rest :=
        without_of_not fun e he hn => hnd.1 (List.mem_map.mpr ⟨e, he, hn⟩)
      rw [owners_cons, without, List.filter_cons_of_neg (by simp), ← without, hrest, hv]
    · have hl : rest.lookup name = some w := by
        rwa [List.lookup_cons, beq_false_of_ne (Ne.symm hn)] at h
      rw [owners_cons, without, List.filter_cons_of_pos (by simpa using hn), ← without,
        owners_cons, ih hnd.2 hl]
      exact add_right_comm _ _ _

/-- Different names for all wrappers, and all functions at home. Zoos alone lend objects. -/
structure NamedApart (ws : List (String × Wrapper)) (ls : List (String × Library)) : Prop where
  names : (ws.map Prod.fst).Nodup
  wrappers : ∀ e ∈ ws, e.2.object.Home
  lent : ∀ e ∈ ws, e.2.owned = false → e.2.object.library.component = .zoo
  libraries : ∀ e ∈ ls, e.2.Home

theorem mem_of_lookup {γ : Type} {l : List (String × γ)} {v : γ} (h : l.lookup name = some v) :
    (name, v) ∈ l := by
  obtain ⟨before, after, rfl, -⟩ := List.lookup_eq_some_iff.mp h
  exact List.mem_append_right before List.mem_cons_self

theorem NamedApart.without (t : NamedApart ws ls) (name : String) : NamedApart (without name ws) ls :=
  ⟨t.names.sublist (List.filter_sublist.map _),
    fun e he => t.wrappers e (List.mem_filter.mp he).1,
    fun e he => t.lent e (List.mem_filter.mp he).1, t.libraries⟩

theorem NamedApart.keep (t : NamedApart ws ls) (name : String) (hw : w.object.Home)
    (hlent : w.owned = false → w.object.library.component = .zoo) :
    NamedApart ((name, w) :: Session.without name ws) ls := by
  refine ⟨List.nodup_cons.mpr ⟨fun hm => ?_, (t.without name).names⟩, fun e he => ?_, fun e he => ?_,
    t.libraries⟩
  · obtain ⟨e, he, hn⟩ := List.mem_map.mp hm
    simpa [hn] using (List.mem_filter.mp he).2
  · rcases List.mem_cons.mp he with rfl | he
    · exact hw
    · exact (t.without name).wrappers e he
  · rcases List.mem_cons.mp he with rfl | he
    · exact hlent
    · exact (t.without name).lent e he

/-! ## What is known between steps -/

structure Staged (out : Outside World) (leave : Leave)
    (B : (World → Prop) → Ledger → Process World → Prop) : Prop where
  upheld : ∀ ws ls, Upheld out leave (B (Stage ws ls))
  outer : ∀ {J e s}, B J e s → J s.outer
  move : ∀ {J e s}, B J e s → ∀ {J' : World → Prop} {w}, J' w → B J' e { s with outer := w }

abbrev Known (B : (World → Prop) → Ledger → Process World → Prop) (ws : List (String × Wrapper))
    (ls : List (String × Library)) : Process World → Prop := B (Stage ws ls) (owners ws)

def Between (B : (World → Prop) → Ledger → Process World → Prop) (s : Process World) : Prop :=
  ∃ ws ls, NamedApart ws ls ∧ Known B ws ls s

/-- The books balance with the owned wrappers. -/
abbrev Settled (ws : List (String × Wrapper)) (ls : List (String × Library)) :
    Process World → Prop := Balanced (Stage ws ls) (owners ws)

abbrev Ready : Process World → Prop := Between Balanced

theorem books_staged (q : Harmless out) : Staged out .all Balanced :=
  ⟨fun ws ls => Host.books_upheld (q ws ls), fun h => h.1.outer, fun h _ _ hw => h.turn hw⟩

theorem Staged.beside (g : Staged out leave B) (held : Ledger) :
    Staged out leave fun J e => B J (e + held) :=
  ⟨fun ws ls => (g.upheld ws ls).beside held, g.outer, g.move⟩

theorem NamedApart.between (t : NamedApart ws ls) {s : Process World} (h : Known B ws ls s) :
    Between B s :=
  ⟨ws, ls, t, h⟩

/-- A plain call, made by the host itself, leaves what it gave in the host's hands. -/
theorem Between.call (g : Staged out leave B) {c : Call α} (hc : c.Plain) (hmay : c.Allowed leave)
    {s : Process World} (h : Between B s) :
    Between (fun J e => B J (e + if (perform out (out.reach .none) c s).1.1 = Status.ok then
      c.gives (perform out (out.reach .none) c s).1.2 else 0))
      (perform out (out.reach .none) c s).2 := by
  obtain ⟨ws, ls, t, h⟩ := h
  exact t.between (B := fun J e => B J (e + _)) ((g.upheld ws ls).call c hc hmay _ s h)

/-! ## Parts of steps -/

theorem bindings_does {P E : Process World → Prop} {x : Host (Process World) α}
    {Q : α → Process World → Prop} (h : Does P x Q fun _ => E) :
    Does P (bindings x) Q fun _ => E := by
  intro s hs
  have hx := h s hs
  revert hx
  show Either _ _ (x.run s).1 _ → Either _ _ (Except.mapError Problem.failed (x.run s).1) _
  cases (x.run s).1 <;> exact id

/-- The outcome of a part as an answer of its own. -/
theorem outcome_does {P : Process World → Prop} {x : Turn α} {Q : α → Process World → Prop}
    {E E' : Problem → Process World → Prop} (h : Does P x Q E) :
    Does P x.outcome (Either Q E) E' := h

/-- A part of a step that ends it if it fails. -/
theorem part_does (t : NamedApart ws ls) {P : Process World → Prop} {x : Host (Process World) α}
    {Q : α → Process World → Prop} (hx : Does P x Q fun _ => Known B ws ls) :
    Does P (bindings x) Q fun _ => Between B :=
  bindings_does (hx.failing fun _ _ h => t.between h)

/-- A step that asks and answers. -/
theorem answer_does (t : NamedApart ws ls) {x : Host (Process World) α}
    (hx : MovesNone (B (Stage ws ls)) x) (f : α → Value) :
    Does (Known B ws ls) (do return f (← bindings x)) (fun _ => Between B) fun _ => Between B :=
  .bind (part_does t (hx _)) fun _ => .pure fun _ h => t.between h

theorem effect_does (t : NamedApart ws ls) {x : Host (Process World) Unit}
    (hx : MovesNone (B (Stage ws ls)) x) :
    Does (Known B ws ls) (effect x) (fun _ => Between B) fun _ => Between B :=
  answer_does t hx fun _ => .nothing

/-! ## Names -/

theorem libraryNamed_does (g : Staged out leave B) (t : NamedApart ws ls) (name : String) :
    Does (Known B ws ls) (libraryNamed name) (fun l s => l.Home ∧ Known B ws ls s)
      fun _ => Between B := by
  refine .bind (Q := fun s' s => s'.outer.libraries = ls ∧ Known B ws ls s)
    (fun s h => ⟨(g.outer h).libraries, h⟩) fun s' => .assume fun hs => ?_
  rw [hs]
  split
  · next l hl => exact .pure fun _ h => ⟨t.libraries _ (mem_of_lookup hl), h⟩
  · exact .throw fun _ h => t.between h

theorem libraryOf_does (g : Staged out leave B) (t : NamedApart ws ls) (c : Component)
    (name : String) :
    Does (Known B ws ls) (libraryOf c name)
      (fun l s => (l.Home ∧ l.component = c) ∧ Known B ws ls s) fun _ => Between B := by
  refine .bind (libraryNamed_does g t name) fun l => .assume fun hl => ?_
  exact .ite (fun hc => .pure fun _ h => ⟨⟨hl, hc⟩, h⟩) fun _ => .throw fun _ h => t.between h

theorem wrapperNamed_finds (g : Staged out leave B) (t : NamedApart ws ls) (name : String) :
    Does (Known B ws ls) (wrapperNamed name)
      (fun w s => (ws.lookup name = some w ∧ w.object.Home) ∧ Known B ws ls s)
      fun _ s => ws.lookup name = none ∧ Known B ws ls s := by
  refine .bind (Q := fun s' s => s'.outer.wrappers = ws ∧ Known B ws ls s)
    (fun s h => ⟨(g.outer h).wrappers, h⟩) fun s' => .assume fun hs => ?_
  rw [hs]
  split
  · next w hw => exact .pure fun _ h => ⟨⟨hw, t.wrappers _ (mem_of_lookup hw)⟩, h⟩
  · next hnone => exact .throw fun _ h => ⟨hnone, h⟩

theorem wrapperNamed_does (g : Staged out leave B) (t : NamedApart ws ls) (name : String) :
    Does (Known B ws ls) (wrapperNamed name)
      (fun w s => (ws.lookup name = some w ∧ w.object.Home) ∧ Known B ws ls s)
      fun _ => Between B :=
  (wrapperNamed_finds g t name).failing fun _ _ h => t.between h.2

theorem objectOf_finds (g : Staged out leave B) (t : NamedApart ws ls) (c : Component)
    (name : String) :
    Does (Known B ws ls) (objectOf c name)
      (fun i s => ((∃ w, ws.lookup name = some w ∧ w.object = i) ∧ i.Home ∧
        i.library.component = c) ∧ Known B ws ls s) fun _ => Between B := by
  refine .bind (wrapperNamed_does g t name) fun w => .assume fun hw => ?_
  refine .ite (fun hc => .pure fun _ h => ⟨⟨⟨w, hw.1, rfl⟩, hw.2, hc⟩, h⟩) fun _ => ?_
  exact .throw fun _ h => t.between h

theorem objectOf_does (g : Staged out leave B) (t : NamedApart ws ls) (c : Component) (name : String) :
    Does (Known B ws ls) (objectOf c name)
      (fun i s => (i.Home ∧ i.library.component = c) ∧ Known B ws ls s) fun _ => Between B :=
  (objectOf_finds g t c name).post fun _ _ h => ⟨h.1.2, h.2⟩

theorem ownedNamed_does (g : Staged out leave B) (t : NamedApart ws ls) (name : String) :
    Does (Known B ws ls) (ownedNamed name)
      (fun w s => (ws.lookup name = some w ∧ w.object.Home ∧ w.owned = true) ∧ Known B ws ls s)
      fun _ => Between B := by
  refine .bind (wrapperNamed_does g t name) fun w => .assume fun hw => ?_
  refine .ite (fun ho => .pure fun _ h => ⟨⟨hw.1, hw.2, ho⟩, h⟩) fun _ => ?_
  exact .throw fun _ h => t.between h

theorem handleOf_does (g : Staged out leave B) (t : NamedApart ws ls) (target : Target) :
    Does (Known B ws ls) (handleOf target) (fun _ => Known B ws ls) fun _ => Between B := by
  cases target with
  | handle h => exact .pure fun _ h => h
  | wrapper name => exact .bind (wrapperNamed_does g t name) fun _ => .pure fun _ h => h.2

/-! ## Wrappers that come and go -/

theorem claim_owned (h : w.owned = true) : w.claim = w.object.holds := if_pos h

theorem claim_nulled (label : Host.Class) (i : Instance) (owned : Bool) :
    Wrapper.claim ⟨label, i.nulled, owned⟩ = 0 := by
  rw [Wrapper.claim, i.holds_nulled, ite_self]

theorem claim_lent (h : w.owned = false) : w.claim = 0 := if_neg (by simp [h])

theorem setWrapper_does (g : Staged out leave B) (name : String) (w : Option Wrapper) :
    Ends (B (Stage ws ls) e) (setWrapper name w)
      fun _ => B (Stage (w.toList.map (name, ·) ++ without name ws) ls) e := by
  refine .modify fun s h => g.move h ⟨?_, (g.outer h).libraries, (g.outer h).noActions⟩
  rw [(g.outer h).wrappers]

/-- The reference of a wrapper that is taken away is the step's. -/
theorem takeWrapper_does (g : Staged out leave B) (t : NamedApart ws ls) (h : ws.lookup name = some w) :
    Ends (Known B ws ls) (setWrapper name none)
      fun _ => B (Stage (without name ws) ls) (owners (without name ws) + w.claim) := by
  rw [← owners_without t.names h]
  exact setWrapper_does g name none

theorem dropWrapper_does (g : Staged out leave B) (hw : w.object.Home) :
    Ends (B (Stage ws ls) (e + w.claim)) (dropWrapper out w) fun _ => B (Stage ws ls) e := by
  unfold dropWrapper
  cases ho : w.owned with
  | true =>
    rw [claim_owned ho]
    exact (g.upheld ws ls).drop hw e _
  | false =>
    rw [claim_lent ho, add_zero]
    show Ends _ (Host.Borrowed.drop out.invoker _) _
    rw [Host.Borrowed.drop_silent]
    exact .pure fun _ h => h

/-- The reference of a wrapper that is replaced is given back. -/
theorem keepWrapper_does (g : Staged out leave B) (t : NamedApart ws ls) (name : String)
    (hw : w.object.Home) (hlent : w.owned = false → w.object.library.component = .zoo) :
    Does (B (Stage ws ls) (owners ws + w.claim)) (keepWrapper out name w) (fun _ => Between B)
      fun _ => Between B := by
  refine .bind (Q := fun s' s => s'.outer.wrappers = ws ∧
    B (Stage ws ls) (owners ws + w.claim) s) (fun s h => ⟨(g.outer h).wrappers, h⟩)
    fun s' => .assume fun hs => ?_
  rw [hs]
  have namedApart := t.keep name hw hlent
  refine .bind (.monadLift (setWrapper_does g name (some w))) fun _ => ?_
  cases hold : ws.lookup name with
  | none =>
    refine .pure fun s h => namedApart.between ?_
    rw [without_of_none hold] at h ⊢
    rwa [Known, owners_cons]
  | some old =>
    have hdrop : Ends (B (Stage ((name, w) :: without name ws) ls)
        (owners ((name, w) :: without name ws) + old.claim)) (dropWrapper out old)
        fun _ => Known B ((name, w) :: without name ws) ls :=
      dropWrapper_does g (t.wrappers _ (mem_of_lookup hold))
    refine .monadLift (hdrop.mono (fun s h => ?_) fun _ _ h => namedApart.between h)
    rw [owners_without t.names hold, add_right_comm] at h
    rwa [owners_cons]

theorem keepAs_does (g : Staged out leave B) (t : NamedApart ws ls) (name : String)
    (label : Host.Class) {i : Instance} (hi : i.Home) :
    Does (B (Stage ws ls) (owners ws + i.holds)) (keepAs out name label i true)
      (fun _ => Between B) fun _ => Between B :=
  .bind (keepWrapper_does g t name (w := ⟨label, i, true⟩) hi fun h => by cases h) fun _ =>
    .pure fun _ h => h

/-- What a computation makes is kept. -/
theorem make_does (g : Staged out leave B) (t : NamedApart ws ls) {P : Process World → Prop}
    {x : Host (Process World) Instance}
    (hx : Does P x (fun i s => i.Home ∧ B (Stage ws ls) (owners ws + i.holds) s)
      fun _ => Known B ws ls) (name : String) (label : Host.Class) :
    Does P (make out name label x true) (fun _ => Between B) fun _ => Between B := by
  refine .bind (part_does t hx) fun i => .assume fun hi => ?_
  exact keepAs_does g t name label hi

/-- What a computation borrows is kept without a reference. -/
theorem lend_does (g : Staged out leave B) (t : NamedApart ws ls) {P : Process World → Prop}
    {x : Host (Process World) Instance}
    (hx : Does P x (fun i s => (i.Home ∧ i.library.component = .zoo) ∧ Known B ws ls s)
      fun _ => Known B ws ls) (name : String) (label : Host.Class) :
    Does P (make out name label x false) (fun _ => Between B) fun _ => Between B := by
  refine .bind (part_does t hx) fun i => .assume fun hi => ?_
  refine .bind ((keepWrapper_does g t name (w := ⟨label, i, false⟩) hi.1 fun _ => hi.2).pre
    fun s h => ?_)
    fun _ => .pure fun _ h => h
  rwa [claim_lent rfl, add_zero]

end Boundary.Session
