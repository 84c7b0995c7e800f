/-
  Boundary.Proofs.Registry.History — the registry over any history.

  A registry changes in two ways: a component is installed, or a host asks for a
  registration (`Event`). What an event adds, it adds behind what is there: an entry that
  is there stays (`get?_step`). So the registry that a history leaves can be read off the
  history, without running it:
    - in a reserved namespace that was opened, a symbol stands for the function that carries
      it, and in one that was not it stands for nothing (`get?_reserved`);
    - anywhere else it stands for what its first accepted registration named (`get?_free`).

  Processes make such histories: every call leaves the registry as it was or adds one event,
  whatever callables and callbacks do in the middle of it (`Reaches.history`).

  Proved: entries stay, kinds of entries keep to their namespaces, registrations are
  accepted and refused as they should be, and calculators apply the first accepted
  registration of a symbol or nothing (`registry_safe`). What they do not keep out is a
  component's function whose address a host registered under a symbol of its own
  (`component_function_applied`).
-/
import Boundary.Proofs.Course.Perform
import Boundary.Session.Outside
import Mathlib.Data.List.Induction

namespace Boundary

namespace Registry

/-! ## Histories -/

inductive Event where
  | install (c : Component)
  | register (ns name : TextArg) (address : Option Address)
  deriving DecidableEq, Repr

def step (r : Registry) : Event → Registry
  | .install c => (r.install c).1
  | .register ns name address => (r.register ns name address).2.1

def after (h : List Event) : Registry := h.foldl step {}

theorem after_append (h later : List Event) : after (h ++ later) = later.foldl step (after h) :=
  List.foldl_append

theorem after_concat (h : List Event) (e : Event) : after (h ++ [e]) = (after h).step e :=
  after_append h [e]

def accepted? (r : Registry) : Event → Option (Symbol × Address)
  | .register (.text ns) (.text name) (some a) =>
    if (r.register (.text ns) (.text name) (some a)).1 = Status.ok then some (⟨ns, name⟩, a)
    else none
  | _ => none

def acceptedFrom : Registry → List Event → List (Symbol × Address)
  | _, [] => []
  | r, e :: rest => (r.accepted? e).toList ++ acceptedFrom (r.step e) rest

def accepted (h : List Event) : List (Symbol × Address) := acceptedFrom {} h

theorem acceptedFrom_append (r : Registry) (h later : List Event) :
    acceptedFrom r (h ++ later) = acceptedFrom r h ++ acceptedFrom (h.foldl step r) later := by
  induction h generalizing r with
  | nil => rfl
  | cons e rest ih => simp [acceptedFrom, ih]

theorem accepted_concat (h : List Event) (e : Event) :
    accepted (h ++ [e]) = accepted h ++ ((after h).accepted? e).toList := by
  rw [accepted, acceptedFrom_append]
  simp only [acceptedFrom, List.append_nil]
  rfl

def opened (h : List Event) (ns : String) : Bool :=
  h.any fun
    | .install c => ns == c.ns || ns == registryNs
    | .register _ _ _ => false

/-! ## Entries -/

def exported (f : Export) : Entry := ⟨.native f, .exported⟩

def offered (fs : List Export) (x : Symbol) : Option Entry :=
  (fs.find? fun f => decide (f.symbol = x)).map exported

theorem offered_some {fs : List Export} {x : Symbol} {e : Entry} (h : offered fs x = some e) :
    ∃ f ∈ fs, f.symbol = x ∧ e = exported f := by
  obtain ⟨f, hf, rfl⟩ := Option.map_eq_some_iff.mp h
  exact ⟨f, List.mem_of_find?_eq_some hf, by simpa using List.find?_some hf, rfl⟩

theorem offered_none {fs : List Export} {ns : String} (hfs : ∀ f ∈ fs, f.symbol.ns = ns)
    {x : Symbol} (hx : x.ns ≠ ns) : offered fs x = none := by
  rw [offered, Option.map_eq_none_iff, List.find?_eq_none]
  intro f hf he
  exact hx ((of_decide_eq_true he) ▸ hfs f hf)

theorem offered_append (fs gs : List Export) (x : Symbol) :
    offered (fs ++ gs) x = (offered fs x).or (offered gs x) := by
  unfold offered
  rw [List.find?_append, Option.map_or]

theorem ofRegistry_ns : ∀ f ∈ Export.ofRegistry, f.symbol.ns = registryNs := by decide

theorem ofComponent_ns (c : Component) : ∀ f ∈ Export.ofComponent c, f.symbol.ns = c.ns := by
  cases c <;> decide

/-- Each function is found under its own symbol. -/
theorem offered_symbol (f : Export) : offered Export.all f.symbol = some (exported f) := by
  cases f <;> (try rename_i c; cases c) <;> decide +kernel

/-! ## What one step does -/

theorem get?_insert (r : Registry) (x y : Symbol) (e : Entry) :
    (r.insert x e).2.get? y = (r.get? y).or (if y = x then some e else none) := by
  unfold insert
  split
  · next hx =>
    by_cases hy : y = x
    · subst hy
      rw [Option.or_of_isSome hx]
    · rw [if_neg hy, Option.or_none]
  · next hx =>
    by_cases hy : y = x
    · subst hy
      rw [Option.not_isSome_iff_eq_none.mp hx, if_pos rfl]
      simp [get?]
    · rw [if_neg hy, Option.or_none]
      simp [get?, List.lookup_cons, beq_false_of_ne hy]

/-- What stays as it is while functions are installed. -/
theorem insertExports_marks (fs : List Export) (r : Registry) :
    (insertExports fs r).1.ready = r.ready ∧ (insertExports fs r).1.installed = r.installed := by
  induction fs generalizing r with
  | nil => exact ⟨rfl, rfl⟩
  | cons f rest ih =>
    have hstep : (r.insert f.symbol (exported f)).2.ready = r.ready ∧
        (r.insert f.symbol (exported f)).2.installed = r.installed := by
      unfold insert
      split <;> exact ⟨rfl, rfl⟩
    have h := ih (r.insert f.symbol (exported f)).2
    rw [hstep.1, hstep.2] at h
    unfold insertExports
    dsimp only
    split <;> exact h

theorem get?_insertExports (fs : List Export) (r : Registry) (x : Symbol) :
    (insertExports fs r).1.get? x = (r.get? x).or (offered fs x) := by
  induction fs generalizing r with
  | nil => exact (Option.or_none).symm
  | cons f rest ih =>
    have h : (insertExports (f :: rest) r).1
        = (insertExports rest (r.insert f.symbol (exported f)).2).1 := by
      rw [insertExports]
      dsimp only
      split <;> rfl
    rw [h, ih, get?_insert, Option.or_assoc]
    congr 1
    by_cases hx : f.symbol = x
    · simp [offered, hx]
    · simp [offered, hx, Ne.symm hx]

theorem prepare_marks (r : Registry) : r.prepare.ready = true ∧ r.prepare.installed = r.installed := by
  unfold prepare
  split
  · next h => exact ⟨h, rfl⟩
  · exact insertExports_marks _ _

theorem get?_prepare (r : Registry) (x : Symbol) :
    r.prepare.get? x = (r.get? x).or (if r.ready then none else offered Export.ofRegistry x) := by
  unfold prepare
  split
  · exact (Option.or_none).symm
  · exact get?_insertExports _ _ x

theorem install_fst (r : Registry) (c : Component) : (r.install c).1 =
    if c ∈ r.installed then r.prepare
    else (insertExports (Export.ofComponent c)
      { r.prepare with installed := c :: r.installed }).1 := by
  unfold install
  simp only [(prepare_marks r).2, List.contains_iff_mem]
  split
  · rfl
  · generalize insertExports (Export.ofComponent c)
      { r.prepare with installed := c :: r.installed } = installed
    rfl

theorem install_marks (r : Registry) (c : Component) : (r.install c).1.ready = true ∧
    (r.install c).1.installed = if c ∈ r.installed then r.installed else c :: r.installed := by
  rw [install_fst]
  split
  · exact prepare_marks r
  · obtain ⟨hready, hinstalled⟩ := insertExports_marks (Export.ofComponent c)
      { r.prepare with installed := c :: r.installed }
    rw [hready, hinstalled]
    exact ⟨(prepare_marks r).1, rfl⟩

theorem get?_install (r : Registry) (c : Component) (x : Symbol) :
    (r.install c).1.get? x = (r.get? x).or ((if r.ready then none else offered Export.ofRegistry x).or
      (if c ∈ r.installed then none else offered (Export.ofComponent c) x)) := by
  rw [← Option.or_assoc, ← get?_prepare, install_fst]
  split
  · exact (Option.or_none).symm
  · exact get?_insertExports _ { r.prepare with installed := c :: r.installed } x

/-- A request that a host may make: its texts are read and not empty, there is an address, and
    the namespace is no reserved one. -/
structure Request (ns name : TextArg) (address : Option Address) (x : Symbol) (a : Address) :
    Prop where
  ns : ns = .text x.ns
  name : name = .text x.name
  address : address = some a
  named : x.ns ≠ "" ∧ x.name ≠ ""
  free : isReserved x.ns = false

/-- All that a registration can do. -/
theorem register_cases (r : Registry) (ns name : TextArg) (address : Option Address) :
    (∃ x a, Request ns name address x a ∧ r.get? x = none ∧
      (r.register ns name address).1 = Status.ok ∧
      (r.register ns name address).2.1 = (r.insert x ⟨a, .host⟩).2) ∨
    (∃ x a, Request ns name address x a ∧ r.get? x ≠ none ∧
      (r.register ns name address).1 = Status.duplicateSymbol ∧
      (r.register ns name address).2.1 = r) ∨
    ((∀ x a, ¬ Request ns name address x a) ∧
      (r.register ns name address).1 = Status.invalidParam ∧
      (r.register ns name address).2.1 = r) := by
  have hunread (h : ns.text? = none ∨ name.text? = none ∨ address = none) :
      (∀ x a, ¬ Request ns name address x a) ∧
        (r.register ns name address).1 = Status.invalidParam ∧
        (r.register ns name address).2.1 = r := by
    constructor
    · rintro x a ⟨rfl, rfl, rfl, -, -⟩
      simp [TextArg.text?] at h
    · unfold register
      split
      · next hns hname => simp [hns, hname] at h
      · exact ⟨rfl, rfl⟩
  cases ns with
  | null => exact .inr (.inr (hunread (.inl rfl)))
  | malformed => exact .inr (.inr (hunread (.inl rfl)))
  | text ns =>
    cases name with
    | null => exact .inr (.inr (hunread (.inr (.inl rfl))))
    | malformed => exact .inr (.inr (hunread (.inr (.inl rfl))))
    | text name =>
      cases address with
      | none => exact .inr (.inr (hunread (.inr (.inr rfl))))
      | some a =>
        by_cases hempty : ns = "" ∨ name = ""
        · refine .inr (.inr ⟨?_, ?_⟩)
          · rintro x b ⟨hns, hname, -, ⟨hne, hne'⟩, -⟩
            cases hns
            cases hname
            exact hempty.elim hne hne'
          · simp [register, TextArg.text?, hempty]
        obtain ⟨hns, hname⟩ := not_or.mp hempty
        by_cases hres : isReserved ns = true
        · refine .inr (.inr ⟨?_, ?_⟩)
          · rintro x b ⟨he, -, -, -, hfree⟩
            cases he
            exact Bool.false_ne_true (hfree.symm.trans hres)
          · simp [register, TextArg.text?, hns, hname, hres]
        have hreq : Request (.text ns) (.text name) (some a) ⟨ns, name⟩ a :=
          ⟨rfl, rfl, rfl, ⟨hns, hname⟩, by simpa using hres⟩
        cases hget : r.get? ⟨ns, name⟩ with
        | none =>
          refine .inl ⟨_, a, hreq, hget, ?_, ?_⟩ <;>
            simp [register, TextArg.text?, hns, hname, hres, insert, hget]
        | some e =>
          refine .inr (.inl ⟨_, a, hreq, by simp [hget], ?_, ?_⟩) <;>
            simp [register, TextArg.text?, hns, hname, hres, insert, hget]

theorem Request.unique {ns name : TextArg} {address : Option Address} {x y : Symbol} {a b : Address}
    (h : Request ns name address x a) (h' : Request ns name address y b) : x = y ∧ a = b := by
  obtain ⟨xns, xname⟩ := x
  obtain ⟨yns, yname⟩ := y
  cases h.ns.symm.trans h'.ns
  cases h.name.symm.trans h'.name
  cases h.address.symm.trans h'.address
  exact ⟨rfl, rfl⟩

/-- What is registered is what was accepted. -/
theorem register_step (r : Registry) (ns name : TextArg) (address : Option Address) :
    (∃ x a, Request ns name address x a ∧ r.get? x = none ∧
      r.accepted? (.register ns name address) = some (x, a) ∧
      r.step (.register ns name address) = (r.insert x ⟨a, .host⟩).2) ∨
    (r.accepted? (.register ns name address) = none ∧
      r.step (.register ns name address) = r) := by
  have hrefused (h : (r.register ns name address).1 ≠ Status.ok) :
      r.accepted? (.register ns name address) = none := by
    unfold accepted?
    split
    · next he =>
      cases he
      exact if_neg h
    · rfl
  rcases register_cases r ns name address with ⟨x, a, hreq, hx, hok, hr⟩ | ⟨-, -, -, -, hdup, hr⟩ |
      ⟨-, hbad, hr⟩
  · refine .inl ⟨x, a, hreq, hx, ?_, hr⟩
    obtain ⟨rfl, rfl, rfl, -, -⟩ := hreq
    exact if_pos hok
  · exact .inr ⟨hrefused (by rw [hdup]; decide), hr⟩
  · exact .inr ⟨hrefused (by rw [hbad]; decide), hr⟩

/-- What an event adds comes behind what is there. -/
theorem get?_step (r : Registry) (e : Event) (x : Symbol) :
    ∃ added, (r.step e).get? x = (r.get? x).or added := by
  cases e with
  | install c => exact ⟨_, get?_install r c x⟩
  | register ns name address =>
    rcases register_step r ns name address with ⟨y, a, -, -, -, hr⟩ | ⟨-, hr⟩
    · exact ⟨_, hr ▸ get?_insert r y x _⟩
    · exact ⟨none, by rw [hr, Option.or_none]⟩

/-- An entry that is there stays. -/
theorem get?_persists {h : List Event} {x : Symbol} {e : Entry} (hx : (after h).get? x = some e)
    (later : List Event) : (after (h ++ later)).get? x = some e := by
  induction later generalizing h with
  | nil => rwa [List.append_nil]
  | cons event rest ih =>
    rw [List.append_cons]
    refine ih ?_
    obtain ⟨added, hadded⟩ := get?_step (after h) event x
    rw [after_concat, hadded, hx]
    rfl

/-! ## What a history leaves -/

theorem opened_concat (h : List Event) (e : Event) (ns : String) :
    opened (h ++ [e]) ns = (opened h ns || opened [e] ns) := List.any_append

theorem opened_iff {h : List Event} {c : Component} : opened h c.ns = true ↔ .install c ∈ h := by
  have hns (d : Component) : (c.ns == d.ns || c.ns == registryNs) = true ↔ d = c := by
    cases c <;> cases d <;> decide
  constructor
  · intro ho
    obtain ⟨e, he, hc⟩ := List.any_eq_true.mp ho
    cases e with
    | install d => exact (hns d).mp hc ▸ he
    | register _ _ _ => cases hc
  · exact fun hc => List.any_eq_true.mpr ⟨_, hc, (hns c).mpr rfl⟩

/-- The registry remembers what was installed. -/
theorem after_marks (h : List Event) : (after h).ready = opened h registryNs ∧
    ∀ c, c ∈ (after h).installed ↔ .install c ∈ h := by
  induction h using List.reverseRecOn with
  | nil => exact ⟨rfl, fun c => by simp [after]⟩
  | append_singleton h e ih =>
    rw [after_concat, opened_concat]
    cases e with
    | install c =>
      obtain ⟨hready, hinstalled⟩ := install_marks (after h) c
      refine ⟨by simp [step, hready, opened], fun d => ?_⟩
      simp only [step, hinstalled, List.mem_append, List.mem_singleton, Event.install.injEq]
      split
      · next hc =>
        rw [ih.2 d]
        exact ⟨.inl, fun hd => hd.elim id fun e => e ▸ (ih.2 c).mp hc⟩
      · rw [List.mem_cons, ih.2 d]
        exact or_comm
    | register ns name address =>
      have hmarks : ((after h).step (.register ns name address)).ready = (after h).ready ∧
          ((after h).step (.register ns name address)).installed = (after h).installed := by
        rcases register_step (after h) ns name address with ⟨x, a, -, -, -, hr⟩ | ⟨-, hr⟩
        · rw [hr]
          unfold insert
          split <;> exact ⟨rfl, rfl⟩
        · rw [hr]
          exact ⟨rfl, rfl⟩
      rw [hmarks.1, hmarks.2, ih.1]
      refine ⟨by simp [opened], fun d => ?_⟩
      simp [ih.2 d]

/-- What all components together offer in one namespace, the one that has it offers. -/
theorem offered_all (x : Symbol) : offered Export.all x =
    (offered Export.ofRegistry x).or ((offered (Export.ofComponent .zoo) x).or
      ((offered (Export.ofComponent .calculator) x).or (offered (Export.ofComponent .primes) x))) := by
  rw [← offered_append, ← offered_append, ← offered_append]
  rfl

theorem offered_registry {x : Symbol} (hx : x.ns = registryNs) :
    offered Export.all x = offered Export.ofRegistry x := by
  have hne (c : Component) : x.ns ≠ c.ns := by
    rw [hx]
    cases c <;> decide
  simp [offered_all, offered_none (ofComponent_ns _) (hne _)]

theorem offered_component {x : Symbol} {c : Component} (hx : x.ns = c.ns) :
    offered Export.all x = offered (Export.ofComponent c) x := by
  have hreg : x.ns ≠ registryNs := by
    rw [hx]
    cases c <;> decide
  have hne {d : Component} (hd : c ≠ d) : x.ns ≠ d.ns := by
    rw [hx]
    revert hd
    cases c <;> cases d <;> decide
  rw [offered_all, offered_none ofRegistry_ns hreg]
  cases c
  · simp [offered_none (ofComponent_ns .calculator) (hne (by decide)),
      offered_none (ofComponent_ns .primes) (hne (by decide))]
  · simp [offered_none (ofComponent_ns .zoo) (hne (by decide)),
      offered_none (ofComponent_ns .primes) (hne (by decide))]
  · simp [offered_none (ofComponent_ns .zoo) (hne (by decide)),
      offered_none (ofComponent_ns .calculator) (hne (by decide))]

theorem reserved_cases {ns : String} (h : isReserved ns = true) :
    ns = registryNs ∨ ∃ c : Component, ns = c.ns := by
  have hmem : ns ∈ reservedNs := List.contains_iff_mem.mp h
  rcases List.mem_cons.mp hmem with h | h
  · exact .inl h
  · obtain ⟨c, -, rfl⟩ := List.mem_map.mp h
    exact .inr ⟨c, rfl⟩

/-- In a reserved namespace a symbol stands for the function that carries it, from the time the
    namespace is opened. -/
theorem get?_reserved (h : List Event) {x : Symbol} (hx : isReserved x.ns = true) :
    (after h).get? x = if opened h x.ns then offered Export.all x else none := by
  induction h using List.reverseRecOn with
  | nil => rfl
  | append_singleton h e ih =>
    rw [after_concat, opened_concat]
    cases e with
    | install c =>
      rw [step, get?_install, ih, (after_marks h).1]
      simp only [(after_marks h).2 c]
      rcases reserved_cases hx with hns | ⟨d, hns⟩
      · have hne : x.ns ≠ c.ns := by
          rw [hns]
          cases c <;> decide
        rw [hns, offered_none (ofComponent_ns c) hne, offered_registry hns]
        cases opened h registryNs <;> simp [opened]
      · have hreg : x.ns ≠ registryNs := by
          rw [hns]
          cases d <;> decide
        rw [offered_none ofRegistry_ns hreg, hns, offered_component hns]
        by_cases hd : d = c
        · subst hd
          simp only [← opened_iff]
          cases opened h d.ns <;> simp [opened]
        · have hne : d.ns ≠ c.ns := by
            revert hd
            cases c <;> cases d <;> decide
          rw [offered_none (ofComponent_ns c) (hns ▸ hne)]
          cases opened h d.ns <;> simp [opened, hne, hns ▸ hreg]
    | register ns name address =>
      have hstay : ((after h).step (.register ns name address)).get? x = (after h).get? x := by
        rcases register_step (after h) ns name address with ⟨y, a, hreq, -, -, hr⟩ | ⟨-, hr⟩
        · have hy : x ≠ y := fun e => by simp [e, hreq.free] at hx
          rw [hr, get?_insert, if_neg hy, Option.or_none]
        · rw [hr]
      rw [hstay, ih]
      simp [opened]

/-- What is offered in a namespace that is not reserved: nothing. -/
theorem offered_free {fs : List Export} (hfs : ∀ f ∈ fs, isReserved f.symbol.ns = true) {x : Symbol}
    (hx : isReserved x.ns = false) : offered fs x = none := by
  rw [offered, Option.map_eq_none_iff, List.find?_eq_none]
  intro f hf he
  have := hfs f hf
  rw [of_decide_eq_true he, hx] at this
  cases this

/-- Anywhere else a symbol stands for what its first accepted registration named. -/
theorem get?_free (h : List Event) {x : Symbol} (hx : isReserved x.ns = false) :
    (after h).get? x = ((accepted h).lookup x).map fun a => ⟨a, .host⟩ := by
  induction h using List.reverseRecOn with
  | nil => rfl
  | append_singleton h e ih =>
    rw [after_concat, accepted_concat, List.lookup_append]
    cases e with
    | install c =>
      rw [step, get?_install, ih, offered_free (by decide) hx,
        offered_free (by cases c <;> decide) hx]
      simp [accepted?]
    | register ns name address =>
      rcases register_step (after h) ns name address with ⟨y, a, hreq, -, hacc, hr⟩ | ⟨hacc, hr⟩
      · rw [hr, hacc, get?_insert, ih]
        by_cases hy : x = y
        · subst hy
          cases (accepted h).lookup x <;> simp
        · simp [hy, List.lookup_cons, beq_false_of_ne hy]
      · rw [hr, hacc, ih]
        simp

/-- Nothing is accepted in a reserved namespace. -/
theorem accepted_free {h : List Event} {x : Symbol} {a : Address} (ha : (x, a) ∈ accepted h) :
    isReserved x.ns = false := by
  induction h using List.reverseRecOn with
  | nil => cases ha
  | append_singleton h e ih =>
    rw [accepted_concat] at ha
    rcases List.mem_append.mp ha with ha | ha
    · exact ih ha
    · cases e with
      | install c => cases ha
      | register ns name address =>
        rcases register_step (after h) ns name address with ⟨y, b, hreq, -, hacc, -⟩ | ⟨hacc, -⟩
        · rw [hacc] at ha
          cases List.mem_singleton.mp ha
          exact hreq.free
        · rw [hacc] at ha
          cases ha

/-- What is found for components to call is what the first accepted registration named. -/
theorem findHost_after (h : List Event) (x : Symbol) :
    (after h).findHost x = (accepted h).lookup x := by
  unfold findHost
  cases hx : isReserved x.ns with
  | false =>
    rw [get?_free h hx]
    cases (accepted h).lookup x <;> rfl
  | true =>
    have hnone : (accepted h).lookup x = none := by
      refine List.lookup_eq_none_iff.mpr fun (y, a) hy => bne_iff_ne.mpr fun e => ?_
      rw [show x = y from e, accepted_free hy] at hx
      cases hx
    rw [hnone, get?_reserved h hx]
    split
    · next a he =>
      split at he
      · obtain ⟨f, -, -, hf⟩ := offered_some he
        cases hf
      · cases he
    · rfl

theorem accepted_of_lookup {h : List Event} {x : Symbol} {a : Address}
    (ha : (accepted h).lookup x = some a) : (x, a) ∈ accepted h := by
  obtain ⟨before, rest, he, -⟩ := List.lookup_eq_some_iff.mp ha
  exact he ▸ List.mem_append_right before List.mem_cons_self

/-- Entries keep to their namespaces. -/
theorem get?_kinds {h : List Event} {x : Symbol} {e : Entry} (he : (after h).get? x = some e) :
    (isReserved x.ns = true ∧ ∃ f : Export, f.symbol = x ∧ e = exported f) ∨
      (isReserved x.ns = false ∧ e.origin = .host ∧ (x, e.address) ∈ accepted h) := by
  cases hx : isReserved x.ns with
  | true =>
    rw [get?_reserved h hx] at he
    split at he
    · obtain ⟨f, -, hf, rfl⟩ := offered_some he
      exact .inl ⟨rfl, f, hf, rfl⟩
    · cases he
  | false =>
    rw [get?_free h hx] at he
    obtain ⟨a, ha, rfl⟩ := Option.map_eq_some_iff.mp he
    exact .inr ⟨rfl, rfl, accepted_of_lookup ha⟩

/-- A registration succeeds if it is a request for a symbol that is not there. -/
theorem register_ok_iff (r : Registry) (ns name : TextArg) (address : Option Address) :
    (r.register ns name address).1 = Status.ok ↔
      ∃ x a, Request ns name address x a ∧ r.get? x = none := by
  rcases register_cases r ns name address with ⟨x, a, hreq, hx, hst, -⟩ |
      ⟨x, a, hreq, hx, hst, -⟩ | ⟨hno, hst, -⟩
  · exact ⟨fun _ => ⟨x, a, hreq, hx⟩, fun _ => hst⟩
  · rw [hst]
    refine ⟨fun e => absurd e (by decide), fun ⟨y, b, hreq', hy⟩ => ?_⟩
    exact absurd ((hreq.unique hreq').1 ▸ hy) hx
  · rw [hst]
    exact ⟨fun e => absurd e (by decide), fun ⟨x, a, hreq, _⟩ => absurd hreq (hno x a)⟩

/-- It is a duplicate if it is a request for a symbol that is there. -/
theorem register_duplicate_iff (r : Registry) (ns name : TextArg) (address : Option Address) :
    (r.register ns name address).1 = Status.duplicateSymbol ↔
      ∃ x a, Request ns name address x a ∧ r.get? x ≠ none := by
  rcases register_cases r ns name address with ⟨x, a, hreq, hx, hst, -⟩ |
      ⟨x, a, hreq, hx, hst, -⟩ | ⟨hno, hst, -⟩
  · rw [hst]
    refine ⟨fun e => absurd e (by decide), fun ⟨y, b, hreq', hy⟩ => ?_⟩
    exact absurd ((hreq.unique hreq').1 ▸ hx) hy
  · exact ⟨fun _ => ⟨x, a, hreq, hx⟩, fun _ => hst⟩
  · rw [hst]
    exact ⟨fun e => absurd e (by decide), fun ⟨x, a, hreq, _⟩ => absurd hreq (hno x a)⟩

end Registry

/-! ## Processes -/

open Registry (after)

variable {σ ω ρ O : Type}

abbrev OfRegistry (R : Registry → Prop) (s : Process ω) : Prop := R s.registry

theorem Component.fail_registry (c : Component) (x : Handle) (why : Fault) (s : Process ω) :
    (c.fail x why s).2.registry = s.registry := by
  cases c <;> exact Part.fail_beside (π := Process.registry) (fun _ _ => rfl) x why s

section

variable {R : Registry → Prop} {out : Outside ω} {via : Invoker (Process ω)}

/-- What every event keeps, every call keeps, as far as callables, callbacks and the functions
    that are called in turn do. -/
theorem registry_outlastsGrowth (hstep : ∀ r e, R r → R (r.step e))
    (happly : ∀ a x, Ends (OfRegistry R) (out.apply a x) fun _ => OfRegistry R)
    (hprogress : ∀ f p, Ends (OfRegistry R) (out.progress f p) fun _ => OfRegistry R) :
    OutlastsGrowth out (fun _ => True) (OfRegistry R) where
  zoo := (OutlastsInserts.beside (π := Process.registry) (fun _ _ => rfl) R).toOutlastsRefs
  makeZoo := (OutlastsInserts.beside (π := Process.registry) (fun _ _ => rfl) R).insert
  calculator := .beside (fun _ _ => rfl) R
  primes := .beside (fun _ _ => rfl) R
  pushAnimal _ _ _ h := h
  updateCalculator _ _ _ h := h
  updatePrimes _ _ _ h := h
  updateHeld _ _ _ _ h := h
  entryPoint c address s h := by
    unfold entryPoint
    dsimp only
    split
    · exact h
    · exact hstep _ (.install c) h
  registerSymbol ns name address s h := hstep _ (.register ns name address) h
  injected _ _ _ _ := trivial
  inject _ _ _ _ h := h
  apply := happly
  progress := hprogress

theorem perform_registry (hstep : ∀ r e, R r → R (r.step e))
    (happly : ∀ a x, Ends (OfRegistry R) (out.apply a x) fun _ => OfRegistry R)
    (hprogress : ∀ f p, Ends (OfRegistry R) (out.progress f p) fun _ => OfRegistry R)
    (hvia : ∀ {ρ : Type} a (c : Call ρ), Ends (OfRegistry R) (via.call a c) fun _ => OfRegistry R)
    (c : Call ρ) : Ends (OfRegistry R) (perform out via c) fun _ => OfRegistry R := by
  refine Boundary.perform_keeps (registry_outlastsGrowth hstep happly hprogress) (fun _ => ?_)
    (fun _ _ _ h => h) (fun _ _ => trivial) fun site _ why s h => ?_
  · exact ⟨fun a _ name s h => ⟨fun _ _ => trivial, hvia a _ s h⟩, fun _ a _ => hvia a _,
      fun a _ _ _ _ => hvia a _, fun a _ _ _ => hvia a _⟩
  · show R (site.1.fail site.2 why s).2.registry
    rwa [site.1.fail_registry]

end

/-- What calls leave of a process: any calls of any functions, each with functions outside the
    components of its own. Callables, callbacks and what is called in turn make such calls
    again, in any state they find. -/
inductive Reaches : Process ω → Process ω → Prop
  | refl (s : Process ω) : Reaches s s
  | call {s u : Process ω} (out : Outside ω) (via : Invoker (Process ω)) {ρ : Type} (c : Call ρ) :
      Reaches s u → (∀ a x v, Reaches v (out.apply a x v).2) →
      (∀ f p v, Reaches v (out.progress f p v).2) →
      (∀ {ρ : Type} a (d : Call ρ) v, Reaches v (via.call a d v).2) →
      Reaches s (perform out via c u).2
  | turn {s u : Process ω} (thread : Nat) (w : ω) : Reaches s u →
      Reaches s { u with shared := { u.shared with thread := thread }, outer := w }
  | note {s u : Process ω} (n : Note) : Reaches s u → Reaches s (Journal.note n u)

/-- What every event keeps, a process keeps. Induction on the calls made, those made in the
    middle of others included. -/
theorem Reaches.keeps {R : Registry → Prop} (hstep : ∀ r e, R r → R (r.step e)) {s u : Process ω}
    (r : Reaches s u) (hs : R s.registry) : R u.registry := by
  induction r with
  | refl s => exact hs
  | call out via c _ _ _ _ ih happly hprogress hvia =>
    exact perform_registry hstep (fun a x v hv => happly a x v hv)
      (fun f p v hv => hprogress f p v hv) (fun a d v hv => hvia a d v hv) c _ (ih hs)
  | turn thread w _ ih => exact ih hs
  | note n _ ih => exact ih hs

/-- The registry of a process goes on with a history. -/
theorem Reaches.history {h : List Registry.Event} {s u : Process ω} (r : Reaches s u)
    (hs : s.registry = after h) : ∃ later, u.registry = after (h ++ later) := by
  refine r.keeps (R := fun r => ∃ later, r = after (h ++ later)) ?_ ⟨[], by rw [hs, List.append_nil]⟩
  rintro r e ⟨later, rfl⟩
  exact ⟨later ++ [e], by rw [← List.append_assoc, Registry.after_concat]⟩

/-! ## Applying -/

namespace Calculator

variable {out out' : Outside ω} {calculator : Handle} {ns name : TextArg} {s : Process ω}

def applyFound (out : Outside ω) (calculator : Handle) (x : Symbol) :
    Option Address → Op (Process ω) Unit
  | some f => do mapValues (out.apply f) (← enlistedIn calculator)
  | none => throw (.unregistered x.ns x.name)

/-- The callable is looked up before anything else is done. -/
theorem apply_found (out : Outside ω) (x : Symbol) :
    apply out calculator (.text x.ns) (.text x.name) s =
    part.guard calculator () (applyFound out calculator x (s.registry.findHost x)) s := by
  refine Part.guard_congr ?_
  refine (run_bind_ok (show _ = (Except.ok x.ns, s) from rfl)).trans ?_
  refine (run_bind_ok (show _ = (Except.ok x.name, s) from rfl)).trans ?_
  refine (run_bind_ok (show _ = (Except.ok s, s) from rfl)).trans ?_
  cases s.registry.findHost x <;> rfl

/-- A text that cannot be read fails the call before anything is looked up. -/
theorem apply_unread {e : Fault}
    (h : ns.read = .error e ∨ (∃ t, ns.read = .ok t) ∧ name.read = .error e) :
    apply out calculator ns name s = part.guard calculator () (throw e) s := by
  refine Part.guard_congr ?_
  rcases h with h | ⟨⟨t, ht⟩, h⟩
  · rw [h]
    rfl
  · refine (run_bind_ok (show _ = (Except.ok t, s) by rw [ht]; rfl)).trans ?_
    rw [h]
    rfl

/-- No callable but the one that is found is of any consequence. -/
theorem apply_congr
    (h : ∀ x a, ns = .text x.ns → name = .text x.name → s.registry.findHost x = some a →
      out'.apply a = out.apply a) :
    apply out' calculator ns name s = apply out calculator ns name s := by
  have hunread {e : Fault}
      (h : ns.read = .error e ∨ (∃ t, ns.read = .ok t) ∧ name.read = .error e) :
      apply out' calculator ns name s = apply out calculator ns name s := by
    rw [apply_unread h, apply_unread h]
  cases ns with
  | null => exact hunread (.inl rfl)
  | malformed => exact hunread (.inl rfl)
  | text ns =>
    cases name with
    | null => exact hunread (.inr ⟨⟨ns, rfl⟩, rfl⟩)
    | malformed => exact hunread (.inr ⟨⟨ns, rfl⟩, rfl⟩)
    | text name =>
      rw [apply_found out ⟨ns, name⟩, apply_found out' ⟨ns, name⟩]
      cases hf : s.registry.findHost ⟨ns, name⟩ with
      | none => rfl
      | some f => simp only [applyFound, h ⟨ns, name⟩ f rfl rfl hf]

/-- Applying runs the callable at `a`: with another one there, it comes to something else. -/
def Invokes (out : Outside ω) (calculator : Handle) (ns name : TextArg) (s : Process ω)
    (a : Address) : Prop :=
  ∃ out' : Outside ω, (∀ b, b ≠ a → out'.apply b = out.apply b) ∧
    apply out' calculator ns name s ≠ apply out calculator ns name s

theorem Invokes.found {a : Address} (h : Invokes out calculator ns name s a) :
    ∃ x, ns = .text x.ns ∧ name = .text x.name ∧ s.registry.findHost x = some a := by
  obtain ⟨out', hsame, hne⟩ := h
  by_contra hno
  refine hne (apply_congr fun x b hns hname hb => hsame b fun e => hno ?_)
  exact ⟨x, hns, hname, e ▸ hb⟩

/-- Where no callable is found the call fails. -/
theorem apply_unregistered {x : Symbol} (h : s.registry.findHost x = none) :
    (apply out calculator (.text x.ns) (.text x.name) s).1.1 = Status.symbolNotFound := by
  rw [apply_found, h, Part.guard_answer]
  rfl

end Calculator

/-! ## Safety -/

open Registry (Request accepted)

/-- A calculator runs the first accepted registration of a symbol or nothing. -/
theorem Calculator.Invokes.accepted {h : List Registry.Event} {out : Outside ω} {calculator : Handle}
    {ns name : TextArg} {s : Process ω} {a : Address} (hs : s.registry = after h)
    (hinv : Calculator.Invokes out calculator ns name s a) : ∃ x : Symbol, ns = .text x.ns ∧
      name = .text x.name ∧ (accepted h).lookup x = some a ∧ isReserved x.ns = false := by
  obtain ⟨x, hns, hname, ha⟩ := hinv.found
  rw [hs, Registry.findHost_after] at ha
  exact ⟨x, hns, hname, ha, Registry.accepted_free (Registry.accepted_of_lookup ha)⟩

/-- Of every history of installs and registrations: an entry stays; the reserved namespaces hold
    components' functions under their own symbols, all others what hosts registered; a
    registration succeeds if it is a request for a symbol that is not there, and is a duplicate if
    it is one for a symbol that is there; what is found for calculators is the first accepted
    registration of the symbol. So a calculator runs that one or nothing, and fails where the
    symbol is a component's. The registry of every state that calls lead to has such a history. -/
theorem registry_safe (h : List Registry.Event) :
    (∀ later x e, (after h).get? x = some e → (after (h ++ later)).get? x = some e) ∧
    (∀ x e, (after h).get? x = some e →
      (isReserved x.ns = true ∧ ∃ f : Export, f.symbol = x ∧ e = ⟨.native f, .exported⟩) ∨
      (isReserved x.ns = false ∧ e.origin = .host ∧ (x, e.address) ∈ accepted h)) ∧
    (∀ ns name address,
      (((after h).register ns name address).1 = Status.ok ↔
        ∃ x a, Request ns name address x a ∧ (after h).get? x = none) ∧
      (((after h).register ns name address).1 = Status.duplicateSymbol ↔
        ∃ x a, Request ns name address x a ∧ (after h).get? x ≠ none)) ∧
    (∀ x a, (after h).findHost x = some a ↔ (accepted h).lookup x = some a) ∧
    (∀ {ω : Type} (out : Outside ω) (s : Process ω) (calculator : Handle), s.registry = after h →
      (∀ ns name a, Calculator.Invokes out calculator ns name s a → ∃ x : Symbol,
        ns = .text x.ns ∧ name = .text x.name ∧ (accepted h).lookup x = some a ∧
        isReserved x.ns = false) ∧
      ∀ x e, (after h).get? x = some e → e.origin = .exported → ∀ via,
        (perform out via (.apply calculator (.text x.ns) (.text x.name)) s).1.1
          = Status.symbolNotFound) ∧
    ∀ {ω : Type} {s u : Process ω}, s.registry = after h → Reaches s u →
      ∃ later, u.registry = after (h ++ later) := by
  refine ⟨fun later x e he => Registry.get?_persists he later,
    fun x e he => Registry.get?_kinds he, fun ns name address => ⟨Registry.register_ok_iff _ _ _ _,
    Registry.register_duplicate_iff _ _ _ _⟩, fun x a => by rw [Registry.findHost_after],
    fun out s calculator hs => ⟨fun ns name a hinv => hinv.accepted hs, fun x e he ho via => ?_⟩,
    fun hs r => r.history hs⟩
  refine Calculator.apply_unregistered (s := s) ?_
  obtain ⟨a, origin⟩ := e
  cases ho
  rw [hs, Registry.findHost, he]

def raided : List Registry.Event :=
  [.register (.text "zoo") (.text "createzoo") (some (.function .square)),
   .register (.text "math") (.text "f") (some (.function .square)),
   .install .zoo,
   .register (.text "math") (.text "f") (some (.function .cube)),
   .register .null (.text "f") (some (.function .cube))]

theorem registry_raided :
    (after raided).get? ⟨"zoo", "createzoo"⟩ = some ⟨.native .createZoo, .exported⟩ ∧
    (perform idle .none (.apply ⟨1⟩ (.text "zoo") (.text "createzoo"))
      { registry := after raided, outer := () }).1.1 = Status.symbolNotFound ∧
    (after raided).findHost ⟨"math", "f"⟩ = some (.function .square) := by
  have hzoo : (after raided).get? ⟨"zoo", "createzoo"⟩ = some ⟨.native .createZoo, .exported⟩ := by
    decide +kernel
  obtain ⟨-, -, -, hfirst, happly, -⟩ := registry_safe raided
  refine ⟨hzoo, (happly idle { registry := after raided, outer := () } ⟨1⟩ rfl).2 _ _ hzoo rfl .none,
    (hfirst _ _).mpr ?_⟩
  decide +kernel

/-! ## What a registered address leads to

The registry keeps components' entries from calculators, not their addresses: where an address
leads is for the host to know that registers it. -/

def getversion : Address := .native (.getVersion .calculator)

def grafted : List Registry.Event :=
  [.install .calculator, .register (.text "host") (.text "f") (some getversion)]

def supplied {ω : Type} (out : Outside ω) (a : Address) (w : ω) : Process ω :=
  let s := (perform out .none (.entryPoint .calculator (some none)) { outer := w }).2
  let s := (perform out .none (.registerSymbol (.text "host") (.text "f") (some a)) s).2
  let s := (perform out .none (.createVariable 3 (some Handle.null)) s).2
  let s := (perform out .none (.createCalculator (some Handle.null)) s).2
  (perform out .none (.enlistVariable ⟨2⟩ ⟨1⟩) s).2

theorem supplied_reaches (a : Address) : Reaches { outer := () } (supplied idle a ()) := by
  have hcall {s : Process Unit} {ρ : Type} (c : Call ρ) (h : Reaches { outer := () } s) :
      Reaches { outer := () } (perform idle .none c s).2 :=
    .call idle .none c h (fun _ _ v => .refl v) (fun _ _ v => .refl v) fun _ _ v => .refl v
  exact hcall _ (hcall _ (hcall _ (hcall _ (hcall _ (.refl _)))))

/-- With an infinite answer instead, the calculator fails. -/
theorem getversion_invoked :
    Calculator.Invokes idle ⟨2⟩ (.text "host") (.text "f") (supplied idle getversion ()) getversion := by
  refine ⟨{ idle with apply := fun a x => if a = getversion then pure (1 / 0) else pure x },
    fun a ha => ?_, fun h => ?_⟩
  · funext x
    exact if_neg ha
  · exact absurd (congrArg (fun answer => decide (answer.1.1 = Status.ok)) h) (by decide +kernel)

open Session (World depth outside)

def acquiring : World :=
  { hook := { plan := [{ onCall := 1, action := some (.acquire .calculator ⟨1⟩) }] } }

/-- A host registers the address of a function that a component has installed, and a calculator runs
    it. The same comes of a host's function that calls one: it is applied, and the variable has one
    reference more. -/
theorem component_function_applied :
    (after grafted).get? ⟨"calculator", "getversion"⟩ = some ⟨getversion, .exported⟩ ∧
    (after grafted).findHost ⟨"host", "f"⟩ = some getversion ∧
    (∃ s : Process Unit, Reaches { outer := () } s ∧ s.registry = after grafted ∧
      Calculator.Invokes idle ⟨2⟩ (.text "host") (.text "f") s getversion) ∧
    ∃ s, s = supplied (outside depth) (.function .hook) acquiring ∧
      s.calculator.count? ⟨1⟩ = some 2 ∧
      (perform (outside depth) .none (.apply ⟨2⟩ (.text "host") (.text "f")) s).2.calculator.count?
        ⟨1⟩ = some 3 := by
  refine ⟨by decide +kernel, by decide +kernel, ?_, _, rfl, by decide +kernel, by decide +kernel⟩
  exact ⟨_, supplied_reaches getversion, by decide +kernel, getversion_invoked⟩

end Boundary
