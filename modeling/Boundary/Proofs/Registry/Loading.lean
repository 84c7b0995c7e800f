/-
  Boundary.Proofs.Registry.Loading — loading over any history.

  Before a component is loaded a host may have registered anything anywhere, and loaded
  components in any order (`Move`). A load installs the component, and then resolves what
  it needs through the registry. Since the component's namespace holds its own functions
  alone, it finds these, whatever was done before.

  Proved (`loading_unspoiled`): every load succeeds with the component's own functions; it
  takes no entry away, and the registry stays as it is if the component was loaded before,
  however often and in whatever order; and a component that was not loaded has no symbols.
-/
import Boundary.Proofs.Host.Library
import Boundary.Proofs.Registry.History

namespace Boundary.Host

open Exchange (Host)
open Registry (after exported opened)

variable {ω : Type} {out : Outside ω} {s : Process ω}

/-! ## Looking up -/

theorem textArg_ok {t : String} (h : '\x00' ∉ t.toList) : textArg t = .ok (.text t) := by
  rw [textArg, if_neg (by simpa using h)]

theorem textArg_bad {t : String} (h : '\x00' ∈ t.toList) :
    textArg t = .error (.containsNul (Text.quoted t)) := by
  rw [textArg, if_pos (by simpa using h)]

def Passable (x : Symbol) : Prop := '\x00' ∉ x.ns.toList ∧ '\x00' ∉ x.name.toList

theorem export_passable (f : Export) : Passable f.symbol := by
  cases f <;> (try rename_i c; cases c) <;> exact ⟨by decide +kernel, by decide +kernel⟩

theorem find_run {x : Symbol} (hx : Passable x) :
    find out.invoker .registryLookup x s = (.ok (s.registry.find x), s) := by
  refine (run_bind_ok (run_lift_ok (textArg_ok hx.1) s)).trans ?_
  refine (run_bind_ok (run_lift_ok (textArg_ok hx.2) s)).trans ?_
  have hcall : out.invoker.call .registryLookup (.lookupSymbol (.text x.ns) (.text x.name) (some none))
      s = (((s.registry.lookup (.text x.ns) (.text x.name)).1,
        some (s.registry.lookup (.text x.ns) (.text x.name)).2), s) := rfl
  refine (run_bind_ok (run_lift hcall)).trans ?_
  cases hf : s.registry.find x <;> simp [Registry.lookup, TextArg.text?, hf] <;> rfl

theorem resolveSymbol_run {f : Export} (hf : s.registry.get? f.symbol = some (exported f)) :
    resolveSymbol out.invoker .registryLookup f.symbol s = (.ok (.native f), s) := by
  refine (run_bind_ok (find_run (export_passable f))).trans ?_
  rw [Registry.find, hf]
  rfl

/-- A symbol that cannot be passed is not found, nor is it missing. -/
theorem find_refused (out : Outside ω) (s : Process ω) {x : Symbol} (hx : ¬ Passable x) :
    ∃ why, find out.invoker .registryLookup x s = (.error why, s) := by
  by_cases hns : '\x00' ∈ x.ns.toList
  · exact ⟨_, run_bind_error (run_lift_error (textArg_bad hns) s)⟩
  · have hname : '\x00' ∈ x.name.toList := by
      by_contra hname
      exact hx ⟨hns, hname⟩
    exact ⟨_, (run_bind_ok (run_lift_ok (textArg_ok hns) s)).trans
      (run_bind_error (run_lift_error (textArg_bad hname) s))⟩

/-- A symbol that is not there is not resolved. -/
theorem resolveSymbol_missing {x : Symbol} (hx : s.registry.find x = none) (a : Address) :
    (resolveSymbol out.invoker .registryLookup x s).1 ≠ .ok a := by
  have hfails : ∃ why, resolveSymbol out.invoker .registryLookup x s = (.error why, s) := by
    by_cases hp : Passable x
    · refine ⟨.symbolNotFound x.ns x.name, (run_bind_ok (find_run hp)).trans ?_⟩
      rw [hx]
      rfl
    · obtain ⟨why, hfind⟩ := find_refused out s hp
      exact ⟨why, run_bind_error hfind⟩
  obtain ⟨why, hrun⟩ := hfails
  rw [hrun]
  exact fun h => by cases h

theorem resolveAll_run {fs : List Export}
    (h : ∀ f ∈ fs, s.registry.get? f.symbol = some (exported f)) :
    Library.resolveAll out.invoker .registryLookup fs s
      = (.ok (fs.map fun f => (f, .native f)), s) := by
  induction fs with
  | nil => rfl
  | cons f rest ih =>
    refine (run_bind_ok (resolveSymbol_run (h f List.mem_cons_self))).trans ?_
    refine (run_bind_ok (ih fun g hg => h g (List.mem_cons_of_mem _ hg))).trans rfl

/-! ## Loading -/

def Library.own (c : Component) (options : LoadOptions) : Library :=
  ⟨c, options, .registryLookup, (Export.fixed c ++ Export.specific c).map fun f => (f, .native f)⟩

theorem Library.own_home (c : Component) (options : LoadOptions) (fs : List Export) :
    Home ⟨c, options, .registryLookup, fs.map fun f => (f, .native f)⟩ := by
  refine home_of ⟨_, rfl⟩ fun p hp => ?_
  obtain ⟨f, -, rfl⟩ := List.mem_map.mp hp
  exact ⟨f, rfl⟩

theorem version_run {l : Library} (hl : l.Home) :
    l.version out.invoker s = (.ok l.component.version, s) := by
  have hcall : (liftM (l.call out.invoker (.getVersion l.component (some 0) (some 0) (some 0))) :
      Host (Process ω) _) s = (.ok (Status.ok, some l.component.version.major,
        some l.component.version.minor, some l.component.version.micro), s) := by
    rw [hl.call]
    cases l.component <;> rfl
  refine (run_bind_ok ((run_bind_ok hcall).trans rfl)).trans rfl

/-- The binaries serve the bindings. -/
theorem verifyVersion_run {l : Library} (hl : l.Home) :
    l.verifyVersion out.invoker s = (.ok (), s) := by
  unfold Library.verifyVersion
  split
  · refine (run_bind_ok (version_run hl)).trans ?_
    have hserves (c : Component) : c.version.serves c.binding = true := by cases c <;> decide
    rw [hserves]
    rfl
  · rfl

def installed (c : Component) (s : Process ω) : Process ω :=
  { s with registry := (s.registry.install c).1, shared := s.shared.notes (s.registry.install c).2 }

theorem loadEntry_run {c : Component} (options : LoadOptions)
    (h : ∀ f ∈ Export.ofComponent c, (s.registry.install c).1.get? f.symbol = some (exported f)) :
    Library.loadEntry out.invoker c options (.native (.entryPoint c)) s =
      (.ok (Library.own c options), Journal.note (.loaded c.name c.ns) (installed c s)) := by
  have hopen : openEntry out.invoker c (.native (.entryPoint c)) s =
      (.ok .registryLookup, installed c s) := rfl
  have hfixed : ∀ f ∈ Export.fixed c, f ∈ Export.ofComponent c := fun f hf =>
    List.mem_append_left _ hf
  have hspecific : ∀ f ∈ Export.specific c, f ∈ Export.ofComponent c := fun f hf =>
    List.mem_append_right _ (List.mem_cons_of_mem _ hf)
  refine (run_bind_ok hopen).trans ?_
  refine (run_bind_ok (resolveAll_run fun f hf => h f (hfixed f hf))).trans ?_
  refine (run_bind_ok (verifyVersion_run (Library.own_home c options _))).trans ?_
  refine (run_bind_ok (show _ = (Except.ok PUnit.unit, Journal.note (.loaded c.name c.ns)
    (installed c s)) from rfl)).trans ?_
  refine (run_bind_ok (resolveAll_run fun f hf => h f (hspecific f hf))).trans ?_
  rw [Library.own, List.map_append]
  rfl

/-! ## Histories of a process -/

inductive Move (ω : Type) where
  | load (c : Component) (options : LoadOptions)
  /-- A registration through the bindings. -/
  | register (x : Symbol) (address : Option Address)
  /-- One across the boundary, of any texts. -/
  | registerRaw (ns name : TextArg) (address : Option Address)
  /-- Anything that leaves the registry alone. -/
  | other (f : Process ω → Process ω) (keeps : ∀ s, (f s).registry = s.registry)

namespace Move

def run (out : Outside ω) : Move ω → Process ω → Process ω
  | load c options, s => (Library.loadEntry out.invoker c options (.native (.entryPoint c)) s).2
  | register x address, s => (Host.register out.invoker .registryLookup x address s).2
  | registerRaw ns name address, s =>
    (perform out (out.reach .none) (.registerSymbol ns name address) s).2
  | other f _, s => f s

def runAll (out : Outside ω) (moves : List (Move ω)) (s : Process ω) : Process ω :=
  moves.foldl (fun s m => m.run out s) s

end Move

variable {h : List Registry.Event}

/-- A component that is being installed is all there. -/
theorem installed_exports (hs : s.registry = after h) (c : Component) :
    ∀ f ∈ Export.ofComponent c,
      (s.registry.install c).1.get? f.symbol = some (exported f) := by
  intro f hf
  have hns : f.symbol.ns = c.ns := Registry.ofComponent_ns c f hf
  have hreserved : isReserved f.symbol.ns = true := by
    rw [hns]
    cases c <;> decide
  have hafter : (s.registry.install c).1 = after (h ++ [.install c]) := by
    rw [hs, Registry.after_concat]
    rfl
  have hopen : opened (h ++ [.install c]) f.symbol.ns = true := by
    rw [hns, Registry.opened_iff]
    simp
  rw [hafter, Registry.get?_reserved _ hreserved, if_pos hopen, Registry.offered_symbol]

/-- The function for registering is found once the registry is there. -/
theorem registerSymbol_found (h : List Registry.Event) :
    Does (fun s : Process ω => s.registry = after h)
      (resolveSymbol out.invoker .registryLookup Export.registerSymbol.symbol)
      (fun a s => a = .native .registerSymbol ∧ s.registry = after h)
      fun _ s => s.registry = after h := by
  refine Does.of_run fun s hs => ?_
  have hget : s.registry.get? Export.registerSymbol.symbol =
      if opened h registryNs then some (exported .registerSymbol) else none := by
    rw [hs, Registry.get?_reserved h (by decide), Registry.offered_symbol]
    rfl
  cases ho : opened h registryNs with
  | true =>
    rw [ho] at hget
    exact .inl ⟨_, _, resolveSymbol_run hget, rfl, hs⟩
  | false =>
    rw [ho] at hget
    have hfind : s.registry.find Export.registerSymbol.symbol = none := by
      rw [Registry.find, hget]
      rfl
    refine .inr ⟨.symbolNotFound registryNs "registersymbol", s, ?_, hs⟩
    refine (run_bind_ok (find_run (export_passable _))).trans ?_
    rw [hfind]
    rfl

def Registered (h : List Registry.Event) (s : Process ω) : Prop :=
  ∃ es, (∀ c, .install c ∉ es) ∧ s.registry = after (h ++ es)

/-- Registering through the bindings makes one request of the registry, or none. -/
theorem register_leaves (out : Outside ω) (hs : s.registry = after h) (x : Symbol) (address : Option Address) :
    Registered h (register out.invoker .registryLookup x address s).2 := by
  have hnone : ∀ s : Process ω, s.registry = after h → Registered h s := fun s hs =>
    ⟨[], by simp, by rw [hs, List.append_nil]⟩
  have hcall (ns name : TextArg) : Ends (fun s : Process ω => s.registry = after h)
      (out.invoker.call (.native .registerSymbol) (.registerSymbol ns name address))
      fun _ => Registered h := fun s hs =>
    ⟨[.register ns name address], by simp, by rw [Registry.after_concat, ← hs]; rfl⟩
  have hdoes : Does (fun s : Process ω => s.registry = after h)
      (register out.invoker .registryLookup x address) (fun _ => Registered h)
      fun _ => Registered h := by
    refine .bind ((registerSymbol_found h).failing fun _ => hnone) fun f => .assume fun hf => ?_
    subst hf
    refine .bind ((textArg_does x.ns).failing fun _ => hnone) fun ns => .assume fun _ => ?_
    refine .bind ((textArg_does x.name).failing fun _ => hnone) fun name => .assume fun _ => ?_
    refine .bind (.monadLift (hcall ns name)) fun (status, _) => ?_
    refine .ite (fun _ => fun s hs => hs) fun _ => ?_
    exact .ite (fun _ => .throw fun _ h => h) fun _ => .throw fun _ h => h
  exact hdoes.leaves hs

/-- A move goes on with the history, and installs what it loads. -/
theorem Move.history (out : Outside ω) (m : Move ω) (hs : s.registry = after h) :
    ∃ es, (m.run out s).registry = after (h ++ es) ∧
      ∀ c, .install c ∈ es ↔ ∃ options, m = .load c options := by
  cases m with
  | load c options =>
    refine ⟨[.install c], ?_, fun d => ?_⟩
    · rw [run, loadEntry_run options (installed_exports hs c), Registry.after_concat, ← hs]
      rfl
    · rw [List.mem_singleton, Registry.Event.install.injEq]
      exact ⟨fun e => ⟨options, e ▸ rfl⟩, fun ⟨_, e⟩ => by cases e; rfl⟩
  | register x address =>
    obtain ⟨es, hnone, hr⟩ := register_leaves out hs x address
    exact ⟨es, hr, fun c => ⟨fun hc => absurd hc (hnone c), fun ⟨_, e⟩ => by cases e⟩⟩
  | registerRaw ns name address =>
    refine ⟨[.register ns name address], ?_, fun c => ?_⟩
    · rw [Registry.after_concat, ← hs]
      rfl
    · simp
  | other f keeps =>
    exact ⟨[], by rw [run, keeps, hs, List.append_nil], fun c => by simp⟩

/-- So does a list of moves. -/
theorem Move.runAll_history (out : Outside ω) (moves : List (Move ω)) (hs : s.registry = after h) :
    ∃ es, (runAll out moves s).registry = after (h ++ es) ∧
      ∀ c, .install c ∈ es ↔ ∃ options, .load c options ∈ moves := by
  induction moves generalizing s h with
  | nil => exact ⟨[], by rw [List.append_nil]; exact hs, fun c => by simp⟩
  | cons m rest ih =>
    obtain ⟨es, hr, hinstall⟩ := m.history out hs
    obtain ⟨later, hr', hinstall'⟩ := ih hr
    refine ⟨es ++ later, by rw [← List.append_assoc]; exact hr', fun c => ?_⟩
    rw [List.mem_append, hinstall, hinstall']
    simp only [List.mem_cons, exists_or, eq_comm]

/-- A component that is there is not installed again. -/
theorem install_again {c : Component} (hc : .install c ∈ h) :
    ((after h).install c).1 = after h := by
  obtain ⟨hready, hinstalled⟩ := Registry.after_marks h
  have hopen : opened h registryNs = true :=
    List.any_eq_true.mpr ⟨_, hc, by simp⟩
  rw [Registry.install_fst, if_pos ((hinstalled c).mpr hc), Registry.prepare,
    if_pos (hready.trans hopen)]

theorem Move.runAll_append (moves more : List (Move ω)) (s : Process ω) :
    runAll out (moves ++ more) s = runAll out more (runAll out moves s) :=
  List.foldl_append

/-- Loading what is loaded changes nothing in the registry. -/
theorem loads_again {more : List (Component × LoadOptions)} (hs : s.registry = after h)
    (hmore : ∀ p ∈ more, .install p.1 ∈ h) :
    (Move.runAll out (more.map fun p => .load p.1 p.2) s).registry = s.registry := by
  induction more generalizing s with
  | nil => rfl
  | cons p rest ih =>
    have hload : ((Move.load p.1 p.2).run out s).registry = s.registry := by
      rw [Move.run, loadEntry_run p.2 (installed_exports hs p.1)]
      show (s.registry.install p.1).1 = s.registry
      rw [hs, install_again (hmore p List.mem_cons_self)]
    refine (ih (hload.trans hs) fun q hq => hmore q (List.mem_cons_of_mem _ hq)).trans ?_
    exact hload

/-- After any history of registrations and loads, a load succeeds with the component's own
    functions, under the names they are exported by; loads take no entry away, and loads of what
    was loaded leave the registry as it is; and no symbol of a component that was not loaded is
    there. -/
theorem loading_unspoiled (out : Outside ω) (w : ω) (moves : List (Move ω)) (c : Component)
    (options : LoadOptions) :
    (∃ l s', Library.loadEntry out.invoker c options (.native (.entryPoint c))
        (Move.runAll out moves { outer := w }) = (.ok l, s') ∧
      l.component = c ∧ l.options = options ∧
      l.resolved.map Prod.fst = Export.fixed c ++ Export.specific c ∧
      ∀ p ∈ l.resolved, p.2 = .native p.1 ∧ p.1 ∈ Export.ofComponent c ∧
        s'.registry.find p.1.symbol = some p.2) ∧
    (∀ more : List (Component × LoadOptions),
      (∀ x e, (Move.runAll out moves { outer := w }).registry.get? x = some e →
        (Move.runAll out (moves ++ more.map fun p => .load p.1 p.2) { outer := w }).registry.get? x
          = some e) ∧
      ((∀ p ∈ more, ∃ before, .load p.1 before ∈ moves) →
        (Move.runAll out (moves ++ more.map fun p => .load p.1 p.2) { outer := w }).registry
          = (Move.runAll out moves { outer := w }).registry)) ∧
    ((∀ before, .load c before ∉ moves) → ∀ name,
      (Move.runAll out moves { outer := w }).registry.find ⟨c.ns, name⟩ = none ∧
      ∀ a, (resolveSymbol out.invoker .registryLookup ⟨c.ns, name⟩
        (Move.runAll out moves { outer := w })).1 ≠ .ok a) := by
  obtain ⟨h, hs, hloaded⟩ :=
    Move.runAll_history out (s := { outer := w }) (h := []) moves rfl
  rw [List.nil_append] at hs
  refine ⟨?_, fun more => ⟨fun x e he => ?_, fun hmore => ?_⟩, fun hnone name => ?_⟩
  · have hexports := installed_exports hs c
    refine ⟨_, _, loadEntry_run options hexports, rfl, rfl, ?_, fun p hp => ?_⟩
    · rw [Library.own, List.map_map]
      exact List.map_id _
    · obtain ⟨f, hf, rfl⟩ := List.mem_map.mp hp
      have hmem : f ∈ Export.ofComponent c := (List.mem_append.mp hf).elim
        (List.mem_append_left _) fun h => List.mem_append_right _ (List.mem_cons_of_mem _ h)
      refine ⟨rfl, hmem, ?_⟩
      show ((Move.runAll out moves { outer := w }).registry.install c).1.find f.symbol = _
      rw [Registry.find, hexports f hmem]
      rfl
  · obtain ⟨later, hlater, -⟩ :=
      Move.runAll_history out (more.map fun p => .load p.1 p.2) hs
    rw [Move.runAll_append, hlater]
    rw [hs] at he
    exact Registry.get?_persists he later
  · rw [Move.runAll_append]
    exact loads_again hs fun p hp => (hloaded p.1).mpr (hmore p hp)
  · have hclosed : opened h c.ns = false := by
      rw [Bool.eq_false_iff]
      intro hopen
      obtain ⟨before, hb⟩ := (hloaded c).mp (Registry.opened_iff.mp hopen)
      exact hnone before hb
    have hreserved : isReserved c.ns = true := by cases c <;> decide
    have hfind : (Move.runAll out moves { outer := w }).registry.find ⟨c.ns, name⟩ = none := by
      rw [hs, Registry.find, Registry.get?_reserved h (x := ⟨c.ns, name⟩) hreserved, hclosed]
      rfl
    exact ⟨hfind, resolveSymbol_missing hfind⟩

def spoiled : List (Move Unit) :=
  [.registerRaw (.text "zoo") (.text "createzoo") (some (.function .square)),
   .load .primes {},
   .register ⟨"zoo", "getversion"⟩ (some (.function .cube)),
   .register ⟨"math", "f"⟩ (some (.function .cube)),
   .load .primes { verify := false, attempts := 0 }]

theorem loading_spoiled :
    (∃ l s', Library.loadEntry idle.invoker .zoo { attempts := 0 } (.native (.entryPoint .zoo))
        (Move.runAll idle spoiled { outer := () }) = (.ok l, s') ∧
      l.resolved.map Prod.fst = Export.fixed .zoo ++ Export.specific .zoo ∧
      ∀ p ∈ l.resolved, p.2 = .native p.1) ∧
    (Move.runAll idle (spoiled ++ [.load .primes {}]) { outer := () }).registry
      = (Move.runAll idle spoiled { outer := () }).registry := by
  obtain ⟨⟨l, s', hl, -, -, hnames, hown⟩, hmore, -⟩ :=
    loading_unspoiled idle () spoiled .zoo { attempts := 0 }
  refine ⟨⟨l, s', hl, hnames, fun p hp => (hown p hp).1⟩, (hmore [(.primes, {})]).2 ?_⟩
  intro p hp
  rw [List.mem_singleton.mp hp]
  exact ⟨{}, by simp [spoiled]⟩

end Boundary.Host
