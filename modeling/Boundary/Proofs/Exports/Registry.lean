/-
  Boundary.Proofs.Exports.Registry — what the registry's exports do to the books.

  They move no reference. Under the reserved namespaces the registry holds functions of
  the components alone, so whatever is looked up there is one.
-/
import Boundary.Proofs.Operations
import Boundary.Proofs.Reads

namespace Boundary

open Exchange (Cell)

variable {ω : Type} {J : ω → Prop} {e : Ledger} {ψ : Prop}

def Address.Native (a : Address) : Prop := ∃ e, a = .native e

def Note.Plain (n : Note) : Prop := n.maker? = none ∧ n.isLoss = false

/-! ## Notes -/

theorem forward_notes {name : String} {a : Shared} {ns : List Note} (h : ∀ n ∈ ns, n.Plain) :
    Forward name a (a.notes ns) := by
  refine ⟨ns.reverse, rfl, ?_, fun n hn => ?_⟩
  · have hzero : ns.reverse.countP Note.isCreated = 0 := by
      refine List.countP_eq_zero.mpr fun n hn hc => ?_
      have := (h n (List.mem_reverse.mp hn)).1
      cases n <;> simp [Note.maker?, Note.isCreated] at this hc
    rw [hzero]
    rfl
  · obtain ⟨hm, hl⟩ := h n (List.mem_reverse.mp hn)
    exact ⟨hl, fun c hc => by rw [hm] at hc; cases hc⟩

/-- Plain notes change no books. -/
theorem Books.notes {s : Process ω} (h : Books J e (fun _ => ψ) s) (ns : List Note)
    (hn : ∀ n ∈ ns, n.Plain) :
    Books J e (fun _ => ψ) { s with shared := s.shared.notes ns } := by
  refine ⟨h.1.same rfl rfl rfl, fun hb => ?_⟩
  obtain ⟨hs, hψ⟩ := h.2 hb
  have fwd : Forward "" s.shared (s.shared.notes ns) := forward_notes hn
  refine ⟨⟨?_, ?_, ?_, fwd.made hs.made, fun n hm name he => ?_, fwd.clean hs.clean⟩, hψ⟩
  · exact hs.zoo.other fwd (by decide)
  · exact hs.calculator.other fwd (by decide)
  · exact hs.primes.other fwd (by decide)
  · rcases List.mem_append.mp hm with hm | hm
    · rw [(hn n (List.mem_reverse.mp hm)).1] at he
      cases he
    · exact hs.makers n hm name he

/-- Another registry that holds functions of the components under the reserved namespaces. -/
theorem Books.registry {s : Process ω} (h : Books J e (fun _ => ψ) s) {r : Registry}
    (hr : ∀ x a, isReserved x.ns = true → r.find x = some a → a.Native) :
    Books J e (fun _ => ψ) { s with registry := r } :=
  ⟨⟨h.1.outer, hr, h.1.injected⟩, fun hb =>
    let ⟨hs, hψ⟩ := h.2 hb
    ⟨⟨hs.zoo, hs.calculator, hs.primes, hs.made, hs.makers, hs.clean⟩, hψ⟩⟩

/-- Another primes component for calculators. -/
theorem Books.inject {s : Process ω} (h : Books J e (fun _ => ψ) s) {a : Address}
    (ha : a.Native) : Books J e (fun _ => ψ) { s with injected := some a } :=
  ⟨⟨h.1.outer, h.1.reserved, fun _ hb => Option.some.inj hb ▸ ha⟩, fun hb =>
    let ⟨hs, hψ⟩ := h.2 hb
    ⟨⟨hs.zoo, hs.calculator, hs.primes, hs.made, hs.makers, hs.clean⟩, hψ⟩⟩

/-- Another state outside the components. -/
theorem Books.turn {s : Process ω} (h : Books J e (fun _ => ψ) s) {J' : ω → Prop} {w : ω}
    (hw : J' w) : Books J' e (fun _ => ψ) { s with outer := w } :=
  ⟨⟨hw, h.1.reserved, h.1.injected⟩, fun hb =>
    let ⟨hs, hψ⟩ := h.2 hb
    ⟨⟨hs.zoo, hs.calculator, hs.primes, hs.made, hs.makers, hs.clean⟩, hψ⟩⟩

/-! ## The registry -/

namespace Registry

/-- Reserved symbols stand for functions of the components. -/
def Guarded (r : Registry) : Prop :=
  ∀ x a, isReserved x.ns = true → r.find x = some a → a.Native

theorem Guarded.insert {r : Registry} (h : r.Guarded) (x : Symbol) (entry : Entry)
    (hx : isReserved x.ns = true → entry.address.Native) : (r.insert x entry).2.Guarded := by
  unfold Registry.insert
  split
  · exact h
  · intro y a hy ha
    by_cases e : y = x
    · subst e
      simp only [find, get?, List.lookup_cons_self, Option.map_some, Option.some.injEq] at ha
      exact ha ▸ hx hy
    · refine h y a hy ?_
      simpa [find, get?, List.lookup_cons, beq_false_of_ne e] using ha

theorem Guarded.insertExports {r : Registry} (h : r.Guarded) (es : List Export) :
    (insertExports es r).1.Guarded ∧ ∀ n ∈ (insertExports es r).2, n.Plain := by
  induction es generalizing r with
  | nil => exact ⟨h, by simp [Registry.insertExports]⟩
  | cons x rest ih =>
    obtain ⟨hr, hn⟩ := ih (h.insert x.symbol ⟨.native x, .exported⟩ fun _ => ⟨x, rfl⟩)
    unfold Registry.insertExports
    dsimp only
    split
    · exact ⟨hr, hn⟩
    · refine ⟨hr, fun n hm => ?_⟩
      rcases List.mem_cons.mp hm with rfl | hm
      · exact ⟨rfl, rfl⟩
      · exact hn n hm

theorem Guarded.install {r : Registry} (h : r.Guarded) (c : Component) :
    (r.install c).1.Guarded ∧ ∀ n ∈ (r.install c).2, n.Plain := by
  have hp : r.prepare.Guarded := by
    unfold prepare
    split
    · exact h
    · exact (Guarded.insertExports (r := { r with ready := true }) h _).1
  unfold Registry.install
  dsimp only
  split
  · exact ⟨hp, by simp⟩
  · have hall := Guarded.insertExports
      (r := { r.prepare with installed := c :: r.prepare.installed }) hp (Export.ofComponent c)
    revert hall
    generalize Registry.insertExports (Export.ofComponent c)
      { r.prepare with installed := c :: r.prepare.installed } = after
    rintro ⟨hr, hn⟩
    refine ⟨hr, fun n hm => ?_⟩
    rcases List.mem_append.mp hm with hm | hm
    · exact hn n hm
    · rw [List.mem_singleton] at hm
      subst hm
      exact ⟨rfl, rfl⟩

theorem Guarded.register {r : Registry} (h : r.Guarded) (ns name : TextArg)
    (address : Option Address) :
    (r.register ns name address).2.1.Guarded ∧
      ∀ n ∈ (r.register ns name address).2.2, n.Plain := by
  unfold Registry.register
  split
  · split
    · exact ⟨h, by simp⟩
    · split
      · refine ⟨h, fun n hm => ?_⟩
        rw [List.mem_singleton] at hm
        subst hm
        exact ⟨rfl, rfl⟩
      · next hres =>
        refine ⟨h.insert _ _ fun hx => absurd hx hres, fun n hm => ?_⟩
        dsimp only at hm
        split at hm
        · rw [List.mem_singleton] at hm
          subst hm
          exact ⟨rfl, rfl⟩
        · cases hm
  · exact ⟨h, by simp⟩

end Registry

/-! ## Its exports -/

/-- The lookup method that is handed out is the registry's. -/
theorem entryPoint_native (c : Component) {s : Process ω} {a : Address}
    (ha : (entryPoint c (some none) s).1.2 = some (some a)) : a.Native := by
  have : Address.registryLookup = a := by simpa [entryPoint] using ha
  exact ⟨_, this.symm⟩

theorem entryPoint_balanced (c : Component) (address : Cell (Option Address)) :
    Ends (Balanced J e) (entryPoint c address : Act ω _) fun _ => Balanced J e := by
  cases address with
  | none => exact fun s h => h
  | some a =>
    intro s h
    obtain ⟨hr, hn⟩ := Registry.Guarded.install (r := s.registry) h.1.reserved c
    exact (h.notes _ hn).registry hr

/-- Reserved symbols lead to functions of the components. -/
theorem Registry.Guarded.finds {s : Process ω} (h : s.registry.Guarded) {ns : String}
    (hns : isReserved ns = true) (name : TextArg) {a : Address}
    (ha : (lookupSymbol (.text ns) name (some none) s).1.2 = some (some a)) : a.Native := by
  cases name with
  | text name =>
    simp only [lookupSymbol, Registry.lookup, TextArg.text?, Option.isNone_some,
      Bool.false_eq_true, if_false] at ha
    cases hf : s.registry.find ⟨ns, name⟩ with
    | none => simp [hf] at ha
    | some b =>
      simp only [hf, Option.some.injEq] at ha
      exact ha ▸ h ⟨ns, name⟩ b hns hf
  | null => simp [lookupSymbol, Registry.lookup, TextArg.text?] at ha
  | malformed => simp [lookupSymbol, Registry.lookup, TextArg.text?] at ha

theorem lookupSymbol_keeps (ns name : TextArg) (address : Cell (Option Address)) :
    Ends (Balanced J e) (lookupSymbol ns name address : Act ω _) fun _ => Balanced J e :=
  fun s h => by rwa [lookupSymbol_same]

theorem registerSymbol_balanced (ns name : TextArg) (address : Option Address) :
    Ends (Balanced J e) (registerSymbol ns name address : Act ω _) fun _ => Balanced J e := by
  intro s h
  obtain ⟨hr, hn⟩ := Registry.Guarded.register (r := s.registry) h.1.reserved ns name address
  exact (h.notes _ hn).registry hr

end Boundary
