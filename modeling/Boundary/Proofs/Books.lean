/-
  Boundary.Proofs.Books — the books of a process.

  A ledger says how many references are held outside the tables. `Sound e s` is what is
  known of a process whose books balance with the ledger `e`: those of every table
  (`Table.Kept`), and a journal without a lost release. It is promised as long as handles
  do not come round again; what does not depend on that is `GuardedWith`. `Books J e φ` is both,
  with `J` for the state outside the components and `φ` for what else is known.

  The components differ in their stores alone (`Site`), and each of them notes and makes
  objects in its own name (`Forward`): proved is that the books of the others are not
  touched by it, so what an operation does to the ledger is shown once for all three.
-/
import Boundary.Proofs.Balance
import Boundary.Process
import Mathlib.Algebra.GroupWithZero.Nat

namespace Boundary

variable {ω O : Type}

/-! ## Ledgers -/

abbrev Ledger := Component → Handle → Nat

def Ledger.of (c : Component) (hs : List Handle) : Ledger :=
  fun c' x => if c' = c ∧ x.isNull = false then hs.count x else 0

namespace Ledger

variable {c c' : Component} {hs : List Handle} {x : Handle}

@[simp] theorem of_nil (c : Component) : of c [] = 0 := by
  funext c' x
  simp [of]

theorem of_append (c : Component) (hs hs' : List Handle) :
    of c (hs ++ hs') = of c hs + of c hs' := by
  funext c' x
  by_cases h : c' = c ∧ x.isNull = false <;> simp [of, h]

theorem of_cons (c : Component) (x : Handle) (hs : List Handle) :
    of c (x :: hs) = of c [x] + of c hs := of_append c [x] hs

theorem of_reverse (c : Component) (hs : List Handle) : of c hs.reverse = of c hs := by
  funext c' x
  simp [of]

@[simp] theorem of_null (c : Component) : of c [Handle.null] = 0 := by
  funext c' x
  by_cases e : x = Handle.null
  · subst e
    simp [of, Handle.isNull, Handle.null]
  · simp [of, Ne.symm e]

theorem of_ne (h : c' ≠ c) : of c hs c' = 0 := by
  funext x
  simp [of, h]

/-- Where no entry is null, the entries are counted. -/
theorem of_same (h : ∀ y ∈ hs, y.isNull = false) (x : Handle) : of c hs c x = hs.count x := by
  by_cases hx : x.isNull = false
  · simp [of, hx]
  · have : x ∉ hs := fun hm => hx (h x hm)
    simp [of, hx, List.count_eq_zero_of_not_mem this]

theorem of_single (h : x.isNull = false) (y : Handle) :
    of c [x] c y = if y = x then 1 else 0 := by
  rw [of_same (by simpa using h), List.count_singleton']
  simp [eq_comm]

end Ledger

/-! ## The objects of the components -/

instance : Layered Zoo.Object where
  leaf o := ∃ species name, o = .animal species name
  owned_leaf := by
    rintro _ ⟨species, name, rfl⟩
    rfl

instance : Layered Calculator.Object where
  leaf o := ∃ value, o = .var value
  owned_leaf := by
    rintro _ ⟨value, rfl⟩
    rfl

instance : Layered Primes.Object where
  leaf _ := True
  owned_leaf _ := rfl

/-! ## Books -/

/-- Handles are promised to be new as long as fewer objects were made. -/
def handleLimit : Nat := 18446744073709551615

/-- Handles count the objects made. -/
theorem Shared.nextHandle_raw {s : Shared} (hb : s.issued < handleLimit) :
    s.nextHandle.raw.toNat = s.issued + 1 :=
  UInt64.toNat_ofNat_of_lt' (Nat.succ_lt_succ hb)

theorem Shared.nextHandle_isNull {s : Shared} (hb : s.issued < handleLimit) :
    s.nextHandle.isNull = false := by
  refine Bool.eq_false_iff.mpr fun hn => ?_
  have hraw := Shared.nextHandle_raw hb
  rw [Table.isNull_iff.mp hn] at hraw
  exact absurd hraw (Nat.succ_ne_zero _).symm

structure Sound (e : Ledger) (s : Process ω) : Prop where
  zoo : s.zoo.Kept Component.zoo.name (e .zoo) s.shared.issued s.shared.journal
  calculator :
    s.calculator.Kept Component.calculator.name (e .calculator) s.shared.issued s.shared.journal
  primes : s.primes.Kept Component.primes.name (e .primes) s.shared.issued s.shared.journal
  /-- Every object made was noted. -/
  made : s.shared.journal.countP Note.isCreated = s.shared.issued
  makers : ∀ n ∈ s.shared.journal, ∀ name, n.maker? = some name → ∃ c : Component, name = c.name
  /-- No release that nobody answers for has failed. -/
  clean : ∀ n ∈ s.shared.journal, n.isLoss = false

structure GuardedWith (J : ω → Prop) (s : Process ω) : Prop where
  outer : J s.outer
  reserved : ∀ x a, isReserved x.ns = true → s.registry.find x = some a → ∃ e, a = .native e
  injected : ∀ a, s.injected = some a → ∃ e, a = .native e

theorem GuardedWith.same {J : ω → Prop} {s s' : Process ω} (h : GuardedWith J s)
    (ho : s'.outer = s.outer) (hr : s'.registry = s.registry) (hi : s'.injected = s.injected) :
    GuardedWith J s' :=
  ⟨ho ▸ h.outer, hr ▸ h.reserved, hi ▸ h.injected⟩

def Books (J : ω → Prop) (e : Ledger) (φ : Process ω → Prop) (s : Process ω) : Prop :=
  GuardedWith J s ∧ (s.shared.issued < handleLimit → Sound e s ∧ φ s)

abbrev Balanced (J : ω → Prop) (e : Ledger) : Process ω → Prop := Books J e fun _ => True

/-- What the operations of one component may do to what all share: they note, and make
    objects of their own. -/
def Forward (name : String) (a b : Shared) : Prop :=
  ∃ new, b.journal = new ++ a.journal ∧ a.issued + new.countP Note.isCreated = b.issued ∧
    ∀ n ∈ new, n.isLoss = false ∧ ∀ c, n.maker? = some c → c = name

theorem Forward.refl {name : String} {a b : Shared} (hj : b.journal = a.journal)
    (hi : b.issued = a.issued) : Forward name a b :=
  ⟨[], by simpa using hj, by simpa using hi.symm, by simp⟩

/-- A note that is about no object. -/
theorem Forward.note {name : String} {a : Shared} {n : Note} (hm : n.maker? = none)
    (hl : n.isLoss = false) : Forward name a (a.note n) := by
  have hcreated : ¬ n.isCreated = true := by
    cases n <;> simp [Note.maker?, Note.isCreated] at hm ⊢
  refine ⟨[n], rfl, ?_, fun m hm' => ?_⟩
  · rw [List.countP_cons_of_neg hcreated]
    rfl
  · rw [List.mem_singleton] at hm'
    subst hm'
    exact ⟨hl, fun c hc => by rw [hm] at hc; cases hc⟩

theorem Forward.issued_le {name : String} {a b : Shared} (h : Forward name a b) :
    a.issued ≤ b.issued := by
  obtain ⟨new, -, hi, -⟩ := h
  omega

theorem Table.Kept.other {O : Type} [Resource O] [Layered O] {name other : String}
    {f : Handle → Nat} {a b : Shared} {t : Table O} (k : t.Kept other f a.issued a.journal)
    (h : Forward name a b) (hne : other ≠ name) : t.Kept other f b.issued b.journal := by
  have hle := h.issued_le
  obtain ⟨new, hj, -, hnew⟩ := h
  rw [hj]
  exact k.forward hle fun n hn e => hne ((hnew n hn).2 other e)

section

variable {J : ω → Prop} {e e' : Ledger} {φ φ' : Process ω → Prop} {s s' : Process ω}

theorem Books.mono (h : Books J e φ s) (hφ : Sound e s → φ s → φ' s) : Books J e φ' s :=
  ⟨h.1, fun hb => ⟨(h.2 hb).1, hφ (h.2 hb).1 (h.2 hb).2⟩⟩

theorem Books.balanced (h : Books J e φ s) : Balanced J e s := h.mono fun _ _ => trivial

/-- Where something cannot be, handles have come round, and nothing is promised. -/
theorem Books.absurd (h : Books J e φ s) (hφ : Sound e s → ¬ φ s) : Books J e' φ' s :=
  ⟨h.1, fun hb => (hφ (h.2 hb).1 (h.2 hb).2).elim⟩

end

/-! ## Stores of components -/

/-- `p` is where the component `c` keeps its store. -/
structure Site [Resource O] [Layered O] (p : Part (Process ω) O) (c : Component) : Prop where
  view_shared : ∀ s, (p.view s).shared = s.shared
  view_put : ∀ st s, p.view (p.put st s) = st
  put_shared : ∀ st s, (p.put st s).shared = st.shared
  put_outer : ∀ st s, (p.put st s).outer = s.outer
  put_registry : ∀ st s, (p.put st s).registry = s.registry
  put_injected : ∀ st s, (p.put st s).injected = s.injected
  kept : ∀ {e s}, Sound e s →
    (p.view s).table.Kept c.name (e c) s.shared.issued s.shared.journal
  sound : ∀ {e e' s st}, Sound e s → Forward c.name s.shared st.shared →
    (∀ c', c' ≠ c → e' c' = e c') →
    st.table.Kept c.name (e' c) st.shared.issued st.shared.journal → Sound e' (p.put st s)

theorem Forward.made {name : String} {a b : Shared} (h : Forward name a b)
    (ha : a.journal.countP Note.isCreated = a.issued) :
    b.journal.countP Note.isCreated = b.issued := by
  obtain ⟨new, hj, hi, -⟩ := h
  rw [hj, List.countP_append]
  omega

theorem Forward.makers {c : Component} {a b : Shared} (h : Forward c.name a b)
    (ha : ∀ n ∈ a.journal, ∀ name, n.maker? = some name → ∃ c : Component, name = c.name) :
    ∀ n ∈ b.journal, ∀ name, n.maker? = some name → ∃ c : Component, name = c.name := by
  obtain ⟨new, hj, -, hnew⟩ := h
  rw [hj]
  intro n hn name hm
  rcases List.mem_append.mp hn with hn | hn
  · exact ⟨c, (hnew n hn).2 name hm⟩
  · exact ha n hn name hm

theorem Forward.clean {name : String} {a b : Shared} (h : Forward name a b)
    (ha : ∀ n ∈ a.journal, n.isLoss = false) : ∀ n ∈ b.journal, n.isLoss = false := by
  obtain ⟨new, hj, -, hnew⟩ := h
  rw [hj]
  intro n hn
  rcases List.mem_append.mp hn with hn | hn
  · exact (hnew n hn).1
  · exact ha n hn

theorem zooSite : Site (Process.zooPart (ω := ω)) .zoo where
  view_shared _ := rfl
  view_put _ _ := rfl
  put_shared _ _ := rfl
  put_outer _ _ := rfl
  put_registry _ _ := rfl
  put_injected _ _ := rfl
  kept h := h.zoo
  sound h fwd he k := by
    refine ⟨k, ?_, ?_, fwd.made h.made, fwd.makers h.makers, fwd.clean h.clean⟩
    · exact (he .calculator (by decide)).symm ▸ h.calculator.other fwd (by decide)
    · exact (he .primes (by decide)).symm ▸ h.primes.other fwd (by decide)

theorem calculatorSite : Site (Process.calculatorPart (ω := ω)) .calculator where
  view_shared _ := rfl
  view_put _ _ := rfl
  put_shared _ _ := rfl
  put_outer _ _ := rfl
  put_registry _ _ := rfl
  put_injected _ _ := rfl
  kept h := h.calculator
  sound h fwd he k := by
    refine ⟨?_, k, ?_, fwd.made h.made, fwd.makers h.makers, fwd.clean h.clean⟩
    · exact (he .zoo (by decide)).symm ▸ h.zoo.other fwd (by decide)
    · exact (he .primes (by decide)).symm ▸ h.primes.other fwd (by decide)

theorem primesSite : Site (Process.primesPart (ω := ω)) .primes where
  view_shared _ := rfl
  view_put _ _ := rfl
  put_shared _ _ := rfl
  put_outer _ _ := rfl
  put_registry _ _ := rfl
  put_injected _ _ := rfl
  kept h := h.primes
  sound h fwd he k := by
    refine ⟨?_, ?_, k, fwd.made h.made, fwd.makers h.makers, fwd.clean h.clean⟩
    · exact (he .zoo (by decide)).symm ▸ h.zoo.other fwd (by decide)
    · exact (he .calculator (by decide)).symm ▸ h.calculator.other fwd (by decide)

end Boundary
