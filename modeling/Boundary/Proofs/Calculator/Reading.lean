/-
  Boundary.Proofs.Calculator.Reading — the primes of a sieve, read by a calculator and by the host.

  A calculator looks up the function through the lookup method that was injected, and makes the
  two calls of an exchange itself; the host makes them through its library. A sieve is not
  changed by being read, and its result is short enough for both.

  Proved: where the lookup method leads to the primes component of the process, both read the
  result that the sieve holds (`readPrimes_run`, `Host.Primes.primes_run`).
-/
import Boundary.Proofs.Host.Methods
import Boundary.Proofs.Reached.Objects

namespace Boundary

open Exchange (Contents Filled Host Place Room)
open Process (primesPart)
open Registry (exported)

variable {ω : Type} {out : Outside ω} {via : Invoker (Process ω)} {s : Process ω} {w : ω}

/-! ## Results -/

namespace Primes

def AllListed (t : Table Object) : Prop :=
  ∀ x o ps, t.get? x = some o → o.result = some (.primes ps) → Listing ps

variable {t : Table Object}

theorem AllListed.insert (h : AllListed t) (x : Handle) (n : Nat) (kind : Kind) :
    AllListed (t.insert x n { kind := kind }) := by
  intro y o ps ho hps
  rw [Table.get?_insert] at ho
  split at ho
  · cases ho
    cases hps
  · exact h y o ps ho hps

theorem AllListed.change (h : AllListed t) (x : Handle) {f : Object → Object} (hf : Change f) :
    AllListed (t.update x f) := by
  intro y o ps ho hps
  rw [Table.object_update] at ho
  split at ho
  · obtain ⟨o', ho', rfl⟩ := Option.map_eq_some_iff.mp ho
    cases hf with
    | value _ => cases hps
    | callback _ => exact h y o' ps ho' hps
  · exact h y o ps ho hps

theorem AllListed.found (h : AllListed t) (x : Handle) (n : Nat) {outcome : Outcome}
    (hlisted : outcome.Listed) : AllListed (t.updateHeld x n (found outcome)) := by
  intro y o ps ho hps
  rw [Table.get?, Option.map_eq_some_iff] at ho
  obtain ⟨b, hb, rfl⟩ := ho
  rw [Table.updateHeld, Handle.Map.get?_modify] at hb
  split at hb
  · obtain ⟨a, ha, rfl⟩ := Option.map_eq_some_iff.mp hb
    split at hps
    · exact hlisted ps (Option.some.inj hps)
    · exact h y a.object ps (congrArg (Option.map Slot.object) ha) hps
  · exact h y b.object ps (congrArg (Option.map Slot.object) hb) hps

theorem allListed_outlastsChanges : OutlastsChanges fun s : Process ω => AllListed s.primes where
  subside h l x o ps ho := h x o ps (l.primes x o ho)
  makeZoo _ _ h := h
  makeCalculator _ _ _ h := h
  makePrimes kind _ h := h.insert _ _ kind
  changeZoo _ _ _ _ h := h
  changeCalculator _ _ _ _ h := h
  changePrimes x _ _ hf h := h.change x hf
  found x n _ _ hlisted h := h.found x n hlisted

/-- In every state that calls lead to. -/
theorem listing_of_result (r : Reaches { outer := w } s) {x : Handle} {o : Object} {ps : List UInt64}
    (ho : s.primes.get? x = some o) (hps : o.result = some (.primes ps)) : Listing ps := by
  have hstart : AllListed ({ outer := w } : Process ω).primes := by
    intro y o ps ho
    simp [Table.get?] at ho
  exact allListed_outlastsChanges.reaches r hstart x o ps ho hps

def Listing.contents {ps : List UInt64} (h : Listing ps) : Contents UInt64 where
  elements := ps
  counted := h.short.trans_lt (by decide)
  bounded := by
    have hshort : ps.length ≤ 67108864 := h.short
    show 2 * (ps.length * 8) < 18446744073709551616
    omega

/-! ## One call -/

structure Object.Holds (o : Object) (ps : List UInt64) : Prop where
  kind : o.kind = .sieve
  result : o.result = some (.primes ps)

theorem primes_run {x : Handle} {o : Object} {ps : List UInt64} (hx : s.primes.get x = .ok o)
    (ho : o.Holds ps) {capacity : UInt64} {place after : Place UInt64 UInt64}
    (hserve : Exchange.serveArray ps capacity place = .ok after) :
    primes x capacity place s = ((Status.ok, after), s) := by
  refine Part.guard_of_ok ((run_bind_ok (Part.get_run hx)).trans ?_)
  rw [if_neg (by simp [ho.kind]), ho.result]
  exact run_lift_ok hserve s

end Primes

/-! ## The calculator -/

/-- What is installed offers its functions. -/
theorem Reaches.offers (r : Reaches { outer := w } s) {c : Component}
    (hc : c ∈ s.registry.installed) {f : Export} (hf : f.symbol.ns = c.ns) :
    s.registry.get? f.symbol = some (exported f) := by
  obtain ⟨later, hlater⟩ := r.history (h := []) rfl
  rw [List.nil_append] at hlater
  rw [hlater] at hc ⊢
  have hreserved : isReserved f.symbol.ns = true := by
    rw [hf]
    cases c <;> rfl
  have hopened : Registry.opened later f.symbol.ns = true := by
    rw [hf]
    exact Registry.opened_iff.mpr (((Registry.after_marks later).2 c).mp hc)
  rw [Registry.get?_reserved later hreserved, if_pos hopened, Registry.offered_symbol]

structure Process.ReadsPrimes (s : Process ω) (lookup : Address) : Prop where
  injected : s.injected = some lookup
  native : lookup.Native
  installed : Component.primes ∈ s.registry.installed

namespace Calculator

variable {lookup : Address} (hl : lookup.Native)
include hl

theorem resolve_run {f : Export} (hns : f.symbol.ns = primesNs)
    (hf : s.registry.get? f.symbol = some (exported f)) :
    resolve (out.reach via) lookup f.symbol.name s = (.ok (.native f), s) := by
  obtain ⟨e, rfl⟩ := hl
  have hfind : s.registry.find ⟨primesNs, f.symbol.name⟩ = some (.native f) := by
    rw [← hns]
    show (s.registry.get? f.symbol).map _ = _
    rw [hf]
    rfl
  have hcall : (out.reach via).call (.native e)
      (.lookupSymbol (.text primesNs) (.text f.symbol.name) (some none)) s =
      ((Status.ok, some (some (.native f))), s) := by
    show lookupSymbol (.text primesNs) (.text f.symbol.name) (some none) s = _
    simp [lookupSymbol, Registry.lookup, TextArg.text?, hfind]
  exact (run_bind_ok (run_lift hcall)).trans rfl

/-- The first call counts the primes, and the second one fills a buffer for all of them. -/
theorem readPrimes_run (hf : s.registry.get? Export.primes.symbol = some (exported .primes))
    {x : Handle} {o : Primes.Object} {ps : List UInt64} (hx : s.primes.get x = .ok o)
    (ho : o.Holds ps) (hps : Primes.Listing ps) :
    readPrimes (out.reach via) lookup x s = (.ok ps, s) := by
  let c := hps.contents
  have hquery : (out.reach via).call (.native .primes) (.primes x 0 ⟨some 0, none⟩) s =
      ((Status.ok, ⟨some c.count, none⟩), s) := Primes.primes_run hx ho rfl
  have hfill : (out.reach via).call (.native .primes)
      (.primes x c.count ⟨some c.count, some (.fresh c.count.toNat 0)⟩) s =
      ((Status.ok, ⟨some c.count,
        some ((Exchange.Buffer.fresh c.count.toNat 0).overwrite (ps.take c.count.toNat))⟩), s) := by
    refine Primes.primes_run hx ho ?_
    have hmin : min c.count c.count = c.count := ite_self _
    simp only [Exchange.serveArray, Option.isNone_some, Bool.false_eq_true, and_false, if_false,
      Exchange.Cell.write, Option.map_some]
    exact congrArg (fun n : UInt64 => Except.ok (Place.mk (some c.count)
      (some ((Exchange.Buffer.fresh c.count.toNat 0).overwrite (ps.take n.toNat))))) hmin
  unfold readPrimes
  refine (run_bind_ok (resolve_run hl (f := .primes) rfl hf)).trans ?_
  refine (run_bind_ok (run_lift hquery)).trans ?_
  dsimp only
  rw [if_neg (by simp), Option.getD_some, if_neg (by simp [c.addressable_count])]
  refine (run_bind_ok (run_lift hfill)).trans ?_
  dsimp only
  rw [if_neg (by simp), Option.getD_some, if_neg (UInt64.lt_irrefl _)]
  have hall := c.toList_filled (n := c.count) (Nat.le_of_eq c.toNat_count.symm)
  exact congrArg (fun elements => (Except.ok elements, s)) hall

end Calculator

/-! ## The host -/

namespace Host

/-- The exchange of the bindings ends with its first attempt. -/
theorem Primes.primes_run (out : Outside ω) {i : Instance} (hi : i.Home)
    {o : Boundary.Primes.Object} {ps : List UInt64} (hnull : i.isNull = false)
    (hx : s.primes.get i.handle = .ok o) (ho : o.Holds ps)
    (hps : Boundary.Primes.Listing ps) :
    ∃ notes, primes out.invoker i s = (.ok ps, s.noted notes) := by
  let fill (room : Room UInt64) : Host (Process ω) (Filled UInt64 UInt64) := do
    return (← i.ask out.invoker (.primes i.handle room.capacity room.wide)).filled
  have hserved (room : Room UInt64) (notes : List Note) :
      fill room (s.noted notes) = (.ok (hps.contents.filling room), s.noted notes) := by
    obtain ⟨place, hserve⟩ := Exchange.serveArray_room ps room
    have hfilled : place.filled = hps.contents.filling room := by
      have h := hps.contents.serve room
      change (Exchange.serveArray ps _ _).map _ = _ at h
      rw [hserve] at h
      exact Except.ok.inj h
    have hrun : perform out (out.reach .none) (.primes i.handle room.capacity room.wide)
        (s.noted notes) = ((Status.ok, place), s.noted notes) :=
      Boundary.Primes.primes_run (s := s.noted notes) hx ho hserve
    have hask : i.ask out.invoker (.primes i.handle room.capacity room.wide) (s.noted notes) =
        (.ok place, s.noted notes) := Instance.ask_run hi hrun
    rw [← hfilled]
    exact (run_bind_ok hask).trans rfl
  have hfill (room : Room UInt64) : Does (fun u => ∃ notes, u = s.noted notes) (fill room)
      (fun filled u => filled = hps.contents.filling room ∧ ∃ notes, u = s.noted notes)
      fun _ _ => False :=
    .of_run fun _ ⟨notes, h⟩ => .inl ⟨_, _, h ▸ hserved room notes, rfl, notes, rfl⟩
  have hfetch := Exchange.fetchArray_same (hfill .query) (hfill _)
    (fun n _ ⟨notes, h⟩ => ⟨.fetched n :: notes, h ▸ rfl⟩) i.library.options.attempts
  obtain ⟨_, _, hrun, rfl, notes, rfl⟩ := hfetch.run_ok (s := s) ⟨[], rfl⟩
  exact ⟨notes, (Instance.checked_run hnull s).trans hrun⟩

end Host

end Boundary
