/-
  Boundary.Proofs.Host.Admission — handles that become wrappers of a class, or do not.

  What decides is the tag, the one that came with the handle or the one that the object reports.
  The bindings keep two tables of it: the declared hierarchy, and for each class the list of known
  concrete classes that it accepts. They say the same (`Class.mem_accepts`). A tag that the
  bindings do not know decides nothing.

  Proved, of a live object in any state of the process: it becomes a wrapper exactly if its tag is
  unknown or that of a class at or below the one asked for. The wrapper has the handle's reference
  and no count changes; where there is none, exactly that reference is given back. To cast a wrapper
  is to resolve its bare handle, so a row of casts ends as the first cast in it ends that is
  refused, and if there is none as the last one alone does (`resolve_and_cast`).
-/
import Boundary.Proofs.Host.Casts
import Boundary.Proofs.Host.References

namespace Boundary.Host

open Exchange (Host)

variable {ω : Type} {out : Outside ω} {via : Invoker (Process ω)} {s u : Process ω} {l : Library}
  {i : Instance} {T k : Class} {t : Tag} {n : String}

/-! ## Classes -/

namespace Class

/-- So many steps up the hierarchy. -/
theorem isA_of_steps {steps : Nat} (h : (·.bind parent?)^[steps] (some k) = some T) : k.IsA T := by
  induction steps generalizing k with
  | zero =>
    obtain rfl : k = T := Option.some.inj h
    exact .refl
  | succ steps ih =>
    rw [Function.iterate_succ_apply, Option.bind_some] at h
    cases hk : k.parent? with
    | none =>
      rw [hk, Function.iterate_fixed rfl] at h
      cases h
    | some above =>
      rw [hk] at h
      exact .head hk (ih h)

/-- The hierarchy is not higher than that. -/
theorem accepted_steps (T : Class) :
    ∀ k ∈ T.accepts, ∃ steps < 4, (·.bind parent?)^[steps] (some k) = some T := by
  cases T <;> decide

theorem accepts_self {c : Component} (hk : k ∈ concrete c) : k ∈ k.accepts ∧ k.component = c := by
  revert k
  cases c <;> decide

/-- The list of a class and the hierarchy below it say the same of concrete classes. -/
theorem mem_accepts (hk : k ∈ concrete T.component) : k ∈ T.accepts ↔ k.IsA T := by
  refine ⟨fun h => ?_, fun h => h.accepts (accepts_self hk).1⟩
  obtain ⟨steps, -, hsteps⟩ := accepted_steps T k h
  exact isA_of_steps hsteps

/-- No two concrete classes of a component have one tag. -/
theorem tag_injective {c : Component} :
    ∀ k ∈ concrete c, ∀ k' ∈ concrete c, k.tag = k'.tag → k = k' := by
  cases c <;> decide

def Admits (T : Class) (t : Tag) : Prop := ∀ k ∈ concrete T.component, k.tag = t → k.IsA T

theorem admits_known (hk : ofTag? T.component t = some k) : T.Admits t ↔ T.accepts.contains k = true := by
  have hmem := List.mem_of_find?_eq_some hk
  have htag : k.tag = t := by simpa using List.find?_some hk
  rw [List.contains_iff_mem, mem_accepts hmem]
  refine ⟨fun h => h k hmem htag, fun h k' hk' htag' => ?_⟩
  rwa [tag_injective k' hk' k hmem (htag'.trans htag.symm)]

theorem admits_unknown (hk : ofTag? T.component t = none) : T.Admits t := by
  intro k' hk' htag
  simpa [htag] using List.find?_eq_none.mp hk k' hk'

end Class

/-! ## Objects -/

structure Live (i : Instance) (n : String) (s : Process ω) : Prop where
  home : i.Home
  isNull : i.isNull = false
  count : (s.count? i.library.component i.handle).isSome = true
  className : s.className? i.library.component i.handle = some n

theorem live_of_count (hi : i.Home) (hx : i.isNull = false)
    (h : (s.count? i.library.component i.handle).isSome = true) : ∃ n, Live i n s := by
  suffices ∃ n, s.className? i.library.component i.handle = some n from
    this.imp fun n hn => ⟨hi, hx, h, hn⟩
  have htable {O : Type} {t : Table O} (name : O → String)
      (h : (t.count? i.handle).isSome = true) : ∃ n, (t.get? i.handle).map name = some n := by
    rw [Table.count?, Option.isSome_map] at h
    rw [← Option.isSome_iff_exists, Option.isSome_map, Table.get?, Option.isSome_map]
    exact h
  cases hc : i.library.component with
  | zoo =>
    rw [hc] at h
    exact htable (t := s.zoo) Boundary.Zoo.Object.className h
  | calculator =>
    rw [hc] at h
    exact htable (t := s.calculator) Boundary.Calculator.Object.className h
  | primes =>
    rw [hc] at h
    exact htable (t := s.primes) Boundary.Primes.Object.className h

theorem Live.noted (h : Live i n s) (hu : s.Noted u) : Live i n u := by
  obtain ⟨notes, -, rfl⟩ := hu
  refine ⟨h.home, h.isNull, ?_, ?_⟩
  · rw [Process.count?_noted]
    exact h.count
  · refine Eq.trans ?_ h.className
    cases i.library.component <;> rfl

/-! ## Tags -/

theorem wrapTagged_admits (hT : T.component = i.library.component) (h : T.Admits t) (s : Process ω) :
    ∃ u, wrapTagged T i t s = (.ok i, u) ∧ s.Noted u := by
  unfold wrapTagged dispatch
  rw [← hT]
  cases hk : Class.ofTag? T.component t with
  | none =>
    have hplain : ∀ m ∈ [Note.unknownTag t T.name], m.Plain := by
      simp [Note.Plain, Note.maker?, Note.isLoss]
    exact ⟨_, rfl, _, hplain, rfl⟩
  | some k =>
    refine ⟨s, ?_, .refl s⟩
    dsimp only
    rw [Dispatched.convert, if_pos ((Class.admits_known hk).mp h)]
    rfl

theorem wrapTagged_refuses (hT : T.component = i.library.component) (h : ¬ T.Admits t)
    (s : Process ω) : wrapTagged T i t s = (.error (.invalidCast T.name t, i), s) := by
  unfold wrapTagged dispatch
  rw [← hT]
  cases hk : Class.ofTag? T.component t with
  | none => exact absurd (Class.admits_unknown hk) h
  | some k =>
    have hno : ¬ T.accepts.contains k = true := fun hc => h ((Class.admits_known hk).mpr hc)
    dsimp only
    rw [Dispatched.convert, if_neg hno]
    rfl

/-! ## Wrappers -/

/-- What becomes of a wrapper's reference when it is to be one of class `T`, and the tag of its
    object is `t`: the wrapper keeps it, and nothing but notes is new, or it is given back. -/
structure Judged (T : Class) (t : Tag) (i : Instance) (s : Process ω)
    (answer : Except Failure Instance × Process ω) : Prop where
  admitted : T.Admits t → answer.1 = .ok i ∧ s.Noted answer.2
  refused : ¬ T.Admits t → answer.1 = .error (.invalidCast T.name t) ∧
    GivesBack i.library.component i.handle s answer.2

theorem Judged.noted {answer : Except Failure Instance × Process ω} (hu : s.Noted u)
    (h : Judged T t i u answer) : Judged T t i s answer :=
  ⟨fun ht => (h.admitted ht).imp_right hu.trans, fun ht => (h.refused ht).imp_right (.noted hu)⟩

theorem adopt_judged (out : Outside ω) (h : Live i n s) (hT : T.component = i.library.component)
    (cached : Option Tag) :
    Judged T (cached.getD (Tag.ofName n)) i s (adopt out.invoker T i cached s) := by
  have hjudges := resolveInstance_judges out (T := T) h.home h.isNull h.className cached
  refine ⟨fun ht => ?_, fun ht => ?_⟩
  · obtain ⟨u, hrun, hnoted⟩ := wrapTagged_admits hT ht s
    rw [adopt, Resolution.settled_ok (hjudges.trans hrun)]
    exact ⟨rfl, hnoted⟩
  · rw [adopt, Resolution.settled_error (hjudges.trans (wrapTagged_refuses hT ht s))]
    exact ⟨rfl, Instance.drop_givesBack h.home h.isNull h.count⟩

/-! ## Rows of casts -/

def castAll {σ : Type} [Journal σ] (via : Invoker σ) : List Class → Instance → Host σ Instance
  | [], i => pure i
  | T :: rest, i => do castAll via rest (← cast via T i)

theorem castAll_null (h : i.isNull = true) (Ts : List Class) (s : Process ω) :
    castAll via Ts i s = (.ok i, s) := by
  induction Ts with
  | nil => rfl
  | cons T rest ih => exact (run_bind_ok (Resolution.settled_ok (resolveInstance_null h))).trans ih

section

variable {Ts : List Class} (h : Live i n s)
  (hTs : ∀ S ∈ Ts, S.component = i.library.component ∧ S.Admits (Tag.ofName n))
include h hTs

/-- Casts that are not refused leave the wrapper as it is, whatever the classes. -/
theorem castAll_append (out : Outside ω) : ∃ u, s.Noted u ∧
    ∀ rest, castAll out.invoker (Ts ++ rest) i s = castAll out.invoker rest i u := by
  induction Ts generalizing s with
  | nil => exact ⟨s, .refl s, fun _ => rfl⟩
  | cons S Ts ih =>
    obtain ⟨hS, hadmits⟩ := hTs S List.mem_cons_self
    obtain ⟨hok, hnoted⟩ := (adopt_judged out h hS none).admitted hadmits
    obtain ⟨u, hu, hrest⟩ := ih (h.noted hnoted) fun R hR => hTs R (List.mem_cons_of_mem S hR)
    exact ⟨u, hnoted.trans hu, fun rest => (run_bind_ok (Prod.ext hok rfl)).trans (hrest rest)⟩

variable (hT : T.component = i.library.component)
include hT

/-- The last cast of a row is judged as it would be alone, and one that is refused is the last. -/
theorem castAll_judged : Judged T (Tag.ofName n) i s (castAll out.invoker (Ts ++ [T]) i s) ∧
    (¬ T.Admits (Tag.ofName n) → ∀ rest,
      castAll out.invoker (Ts ++ T :: rest) i s = castAll out.invoker (Ts ++ [T]) i s) := by
  obtain ⟨u, hu, hrest⟩ := castAll_append h hTs out
  have hjudged := adopt_judged out (h.noted hu) hT none
  have hlast : castAll out.invoker [T] i u = cast out.invoker T i u :=
    congrFun (bind_pure (cast out.invoker T i)) u
  rw [hrest, hlast]
  refine ⟨hjudged.noted hu, fun hrefused rest => ?_⟩
  have hfails : cast out.invoker T i u = (.error (.invalidCast T.name (Tag.ofName n)), _) :=
    Prod.ext (hjudged.refused hrefused).1 rfl
  rw [hrest, hfails]
  exact run_bind_error hfails

end

/-! ## Resolution -/

/-- In any state of the process, the null handle becomes a placeholder, whatever the class, and
    nothing changes. A live object is judged by the tag that came with its handle, or else by the
    one that it reports: this is so when its handle is resolved and, always by the tag that it
    reports, when a wrapper of it is cast. A row of casts is judged as the last one alone, up to the
    first that is refused. -/
theorem resolve_and_cast (out : Outside ω) (s : Process ω) {l : Library} (hl : l.Home)
    (raw : RawHandle) :
    (raw.handle.isNull = true →
      (∀ T, resolve out.invoker l T raw s = (.ok ⟨l, raw.handle⟩, s)) ∧
      ∀ Ts, castAll out.invoker Ts ⟨l, raw.handle⟩ s = (.ok ⟨l, raw.handle⟩, s)) ∧
    (raw.handle.isNull = false → (s.count? l.component raw.handle).isSome = true → ∃ word,
      perform out (out.reach .none) (.classTypeId l.component raw.handle (some 0)) s =
        ((Status.ok, some word), s) ∧
      ∀ T : Class, T.component = l.component →
        Judged T (raw.cached.getD ⟨word⟩) ⟨l, raw.handle⟩ s (resolve out.invoker l T raw s) ∧
        Judged T ⟨word⟩ ⟨l, raw.handle⟩ s (cast out.invoker T ⟨l, raw.handle⟩ s) ∧
        ∀ Ts : List Class, (∀ S ∈ Ts, S.component = l.component ∧ S.Admits ⟨word⟩) →
          Judged T ⟨word⟩ ⟨l, raw.handle⟩ s
            (castAll out.invoker (Ts ++ [T]) ⟨l, raw.handle⟩ s) ∧
          (¬ T.Admits ⟨word⟩ → ∀ rest,
            castAll out.invoker (Ts ++ T :: rest) ⟨l, raw.handle⟩ s =
              castAll out.invoker (Ts ++ [T]) ⟨l, raw.handle⟩ s)) := by
  refine ⟨fun hnull => ?_, fun hx hlive => ?_⟩
  · have hnull : Instance.isNull ⟨l, raw.handle⟩ = true := hnull
    exact ⟨fun T => Resolution.settled_ok (resolveInstance_null hnull),
      fun Ts => castAll_null hnull Ts s⟩
  · obtain ⟨n, h⟩ := live_of_count (i := ⟨l, raw.handle⟩) hl hx hlive
    refine ⟨(Tag.ofName n).value, Boundary.classTypeId_tells hx h.className 0, fun T hT => ?_⟩
    exact ⟨adopt_judged out h hT raw.cached, adopt_judged out h hT none, fun Ts hTs => castAll_judged h hTs hT⟩

def orphaned : Process Unit :=
  idle.after { outer := () }
    [⟨_, .createZoo (some FatHandle.null)⟩, ⟨_, .acquireInstance .zoo ⟨1⟩⟩,
     ⟨_, .releaseInstance .zoo ⟨5⟩⟩]

theorem orphaned_evaluates :
    orphaned.count? .zoo ⟨1⟩ = some 1 ∧
      (perform idle (idle.reach .none) (.classTypeId .zoo ⟨1⟩ (some 0)) orphaned).1 =
        (Status.ok, some Class.giraffe.tag.value) ∧
      Class.ofTag? .zoo Class.giraffe.tag = some .giraffe := by
  decide +kernel

theorem admits_giraffe {T : Class} (hT : T.component = .zoo) :
    T.Admits Class.giraffe.tag ↔ T.accepts.contains .giraffe = true :=
  Class.admits_known (hT ▸ orphaned_evaluates.2.2)

/-- It is a mammal, whatever else it was wrapped as in between, and no reptile. To take it for one
    costs the last reference to it. -/
theorem resolve_and_cast_orphaned : orphaned.count? .zoo ⟨1⟩ = some 1 ∧
    (castAll idle.invoker [.animal, .zooBase, .mammal] ⟨.own .zoo {}, ⟨1⟩⟩ orphaned).1 =
      .ok ⟨.own .zoo {}, ⟨1⟩⟩ ∧
    (resolve idle.invoker (.own .zoo {}) .reptile (.bare ⟨1⟩) orphaned).1 =
      .error (.invalidCast "Zoo::Reptile" Class.giraffe.tag) ∧
    (resolve idle.invoker (.own .zoo {}) .reptile (.bare ⟨1⟩) orphaned).2.count? .zoo ⟨1⟩ = none := by
  obtain ⟨hcount, hreport, -⟩ := orphaned_evaluates
  obtain ⟨-, hlive⟩ := resolve_and_cast idle orphaned (l := .own .zoo {}) (Library.own_home _ _ _)
    (.bare ⟨1⟩)
  obtain ⟨word, hword, hall⟩ := hlive rfl (congrArg Option.isSome hcount)
  obtain rfl : word = Class.giraffe.tag.value :=
    Option.some.inj (congrArg Prod.snd ((congrArg Prod.fst hword).symm.trans hreport))
  have hmammal := (hall .mammal rfl).2.2 [.animal, .zooBase] fun S hS => by
    rcases List.mem_pair.mp hS with rfl | rfl
    · exact ⟨rfl, (admits_giraffe rfl).mpr rfl⟩
    · exact ⟨rfl, (admits_giraffe rfl).mpr rfl⟩
  obtain ⟨hfails, hgives⟩ := (hall .reptile rfl).1.refused fun h =>
    absurd ((admits_giraffe rfl).mp h) (by decide)
  exact ⟨hcount, (hmammal.1.admitted ((admits_giraffe rfl).mpr rfl)).1, hfails,
    (hgives.last 1 hcount (by decide)).1⟩

end Boundary.Host
