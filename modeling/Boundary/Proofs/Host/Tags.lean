/-
  Boundary.Proofs.Host.Tags — tags that came with handles, and tags that are queried.

  The zoo component writes beside a handle the tag that its object has at that time
  (`perform_labels`). An object keeps its class, and no other gets its handle, so the object of
  such a fat handle reports that tag for as long as it is there, whatever calls are made.

  Proved: a fat handle of a live object is worth as much as the bare one. Resolved as any class,
  known or not to fit, it gives the same wrapper or the same failure, and the process is left in
  the same state (`resolve_cached`).
-/
import Boundary.Proofs.Host.Methods
import Boundary.Proofs.Reached.Classes
import Boundary.Proofs.Zoo.Contents

namespace Boundary

open Exchange (Host)

variable {ω ρ α : Type} {out : Outside ω} {via : Invoker (Process ω)} {s u : Process ω} {w : ω}
  {c : Component} {x : Handle} {n : String} {f : FatHandle}

/-! ## What is written -/

def Call.fat? {ρ : Type} : Call ρ → ρ → Option FatHandle
  | createZoo _, cell => cell
  | animalAt _ _ _, cell => cell
  | iterator _ _, cell => cell
  | nextAnimal _ _ _, cells => cells.1
  | nextMandatoryAnimal _ _, cell => cell
  | _, _ => none

theorem perform_labels (out : Outside ω) (via : Invoker (Process ω)) (c : Call ρ) :
    Ends (fun _ => True) (perform out via c) fun r s =>
      r.1 = Status.ok → ∀ f, c.fat? r.2 = some f → s.Labels f := by
  cases c
  case createZoo zoo => exact Zoo.createZoo_labels zoo
  case animalAt zoo index animal => exact Zoo.animalAt_labels zoo index animal
  case iterator zoo cell => exact Zoo.iterator_labels zoo cell
  case nextAnimal it animal has => exact Zoo.nextAnimal_labels it animal has
  case nextMandatoryAnimal it animal => exact Zoo.nextMandatoryAnimal_labels it animal
  all_goals exact fun _ _ _ _ hf => by cases hf

/-- Some call that succeeded wrote it, and calls were made since. -/
inductive FatHandle.Written (start : Process ω) (f : FatHandle) (s : Process ω) : Prop
  | intro (out : Outside ω) (via : Invoker (Process ω)) {ρ : Type} (c : Call ρ)
      {before after : Process ω} {cells : ρ} : Reaches start before →
      perform out via c before = ((Status.ok, cells), after) → c.fat? cells = some f →
      Reaches after s → Written start f s

/-- The calls that write fat handles ask for nothing outside. -/
theorem Call.fat?_reaches {c : Call ρ} {cells : ρ} (hf : c.fat? cells = some f)
    (r : Reaches s u) : Reaches s (perform out via c u).2 := by
  let silent : Outside ω :=
    { call := fun _ c => pure (Status.notImplemented, c.cells)
      apply := fun _ x => pure x
      progress := fun _ _ => pure false }
  have hsame : perform out via c = perform silent .none c := by
    cases c
    case createZoo | animalAt | iterator | nextAnimal | nextMandatoryAnimal => rfl
    all_goals cases hf
  rw [hsame]
  exact .call silent .none c r (fun _ _ v => .refl v) (fun _ _ v => .refl v) fun _ _ v => .refl v

theorem className?_iff {t : Process ω} : (t.zoo.live x = true) ↔ ∃ n, t.className? .zoo x = some n := by
  rw [Table.live_iff_get?]
  exact ⟨fun ⟨o, ho⟩ => ⟨o.className, congrArg (Option.map Zoo.Object.className) ho⟩, fun ⟨n, hn⟩ =>
    have ⟨o, ho, _⟩ := Option.map_eq_some_iff.mp hn
    ⟨o, ho⟩⟩

/-- No class of the zoo component has the tag that stands for none. -/
theorem Zoo.Object.tag_written (o : Zoo.Object) : (Tag.ofName o.className).value ≠ 0 := by
  cases o with
  | zoo _ => exact (by decide +kernel : (Tag.ofName "Zoo::Zoo").value ≠ 0)
  | iterator _ _ => exact (by decide +kernel : (Tag.ofName "Zoo::AnimalIterator").value ≠ 0)
  | animal species _ => exact species.tag_known.1

/-- In a state that calls lead to the handle has a label, and what was labelled is kin. -/
theorem FatHandle.Written.label (h : f.Written { outer := w } s) :
    ∃ after : Process ω, Reaches { outer := w } after ∧ after.Labels f ∧ Reaches after s := by
  obtain @⟨out, via, _, c, before, after, cells, reached, hrun, hf, since⟩ := h
  have hlabel := perform_labels out via c before trivial
  have reached : Reaches _ (perform out via c before).2 := Call.fat?_reaches hf reached
  rw [hrun] at hlabel reached
  exact ⟨after, reached, hlabel rfl f hf, since⟩

/-- The tag that was written is the one that a live object has now. -/
theorem FatHandle.Written.tag_eq (h : f.Written { outer := w } s) (hb : s.shared.issued < handleLimit)
    (hn : s.className? .zoo f.handle = some n) :
    f.handle.isNull = false ∧ f.tag = some (Tag.ofName n) := by
  obtain ⟨after, reached, hlabel, since⟩ := h.label
  have k : Kindred after s := reached.kindred since hb
  have hpos := (k.numbered _ _ _ hn).1
  refine ⟨Bool.eq_false_iff.mpr fun hnull => ?_, ?_⟩
  · rw [Table.isNull_iff.mp hnull] at hpos
    exact absurd hpos (by decide)
  rcases hlabel with rfl | ⟨m, hm, htag⟩
  · exact absurd hpos (by decide)
  · have hle : f.handle.raw.toNat ≤ after.shared.issued :=
      ((reached.kindred (.refl after) (since.issued_le.trans_lt hb)).numbered _ _ _ hm).2
    obtain rfl := Option.some.inj (hm.symm.trans (k.same _ _ _ hle hn))
    obtain ⟨o, -, rfl⟩ := Option.map_eq_some_iff.mp hm
    rw [FatHandle.tag, if_neg (htag ▸ o.tag_written), htag]

/-! ## What is asked -/

theorem classTypeId_tells (hx : x.isNull = false) (hn : s.className? c x = some n) (word : UInt64) :
    perform out via (.classTypeId c x (some word)) s =
      ((Status.ok, some (Tag.ofName n).value), s) := by
  cases c with
  | zoo =>
    obtain ⟨o, ho, rfl⟩ := Option.map_eq_some_iff.mp hn
    exact Fixed.classTypeId_tells (p := Process.zooPart) hx ho word
  | calculator =>
    obtain ⟨o, ho, rfl⟩ := Option.map_eq_some_iff.mp hn
    exact Fixed.classTypeId_tells (p := Process.calculatorPart) hx ho word
  | primes =>
    obtain ⟨o, ho, rfl⟩ := Option.map_eq_some_iff.mp hn
    exact Fixed.classTypeId_tells (p := Process.primesPart) hx ho word

namespace Host

variable {l : Library} {i : Instance} {T : Class}

/-- A live object tells its tag, and nothing changes. -/
theorem Instance.classTypeId_tells (hi : i.Home) (h : i.isNull = false)
    (hn : s.className? i.library.component i.handle = some n) :
    i.classTypeId out.invoker s = (.ok (Tag.ofName n), s) := by
  rw [Instance.classTypeId_eq h]
  have hask : i.ask out.invoker (.classTypeId i.library.component i.handle (some 0)) s =
      (.ok (some (Tag.ofName n).value), s) := by
    rw [Instance.ask_run hi (Boundary.classTypeId_tells h hn 0)]
    rfl
  exact (run_bind_ok hask).trans rfl

/-- To ask a live object for its tag is as good as to know it. -/
theorem resolveInstance_asked (hi : i.Home)
    (hn : s.className? i.library.component i.handle = some n) :
    resolveInstance out.invoker T i none s =
      resolveInstance out.invoker T i (some (Tag.ofName n)) s := by
  by_cases hnull : i.isNull = true
  · rw [resolveInstance_null hnull, resolveInstance_null hnull]
  · have h : i.isNull = false := by simpa using hnull
    rw [resolveInstance_none h, resolveInstance_some h]
    exact run_bind_ok (run_adapt (·, i) (Instance.classTypeId_tells hi h hn))

/-- What is judged is the tag that came with the handle, else the one that the object reports. -/
theorem resolveInstance_judges (out : Outside ω) (hi : i.Home) (hx : i.isNull = false)
    (hn : s.className? i.library.component i.handle = some n) (cached : Option Tag) :
    resolveInstance out.invoker T i cached s =
      wrapTagged T i (cached.getD (Tag.ofName n)) s := by
  cases cached with
  | none => rw [resolveInstance_asked hi hn, resolveInstance_some hx, Option.getD_none]
  | some tag => rw [resolveInstance_some hx, Option.getD_some]

/-- A handle with a tag that was written for it and the bare handle of the same live object are
    worth the same: the tag is the one that is reported for the handle, so as a wrapper of any
    class, owned or lent, either gives what the other gives, and leaves what it leaves. -/
theorem resolve_cached (h : f.Written { outer := w } u) (hlive : u.zoo.live f.handle = true)
    (hb : u.shared.issued < handleLimit) :
    (∃ t, f.tag = some t ∧ ∀ (out : Outside ω) via word,
      perform out via (.classTypeId .zoo f.handle (some word)) u =
        ((Status.ok, some t.value), u)) ∧
    ∀ (out : Outside ω) (l : Library), l.Home → l.component = .zoo → ∀ T : Class,
      resolve out.invoker l T (.fat f) u = resolve out.invoker l T (.bare f.handle) u ∧
      resolveBorrowed out.invoker l T (.fat f) u =
        resolveBorrowed out.invoker l T (.bare f.handle) u := by
  obtain ⟨n, hn⟩ := className?_iff.mp hlive
  obtain ⟨hx, htag⟩ := h.tag_eq hb hn
  refine ⟨⟨_, htag, fun out via word => classTypeId_tells hx hn word⟩, fun out l hl hc T => ?_⟩
  have hsame : resolveInstance out.invoker T ⟨l, f.handle⟩ f.tag u =
      resolveInstance out.invoker T ⟨l, f.handle⟩ none u := by
    rw [htag]
    exact (resolveInstance_asked (i := ⟨l, f.handle⟩) hl (hc ▸ hn)).symm
  exact ⟨Resolution.settled_congr hsame, Resolution.settled_congr hsame⟩

/-- The bindings have no class for it. -/
def axolotl : FatHandle := ⟨⟨6⟩, (Tag.ofName "Zoo::Axolotl").value⟩

def homeless : Process Unit :=
  let zoo := idle.after { outer := () }
    [⟨_, .createZoo (some FatHandle.null)⟩, ⟨_, .addAnimal ⟨5⟩ 4 (.text "Axel")⟩]
  idle.after (perform idle (idle.reach .none) (.animalAt ⟨5⟩ 4 (some FatHandle.null)) zoo).2
    [⟨_, .acquireInstance .zoo ⟨6⟩⟩, ⟨_, .releaseInstance .zoo ⟨5⟩⟩]

theorem axolotl_written : axolotl.Written { outer := () } homeless := by
  let zoo := idle.after { outer := () }
    [⟨_, .createZoo (some FatHandle.null)⟩, ⟨_, .addAnimal ⟨5⟩ 4 (.text "Axel")⟩]
  have hlent : (perform idle (idle.reach .none) (.animalAt ⟨5⟩ 4 (some FatHandle.null)) zoo).1 =
      (Status.ok, some axolotl) := by
    decide +kernel
  exact .intro idle (idle.reach .none) (.animalAt ⟨5⟩ 4 (some FatHandle.null))
    (idle_calling.after (.refl _) _) (Prod.ext hlent rfl) rfl (idle_calling.after (.refl _) _)

theorem resolve_axolotl : homeless.zoo.live ⟨5⟩ = false ∧ homeless.zoo.live ⟨6⟩ = true ∧
    ∀ T, resolve idle.invoker (.own .zoo {}) T (.fat axolotl) homeless =
      resolve idle.invoker (.own .zoo {}) T (.bare ⟨6⟩) homeless := by
  have hlive : homeless.zoo.live ⟨6⟩ = true := by decide +kernel
  refine ⟨by decide +kernel, hlive, fun T => ?_⟩
  exact ((resolve_cached axolotl_written hlive (by decide +kernel)).2 idle _
    (Library.own_home .zoo {} _) rfl T).1

end Host

end Boundary
