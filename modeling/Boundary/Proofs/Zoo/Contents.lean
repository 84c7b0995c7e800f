/-
  Boundary.Proofs.Zoo.Contents — what the methods say of a zoo whose animals are known.

  A zoo that is alive holds a reference to each of its animals, so they are alive too, and are
  those of its roll (`Stocked`). All there is to know of them is in the table: whatever else
  changes between two calls does not matter to what the next one answers.

  Proved, of any wrapper over the zoo, whatever its class and its library's options are:
  - the count is the length of the roll (`animalCount_counts`);
  - an index below it has the animal of the roll lent, and all others fail
    (`animalAt_lends`, `animalAt_fails`);
  - an animal tells its name to the letter, and the tag of its class (`animalName_reads`,
    `classTypeId_reads`);
  - an animal is added under any name but the empty one and those that hold a zero
    (`addAnimal_answers`).
-/
import Boundary.Proofs.Host.Methods
import Boundary.Proofs.Iterator.Answers
import Boundary.Proofs.Zoo.Roll

namespace Boundary

open Exchange (Cell Servable)

variable {ω : Type} {out : Outside ω} {s : Process ω} {t : Table Zoo.Object} {zoo x : Handle}
  {hs : List Handle} {roll : Zoo.Roll} {a : Zoo.Species × String}

/-! ## Classes -/

namespace Zoo.Species

def tag (species : Species) : Tag := Tag.ofName ("Zoo::" ++ species.name)

theorem tag_known (species : Species) : species.tag.value ≠ 0 ∧
    (Host.Class.ofTag? .zoo species.tag).all Host.Class.animal.accepts.contains = true := by
  cases species <;> decide +kernel

theorem tag_animal (species : Species) (name : String) :
    Resource.tag (Object.animal species name) = species.tag := rfl

/-- An animal's handle comes with its tag. -/
theorem tag_fat (x : Handle) (species : Species) :
    FatHandle.tag ⟨x, species.tag.value⟩ = some species.tag :=
  if_neg species.tag_known.1

end Zoo.Species

namespace Host

variable {l : Library} {i : Instance} {target : Class} {tag : Tag} {P : Process ω → Prop}

/-- A tag that came with the handle, of a class that fits or that nobody knows, is passed. -/
theorem resolveInstance_fits (hP : OutlastsNotes P)
    (hfits : (Class.ofTag? i.library.component tag).all target.accepts.contains = true) :
    Does P (resolveInstance out.invoker target i (some tag)) (fun j s => j = i ∧ P s)
      fun _ _ => False := by
  refine .ite (fun _ => .pure fun _ h => ⟨rfl, h⟩) fun _ => ?_
  refine .bind (Q := fun tag' s => tag' = tag ∧ P s) (.pure fun _ h => ⟨rfl, h⟩)
    fun tag' => .assume fun htag => ?_
  subst htag
  unfold wrapTagged dispatch
  cases hknown : Class.ofTag? i.library.component tag' with
  | some known =>
    have hmem : target.accepts.contains known = true := by rwa [hknown] at hfits
    dsimp only
    rw [Dispatched.convert, if_pos hmem]
    exact .pure fun _ h => ⟨rfl, h⟩
  | none => exact .bind (hP.note ⟨rfl, rfl⟩) fun _ => .pure fun _ h => ⟨rfl, h⟩

theorem adopt_fits (hP : OutlastsNotes P)
    (hfits : (Class.ofTag? i.library.component tag).all target.accepts.contains = true) :
    Does P (adopt out.invoker target i (some tag)) (fun i' s => i' = i ∧ P s)
      fun _ _ => False :=
  Resolution.settled_does (resolveInstance_fits hP hfits) fun _ _ _ h => h.elim

theorem resolve_fits (hP : OutlastsNotes P) {f : FatHandle} (hf : f.tag = some tag)
    (hfits : (Class.ofTag? l.component tag).all target.accepts.contains = true) :
    Does P (resolve out.invoker l target (.fat f)) (fun i s => i = ⟨l, f.handle⟩ ∧ P s)
      fun _ _ => False := by
  show Does P (adopt out.invoker target ⟨l, f.handle⟩ f.tag) _ _
  rw [hf]
  exact adopt_fits hP hfits

theorem resolveBorrowed_fits (hP : OutlastsNotes P) {f : FatHandle} (hf : f.tag = some tag)
    (hfits : (Class.ofTag? l.component tag).all target.accepts.contains = true) :
    Does P (resolveBorrowed out.invoker l target (.fat f)) (fun i s => i = ⟨l, f.handle⟩ ∧ P s)
      fun _ _ => False := by
  show Does P ((resolveInstance out.invoker target ⟨l, f.handle⟩ f.tag).settled _) _ _
  rw [hf]
  exact Resolution.settled_does (resolveInstance_fits hP hfits) fun _ _ _ h => h.elim

end Host

/-! ## What the zoo component answers -/

namespace Zoo

def Listing (hs : List Handle) (roll : Roll) (t : Table Object) : Prop :=
  List.Forall₂ (fun x a => t.get x = .ok (.animal a.1 a.2)) hs roll

theorem Listing.length (h : Listing hs roll t) : hs.length = roll.length := h.length_eq

theorem Listing.at (h : Listing hs roll t) {k : Nat} (hx : hs[k]? = some x) :
    ∃ a, roll[k]? = some a ∧ t.get x = .ok (.animal a.1 a.2) := by
  obtain ⟨hlen, hall⟩ := List.forall₂_iff_get.mp h
  obtain ⟨hk, rfl⟩ := List.getElem?_eq_some_iff.mp hx
  exact ⟨roll[k], List.getElem?_eq_getElem (hlen ▸ hk), hall k hk (hlen ▸ hk)⟩

theorem Listing.mem (h : Listing hs roll t) (hx : x ∈ hs) :
    ∃ species name, t.get x = .ok (.animal species name) := by
  obtain ⟨k, hk⟩ := List.mem_iff_getElem?.mp hx
  obtain ⟨a, -, ha⟩ := h.at hk
  exact ⟨a.1, a.2, ha⟩

/-- The zoo is alive, and so are its animals: those of the roll. -/
structure Stocked (zoo : Handle) (hs : List Handle) (roll : Roll) (t : Table Object) : Prop where
  zoo : t.get zoo = .ok (.zoo hs)
  animals : Listing hs roll t

theorem animalsOf_run (hz : s.zoo.get zoo = .ok (.zoo hs)) : animalsOf zoo s = (.ok hs, s) := by
  rw [animalsOf, run_bind_ok (get_run hz)]
  rfl

theorem animalCount_run (hz : s.zoo.get zoo = .ok (.zoo hs)) (hfew : hs.length < UInt32.size)
    (n : UInt32) :
    animalCount zoo (some n) s = ((Status.ok, some (UInt32.ofNat hs.length)), s) := by
  refine Part.guard_of_ok ?_
  rw [run_bind_ok (animalsOf_run hz), run_bind_ok (require_run n s), if_neg (Nat.not_le.mpr hfew)]
  rfl

theorem animalAt_run {index : UInt32} {o : Object} (hz : s.zoo.get zoo = .ok (.zoo hs))
    (hx : hs[index.toNat]? = some x) (ho : s.zoo.get x = .ok o) (cell : FatHandle) :
    animalAt zoo index (some cell) s
      = ((Status.ok, some ⟨x, (Resource.tag o).value⟩), s) := by
  refine Part.guard_of_ok ?_
  rw [run_bind_ok (require_run cell s), run_bind_ok (animalsOf_run hz), hx]
  exact run_bind_ok (fat_run ho)

theorem animalAt_beyond {index : UInt32} (hz : s.zoo.get zoo = .ok (.zoo hs))
    (hx : hs[index.toNat]? = none) (cell : FatHandle) :
    (animalAt zoo index (some cell) s).1.1 = Status.invalidParam := by
  rw [animalAt, Part.guard_answer, run_bind_ok (require_run cell s),
    run_bind_ok (animalsOf_run hz), hx]
  rfl

theorem animalName_run {species : Species} {name : String}
    (hx : s.zoo.get x = .ok (.animal species name)) (hname : Servable name)
    (room : Exchange.Room UInt32) :
    ∃ place, place.filled = Exchange.textFilling name room ∧
      animalName x room.capacity room.narrow s = ((Status.ok, place), s) := by
  have hserve := Exchange.serveText_filling hname room
  cases hplace : Exchange.serveText name room.capacity room.narrow with
  | error why =>
    rw [hplace] at hserve
    cases hserve
  | ok place =>
    rw [hplace] at hserve
    refine ⟨place, Except.ok.inj hserve, Part.guard_of_ok ?_⟩
    rw [run_bind_ok (get_run hx)]
    exact congrArg (·, s) hplace

/-- A name that is not empty is taken, and only such a one. -/
theorem addAnimal_ok (hz : s.zoo.get zoo = .ok (.zoo hs)) (species : Species) (name : String) :
    (addAnimal zoo species.code (.text name) s).1.1 = Status.ok ↔ name ≠ "" := by
  rw [addAnimal, Part.guard_answer, run_bind_ok (animalsOf_run hz), Species.ofCode?_code]
  dsimp only
  rw [run_bind_ok (run_lift_ok (show TextArg.read (.text name) = .ok name from rfl) s)]
  by_cases hempty : name.isEmpty = true
  · rw [if_pos hempty]
    have hrefused : Fault.emptyName.code ≠ Status.ok := by decide
    exact iff_of_false (fun h => hrefused h) (by simpa using hempty)
  · rw [if_neg hempty]
    exact iff_of_true rfl (by simpa using hempty)

end Zoo

/-! ## What the methods answer -/

namespace Host

variable {i : Instance}

/-- Over an object that is there the check is passed. -/
theorem Instance.checked_live {o : Zoo.Object} (ho : t.get i.handle = .ok o)
    {P : Process ω → Prop} :
    Does P (liftM i.checked : Exchange.Host (Process ω) Handle) (fun h s => h = i.handle ∧ P s)
      fun _ _ => False :=
  checked_from fun hn _ _ => by
    have := Table.isNull_of_get ho
    rw [Instance.isNull] at hn
    simp [hn] at this

/-- A call that leaves the objects alone and succeeds is passed. -/
theorem Instance.ask_reads {ρ : Type} (hi : i.Home) {c : Call ρ} {Q : ρ → Prop}
    (hrun : ∀ s : Process ω, s.zoo = t → ∃ cells, Q cells ∧
      perform out (out.reach .none) c s = ((Status.ok, cells), s)) :
    Does (fun s => s.zoo = t) (i.ask out.invoker c) (fun cells s => Q cells ∧ s.zoo = t)
      fun _ _ => False := by
  refine ask_told hi (fun _ _ _ h => h) fun s hs => ?_
  obtain ⟨cells, hQ, hcall⟩ := hrun s hs
  rw [hcall]
  exact if_pos rfl ▸ ⟨hQ, hs⟩

variable (out) in
/-- An object tells its tag. -/
theorem Instance.classTypeId_reads {o : Zoo.Object} (hi : i.Home)
    (hc : i.library.component = .zoo) (ho : t.get i.handle = .ok o) :
    Does (fun s => s.zoo = t) (i.classTypeId out.invoker)
      (fun tag s => tag = Resource.tag o ∧ s.zoo = t) fun _ _ => False := by
  intro s hs
  show Either _ _ (i.classTypeId out.invoker s).1 (i.classTypeId out.invoker s).2
  rw [classTypeId_eq (Table.isNull_of_get ho), hc]
  have htell : Does (fun s : Process ω => s.zoo = t) (do
      let tag ← i.ask out.invoker (.classTypeId .zoo i.handle (some 0))
      return ⟨tag.getD 0⟩) (fun tag s => tag = Resource.tag o ∧ s.zoo = t) fun _ _ => False := by
    refine .bind (ask_reads hi (Q := (· = some (Resource.tag o).value)) fun s hs => ?_)
      fun tag => .assume fun htag => .pure fun s hs => ⟨by rw [htag]; rfl, hs⟩
    refine ⟨_, rfl, Part.guard_of_ok (p := Zoo.part) ?_⟩
    exact (run_bind_ok (Boundary.Zoo.get_run (hs ▸ ho))).trans rfl
  exact htell s hs

namespace Zoo

section

variable (hi : i.Home) (hz : t.get i.handle = .ok (.zoo hs))
include hi hz

variable (out) in
theorem animalCount_counts (hfew : hs.length < UInt32.size) :
    Does (fun s => s.zoo = t) (animalCount out.invoker i)
      (fun n s => n = UInt32.ofNat hs.length ∧ s.zoo = t) fun _ _ => False := by
  refine .bind (Instance.checked_live hz) fun h => .assume fun hh => ?_
  subst hh
  refine .bind (Instance.ask_reads hi (Q := (· = some (UInt32.ofNat hs.length))) fun s hs => ?_)
    fun cell => .assume fun hcell => .pure fun s hs => ⟨by rw [hcell]; rfl, hs⟩
  exact ⟨_, rfl, Boundary.Zoo.animalCount_run (hs ▸ hz) hfew 0⟩

variable (out) in
/-- The animal at an index of the list is lent. -/
theorem animalAt_lends (hc : i.library.component = .zoo) {index : UInt32}
    (hx : hs[index.toNat]? = some x) {species : Boundary.Zoo.Species} {name : String}
    (ho : t.get x = .ok (.animal species name)) :
    Does (fun s => s.zoo = t) (animalAt out.invoker i index)
      (fun animal s => animal = ⟨i.library, x⟩ ∧ s.zoo = t) fun _ _ => False := by
  refine .bind (Instance.checked_live hz) fun h => .assume fun hh => ?_
  subst hh
  refine .bind (Instance.ask_reads hi (Q := (· = some ⟨x, species.tag.value⟩)) fun s hs => ?_)
    fun cell => .assume fun hcell => ?_
  · have hrun := Boundary.Zoo.animalAt_run (s := s) (hs ▸ hz) hx (hs ▸ ho) FatHandle.null
    rw [Boundary.Zoo.Species.tag_animal] at hrun
    exact ⟨_, rfl, hrun⟩
  · rw [hcell, Option.getD_some]
    exact resolveBorrowed_fits (fun _ _ _ h => h) (species.tag_fat x) (hc ▸ species.tag_known.2)

variable (out) in
/-- There is no animal at an index beyond. -/
theorem animalAt_fails {index : UInt32} (hx : hs[index.toNat]? = none) :
    Does (fun s => s.zoo = t) (animalAt out.invoker i index) (fun _ _ => False)
      fun _ _ => True := by
  refine .bind ((Instance.checked_live hz).failing fun _ _ h => h.elim) fun h =>
    .assume fun hh => ?_
  subst hh
  refine .bind (Instance.ask_tells hi (Q := fun _ _ => False) fun s hs hok => ?_)
    fun _ _ h => h.elim
  have hcode := Boundary.Zoo.animalAt_beyond (s := s) (hs ▸ hz) hx FatHandle.null
  have hne : Status.invalidParam ≠ Status.ok := by decide
  exact hne (hcode.symm.trans hok)

end

variable (out) in
/-- An animal tells its name to the letter. -/
theorem animalName_reads (hi : i.Home) {species : Boundary.Zoo.Species} {name : String}
    (hx : t.get i.handle = .ok (.animal species name)) (hname : Servable name)
    (hend : name.toList.getLast? ≠ some '\x00') :
    Does (fun s => s.zoo = t) (animalName out.invoker i) (fun r s => r = name ∧ s.zoo = t)
      fun _ _ => False := by
  refine .bind (Instance.checked_live hx) fun h => .assume fun hh => ?_
  subst hh
  refine Exchange.fetchText_served hname (fun room => ?_) hend (fun _ h => h) (fun _ _ h => h) _
  refine .bind (Instance.ask_reads hi (Q := fun place => place.filled =
    Exchange.textFilling name room) fun s hs => ?_) fun place => .pure fun _ h => h
  exact Boundary.Zoo.animalName_run (hs ▸ hx) hname room

/-- An animal is added under a name that is not empty and holds no zero. -/
theorem addAnimal_answers (hi : i.Home) (hz : s.zoo.get i.handle = .ok (.zoo hs))
    (species : Boundary.Zoo.Species) (name : String) :
    (addAnimal out.invoker i species name s).1.isOk = true ↔
      name ≠ "" ∧ '\x00' ∉ name.toList := by
  have hadd : Does (fun s' => s' = s) (addAnimal out.invoker i species name)
      (fun _ _ => name ≠ "" ∧ '\x00' ∉ name.toList)
      fun _ _ => ¬ (name ≠ "" ∧ '\x00' ∉ name.toList) := by
    refine .bind ((Instance.checked_live hz).failing fun _ _ h => h.elim) fun h =>
      .assume fun hh => ?_
    subst hh
    refine .ite (fun hzero => .throw_bind fun _ _ h => h.2 (by simpa using hzero)) fun hzero => ?_
    have hzero : '\x00' ∉ name.toList := by simpa using hzero
    refine Instance.ask_told hi (fun _ _ _ h => h) ?_
    rintro s' rfl
    have hok := Boundary.Zoo.addAnimal_ok hz species name
    by_cases hempty : name = ""
    · exact if_neg (fun h => hok.mp h hempty) ▸ fun h => h.1 hempty
    · exact if_pos (hok.mpr hempty) ▸ ⟨hempty, hzero⟩
  have hafter : Either _ _ (addAnimal out.invoker i species name s).1 _ := hadd s rfl
  cases hrun : (addAnimal out.invoker i species name s).1 with
  | ok _ =>
    rw [hrun] at hafter
    exact iff_of_true rfl hafter
  | error _ =>
    rw [hrun] at hafter
    exact iff_of_false (fun h => by cases h) hafter

end Zoo

end Host

/-! ## What is on the roll is there -/

/-- The animals of a zoo that is alive are those of its roll. -/
theorem Enrolled.stocked {e : Ledger} (h : Enrolled zoo roll s) (sound : Sound e s)
    (hb : s.shared.issued < handleLimit) (hz : s.zoo.get? zoo = some (.zoo hs)) :
    Zoo.Stocked zoo hs roll s.zoo := by
  refine ⟨sound.zoo.get hz, ?_⟩
  refine ((List.forall₂_and_left _ _).mpr ⟨fun _ hx => hx, h.animals hb hs hz⟩).imp
    fun x a hx => ?_
  obtain ⟨o, ho, -⟩ := sound.zoo.owned_leaf hz hx.1
  rw [← (hx.2 hb).2 _ ho]
  exact sound.zoo.get ho

end Boundary
