/-
  Boundary.Proofs.Zoo.Refinement — to its host a zoo is a list of animals.

  A host sees a zoo in three ways: it counts the animals and has one lent at an index, it
  iterates over them, and it asks the animals that it got for their names and tags. All three
  see one list, that of the default animals and of those that were added since, and what other
  zoos, iterators and failures a run holds beside does not matter (`Mirrors`).

  Proved: so it is in every state of every run of safe steps (`zoo_mirrors_roll`).
-/
import Boundary.Proofs.Zoo.Additions
import Boundary.Proofs.Zoo.Iteration

namespace Boundary

open Exchange (Servable)

/-! ## Iterators anywhere on a walk -/

/-- An iterator that is alive is underway, and its animals are what they were at the start. -/
theorem Snap.underway {ω : Type} {it : Handle} {hs : List Handle} {roll : Zoo.Roll}
    {was : Table Zoo.Object} {k : Nat} {e : Ledger} {s : Process ω} {o : Zoo.Object}
    (h : Snap it hs was.get? k s) (sound : Sound e s) (hb : s.shared.issued < handleLimit)
    (hlisting : Zoo.Listing hs roll was) (ho : s.zoo.get it = .ok o) :
    Zoo.Underway it hs roll (min k hs.length) s.zoo := by
  obtain rfl : o = .iterator hs (min k hs.length) := (h.iterator hb).2 o (Table.get_ok ho)
  refine ⟨ho, ((List.forall₂_and_left _ _).mpr ⟨fun _ hx => hx, hlisting⟩).imp fun x a hx => ?_⟩
  obtain ⟨o, hget, -⟩ := sound.zoo.owned_leaf (Table.get_ok ho) hx.1
  have hwas := ((h.pinned x hx.1 hb).2 _ hget).1
  rw [Table.get_ok hx.2] at hwas
  rw [Option.some.inj hwas]
  exact sound.zoo.get hget

/-- Another reference can be counted. -/
theorem Fit.counted {ω : Type} {it x : Handle} {hs : List Handle} {s : Process ω}
    (h : Fit it hs s) (hx : x ∈ hs) : s.zoo.refs x + 1 < UInt32.size := by
  have hfull := h.2 x hx
  rw [Table.refs]
  cases hcount : s.zoo.count? x with
  | none => decide
  | some n =>
    have hne : n.toNat ≠ 4294967295 := fun e => hfull (hcount ▸ congrArg some (UInt32.toNat_inj.mp e))
    have := n.toNat_lt
    show n.toNat + 1 < 4294967296
    omega

namespace Session

open Host (Instance Library)

variable {out : Outside World} {s u v : Process World} {zoo it : Handle} {hs : List Handle}
  {added roll : Zoo.Roll} {a : Zoo.Species × String} {i : Instance}

/-! ## What a zoo looks like -/

structure Over (x : Handle) (i : Instance) : Prop where
  home : i.Home
  component : i.library.component = .zoo
  handle : i.handle = x

structure Shown (out : Outside World) (animal : Instance) (a : Zoo.Species × String)
    (s : Process World) : Prop where
  name : (Host.Zoo.animalName out.invoker animal s).1 = .ok a.2
  tag : (animal.classTypeId out.invoker s).1 = .ok a.1.tag

/-- The zoo, with the handles that it holds, is the roll to all who look at it. -/
structure Mirrors (out : Outside World) (zoo : Handle) (hs : List Handle) (roll : Zoo.Roll)
    (s : Process World) : Prop where
  count : ∀ i, Over zoo i →
    ∃ n, (Host.Zoo.animalCount out.invoker i s).1 = .ok n ∧ n.toNat = roll.length
  /-- There is an animal at an index if the roll is longer. -/
  within : ∀ i, Over zoo i → ∀ index : UInt32,
    (Host.Zoo.animalAt out.invoker i index s).1.isOk = true ↔ index.toNat < roll.length
  lent : ∀ i, Over zoo i → ∀ (index : UInt32) animal u,
    Host.Zoo.animalAt out.invoker i index s = (.ok animal, u) →
      ∃ a, roll[index.toNat]? = some a ∧ Shown out animal a u
  /-- An iteration sees the animals of the roll, all in a row. -/
  iterated : ∀ i, Over zoo i → ∀ limit seen, (Host.Zoo.identifyAll out i limit s).1 = .ok seen →
    seen = (roll.map fun a => (a.2, a.1.tag)).take limit
  /-- With room for its references it comes to its end. -/
  completed : ∀ i, Over zoo i → Zoo.Spare hs s.zoo.refs →
    ∀ limit, (Host.Zoo.identifyAll out i limit s).1.isOk = true
  /-- Whatever is done between its steps, an iterator that is made now hands out the animal of
      the roll which is next. -/
  next : ∀ it k held v, Walk out zoo hs s it k held v → v.shared.issued < handleLimit →
    ∀ i, Over it i → ∀ animal u,
      Host.Zoo.nextAnimal out.invoker i v = (.ok (some animal), u) →
        ∃ a, roll[k]? = some a ∧ Shown out animal a u
  /-- It ends no sooner than the roll. -/
  ended : ∀ it k held v, Walk out zoo hs s it k held v → v.shared.issued < handleLimit →
    ∀ i, Over it i → ∀ u, Host.Zoo.nextAnimal out.invoker i v = (.ok none, u) → roll.length ≤ k
  /-- While it is alive and there is room in the counts, it does go on. -/
  served : ∀ it k held v, Walk out zoo hs s it k held v → Fit it hs v →
    ∀ i, Over it i → (Host.Zoo.nextAnimal out.invoker i v).1.isOk = true
  added : ∀ i, Over zoo i → ∀ (species : Zoo.Species) (name : String),
    (Host.Zoo.addAnimal out.invoker i species name s).1.isOk = true ↔
      name ≠ "" ∧ '\x00' ∉ name.toList

abbrev Plain (roll : Zoo.Roll) : Prop :=
  ∀ a ∈ roll, Servable a.2 ∧ a.2.toList.getLast? ≠ some '\x00'

theorem shown_of (hi : i.Home) (hc : i.library.component = .zoo)
    (hx : s.zoo.get i.handle = .ok (.animal a.1 a.2)) (hplain : Plain roll) (ha : a ∈ roll) :
    Shown out i a s := by
  obtain ⟨hname, hend⟩ := hplain a ha
  have htell := Host.Zoo.animalName_reads out hi hx hname hend
  obtain ⟨name, _, hrun, rfl, -⟩ := htell.run_ok rfl
  obtain ⟨tag, _, hrun', rfl, -⟩ := (Instance.classTypeId_reads out hi hc hx).run_ok rfl
  exact ⟨by rw [hrun], by rw [hrun']; rfl⟩

section

variable (hz : Zoo.Stocked zoo hs roll s.zoo) (hi : Over zoo i)
include hz hi

theorem count_mirrors (hfew : hs.length < UInt32.size) :
    ∃ n, (Host.Zoo.animalCount out.invoker i s).1 = .ok n ∧ n.toNat = roll.length := by
  obtain ⟨home, -, rfl⟩ := hi
  obtain ⟨n, _, hrun, rfl, -⟩ :=
    (Host.Zoo.animalCount_counts out home hz.zoo hfew).run_ok rfl
  refine ⟨_, by rw [hrun], ?_⟩
  rw [← hz.animals.length]
  exact UInt32.toNat_ofNat_of_lt' hfew

variable (out) in
theorem animalAt_beyond (index : UInt32) (h : roll.length ≤ index.toNat) :
    ∃ why, (Host.Zoo.animalAt out.invoker i index s).1 = .error why := by
  obtain ⟨home, -, rfl⟩ := hi
  have hfail := Host.Zoo.animalAt_fails out home hz.zoo
    (List.getElem?_eq_none_iff.mpr (hz.animals.length ▸ h)) s rfl
  change Either _ _ (Host.Zoo.animalAt out.invoker i index s).1 _ at hfail
  cases hrun : (Host.Zoo.animalAt out.invoker i index s).1 with
  | ok animal =>
    rw [hrun] at hfail
    exact hfail.elim
  | error why => exact ⟨why, rfl⟩

variable (out) in
theorem animalAt_within (hplain : Plain roll) (index : UInt32) (h : index.toNat < roll.length) :
    ∃ animal u, Host.Zoo.animalAt out.invoker i index s = (.ok animal, u) ∧
      ∃ a, roll[index.toNat]? = some a ∧ Shown out animal a u := by
  obtain ⟨home, hc, rfl⟩ := hi
  have hlt : index.toNat < hs.length := by rwa [hz.animals.length]
  have hx := List.getElem?_eq_getElem hlt
  obtain ⟨a, ha, ho⟩ := hz.animals.at hx
  obtain ⟨animal, u, hrun, rfl, hu⟩ :=
    (Host.Zoo.animalAt_lends out home hz.zoo hc hx ho).run_ok rfl
  exact ⟨_, u, hrun, a, ha, shown_of (i := ⟨i.library, _⟩) home hc (hu ▸ ho) hplain
    (List.mem_of_getElem? ha)⟩

variable (out) in
theorem identifyAll_mirrors (hplain : Plain roll) {φ : Prop} (hroom : φ → Zoo.Spare hs s.zoo.refs)
    (sound : ∃ e, Sound e s) (hb : s.shared.issued < handleLimit) (limit : Nat) :
    Does (fun s' => s' = s) (Host.Zoo.identifyAll out i limit)
      (fun seen _ => seen = (roll.map Host.Zoo.entry).take limit) fun _ _ => ¬ φ := by
  obtain ⟨home, hc, rfl⟩ := hi
  obtain ⟨e, sound⟩ := sound
  have hraw : s.shared.nextHandle.raw.toNat = s.shared.issued + 1 := Shared.nextHandle_raw hb
  have hnew : s.zoo.get? s.shared.nextHandle = none :=
    Option.map_eq_none_iff.mpr (sound.zoo.unissued (by omega))
  exact Host.Zoo.identifyAll_reads home hc hz hroom (Shared.nextHandle_isNull hb) hnew hplain limit

end

/-! ## On a walk -/

/-- Where nothing is under the handle there is no next animal. -/
theorem nextAnimal_alive (hi : i.Home) {r : Option Instance}
    (hrun : Host.Zoo.nextAnimal out.invoker i v = (.ok r, u)) :
    ∃ o, v.zoo.get i.handle = .ok o := by
  by_contra hgone
  have hfail : Does (fun s => s = v) (Host.Zoo.nextAnimal out.invoker i) (fun _ _ => False)
      fun _ _ => True := by
    refine .bind (Instance.checked_from fun _ _ _ => trivial) fun h => .assume fun hh => ?_
    subst hh
    refine .bind (Instance.ask_tells hi (Q := fun _ _ => False) ?_) fun _ _ h => h.elim
    rintro s rfl hok
    exact next_gone rfl (out.reach .none) (fun o ho => hgone ⟨o, ho⟩) hok
  have hafter := hfail v rfl
  change Either _ _ (Host.Zoo.nextAnimal out.invoker i v).1 _ at hafter
  rw [hrun] at hafter
  exact hafter

section

variable (q : Harmless out) (h₀ : Ready s) (hzoo : s.zoo.get? zoo = some (.zoo hs))
  (hlisting : Zoo.Listing hs roll s.zoo) {k : Nat} {held : Ledger}
  (w : Walk out zoo hs s it k held v) (hb : v.shared.issued < handleLimit) (hi : Over it i)
include q h₀ hzoo hlisting w hb hi

theorem Walk.underway {o : Zoo.Object} (ho : v.zoo.get it = .ok o) :
    Zoo.Underway i.handle hs roll (min k hs.length) v.zoo := by
  obtain ⟨_, _, _, hbooks⟩ := w.holding q h₀
  obtain ⟨_, _, _, hplaced⟩ := w.placing q h₀ hzoo
  rw [hi.handle]
  exact hplaced.2.underway (hbooks.2 hb).1 hb hlisting ho

theorem Walk.comes {r : Option Instance}
    (hrun : Host.Zoo.nextAnimal out.invoker i v = (.ok r, u)) :
    Zoo.Underway i.handle hs roll (min k hs.length) v.zoo ∧
      ∃ next, r = next.map (fun p => (⟨i.library, p.1⟩ : Instance)) ∧
        Zoo.Coming i.handle hs roll (min k hs.length) v next u.zoo := by
  obtain ⟨o, ho⟩ := nextAnimal_alive hi.home hrun
  have hw := w.underway q h₀ hzoo hlisting hb hi (hi.handle ▸ ho)
  refine ⟨hw, ?_⟩
  have hcome := Host.Zoo.nextAnimal_comes out (φ := False) hi.home hi.component hw
    (fun h => h.elim) v rfl
  change Either _ _ (Host.Zoo.nextAnimal out.invoker i v).1
    (Host.Zoo.nextAnimal out.invoker i v).2 at hcome
  rw [hrun] at hcome
  exact hcome

theorem Walk.next_shown (hplain : Plain roll) {animal : Instance}
    (hrun : Host.Zoo.nextAnimal out.invoker i v = (.ok (some animal), u)) :
    ∃ a, roll[k]? = some a ∧ Shown out animal a u := by
  obtain ⟨hw, next, hnext, hcome⟩ := w.comes q h₀ hzoo hlisting hb hi hrun
  cases next with
  | none => cases hnext
  | some p =>
    obtain rfl := Option.some.inj hnext
    obtain ⟨hat, -, hx⟩ := hcome.shown hw rfl
    have hlt := (List.getElem?_eq_some_iff.mp hat).1
    have hlen := hlisting.length
    have hk : min k hs.length = k := by omega
    rw [hk] at hat
    exact ⟨p.2, hat, shown_of (i := ⟨i.library, p.1⟩) hi.home hi.component hx hplain
      (List.mem_of_getElem? hat)⟩

theorem Walk.next_over (hrun : Host.Zoo.nextAnimal out.invoker i v = (.ok none, u)) :
    roll.length ≤ k := by
  obtain ⟨-, next, hnext, hcome⟩ := w.comes q h₀ hzoo hlisting hb hi hrun
  have hover := hcome.over (Option.map_eq_none_iff.mp hnext.symm)
  have hlen := hlisting.length
  omega

theorem Walk.next_served (fit : Fit it hs v) :
    (Host.Zoo.nextAnimal out.invoker i v).1.isOk = true := by
  obtain ⟨_, _, _, hbooks⟩ := w.holding q h₀
  obtain ⟨_, _, _, hplaced⟩ := w.placing q h₀ hzoo
  have halive := (hplaced.2.position (hbooks.2 hb).1 fit).2
  have hw := w.underway q h₀ hzoo hlisting hb hi halive
  obtain ⟨r, _, hrun, -⟩ := ((Host.Zoo.nextAnimal_comes out (φ := True) hi.home hi.component
    hw fun _ x hx => fit.counted hx).failing fun _ _ h => h trivial).run_ok rfl
  rw [hrun]
  rfl

end

/-! ## The roll of a run -/

theorem defaults_plain : Plain Zoo.defaults := by
  unfold Plain Servable
  decide +kernel

theorem Tally.plain (q : Harmless out) (r : Tally out zoo added s)
    (hnames : ∀ a ∈ added, Servable a.2) : Plain (Zoo.defaults ++ added) := by
  intro a ha
  rcases List.mem_append.mp ha with ha | ha
  · exact defaults_plain a ha
  · exact ⟨hnames a ha, fun hend => r.clean q a ha (List.mem_of_getLast? hend)⟩

theorem Tally.stocked (q : Harmless out) (r : Tally out zoo added s)
    (hb : s.shared.issued < handleLimit) (hzoo : s.zoo.get? zoo = some (.zoo hs)) :
    Zoo.Stocked zoo hs (Zoo.defaults ++ added) s.zoo := by
  obtain ⟨_, _, _, h⟩ := r.rolls q
  exact h.2.stocked ((r.run.ready q ready_start).sound hb) hb hzoo

/-- In every state of every run a zoo that is alive is the list of the default animals and of
    those that successful calls have added to it, in order, to all who count its animals, look
    at one, or iterate over them. Names are taken as they are, but for the empty one and those
    that hold a zero. -/
theorem zoo_mirrors_roll (q : Harmless out) (r : Tally out zoo added s)
    (hnames : ∀ a ∈ added, Servable a.2) (hb : s.shared.issued < handleLimit)
    (hzoo : s.zoo.get? zoo = some (.zoo hs)) (hfew : hs.length < UInt32.size) :
    Mirrors out zoo hs (Zoo.defaults ++ added) s := by
  have h₀ : Ready s := r.run.ready q ready_start
  have hz := r.stocked q hb hzoo
  have hplain := r.plain q hnames
  have sound : ∃ e, Sound e s := ⟨_, h₀.sound hb⟩
  refine ⟨fun i hi => count_mirrors hz hi hfew, fun i hi index => ⟨fun hok => ?_, fun h => ?_⟩,
    fun i hi index animal u hrun => ?_, fun i hi limit seen hrun => ?_,
    fun i hi hspare limit => ?_,
    fun it k held v w hb' i hi animal u => w.next_shown q h₀ hzoo hz.animals hb' hi hplain,
    fun it k held v w hb' i hi u => w.next_over q h₀ hzoo hz.animals hb' hi,
    fun it k held v w fit i hi => w.next_served q h₀ hzoo hz.animals fit.new hi fit,
    fun i hi species name => ?_⟩
  · by_contra hbeyond
    obtain ⟨why, hrun⟩ := animalAt_beyond out hz hi index (Nat.not_lt.mp hbeyond)
    rw [hrun] at hok
    cases hok
  · obtain ⟨animal, u, hrun, -⟩ := animalAt_within out hz hi hplain index h
    rw [hrun]
    rfl
  · by_cases h : index.toNat < (Zoo.defaults ++ added).length
    · obtain ⟨animal', u', hrun', hshown⟩ := animalAt_within out hz hi hplain index h
      rw [hrun] at hrun'
      cases hrun'
      exact hshown
    · obtain ⟨why, hrun'⟩ := animalAt_beyond out hz hi index (Nat.not_lt.mp h)
      rw [hrun] at hrun'
      cases hrun'
  · have hseen := identifyAll_mirrors out (φ := False) hz hi hplain (fun h => h.elim)
      sound hb limit s rfl
    change Either _ _ (Host.Zoo.identifyAll out i limit s).1 _ at hseen
    rw [hrun] at hseen
    exact hseen
  · obtain ⟨seen, _, hrun, -⟩ := ((identifyAll_mirrors out (φ := True) hz hi hplain
      (fun _ => hspare) sound hb limit).failing fun _ _ h => h trivial).run_ok rfl
    rw [hrun]
    rfl
  · obtain ⟨home, -, rfl⟩ := hi
    exact Host.Zoo.addAnimal_answers home hz.zoo species name

def stocking : List Step :=
  [.load .zoo "lib" {} .component, .createZoo "lib" "zoo", .addAnimal "zoo" .axolotl "",
   .addAnimal "zoo" .tiger "Tëd 🐅", .createZoo "lib" "other", .addAnimal "other" .snake "Sid",
   .iterate "zoo" "walk", .nextAnimal "walk" "giraffe"]

def stocked : Process World :=
  stocking.foldl (fun s st => (st.run (outside depth) s).2) { outer := {} }

theorem stocked_evaluates :
    addsAll (outside depth) ⟨5⟩ { outer := {} } stocking = [(.tiger, "Tëd 🐅")] ∧
    stocked.zoo.get? ⟨5⟩ = some (.zoo [⟨1⟩, ⟨2⟩, ⟨3⟩, ⟨4⟩, ⟨6⟩]) ∧
    decide (stocked.shared.issued < handleLimit) = true := by
  decide +kernel

theorem stocked_tally : Tally (outside depth) ⟨5⟩ [(.tiger, "Tëd 🐅")] stocked := by
  have safe : ∀ st ∈ stocking, st.Safe := by simp [stocking, Step.Safe]
  have r := (Tally.start : Tally (outside depth) ⟨5⟩ [] { outer := {} }).steps safe
  rw [List.nil_append, stocked_evaluates.1] at r
  exact r

/-- The first zoo has its tiger on the roll, and nothing of the other's. -/
theorem zoo_mirrors_stocked :
    Tally (outside depth) ⟨5⟩ [(.tiger, "Tëd 🐅")] stocked ∧ Servable "Tëd 🐅" ∧
      stocked.zoo.get? ⟨5⟩ = some (.zoo [⟨1⟩, ⟨2⟩, ⟨3⟩, ⟨4⟩, ⟨6⟩]) ∧
      Mirrors (outside depth) ⟨5⟩ [⟨1⟩, ⟨2⟩, ⟨3⟩, ⟨4⟩, ⟨6⟩]
        (Zoo.defaults ++ [(.tiger, "Tëd 🐅")]) stocked := by
  obtain ⟨-, hzoo, hb⟩ := stocked_evaluates
  have hname : Servable "Tëd 🐅" := by
    unfold Servable
    decide +kernel
  refine ⟨stocked_tally, hname, hzoo, ?_⟩
  exact zoo_mirrors_roll (outside_harmless depth) stocked_tally
    (fun a ha => List.mem_singleton.mp ha ▸ hname) (of_decide_eq_true hb) hzoo (by decide)

end Session

end Boundary
