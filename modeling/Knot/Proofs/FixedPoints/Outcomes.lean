import Knot.Proofs.Parallel.Levels

/-!
Runs that come to the same as far as anyone can tell from outside. What is made in a run has no identity to compare,
so a value is told by its outline. Runs that end alike side by side come to the same, and to come to the same is an
equivalence, so it passes from one way to make a fixed point to another.
-/

namespace Knot

open Run Renaming

namespace Value

mutual

/-- What can be told of a value from outside: data as they are, without identities, and of everything else its kind. -/
def outline : Value → Value
  | none => none
  | bool b => bool b
  | int i => int i
  | float _ x => float 0 x
  | str s => str s
  | list _ items => list 0 (outlineAll items)
  | tuple _ items => tuple 0 (outlineAll items)
  | dict _ entries => dict 0 (outlineEntries entries)
  | range _ start stop step => range 0 start stop step
  | array _ dtype shape data => array 0 dtype shape (outlineAll data)
  | v => inert v.typeName

def outlineAll : List Value → List Value
  | [] => []
  | v :: rest => v.outline :: outlineAll rest

def outlineEntries : List (Value × Value) → List (Value × Value)
  | [] => []
  | (key, v) :: rest => (key.outline, v.outline) :: outlineEntries rest

end

variable (r : Renaming)

mutual

@[simp]
theorem outline_rename (v : Value) : (v.rename r).outline = v.outline := by
  have kind := typeName_rename r v
  cases v with
  | list _ items | tuple _ items | array _ _ _ items =>
      simp only [rename, outline, outlineAll_rename items]
  | dict _ entries => simp only [rename, outline, outlineEntries_rename entries]
  | none | bool | int | float | str | range => simp only [rename, outline]
  | _ => simp_all only [rename, outline]

theorem outlineAll_rename (vs : List Value) : outlineAll (renameAll r vs) = outlineAll vs := by
  cases vs with
  | nil => rfl
  | cons v rest => simp only [renameAll, outlineAll, outline_rename v, outlineAll_rename rest]

theorem outlineEntries_rename (entries : List (Value × Value)) :
    outlineEntries (renameEntries r entries) = outlineEntries entries := by
  cases entries with
  | nil => rfl
  | cons e rest =>
      simp only [renameEntries, outlineEntries, outline_rename e.1, outline_rename e.2, outlineEntries_rename rest]

end

end Value

/-! What a run comes to. -/

/-- The store that a run leaves. -/
def remains {α : Type} : EStateM.Result Stop Store α → Store
  | .ok _ s | .error _ s => s

/-- What a run answers: the outline of what its value holds then, or the kind of its fault; nothing where it does not
end. -/
def answer : EStateM.Result Stop Store Value → Option (Except String Value)
  | .ok v s => some (.ok (s.now v).outline)
  | .error (.fault f) _ => some (.error f.kind)
  | .error .outOfFuel _ => none

/-- What a tally with a mark has counted. -/
def Store.counted (s : Store) (mark : Nat) : Option (Value × Value) :=
  (s.tallies.lookup mark).map (Prod.map Value.outline Value.outline)

/-- Ends of two runs that cannot be told apart: the same answers, the same text printed, and the same counts on
tallies with marks that were given out before. -/
structure Indistinct (known : Nat) (x y : EStateM.Result Stop Store Value) : Prop where
  answers : answer x = answer y
  printed : (remains x).out = (remains y).out
  counts : ∀ m < known, (remains x).counted m = (remains y).counted m

/-- Computations that come to the same, each with whatever fuel it takes: where either of them ends, the other one
does too, and their ends cannot be told apart. -/
structure SameRun (known : Nat) (x y : Nat → EStateM.Result Stop Store Value) : Prop where
  forth : ∀ n, Ended (x n) → ∃ m, Indistinct known (x n) (y m)
  back : ∀ m, Ended (y m) → ∃ n, Indistinct known (x n) (y m)

theorem answer_eq_none {x : EStateM.Result Stop Store Value} : answer x = none ↔ ¬Ended x := by
  cases x with
  | ok v s => simp [answer, Ended]
  | error e s => cases e <;> simp [answer, Ended]

namespace Indistinct

variable {known : Nat} {x y z : EStateM.Result Stop Store Value}

theorem refl (known : Nat) (x : EStateM.Result Stop Store Value) : Indistinct known x x := ⟨rfl, rfl, fun _ _ => rfl⟩

theorem mono {fewer : Nat} (same : Indistinct known x y) (le : fewer ≤ known) : Indistinct fewer x y :=
  ⟨same.answers, same.printed, fun m below => same.counts m (below.trans_le le)⟩

theorem symm (same : Indistinct known x y) : Indistinct known y x :=
  ⟨same.answers.symm, same.printed.symm, fun m below => (same.counts m below).symm⟩

theorem trans (first : Indistinct known x y) (second : Indistinct known y z) : Indistinct known x z :=
  ⟨first.answers.trans second.answers, first.printed.trans second.printed,
    fun m below => (first.counts m below).trans (second.counts m below)⟩

theorem ended (same : Indistinct known x y) (ended : Ended x) : Ended y := by
  by_contra endless
  exact answer_eq_none.mp (same.answers.trans (answer_eq_none.mpr endless)) ended

end Indistinct

namespace SameRun

variable {known : Nat} {x y z : Nat → EStateM.Result Stop Store Value}

theorem refl (known : Nat) (x : Nat → EStateM.Result Stop Store Value) : SameRun known x x :=
  ⟨fun n _ => ⟨n, .refl ..⟩, fun n _ => ⟨n, .refl ..⟩⟩

theorem mono {fewer : Nat} (same : SameRun known x y) (le : fewer ≤ known) : SameRun fewer x y where
  forth n ended := (same.forth n ended).imp fun _ ends => ends.mono le
  back m ended := (same.back m ended).imp fun _ ends => ends.mono le

theorem symm (same : SameRun known x y) : SameRun known y x where
  forth n ended := (same.back n ended).imp fun _ ends => ends.symm
  back m ended := (same.forth m ended).imp fun _ ends => ends.symm

theorem trans (first : SameRun known x y) (second : SameRun known y z) : SameRun known x z where
  forth n ended := by
    obtain ⟨m, ends⟩ := first.forth n ended
    obtain ⟨l, ends'⟩ := second.forth m (ends.ended ended)
    exact ⟨l, ends.trans ends'⟩
  back l ended := by
    obtain ⟨m, ends'⟩ := second.back l ended
    obtain ⟨n, ends⟩ := first.back m (ends'.symm.ended ended)
    exact ⟨n, ends.trans ends'⟩

/-- Where one of them never ends, the other one does not either. -/
theorem endless (same : SameRun known x y) : (∀ n, ¬Ended (x n)) ↔ ∀ m, ¬Ended (y m) := by
  constructor
  · intro never m ended
    obtain ⟨n, ends⟩ := same.back m ended
    exact never n (ends.symm.ended ended)
  · intro never n ended
    obtain ⟨m, ends⟩ := same.forth n ended
    exact never m (ends.ended ended)

/-- They do not where one of them answers what the other one never does. -/
theorem absurd_of_answers (same : SameRun known x y) {n : Nat} {first second : Except String Value}
    (answers : answer (x n) = some first) (others : ∀ m, answer (y m) = none ∨ answer (y m) = some second)
    (differ : first ≠ second) : False := by
  have ended : Ended (x n) := by
    by_contra endless
    exact absurd (answers.symm.trans (answer_eq_none.mpr endless)) (Option.some_ne_none first)
  obtain ⟨m, ends⟩ := same.forth n ended
  have matched := answers.symm.trans ends.answers
  rcases others m with endless | other
  · exact absurd (matched.trans endless) (Option.some_ne_none first)
  · exact differ (Option.some.inj (matched.trans other))

end SameRun

/-! Runs that end with a number. -/

/-- Tallies with their marks, where all of them count. -/
def countsOf : Bindings Nat (Value × Value) → Option (List (Nat × Int × Int))
  | [] => some []
  | (mark, .int derived, .int passed) :: rest => (countsOf rest).map ((mark, derived, passed) :: ·)
  | _ => none

/-- The number that a run ends with, what it has printed, and the tallies that are left. -/
def told : EStateM.Result Stop Store Value → Option (Int × String × List (Nat × Int × Int))
  | .ok (.int i) s => (countsOf s.tallies).map fun counts => (i, s.out, counts)
  | _ => none

/-- The tallies can be read off what they count. -/
theorem eq_of_countsOf {tallies : Bindings Nat (Value × Value)} {counts : List (Nat × Int × Int)}
    (counted : countsOf tallies = some counts) :
    tallies = counts.map fun count => (count.1, .int count.2.1, .int count.2.2) := by
  induction tallies using countsOf.induct generalizing counts with
  | case1 =>
      cases counted
      rfl
  | case2 mark derived passed rest ih =>
      rw [countsOf, Option.map_eq_some_iff] at counted
      obtain ⟨others, counted, rfl⟩ := counted
      rw [ih counted, List.map_cons]
  | case3 tallies nonempty other =>
      rw [countsOf] at counted
      · cases counted
      · exact nonempty
      · exact other

theorem indistinct_of_told {known : Nat} {x y : EStateM.Result Stop Store Value}
    {tells : Int × String × List (Nat × Int × Int)} (first : told x = some tells) (second : told y = some tells) :
    Ended x ∧ Indistinct known x y := by
  have shape {z : EStateM.Result Stop Store Value} (is : told z = some tells) : ∃ s, z = .ok (.int tells.1) s ∧
      s.out = tells.2.1 ∧ countsOf s.tallies = some tells.2.2 := by
    unfold told at is
    split at is
    · obtain ⟨counts, counted, rfl⟩ := Option.map_eq_some_iff.mp is
      exact ⟨_, rfl, rfl, counted⟩
    · cases is
  obtain ⟨s, rfl, out, counted⟩ := shape first
  obtain ⟨t, rfl, out', counted'⟩ := shape second
  refine ⟨nofun, rfl, out.trans out'.symm, fun m _ => ?_⟩
  simp only [remains, Store.counted, eq_of_countsOf counted, eq_of_countsOf counted']

/-! Runs side by side. -/

namespace Twins

variable {T : Twins} {w : Stage}

/-- Tallies that stand for themselves show the same. -/
theorem Sound.counted (sound : T.Sound w) {m : Nat} (kept : w.names.mark m = m) :
    w.left.counted m = w.right.counted m := by
  have same := sound.beside.image.lookup_tallies m
  rw [kept] at same
  rw [Store.counted, Store.counted, same]
  cases w.left.tallies.lookup m with
  | none => rfl
  | some counts => simp [Renaming.entry, Prod.ext_iff]

theorem Ends.indistinct {known : Nat} (keeps : ∀ m < known, m ∈ T.known) {way : Way}
    {x y : EStateM.Result Stop Store Value} (ends : T.Ends way w Peer x y)
    (ended : way = .forth ∧ Ended x ∨ way = .back ∧ Ended y) : Indistinct known x y := by
  cases ends with
  | ok leads sound peer =>
      refine ⟨?_, sound.beside.image.out.symm, fun m below => sound.counted (sound.keeps m (keeps m below)).2⟩
      rw [answer, answer, peer.eq, sound.beside.image.now, Value.outline_rename]
  | fault leads sound like =>
      refine ⟨?_, sound.beside.image.out.symm, fun m below => sound.counted (sound.keeps m (keeps m below)).2⟩
      rw [answer, answer, like.kind]
  | forth forth =>
      rcases ended with ⟨_, ended⟩ | ⟨back, _⟩
      · exact absurd rfl (ended _)
      · cases forth.symm.trans back
  | back back =>
      rcases ended with ⟨forth, _⟩ | ⟨_, ended⟩
      · cases back.symm.trans forth
      · exact absurd rfl (ended _)

/-- Computations come to the same that end alike, the one with fuel to spare for the other. -/
theorem sameRun_of_ends {known : Nat} (keeps : ∀ m < known, m ∈ T.known) {x y : Nat → EStateM.Result Stop Store Value}
    (forth : ∀ n, ∃ m, T.Ends .forth w Peer (x n) (y m)) (back : ∀ m, ∃ n, T.Ends .back w Peer (x n) (y m)) :
    SameRun known x y where
  forth n ended := (forth n).imp fun _ ends => ends.indistinct keeps (.inl ⟨rfl, ended⟩)
  back m ended := (back m).imp fun _ ends => ends.indistinct keeps (.inr ⟨rfl, ended⟩)

/-- So do computations that are parallel. -/
theorem Sound.sameRun (sound : T.Sound w) {known : Nat} (keeps : ∀ m < known, m ∈ T.known) {x y : Nat → Run Value}
    (forth : ∀ n, ∃ m, T.Parallel .forth w Peer (x n) (y m))
    (back : ∀ m, ∃ n, T.Parallel .back w Peer (x n) (y m)) :
    SameRun known (fun n => x n w.left) (fun m => y m w.right) :=
  sameRun_of_ends keeps (fun n => (forth n).imp fun _ parallel => parallel sound)
    fun m => (back m).imp fun _ parallel => parallel sound

end Twins

end Knot
