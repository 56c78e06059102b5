import Knot.Store

/-!
What was told of generators and thunks, read for one tally. A generator that counts is derived for a
fixed point that is built, for a thunk that is asked, or because a program calls it itself; a thunk that
counts hands a plain call on to a thunk of such a generator, or not.
-/

namespace Knot

namespace Value

/-- Whether a value is the tally of a mark. -/
def isTally (mark : Nat) : Value → Bool
  | tally m _ _ => m == mark
  | _ => false

/-- Whether a value is a generator that counts on the tally of a mark. -/
def countsOn (mark : Nat) : Value → Bool
  | counted _ _ _ t => t.isTally mark
  | _ => false

end Value

namespace Deed

variable (mark : Nat)

/-- A fixed point of a generator that counts on the tally is built. -/
def builds : Deed → Bool
  | built generator => generator.countsOn mark
  | _ => false

/-- A thunk of a generator that counts on the tally is asked. -/
def asks : Deed → Bool
  | asked generator => generator.countsOn mark
  | _ => false

/-- A generator that counts on the tally derives its function. -/
def derives : Deed → Bool
  | derived t => t.isTally mark
  | _ => false

/-- A thunk that counts on the tally passes a call on, with arguments. -/
def rejects : Deed → Bool
  | passed t _ plain => t.isTally mark && !plain
  | _ => false

/-- A thunk that counts on the tally passes a plain call on to a thunk of such a generator. -/
def hands : Deed → Bool
  | passed t (.thunk _ generator) plain => t.isTally mark && plain && generator.countsOn mark
  | _ => false

/-- A thunk that counts on the tally passes a plain call on to anything else. -/
def strays (d : Deed) : Bool :=
  match d with
  | passed t _ plain => t.isTally mark && plain && !d.hands mark
  | _ => false

/-- A deed that says nothing of the tally. -/
structure Quiet (d : Deed) : Prop where
  builds : d.builds mark = false
  asks : d.asks mark = false
  derives : d.derives mark = false
  hands : d.hands mark = false
  rejects : d.rejects mark = false
  strays : d.strays mark = false

variable {mark : Nat} {d : Deed}

theorem exists_of_builds (builds : d.builds mark = true) :
    ∃ g, d = built g ∧ g.countsOn mark = true := by
  cases d with
  | built g => exact ⟨g, rfl, builds⟩
  | _ => cases builds

theorem exists_of_asks (asks : d.asks mark = true) : ∃ g, d = asked g ∧ g.countsOn mark = true := by
  cases d with
  | asked g => exact ⟨g, rfl, asks⟩
  | _ => cases asks

theorem exists_of_derives (derives : d.derives mark = true) :
    ∃ t, d = derived t ∧ t.isTally mark = true := by
  cases d with
  | derived t => exact ⟨t, rfl, derives⟩
  | _ => cases derives

theorem exists_of_hands (hands : d.hands mark = true) :
    ∃ t m g, d = passed t (.thunk m g) true ∧ t.isTally mark = true ∧ g.countsOn mark = true := by
  cases d with
  | passed t inner plain =>
      cases inner with
      | thunk m g =>
          simp only [Deed.hands, Bool.and_eq_true] at hands
          obtain ⟨⟨tally, rfl⟩, counts⟩ := hands
          exact ⟨t, m, g, rfl, tally, counts⟩
      | _ => cases hands
  | _ => cases hands

end Deed

/-- What deeds say of a tally. -/
structure Ledger where
  /-- Fixed points that were built. -/
  built : Nat
  /-- Plain calls of thunks, not by way of a thunk that counts. -/
  asked : Nat
  /-- Calls of counting generators themselves. -/
  called : Nat
  /-- Plain calls that thunks that count passed on to thunks of counting generators. -/
  handed : Nat
  /-- Calls with arguments of thunks that count. -/
  rejected : Nat
  /-- Plain calls that thunks that count passed on to anything else. -/
  strayed : Nat
  /-- Derivations of counting generators, whatever they were for. -/
  derived : Nat

namespace Ledger

/-- How many deeds are such that one holds of them and of what was told just before them. -/
def count (p : Deed → Option Deed → Bool) : List Deed → Nat
  | [] => 0
  | d :: before => (if p d before.head? then 1 else 0) + count p before

/-- The ledger of a tally by what was told, the newest first. -/
def of (mark : Nat) (deeds : List Deed) : Ledger where
  built := count (fun d _ => d.builds mark) deeds
  asked := count (fun d before => d.asks mark && !before.any (·.hands mark)) deeds
  called := count (fun d before => d.derives mark &&
    !before.any fun b => b.builds mark || b.asks mark) deeds
  handed := count (fun d _ => d.hands mark) deeds
  rejected := count (fun d _ => d.rejects mark) deeds
  strayed := count (fun d _ => d.strays mark) deeds
  derived := count (fun d _ => d.derives mark) deeds

/-- How often thunks that count were called. -/
def passed (l : Ledger) : Nat := l.handed + l.rejected + l.strayed

/-- What is told of whole runs, the newest first. -/
inductive Rounds (mark : Nat) : List Deed → Prop
  | nil : Rounds mark []
  | other {d : Deed} {before : List Deed} : d.builds mark = false → d.asks mark = false →
      d.hands mark = false → Rounds mark before → Rounds mark (d :: before)
  | built {d d' : Deed} {before : List Deed} : d.builds mark = true → d'.derives mark = true →
      Rounds mark before → Rounds mark (d' :: d :: before)
  | asked {d d' : Deed} {before : List Deed} : d.asks mark = true → d'.derives mark = true →
      Rounds mark before → Rounds mark (d' :: d :: before)
  | handed {d d' d'' : Deed} {before : List Deed} : d.hands mark = true → d'.asks mark = true →
      d''.derives mark = true → Rounds mark before → Rounds mark (d'' :: d' :: d :: before)

variable {mark : Nat}

namespace Rounds

theorem append {new old : List Deed} (second : Rounds mark new) (first : Rounds mark old) :
    Rounds mark (new ++ old) := by
  induction second with
  | nil => exact first
  | other builds asks hands _ ih => exact .other builds asks hands ih
  | built builds derives _ ih => exact .built builds derives ih
  | asked asks derives _ ih => exact .asked asks derives ih
  | handed hands asks derives _ ih => exact .handed hands asks derives ih

/-- A round has ended with the last thing that was told. -/
theorem ended {deeds : List Deed} (rounds : Rounds mark deeds) :
    (deeds.head?.any fun d => d.builds mark || d.asks mark) = false ∧
      deeds.head?.any (·.hands mark) = false := by
  have derived {d : Deed} (derives : d.derives mark = true) :
      d.builds mark = false ∧ d.asks mark = false ∧ d.hands mark = false := by
    obtain ⟨t, rfl, -⟩ := Deed.exists_of_derives derives
    exact ⟨rfl, rfl, rfl⟩
  cases rounds with
  | nil => exact ⟨rfl, rfl⟩
  | other builds asks hands => simp [builds, asks, hands]
  | built _ derives => simp [derived derives]
  | asked _ derives => simp [derived derives]
  | handed _ _ derives => simp [derived derives]

end Rounds

/-- One more deed in a ledger. -/
theorem of_cons (d : Deed) (deeds : List Deed) : of mark (d :: deeds) =
    { built := (d.builds mark).toNat + (of mark deeds).built
      asked := (d.asks mark && !deeds.head?.any (·.hands mark)).toNat + (of mark deeds).asked
      called := (d.derives mark && !deeds.head?.any fun b => b.builds mark || b.asks mark).toNat +
        (of mark deeds).called
      handed := (d.hands mark).toNat + (of mark deeds).handed
      rejected := (d.rejects mark).toNat + (of mark deeds).rejected
      strayed := (d.strays mark).toNat + (of mark deeds).strayed
      derived := (d.derives mark).toNat + (of mark deeds).derived } := by
  have one (b : Bool) : (if b = true then 1 else 0) = b.toNat := by cases b <;> rfl
  simp only [of, count, one]

/-- In whole rounds every derivation has its cause, and every call that was handed on its answer. -/
theorem balance {deeds : List Deed} (rounds : Rounds mark deeds) :
    (of mark deeds).derived =
      (of mark deeds).built + (of mark deeds).asked + (of mark deeds).called + (of mark deeds).handed := by
  induction rounds with
  | nil => rfl
  | @other d before builds asks hands rounds ih =>
      have ended := rounds.ended
      simp only [of_cons, builds, asks, hands, ended, ih]
      cases d.derives mark <;> simp
      omega
  | @built d d' before builds derives rounds ih =>
      obtain ⟨g, rfl, counts⟩ := Deed.exists_of_builds builds
      obtain ⟨t, rfl, tally⟩ := Deed.exists_of_derives derives
      simp [of_cons, ih, Deed.builds, Deed.asks, Deed.derives, Deed.hands, counts, tally]
      omega
  | @asked d d' before asks derives rounds ih =>
      obtain ⟨g, rfl, counts⟩ := Deed.exists_of_asks asks
      obtain ⟨t, rfl, tally⟩ := Deed.exists_of_derives derives
      simp only [of_cons, ih, List.head?_cons, rounds.ended.2]
      simp [Deed.builds, Deed.asks, Deed.derives, Deed.hands, counts, tally]
      omega
  | @handed d d' d'' before hands asks derives rounds ih =>
      obtain ⟨t, m, g, rfl, tally, counts⟩ := Deed.exists_of_hands hands
      obtain ⟨g', rfl, counts'⟩ := Deed.exists_of_asks asks
      obtain ⟨t', rfl, tally'⟩ := Deed.exists_of_derives derives
      simp [of_cons, ih, Deed.builds, Deed.asks, Deed.derives, Deed.hands, counts, tally, counts',
        tally']
      omega

theorem count_append {p : Deed → Option Deed → Bool} (alone : ∀ d b b', p d b = p d b')
    (new old : List Deed) : count p (new ++ old) = count p new + count p old := by
  induction new with
  | nil => simp [count]
  | cons d new ih =>
      simp only [List.cons_append, count, ih, alone d _ new.head?]
      omega

theorem derived_append (new old : List Deed) :
    (of mark (new ++ old)).derived = (of mark new).derived + (of mark old).derived :=
  count_append (fun _ _ _ => rfl) new old

theorem passed_append (new old : List Deed) :
    (of mark (new ++ old)).passed = (of mark new).passed + (of mark old).passed := by
  have handed := count_append (p := fun d _ => d.hands mark) (fun _ _ _ => rfl) new old
  have rejected := count_append (p := fun d _ => d.rejects mark) (fun _ _ _ => rfl) new old
  have strayed := count_append (p := fun d _ => d.strays mark) (fun _ _ _ => rfl) new old
  simp only [passed, of, handed, rejected, strayed]
  omega

theorem derived_of_derives {d : Deed} (derives : d.derives mark = true) :
    (of mark [d]).derived = 1 ∧ (of mark [d]).passed = 0 := by
  obtain ⟨t, rfl, tally⟩ := Deed.exists_of_derives derives
  simp [passed, of, count, Deed.derives, Deed.hands, Deed.rejects, Deed.strays, tally]

/-- A call that is passed on is handed on, is rejected or goes astray. -/
theorem passed_of_passes {t : Value} (tally : t.isTally mark = true) (inner : Value) (plain : Bool) :
    (of mark [.passed t inner plain]).derived = 0 ∧ (of mark [.passed t inner plain]).passed = 1 := by
  refine ⟨rfl, ?_⟩
  simp only [passed, of, count, Deed.rejects, Deed.strays, tally, Bool.true_and]
  cases plain with
  | false =>
      have stays : Deed.hands mark (.passed t inner false) = false := by
        cases inner <;> simp [Deed.hands]
      simp [stays]
  | true =>
      by_cases handed : Deed.hands mark (.passed t inner true) = true <;> simp [handed]

end Ledger

end Knot
