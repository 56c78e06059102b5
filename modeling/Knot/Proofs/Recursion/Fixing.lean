import Knot.Proofs.Recursion.Combinators

/-!
The ways to make a fixed point. A generator gets a thunk and direct-style code a delay, whichever language the
fixed point is made in; making one calls the generator or the code with the first of them and gives what comes
back.
-/

namespace Knot

open Run Store Term Prelude

/-- A store whose outermost environment binds the combinators that sessions start with. -/
structure Store.Equipped (s : Store) : Prop where
  new : s.Fresh
  thunked : s.Provides "Υ" 1 thunkedBody
  direct : s.Provides "Υ1" 5 directBody

theorem Store.Equipped.later {s t : Store} (equipped : s.Equipped) (beneath : s.Beneath t) : t.Equipped :=
  ⟨beneath.new equipped.new, equipped.thunked.later equipped.new beneath,
    equipped.direct.later equipped.new beneath⟩

/-- A session starts so. -/
theorem Store.equipped_start : Session.start.Equipped where
  new := ⟨by decide, by decide, fun _ _ => rfl, fun _ _ => rfl, fun _ _ => rfl, fun _ _ => rfl, fun _ _ _ => rfl⟩
  thunked := ⟨rfl, rfl, by decide, by decide, rfl, rfl⟩
  direct := ⟨rfl, rfl, by decide, by decide, rfl, rfl⟩

/-- How a fixed point of a generator is made: by the host language or by the calculus. -/
inductive Fixing where
  | native | calculus

namespace Fixing

/-- Makes the fixed point of a generator. -/
def build (k : Machine) (g : Value) : Fixing → Run Value
  | native => k.call (.builtin .fixedPoint) [g] []
  | calculus => do k.call (← getAttribute outermost "Υ") [g] []

/-- The calculus takes generators that stand for themselves. -/
def Fits (r : Fixing) (g : Value) : Prop := r = calculus → g.Inert

/-- The calculus looks its combinator up. -/
def Meets (r : Fixing) (s : Store) : Prop := r = calculus → s.Equipped

/-- What the generator is given. -/
def thunking (g : Value) : (r : Fixing) → r.Fits g → Thunking g
  | native, _ => thunks g
  | calculus, fits => Calculus.thunks g (fits rfl)

/-- The levels of calls above the first one of the generator. -/
def cost : Fixing → Nat
  | native => 1
  | calculus => 6

/-- Making a fixed point gives the generator its first thunk. -/
theorem build_attains (r : Fixing) {m : Manner} {levels n : Nat} {s : Store} {g : Value}
    {P : Value → Store → Prop} (fits : r.Fits g) (meets : r.Meets s) (steady : Steady P)
    (room : m.Room (levels + 1 + r.cost) n s)
    (start : ∀ n' t p, n' < n → s.Beneath t → (r.thunking g fits).param t p → m.Room (levels + 1) n' t →
      Attains m ((Machine.ofFuel n').call g [p] []) t fun r u => r.isCallable = true ∧ P r u) :
    Attains m (r.build (.ofFuel n) g) s P := by
  cases r with
  | native => exact fixedPoint_attains steady room start
  | calculus =>
      have inert := fits rfl
      have equipped := meets rfl
      have read : getAttribute outermost "Υ" s = .ok (Session.combinator 1 thunkedBody) s :=
        equipped.thunked.read Calculus.ordinary_fixedPoint
      refine .of_eq (bind_of_ok read) (.refl s) ?_
      refine Calculus.Delay.combinator_attains (δ := .thunked) equipped.thunked inert equipped.new steady room ?_
      intro n' t p less beneath is room'
      exact (start n' t p less beneath is room').mono fun _ _ _ held => held.2

end Fixing

/-- How a fixed point of direct-style code is made: by self-application, by way of a generator, or by the
calculus. -/
inductive DirectFixing where
  | selfApplied | adapted | calculus

namespace DirectFixing

/-- Makes the fixed point of direct-style code. -/
def build (k : Machine) (d : Value) : DirectFixing → Run Value
  | selfApplied => k.call (.builtin .selfFixedPoint) [d] []
  | adapted => do k.call (.builtin .fixedPoint) [← k.call (.builtin .asGenerator) [d] []] []
  | calculus => do k.call (← getAttribute outermost "Υ1") [d] []

/-- The calculus takes code that stands for itself. -/
def Fits (r : DirectFixing) (d : Value) : Prop := r = calculus → d.Inert

/-- The calculus looks its combinator up. -/
def Meets (r : DirectFixing) (s : Store) : Prop := r = calculus → s.Equipped

/-- What the code is given. -/
def delaying (d : Value) : (r : DirectFixing) → r.Fits d → Delaying d
  | selfApplied, _ => selfDelays d
  | adapted, _ => adaptedDelays d
  | calculus, fits => Calculus.delays d (fits rfl)

/-- The levels of calls above the first one of the code. -/
def cost : DirectFixing → Nat
  | selfApplied => 3
  | adapted => 2
  | calculus => 6

/-- Making a fixed point gives the code its first delay. -/
theorem build_attains (r : DirectFixing) {m : Manner} {levels n : Nat} {s : Store} {d : Value}
    {P : Value → Store → Prop} (fits : r.Fits d) (meets : r.Meets s) (steady : Steady P)
    (room : m.Room (levels + 1 + r.cost) n s)
    (start : ∀ n' t p, n' < n → s.Beneath t → (r.delaying d fits).param t p → m.Room (levels + 1) n' t →
      Attains m ((Machine.ofFuel n').call d [p] []) t fun r u => r.isCallable = true ∧ P r u) :
    Attains m (r.build (.ofFuel n) d) s P := by
  cases r with
  | selfApplied =>
      refine selfFixedPoint_attains steady room fun n' t p less beneath param room' => ?_
      exact (start n' t p less beneath param room').mono fun _ _ _ held => held.2
  | adapted =>
      have made := adapter_attains (m := .silent m.stops) (d := d) (s := s) (n := n)
        (room.less (by simp only [cost]; omega))
      refine made.next ?_
      rintro _ t quiet ⟨mark, name, rfl⟩
      refine fixedPoint_attains steady (room.later quiet.stack) ?_
      rintro n' u _ less beneath ⟨thunk, rfl⟩ room'
      refine adapted_attains (fun f v depth held => ⟨held.1, steady _ _ _ held.2⟩) room' ?_
      intro n'' v p less' beneath' is room''
      exact start n'' v p (by omega) (quiet.beneath.trans (beneath.trans beneath')) is room''
  | calculus =>
      have inert := fits rfl
      have equipped := meets rfl
      have read : getAttribute outermost "Υ1" s = .ok (Session.combinator 5 directBody) s :=
        equipped.direct.read Calculus.ordinary_directFixedPoint
      refine .of_eq (bind_of_ok read) (.refl s) ?_
      refine Calculus.Delay.combinator_attains (δ := .direct) equipped.direct inert equipped.new steady room ?_
      intro n' t p less beneath is room'
      exact (start n' t p less beneath is room').mono fun _ _ _ held => held.2

end DirectFixing

end Knot
