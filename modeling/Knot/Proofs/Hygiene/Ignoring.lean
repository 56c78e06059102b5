import Knot.Proofs.Hygiene.Delays

/-!
Code that ignores names. The code of a function ignores what the outermost environment binds some names to if
it comes to the same whatever they are bound to, as long as all that it calls does. A run ignores the names if
the code of each function that it gets to does, where the code of the combinators' own procedures is passed
over: of it only the calls of the generator, and of the function that it gives, are of concern.
-/

namespace Knot

open Run Store Term Prelude Calculus

/-- What a machine is asked to do. -/
inductive Request where
  | call (f : Value) (args : List Value) (named : Named)
  | evaluate (expr env : Value)

namespace Request

/-- What the code does that is asked for. All that it calls goes by the machine. -/
def code (k : Machine) : Request → Run Value
  | call f args named => Machine.callValue k f args named
  | evaluate expr env => Calculus.eval k expr env

/-- What the machine does when it is asked. -/
def run (k : Machine) : Request → Run Value
  | call f args named => k.call f args named
  | evaluate expr env => k.evaluate expr env

theorem run_zero (c : Request) : c.run (.ofFuel 0) = outOfFuel := by
  cases c <;> rfl

theorem run_succ (n : Nat) (c : Request) : c.run (.ofFuel (n + 1)) = deeper (c.code (.ofFuel n)) := by
  cases c <;> rfl

end Request

/-- Two runs that come to the same, in states that differ in what the outermost environment binds some names to. -/
abbrev InStep (N : String → Prop) : EStateM.Result Stop Store Value → EStateM.Result Stop Store Value → Prop :=
  Tandem N fun _ _ => True

/-- The code that is asked for neither looks the names up in the outermost environment, nor writes them there, nor
shows them: whatever they are bound to, it comes to the same from a state, as long as what it asks for itself does. -/
def Request.Blind (N : String → Prop) (asks : Request → Store → Prop) (k : Machine) (c : Request) (s : Store) : Prop :=
  ∀ t, Differ N s t → (∀ c' u u', asks c' u → Differ N u u' → InStep N (c'.run k u) (c'.run k u')) →
    InStep N (c.code k s) (c.code k t)

/-- The body of the delay of the calculus for direct-style code. -/
def Calculus.Delay.directClosure (mark : Nat) (scope : Scope) : Value :=
  .closure mark (bodyHeader 2 direct.env) direct.body scope

/-- Runs in which all code but that of the combinators ignores what the outermost environment binds some names to. -/
inductive Ignores (N : String → Prop) (g : Value) : Nat → Request → Store → Prop
  | spent (c : Request) (s : Store) : Ignores N g 0 c s
  /-- Code that is blind to the names, as is all that it asks for. -/
  | own {n : Nat} {c : Request} {s : Store} (asks : Request → Store → Prop) :
      c.Blind N asks (.ofFuel n) s.called → (∀ c' u, asks c' u → Ignores N g n c' u) → Ignores N g (n + 1) c s
  /-- The delay of a generator calls it with another delay. -/
  | asked {n : Nat} {p : Value} {s : Store} : Delay.thunked.IsHidden g s p →
      (∀ m u q, m < n → s.Beneath u → Delay.thunked.IsHidden g u q → Ignores N g m (.call g [q] []) u) →
      Ignores N g n (.call p [] []) s
  /-- The delay of direct-style code evaluates its argument, binds it in an environment of its own, and runs its
  body there. Nothing else writes to that environment. -/
  | passed {n mark : Nat} {p x closed : Value} {scope : Scope} {s : Store} :
      s.Made ["m"] (Delay.directClosure mark scope) closed p → s.Fresh →
      (∀ u, s.Beneath u → Ignores N g n (.evaluate x closed) u.opened) →
      (∀ u v w, s.Beneath u → (Machine.ofFuel n).evaluate x closed u.opened = .ok v w →
        w.Made ["m"] (Delay.directClosure mark scope) closed p ∧ w.Unshared u.frames.size) →
      (∀ u v w y, s.Beneath u → (Machine.ofFuel n).evaluate x closed u.opened = .ok v w →
        writing .call (Run.bind u.frames.size "m" v) w = .ok () y →
          Ignores N g n (.call (Delay.directClosure mark scope) [.environment u.frames.size closed] []) y) →
      Ignores N g (n + 1) (.call p [x] []) s
  /-- The body calls the code with another delay, and what the code gives with the argument. Nothing else writes to
  the environment of the argument. -/
  | applied {n mark : Nat} {v env : Value} {scope : Scope} {s : Store} :
      Delay.direct.Keeps g s v env → marked v = pure v → s.Fresh →
      (∀ m u q, m < n → s.Beneath u → Delay.direct.IsHidden g u q → Ignores N g m (.call g [q] []) u) →
      (∀ m u q h w, m < n → s.Beneath u → Delay.direct.IsHidden g u q → (Machine.ofFuel m).call g [q] [] u = .ok h w →
        ∃ outer, w.Binds "m" v outer env) →
      (∀ m u q h w depth, m < n → s.Beneath u → Delay.direct.IsHidden g u q →
        (Machine.ofFuel m).call g [q] [] u = .ok h w → Ignores N g n (.call h [v] []) (atDepth depth w)) →
      Ignores N g (n + 1) (.call (Delay.directClosure mark scope) [env] []) s

/-! What is ignored makes no difference. -/

section

variable {N : String → Prop} {g : Value} {n mark : Nat} {s t : Store} {v env : Value} {scope : Scope}

/-- Whatever the depth of the stack is. -/
theorem steady_true {α : Type} : Steady fun (_ : α) _ => True := fun _ _ _ _ => trivial

/-- The body of a delay for direct-style code calls the code, and what that gives, in both states. -/
theorem Calculus.Delay.applied_tandem (inert : g.Inert) (keeps : direct.Keeps g s v env) (still : marked v = pure v)
    (new : s.Fresh) (differ : Differ N s t)
    (start : ∀ m u u' q, m < n → s.Beneath u → direct.IsHidden g u q → Differ N u u' →
      InStep N ((Machine.ofFuel m).call g [q] [] u) ((Machine.ofFuel m).call g [q] [] u'))
    (kept : ∀ m u q h w, m < n → s.Beneath u → direct.IsHidden g u q → (Machine.ofFuel m).call g [q] [] u = .ok h w →
      ∃ outer, w.Binds "m" v outer env)
    (goes : ∀ m u q h w depth t, m < n → s.Beneath u → direct.IsHidden g u q →
      (Machine.ofFuel m).call g [q] [] u = .ok h w → Differ N (atDepth depth w) t →
        InStep N ((Machine.ofFuel n).call h [v] [] (atDepth depth w)) ((Machine.ofFuel n).call h [v] [] t)) :
    InStep N (direct.body.eval (.ofFuel n) (("π", env) :: scope) s)
      (direct.body.eval (.ofFuel n) (("π", env) :: scope) t) := by
  obtain ⟨closed, root, outer, binds, inside, around, inside', is⟩ := keeps
  -- what the code gives, and where
  let Given (h : Value) (w : Store) : Prop := ∃ m u q x depth, m < n ∧ s.Beneath u ∧ direct.IsHidden g u q ∧
    (Machine.ofFuel m).call g [q] [] u = .ok h x ∧ w = atDepth depth x
  have steady : Steady Given := by
    rintro h w depth ⟨m, u, q, x, _, less, beneath, hidden, run, rfl⟩
    exact ⟨m, u, q, x, depth, less, beneath, hidden, run, rfl⟩
  have read (u : Store) (differ : Differ N s u) : getAttribute env "sf" u = .ok root u := by
    have around' := (differ.binds inside' around).lookup ordinary_sf.plain
    exact (differ.binds inside binds).attribute_outer ordinary_sf (by decide) is.inert around'
  refine app_tandem (F := Given) (A := fun h a w => a = v ∧ Given h w) ?_ ?_ ?_
  · refine twice_tandem rfl read inert is new differ steady fun m u u' q less beneath differ' hidden => ?_
    refine (start m u u' q less beneath hidden differ').ran.mono ?_
    rintro h x ⟨-, run⟩
    exact ⟨m, u, q, x, x.stack.depth, less, beneath, hidden, run, rfl⟩
  · rintro h w w' differ' ⟨m, u, q, x, depth, less, beneath, hidden, run, rfl⟩
    obtain ⟨outer', binds'⟩ := kept m u q h x less beneath hidden run
    have bound : (atDepth depth x).Binds "m" v outer' env := (Beneath.atDepth x depth).binds binds'
    have reads {y : Store} (bound : y.Binds "m" v outer' env) : getAttribute env "m" y = .ok v y := by
      rw [bound.attribute_eq ordinary_m, still]
      rfl
    exact attr_tandem rfl differ' (reads bound) (reads (differ'.binds inside bound))
      ⟨rfl, m, u, q, x, depth, less, beneath, hidden, run, rfl⟩
  · rintro h _ w w' differ' ⟨rfl, m, u, q, x, depth, less, beneath, hidden, run, rfl⟩
    exact goes m u q h x depth w' less beneath hidden run differ'

/-- A run that ignores names comes to the same, whatever the outermost environment binds them to. -/
theorem Ignores.inStep (inert : g.Inert) {c : Request} (ignores : Ignores N g n c s) :
    ∀ t, Differ N s t → InStep N (c.run (.ofFuel n) s) (c.run (.ofFuel n) t) := by
  induction ignores with
  | spent c s =>
      intro t differ
      rw [c.run_zero]
      exact .error differ (.same _)
  | own asks blind _ ih =>
      intro t differ
      rw [Request.run_succ]
      exact .called differ steady_true
        (blind t.called differ.called fun c' u u' asked differ' => ih c' u asked u' differ')
  | asked hidden _ ih =>
      intro t differ
      refine Delay.asked_tandem inert hidden differ steady_true fun m u u' q less beneath differ' is => ?_
      exact ih m u q less beneath is u' differ'
  | @passed n mark p x closed scope s made new _ stays _ evaluates runs =>
      intro t differ
      rw [Request.run_succ]
      refine .called differ steady_true ?_
      have called := s.beneath_called
      refine procedure_apply_tandem (A := fun u v w => (Machine.ofFuel n).evaluate x closed u.opened = .ok v w)
        differ.called (called.made made) rfl ordinary_m.plain (called.new new) ?_ ?_ ?_
      · intro u u' beneath differ'
        exact (evaluates u (called.trans beneath) _ differ'.opened).ran.mono fun v w held => held.2
      · exact fun u v w beneath run => stays u v w (called.trans beneath) run
      · exact fun u v w y y' beneath run bound differ' => runs u v w y (called.trans beneath) run bound y' differ'
  | @applied n mark v env scope s keeps still new _ kept _ start goes =>
      intro t differ
      rw [Request.run_succ]
      refine .called differ steady_true ?_
      have called := s.beneath_called
      have body (k : Machine) : (Request.call (Delay.directClosure mark scope) [env] []).code k =
          Delay.direct.body.eval k (("π", env) :: scope) := rfl
      rw [body]
      have spares := Delay.Spares.of_beneath (δ := .direct) (g := g) called
      refine Delay.applied_tandem inert (spares.arguments v env keeps) still (called.new new) differ.called ?_ ?_ ?_
      · exact fun m u u' q less beneath is differ' => start m u q less (called.trans beneath) is u' differ'
      · exact fun m u q h w less beneath is run => kept m u q h w less (called.trans beneath) is run
      · exact fun m u q h w depth t less beneath is run differ' =>
          goes m u q h w depth less (called.trans beneath) is run t differ'

end

end Knot
