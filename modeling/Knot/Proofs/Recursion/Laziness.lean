import Knot.Proofs.Parallel.Levels
import Knot.Proofs.Recursion.Fixing

/-!
Laziness. Whatever makes a fixed point calls the generator or the code once, with a parameter that it does not
call itself: so a function comes back wherever the generator makes one without calling its parameter. A
generator that has to call its parameter first is called again before it returns, and so on: its fixed point is
never made, whatever the ceiling is.
-/

namespace Knot

open Run Store Term Prelude

/-! Calls of a parameter. -/

/-- What is called where a value is: the value itself, or the body of a procedure. -/
def Value.Runs (p f : Value) : Prop :=
  f = p ∨ ∃ mark dict entries env, p = .procedure mark (.dict dict entries) env ∧ (.str "body", f) ∈ entries

/-- Calls go by the rule of the language, except for those of one value. -/
def Machine.Rule.Spares (rule : Machine.Rule) (p : Value) : Prop :=
  ∀ k f args named, ¬p.Runs f → rule k f args named = Machine.callValue k f args named

theorem Machine.callValue_spares (p : Value) : Machine.Rule.Spares Machine.callValue p := fun _ _ _ _ _ => rfl

/-- A call with a parameter returns a function without calling the parameter: it does so whatever calls of the
parameter come to. -/
structure ReturnsLazily (g p : Value) (n : Nat) (s : Store) (f : Value) (t : Store) : Prop where
  callable : f.isCallable = true
  returns : ∀ rule, Machine.Rule.Spares rule p → (Machine.levels rule n).call g [p] [] s = .ok f t

theorem ReturnsLazily.plain {g p f : Value} {n : Nat} {s t : Store} (lazily : ReturnsLazily g p n s f t) :
    (Machine.ofFuel n).call g [p] [] s = .ok f t := by
  rw [← Machine.levels_callValue]
  exact lazily.returns _ (Machine.callValue_spares p)

/-- With so many levels to go, the generator makes a function of every parameter without calling it. -/
def Lazy (param : Store → Value → Prop) (levels : Nat) (g : Value) (s : Store) : Prop :=
  ∀ n u p, s.Beneath u → param u p → Roomy levels n u → ∃ f t, ReturnsLazily g p n u f t

/-- No call of the generator returns where no call of its parameter does. -/
def Strict (param : Store → Value → Prop) (g : Value) : Prop :=
  ∀ n s p, param s p → (∀ m < n, ∀ t f u, param t p → (Machine.ofFuel m).call p [] [] t ≠ .ok f u) →
    ∀ f t, (Machine.ofFuel n).call g [p] [] s ≠ .ok f t

namespace Manner

/-- Runs that nothing stops, whatever they do. -/
def ending : Manner := ⟨fun _ _ => True, fun _ => False, fun _ => trivial, fun _ _ => trivial, fun _ => trivial⟩

/-- Runs that anything may stop, whatever they do. -/
def any : Manner := ⟨fun _ _ => True, fun _ => True, fun _ => trivial, fun _ _ => trivial, fun _ => trivial⟩

theorem any_room (levels n : Nat) (s : Store) : any.Room levels n s := .inl fun _ _ => trivial

end Manner

/-- What a run came to that was nothing but one call of a generator, which did not call its parameter. -/
def CalledOnce (param : Store → Value → Prop) (g : Value) (s : Store) (f : Value) (t : Store) : Prop :=
  ∃ n u p t' depth, s.Beneath u ∧ param u p ∧ ReturnsLazily g p n u f t' ∧ t = atDepth depth t'

theorem CalledOnce.steady {param : Store → Value → Prop} {g : Value} {s : Store} : Steady (CalledOnce param g s) := by
  rintro f _ depth ⟨n, u, p, t, _, beneath, is, lazily, rfl⟩
  exact ⟨n, u, p, t, depth, beneath, is, lazily, rfl⟩

section

variable {param : Store → Value → Prop} {g : Value} {levels n : Nat} {s t : Store} {p : Value}

theorem Lazy.attains (lazy : Lazy param levels g s) (beneath : s.Beneath t) (is : param t p)
    (room : Manner.ending.Room levels n t) :
    Attains .ending ((Machine.ofFuel n).call g [p] []) t
      fun f u => f.isCallable = true ∧ CalledOnce param g s f u := by
  rcases room with never | roomy
  · exact (never _ .fuel).elim
  · obtain ⟨f, u, lazily⟩ := lazy n t p beneath is roomy
    exact .inl ⟨f, u, lazily.plain, trivial, lazily.callable, n, t, p, u, u.stack.depth, beneath, is, lazily, rfl⟩

/-- What a run does not end with, anything may have stopped. -/
theorem attains_any {x : Run Value} {P : Value → Store → Prop} (holds : ∀ f t, x s = .ok f t → P f t) :
    Attains .any x s P := by
  cases run : x s with
  | ok f t => exact .inl ⟨f, t, rfl.trans run, trivial, holds f t run⟩
  | error e t => exact .inr ⟨e, t, run, trivial⟩

theorem never_of_attains {x : Run Value} (attains : Attains .any x s fun _ _ => False) (f : Value) (t : Store) :
    x s ≠ .ok f t := by
  rcases attains with ⟨_, _, _, _, never⟩ | ⟨e, u, run, -⟩
  · exact never.elim
  · rw [run]
    nofun

/-- No call of a strict generator returns, nor does one of its parameter. -/
theorem Strict.never {T : Thunking g} (strict : Strict T.param g) (n : Nat) :
    ∀ s p, T.param s p → ∀ f t, (Machine.ofFuel n).call g [p] [] s ≠ .ok f t := by
  -- A call of the parameter comes back to the generator with less fuel.
  induction n using Nat.strong_induction_on with
  | _ n ih =>
      intro s p is
      refine strict n s p is fun m less t f u is' => ?_
      refine never_of_attains (T.ask (fun _ _ _ => id) is' (Manner.any_room (0 + 1 + T.cost) _ _) ?_) f u
      intro n' v p' less' _ is'' _
      exact attains_any fun f u run => (ih n' (less'.trans less) v p' is'' f u run).elim

end

/-- Making a fixed point is one call of the generator or the code, which makes a function; where the generator
has to call its parameter first, no fixed point is ever made. -/
theorem building_is_lazy {g : Value} {n : Nat} {s : Store} :
    (∀ (r : Fixing) (fits : r.Fits g) (levels : Nat), r.Meets s → Lazy (r.thunking g fits).param (levels + 1) g s →
      Roomy (levels + 1 + r.cost) n s →
      ∃ f t, r.build (.ofFuel n) g s = .ok f t ∧ CalledOnce (r.thunking g fits).param g s f t) ∧
    (∀ (r : DirectFixing) (fits : r.Fits g) (levels : Nat), r.Meets s →
      Lazy (r.delaying g fits).param (levels + 1) g s → Roomy (levels + 1 + r.cost) n s →
      ∃ f t, r.build (.ofFuel n) g s = .ok f t ∧ CalledOnce (r.delaying g fits).param g s f t) ∧
    ∀ (r : Fixing) (fits : r.Fits g), r.Meets s → Strict (r.thunking g fits).param g →
      ∀ f t, r.build (.ofFuel n) g s ≠ .ok f t := by
  refine ⟨fun r fits levels meets lazy room => ?_, fun r fits levels meets lazy room => ?_, fun r fits meets strict => ?_⟩
  · rcases r.build_attains fits meets CalledOnce.steady (.inr room)
      (fun n' t p _ beneath is room' => lazy.attains beneath is room') with ⟨f, t, run, -, once⟩ | ⟨_, _, _, never⟩
    · exact ⟨f, t, run, once⟩
    · exact never.elim
  · rcases r.build_attains fits meets CalledOnce.steady (.inr room)
      (fun n' t p _ beneath is room' => lazy.attains beneath is room') with ⟨f, t, run, -, once⟩ | ⟨_, _, _, never⟩
    · exact ⟨f, t, run, once⟩
    · exact never.elim
  · refine never_of_attains (r.build_attains fits meets (fun _ _ _ => id) (Manner.any_room (0 + 1 + r.cost) _ _) ?_)
    intro n' t p _ _ is _
    exact attains_any fun f u run => (strict.never n' t p is f u run).elim

/-! Generators that ask first. -/

/-- A generator that does something, asks its parameter and then makes a function. -/
def asking (first : Term) : Value :=
  .closure 1 { name := "<lambda>", path := "<lambda>", params := ["self"], plain := true }
    (letIn "done" first (letIn "f" (app (var "self") []) (fn ["i"] (var "i")))) []

/-- It is strict as long as what it does first leaves its parameter what it is. -/
theorem strict_asking {param : Store → Value → Prop} {first : Term}
    (later : ∀ {s t p}, s.Beneath t → param s p → param t p)
    (keeps : ∀ {k s p v t}, param s p → first.eval k [("self", p)] s = .ok v t → param t p) :
    Strict param (asking first) := by
  intro n s p is never
  refine never_of_attains (call_attains (Manner.any_room 1 _ _) (fun _ _ _ => id) ?_)
  rintro n' t rfl beneath -
  refine closure_attains rfl ?_
  rw [eval, Form.binding]
  refine Attains.bind (P := fun _ u => param u p) (attains_any fun v u run => keeps (later beneath is) run) ?_
  intro v u _ is'
  rw [eval, Form.binding]
  refine Attains.bind (P := fun _ _ => False) (ask_attains (var_yields rfl).attains ?_) fun _ _ _ => False.elim
  rintro _ w quiet rfl
  exact attains_any fun f x run => never n' (Nat.lt_succ_self _) w f x (later quiet.beneath is') run

/-- A generator that gives its thunk another body before it asks it. -/
def tampering : Value := asking (app (prim .define) [lit (.str "sf"), fn ["x"] (num 5), attr (var "self") "π"])

/-- Although it asks whatever it is given before it returns, the calculus makes its fixed point. -/
theorem tampering_is_fixed : Strict (fun _ _ => True) tampering ∧
    ∃ f t, Fixing.calculus.build (.ofFuel Session.fuel) tampering Session.start = .ok f t := by
  refine ⟨strict_asking (fun _ _ => trivial) fun _ _ => trivial, ?_⟩
  have returns : (EStateM.run' (Fixing.calculus.build (.ofFuel Session.fuel) tampering) Session.start).isSome = true := by
    decide +kernel
  cases ended : Fixing.calculus.build (.ofFuel Session.fuel) tampering Session.start with
  | ok f t => exact ⟨f, t, rfl⟩
  | error e t =>
      delta EStateM.run' EStateM.run at returns
      rw [ended] at returns
      cases returns

/-! Generators and code that only make a function. -/

theorem lazy_builtin {param : Store → Value → Prop} {b : Builtin} {self : String} {header : Header} {body : Term}
    (s : Store) (defined : definition? b = some ([self], lam header body))
    (apart : ∀ {t p}, param t p → ¬p.Runs (.builtin b)) : Lazy param 1 (.builtin b) s := by
  intro n u p _ is ⟨enough, room, given, below⟩
  obtain ⟨n, rfl⟩ : ∃ n', n = n' + 1 := ⟨n - 1, by omega⟩
  have counted : u.stack.room.isNone = false := by rw [given]; rfl
  have full : u.stack.full = false := by
    rw [Stack.full, given]
    exact decide_eq_false (by omega)
  refine ⟨.closure u.nextMark header body ((self, p) :: Machine.preludeScope),
    atDepth u.stack.depth (u.inside.skip 1), rfl, fun rule spares => deeper_of_ok counted full ?_⟩
  rw [spares _ _ _ _ (apart is), Machine.callValue, Machine.callBuiltin, defined]
  rfl

/-- No thunk or delay is a function that is built in. -/
theorem Fixing.param_apart {b b' : Builtin} (r : Fixing) {fits : r.Fits (.builtin b')} {s : Store} {p : Value}
    (is : (r.thunking (.builtin b') fits).param s p) : ¬p.Runs (.builtin b) := by
  cases r with
  | native =>
      obtain ⟨mark, rfl⟩ := is
      rintro (same | ⟨_, _, _, _, same, -⟩) <;> cases same
  | calculus =>
      obtain ⟨_, _, _, _, _, ⟨_, _, _, rfl, -⟩, -⟩ := is
      rintro (same | ⟨_, _, _, _, same, member⟩)
      · cases same
      · cases same
        simp [code] at member

theorem DirectFixing.param_apart {b b' : Builtin} (r : DirectFixing) {fits : r.Fits (.builtin b')} {s : Store}
    {p : Value} (is : (r.delaying (.builtin b') fits).param s p) : ¬p.Runs (.builtin b) := by
  cases r with
  | selfApplied =>
      obtain ⟨_, _, rfl⟩ := is
      rintro (same | ⟨_, _, _, _, same, -⟩) <;> cases same
  | adapted =>
      obtain ⟨_, _, _, _, rfl⟩ := is
      rintro (same | ⟨_, _, _, _, same, -⟩) <;> cases same
  | calculus =>
      obtain ⟨_, _, _, _, _, ⟨_, _, _, rfl, -⟩, -⟩ := is
      rintro (same | ⟨_, _, _, _, same, member⟩)
      · cases same
      · cases same
        simp [code] at member

/-- In a session that starts, the generator of the factorial is called once for each of its fixed points, so is
the code, and nothing makes a fixed point of a generator that asks first. -/
theorem building_is_lazy_started :
    (∀ r : Fixing, ∃ f t, r.build (.ofFuel Session.fuel) (.builtin .factorialGenerator) Session.start = .ok f t ∧
      CalledOnce (r.thunking _ fun _ => Value.inert_builtin .factorialGenerator).param (.builtin .factorialGenerator)
        Session.start f t) ∧
    (∀ r : DirectFixing, ∃ f t, r.build (.ofFuel Session.fuel) (.builtin .factorialCode) Session.start = .ok f t ∧
      CalledOnce (r.delaying _ fun _ => Value.inert_builtin .factorialCode).param (.builtin .factorialCode)
        Session.start f t) ∧
    ∀ (r : Fixing) f t, r.build (.ofFuel Session.fuel) (asking (num 0)) Session.start ≠ .ok f t := by
  refine ⟨fun r => ?_, fun r => ?_, fun r => ?_⟩
  · refine building_is_lazy.1 r _ 0 (fun _ => Store.equipped_start) (lazy_builtin _ rfl r.param_apart)
      ⟨?_, 10000, rfl, ?_⟩ <;> cases r <;> decide
  · refine building_is_lazy.2.1 r _ 0 (fun _ => Store.equipped_start) (lazy_builtin _ rfl r.param_apart)
      ⟨?_, 10000, rfl, ?_⟩ <;> cases r <;> decide
  · have fits : r.Fits (asking (num 0)) := fun _ => ⟨rfl, fun _ _ => rfl⟩
    refine building_is_lazy.2.2 r fits (fun _ => Store.equipped_start) (strict_asking (r.thunking _ fits).later ?_)
    intro k s p v t is run
    cases run
    exact is

end Knot
