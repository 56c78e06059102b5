import Knot.Proofs.Hygiene.Ignoring

/-!
No name is captured. What the outermost environment binds the names to that the combinators use themselves makes
no difference to a fixed point, and in the environments that were there before, the combinators change nothing:
whenever they call a generator, every name has the value there that it had.
-/

namespace Knot

open Run Store Term Prelude Calculus

/-- A store in which every name has the value that it had before, in the environments that were there. -/
def Store.Resolves (s u : Store) : Prop :=
  ∀ name env, env.IsScope s.frames.size → u.lookup name env = s.lookup name env

theorem Store.Beneath.resolves {s u : Store} (beneath : s.Beneath u) : s.Resolves u := by
  intro name env scope
  refine Value.lookup_congr fun id member => ?_
  have same : u.frame id = s.frame id := beneath.frames id (Value.chain_lt scope id member)
  rw [frameValue?, frameValue?, same]

namespace Calculus.Delay

/-- What comes of a run: what comes of calling the generator or the code with a delay, where every name has the
value that it had in the environments that were there, or a stop at the ceiling. -/
inductive ComesToCall (δ : Delay) (g : Value) (s : Store) : EStateM.Result Stop Store Value → Prop
  | ok {n : Nat} {u w w' : Store} {p v : Value} : s.Resolves u → δ.IsDelay g u p →
      (Machine.ofFuel n).call g [p] [] u = .ok v w' → atDepth 0 w = atDepth 0 w' → ComesToCall δ g s (.ok v w)
  | error {n : Nat} {u w w' : Store} {p : Value} {e : Stop} : s.Resolves u → δ.IsDelay g u p →
      (Machine.ofFuel n).call g [p] [] u = .error e w' → ComesToCall δ g s (.error e w)
  | ceiling {e : Stop} {w : Store} : e.IsCeiling → ComesToCall δ g s (.error e w)

variable {δ : Delay} {g : Value} {n : Nat} {s : Store}

/-- Runs that the generator or the code may stop as well as the ceiling. -/
def calling (δ : Delay) (g : Value) (s : Store) : Manner where
  keeps _ _ := True
  stops e := e.IsCeiling ∨ ∃ n u p w, s.Resolves u ∧ δ.IsDelay g u p ∧ (Machine.ofFuel n).call g [p] [] u = .error e w
  quiet _ := trivial
  trans _ _ := trivial
  outward _ := trivial

/-- What a call gave, at any depth. -/
def Called (δ : Delay) (g : Value) (s : Store) (v : Value) (w : Store) : Prop :=
  ∃ n u p w', s.Resolves u ∧ δ.IsDelay g u p ∧ (Machine.ofFuel n).call g [p] [] u = .ok v w' ∧
    atDepth 0 w = atDepth 0 w'

theorem called_steady : Steady (δ.Called g s) := by
  rintro v w depth ⟨n, u, p, w', resolves, is, run, same⟩
  exact ⟨n, u, p, w', resolves, is, run, same⟩

theorem calling_start (p : Value) (u : Store) (beneath : s.Beneath u) (is : δ.IsDelay g u p) :
    Attains (δ.calling g s) ((Machine.ofFuel n).call g [p] []) u (δ.Called g s) := by
  cases run : (Machine.ofFuel n).call g [p] [] u with
  | ok v w => exact .inl ⟨v, w, run, trivial, n, u, p, w, beneath.resolves, is, run, rfl⟩
  | error e w => exact .inr ⟨e, w, run, .inr ⟨n, u, p, w, beneath.resolves, is, run⟩⟩

theorem ComesToCall.of_attains {x : Run Value} (attains : Attains (δ.calling g s) x s (δ.Called g s)) :
    δ.ComesToCall g s (x s) := by
  rcases attains with ⟨v, w, run, -, n, u, p, w', resolves, is, ran, same⟩ | ⟨e, w, run, stops⟩
  · rw [run]
    exact .ok resolves is ran same
  · rw [run]
    rcases stops with ceiling | ⟨n, u, p, w', resolves, is, ran⟩
    · exact .ceiling ceiling
    · exact .error resolves is ran

/-- Making a fixed point comes to a call of the generator or the code. -/
theorem combinator_comesToCall {mark : Nat} {name : String} (provides : s.Provides name mark (fixedPointBody δ.term))
    (inert : g.Inert) (new : s.Fresh) :
    δ.ComesToCall g s ((Machine.ofFuel n).call (Session.combinator mark (fixedPointBody δ.term)) [g] [] s) := by
  have room : (δ.calling g s).Room (0 + 7) n s := .inl fun _ is => .inl is
  refine .of_attains (combinator_attains provides inert new called_steady room ?_)
  exact fun _ u p _ beneath is _ => calling_start p u beneath is

/-- And so does unfolding it once more. -/
theorem root_comesToCall {root root' : Value} (inert : g.Inert) (called : δ.IsRoot g s root)
    (passed : δ.IsRoot g s root') (new : s.Fresh) :
    δ.ComesToCall g s ((Machine.ofFuel n).call root [root'] [] s) := by
  have room : (δ.calling g s).Room (0 + 3) n s := .inl fun _ is => .inl is
  refine .of_attains (root_attains inert called passed new called_steady room ?_)
  exact fun _ u p _ beneath is _ => calling_start p u beneath is

end Calculus.Delay

/-- Binding the argument of a delay for direct-style code changes no name in the environments that were there
before its own one was opened. -/
theorem bound_resolves {u w y : Store} {v : Value} (alone : w.Unshared u.frames.size)
    (bound : writing .call (Run.bind u.frames.size "m" v) w = .ok () y) {name : String} {env : Value}
    (scope : env.IsScope u.frames.size) : y.lookup name env = w.lookup name env := by
  refine Value.lookup_congr fun id member => ?_
  have apart : id ≠ u.frames.size := Nat.ne_of_lt (Value.chain_lt scope id member)
  have same : y.frame id = w.frame id := by
    rw [bound_eq bound ordinary_m.plain alone]
    exact (frameAt_set _ _ _ _).trans (if_neg fun both => apart both.1)
  rw [frameValue?, frameValue?, same]

/-- Provided is what both bind. -/
theorem Store.Provides.across {N : String → Prop} {s t : Store} {name : String} {mark : Nat} {body : Term}
    (provides : s.Provides name mark body) (kept : ¬N name) (differ : Differ N s t) : t.Provides name mark body where
  bound := (differ.root.names name kept).trans provides.bound
  free := by rw [differ.given, provides.free]
  positive := provides.positive
  known := by rw [differ.nextMark]; exact provides.known
  params := by rw [differ.contents, provides.params]
  code := differ.table?_none provides.code

/-- The fixed point of a generator or of code, applied to an argument. -/
def fixedPointCall (name : String) : Term := .app (.app (.attr (.var "ΓΠ") name) [.var "g"]) [.var "x"]

/-- What the program sees. -/
def fixedPointScope (g x : Value) : Scope := [("ΓΠ", outermost), ("g", g), ("x", x)]

section

variable {N : String → Prop} {δ : Delay} {g x : Value} {n mark : Nat} {s t : Store} {name : String}

/-- Making the fixed point and applying it comes to the same in both states. -/
theorem fixedPointCall_inStep (inert : g.Inert) (provides : s.Provides name mark (fixedPointBody δ.term))
    (ordinary : Ordinary name) (kept : ¬N name) (new : s.Fresh) (differ : Differ N s t)
    (starts : ∀ m u p, m < n → s.Beneath u → δ.IsHidden g u p → Ignores N g m (.call g [p] []) u)
    (applies : ∀ f w, (Machine.ofFuel n).call (Session.combinator mark (fixedPointBody δ.term)) [g] [] s = .ok f w →
      Ignores N g n (.call f [x] []) w) :
    InStep N ((fixedPointCall name).eval (.ofFuel n) (fixedPointScope g x) s)
      ((fixedPointCall name).eval (.ofFuel n) (fixedPointScope g x) t) := by
  let combinator := Session.combinator mark (fixedPointBody δ.term)
  have read : getAttribute outermost name s = .ok combinator s := provides.read ordinary
  have read' : getAttribute outermost name t = .ok combinator t := (provides.across kept differ).read ordinary
  have seen (k : Machine) (other : String) {v : Value} (u : Store)
      (bound : (fixedPointScope g x).lookup other = some v) :
      (var other).eval k (fixedPointScope g x) u = .ok v u := by
    rw [eval_var, Form.resolve, bound]
    rfl
  have made : Tandem N (fun f w => (Machine.ofFuel n).call combinator [g] [] s = .ok f w)
      ((app (attr (var "ΓΠ") name) [var "g"]).eval (.ofFuel n) (fixedPointScope g x) s)
      ((app (attr (var "ΓΠ") name) [var "g"]).eval (.ofFuel n) (fixedPointScope g x) t) := by
    refine app_tandem (F := fun f w => f = combinator ∧ w = s) (A := fun f v w => f = combinator ∧ v = g ∧ w = s)
      (attr_tandem rfl differ read read' ⟨rfl, rfl⟩) ?_ ?_
    · rintro f u u' differ' ⟨rfl, rfl⟩
      rw [seen _ "g" u rfl, seen _ "g" u' rfl]
      exact .ok differ' ⟨rfl, rfl, rfl⟩
    · rintro f v u u' differ' ⟨rfl, rfl, rfl⟩
      refine (Delay.combinator_tandem provides inert new differ' steady_true ?_).ran.mono fun f w held => held.2
      exact fun m w w' p less beneath differ'' is => (starts m w p less beneath is).inStep inert w' differ''
  refine app_tandem (F := fun f w => (Machine.ofFuel n).call combinator [g] [] s = .ok f w)
    (A := fun f v w => v = x ∧ (Machine.ofFuel n).call combinator [g] [] s = .ok f w) made ?_ ?_
  · intro f u u' differ' run
    rw [seen _ "x" u rfl, seen _ "x" u' rfl]
    exact .ok differ' ⟨rfl, run⟩
  · rintro f _ u u' differ' ⟨rfl, run⟩
    exact (applies f u run).inStep inert u' differ'

/-- The combinators are hygienic. Where all code of a run but their own ignores what the outermost environment binds
some names to, what these names are bound to makes no difference, be they the ones that the combinators use themselves:
not to what is asked for once a fixed point is made, and neither to making it, if the name of the combinator itself is
none of them. And when a combinator calls the generator or the code, every name has the value that it had before in
every environment that was there; binding the argument of a delay changes none of them either. -/
theorem combinators_are_hygienic (inert : g.Inert) :
    (∀ n c s t, Ignores N g n c s → Differ N s t → InStep N (c.run (.ofFuel n) s) (c.run (.ofFuel n) t)) ∧
    (∀ (δ : Delay) n name mark s t x, s.Provides name mark (fixedPointBody δ.term) → Ordinary name → ¬N name →
      s.Fresh → Differ N s t →
      (∀ m u p, m < n → s.Beneath u → δ.IsHidden g u p → Ignores N g m (.call g [p] []) u) →
      (∀ f w, (Machine.ofFuel n).call (Session.combinator mark (fixedPointBody δ.term)) [g] [] s = .ok f w →
        Ignores N g n (.call f [x] []) w) →
      InStep N ((fixedPointCall name).eval (.ofFuel n) (fixedPointScope g x) s)
        ((fixedPointCall name).eval (.ofFuel n) (fixedPointScope g x) t)) ∧
    (∀ (δ : Delay) n name mark s, s.Provides name mark (fixedPointBody δ.term) → s.Fresh →
      δ.ComesToCall g s ((Machine.ofFuel n).call (Session.combinator mark (fixedPointBody δ.term)) [g] [] s)) ∧
    (∀ (δ : Delay) n root root' s, δ.IsRoot g s root → δ.IsRoot g s root' → s.Fresh →
      δ.ComesToCall g s ((Machine.ofFuel n).call root [root'] [] s)) ∧
    (∀ (u w y : Store) v name env, w.Unshared u.frames.size →
      writing .call (Run.bind u.frames.size "m" v) w = .ok () y → env.IsScope u.frames.size →
        y.lookup name env = w.lookup name env) :=
  ⟨fun _ _ _ t ignores differ => ignores.inStep inert t differ,
    fun _ _ _ _ _ _ _ provides ordinary kept new differ starts applies =>
      fixedPointCall_inStep inert provides ordinary kept new differ starts applies,
    fun _ _ _ _ _ provides new => Delay.combinator_comesToCall provides inert new,
    fun _ _ _ _ _ called passed new => Delay.root_comesToCall inert called passed new,
    fun _ _ _ _ _ _ alone bound scope => bound_resolves alone bound scope⟩

end

/-! Direct-style code that counts down by its delay. -/

namespace Countdown

/-- A number that is less than one, or what the delay gives for the number before. -/
def body : Term :=
  .ite (.binary .less (.var "n") (.num 1)) (.var "n") (.app (.var "self") [.binary .sub (.var "n") (.num 1)])

def header (param : String) : Header := { name := "<lambda>", path := "<lambda>", params := [param], plain := true }

/-- The code. -/
def code : Value := .closure 10 (header "self") (.lam (header "n") body) []

/-- What the code gives for a delay. -/
def function (mark : Nat) (delay : Value) : Value := .closure mark (header "n") body [("self", delay)]

variable {N : String → Prop} {n mark : Nat} {s t u w : Store} {p h : Value} {i : Int}

theorem code_inert : code.Inert := ⟨rfl, fun _ _ => rfl⟩

theorem code_called (k : Machine) (p : Value) (s : Store) :
    Machine.callValue k code [p] [] s = .ok (function s.nextMark p) (s.skip 1) := rfl

theorem function_called (k : Machine) (mark : Nat) (p : Value) (i : Int) (s : Store) :
    Machine.callValue k (function mark p) [.int i] [] s =
      if i < 1 then .ok (.int i) (s.skip 1) else k.call p [.int (i - 1)] [] (s.skip 2) := by
  let scope : Scope := [("n", .int i), ("self", p)]
  have called : Machine.callValue k (function mark p) [.int i] [] s = body.eval k scope s := rfl
  have compared : (Term.binary .less (.var "n") (.num 1)).eval k scope s = .ok (.bool (decide (i < 1))) (s.skip 1) :=
    rfl
  have less : (Term.binary .sub (.var "n") (.num 1)).eval k scope (s.skip 1) = .ok (.int (i - 1)) (s.skip 2) := rfl
  rw [called, body, Term.eval, Form.choosing, bind_of_ok compared]
  by_cases below : i < 1
  · rw [decide_eq_true below, if_pos below]
    rfl
  · rw [decide_eq_false below, if_neg below]
    have asked : (app (.var "self") [.binary .sub (.var "n") (.num 1)]).eval k scope (s.skip 1) =
        k.call p [.int (i - 1)] [] (s.skip 2) := by
      have args : evalAll k [.binary .sub (.var "n") (.num 1)] scope (s.skip 1) = .ok [.int (i - 1)] (s.skip 2) :=
        evalAll_cons less rfl
      have self : (Term.var "self").eval k scope (s.skip 1) = .ok p (s.skip 1) := rfl
      rw [app, Term.eval, Form.calling, bind_of_ok self, bind_of_ok args]
      rfl
    exact asked

/-- A call of the code gives its function. -/
theorem code_gives (run : (Machine.ofFuel n).call code [p] [] u = .ok h w) :
    (∃ mark, h = function mark p) ∧ u.Beneath w := by
  have room : Manner.bounded.Room (0 + 1) n u := .inl Manner.bounded_open
  have attains : Attains .bounded ((Machine.ofFuel n).call code [p] []) u fun h _ => ∃ mark, h = function mark p :=
    call_attains room (fun _ _ _ made => made) fun n' t _ _ _ =>
      .inl ⟨_, _, code_called _ p t, Quiet.told t 1 t.journal t.deeds, _, rfl⟩
  rcases attains with ⟨h', w', run', quiet, made⟩ | ⟨e, w', run', -⟩
  · cases run.symm.trans run'
    exact ⟨made, quiet.beneath⟩
  · cases run.symm.trans run'

/-- The code looks no names up. -/
theorem code_ignores (n : Nat) (p : Value) (s : Store) : Ignores N code n (.call code [p] []) s := by
  cases n with
  | zero => exact .spent _ _
  | succ n =>
      refine .own (fun _ _ => False) (fun t differ _ => ?_) fun _ _ none => none.elim
      have same : t.nextMark = s.called.nextMark := differ.nextMark
      change InStep N (Machine.callValue _ code [p] [] _) (Machine.callValue _ code [p] [] _)
      rw [code_called, code_called, same]
      exact .ok (differ.skip 1) trivial

/-- Neither does a number. -/
theorem number_ignores (n : Nat) (i : Int) (env : Value) (s : Store) :
    Ignores N code n (.evaluate (.int i) env) s := by
  cases n with
  | zero => exact .spent _ _
  | succ n => exact .own (fun _ _ => False) (fun t differ _ => .ok differ trivial) fun _ _ none => none.elim

theorem number_evaluated {env v : Value} (run : (Machine.ofFuel n).evaluate (.int i) env s = .ok v t) :
    v = .int i ∧ Quiet s t := by
  rcases evaluate_self (n := n) env (Value.inert_int i).evaluated
    (.inl Manner.bounded_open : Manner.bounded.Room 1 n s) with ⟨u, run', quiet⟩ | ⟨e, u, run', -⟩
  · cases run.symm.trans run'
    exact ⟨rfl, quiet⟩
  · cases run.symm.trans run'

/-- Neither does asking the delay, if going on does not. -/
theorem delay_ignores (is : Delay.direct.IsHidden code s p)
    (goes : ∀ m < n, ∀ u q mark i, Delay.direct.IsHidden code u q →
      Ignores N code m (.call (function mark q) [.int i] []) u) :
    Ignores N code n (.call p [.int i] []) s := by
  cases n with
  | zero => exact .spent _ _
  | succ n =>
      obtain ⟨mark, scope, closed, root, outer, made, binds, inside, root_is, new⟩ := is
      refine .passed made new (fun u _ => number_ignores n i closed u.opened) ?_ ?_
      · intro u v w beneath run
        obtain ⟨-, quiet⟩ := number_evaluated run
        exact ⟨(beneath.trans ((Quiet.opened u).trans quiet).beneath).made made,
          opened_unshared (beneath.new new) quiet⟩
      · intro u v w y beneath run bound
        obtain ⟨rfl, quiet⟩ := number_evaluated run
        obtain ⟨_, bound', quiet', binds'⟩ := bind_opened (v := .int i) quiet (beneath.new new) ordinary_m.plain
        cases bound.symm.trans bound'
        have since := beneath.trans quiet'.beneath
        have apart := Nat.pos_iff_ne_zero.mp (beneath.new new).opened
        cases n with
        | zero => exact .spent _ _
        | succ n =>
            refine .applied (v := .int i) ?_ rfl (since.new new) (fun m u q _ _ _ => code_ignores m q u) ?_ ?_
            · exact ⟨closed, root, outer, binds' closed, ⟨_, closed, rfl, apart⟩, since.binds binds, inside,
                root_is.later since⟩
            · intro m x q h z _ beneath' _ run
              exact ⟨closed, (beneath'.trans (code_gives run).2).binds (binds' closed)⟩
            · intro m x q h z depth _ _ hidden run
              obtain ⟨⟨mark', rfl⟩, later⟩ := code_gives run
              exact goes n (by omega) _ q mark' i (hidden.later (later.trans (.atDepth z depth)))

/-- So the function looks no names up. -/
theorem function_ignores (n : Nat) (is : Delay.direct.IsHidden code s p) (mark : Nat) (i : Int) :
    Ignores N code n (.call (function mark p) [.int i] []) s := by
  induction n using Nat.strong_induction_on generalizing s p mark i with
  | _ n ih =>
      cases n with
      | zero => exact .spent _ _
      | succ n =>
          refine .own (fun c u => ∃ q j, c = .call q [.int j] [] ∧ Delay.direct.IsHidden code u q) ?_ ?_
          · intro t differ asked
            change InStep N (Machine.callValue _ (function mark p) [.int i] [] _)
              (Machine.callValue _ (function mark p) [.int i] [] _)
            rw [function_called, function_called]
            split
            · exact .ok (differ.skip 1) trivial
            · have later : s.Beneath (s.called.skip 2) :=
                s.beneath_called.trans (Quiet.told s.called 2 s.called.journal s.called.deeds).beneath
              exact asked (.call p [.int (i - 1)] []) _ _ ⟨p, i - 1, rfl, is.later later⟩ (differ.skip 2)
          · rintro _ u ⟨q, j, rfl, hidden⟩
            exact delay_ignores hidden fun m less u q mark i hidden' => ih m (by omega) hidden' mark i

/-- The names that the outermost environment binds but the combinator's own. -/
def Other (name : String) : Prop := name ≠ "Υ1"

/-- What a combinator makes of the code. -/
theorem made_function {f : Value} {name : String}
    (provides : s.Provides name mark (fixedPointBody Delay.direct.term)) (new : s.Fresh)
    (run : (Machine.ofFuel n).call (Session.combinator mark (fixedPointBody Delay.direct.term)) [code] [] s = .ok f w) :
    ∃ mark p, f = function mark p ∧ Delay.direct.IsHidden code w p := by
  let Made (f : Value) (w : Store) : Prop := ∃ mark p, f = function mark p ∧ Delay.direct.IsHidden code w p
  have steady : Steady Made := fun f w depth ⟨mark, p, same, is⟩ => ⟨mark, p, same, is.later (.atDepth w depth)⟩
  have made := Delay.combinator_tandem (n := n) (P := Made) provides code_inert new (Differ.refl (N := Other) s) steady ?_
  · rw [run] at made
    cases made with
    | ok _ holds => exact holds
  · intro m u u' p _ _ differ is
    have ignores : Ignores Other code m (.call code [p] []) u := code_ignores m p u
    refine (ignores.inStep code_inert u' differ).ran.mono ?_
    rintro f w ⟨-, run⟩
    obtain ⟨⟨mark, rfl⟩, later⟩ := code_gives run
    exact ⟨mark, p, rfl, is.later later⟩

/-- The start of a session, where other names are bound than the combinator's. -/
def rebound : Store :=
  { Session.start with frames := #[{ Session.outermostFrame with
      bindings := [("sf", .int 5), ("Υ1", Session.combinator 5 directBody), ("d", .int 7)] }] }

theorem differ_rebound : Differ Other Session.start rebound where
  rest := rfl
  size := rfl
  inner id apart := by
    obtain ⟨id, rfl⟩ := Nat.exists_eq_succ_of_ne_zero apart
    rfl
  root := ⟨rfl, rfl, fun name same => by rw [not_not.mp same]; rfl⟩

end Countdown

/-- Counting down from three by the combinator for direct-style code comes to the same where the outermost environment
binds `sf` and `d` to numbers, and `Υ` to nothing. -/
theorem combinators_are_hygienic_countdown :
    Differ Countdown.Other Session.start Countdown.rebound ∧
      InStep Countdown.Other
        ((fixedPointCall "Υ1").eval (.ofFuel 60) (fixedPointScope Countdown.code (.int 3)) Session.start)
        ((fixedPointCall "Υ1").eval (.ofFuel 60) (fixedPointScope Countdown.code (.int 3)) Countdown.rebound) := by
  have equipped := Store.equipped_start
  refine ⟨Countdown.differ_rebound, ?_⟩
  refine (combinators_are_hygienic Countdown.code_inert).2.1 .direct 60 "Υ1" 5 _ _ (.int 3) equipped.direct
    ordinary_directFixedPoint (fun other => other rfl) equipped.new Countdown.differ_rebound ?_ ?_
  · exact fun m u p _ _ _ => Countdown.code_ignores m p u
  · intro f w run
    obtain ⟨mark, p, rfl, is⟩ := Countdown.made_function equipped.direct equipped.new run
    exact Countdown.function_ignores 60 is mark 3

/-- A generator that counts the names of the outermost environment, applied before a name is bound there that it neither
looks up nor writes, and after. -/
def namesCounted : Term :=
  let names : Term := .attr (.attr (.var "ΓΠ") "φ") "__dict__"
  .letIn "f" (.app (.attr (.var "ΓΠ") "Υ") [.fn ["self"] (.fn ["n"] (.app (.prim .len) [names]))])
    (.letIn "before" (.app (.var "f") [.num 1])
      (.seq [.set (.var "ΓΠ") "zzz" (.num 1), .binary .equal (.var "before") (.app (.var "f") [.num 1])]))

/-- What shows which names the outermost environment binds depends on them, looked up or not. -/
theorem namesCounted_differ :
    (match namesCounted.eval (.ofFuel 60) [] Session.start with
      | .ok (.bool false) _ => true
      | _ => false) = true := by
  decide +kernel

end Knot
