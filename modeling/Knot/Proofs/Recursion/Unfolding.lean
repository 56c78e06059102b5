import Knot.Proofs.Recursion.Steps

/-!
How a fixed point unfolds. A generator is given a thunk, which is asked for the function and gives the
generator a thunk again; direct-style code is given a delay, which is applied to the argument, gives the code
a delay again and applies what comes back. Whatever thunks and delays are made of, what the generators and the
code of the examples make of them follows their recursions.
-/

namespace Knot

open Run Store Term Prelude

/-- What a generator is given for its function. To ask it is to give the generator such a thunk again, some
levels of calls deeper. -/
structure Thunking (g : Value) where
  param : Store → Value → Prop
  later : ∀ {s t p}, s.Beneath t → param s p → param t p
  cost : Nat
  ask : ∀ {m : Manner} {levels n : Nat} {s : Store} {p : Value} {P : Value → Store → Prop}, Steady P →
    param s p → m.Room (levels + 1 + cost) n s →
    (∀ n' t p', n' < n → s.Beneath t → param t p' → m.Room (levels + 1) n' t →
      Attains m ((Machine.ofFuel n').call g [p'] []) t fun r u => r.isCallable = true ∧ P r u) →
    Attains m ((Machine.ofFuel n).call p [] []) s P

/-- A thunk in stores of which something more is known, which lasts. -/
def Thunking.keeping {g : Value} (T : Thunking g) (known : Store → Prop)
    (lasts : ∀ {s t}, s.Beneath t → known s → known t) : Thunking g where
  param s p := T.param s p ∧ known s
  later beneath is := ⟨T.later beneath is.1, lasts beneath is.2⟩
  cost := T.cost
  ask steady is room start := T.ask steady is.1 room fun n' t p' less beneath param room' =>
    start n' t p' less beneath ⟨param, lasts beneath is.2⟩ room'

/-- To apply a delay is to give the code a delay again, some levels of calls deeper, and to apply what comes
back to the argument, some levels deeper than the delay. -/
def Applies (d : Value) (param : Store → Value → Prop) (cost turn : Nat) : Prop :=
  ∀ {stops : Stop → Prop} {levels levels' n : Nat} {s : Store} {p v : Value} {x : Number}
    {P G : Value → Store → Prop}, Steady P → (∀ f t u, t.Beneath u → G f t → G f u) → param s p →
    v.number? = some x → (Manner.silent stops).Room (max (levels + 1 + cost) (levels' + turn)) n s →
    (∀ n' t p', n' < n → s.Beneath t → param t p' → (Manner.silent stops).Room (levels + 1) n' t →
      Attains (.silent stops) ((Machine.ofFuel n').call d [p'] []) t fun r u => r.isCallable = true ∧ G r u) →
    (∀ n' t f w, n' < n → s.Beneath t → G f t → w.unmarked = v.unmarked →
      (Manner.silent stops).Room levels' n' t → Attains (.silent stops) ((Machine.ofFuel n').call f [w] []) t P) →
    Attains (.silent stops) ((Machine.ofFuel n).call p [v] []) s P

/-- What direct-style code is given for its function. -/
structure Delaying (d : Value) where
  param : Store → Value → Prop
  later : ∀ {s t p}, s.Beneath t → param s p → param t p
  cost : Nat
  turn : Nat
  apply : Applies d param cost turn

namespace Store

theorem Beneath.atDepth (s : Store) (depth : Nat) : s.Beneath (Run.atDepth depth s) := Quiet.refl _

end Store

/-- What a generator makes of its thunks where it goes by a recursion: functions that do a step of it, with
the thunk asked for the function and the number that they are applied to. -/
structure Unfolding {g : Value} (T : Thunking g) (R : Recurrence) where
  family : Store → Value → Prop
  later : ∀ {s t f}, s.Beneath t → family s f → family t f
  self : Term
  number : Term
  /-- Levels of calls that the generator goes through under its own, and that its functions go through. -/
  need : Nat
  depth : Nat
  covers : depth ≤ need + 1 + T.cost
  makes : ∀ {m : Manner} {n : Nat} {s : Store} {p : Value}, T.param s p → m.Room (need + 1) n s →
    Attains m ((Machine.ofFuel n).call g [p] []) s fun r u => r.isCallable = true ∧ family u r
  enter : ∀ {stops : Stop → Prop} {levels n : Nat} {s : Store} {f v : Value} {x : Number}
    {P : Value → Store → Prop}, Steady P → family s f → v.number? = some x →
    (Manner.silent stops).Room (levels + depth) n s →
    (∀ n' t scope p, n' < n → s.Beneath t → T.param t p → (Manner.silent stops).Room levels n' t →
      Reads (.silent stops) (.ofFuel n') scope number t v →
      (∀ u, Quiet t u → Yields (self.eval (.ofFuel n') scope) u p) →
      Attains (.silent stops) ((R.step (app self []) number).eval (.ofFuel n') scope) t P) →
    Attains (.silent stops) ((Machine.ofFuel n).call f [v] []) s P

/-- What a generator makes of its thunks follows the recursion. -/
theorem Unfolding.follows {g : Value} {T : Thunking g} {R : Recurrence} (U : Unfolding T R) :
    R.Follows (fun d => U.depth * d + (U.need + 1 + T.cost)) U.family := by
  intro stops n
  -- Each call is made with less fuel than the one around it, whether or not the recursion ends.
  induction n using Nat.strong_induction_on with
  | _ n ih =>
      intro s f v x family is ⟨d, room, ends⟩
      have covers := U.covers
      have entered : (Manner.silent stops).Room
          (U.depth * d + (U.need + 1 + T.cost) - U.depth + U.depth) n s := room.less (by dsimp only; omega)
      refine U.enter (steady_value _) family is entered ?_
      intro n' t scope p less beneath param room' reads asks
      refine R.goes reads is ends ?_
      intro i y d' before lower ends' u quiet
      have deep (l : Nat) (enough : U.depth * (d' + 1) ≤ U.depth * d →
          l ≤ U.depth * d + (U.need + 1 + T.cost) - U.depth) : (Manner.silent stops).Room l n' u :=
        lower.elim .inl fun lower => (room'.later quiet.stack).less (enough (Nat.mul_le_mul_left _ lower))
      refine recur_attains (F := fun g t => U.family t g) (reads.later quiet) is before ?_ ?_
      · refine ask_attains (asks u quiet).attains ?_
        rintro g w later rfl
        refine T.ask (fun f z depth is => U.later (.atDepth z depth) is)
          (T.later (quiet.trans later).beneath param) ((deep (U.need + 1 + T.cost) fun more => ?_).later later.stack) ?_
        · rw [Nat.mul_succ] at more
          omega
        · exact fun n'' z p' _ _ param room => U.makes param room
      · intro g w a z later family' quiet' same'
        refine (ih n' less).number (U.later quiet'.beneath family') same' (d := d') ?_ ends'
        refine ((deep _ fun more => ?_).later later.stack).later quiet'.stack
        rw [Nat.mul_succ] at more
        omega

/-! What the examples make of a thunk or a delay. -/

namespace Recurrence

variable (R : Recurrence) {b : Builtin}

/-- A function of one number goes by its step, with what it holds itself for. -/
theorem step_attains {stops : Stop → Prop} {levels n mark : Nat} {s : Store} {header : Header} {scope : Scope}
    {p v : Value} {P : Value → Store → Prop} (steady : Steady P) (binds : header.bind [v] [] = .ok [("i", v)])
    (self : scope.lookup "self" = some p) (room : (Manner.silent stops).Room (levels + 1) n s)
    (run : ∀ n' t scope, n' < n → s.Beneath t → (Manner.silent stops).Room levels n' t →
      Reads (.silent stops) (.ofFuel n') scope (var "i") t v →
      (∀ u, Quiet t u → Yields ((var "self").eval (.ofFuel n') scope) u p) →
      Attains (.silent stops) ((R.step asked (var "i")).eval (.ofFuel n') scope) t P) :
    Attains (.silent stops) ((Machine.ofFuel n).call (.closure mark header (R.step asked (var "i")) scope) [v] [])
      s P := by
  refine call_attains room steady fun n' t same beneath room' => closure_attains binds ?_
  exact run n' t _ (by omega) beneath room' (Reads.var rfl) fun _ _ => var_yields self

/-- The function that a generator of the examples makes of a thunk. -/
def unfolding (doc : Option String) (T : Thunking (.builtin b))
    (defined : definition? b = some (["self"], inner b "fn" ["i"] (R.step asked (var "i")) doc)) :
    Unfolding T R where
  family s f := ∃ mark p, T.param s p ∧
    f = .closure mark (unfoldedHeader b doc) (R.step asked (var "i")) [("self", p), ("ΓΠ", outermost)]
  later := by
    rintro s t f beneath ⟨mark, p, param, rfl⟩
    exact ⟨mark, p, T.later beneath param, rfl⟩
  self := var "self"
  number := var "i"
  need := 0
  depth := 1
  covers := Nat.le_add_right 1 _
  makes := by
    intro m n s p param room
    refine call_attains room ?_ fun n' t _ beneath _ => ?_
    · rintro f u depth ⟨callable, mark, p, param, rfl⟩
      exact ⟨callable, mark, p, T.later (.atDepth u depth) param, rfl⟩
    · refine definition_attains defined rfl ((lam_gives _ _).mono ?_).attains
      rintro f u quiet ⟨mark, rfl⟩
      exact ⟨rfl, mark, p, T.later (beneath.trans quiet.beneath) param, rfl⟩
  enter := by
    rintro stops levels n s f v x P steady ⟨mark, p, param, rfl⟩ is room run
    exact R.step_attains steady rfl rfl room fun n' t scope less beneath =>
      run n' t scope p less beneath (T.later beneath param)

/-- The function that direct-style code makes of a delay of itself, under the name that the code gives it. -/
def Coded (name : String) (D : Delaying (.builtin b)) (s : Store) (f : Value) : Prop :=
  ∃ mark p, D.param s p ∧ f = .closure mark
    { name := "fn", path := b.name ++ ".<locals>." ++ "fn", params := ["n"], plain := false, home := b.home }
    (R.step (var name) (var "n")) [(name, p), ("ΓΠ", outermost)]

theorem Coded.later {R : Recurrence} {name : String} {D : Delaying (.builtin b)} {s t : Store} {f : Value}
    (beneath : s.Beneath t) (is : R.Coded name D s f) : R.Coded name D t f := by
  obtain ⟨mark, p, param, rfl⟩ := is
  exact ⟨mark, p, D.later beneath param, rfl⟩

/-- The code makes its function of whatever delay it is given. -/
theorem code_attains {name : String} {m : Manner} {n : Nat} {s : Store} {p : Value} (D : Delaying (.builtin b))
    (defined : definition? b = some ([name], inner b "fn" ["n"] (R.step (var name) (var "n"))))
    (param : D.param s p) (room : m.Room 1 n s) :
    Attains m ((Machine.ofFuel n).call (.builtin b) [p] []) s fun r u =>
      r.isCallable = true ∧ R.Coded name D u r := by
  refine call_attains room ?_ fun n' t _ beneath _ => ?_
  · rintro f u depth ⟨callable, is⟩
    exact ⟨callable, is.later (.atDepth u depth)⟩
  · have binds : ({ name := b.name, path := b.name, params := [name], plain := false } : Header).bind [p] [] =
        .ok [(name, p)] := rfl
    refine definition_attains defined binds ((lam_gives _ _).mono ?_).attains
    rintro f u quiet ⟨mark, rfl⟩
    exact ⟨rfl, mark, p, D.later (beneath.trans quiet.beneath) param, rfl⟩

/-- What code makes of its delays follows the recursion. -/
theorem coded_follows {name : String} (D : Delaying (.builtin b)) (turns : D.turn ≤ D.cost)
    (defined : definition? b = some ([name], inner b "fn" ["n"] (R.step (var name) (var "n"))))
    (apart : (name == "n") = false) :
    R.Follows (fun d => (D.turn + 1) * d + (D.cost - D.turn + 1)) (R.Coded name D) := by
  intro stops n
  induction n using Nat.strong_induction_on with
  | _ n ih =>
      rintro s f v x ⟨mark, p, param, rfl⟩ is ⟨d, room, ends⟩
      refine call_attains (show Manner.Room _ ((D.turn + 1) * d + (D.cost - D.turn) + 1) n s from room)
        (steady_value _) fun n' t same beneath room' => ?_
      refine closure_attains rfl (R.goes (Reads.var rfl) is ends ?_)
      intro i y d' before lower ends' u quiet
      have param' := D.later (beneath.trans quiet.beneath) param
      have found : ([("n", v), (name, p), ("ΓΠ", outermost)] : Scope).lookup name = some p := by
        simp [List.lookup_cons, apart]
      refine recur_attains (F := fun g _ => g = p) (Reads.var rfl) is before (var_yields found).attains ?_
      rintro g w a z later rfl quiet' same'
      have since := quiet.trans (later.trans quiet')
      have deep : (Manner.silent stops).Room
          (max (0 + 1 + D.cost) ((D.turn + 1) * d' + (D.cost - D.turn + 1) + D.turn)) n' z := by
        refine lower.elim .inl fun lower => (room'.later since.stack).less ?_
        have more : (D.turn + 1) * (d' + 1) ≤ (D.turn + 1) * d := Nat.mul_le_mul_left _ lower
        rw [Nat.mul_succ] at more
        omega
      refine D.apply (G := fun f t => R.Coded name D t f) (steady_value _) (fun _ _ _ beneath is => is.later beneath)
        (D.later (later.trans quiet').beneath param') (Number.number?_of_unmarked same') deep ?_ ?_
      · exact fun n'' t' p' _ _ param room => R.code_attains D defined param room
      · intro n'' t' f' w' less beneath' is' same'' room''
        exact (ih n'' (by omega)).number is' (same''.trans same') room'' ends'

end Recurrence

end Knot
