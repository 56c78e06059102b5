import Knot.Proofs.Effects.Conservation
import Knot.Proofs.Recursion.Host

/-!
What unfolding costs. A tally around a generator of the examples counts one derivation for the fixed point
itself, and one more with each call of its thunk: once for each number that the factorial goes through, and
twice, once for either predecessor, for each number from two on that the Fibonacci numbers go through.
-/

namespace Knot

open Run Store Term Prelude FixedPoint

namespace Manner

/-- Runs that leave the stack as it was. -/
def level (stops : Stop → Prop) : Manner where
  keeps s t := t.stack = s.stack
  stops := stops
  quiet quiet := quiet.stack
  trans first second := second.trans first
  outward {s _} inner := congrArg (fun stack : Stack => { stack with depth := s.stack.depth }) inner

end Manner

namespace Tallied

variable {mark : Nat} {s t : Store} {d c : Int}

theorem later (tallied : Tallied mark s d c) (quiet : Quiet s t) : Tallied mark t d c :=
  ⟨tallied.made.trans_le quiet.marks, by rw [quiet.tallies mark tallied.made, tallied.counts]⟩

theorem below (tallied : Tallied mark s d c) (beneath : s.Beneath t) : Tallied mark t d c :=
  later (s := atDepth 0 s) (t := atDepth 0 t) ⟨tallied.made, tallied.counts⟩ beneath |> fun h => ⟨h.made, h.counts⟩

theorem did (tallied : Tallied mark s d c) (deed : Deed) : Tallied mark (s.did deed) d c :=
  ⟨tallied.made, tallied.counts⟩

theorem recounted (tallied : Tallied mark s d c) (d' c' : Int) : Tallied mark (Run.recounted s mark d' c') d' c' :=
  ⟨tallied.made.trans (Nat.lt_succ_self _), Bindings.lookup_assign_self _ _ _⟩

end Tallied

/-! What the examples give and what they cost. -/

/-- The factorial of a number, which is one below one. -/
def factorialValue (i : Int) : Int := i.toNat.factorial

/-- How many times the factorial asks its thunk. -/
def factorialAsks (i : Int) : Int := max i 0

/-- The Fibonacci number of a number, which is the number itself below two. -/
def fibonacciValue (i : Int) : Int := if i < 2 then i else Nat.fib i.toNat

/-- How many times the Fibonacci numbers ask their thunk. -/
def fibonacciAsks (i : Int) : Int := if 0 ≤ i then 2 * ((Nat.fib (i + 1).toNat : Int) - 1) else 0

theorem factorial_below {i : Int} (below : i < 1) : factorialValue i = 1 ∧ factorialAsks i = 0 := by
  have none : i.toNat = 0 := by omega
  exact ⟨by rw [factorialValue, none]; rfl, by rw [factorialAsks]; omega⟩

theorem factorial_above {i : Int} (above : 1 ≤ i) :
    i * factorialValue (i - 1) = factorialValue i ∧ factorialAsks i = 1 + factorialAsks (i - 1) := by
  obtain ⟨n, rfl⟩ : ∃ n : Nat, i = n + 1 := ⟨(i - 1).toNat, by omega⟩
  have pred : ((n : Int) + 1 - 1).toNat = n := by omega
  have all : ((n : Int) + 1).toNat = n + 1 := by omega
  refine ⟨?_, by rw [factorialAsks, factorialAsks]; omega⟩
  rw [factorialValue, factorialValue, pred, all, Nat.factorial_succ, Nat.cast_mul, Nat.cast_succ]

theorem fibonacci_below {i : Int} (below : i < 2) : fibonacciValue i = i ∧ fibonacciAsks i = 0 := by
  refine ⟨if_pos below, ?_⟩
  rw [fibonacciAsks]
  split
  · obtain rfl | rfl : i = 0 ∨ i = 1 := by omega
    · rfl
    · rfl
  · rfl

theorem fibonacciValue_nat (n : Nat) : fibonacciValue n = Nat.fib n := by
  rw [fibonacciValue, Int.toNat_natCast]
  split
  · obtain rfl | rfl : n = 0 ∨ n = 1 := by omega
    · rfl
    · rfl
  · rfl

theorem fibonacciAsks_nat (n : Nat) : fibonacciAsks n = 2 * ((Nat.fib (n + 1) : Int) - 1) := by
  rw [fibonacciAsks, if_pos (Int.natCast_nonneg n)]
  rfl

theorem fibonacci_above {i : Int} (above : 2 ≤ i) :
    fibonacciValue (i - 1) + fibonacciValue (i - 2) = fibonacciValue i ∧
      fibonacciAsks i = 2 + fibonacciAsks (i - 1) + fibonacciAsks (i - 2) := by
  obtain ⟨n, rfl⟩ : ∃ n : Nat, i = n + 2 := ⟨(i - 2).toNat, by omega⟩
  have one : (n : Int) + 2 - 1 = (n + 1 : Nat) := by omega
  have two : (n : Int) + 2 - 2 = (n : Nat) := by omega
  have all : (n : Int) + 2 = (n + 2 : Nat) := rfl
  have next : Nat.fib (n + 1 + 1) = Nat.fib n + Nat.fib (n + 1) := Nat.fib_add_two
  have last : Nat.fib (n + 2 + 1) = Nat.fib (n + 1) + Nat.fib (n + 1 + 1) := Nat.fib_add_two
  rw [one, two, all]
  refine ⟨?_, ?_⟩
  · rw [fibonacciValue_nat, fibonacciValue_nat, fibonacciValue_nat, next]
    omega
  · rw [fibonacciAsks_nat, fibonacciAsks_nat, fibonacciAsks_nat]
    omega

section

variable (b : Builtin) (mark : Nat) (x y : Value) (name : String) (g : Nat)

/-- A generator of the examples that counts on a tally. -/
def countedGenerator : Value := .counted g name (.builtin b) (.tally mark x y)

/-- What the generator is given: a thunk that counts too. -/
def countedSelf (c thunk : Nat) : Value :=
  .countedThunk c (.thunk thunk (countedGenerator b mark x y name g)) (.tally mark x y)

/-- What the generator makes of such a thunk. -/
def IsCounted (body : Term) (doc : Option String) (f : Value) : Prop :=
  ∃ m c thunk, f = .closure m (unfoldedHeader b doc) body
    [("self", countedSelf b mark x y name g c thunk), ("ΓΠ", outermost)]

variable {b mark x y name g} {body : Term} {doc : Option String} {stops : Stop → Prop} {n : Nat} {s : Store}
  {d c : Int}

/-- A derivation is counted. -/
theorem countedGenerator_attains (thunk : Nat) (defined : definition? b = some (["self"], inner b "fn" ["i"] body doc))
    (tallied : Tallied mark s d c) (room : (Manner.level stops).Room 2 n s) :
    Attains (.level stops) ((Machine.ofFuel n).call (countedGenerator b mark x y name g)
      [.thunk thunk (countedGenerator b mark x y name g)] []) s
      fun f t => f.isCallable = true ∧ IsCounted b mark x y name g body doc f ∧ Tallied mark t (d + 1) c := by
  refine call_attains room (fun f t depth held => ⟨held.1, held.2.1, ⟨held.2.2.made, held.2.2.counts⟩⟩)
    fun n' t _ beneath room' => ?_
  have tallied' := tallied.below beneath
  have bumped : bump (.tally mark x y) .derivations t = .ok () (recounted t mark (d + 1) c) :=
    bump_derivations x y tallied'
  change Attains _ (bump (.tally mark x y) .derivations >>= fun _ => do
    tell (.derived (.tally mark x y))
    (Machine.ofFuel n').app (.builtin b) [.countedThunk (← fresh) (.thunk thunk (countedGenerator b mark x y name g))
      (.tally mark x y)]) t _
  refine .step bumped rfl ((tell_gives _ _).next fun _ u told _ => (fresh_gives u).next fun c' w made _ => ?_)
  have counted := ((tallied'.recounted (d + 1) c).later told).later made
  have room'' : (Manner.level stops).Room 1 n' w := room'.later ((told.trans made).stack.trans rfl)
  refine call_attains room'' (fun f t depth held => ⟨held.1, held.2.1, ⟨held.2.2.made, held.2.2.counts⟩⟩)
    fun n'' z _ below _ => ?_
  refine definition_attains defined rfl ((lam_gives _ _).mono ?_).attains
  rintro f z' quiet ⟨m, rfl⟩
  exact ⟨rfl, ⟨m, c', thunk, rfl⟩, (counted.below below).later quiet⟩

/-- The fixed point of a counted generator. -/
theorem countedDerive_attains (defined : definition? b = some (["self"], inner b "fn" ["i"] body doc))
    (tallied : Tallied mark s d c) (room : (Manner.level stops).Room 2 n s) :
    Attains (.level stops) (derive (.ofFuel n) (countedGenerator b mark x y name g)) s
      fun f t => IsCounted b mark x y name g body doc f ∧ Tallied mark t (d + 1) c :=
  derive_attains fun _ thunk quiet =>
    countedGenerator_attains thunk defined (tallied.later quiet) (room.later quiet.stack)

/-- A call of the thunk is counted, and so is the derivation that it asks for. -/
theorem countedSelf_attains (c' thunk : Nat)
    (defined : definition? b = some (["self"], inner b "fn" ["i"] body doc))
    (tallied : Tallied mark s d c) (room : (Manner.level stops).Room 4 n s) :
    Attains (.level stops) ((Machine.ofFuel n).call (countedSelf b mark x y name g c' thunk) [] []) s
      fun f t => IsCounted b mark x y name g body doc f ∧ Tallied mark t (d + 1) (c + 1) := by
  have steady : Steady fun f t => IsCounted b mark x y name g body doc f ∧ Tallied mark t (d + 1) (c + 1) :=
    fun f t depth held => ⟨held.1, ⟨held.2.made, held.2.counts⟩⟩
  refine call_attains room steady fun n' t _ beneath room' => ?_
  have tallied' := tallied.below beneath
  have bumped : bump (.tally mark x y) .thunkCalls t = .ok () (recounted t mark d (c + 1)) :=
    bump_thunkCalls x y tallied'
  change Attains _ (bump (.tally mark x y) .thunkCalls >>= fun _ => do
    tell (.passed (.tally mark x y) (.thunk thunk (countedGenerator b mark x y name g)) true)
    (Machine.ofFuel n').call (.thunk thunk (countedGenerator b mark x y name g)) [] []) t _
  refine .step bumped rfl ((tell_gives _ _).next fun _ u told _ => ?_)
  have room'' : (Manner.level stops).Room 3 n' u := room'.later (told.stack.trans rfl)
  refine call_attains room'' steady fun n'' w _ below room₃ => ?_
  change Attains _ (tell _ >>= fun _ => derive (.ofFuel n'') (countedGenerator b mark x y name g)) w _
  refine (tell_gives _ _).next fun _ z told' _ => ?_
  exact countedDerive_attains defined ((((tallied'.recounted d (c + 1)).later told).below below).later told')
    (room₃.later told'.stack)

/-- A call that the function goes on to by its thunk costs one asking and one derivation more than the call of
the function itself. -/
theorem countedRecur_attains {i j : Int} {scope : Scope} {w a : Int} {c' thunk : Nat}
    (defined : definition? b = some (["self"], inner b "fn" ["i"] body doc))
    (self : scope.lookup "self" = some (countedSelf b mark x y name g c' thunk))
    (number : scope.lookup "i" = some (.int i)) (tallied : Tallied mark s d c) (room : (Manner.level stops).Room 4 n s)
    (call : ∀ f t, IsCounted b mark x y name g body doc f → Tallied mark t (d + 1) (c + 1) →
      t.stack = s.stack → Attains (.level stops) ((Machine.ofFuel n).call f [.int (i - j)] []) t
        fun r u => r = .int w ∧ Tallied mark u (d + 1 + a) (c + 1 + a)) :
    Attains (.level stops) ((app asked [minus (var "i") (num j)]).eval (.ofFuel n) scope) s
      fun r u => r = .int w ∧ Tallied mark u (d + 1 + a) (c + 1 + a) := by
  refine recur_attains (F := fun f t => IsCounted b mark x y name g body doc f ∧ Tallied mark t (d + 1) (c + 1))
    (Reads.var number) rfl rfl ?_ ?_
  · refine ask_attains (var_yields self).attains ?_
    rintro _ t quiet rfl
    exact countedSelf_attains c' thunk defined (tallied.later quiet) (room.later quiet.stack)
  · rintro f t v u level ⟨counted, tallied'⟩ quiet same
    rw [Value.eq_int_of_unmarked same]
    exact call f u counted (tallied'.later quiet) (quiet.stack.trans level)

/-- What calls of the functions that a counted generator makes give, and how many times they ask. -/
def Charges (b : Builtin) (body : Term) (doc : Option String) (value asks : Int → Int) (stops : Stop → Prop)
    (n : Nat) : Prop :=
  ∀ mark x y name g s d c f i, IsCounted b mark x y name g body doc f → Tallied mark s d c →
    (Manner.level stops).Room (i.toNat + 4) n s →
    Attains (.level stops) ((Machine.ofFuel n).call f [.int i] []) s
      fun w t => w = .int (value i) ∧ Tallied mark t (d + asks i) (c + asks i)

theorem factorial_charges (stops : Stop → Prop) (n : Nat) :
    Charges .factorialGenerator (factorialStep asked (var "i")) "My type is int -> int." factorialValue
      factorialAsks stops n := by
  induction n using Nat.strong_induction_on with
  | _ n ih =>
      rintro mark x y name g s d c f i ⟨m, c', thunk, rfl⟩ tallied room
      refine call_attains room (fun f t depth held => ⟨held.1, held.2.made, held.2.counts⟩)
        fun n' t more beneath room' => closure_attains rfl ?_
      have tallied' := tallied.below beneath
      refine factorialStep_attains (Reads.var rfl) rfl (fun below u quiet => ?_) fun above z before u quiet => ?_
      · rw [Number.less_int, decide_eq_true_iff] at below
        obtain ⟨one, none⟩ := factorial_below below
        rw [one, none, Int.add_zero, Int.add_zero]
        exact ⟨rfl, tallied'.later quiet⟩
      · rw [Number.less_int, decide_eq_false_iff_not, Int.not_lt] at above
        obtain ⟨product, sum⟩ := factorial_above above
        have here := room'.later quiet.stack
        refine (countedRecur_attains (w := factorialValue (i - 1)) (a := factorialAsks (i - 1)) rfl rfl rfl
          (tallied'.later quiet) (here.less (by omega)) ?_).mono ?_
        · intro f v counted again level
          exact ih n' (by omega) mark x y name g v _ _ f (i - 1) counted again
            ((here.later level).less (by omega))
        · rintro w v - ⟨rfl, after⟩
          refine ⟨_, _, rfl, rfl, fun q v' later same => ⟨?_, ?_⟩⟩
          · rw [Value.eq_int_of_unmarked same, product]
          · rw [sum, ← Int.add_assoc, ← Int.add_assoc]
            exact after.later later

theorem fibonacci_charges (stops : Stop → Prop) (n : Nat) :
    Charges .fibonacciGenerator (fibonacciStep asked (var "i")) none fibonacciValue fibonacciAsks stops n := by
  induction n using Nat.strong_induction_on with
  | _ n ih =>
      rintro mark x y name g s d c f i ⟨m, c', thunk, rfl⟩ tallied room
      refine call_attains room (fun f t depth held => ⟨held.1, held.2.made, held.2.counts⟩)
        fun n' t more beneath room' => closure_attains rfl ?_
      have tallied' := tallied.below beneath
      -- Either predecessor is asked for where the one before has been paid for.
      have lesser (j d c : Int) (above : 2 ≤ i) (less : 1 ≤ j) (u : Store) (level : u.stack = t.stack)
          (paid : Tallied mark u d c) :
          Attains (.level stops) ((app asked [minus (var "i") (num j)]).eval (.ofFuel n') [("i", .int i),
            ("self", countedSelf .fibonacciGenerator mark x y name g c' thunk), ("ΓΠ", outermost)]) u
            fun r v => r = .int (fibonacciValue (i - j)) ∧
              Tallied mark v (d + 1 + fibonacciAsks (i - j)) (c + 1 + fibonacciAsks (i - j)) := by
        have here := room'.later level
        refine countedRecur_attains rfl rfl rfl paid (here.less (by omega)) ?_
        intro f v counted again level'
        exact ih n' (by omega) mark x y name g v _ _ f (i - j) counted again
          ((here.later level').less (by omega))
      refine fibonacciStep_attains (A := fun r v => r = .int (fibonacciValue (i - 1)) ∧
        Tallied mark v (d + 1 + fibonacciAsks (i - 1)) (c + 1 + fibonacciAsks (i - 1))) (Reads.var rfl) rfl
        (fun below w u quiet same => ?_) (fun above z before u quiet => ?_) fun above z before w u level held => ?_
      · rw [Number.less_int, decide_eq_true_iff] at below
        obtain ⟨same', none⟩ := fibonacci_below below
        rw [same', none, Int.add_zero, Int.add_zero]
        exact ⟨Value.eq_int_of_unmarked same, tallied'.later quiet⟩
      · rw [Number.less_int, decide_eq_false_iff_not, Int.not_lt] at above
        exact lesser 1 d c above (by omega) u quiet.stack (tallied'.later quiet)
      · rw [Number.less_int, decide_eq_false_iff_not, Int.not_lt] at above
        obtain ⟨rfl, paid⟩ := held
        obtain ⟨sum, total⟩ := fibonacci_above above
        refine (lesser 2 _ _ above (by omega) u level paid).mono ?_
        rintro w v - ⟨rfl, after⟩
        refine ⟨_, _, _, rfl, rfl, rfl, fun q v' later same => ⟨?_, ?_⟩⟩
        · rw [Value.eq_int_of_unmarked same, sum]
        · have all (e : Int) : e + fibonacciAsks i = e + 1 + fibonacciAsks (i - 1) + 1 + fibonacciAsks (i - 2) := by
            omega
          rw [all, all]
          exact after.later later

end

/-- A generator of the examples under a tally, its fixed point, and so many calls of that at a number. -/
def countedCalls (k : Machine) (b : Builtin) (tally : Value) (i : Int) (times : Nat) : Run (List Value) := do
  let counted ← k.call (.builtin .counting) [.builtin b, tally] []
  let f ← k.call (.builtin .fixedPoint) [counted] []
  calls f times
where
  calls (f : Value) : Nat → Run (List Value)
    | 0 => return []
    | times + 1 => return (← k.call f [.int i] []) :: (← calls f times)

section

variable {b : Builtin} {body : Term} {doc : Option String} {value asks : Int → Int} {stops : Stop → Prop}
  {mark n : Nat} {s : Store} {x y : Value} {i : Int}

theorem calls_attains {name : String} {g : Nat} (charges : ∀ n, Charges b body doc value asks stops n) {f : Value}
    (counted : IsCounted b mark x y name g body doc f) (times : Nat) {s : Store} {d c : Int} (tallied : Tallied mark s d c)
    (room : (Manner.level stops).Room (i.toNat + 4) n s) :
    Attains (.level stops) (countedCalls.calls (.ofFuel n) i f times) s fun vs t =>
      vs = List.replicate times (.int (value i)) ∧ Tallied mark t (d + times * asks i) (c + times * asks i) := by
  induction times generalizing s d c with
  | zero =>
      refine .pure ⟨rfl, ?_⟩
      rwa [Nat.cast_zero, Int.zero_mul, Int.add_zero, Int.add_zero]
  | succ times ih =>
      refine (charges n mark x y name g s d c f i counted tallied room).bind ?_
      rintro _ t level ⟨rfl, after⟩
      refine (ih after (room.later level)).bind ?_
      rintro _ u - ⟨rfl, last⟩
      refine .pure ⟨rfl, ?_⟩
      have more (e : Int) : e + ((times + 1 : Nat) : Int) * asks i = e + asks i + times * asks i := by
        rw [Nat.cast_succ, Int.add_mul, Int.one_mul, Int.add_assoc, Int.add_comm (asks i)]
      rwa [more, more]

theorem countedCalls_attains (charges : ∀ n, Charges b body doc value asks stops n)
    (defined : definition? b = some (["self"], inner b "fn" ["i"] body doc)) (times : Nat)
    (fresh : Tallied mark s 0 0) (room : (Manner.level stops).Room (i.toNat + 4) n s) :
    Attains (.level stops) (countedCalls (.ofFuel n) b (.tally mark x y) i times) s fun vs t =>
      vs = List.replicate times (.int (value i)) ∧ Tallied mark t (times * asks i + 1) (times * asks i) := by
  have counting : Attains (.silent stops) ((Machine.ofFuel n).call (.builtin .counting) [.builtin b, .tally mark x y] [])
      s fun v _ => ∃ name g, v = countedGenerator b mark x y name g := by
    have silent : (Manner.silent stops).Room (i.toNat + 3 + 1) n s := room
    refine call_attains silent (steady_value _) fun n' t _ _ _ => Gives.attains ?_
    change Gives (FixedPoint.counting (.builtin b) (.tally mark x y)) t _
    exact .of_run rfl (Quiet.told t 1 t.journal t.deeds) ⟨_, _, rfl⟩
  refine counting.next ?_
  rintro _ t quiet ⟨name, g, rfl⟩
  have built := fixedPoint_attains (g := countedGenerator b mark x y name g)
    (P := fun f t => IsCounted b mark x y name g body doc f ∧ Tallied mark t 1 0)
    (fun f t depth held => ⟨held.1, held.2.made, held.2.counts⟩) (room.later quiet.stack) ?_
  · refine built.bind fun f u level held => ?_
    refine (calls_attains charges held.1 times held.2 ((room.later quiet.stack).later level)).mono fun vs v _ held => ?_
    rwa [Int.zero_add, Int.add_comm] at held
  · rintro n' u _ - beneath ⟨thunk, rfl⟩ room'
    exact countedGenerator_attains thunk defined ((fresh.later quiet).below beneath) (room'.less (by omega))

end

/-- What runs of a counted generator at a number leave on a fresh tally: whatever the ceiling is, one derivation
more than askings, and with each call the same askings again; and nothing but the ceiling stops them. -/
def Costs (b : Builtin) (value asks : Int → Int) : Prop :=
  ∀ (n times mark : Nat) (x y : Value) (i : Int) (s : Store), Tallied mark s 0 0 →
    let run := countedCalls (.ofFuel n) b (.tally mark x y) i times s
    (∀ vs t, run = .ok vs t → vs = List.replicate times (.int (value i)) ∧
      Tallied mark t (times * asks i + 1) (times * asks i)) ∧
    (∀ e t, run = .error e t → e.IsCeiling) ∧
    (Roomy (i.toNat + 4) n s → ∃ vs t, run = .ok vs t)

theorem costs_of_charges {b : Builtin} {body : Term} {doc : Option String} {value asks : Int → Int}
    (charges : ∀ stops n, Charges b body doc value asks stops n)
    (defined : definition? b = some (["self"], inner b "fn" ["i"] body doc)) : Costs b value asks := by
  intro n times mark x y i s fresh run
  have bounded := countedCalls_attains (x := x) (y := y) (n := n) (i := i) (charges Stop.IsCeiling) defined times fresh
    (.inl fun _ => id)
  refine ⟨fun vs t ended => ?_, fun e t stopped => ?_, fun roomy => ?_⟩
  · rcases bounded with ⟨vs', t', run', -, held⟩ | ⟨e, t', run', -⟩
    · cases ended.symm.trans run'
      exact held
    · cases ended.symm.trans run'
  · rcases bounded with ⟨vs', t', run', -, -⟩ | ⟨e', t', run', ceiling⟩
    · cases stopped.symm.trans run'
    · cases stopped.symm.trans run'
      exact ceiling
  · rcases countedCalls_attains (x := x) (y := y) (n := n) (charges fun _ => False) defined times fresh
      (.inr roomy) with ⟨vs, t, run', -, -⟩ | ⟨_, _, _, never⟩
    · exact ⟨vs, t, run'⟩
    · exact never.elim

/-- The factorial of a number asks its thunk once for each number down to one, and the Fibonacci numbers twice
for each but one of as many as the next Fibonacci number is. -/
theorem unfolding_costs : Costs .factorialGenerator factorialValue factorialAsks ∧
    Costs .fibonacciGenerator fibonacciValue fibonacciAsks :=
  ⟨costs_of_charges factorial_charges rfl, costs_of_charges fibonacci_charges rfl⟩

/-- Two calls of the sixth Fibonacci number on a tally of a session that starts. -/
theorem unfolding_costs_fresh : ∃ mark s vs t,
    Run.tally (.int 0) (.int 0) Session.start = .ok (.tally mark (.int 0) (.int 0)) s ∧
    countedCalls (.ofFuel Session.fuel) .fibonacciGenerator (.tally mark (.int 0) (.int 0)) 6 2 s = .ok vs t ∧
    vs = [.int 8, .int 8] ∧ Tallied mark t 49 48 := by
  have costs := unfolding_costs.2 Session.fuel 2 Session.start.nextMark (.int 0) (.int 0) 6
    { Session.start with
      nextMark := Session.start.nextMark + 1
      tallies := Session.start.tallies.assign Session.start.nextMark (.int 0, .int 0) }
    ⟨Nat.lt_succ_self _, rfl⟩
  obtain ⟨counted, -, ends⟩ := costs
  obtain ⟨vs, t, ended⟩ := ends ⟨by decide, 10000, rfl, by decide⟩
  obtain ⟨values, tallied⟩ := counted vs t ended
  exact ⟨_, _, vs, t, rfl, ended, values, tallied⟩

end Knot
