import Knot.Proofs.Checks.Interleaving
import Knot.Proofs.Demo.Recursion
import Knot.Proofs.Effects.Conservation

/-!
Filling the stack. A function without a base case unfolds itself until a call is refused, whatever the
room is; how often it does so depends on the room only, and the tally counts it.
-/

namespace Knot

open Run Store FixedPoint Builtin

/-- A machine with more fuel, and a stack with room, for so many levels of calls and no more. -/
structure Bounded (levels : Nat) (k : Machine) (s : Store) : Prop where
  fuel : ∃ n, levels < n ∧ k = .ofFuel n
  room : ∃ room, s.stack.room = some room ∧ min room s.stack.limit = s.stack.depth + levels

theorem Bounded.later {levels : Nat} {k : Machine} {s t : Store} (bounded : Bounded levels k s)
    (stack : t.stack = s.stack) : Bounded levels k t := by
  obtain ⟨fuel, room⟩ := bounded
  rw [← stack] at room
  exact ⟨fuel, room⟩

/-- A store that is quiet after another one but for its stack, and in which a tally shows so many
derivations. -/
structure Counted (s₀ : Store) (mark d : Nat) (t : Store) : Prop where
  quiet : Quiet s₀ { t with stack := s₀.stack }
  made : s₀.nextMark ≤ mark
  tallied : ∃ calls, Tallied mark t d calls

namespace Counted

variable {s₀ t u : Store} {mark d : Nat} (counted : Counted s₀ mark d t)
include counted

theorem later (quiet : Quiet t u) : Counted s₀ mark d u where
  quiet := by
    refine counted.quiet.trans ⟨?_, quiet.marks, quiet.size, quiet.frames, quiet.contents, quiet.tallies,
      quiet.entered, ?_⟩
    · exact congrArg (fun u : Store => { u with stack := s₀.stack }) quiet.rest
    · intro new
      have done := quiet.fresh { new with }
      exact { done with }
  made := counted.made
  tallied := by
    obtain ⟨calls, known, counts⟩ := counted.tallied
    exact ⟨calls, known.trans_le quiet.marks, by rw [quiet.tallies mark known, counts]⟩

theorem atDepth (depth : Nat) : Counted s₀ mark d (Run.atDepth depth t) where
  quiet := counted.quiet
  made := counted.made
  tallied := by
    obtain ⟨calls, known, counts⟩ := counted.tallied
    exact ⟨calls, known, counts⟩

theorem did (deed : Deed) : Counted s₀ mark d (t.did deed) :=
  counted.later (Quiet.told t 0 t.journal (deed :: t.deeds))

/-- Other counts of the tally. -/
theorem recounted (derivations : Nat) (calls : Int) :
    Counted s₀ mark derivations (Run.recounted t mark derivations calls) where
  quiet :=
    let quiet := counted.quiet
    { quiet with
      rest := congrArg (fun u : Store => { u with
        nextMark := t.nextMark + 1, tallies := t.tallies.assign mark (.int derivations, .int calls) }) quiet.rest
      marks := quiet.marks.trans (Nat.le_succ _)
      tallies := fun other known =>
        (Bindings.lookup_assign_of_ne _ _ (known.trans_le counted.made).ne).trans (quiet.tallies other known)
      fresh := fun new => { (Quiet.told _ 1 t.journal t.deeds).fresh (quiet.fresh new) with } }
  made := counted.made
  tallied := by
    obtain ⟨_, known, -⟩ := counted.tallied
    exact ⟨calls, known.trans (Nat.lt_succ_self _), Bindings.lookup_assign_self _ _ _⟩

end Counted

/-- How unfolding ends: with a value if there is room enough, and else the stack is full. -/
inductive Unfolds (s₀ : Store) (mark d : Nat) (stack : Stack) (P : Value → Prop) :
    Bool → EStateM.Result Stop Store Value → Prop
  | value {v : Value} {t : Store} : P v → Counted s₀ mark d t → t.stack = stack →
      Unfolds s₀ mark d stack P true (.ok v t)
  | full {t : Store} : Counted s₀ mark d t → t.stack = stack →
      Unfolds s₀ mark d stack P false (.error (.fault .stackExhausted) t)

section

variable {s₀ t u : Store} {mark d levels : Nat} {k : Machine} {P : Value → Prop} {enough : Bool}
  {f : Value} {args : List Value}

/-- Where there is no room left, a call is refused. -/
theorem refused_unfolds (counted : Counted s₀ mark d t) (bounded : Bounded 0 k t) :
    Unfolds s₀ mark d t.stack P false (k.call f args [] t) := by
  obtain ⟨⟨n, fuel, rfl⟩, room, given, same⟩ := bounded
  obtain ⟨n, rfl⟩ : ∃ m, n = m + 1 := ⟨n - 1, by omega⟩
  have full : t.stack.full = true := by
    rw [Stack.full, given]
    exact decide_eq_true (by omega)
  have refused : (Machine.ofFuel (n + 1)).call f args [] t =
      .error (.fault .stackExhausted) (t.did .refused) := by
    change deeper _ t = _
    rw [deeper, given, full]
    rfl
  rw [refused]
  exact .full (counted.did .refused) rfl

/-- One level is used up by a call. -/
theorem call_unfolds (bounded : Bounded (levels + 1) k t)
    (inner : ∀ k', Bounded levels k' t.inside →
      Unfolds s₀ mark d t.inside.stack P enough (Machine.callValue k' f args [] t.inside)) :
    Unfolds s₀ mark d t.stack P enough (k.call f args [] t) := by
  obtain ⟨⟨n, fuel, rfl⟩, room, given, same⟩ := bounded
  obtain ⟨n, rfl⟩ : ∃ m, n = m + 1 := ⟨n - 1, by omega⟩
  have full : t.stack.full = false := by
    rw [Stack.full, given]
    exact decide_eq_false (by omega)
  have counted : t.stack.room.isNone = false := by
    rw [given]
    rfl
  have below : Bounded levels (.ofFuel n) t.inside := by
    refine ⟨⟨n, by omega, rfl⟩, room, given, ?_⟩
    change min room t.stack.limit = t.stack.depth + 1 + levels
    omega
  have outcome := inner (.ofFuel n) below
  change Unfolds s₀ mark d t.stack P enough (deeper (Machine.callValue (.ofFuel n) f args []) t)
  cases run : Machine.callValue (.ofFuel n) f args [] t.inside with
  | ok v u =>
      rw [deeper_of_ok counted full run]
      rw [run] at outcome
      cases outcome with
      | value holds counted stack =>
          refine .value holds (counted.atDepth _) ?_
          exact congrArg (fun stack : Stack => { stack with depth := t.stack.depth }) stack
  | error e u =>
      rw [deeper_of_error counted full run]
      rw [run] at outcome
      cases outcome with
      | full counted stack =>
          refine .full (counted.atDepth _) ?_
          exact congrArg (fun stack : Stack => { stack with depth := t.stack.depth }) stack

/-- A run that gives a value comes before. -/
theorem bind_unfolds {α : Type} {x : Run α} {g : α → Run Value} {a : α} {stack : Stack}
    (run : x t = .ok a u) (rest : Unfolds s₀ mark d stack P enough (g a u)) :
    Unfolds s₀ mark d stack P enough ((x >>= g) t) := by
  rwa [bind_of_ok run]

end

namespace Forever

/-- The tally of the unfoldings, by its mark. -/
def tally (mark : Nat) : Value := .tally mark (.int 0) (.int 0)

/-- The function without a base case, which counts how often it is derived. -/
def generator (mark g e : Nat) (name : String) : Value :=
  .counted g name (.closure e endless forever []) (tally mark)

def header : Header where
  name := "<lambda>"
  path := blownStack.name ++ String.join (List.replicate 2 ".<locals>.<lambda>")
  params := ["i"]
  plain := false
  home := blownStack.home

def body : Term :=
  .binary .mul (.var "i") (.app (.app (.var "self") []) [.binary .sub (.var "i") (.num 1)])

/-- The thunk that the function asks for itself. -/
def self (mark g e : Nat) (name : String) (c thunk : Nat) : Value :=
  .countedThunk c (.thunk thunk (generator mark g e name)) (tally mark)

def function (v : Value) (mark : Nat) : Value := .closure mark header body [("self", v)]

section

variable {s₀ t : Store} {mark d levels g e c thunk : Nat} {name : String} {k : Machine}

/-- What is unfolded is a function that asks a thunk for itself. -/
def IsFunction (mark g e : Nat) (name : String) (v : Value) : Prop :=
  ∃ c thunk m, v = function (self mark g e name c thunk) m

theorem endless_unfolds (counted : Counted s₀ mark d t) (bounded : Bounded levels k t) (thunk : Nat) :
    Unfolds s₀ mark d t.stack (IsFunction mark g e name) (decide (1 ≤ levels))
      (k.app (.closure e endless forever [])
        [.countedThunk c (.thunk thunk (generator mark g e name)) (tally mark)] t) := by
  cases levels with
  | zero => exact refused_unfolds counted bounded
  | succ levels =>
      refine call_unfolds bounded fun k' below => ?_
      refine .value (t := { t.inside with nextMark := t.nextMark + 1 }) ⟨c, thunk, _, rfl⟩ ?_ rfl
      exact (counted.atDepth _).later (Quiet.told _ 1 t.journal t.deeds)

/-- The generator counts one derivation if there is room for the call. -/
theorem generator_unfolds (counted : Counted s₀ mark d t) (bounded : Bounded levels k t) (thunk : Nat) :
    Unfolds s₀ mark (d + min 1 levels) t.stack (IsFunction mark g e name) (decide (2 ≤ levels))
      (k.app (generator mark g e name) [.thunk thunk (generator mark g e name)] t) := by
  cases levels with
  | zero => exact refused_unfolds counted bounded
  | succ levels =>
      have one : d + min 1 (levels + 1) = d + 1 := by omega
      rw [one]
      refine call_unfolds bounded fun k' below => ?_
      have inside := counted.atDepth (t.stack.depth + 1)
      obtain ⟨calls, tallied⟩ := inside.tallied
      have bumped : bump (tally mark) .derivations t.inside = .ok () (recounted t.inside mark (d + 1) calls) :=
        bump_derivations _ _ tallied
      change Unfolds s₀ mark (d + 1) _ (IsFunction mark g e name) _
        ((bump (tally mark) .derivations >>= fun _ => do
          tell (.derived (tally mark))
          k'.app (.closure e endless forever [])
            [.countedThunk (← fresh) (.thunk thunk (generator mark g e name)) (tally mark)]) t.inside)
      refine bind_unfolds bumped ?_
      refine bind_unfolds (a := ()) rfl (bind_unfolds (a := t.nextMark + 1) rfl ?_)
      have more := (inside.recounted (d + 1) calls).later (Quiet.told _ 1 t.journal (.derived (tally mark) :: t.deeds))
      have room : (decide (2 ≤ levels + 1)) = decide (1 ≤ levels) := decide_eq_decide.mpr (by omega)
      rw [room]
      exact endless_unfolds more (below.later rfl) thunk

/-- So does deriving the function. -/
theorem derive_unfolds (counted : Counted s₀ mark d t) (bounded : Bounded levels k t) :
    Unfolds s₀ mark (d + min 1 levels) t.stack (IsFunction mark g e name) (decide (2 ≤ levels))
      (derive k (generator mark g e name) t) := by
  have more := counted.later (Quiet.told t 1 t.journal t.deeds)
  have outcome : Unfolds s₀ mark (d + min 1 levels) t.stack (IsFunction mark g e name) _ _ :=
    generator_unfolds more (bounded.later rfl) t.nextMark
  unfold derive
  refine bind_unfolds (a := t.nextMark) rfl ?_
  generalize decide (2 ≤ levels) = enough at outcome ⊢
  cases run : k.app (generator mark g e name) [.thunk t.nextMark (generator mark g e name)]
      { t with nextMark := t.nextMark + 1 } with
  | ok v u =>
      rw [run] at outcome
      cases outcome with
      | value holds counted stack =>
          refine bind_unfolds run ?_
          obtain ⟨c, thunk, m, rfl⟩ := holds
          exact .value ⟨c, thunk, m, rfl⟩ counted stack
  | error f u =>
      rw [run] at outcome
      cases outcome with
      | full counted stack =>
          rw [bind_of_error run]
          exact .full counted stack

/-- A thunk that is asked takes one level more. -/
theorem thunk_unfolds (counted : Counted s₀ mark d t) (bounded : Bounded levels k t) (thunk : Nat) :
    Unfolds s₀ mark (d + min 1 (levels - 1)) t.stack (IsFunction mark g e name) (decide (3 ≤ levels))
      (k.call (.thunk thunk (generator mark g e name)) [] [] t) := by
  cases levels with
  | zero => exact refused_unfolds counted bounded
  | succ levels =>
      refine call_unfolds bounded fun k' below => ?_
      have more := (counted.atDepth (t.stack.depth + 1)).did (.asked (generator mark g e name))
      have room : (decide (3 ≤ levels + 1)) = decide (2 ≤ levels) := decide_eq_decide.mpr (by omega)
      rw [Nat.add_sub_cancel, room]
      exact derive_unfolds more (below.later rfl)

/-- And so does the thunk around it, which counts too. -/
theorem self_unfolds (counted : Counted s₀ mark d t) (bounded : Bounded levels k t) (c thunk : Nat) :
    Unfolds s₀ mark (d + min 1 (levels - 2)) t.stack (IsFunction mark g e name) (decide (4 ≤ levels))
      (k.call (self mark g e name c thunk) [] [] t) := by
  cases levels with
  | zero => exact refused_unfolds counted bounded
  | succ levels =>
      refine call_unfolds bounded fun k' below => ?_
      have inside := counted.atDepth (t.stack.depth + 1)
      obtain ⟨calls, tallied⟩ := inside.tallied
      have bumped : bump (tally mark) .thunkCalls t.inside = .ok () (recounted t.inside mark d (calls + 1)) :=
        bump_thunkCalls _ _ tallied
      have more := (inside.recounted d (calls + 1)).did (.passed (tally mark) (.thunk thunk (generator mark g e name)) true)
      have room : (decide (4 ≤ levels + 1)) = decide (3 ≤ levels) := decide_eq_decide.mpr (by omega)
      have less : levels + 1 - 2 = levels - 1 := by omega
      rw [less, room]
      refine bind_unfolds bumped (bind_unfolds (a := ()) rfl ?_)
      exact thunk_unfolds more (below.later rfl) thunk

/-- The function asks for itself, and calls what it gets with the number before. -/
theorem body_eval (k : Machine) (v : Value) (i : Int) (s : Store) :
    body.eval k [("i", .int i), ("self", v)] s =
      (k.call v [] [] >>= fun f => Run.binary .sub (.int i) (.int 1) >>= fun less => k.app f [less] >>=
        fun w => Run.binary .mul (.int i) w) s := by
  have number : Form.resolve [("i", .int i), ("self", v)] "i" = pure (.int i) := rfl
  have thunk : Form.resolve [("i", .int i), ("self", v)] "self" = pure v := rfl
  have one : Form.literal (.int 1) = pure (.int 1) := rfl
  simp only [body, Term.app, Term.eval, Term.evalAll, Term.evalNamed, Form.operating, Form.calling, Form.following,
    number, thunk, Term.num, one, pure_bind, bind_assoc]
  rfl

/-- The function never ends otherwise than by filling the stack. Three levels below each of its calls
it is derived again, if there is room for that. -/
theorem function_unfolds (counted : Counted s₀ mark d t) (bounded : Bounded levels k t) {v : Value}
    (isFunction : IsFunction mark g e name v) (i : Int) :
    Unfolds s₀ mark (d + (levels - 3)) t.stack (fun _ => True) false (k.app v [.int i] t) := by
  induction levels generalizing d t k v i with
  | zero => exact refused_unfolds counted bounded
  | succ levels ih =>
      obtain ⟨c, thunk, m, rfl⟩ := isFunction
      refine call_unfolds bounded fun k' below => ?_
      change Unfolds _ _ _ _ _ _ (body.eval k' [("i", .int i), ("self", self mark g e name c thunk)] t.inside)
      rw [body_eval]
      have outcome : Unfolds s₀ mark (d + min 1 (levels - 2)) t.inside.stack (IsFunction mark g e name)
          (decide (4 ≤ levels)) (k'.call (self mark g e name c thunk) [] [] t.inside) :=
        self_unfolds (counted.atDepth _) below c thunk
      generalize room : decide (4 ≤ levels) = enough at outcome
      generalize asked : k'.call (self mark g e name c thunk) [] [] t.inside = r at outcome
      cases outcome with
      | @value f u isFunction more stack =>
          have left : 4 ≤ levels := of_decide_eq_true room
          have counts : d + min 1 (levels - 2) + (levels - 3) = d + (levels + 1 - 3) := by omega
          have deeper := ih (more.later (Quiet.told u 1 u.journal u.deeds)) (below.later stack) isFunction (i - 1)
          rw [counts] at deeper
          rw [bind_of_ok asked]
          refine bind_unfolds (a := .int (i - 1)) rfl ?_
          generalize called : k'.app f [.int (i - 1)] { u with nextMark := u.nextMark + 1 } = r at deeper
          cases deeper with
          | full more' stack' =>
              rw [bind_of_error called]
              exact .full more' (stack'.trans stack)
      | full more stack =>
          have none : ¬4 ≤ levels := of_decide_eq_false room
          have counts : d + min 1 (levels - 2) = d + (levels + 1 - 3) := by omega
          rw [bind_of_error asked]
          rw [counts] at more
          exact .full more stack

end

end Forever

/-! Ceilings. -/

/-- A manager made since is entered. -/
theorem Counted.under {s t : Store} {mark d manager : Nat} (counted : Counted s mark d t)
    (since : s.nextMark ≤ manager) (made : manager < t.nextMark) (limit : Nat) :
    Counted s mark d (t.under manager limit) where
  quiet :=
    let quiet := counted.quiet
    { quiet with
      rest := congrArg (fun u : Store => { u with entered := t.entered.assign manager t.stack.limit }) quiet.rest
      entered := fun other known =>
        (Bindings.lookup_assign_of_ne _ _ (known.trans_le since).ne).trans (quiet.entered other known)
      fresh := fun new =>
        let new := quiet.fresh new
        { new with
          entered := fun other above =>
            (Bindings.lookup_assign_of_ne _ _ (made.trans_le above).ne').trans (new.entered other above) } }
  made := counted.made
  tallied := by
    obtain ⟨calls, known, counts⟩ := counted.tallied
    exact ⟨calls, known, counts⟩

/-- A limit within a word above the depth can be set. -/
theorem limitOf_of_index {depth : Nat} {v : Value} {i : Int} (index : v.index? = .ok (some i))
    (above : (depth : Int) < i) (short : i < Word.shortEnd) : limitOf depth v = .ok i.toNat := by
  have fits : Word.isShort i = true := by
    unfold Word.isShort
    unfold Word.shortEnd at short ⊢
    simp only [Bool.and_eq_true, decide_eq_true_eq]
    omega
  have positive : ¬i ≤ 0 := by omega
  unfold limitOf
  rw [index]
  change (if !Word.isShort i then throw (.overflow .tooLargeForLimit)
    else if i ≤ 0 then throw (.value .limitTooSmall)
    else if i ≤ depth then throw .stackExhausted
    else return i.toNat : Except Fault Nat) = .ok i.toNat
  rw [fits, Bool.not_true, if_neg Bool.false_ne_true, if_neg positive, if_neg (Int.not_le.mpr above)]
  rfl

/-- What is reported of so many derivations. -/
def exhaustionText (derivations : Nat) : String :=
  "RecursionError after " ++ toString (derivations : Int) ++ " derivations"

theorem report_eq (s : Store) {d : Nat} (short : (d : Int) < Word.shortEnd) :
    exhaustionReport (.int d) s = .ok (.str (exhaustionText d)) s := by
  have digits : (d : Int).natAbs < Nat.pow 10 Text.digitLimit := by
    have wide : 10 ≤ Text.digitLimit := by decide
    generalize Text.digitLimit = digits at wide ⊢
    have enough : Nat.pow 10 10 ≤ Nat.pow 10 digits := Nat.pow_le_pow_right (by decide) wide
    unfold Word.shortEnd at short
    exact (show (d : Int).natAbs < 10000000000 by omega).trans_le enough
  have written : shownPlain (.int d) s = .ok (toString (d : Int)) s := by
    have plain : (Value.int d).showPlain s.frame = .ok (toString (d : Int)) := by
      rw [Value.showPlain.eq_def]
      exact (Book.showWith_int s.frame d).trans (Book.integerText_of_short digits)
    change Run.ofExcept ((Value.int d).showPlain s.frame) s = _
    rw [plain]
    rfl
  rw [exhaustionReport, bind_of_ok written]
  rfl

/-- Below so many levels of calls a function without a base case is derived so often. -/
def derivationsWithin (levels : Nat) : Nat := 1 + (levels - 3)

/-- The levels of calls that there are at a depth under a ceiling. -/
def levelsUnder (room depth headroom : Nat) : Nat := min room (depth + headroom) - depth

/-- A block that fills the stack under a manager that was just made: the limit is then the one before. -/
theorem underLimit_fills {t u : Store} {manager limit : Nat} {α : Type} {v : Value} {x : Run α}
    (index : v.index? = .ok (some (limit : Int)))
    (unknown : t.entered.lookup manager = none) (above : t.stack.depth < limit)
    (short : (limit : Int) < Word.shortEnd)
    (fills : x (t.under manager limit) = .error (.fault .stackExhausted) u)
    (noted : u.entered.lookup manager = some t.stack.limit) (stack : u.stack = (t.under manager limit).stack) :
    underLimit manager v x t = .error (.fault .stackExhausted) { u with stack := t.stack } := by
  have sets : limitOf t.stack.depth v = .ok limit :=
    limitOf_of_index index (by omega) short
  have entered : Functor.discard (enter manager v) t = .ok () (t.under manager limit) := by
    have entry := enter_cases manager v t
    generalize result : enter manager v t = r at entry
    cases entry with
    | again known =>
        rw [unknown] at known
        cases known
    | refused _ set =>
        rw [sets] at set
        cases set
    | entered _ set =>
        rw [sets] at set
        cases set
        exact discard_of_ok result
  have left : leave manager u = .ok () { u with stack := t.stack } := by
    rw [leave_eq, noted]
    dsimp only
    rw [stack]
    rfl
  unfold underLimit
  rw [bind_of_ok entered]
  exact bind_of_error ((recover_of_fault fills).trans (bind_of_ok left))

/-- Unfolding a function without a base case under the ceiling that leaves so many calls. -/
theorem unfold_fills {s t : Store} {mark d g e n room frames : Nat} {name : String} {v : Value}
    (counted : Counted s mark d t) (isFunction : Forever.IsFunction mark g e name v) (new : t.Fresh)
    (given : t.stack.room = some room) (fuel : room < n) (below : t.stack.depth < room) (positive : 0 < frames)
    (short : ((t.stack.depth + frames : Nat) : Int) < Word.shortEnd) :
    ∃ u, (do Functor.discard (under (← headroom (.int frames)) ((Machine.ofFuel n).app v [.int 1])) : Run Unit) t =
        .error (.fault .stackExhausted) u ∧
      u.stack = t.stack ∧ Counted s mark (d + (levelsUnder room t.stack.depth frames - 3)) u := by
  -- the manager is made and entered
  let limit := t.stack.depth + frames
  let manager := t.nextMark + 1
  let made : Store := { t with nextMark := t.nextMark + 2 }
  have manages : headroom (.int frames) t = .ok (.manager manager (.int limit)) made := rfl
  have unknown : made.entered.lookup manager = none := new.entered manager (Nat.le_succ _)
  have since : s.nextMark ≤ manager := counted.quiet.marks.trans (Nat.le_succ _)
  have entered : Counted s mark d (made.under manager limit) :=
    (counted.later (Quiet.told t 2 t.journal t.deeds)).under since (Nat.lt_succ_self _) limit
  -- the function fills the stack
  have bounded : Bounded (levelsUnder room t.stack.depth frames) (.ofFuel n) (made.under manager limit) := by
    refine ⟨⟨n, ?_, rfl⟩, room, given, ?_⟩
    · unfold levelsUnder
      omega
    · change min room limit = t.stack.depth + levelsUnder room t.stack.depth frames
      unfold levelsUnder
      omega
  have fills := Forever.function_unfolds entered bounded isFunction 1
  generalize run : (Machine.ofFuel n).app v [.int 1] (made.under manager limit) = r at fills
  cases fills with
  | @full u filled stack =>
      have noted : u.entered.lookup manager = some t.stack.limit :=
        ((Machine.keeps_ceiling n).call _ _ _ _ _ (.fault run)).noted manager _
          (Bindings.lookup_assign_self _ _ _)
      have above : made.stack.depth < limit := Nat.lt_add_of_pos_right positive
      have limited : under (.manager manager (.int limit)) ((Machine.ofFuel n).app v [.int 1]) made =
          .error (.fault .stackExhausted) { u with stack := t.stack } :=
        underLimit_fills rfl unknown above short run noted stack
      refine ⟨{ u with stack := t.stack }, ?_, rfl, ?_⟩
      · rw [bind_of_ok manages]
        exact map_of_error _ limited
      · exact ⟨filled.quiet, filled.made, filled.tallied.imp fun _ tallied => ⟨tallied.made, tallied.counts⟩⟩

/-- Unfolding without an end under a ceiling: the report tells how often there was room for it. -/
theorem blowStack_yields {s : Store} {n room frames : Nat} (new : s.Fresh)
    (given : s.stack.room = some room) (fuel : room < n) (affords : s.stack.depth + 2 ≤ min room s.stack.limit)
    (positive : 0 < frames) (short : ((s.stack.depth + frames : Nat) : Int) < Word.shortEnd) :
    Yields (blowStack (.ofFuel n) (.int frames)) s
      (.str (exhaustionText (derivationsWithin (levelsUnder room s.stack.depth frames)))) := by
  -- the tally, the generator and its function
  let mark := s.nextMark
  let s₁ : Store := { s with nextMark := mark + 1, tallies := s.tallies.assign mark (.int 0, .int 0) }
  have started : Counted s mark 0 s₁ :=
    ⟨⟨rfl, Nat.le_succ _, Nat.le_refl _, fun _ _ => rfl, fun _ _ => rfl,
        fun other known => Bindings.lookup_assign_of_ne _ _ known.ne, fun _ _ => rfl,
        fun new => { (Quiet.told s 1 s.journal s.deeds).fresh new with }⟩,
      Nat.le_refl _, 0, Nat.lt_succ_self _, Bindings.lookup_assign_self _ _ _⟩
  let generator := Forever.generator mark (mark + 2) (mark + 1) "counting(<lambda>)"
  have prepared := (started.later (Quiet.told s₁ 2 s.journal s.deeds)).did (.built generator)
  have bounded : Bounded (min room s.stack.limit - s.stack.depth) (.ofFuel n)
      (Store.did { s₁ with nextMark := mark + 3 } (.built generator)) := by
    refine ⟨⟨n, by omega, rfl⟩, room, given, ?_⟩
    change min room s.stack.limit = s.stack.depth + _
    omega
  have enough : decide (2 ≤ min room s.stack.limit - s.stack.depth) = true := decide_eq_true (by omega)
  have once : 0 + min 1 (min room s.stack.limit - s.stack.depth) = 1 := by omega
  have built : Unfolds s mark _ _ (Forever.IsFunction mark (mark + 2) (mark + 1) "counting(<lambda>)") _
      (derive _ generator _) := Forever.derive_unfolds prepared bounded
  rw [enough, once] at built
  generalize derived : FixedPoint.derive _ _ _ = r at built
  cases built with
  | @value v t isFunction counted stack =>
      have new' : t.Fresh := { counted.quiet.fresh new with }
      have same : t.stack = s.stack := stack
      rw [← same] at given affords short ⊢
      obtain ⟨u, filled, stack', counted'⟩ :=
        unfold_fills counted isFunction new' given fuel (by omega) positive short
      obtain ⟨calls, tallied⟩ := counted'.tallied
      have few : (derivationsWithin (levelsUnder room t.stack.depth frames) : Int) < Word.shortEnd := by
        unfold derivationsWithin levelsUnder
        unfold Word.shortEnd at short ⊢
        omega
      have quiet : Quiet s u := by
        have quiet := counted'.quiet
        rwa [← same, ← stack'] at quiet
      refine .of_run (t := u) ?_ quiet rfl
      have begun : Run.tally (.int 0) (.int 0) s = .ok (Forever.tally mark) s₁ := rfl
      have marks : fresh s₁ = .ok (mark + 1) { s₁ with nextMark := mark + 2 } := rfl
      have generates : counting (.closure (mark + 1) endless forever []) (Forever.tally mark)
          { s₁ with nextMark := mark + 2 } = .ok generator { s₁ with nextMark := mark + 3 } := rfl
      have builds : build (.ofFuel n) generator { s₁ with nextMark := mark + 3 } = .ok v t := derived
      have shows : getAttribute (Forever.tally mark) "derivations" u =
          .ok (.int (derivationsWithin (levelsUnder room t.stack.depth frames))) u :=
        (getAttribute_counter _ _ tallied).1
      unfold blowStack
      rw [bind_of_ok begun, bind_of_ok marks, bind_of_ok generates, bind_of_ok builds]
      have fills : (do
          Functor.discard (under (← headroom (.int frames)) ((Machine.ofFuel n).app v [.int 1]))
          fault (← mismatch .none (.str "RecursionError") (.str "no base case")) : Run Value) t =
            .error (.fault .stackExhausted) u := by
        rw [← bind_assoc]
        exact bind_of_error filled
      exact (recover_of_fault fills).trans ((bind_of_ok shows).trans (report_eq u few))

end Knot
