import Knot.Proofs.Demo.Quiet
import Knot.Proofs.Journal.Access

/-!
Evaluation without applications is substitution. An expression of containers, variables and values that stand
for themselves is evaluated to the same expression in new containers, with what the variables are bound to in
their places. If a variable is bound nowhere, the first one from left to right is the fault. The ceiling may
stop the evaluation, but only where the containers are nested deeper than the stack has room for.
-/

namespace Knot

open Run Store

/-- The kind of a container, with the keys that its members stand under if it has any. -/
inductive Shape where
  | list
  | tuple
  | dict (keys : List Value)

namespace Shape

/-- The container of a shape with a mark and members. -/
def make (mark : Nat) (members : List Value) : Shape → Value
  | list => .list mark members
  | tuple => .tuple mark members
  | dict keys => .dict mark (keys.zip members)

end Shape

/-- The shape and the members of a container. -/
def Value.container? : Value → Option (Shape × List Value)
  | .list _ items => some (.list, items)
  | .tuple _ items => some (.tuple, items)
  | .dict _ entries => some (.dict (entries.map Prod.fst), entries.map Prod.snd)
  | _ => Option.none

/-- What is evaluated without an application: values as they are, variables, and containers of these. -/
inductive Expression where
  | leaf (v : Value)
  | var (name : String)
  | node (shape : Shape) (parts : List Expression)

namespace Expression

mutual

/-- The names of the variables, from left to right. -/
def names : Expression → List String
  | leaf _ => []
  | var name => [name]
  | node _ parts => namesAll parts

def namesAll : List Expression → List String
  | [] => []
  | e :: es => e.names ++ namesAll es

end

mutual

/-- How many levels containers are nested in it. -/
def levels : Expression → Nat
  | leaf _ => 0
  | var _ => 0
  | node _ parts => levelsAll parts

def levelsAll : List Expression → Nat
  | [] => 0
  | e :: es => max (e.levels + 1) (levelsAll es)

end

mutual

/-- The expression with what is bound to its variables in their places. -/
def subst (bound : String → Option Value) : Expression → Expression
  | leaf v => leaf v
  | var name =>
      match bound name with
      | some v => leaf v
      | none => var name
  | node shape parts => node shape (substAll bound parts)

def substAll (bound : String → Option Value) : List Expression → List Expression
  | [] => []
  | e :: es => e.subst bound :: substAll bound es

end

theorem induction {P : Expression → Prop} (leaf : ∀ v, P (leaf v)) (var : ∀ name, P (var name))
    (node : ∀ shape parts, (∀ e ∈ parts, P e) → P (node shape parts)) (e : Expression) : P e :=
  Expression.rec (motive_1 := P) (motive_2 := fun parts => ∀ e ∈ parts, P e) leaf var
    (fun shape parts each => node shape parts each) nofun
    (fun _ _ first rest => List.forall_mem_cons.mpr ⟨first, rest⟩) e

/-- An expression as it stands in a store. -/
inductive Reads (s : Store) : Expression → Value → Prop
  | leaf {v : Value} : v.isAtom = true → Reads s (leaf v) v
  | var {mark : Nat} {name : String} : name.startsWith "__" = false → Reads s (var name) (.var mark (.str name))
  | node {v : Value} {shape : Shape} {parts : List Expression} {members : List Value} :
      (s.head v).container? = some (shape, members) → List.Forall₂ (Reads s) parts members →
      Reads s (node shape parts) v

/-- What evaluation makes of an expression whose variables are replaced: the values, which get a mark where they
have none, in new containers of the same shapes. -/
inductive Made (first : Nat) : Expression → Value → Prop
  | leaf {v : Value} : Made first (leaf v) v
  | marked {v w : Value} {t u : Store} : first ≤ t.nextMark → marked v t = .ok w u → Made first (.leaf v) w
  | node {shape : Shape} {parts : List Expression} {mark : Nat} {members : List Value} :
      first ≤ mark → List.Forall₂ (Made first) parts members →
      Made first (node shape parts) (shape.make mark members)

end Expression

/-- Whether so many more levels of calls fit on a stack. -/
def Stack.HasRoom (stack : Stack) (levels : Nat) : Prop :=
  ∀ room, stack.room = some room → stack.depth + levels ≤ min room stack.limit

theorem Stack.HasRoom.less {stack : Stack} {levels more : Nat} (room : stack.HasRoom more)
    (less : levels ≤ more) : stack.HasRoom levels := by
  intro count given
  have below := room count given
  omega

/-- What a run comes to that looks some names up and goes some levels down: what it gives if all of them are
bound, or the fault of the first one that is not. The ceiling stops it only if the levels do not fit. In no
case it leaves a trace but the marks that it gave out. -/
inductive Comes {α : Type} (bound : String → Option Value) (names : List String) (levels n : Nat) (t : Store)
    (P : α → Prop) : EStateM.Result Stop Store α → Prop
  | value {a : α} {j : Nat} : (∀ name ∈ names, (bound name).isSome) → P a →
      Comes bound names levels n t P (.ok a (t.skip j))
  | unbound {name : String} {j : Nat} : names.find? (fun name => (bound name).isNone) = some name →
      Comes bound names levels n t P (.error (.fault (.name (.unbound name))) (t.skip j))
  | refused {j : Nat} : ¬t.stack.HasRoom levels →
      Comes bound names levels n t P (.error (.fault .stackExhausted) ((t.skip j).did .refused))
  | spent {j : Nat} : n < levels → Comes bound names levels n t P (.error .outOfFuel (t.skip j))

namespace Comes

variable {α β : Type} {bound : String → Option Value} {names names' : List String} {levels levels' n : Nat}
  {t : Store} {P : α → Prop} {Q : β → Prop}

theorem pure {a : α} (holds : P a) : Comes bound [] levels n t P ((Pure.pure a : Run α) t) :=
  .value (j := 0) nofun holds

theorem bind {x : Run α} {f : α → Run β} (first : Comes bound names levels n t P (x t))
    (second : ∀ a j, P a → Comes bound names' levels' n (t.skip j) Q (f a (t.skip j))) :
    Comes bound (names ++ names') (max levels levels') n t Q ((x >>= f) t) := by
  generalize run : x t = result at first
  cases first with
  | @value a j known holds =>
      have rest := second a j holds
      rw [bind_of_ok run]
      have none_before : names.find? (fun name => (bound name).isNone) = none := by
        rw [List.find?_eq_none]
        intro name member missing
        have present := known name member
        rw [Option.isNone_iff_eq_none.mp missing] at present
        cases present
      generalize f a (t.skip j) = result at rest
      cases rest with
      | value known' holds =>
          rw [skip_skip]
          exact .value (fun name member => (List.mem_append.mp member).elim (known name) (known' name)) holds
      | unbound found =>
          rw [skip_skip]
          exact .unbound (by rw [List.find?_append, none_before, Option.none_or, found])
      | refused full =>
          rw [skip_skip]
          exact .refused fun room => full (room.less (Nat.le_max_right ..))
      | spent few =>
          rw [skip_skip]
          exact .spent (by omega)
  | unbound found =>
      rw [bind_of_error run]
      exact .unbound (by rw [List.find?_append, found, Option.some_or])
  | refused full =>
      rw [bind_of_error run]
      exact .refused fun room => full (room.less (Nat.le_max_left ..))
  | spent few =>
      rw [bind_of_error run]
      exact .spent (by omega)

/-- What comes after that gives out marks only. -/
theorem next {x : Run α} {f : α → Run β} (first : Comes bound names levels n t P (x t))
    (second : ∀ a j, P a → ∃ b i, f a (t.skip j) = .ok b ((t.skip j).skip i) ∧ Q b) :
    Comes bound names levels n t Q ((x >>= f) t) := by
  have whole : Comes bound (names ++ []) (max levels 0) n t Q ((x >>= f) t) := by
    apply first.bind
    intro a j holds
    obtain ⟨b, i, run, holds⟩ := second a j holds
    rw [run]
    exact .value nofun holds
  rwa [List.append_nil, Nat.max_zero] at whole

/-- An evaluation uses up one level. -/
theorem evaluate {P : Value → Prop} {v env : Value}
    (inner : ∀ n' u, u = t ∨ u = t.inside →
      Comes bound names levels n' u P (Calculus.eval (.ofFuel n') v env u)) :
    Comes bound names (levels + 1) n t P ((Machine.ofFuel n).evaluate v env t) := by
  cases n with
  | zero => exact .spent (j := 0) (Nat.succ_pos levels)
  | succ n =>
      change Comes bound names (levels + 1) (n + 1) t P (deeper (Calculus.eval (.ofFuel n) v env) t)
      by_cases uncounted : t.stack.room.isNone
      · have same : deeper (Calculus.eval (.ofFuel n) v env) t = Calculus.eval (.ofFuel n) v env t := by
          rw [deeper, if_pos uncounted]
        have here := inner n t (.inl rfl)
        rw [same]
        generalize Calculus.eval (.ofFuel n) v env t = result at here
        cases here with
        | value known holds => exact .value known holds
        | unbound found => exact .unbound found
        | refused full => exact .refused fun room => full (room.less (Nat.le_succ _))
        | spent few => exact .spent (Nat.succ_lt_succ few)
      · rw [Bool.not_eq_true] at uncounted
        by_cases full : t.stack.full
        · have refusal : deeper (Calculus.eval (.ofFuel n) v env) t =
              .error (.fault .stackExhausted) ((t.skip 0).did .refused) := by
            rw [deeper, uncounted, full]
            rfl
          rw [refusal]
          refine .refused fun fits => ?_
          unfold Stack.full at full
          split at full
          · next room given =>
              have below := fits room given
              have above := of_decide_eq_true full
              omega
          · cases full
        · rw [Bool.not_eq_true] at full
          have there := inner n t.inside (.inr rfl)
          generalize run : Calculus.eval (.ofFuel n) v env t.inside = result at there
          cases there with
          | value known holds =>
              rw [deeper_of_ok uncounted full run]
              exact .value known holds
          | unbound found =>
              rw [deeper_of_error uncounted full run]
              exact .unbound found
          | refused narrow =>
              rw [deeper_of_error uncounted full run]
              refine .refused fun fits => narrow fun room given => ?_
              have below := fits room given
              change t.stack.depth + 1 + levels ≤ min room t.stack.limit
              omega
          | spent few =>
              rw [deeper_of_error uncounted full run]
              exact .spent (Nat.succ_lt_succ few)

theorem skips {a : α} {u : Store} (comes : Comes bound names levels n t P (.ok a u)) : ∃ j, u = t.skip j := by
  cases comes with
  | value => exact ⟨_, rfl⟩

end Comes

/-- A store in which containers hold, and frames bind, what they do in an earlier one. -/
structure Store.Agrees (s t : Store) : Prop where
  head : t.head = s.head
  frames : t.frames = s.frames
  marks : s.nextMark ≤ t.nextMark

namespace Store.Agrees

variable {s t : Store}

theorem refl (s : Store) : s.Agrees s := ⟨rfl, rfl, Nat.le_refl _⟩

theorem skip (agrees : s.Agrees t) (n : Nat) : s.Agrees (t.skip n) :=
  ⟨agrees.head, agrees.frames, agrees.marks.trans (Nat.le_add_right ..)⟩

theorem inside (agrees : s.Agrees t) : s.Agrees t.inside := ⟨agrees.head, agrees.frames, agrees.marks⟩

theorem bound (agrees : s.Agrees t) (name : String) (chain : List Nat) :
    t.bound? name chain = s.bound? name chain := by
  simp only [bound?, frame, agrees.frames]

end Store.Agrees

/-! What evaluation does with each kind of expression. -/

namespace Calculus

variable (k : Machine) (env : Value) {t : Store} {v : Value}

theorem mapM_entries (f : Value → Run Value) (entries : List (Value × Value)) :
    (entries.mapM fun entry => f entry.2 >>= fun w => pure (entry.1, w)) =
      (entries.map Prod.snd).mapM f >>= fun ws => pure ((entries.map Prod.fst).zip ws) := by
  induction entries with
  | nil => rfl
  | cons entry entries ih =>
      simp only [List.mapM_cons, List.map_cons, ih, bind_assoc, pure_bind, List.zip_cons_cons]

theorem eval_container {shape : Shape} {members : List Value}
    (held : (t.head v).container? = some (shape, members)) :
    eval k v env t =
      (members.mapM (k.evaluate · env) >>= fun ws => fresh >>= fun mark => pure (shape.make mark ws)) t := by
  unfold eval
  cases opened : t.head v with
  | list mark items =>
      rw [opened] at held
      cases held
      rw [bind_of_ok (Machine.head_ok opened)]
      change (Run.members v >>= fun items => items.mapM (k.evaluate · env) >>= list) t = _
      rw [bind_of_ok (members_list opened)]
      rfl
  | tuple mark items =>
      rw [opened] at held
      cases held
      rw [bind_of_ok (Machine.head_ok opened)]
      rfl
  | dict mark entries =>
      rw [opened] at held
      cases held
      rw [bind_of_ok (Machine.head_ok opened)]
      change ((entries.mapM fun entry => k.evaluate entry.2 env >>= fun w => pure (entry.1, w)) >>= dict) t = _
      rw [mapM_entries (k.evaluate · env), bind_assoc]
      rfl
  | _ =>
      rw [opened] at held
      cases held

theorem eval_symbol (mark : Nat) {name : String} (visible : name.startsWith "__" = false)
    (scope : env.IsScope t.frames.size) : eval k (.var mark (.str name)) env t = t.reading name env t :=
  item_reading (plain_of_ordinary visible) scope

end Calculus

theorem bind_congr_at {α β : Type} {x y : Run α} {f : α → Run β} {t : Store} (same : x t = y t) :
    (x >>= f) t = (y >>= f) t := by
  change EStateM.bind x f t = EStateM.bind y f t
  rw [EStateM.bind, EStateM.bind, same]

/-- An evaluation depends on what it comes to here and one level deeper. -/
theorem evaluate_congr {n : Nat} {v env env' : Value} {t : Store}
    (same : ∀ n' u, u = t ∨ u = t.inside →
      Calculus.eval (.ofFuel n') v env' u = Calculus.eval (.ofFuel n') v env u) :
    (Machine.ofFuel n).evaluate v env' t = (Machine.ofFuel n).evaluate v env t := by
  cases n with
  | zero => rfl
  | succ n =>
      have below : Calculus.eval (.ofFuel n) v env' (atDepth (t.stack.depth + 1) t) =
          Calculus.eval (.ofFuel n) v env (atDepth (t.stack.depth + 1) t) := same n t.inside (.inr rfl)
      change Run.deeper (Calculus.eval (.ofFuel n) v env') t = Run.deeper (Calculus.eval (.ofFuel n) v env) t
      simp only [Run.deeper, same n t (.inl rfl), below]

namespace Expression

/-- What an expression that stands in a store comes to, there and wherever containers and frames are the same. -/
def Evaluates (s : Store) (env : Value) (e : Expression) : Prop :=
  ∀ (v : Value) (t : Store) (n : Nat), s.Agrees t → e.Reads s v →
    Comes (s.bound? · env.chain) e.names e.levels n t (Made s.nextMark (e.subst (s.bound? · env.chain)))
      (Calculus.eval (.ofFuel n) v env t)

variable {s t : Store} {env env' : Value} {e : Expression} {parts : List Expression} {members : List Value}

theorem Evaluates.deeper (evaluates : e.Evaluates s env) {v : Value} (n : Nat) (agrees : s.Agrees t)
    (reads : e.Reads s v) :
    Comes (s.bound? · env.chain) e.names (e.levels + 1) n t (Made s.nextMark (e.subst (s.bound? · env.chain)))
      ((Machine.ofFuel n).evaluate v env t) := by
  apply Comes.evaluate
  intro n' u here
  rcases here with rfl | rfl
  · exact evaluates v u n' agrees reads
  · exact evaluates v t.inside n' agrees.inside reads

/-- Parts that are evaluated one after the other come to what each of them does. -/
theorem Evaluates.all {n : Nat} (related : List.Forall₂ (Reads s) parts members)
    (each : ∀ e ∈ parts, e.Evaluates s env) (agrees : s.Agrees t) :
    Comes (s.bound? · env.chain) (namesAll parts) (levelsAll parts) n t
      (List.Forall₂ (Made s.nextMark) (substAll (s.bound? · env.chain) parts))
      (members.mapM ((Machine.ofFuel n).evaluate · env) t) := by
  induction related generalizing t with
  | nil => exact .pure .nil
  | @cons e member parts members read _ ih =>
      have first := (each e (List.mem_cons_self ..)).deeper n agrees read
      rw [List.mapM_cons]
      apply first.bind
      intro r j made
      have rest := ih (fun e member => each e (List.mem_cons_of_mem _ member)) (agrees.skip j)
      apply rest.next
      intro rs i others
      exact ⟨r :: rs, 0, rfl, .cons made others⟩

theorem evaluates (scope : env.IsScope s.frames.size) (e : Expression) : e.Evaluates s env := by
  induction e using Expression.induction with
  | leaf w =>
      intro v t n agrees reads
      cases reads with
      | leaf atom =>
          rw [Machine.eval_atom _ _ atom]
          exact .value (j := 0) nofun .leaf
  | var name =>
      intro v t n agrees reads
      cases reads with
      | var visible =>
          have scope' : env.IsScope t.frames.size := by rwa [agrees.frames]
          rw [Calculus.eval_symbol _ _ _ visible scope', reading, agrees.bound]
          cases known : s.bound? name env.chain with
          | none =>
              apply Comes.unbound (j := 0)
              simp only [names, List.find?_cons, known, Option.isNone_none]
          | some w =>
              obtain ⟨r, j, run⟩ := marked_gives w t
              simp only [run]
              apply Comes.value
              · intro other member
                rw [List.mem_singleton.mp member, known]
                rfl
              · rw [subst, known]
                exact .marked agrees.marks run
  | node shape parts ih =>
      intro v t n agrees reads
      cases reads with
      | node held related =>
          rw [← agrees.head] at held
          rw [Calculus.eval_container _ _ held]
          apply (Evaluates.all related ih agrees).next
          intro rs j made
          have given : s.nextMark ≤ (t.skip j).nextMark := (agrees.skip j).marks
          exact ⟨_, 1, rfl, .node given made⟩

/-- Of an environment, only what it binds to the variables of an expression bears on the evaluation. -/
theorem eval_congr (scope : env.IsScope s.frames.size) (scope' : env'.IsScope s.frames.size) (e : Expression)
    (same : ∀ name ∈ e.names, s.bound? name env'.chain = s.bound? name env.chain) :
    ∀ (v : Value) (t : Store) (n : Nat), s.Agrees t → e.Reads s v →
      Calculus.eval (.ofFuel n) v env' t = Calculus.eval (.ofFuel n) v env t := by
  induction e using Expression.induction with
  | leaf w =>
      intro v t n agrees reads
      cases reads with
      | leaf atom => rw [Machine.eval_atom _ _ atom, Machine.eval_atom _ _ atom]
  | var name =>
      intro v t n agrees reads
      cases reads with
      | var visible =>
          rw [← agrees.frames] at scope scope'
          rw [Calculus.eval_symbol _ _ _ visible scope, Calculus.eval_symbol _ _ _ visible scope', reading, reading,
            agrees.bound, agrees.bound, same name (List.mem_singleton_self name)]
  | node shape parts ih =>
      intro v t n agrees reads
      cases reads with
      | node held related =>
          rw [← agrees.head] at held
          rw [Calculus.eval_container _ _ held, Calculus.eval_container _ _ held]
          apply bind_congr_at
          clear held
          induction related generalizing t with
          | nil => rfl
          | @cons e member parts members read _ rest =>
              have own : ∀ name ∈ e.names, s.bound? name env'.chain = s.bound? name env.chain := fun name among =>
                same name (List.mem_append_left _ among)
              have first : (Machine.ofFuel n).evaluate member env' t = (Machine.ofFuel n).evaluate member env t := by
                apply evaluate_congr
                intro n' u here
                rcases here with rfl | rfl
                · exact ih e (List.mem_cons_self ..) own member u n' agrees read
                · exact ih e (List.mem_cons_self ..) own member t.inside n' agrees.inside read
              have ends := (evaluates scope e).deeper n agrees read
              rw [List.mapM_cons, List.mapM_cons]
              cases run : (Machine.ofFuel n).evaluate member env t with
              | error e u => rw [bind_of_error run, bind_of_error (first.trans run)]
              | ok r u =>
                  rw [run] at ends
                  obtain ⟨j, rfl⟩ := ends.skips
                  rw [bind_of_ok run, bind_of_ok (first.trans run)]
                  apply bind_congr_at
                  exact rest (fun e among => ih e (List.mem_cons_of_mem _ among))
                    (fun name among => same name (List.mem_append_right _ among)) _ (agrees.skip j)

end Expression

/-- An expression without applications is evaluated by substitution: its variables are replaced by what the nearest
frames bind them to, or the first one that is bound nowhere is the fault, unless its containers are nested too
deep for the ceiling. Any other environment that binds its variables alike gives the very same run. -/
theorem eval_substitutes {s : Store} {env v : Value} {e : Expression} (n : Nat) (reads : e.Reads s v)
    (scope : env.IsScope s.frames.size) :
    Comes (s.bound? · env.chain) e.names e.levels n s (Expression.Made s.nextMark (e.subst (s.bound? · env.chain)))
        (Calculus.eval (.ofFuel n) v env s) ∧
      ∀ env' : Value, env'.IsScope s.frames.size →
        (∀ name ∈ e.names, s.bound? name env'.chain = s.bound? name env.chain) →
        Calculus.eval (.ofFuel n) v env' s = Calculus.eval (.ofFuel n) v env s := by
  constructor
  · exact e.evaluates scope v s n (.refl s) reads
  · intro env' scope' same
    exact e.eval_congr scope scope' same v s n (.refl s) reads

/-- A list of a variable that is bound and of a dictionary that holds a tuple with one that is not. -/
def mixedExpression : Expression :=
  .node .list [.var "Υ", .node (.dict [.str "k"]) [.node .tuple [.leaf (.int 1), .var "x"]]]

def mixedValue : Value :=
  .list 16 [.var 17 (.str "Υ"), .dict 18 [(.str "k", .tuple 19 [.int 1, .var 20 (.str "x")])]]

theorem eval_substitutes_mixed :
    mixedExpression.Reads Session.start mixedValue ∧ outermost.IsScope Session.start.frames.size ∧
      Comes (Session.start.bound? · [0]) ["Υ", "x"] 3 9 Session.start
        (Expression.Made 16 (mixedExpression.subst (Session.start.bound? · [0])))
        (Calculus.eval (.ofFuel 9) mixedValue outermost Session.start) := by
  have reads : mixedExpression.Reads Session.start mixedValue := by
    have bound : "Υ".startsWith "__" = false := by decide +kernel
    have unbound : "x".startsWith "__" = false := by decide +kernel
    apply Expression.Reads.node rfl
    refine .cons (.var bound) (.cons (.node rfl ?_) .nil)
    exact .cons (.node rfl (.cons (.leaf rfl) (.cons (.var unbound) .nil))) .nil
  have scope : outermost.IsScope Session.start.frames.size := Nat.zero_lt_one
  exact ⟨reads, scope, (eval_substitutes 9 reads scope).1⟩

/-- Lists in lists. -/
def nestedLists : Nat → Term
  | 0 => .list []
  | n + 1 => .list [nestedLists n]

/-- Lists that are nested deeper than the headroom are not evaluated. -/
theorem nestedLists_refused :
    (match Term.eval (.ofFuel Session.fuel) (.letIn "x" (nestedLists 150)
        (.within (.app (.prim .recursionHeadroom) [.num 100]) "h" (.app (.prim .eval) [.var "x"]))) []
        Session.start with
      | .error (.fault .stackExhausted) _ => true
      | _ => false) = true := by
  decide +kernel

end Knot
