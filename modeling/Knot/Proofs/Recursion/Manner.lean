import Knot.Proofs.Demo.Recursion

/-!
Runs that end with a value or are stopped. A manner says how a run may change the store and what may stop
it: a run that nothing stops ends with a value, and one that only the ceiling may stop either ends with a
value or was called too deep. What a run that leaves no trace gives, it gives in every manner.
-/

namespace Knot

open Run Store Term Prelude

/-- What stops a run where its fuel or the room for calls is used up. -/
inductive Stop.IsCeiling : Stop → Prop
  | fuel : IsCeiling .outOfFuel
  | stack : IsCeiling (.fault .stackExhausted)

/-- How a run may change the store, and what may stop it. -/
structure Manner where
  keeps : Store → Store → Prop
  stops : Stop → Prop
  quiet : ∀ {s t}, Quiet s t → keeps s t
  trans : ∀ {s t u}, keeps s t → keeps t u → keeps s u
  outward : ∀ {s t : Store}, keeps s.inside t → keeps s (atDepth s.stack.depth t)

namespace Manner

/-- Runs that leave no trace. -/
def silent (stops : Stop → Prop) : Manner := ⟨Quiet, stops, id, Quiet.trans, Quiet.outward⟩

/-- Runs that leave no trace and that nothing stops. -/
def sure : Manner := silent fun _ => False

/-- Runs that leave no trace and that the ceiling may stop. -/
def bounded : Manner := silent Stop.IsCeiling

/-- The ceiling may stop a run. -/
def Open (m : Manner) : Prop := ∀ e, e.IsCeiling → m.stops e

theorem bounded_open : bounded.Open := fun _ => id

end Manner

/-- So much fuel, and a stack with room, for some levels of calls. -/
structure Roomy (levels fuel : Nat) (s : Store) : Prop where
  fuel : levels ≤ fuel
  room : ∃ room, s.stack.room = some room ∧ s.stack.depth + levels ≤ min room s.stack.limit

namespace Manner

/-- There is room for so many levels of calls, or the ceiling may stop the run. -/
def Room (m : Manner) (levels fuel : Nat) (s : Store) : Prop := m.Open ∨ Roomy levels fuel s

namespace Room

variable {m : Manner} {levels more n : Nat} {s t : Store}

theorem less (room : m.Room more n s) (less : levels ≤ more) : m.Room levels n s := by
  refine room.imp id fun fits => ?_
  obtain ⟨fuel, room, given, below⟩ := fits
  exact ⟨by omega, room, given, by omega⟩

theorem later (room : m.Room levels n s) (stack : t.stack = s.stack) : m.Room levels n t := by
  refine room.imp id fun ⟨fuel, room⟩ => ⟨fuel, ?_⟩
  rwa [stack]

end Room

end Manner

namespace Run

variable {α β : Type} {m : Manner} {s t : Store} {P Q : α → Store → Prop}

/-- A run that ends with a value, changing the store as the manner allows, or is stopped as it allows. -/
def Attains (m : Manner) (x : Run α) (s : Store) (P : α → Store → Prop) : Prop :=
  (∃ a t, x s = .ok a t ∧ m.keeps s t ∧ P a t) ∨ ∃ e t, x s = .error e t ∧ m.stops e

theorem Gives.attains {x : Run α} (gives : Gives x s P) : Attains m x s P := by
  obtain ⟨a, t, run, quiet, holds⟩ := gives
  exact .inl ⟨a, t, run, m.quiet quiet, holds⟩

namespace Attains

theorem pure {a : α} (holds : P a s) : Attains m (Pure.pure a) s P := (Gives.pure holds).attains

theorem mono {x : Run α} (attains : Attains m x s P) (weaken : ∀ a t, m.keeps s t → P a t → Q a t) :
    Attains m x s Q := by
  refine attains.imp ?_ id
  rintro ⟨a, t, run, keeps, holds⟩
  exact ⟨a, t, run, keeps, weaken a t keeps holds⟩

theorem bind {x : Run α} {f : α → Run β} {R : β → Store → Prop} (first : Attains m x s P)
    (second : ∀ a t, m.keeps s t → P a t → Attains m (f a) t R) : Attains m (x >>= f) s R := by
  rcases first with ⟨a, t, run, keeps, holds⟩ | ⟨e, t, run, stops⟩
  · rcases second a t keeps holds with ⟨b, u, run', keeps', holds'⟩ | ⟨e, u, run', stops⟩
    · exact .inl ⟨b, u, (bind_of_ok run).trans run', m.trans keeps keeps', holds'⟩
    · exact .inr ⟨e, u, (bind_of_ok run).trans run', stops⟩
  · exact .inr ⟨e, t, bind_of_error run, stops⟩

/-- What comes after a step that is known. -/
theorem step {x : Run α} {f : α → Run β} {R : β → Store → Prop} {a : α} (run : x s = .ok a t) (keeps : m.keeps s t)
    (rest : Attains m (f a) t R) : Attains m (x >>= f) s R :=
  bind (.inl ⟨a, t, run, keeps, ⟨rfl, rfl⟩⟩) (P := fun a' t' => a' = a ∧ t' = t)
    fun _ _ _ same => by rw [same.1, same.2]; exact rest

/-- What a run comes to quietly, it attains. -/
theorem of_eq {x y : Run α} (same : x s = y t) (quiet : Quiet s t) (attains : Attains m y t P) :
    Attains m x s P := by
  rcases attains with ⟨a, u, run, keeps, holds⟩ | ⟨e, u, run, stops⟩
  · exact .inl ⟨a, u, same.trans run, m.trans (m.quiet quiet) keeps, holds⟩
  · exact .inr ⟨e, u, same.trans run, stops⟩

/-- What nothing stops ends with a value. -/
theorem gives {x : Run α} (attains : Attains .sure x s P) : Gives x s P := by
  rcases attains with ended | ⟨_, _, _, stops⟩
  · exact ended
  · exact stops.elim

end Attains

/-- What comes after a run that leaves no trace. -/
theorem Attains.next {x : Run α} {f : α → Run β} {R : β → Store → Prop} (first : Attains (.silent m.stops) x s P)
    (second : ∀ a t, Quiet s t → P a t → Attains m (f a) t R) : Attains m (x >>= f) s R := by
  rcases first with ⟨a, t, run, quiet, holds⟩ | ⟨e, t, run, stops⟩
  · exact .of_eq (bind_of_ok run) quiet (second a t quiet holds)
  · exact .inr ⟨e, t, bind_of_error run, stops⟩

theorem Gives.next {x : Run α} {f : α → Run β} {R : β → Store → Prop} (first : Gives x s P)
    (second : ∀ a t, Quiet s t → P a t → Attains m (f a) t R) : Attains m (x >>= f) s R :=
  first.attains.next second

/-! Calls. -/

section

variable {m : Manner} {s : Store} {levels n : Nat} {P : Value → Store → Prop}

/-- One level is used up by each call and each evaluation. -/
theorem deeper_attains {y : Run Value} {x : Machine → Run Value} (room : m.Room (levels + 1) n s)
    (spent : n = 0 → y = outOfFuel) (deep : ∀ n', n = n' + 1 → y = deeper (x (.ofFuel n')))
    (steady : Steady P)
    (inner : ∀ n' t, n = n' + 1 → s.Beneath t → m.Room levels n' t → Attains m (x (.ofFuel n')) t P) :
    Attains m y s P := by
  rcases room with unbounded | fits
  · cases n with
    | zero => exact .inr ⟨.outOfFuel, s, by rw [spent rfl]; rfl, unbounded _ .fuel⟩
    | succ n =>
        rw [deep n rfl]
        by_cases counted : s.stack.room.isNone
        · have same : deeper (x (.ofFuel n)) s = x (.ofFuel n) s := by rw [deeper, if_pos counted]
          rw [Attains, same]
          exact inner n s rfl (Quiet.refl s).beneath (.inl unbounded)
        · rw [Bool.not_eq_true] at counted
          by_cases full : s.stack.full
          · refine .inr ⟨.fault .stackExhausted, s.did .refused, ?_, unbounded _ .stack⟩
            rw [deeper, counted, full]
            rfl
          · rw [Bool.not_eq_true] at full
            rcases inner n s.inside rfl (Beneath.inside s) (.inl unbounded) with
              ⟨v, t, run, keeps, holds⟩ | ⟨e, t, run, stops⟩
            · exact .inl ⟨v, _, deeper_of_ok counted full run, m.outward keeps, steady v t _ holds⟩
            · exact .inr ⟨e, _, deeper_of_error counted full run, stops⟩
  · obtain ⟨enough, room, given, below⟩ := fits
    obtain ⟨n, rfl⟩ : ∃ n', n = n' + 1 := ⟨n - 1, by omega⟩
    have counted : s.stack.room.isNone = false := by rw [given]; rfl
    have full : s.stack.full = false := by
      rw [Stack.full, given]
      exact decide_eq_false (by omega)
    have deep' : Roomy levels n s.inside := by
      refine ⟨by omega, room, given, ?_⟩
      change s.stack.depth + 1 + levels ≤ _
      rw [Nat.add_assoc, Nat.add_comm 1]
      exact below
    rw [deep n rfl]
    rcases inner n s.inside rfl (Beneath.inside s) (.inr deep') with
      ⟨v, t, run, keeps, holds⟩ | ⟨e, t, run, stops⟩
    · exact .inl ⟨v, _, deeper_of_ok counted full run, m.outward keeps, steady v t _ holds⟩
    · exact .inr ⟨e, _, deeper_of_error counted full run, stops⟩

theorem call_attains {f : Value} {args : List Value} {named : Named} (room : m.Room (levels + 1) n s)
    (steady : Steady P)
    (inner : ∀ n' t, n = n' + 1 → s.Beneath t → m.Room levels n' t →
      Attains m (Machine.callValue (.ofFuel n') f args named) t P) :
    Attains m ((Machine.ofFuel n).call f args named) s P :=
  deeper_attains (x := fun k => Machine.callValue k f args named) room (fun empty => by rw [empty]; rfl)
    (fun n' more => by rw [more]; rfl) steady inner

theorem evaluate_attains {v env : Value} (room : m.Room (levels + 1) n s) (steady : Steady P)
    (inner : ∀ n' t, n = n' + 1 → s.Beneath t → m.Room levels n' t →
      Attains m (Calculus.eval (.ofFuel n') v env) t P) :
    Attains m ((Machine.ofFuel n).evaluate v env) s P :=
  deeper_attains (x := fun k => Calculus.eval k v env) room (fun empty => by rw [empty]; rfl)
    (fun n' more => by rw [more]; rfl) steady inner

end

end Run

/-! Terms. -/

namespace Term

variable {m : Manner} {s : Store} {k : Machine} {scope : Scope} {P : Value → Store → Prop}

/-- A call without arguments, where what is called leaves no trace. -/
theorem ask_attains {f : Term} {F : Value → Store → Prop} (callee : Attains (.silent m.stops) (f.eval k scope) s F)
    (call : ∀ g t, Quiet s t → F g t → Attains m (k.call g [] []) t P) :
    Attains m ((app f []).eval k scope) s P := by
  rw [app, eval]
  exact callee.next fun g t quiet holds => call g t quiet holds

/-- A call with one argument. -/
theorem app_attains {f a : Term} {F A : Value → Store → Prop} (callee : Attains m (f.eval k scope) s F)
    (arg : ∀ g t, m.keeps s t → F g t → Attains m (a.eval k scope) t A)
    (call : ∀ g t v u, m.keeps s t → F g t → m.keeps t u → A v u → Attains m (k.call g [v] []) u P) :
    Attains m ((app f [a]).eval k scope) s P := by
  rw [app, eval]
  refine callee.bind fun g t keeps holds => ?_
  have args : Attains m (evalAll k [a] scope) t fun vs u => ∃ v, vs = [v] ∧ A v u := by
    rw [evalAll_one]
    exact (arg g t keeps holds).bind fun v u _ held => .pure ⟨v, rfl, held⟩
  refine args.bind fun vs u keeps' held => ?_
  obtain ⟨v, rfl, held⟩ := held
  exact call g t v u keeps holds keeps' held

/-- A call with one argument, where neither what is called nor the argument leaves a trace. -/
theorem pass_attains {f a : Term} {F A : Value → Store → Prop}
    (callee : Attains (.silent m.stops) (f.eval k scope) s F)
    (arg : ∀ g t, Quiet s t → F g t → Attains (.silent m.stops) (a.eval k scope) t A)
    (call : ∀ g t v u, Quiet s t → F g t → Quiet t u → A v u → Attains m (k.call g [v] []) u P) :
    Attains m ((app f [a]).eval k scope) s P := by
  rw [app, eval]
  refine callee.next fun g t quiet holds => ?_
  have args : Attains (.silent m.stops) (evalAll k [a] scope) t fun vs u => ∃ v, vs = [v] ∧ A v u := by
    rw [evalAll_one]
    exact (arg g t quiet holds).bind fun v u _ held => .pure ⟨v, rfl, held⟩
  refine args.next ?_
  rintro vs u quiet' ⟨v, rfl, held⟩
  exact call g t v u quiet holds quiet' held

theorem ite_attains {c a b : Term} {truth : Bool}
    (condition : Gives (c.eval k scope) s fun v _ => v = .bool truth)
    (first : truth = true → ∀ t, Quiet s t → Attains m (a.eval k scope) t P)
    (second : truth = false → ∀ t, Quiet s t → Attains m (b.eval k scope) t P) :
    Attains m ((ite c a b).eval k scope) s P := by
  obtain ⟨_, t, run, quiet, rfl⟩ := condition
  have decided : (ite c a b).eval k scope s = (if truth then a.eval k scope else b.eval k scope) t := by
    rw [eval, Form.choosing, bind_of_ok run]
    cases truth <;> rfl
  refine .of_eq decided quiet ?_
  cases truth with
  | true => exact first rfl t quiet
  | false => exact second rfl t quiet

theorem binary_attains {op : BinaryOp} {a b : Term} {A : Value → Store → Prop}
    {B : Value → Value → Store → Prop} (left : Attains m (a.eval k scope) s A)
    (right : ∀ v t, m.keeps s t → A v t → Attains m (b.eval k scope) t (B v))
    (computed : ∀ v t w u, m.keeps s t → A v t → m.keeps t u → B v w u → Attains m (Run.binary op v w) u P) :
    Attains m ((binary op a b).eval k scope) s P := by
  rw [eval]
  refine left.bind fun v t keeps holds => ?_
  exact (right v t keeps holds).bind fun w u keeps' held => computed v t w u keeps holds keeps' held

end Term

/-! Functions that are written in the host language run their bodies. -/

section

variable {m : Manner} {s : Store} {k : Machine} {args : List Value} {bound : Scope} {P : Value → Store → Prop}

theorem closure_attains {mark : Nat} {header : Header} {body : Term} {scope : Scope}
    (binds : header.bind args [] = .ok bound) (attains : Attains m (body.eval k (bound ++ scope)) s P) :
    Attains m (Machine.callValue k (.closure mark header body scope) args []) s P := by
  rw [Machine.callValue, Machine.callClosure, binds]
  exact attains

theorem definition_attains {b : Builtin} {params : List String} {body : Term}
    (defined : definition? b = some (params, body))
    (binds : ({ name := b.name, path := b.name, params, plain := false } : Header).bind args [] = .ok bound)
    (attains : Attains m (body.eval k (bound ++ Machine.preludeScope)) s P) :
    Attains m (Machine.callValue k (.builtin b) args []) s P := by
  rw [Machine.callValue, Machine.callBuiltin, defined]
  dsimp only
  rw [binds]
  exact attains

end

end Knot
