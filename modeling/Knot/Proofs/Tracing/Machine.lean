import Knot.Proofs.Effects.Composition

/-!
No machine takes notice of what was printed before: whatever it calls or evaluates ends alike behind any
other text, and prints the same.
-/

namespace Knot

open Run Store

namespace Run

theorem tell_heedless (d : Deed) : Heedless (tell d) := .update fun _ _ => rfl

theorem tally_heedless (derivations thunkCalls : Value) : Heedless (Run.tally derivations thunkCalls) :=
  fresh_tame.heedless.bind fun _ => (Heedless.update fun _ _ => rfl).bind fun _ => .pure _

theorem setLimit_heedless (limit : Nat) : Heedless (setLimit limit) := .update fun _ _ => rfl

theorem enter_heedless (mark : Nat) (limit : Value) : Heedless (enter mark limit) := by
  refine .get (fun s => ?_) fun _ _ => rfl
  split
  · exact .stop _
  · refine (Heedless.update fun _ _ => rfl).bind fun _ => ?_
    exact (Tame.ofExcept _).heedless.bind fun limit => (setLimit_heedless limit).bind fun _ => .pure _

theorem leave_heedless (mark : Nat) : Heedless (leave mark) := by
  refine .get (fun s => ?_) fun _ _ => rfl
  split
  · exact setLimit_heedless _
  · exact .pure _

theorem underLimit_heedless (mark : Nat) (limit : Value) {α : Type} {x : Run α} (heedless : Heedless x) :
    Heedless (underLimit mark limit x) :=
  (enter_heedless mark limit).discard.bind fun _ => heedless.ensuring (leave_heedless mark)

theorem setAttribute_heedless (o : Value) (name : String) (v : Value) : Heedless (setAttribute o name v) := by
  cases o with
  | tally mark d c => exact .update fun _ _ => rfl
  | _ => exact (setAttribute_tame (fun _ _ _ => Value.noConfusion) name v).heedless

end Run

/-- A machine that takes no notice of what was printed. -/
structure Machine.TakesNoNotice (k : Machine) : Prop where
  call : ∀ f args named, Heedless (k.call f args named)
  evaluate : ∀ expr env, Heedless (k.evaluate expr env)

variable {k : Machine}

theorem Run.Composed.heedless {given : Run Value → Prop} (machine : k.TakesNoNotice)
    (others : ∀ x, given x → Heedless x) {α : Type} {x : Run α} (composed : Composed k given x) : Heedless x := by
  induction composed with
  | tame tame => exact tame.heedless
  | given holds => exact others _ holds
  | call f args named => exact machine.call f args named
  | evaluate expr env => exact machine.evaluate expr env
  | tally derivations thunkCalls => exact tally_heedless derivations thunkCalls
  | entered mark limit => exact (tell_heedless .steered).bind fun _ => enter_heedless mark limit
  | left mark limit =>
      exact (tell_heedless .steered).bind fun _ => (leave_heedless mark).bind fun _ => .pure _
  | underLimit mark limit _ ih => exact underLimit_heedless mark limit ih
  | bind _ _ first second => exact first.bind second
  | recover _ _ first second => exact first.recover second
  | get unseen _ second => exact .get second unseen

namespace Machine

open FixedPoint

theorem TakesNoNotice.derive (machine : k.TakesNoNotice) (generator : Value) :
    Heedless (FixedPoint.derive k generator) :=
  (derive_composed generator : Composed k (fun _ => False) _).heedless machine fun _ none => none.elim

theorem bump_heedless (tally : Value) (counter : Counter) : Heedless (bump tally counter) :=
  (getAttribute_tame tally counter.name).heedless.bind fun v => (increment_tame v).heedless.bind fun v =>
    setAttribute_heedless tally counter.name v

theorem TakesNoNotice.derivation (machine : k.TakesNoNotice) {x : Run Value} (derivation : k.Derivation x) :
    Heedless x := by
  cases derivation with
  | build generator => exact (tell_heedless _).bind fun _ => machine.derive generator
  | force generator args named =>
      unfold FixedPoint.force
      split
      · exact (tell_heedless _).bind fun _ => machine.derive generator
      · exact (refuse_tame _ _).heedless
  | deriveCounted generator tally thunk =>
      exact (bump_heedless tally .derivations).bind fun _ => (tell_heedless _).bind fun _ =>
        fresh_tame.heedless.bind fun _ => machine.call _ _ _
  | forceCounted inner tally args named =>
      exact (bump_heedless tally .thunkCalls).bind fun _ => (tell_heedless _).bind fun _ =>
        machine.call _ _ _

/-- No machine with fuel takes notice of what was printed. -/
theorem takesNoNotice_ofFuel (n : Nat) : (ofFuel n).TakesNoNotice := by
  induction n with
  | zero => exact ⟨fun _ _ _ => .stop _, fun _ _ => .stop _⟩
  | succ n ih =>
      constructor
      · intro f args named
        have called : Composed (ofFuel n) (ofFuel n).Derivation (callValue (ofFuel n) f args named) :=
          callValue_composed (fun _ derivation => derivation) f args named
        exact (called.heedless ih fun _ => ih.derivation).deeper
      · intro expr env
        have evaluated : Composed (ofFuel n) (fun _ => False) (Calculus.eval (ofFuel n) expr env) :=
          Calculus.eval_composed expr env
        exact (evaluated.heedless ih fun _ none => none.elim).deeper

end Machine

end Knot
