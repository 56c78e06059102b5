import Knot.Proofs.Effects.Still

/-!
What machines do, put together of what values do by themselves, of calls and evaluations of the machine
below, and of tallies, managers and fixed points. What holds of these and goes on from run to run holds
of all that a machine does.
-/

namespace Knot

open Run Store

/-- What a machine does with the thunks of generators. -/
inductive Machine.Derivation (k : Machine) : Run Value → Prop
  | build (generator : Value) : k.Derivation (FixedPoint.build k generator)
  | force (generator : Value) (args : List Value) (named : Named) :
      k.Derivation (FixedPoint.force k generator args named)
  | deriveCounted (generator tally thunk : Value) :
      k.Derivation (FixedPoint.deriveCounted k generator tally thunk)
  | forceCounted (inner tally : Value) (args : List Value) (named : Named) :
      k.Derivation (FixedPoint.forceCounted k inner tally args named)

/-- A run that is put together of others, some of which are given. -/
inductive Run.Composed (k : Machine) (given : Run Value → Prop) : ∀ {α : Type}, Run α → Prop
  | tame {α : Type} {x : Run α} : Tame x → Composed k given x
  | given {x : Run Value} : given x → Composed k given x
  | call (f : Value) (args : List Value) (named : Named) : Composed k given (k.call f args named)
  | evaluate (expr env : Value) : Composed k given (k.evaluate expr env)
  | tally (derivations thunkCalls : Value) : Composed k given (Run.tally derivations thunkCalls)
  | entered (mark : Nat) (limit : Value) : Composed k given (Method.enter (.manager mark limit))
  | left (mark : Nat) (limit : Value) : Composed k given (Method.leave (.manager mark limit))
  | underLimit (mark : Nat) (limit : Value) {α : Type} {x : Run α} :
      Composed k given x → Composed k given (Run.underLimit mark limit x)
  | bind {α β : Type} {x : Run α} {h : α → Run β} :
      Composed k given x → (∀ a, Composed k given (h a)) → Composed k given (x >>= h)
  | recover {α : Type} {x : Run α} {h : Fault → Run α} :
      Composed k given x → (∀ f, Composed k given (h f)) → Composed k given (Run.recover x h)
  | get {β : Type} {h : Store → Run β} : (∀ text s, h (s.behind text) = h s) →
      (∀ s, Composed k given (h s)) → Composed k given ((MonadState.get : Run Store) >>= h)

variable {k : Machine} {given : Run Value → Prop}

namespace Run

variable {α β : Type} {x : Run α}

theorem Tame.composed (tame : Tame x) : Composed k given x := .tame tame

namespace Composed

theorem pure (a : α) : Composed k given (Pure.pure a : Run α) := .tame (.pure a)

theorem fault (f : Fault) : Composed k given (Run.fault f : Run α) := .tame (.fault f)

theorem ofExcept (r : Except Fault α) : Composed k given (Run.ofExcept r) := .tame (.ofExcept r)

theorem map (f : α → β) (composed : Composed k given x) : Composed k given (f <$> x) := by
  simpa only [bind_pure_comp] using composed.bind fun a => pure (f a)

theorem discard (composed : Composed k given x) : Composed k given (Functor.discard x) := composed.map _

theorem ite {c : Prop} [Decidable c] {y : Run α} (yes : Composed k given x) (no : Composed k given y) :
    Composed k given (if c then x else y) := by
  split
  · exact yes
  · exact no

theorem mapM {h : α → Run β} (step : ∀ a, Composed k given (h a)) (as : List α) :
    Composed k given (as.mapM h) := by
  induction as with
  | nil => exact pure []
  | cons a as ih =>
      simp only [List.mapM_cons]
      exact (step a).bind fun b => ih.bind fun bs => pure (b :: bs)

theorem ensuring {last : Run Unit} (composed : Composed k given x) (ends : Composed k given last) :
    Composed k given (Run.ensuring x last) :=
  (composed.recover fun f => ends.bind fun _ => fault f).bind fun a => ends.bind fun _ => pure a

theorem underSameLimit (manager : Value) (composed : Composed k given x) :
    Composed k given (Run.underSameLimit manager x) := by
  cases manager with
  | manager mark limit =>
      exact .get (fun _ _ => rfl) fun s => .ite (.fault _)
        (fresh_tame.composed.bind fun mark => .underLimit mark limit composed)
  | _ => exact .fault _

end Composed

end Run

namespace FixedPoint

theorem derive_composed (generator : Value) :
    Composed k given (derive k generator) := by
  refine fresh_tame.composed.bind fun mark => ?_
  refine (Composed.call generator [.thunk mark generator] []).bind fun result => .ite (.pure result) ?_
  exact (shownPlain_tame generator).composed.bind fun _ => (shown_tame result).composed.bind fun _ => .fault _

end FixedPoint

namespace Calculus

theorem mapGrid_composed {f : Value → Run Value} (step : ∀ v, Composed k given (f v)) (v : Value) :
    Composed k given (mapGrid f v) :=
  (now_tame v).composed.bind fun _ => (Composed.ofExcept _).bind fun grid =>
    (Composed.mapM (fun v => (marked_tame v).composed.bind step) grid.data).bind fun results =>
      (array_tame .object grid.shape results).composed

theorem bindAll_composed (target caller : Value) (params args : List Value) :
    Composed k given (bindAll k target caller params args) := by
  induction params generalizing args with
  | nil => cases args <;> exact .pure _
  | cons param params ih =>
      cases args with
      | nil => exact .pure _
      | cons arg args =>
          refine (frameOf_tame target).composed.bind fun id => (Composed.evaluate arg caller).bind fun v => ?_
          refine (nameOf_tame param).composed.bind fun name => ?_
          exact (writing_tame .call (bind_tame id name v)).composed.bind fun _ => ih args

theorem apply_composed (proc args caller : Value) : Composed k given (Calculus.apply k proc args caller) := by
  cases proc with
  | procedure mark code closed =>
      refine (item_tame code _).composed.bind fun params => (length_tame params).composed.bind fun expected => ?_
      refine (length_tame args).composed.bind fun given => .ite ?_ ?_
      · exact (wrongCount_tame _ params args expected given).composed.bind fun f => .fault f
      · refine (callFrame_tame params closed).composed.bind fun env => ?_
        refine (members_tame params).composed.bind fun params => (members_tame args).composed.bind fun args => ?_
        refine (bindAll_composed env caller params args).bind fun _ => ?_
        exact (item_tame code _).composed.bind fun body => .call body [env] []
  | _ => exact (shown_tame _).composed.bind fun _ => .fault _

theorem evalApplication_composed (expr env : Value) : Composed k given (evalApplication k expr env) := by
  refine (getAttribute_tame expr "head").composed.bind fun head => ?_
  have rest (proc : Value) : Composed k given (do
      let args ← (← members (← getAttribute expr "args")).mapM (k.evaluate · env)
      Calculus.apply k proc (← list args) env) :=
    (getAttribute_tame expr "args").composed.bind fun args => (members_tame args).composed.bind fun args =>
      (Composed.mapM (fun arg => .evaluate arg env) args).bind fun args =>
        (list_tame args).composed.bind fun args => apply_composed proc args env
  cases head with
  | str name => exact (item_tame env (.str name)).composed.bind rest
  | _ => exact (Composed.evaluate _ env).bind rest

theorem eval_composed (expr env : Value) : Composed k given (Calculus.eval k expr env) := by
  refine (head_tame expr).composed.bind fun v => ?_
  have each (vs : List Value) : Composed k given (vs.mapM (k.evaluate · env)) :=
    .mapM (fun v => .evaluate v env) vs
  cases v with
  | dict mark entries =>
      exact (Composed.mapM (fun entry => (Composed.evaluate entry.2 env).bind fun v =>
        .pure (entry.1, v)) entries).bind fun entries => (dict_tame entries).composed
  | tuple mark items => exact (each items).bind fun vs => (tuple_tame vs).composed
  | list mark items =>
      exact (members_tame expr).composed.bind fun vs => (each vs).bind fun vs => (list_tame vs).composed
  | array mark dtype shape data => exact mapGrid_composed (fun v => .evaluate v env) expr
  | var mark sym => exact (item_tame env sym).composed
  | application mark head args closed => exact evalApplication_composed expr env
  | _ => exact .pure _

theorem evalTagged_composed (expr env tag : Value) : Composed k given (evalTagged k expr env tag) := by
  refine (binary_tame .equal tag (.str "debug")).composed.bind fun same => ?_
  refine (truth_tame same).composed.bind fun traced => ?_
  cases traced with
  | true => exact (echoEval_tame expr env tag).composed.bind fun _ => eval_composed expr env
  | false => exact eval_composed expr env

end Calculus

namespace Run

theorem append_composed (target entry : Value) : Composed k given (append k target entry) := by
  cases target with
  | list mark items =>
      exact Tame.composed (.update (fun _ _ => rfl) fun _ => ⟨rfl, rfl, rfl, rfl, Nat.le_refl _⟩)
  | environment id outer =>
      exact (lookup_tame (.environment id outer) "append").composed.bind fun f =>
        (Composed.call f [entry] []).discard
  | _ => exact .fault _

theorem record_composed (results label : Value) (ok : Bool) :
    Composed k given (record k results label ok) :=
  (tuple_tame [label, .bool ok]).composed.bind fun entry => append_composed results entry

theorem failed_composed (strict trace results label : Value) (f : Fault) :
    Composed k given (failed k strict trace results label f) := by
  cases f with
  | mismatch a b c shown =>
      refine (record_composed results label false).bind fun _ => ?_
      refine (truth_tame trace).composed.bind fun traced => ?_
      have ended : Composed k given (do
          if ← truth strict then fault (.mismatch a b c shown) else return none :
          Run (Option Value)) :=
        (truth_tame strict).composed.bind fun _ => .ite (.fault _) (.pure _)
      cases traced with
      | true =>
          exact (echo_tame (.str "AssertionFailure") (.str shown)).composed.discard.bind fun _ => ended
      | false => exact ended
  | _ => exact .fault _

theorem checkEq_composed (run actual expected label : Value) :
    Composed k given (checkEq k run actual expected label) := by
  cases run with
  | checkRun mark name strict trace results =>
      refine (checkLabel_tame name results label).composed.bind fun label => ?_
      refine (Composed.recover ((assertEq_tame actual expected label).composed.map some)
        (failed_composed strict trace results label)).bind fun outcome => ?_
      cases outcome with
      | none => exact .pure _
      | some v => exact (record_composed results label true).bind fun _ => .pure _
  | _ => exact .fault _

end Run

namespace Method

theorem enter_composed (owner : Value) : Composed k given (Method.enter owner) := by
  cases owner with
  | manager mark limit => exact .entered mark limit
  | _ => exact .pure _

theorem leave_composed (owner : Value) : Composed k given (Method.leave owner) := by
  cases owner with
  | manager mark limit => exact .left mark limit
  | checkRun mark name strict trace results =>
      exact (closeRun_tame name trace results).composed.bind fun _ => .pure _
  | _ => exact .pure _

theorem act_composed (owner : Value) (m : Method) (values : List (Option Value)) :
    Composed k given (m.act k owner values) := by
  unfold act
  dsimp only
  split
  · exact (getAttribute_tame owner "π").composed.bind fun _ => .pure _
  · exact (binding_tame owner _).composed
  · exact checkEq_composed owner _ _ _
  · exact (getAttribute_tame owner "name").composed.bind fun name =>
      (getAttribute_tame owner "results").composed.bind fun results => (summary_tame name results).composed
  · exact (shown_tame owner).composed.bind fun _ => .pure _
  · exact (shownPlain_tame owner).composed.bind fun _ => .pure _
  · exact (length_tame owner).composed.bind fun _ => .pure _
  · exact (item_tame owner _).composed
  · exact (nameOf_tame _).composed.bind fun name => (missing_tame owner name).composed
  · exact (equality_tame owner _).composed
  · exact enter_composed owner
  · exact leave_composed owner
  · exact .pure _

theorem call_composed (owner : Value) (m : Method) (args : List Value) (named : Named) :
    Composed k given (m.call k owner args named) := by
  unfold call
  split
  · exact .call owner args named
  · split
    · rename_i known
      exact (Collection.call?_tame owner _ args named known).composed
    · exact (Composed.ofExcept _).bind fun values => act_composed owner m values

theorem callUnbound_composed (kd : Kind) (m : Method) (args : List Value) (named : Named) :
    Composed k given (m.callUnbound k kd args named) := by
  unfold callUnbound
  split
  · exact .call _ _ named
  · exact (Composed.ofExcept _).bind fun values => act_composed _ m _

end Method

namespace Kind

theorem make_composed (kd : Kind) (values : List (Option Value)) : Composed k given (kd.make values) := by
  unfold make
  dsimp only
  split
  · exact (fresh_then _).composed
  · exact (listed_tame _).composed.bind fun _ => (fresh_then _).composed
  · exact .tally _ _
  · exact (Calculus.newProcedure_tame _ _).composed
  · exact (fresh_then _).composed
  · exact (listed_tame _).composed.bind fun _ => (fresh_then _).composed
  · exact .pure _

theorem call_composed (kd : Kind) (args : List Value) (named : Named) :
    Composed k given (kd.call args named) := by
  unfold call
  split
  · exact (Composed.ofExcept _).bind fun values => (makeText_tame values).composed
  · exact (Composed.ofExcept _).bind fun values => make_composed _ values
  · exact .fault _

end Kind

namespace Builtin

variable (fixes : ∀ x, k.Derivation x → given x)
include fixes

theorem blowStack_composed (frames : Value) : Composed k given (blowStack k frames) := by
  refine (Composed.tally (.int 0) (.int 0)).bind fun tally => fresh_tame.composed.bind fun mark => ?_
  refine (FixedPoint.counting_tame _ tally).composed.bind fun generator => ?_
  refine (Composed.given (fixes _ (.build generator))).bind fun unfold => .recover ?_ fun f => ?_
  · refine (headroom_tame frames).composed.bind fun manager => ?_
    have block : Composed k given (under manager (k.app unfold [.int 1])) := by
      cases manager with
      | manager mark limit => exact .underLimit mark limit (Composed.call unfold [.int 1] [])
      | _ => exact .fault _
    exact block.discard.bind fun _ => (mismatch_tame _ _ _).composed.bind fun f => .fault f
  · cases f with
    | stackExhausted =>
        exact (getAttribute_tame tally "derivations").composed.bind fun n =>
          (shownPlain_tame n).composed.bind fun _ => .pure _
    | _ => exact .fault _

theorem act_composed (b : Builtin) (values : List (Option Value)) : Composed k given (act k b values) := by
  unfold act
  dsimp only
  split
  · exact .given (fixes _ (.build _))
  · exact (FixedPoint.adapter_tame _).composed
  · exact (Run.assertEq_tame _ _ _).composed
  · exact (FixedPoint.counting_tame _ _).composed
  · exact stackDepth_tame.composed
  · exact (manager_tame _).composed
  · exact (headroom_tame _).composed
  · exact Calculus.mapGrid_composed (fun v => (Composed.ofExcept _).bind fun i => .call _ [.int i] []) _
  · exact (Run.echo_tame _ _).composed
  · exact (Calculus.lambda_tame _ _ _).composed
  · exact Calculus.evalTagged_composed _ _ _
  · exact Calculus.evalApplication_composed _ _
  · split
    · exact (list_tame []).composed.bind fun args => Calculus.apply_composed _ args _
    · exact (Composed.pure _).bind fun args => Calculus.apply_composed _ args _
  · exact (Calculus.define_tame _ _ _).composed
  · exact blowStack_composed fixes _
  · exact (newEnvironment_tame _ _ _).composed
  · exact .pure _

theorem call_composed (b : Builtin) (args : List Value) (named : Named) :
    Composed k given (b.call k args named) := by
  unfold call
  split
  · exact (Composed.ofExcept _).bind fun _ => .pure _
  · exact (Composed.ofExcept _).bind fun v => (shown_tame v).composed.bind fun _ => .pure _
  · exact (Composed.ofExcept _).bind fun v => (length_tame v).composed.bind fun _ => .pure _
  · split
    · exact recursionLimit_tame.composed
    · exact .fault _
    · exact .fault _
  · exact (Composed.ofExcept _).bind fun values => act_composed fixes b values

end Builtin

namespace Form

theorem managing_composed {manager : Run Value} {body : Value → Run Value}
    (first : Composed k given manager) (second : ∀ v, Composed k given (body v)) :
    Composed k given (managing manager body) := by
  refine first.bind fun v => ?_
  cases v with
  | manager mark limit => exact .underLimit mark limit (second limit)
  | checkRun mark name strict trace results =>
      exact (second _).ensuring (closeRun_tame name trace results).composed
  | _ => exact .fault _

end Form

namespace Term

mutual

theorem eval_composed (t : Term) (scope : Scope) :
    Composed k given (t.eval k scope) := by
  cases t with
  | lit l => exact (Form.literal_tame l).composed
  | var name => exact (Form.resolve_tame scope name).composed
  | prim b => exact .pure _
  | define name e =>
      exact (eval_composed e scope).bind fun v =>
        (Form.defined_tame name v).composed.bind fun _ => .pure v
  | letIn name e body => exact (eval_composed e scope).bind fun v => eval_composed body _
  | call f args named =>
      exact (eval_composed f scope).bind fun f => (evalAll_composed args scope).bind fun args =>
        (evalNamed_composed named scope).bind fun named => .call f args (Form.merged named)
  | lam header body => exact (fresh_then _).composed
  | ite c a b =>
      exact (eval_composed c scope).bind fun v => (truth_tame v).composed.bind fun _ =>
        .ite (eval_composed a scope) (eval_composed b scope)
  | not a =>
      exact (eval_composed a scope).bind fun v => (truth_tame v).composed.bind fun _ => .pure _
  | binary op a b =>
      exact (eval_composed a scope).bind fun a => (eval_composed b scope).bind fun b =>
        (binary_tame op a b).composed
  | attr o name =>
      exact (eval_composed o scope).bind fun o => (getAttribute_tame o name).composed
  | hasAttr o name =>
      exact (eval_composed o scope).bind fun o => (hasAttribute_tame o name).composed.bind fun _ => .pure _
  | item o key =>
      exact (eval_composed o scope).bind fun o => (eval_composed key scope).bind fun key =>
        (item_tame o key).composed
  | set env name e =>
      exact (eval_composed env scope).bind fun env => (frameOf_tame env).composed.bind fun id =>
        (eval_composed e scope).bind fun v => (bind_tame id name v).composed.bind fun _ => .pure _
  | del env name =>
      exact (eval_composed env scope).bind fun env => (frameOf_tame env).composed.bind fun id =>
        (unbind_tame id name).composed.bind fun _ => .pure _
  | list items =>
      exact (evalAll_composed items scope).bind fun vs => (list_tame vs).composed
  | tuple items =>
      exact (evalAll_composed items scope).bind fun vs => (tuple_tame vs).composed
  | dict entries =>
      exact (evalEntries_composed entries scope []).bind fun entries => (dict_tame entries).composed
  | range args =>
      exact (evalAll_composed args scope).bind fun args => (Form.progression_tame args).composed
  | array e dtype =>
      exact (eval_composed e scope).bind fun v => (Form.gridding_tame v dtype).composed
  | seq items => exact (evalAll_composed items scope).map _
  | caught e => exact (eval_composed e scope).recover fun f => .pure _
  | within manager name body =>
      exact Form.managing_composed (eval_composed manager scope) fun v => eval_composed body _

theorem evalAll_composed (ts : List Term) (scope : Scope) :
    Composed k given (evalAll k ts scope) := by
  cases ts with
  | nil => exact .pure _
  | cons t rest =>
      exact (eval_composed t scope).bind fun v => (evalAll_composed rest scope).bind fun vs => .pure _

theorem evalNamed_composed (ts : List (String × Term)) (scope : Scope) :
    Composed k given (evalNamed k ts scope) := by
  cases ts with
  | nil => exact .pure _
  | cons t rest =>
      exact (eval_composed t.2 scope).bind fun v => (evalNamed_composed rest scope).bind fun vs =>
        .pure _

theorem evalEntries_composed (ts : List (Term × Term)) (scope : Scope)
    (entries : List (Value × Value)) : Composed k given (evalEntries k ts scope entries) := by
  cases ts with
  | nil => exact .pure _
  | cons t rest =>
      exact (eval_composed t.1 scope).bind fun key => (eval_composed t.2 scope).bind fun v =>
        (Composed.ofExcept _).bind fun _ => evalEntries_composed rest scope _

end

end Term

namespace Machine

theorem callBuiltin_composed (fixes : ∀ x, k.Derivation x → given x) (b : Builtin)
    (args : List Value) (named : Named) : Composed k given (callBuiltin k b args named) := by
  unfold callBuiltin
  split
  · exact (Composed.ofExcept _).bind fun scope => Term.eval_composed _ _
  · exact Builtin.call_composed fixes b args named

theorem callValue_composed (fixes : ∀ x, k.Derivation x → given x) (f : Value)
    (args : List Value) (named : Named) : Composed k given (callValue k f args named) := by
  cases f with
  | builtin b => exact callBuiltin_composed fixes b args named
  | closure mark header body scope =>
      exact (Composed.ofExcept _).bind fun given => Term.eval_composed body _
  | kind kd => exact Kind.call_composed kd args named
  | method mark owner m => exact Method.call_composed owner m args named
  | member kd m => exact Method.callUnbound_composed kd m args named
  | frame id => exact .get (fun _ _ => rfl) fun s => (Composed.ofExcept _).discard.bind fun _ => .pure _
  | procedure mark code env =>
      exact (Composed.ofExcept _).bind fun _ => (list_tame args).composed.bind fun args =>
        Calculus.apply_composed _ args env
  | application mark head expr env =>
      exact (Composed.ofExcept _).discard.bind fun _ => Calculus.evalApplication_composed _ env
  | thunk mark generator => exact .ite (.fault _) (.given (fixes _ (.force generator args named)))
  | manager mark limit =>
      exact (Composed.ofExcept _).bind fun values => (fresh_then _).composed
  | limited mark manager func => exact (Composed.call func args named).underSameLimit manager
  | counted mark name generator tally =>
      exact (Composed.ofExcept _).bind fun values => .given (fixes _ (.deriveCounted generator tally _))
  | countedThunk mark inner tally => exact .given (fixes _ (.forceCounted inner tally args named))
  | _ => exact .fault _

end Machine

end Knot
