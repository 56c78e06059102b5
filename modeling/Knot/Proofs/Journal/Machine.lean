import Knot.Proofs.Journal.Growth

/-!
Every machine with fuel takes nothing back and is told by the journal, whatever it calls or evaluates.
-/

namespace Knot

open Run Renaming

variable {k : Machine}

namespace Calculus

theorem mapGrid_grows {f : Value → Run Value} (step : ∀ v, Grows (f v)) (v : Value) :
    Grows (mapGrid f v) :=
  (now_equi (r := .plain) v).grows.bind fun _ => (Grows.ofExcept _).bind fun grid =>
    (Grows.mapM (fun v => (marked_equi (r := .plain) v).grows.bind step) grid.data).bind fun results =>
      (array_equi (r := .plain) .object grid.shape results).grows

variable (growing : k.Growing)
include growing

theorem evalApplication_grows (expr env : Value) : Grows (evalApplication k expr env) := by
  refine (getAttribute_equi (r := .plain) expr "head").grows.bind fun head => ?_
  have rest (proc : Value) : Grows (do
      let args ← (← members (← getAttribute expr "args")).mapM (k.evaluate · env)
      Calculus.apply k proc (← list args) env) :=
    (getAttribute_equi (r := .plain) expr "args").grows.bind fun args =>
      (members_equi (r := .plain) args).grows.bind fun args =>
        (Grows.mapM (fun arg => growing.evaluate arg env) args).bind fun args =>
          (list_equi (r := .plain) args).grows.bind fun args => apply_grows growing proc args env
  cases head with
  | str name => exact (item_equi (r := .plain) env (.str name)).grows.bind rest
  | _ => exact (growing.evaluate _ env).bind rest

theorem eval_grows (expr env : Value) : Grows (Calculus.eval k expr env) := by
  refine (head_equi (r := .plain) expr).grows.bind fun v => ?_
  have each (vs : List Value) : Grows (vs.mapM (k.evaluate · env)) :=
    .mapM (fun v => growing.evaluate v env) vs
  cases v with
  | dict mark entries =>
      exact (Grows.mapM (fun entry => (growing.evaluate entry.2 env).bind fun v =>
        .pure (entry.1, v)) entries).bind fun entries => (dict_equi (r := .plain) entries).grows
  | tuple mark items => exact (each items).bind fun vs => (tuple_equi (r := .plain) vs).grows
  | list mark items =>
      exact (members_equi (r := .plain) expr).grows.bind fun vs => (each vs).bind fun vs =>
        (list_equi (r := .plain) vs).grows
  | array mark dtype shape data => exact mapGrid_grows (fun v => growing.evaluate v env) expr
  | var mark sym => exact (item_equi (r := .plain) env sym).grows
  | application mark head args closed => exact evalApplication_grows growing expr env
  | _ => exact .pure _

theorem evalTagged_grows (expr env tag : Value) : Grows (evalTagged k expr env tag) := by
  refine (binary_equi (r := .plain) .equal tag (.str "debug")).grows.bind fun same => ?_
  refine (truth_equi (r := .plain) same).grows.bind fun traced => ?_
  cases traced with
  | true => exact (echoEval_equi (r := .plain) expr env tag).grows.bind fun _ => eval_grows growing expr env
  | false => exact eval_grows growing expr env

end Calculus

namespace FixedPoint

variable (growing : k.Growing)
include growing

theorem derive_grows (generator : Value) : Grows (derive k generator) := by
  refine (Equi.fresh (r := .plain)).grows.bind fun mark => ?_
  refine (growing.call generator [.thunk mark generator] []).bind fun result => .ite (.pure result) ?_
  exact (shownPlain_equi (r := .plain) generator).grows.bind fun _ =>
    (shown_equi (r := .plain) result).grows.bind fun _ => .fault _

omit growing in
theorem refuse_grows (args : List Value) (named : Named) : Grows (refuse args named) :=
  (tuple_equi (r := .plain) _).grows.bind fun _ => (shown_equi (r := .plain) _).grows.bind fun _ =>
    (Grows.mapM (fun entry => (shown_equi (r := .plain) entry.2).grows.bind fun _ => .pure _) named).bind
      fun _ => .fault _

theorem build_grows (generator : Value) : Grows (build k generator) :=
  (tell_grows _).bind fun _ => derive_grows growing generator

theorem force_grows (generator : Value) (args : List Value) (named : Named) :
    Grows (force k generator args named) := by
  cases args with
  | nil =>
      cases named with
      | nil => exact (tell_grows _).bind fun _ => derive_grows growing generator
      | cons => exact refuse_grows _ _
  | cons => exact refuse_grows _ _

theorem deriveCounted_grows (generator tally thunk : Value) :
    Grows (deriveCounted k generator tally thunk) :=
  (bump_equi (r := .plain) tally .derivations).grows.bind fun _ => (tell_grows _).bind fun _ =>
    (Equi.fresh (r := .plain)).grows.bind fun mark =>
      growing.call generator [.countedThunk mark thunk tally] []

theorem forceCounted_grows (inner tally : Value) (args : List Value) (named : Named) :
    Grows (forceCounted k inner tally args named) :=
  (bump_equi (r := .plain) tally .thunkCalls).grows.bind fun _ => (tell_grows _).bind fun _ =>
    growing.call inner args named

end FixedPoint

namespace Run

variable (growing : k.Growing)
include growing

theorem append_grows (target entry : Value) : Grows (append k target entry) := by
  cases target with
  | list mark items => exact (appended_equi (r := .plain) mark items entry).grows
  | environment id outer =>
      exact (lookup_equi (r := .plain) (.environment id outer) "append").grows.bind fun f =>
        (growing.call f [entry] []).discard
  | _ => exact .fault _

theorem record_grows (results label : Value) (ok : Bool) : Grows (record k results label ok) :=
  (tuple_equi (r := .plain) [label, .bool ok]).grows.bind fun entry => append_grows growing results entry

theorem failed_grows (strict trace results label : Value) (f : Fault) :
    Grows (failed k strict trace results label f) := by
  cases f with
  | mismatch a b c shown =>
      refine (record_grows growing results label false).bind fun _ => ?_
      refine (truth_equi (r := .plain) trace).grows.bind fun traced => ?_
      have ended : Grows (do
          if ← truth strict then fault (.mismatch a b c shown) else return none :
          Run (Option Value)) :=
        (truth_equi (r := .plain) strict).grows.bind fun _ => .ite (.fault _) (.pure _)
      cases traced with
      | true =>
          exact (echo_equi (r := .plain) (.str "AssertionFailure") (.str shown)).grows.discard.bind
            fun _ => ended
      | false => exact ended
  | _ => exact .fault _

theorem checkEq_grows (run actual expected label : Value) :
    Grows (checkEq k run actual expected label) := by
  cases run with
  | checkRun mark name strict trace results =>
      refine (checkLabel_equi (r := .plain) name results label).grows.bind fun label => ?_
      refine (Grows.recover ((assertEq_equi (r := .plain) actual expected label).grows.map some)
        (failed_grows growing strict trace results label)).bind fun outcome => ?_
      cases outcome with
      | none => exact .pure _
      | some v => exact (record_grows growing results label true).bind fun _ => .pure _
  | _ => exact .fault _

end Run

namespace Method

variable (growing : k.Growing)
include growing

theorem act_grows (owner : Value) (m : Method) (values : List (Option Value)) :
    Grows (m.act k owner values) := by
  unfold act
  dsimp only
  split
  · exact (getAttribute_equi (r := .plain) owner "π").grows.bind fun _ => .pure _
  · exact (binding_equi (r := .plain) owner _).grows
  · exact checkEq_grows growing owner _ _ _
  · exact (getAttribute_equi (r := .plain) owner "name").grows.bind fun name =>
      (getAttribute_equi (r := .plain) owner "results").grows.bind fun results =>
        (summary_equi (r := .plain) name results).grows
  · exact (shown_equi (r := .plain) owner).grows.bind fun _ => .pure _
  · exact (shownPlain_equi (r := .plain) owner).grows.bind fun _ => .pure _
  · exact (length_equi (r := .plain) owner).grows.bind fun _ => .pure _
  · exact (item_equi (r := .plain) owner _).grows
  · exact (nameOf_equi (r := .plain) _).grows.bind fun name => (missing_equi (r := .plain) owner name).grows
  · exact (equality_equi (r := .plain) owner _).grows
  · exact (enter_equi (r := .plain) owner).grows
  · exact (leave_equi (r := .plain) owner).grows
  · exact .pure _

theorem call_grows (owner : Value) (m : Method) (args : List Value) (named : Named) :
    Grows (m.call k owner args named) := by
  unfold call
  split
  · exact growing.call owner args named
  · split
    · rename_i result known
      have called := Collection.call?_equi (r := .plain) owner m.name args named
      rw [known] at called
      generalize Collection.call? (owner.rename .plain) _ _ _ = renamed at called
      cases called with
      | some equi => exact equi.grows
    · exact (Grows.ofExcept _).bind fun values => act_grows growing owner m values

theorem callUnbound_grows (kd : Kind) (m : Method) (args : List Value) (named : Named) :
    Grows (m.callUnbound k kd args named) := by
  unfold callUnbound
  split
  · exact growing.call _ _ named
  · exact (Grows.ofExcept _).bind fun values => act_grows growing _ m _

end Method

namespace Builtin

variable (growing : k.Growing)
include growing

theorem blowStack_grows (frames : Value) : Grows (blowStack k frames) := by
  refine (tally_equi (r := .plain) (.int 0) (.int 0)).grows.bind fun tally => ?_
  refine (Equi.fresh (r := .plain)).grows.bind fun mark => ?_
  refine (FixedPoint.counting_equi (r := .plain) _ _).grows.bind fun generator => ?_
  refine (FixedPoint.build_grows growing generator).bind fun unfold => ?_
  refine .recover ?_ fun f => ?_
  · refine (headroom_equi (r := .plain) frames).grows.bind fun manager => ?_
    have block : Grows (under manager (k.app unfold [.int 1])) := by
      cases manager with
      | manager mark limit => exact (growing.call unfold [.int 1] []).underLimit mark limit
      | _ => exact .fault _
    exact block.discard.bind fun _ => (mismatch_equi (r := .plain) _ _ _).grows.bind fun f => .fault f
  · cases f with
    | stackExhausted =>
        exact (getAttribute_equi (r := .plain) _ "derivations").grows.bind fun n =>
          (shownPlain_equi (r := .plain) n).grows.bind fun _ => .pure _
    | _ => exact .fault _

theorem act_grows (b : Builtin) (values : List (Option Value)) : Grows (act k b values) := by
  unfold act
  dsimp only
  split
  · exact FixedPoint.build_grows growing _
  · exact .get fun s => (Equi.fresh (r := .plain)).grows.bind fun _ => .pure _
  · exact (Run.assertEq_equi (r := .plain) _ _ _).grows
  · exact (FixedPoint.counting_equi (r := .plain) _ _).grows
  · exact (stackDepth_equi (r := .plain)).grows
  · exact (manager_equi (r := .plain) _).grows
  · exact (headroom_equi (r := .plain) _).grows
  · exact Calculus.mapGrid_grows (fun v => (Grows.ofExcept _).bind fun i => growing.call _ [.int i] []) _
  · exact (Run.echo_equi (r := .plain) _ _).grows
  · exact (Calculus.lambda_equi (r := .plain) _ _ _).grows
  · exact Calculus.evalTagged_grows growing _ _ _
  · exact Calculus.evalApplication_grows growing _ _
  · split
    · exact (list_equi (r := .plain) []).grows.bind fun args => Calculus.apply_grows growing _ args _
    · exact (Grows.pure _).bind fun args => Calculus.apply_grows growing _ args _
  · exact (Calculus.define_equi (r := .plain) _ _ _).grows
  · exact blowStack_grows growing _
  · exact (newEnvironment_equi (r := .plain) _ _ _).grows
  · exact .pure _

theorem call_grows (b : Builtin) (args : List Value) (named : Named) : Grows (b.call k args named) := by
  unfold call
  split
  · exact (Grows.ofExcept _).bind fun _ => .pure _
  · exact (Grows.ofExcept _).bind fun v => (shown_equi (r := .plain) v).grows.bind fun _ => .pure _
  · exact (Grows.ofExcept _).bind fun v => (length_equi (r := .plain) v).grows.bind fun _ => .pure _
  · split
    · exact (recursionLimit_equi (r := .plain)).grows
    · exact .fault _
    · exact .fault _
  · exact (Grows.ofExcept _).bind fun values => act_grows growing b values

end Builtin

namespace Form

variable (growing : k.Growing)
include growing

theorem calling_grows {f : Run Value} {args : Run (List Value)} {named : Run Named} (first : Grows f)
    (second : Grows args) (third : Grows named) : Grows (calling k f args named) :=
  first.bind fun f => second.bind fun args => third.bind fun named => growing.call f args (merged named)

end Form

namespace Form

theorem resolve_grows (scope : Scope) (name : String) : Grows (resolve scope name) := by
  have known := (resolve_equi (r := .plain) name).grows
  unfold resolve at known ⊢
  cases scope.lookup name with
  | some v => exact .pure v
  | none => exact known

theorem choosing_grows {c a b : Run Value} (first : Grows c) (yes : Grows a) (no : Grows b) :
    Grows (choosing c a b) :=
  first.bind fun v => (truth_equi (r := .plain) v).grows.bind fun _ => .ite yes no

theorem setting_grows {env e : Run Value} (first : Grows env) (name : String) (second : Grows e) :
    Grows (setting env name e) :=
  first.bind fun env => (frameOf_equi (r := .plain) env).grows.bind fun id => second.bind fun v =>
    (bind_equi (r := .plain) id name v).grows.bind fun _ => .pure _

theorem deleting_grows {env : Run Value} (first : Grows env) (name : String) :
    Grows (deleting env name) :=
  first.bind fun env => (frameOf_equi (r := .plain) env).grows.bind fun id =>
    (unbind_equi (r := .plain) id name).grows.bind fun _ => .pure _

theorem gridding_grows {e : Run Value} (first : Grows e) (dtype : Option String) :
    Grows (gridding e dtype) :=
  first.bind fun v => (gridded_equi (r := .plain) dtype v).grows

theorem managing_grows {manager : Run Value} {body : Value → Run Value} (first : Grows manager)
    (second : ∀ v, Grows (body v)) : Grows (managing manager body) := by
  refine first.bind fun v => ?_
  cases v with
  | manager mark limit => exact (second limit).underLimit mark limit
  | checkRun mark name strict trace results =>
      exact (second _).ensuring (Run.closeRun_equi (r := .plain) name trace results).grows
  | _ => exact .fault _

end Form

namespace Term

mutual

theorem eval_grows (growing : k.Growing) (t : Term) (scope : Scope) : Grows (t.eval k scope) := by
  cases t with
  | lit l => exact (Form.literal_equi (r := .plain) l).grows
  | var name => exact Form.resolve_grows scope name
  | prim b => exact .pure _
  | define name e =>
      exact (eval_grows growing e scope).bind fun v => (Form.defined_equi (r := .plain) name v).grows
  | letIn name e body => exact (eval_grows growing e scope).bind fun v => eval_grows growing body _
  | call f args named =>
      exact Form.calling_grows growing (eval_grows growing f scope) (evalAll_grows growing args scope)
        (evalNamed_grows growing named scope)
  | lam header body => exact (Equi.fresh (r := .plain)).grows.bind fun _ => .pure _
  | ite c a b =>
      exact Form.choosing_grows (eval_grows growing c scope) (eval_grows growing a scope) (eval_grows growing b scope)
  | not a =>
      exact (eval_grows growing a scope).bind fun v => (truth_equi (r := .plain) v).grows.bind fun _ => .pure _
  | binary op a b =>
      exact (eval_grows growing a scope).bind fun a => (eval_grows growing b scope).bind fun b =>
        (binary_equi (r := .plain) op a b).grows
  | attr o name =>
      exact (eval_grows growing o scope).bind fun o => (getAttribute_equi (r := .plain) o name).grows
  | hasAttr o name =>
      exact (eval_grows growing o scope).bind fun o => (hasAttribute_equi (r := .plain) o name).grows.bind
        fun _ => .pure _
  | item o key =>
      exact (eval_grows growing o scope).bind fun o => (eval_grows growing key scope).bind fun key =>
        (item_equi (r := .plain) o key).grows
  | set env name e => exact Form.setting_grows (eval_grows growing env scope) name (eval_grows growing e scope)
  | del env name => exact Form.deleting_grows (eval_grows growing env scope) name
  | list items => exact (evalAll_grows growing items scope).bind fun vs => (list_equi (r := .plain) vs).grows
  | tuple items => exact (evalAll_grows growing items scope).bind fun vs => (tuple_equi (r := .plain) vs).grows
  | dict entries =>
      exact (evalEntries_grows growing entries scope []).bind fun entries =>
        (dict_equi (r := .plain) entries).grows
  | range args =>
      exact (evalAll_grows growing args scope).bind fun args => (Form.progression_equi (r := .plain) args).grows
  | array e dtype => exact Form.gridding_grows (eval_grows growing e scope) dtype
  | seq items => exact (evalAll_grows growing items scope).map _
  | caught e => exact (eval_grows growing e scope).recover fun f => .pure _
  | within manager name body =>
      exact Form.managing_grows (eval_grows growing manager scope) fun v => eval_grows growing body _

theorem evalAll_grows (growing : k.Growing) (ts : List Term) (scope : Scope) : Grows (evalAll k ts scope) := by
  cases ts with
  | nil => exact .pure _
  | cons t rest =>
      exact (eval_grows growing t scope).bind fun v => (evalAll_grows growing rest scope).bind fun vs => .pure _

theorem evalNamed_grows (growing : k.Growing) (ts : List (String × Term)) (scope : Scope) :
    Grows (evalNamed k ts scope) := by
  cases ts with
  | nil => exact .pure _
  | cons t rest =>
      exact (eval_grows growing t.2 scope).bind fun v => (evalNamed_grows growing rest scope).bind fun vs => .pure _

theorem evalEntries_grows (growing : k.Growing) (ts : List (Term × Term)) (scope : Scope)
    (entries : List (Value × Value)) : Grows (evalEntries k ts scope entries) := by
  cases ts with
  | nil => exact .pure _
  | cons t rest =>
      exact (eval_grows growing t.1 scope).bind fun key => (eval_grows growing t.2 scope).bind fun v =>
        (Grows.ofExcept _).bind fun _ => evalEntries_grows growing rest scope _

end

end Term

namespace Machine

variable (growing : k.Growing)
include growing

theorem callBuiltin_grows (b : Builtin) (args : List Value) (named : Named) :
    Grows (callBuiltin k b args named) := by
  unfold callBuiltin
  split
  · exact (Grows.ofExcept _).bind fun scope => Term.eval_grows growing _ _
  · exact Builtin.call_grows growing b args named

theorem callValue_grows (f : Value) (args : List Value) (named : Named) :
    Grows (callValue k f args named) := by
  cases f with
  | builtin b => exact callBuiltin_grows growing b args named
  | closure mark header body scope =>
      exact (Grows.ofExcept _).bind fun given => Term.eval_grows growing body _
  | kind kd => exact (Kind.call_equi (r := .plain) kd args named).grows
  | method mark owner m => exact Method.call_grows growing owner m args named
  | member kd m => exact Method.callUnbound_grows growing kd m args named
  | frame id => exact .get fun s => (Grows.ofExcept _).discard.bind fun _ => .pure _
  | procedure mark code env =>
      exact (Grows.ofExcept _).bind fun _ => (list_equi (r := .plain) args).grows.bind fun args =>
        Calculus.apply_grows growing _ args env
  | application mark head expr env =>
      exact (Grows.ofExcept _).discard.bind fun _ => Calculus.evalApplication_grows growing _ env
  | thunk mark generator =>
      exact .ite (.fault _) (FixedPoint.force_grows growing generator args named)
  | manager mark limit =>
      exact (Grows.ofExcept _).bind fun values => (Equi.fresh (r := .plain)).grows.bind fun _ => .pure _
  | limited mark manager func => exact (growing.call func args named).underSameLimit manager
  | counted mark name generator tally =>
      exact (Grows.ofExcept _).bind fun values => FixedPoint.deriveCounted_grows growing generator tally _
  | countedThunk mark inner tally => exact FixedPoint.forceCounted_grows growing inner tally args named
  | _ => exact .fault _

end Machine

/-- What a machine with fuel calls or evaluates takes nothing back. -/
theorem Machine.growing_ofFuel (n : Nat) : (ofFuel n).Growing := by
  induction n with
  | zero => exact ⟨fun _ _ _ => .stop _, fun _ _ => .stop _⟩
  | succ n ih =>
      exact ⟨fun f args named => (callValue_grows ih f args named).deeper,
        fun expr env => (Calculus.eval_grows ih expr env).deeper⟩

end Knot
