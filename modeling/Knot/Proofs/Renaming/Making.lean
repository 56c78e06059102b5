import Knot.Call.Function
import Knot.Call.Making
import Knot.Proofs.Renaming.Collection

/-!
Matching arguments with parameters, and the making of values, in an image.
-/

namespace Knot

open Renaming Run

variable {r : Renaming}

/-- Named arguments with their values renamed. -/
def Renaming.named (r : Renaming) (named : Named) : Named := named.map (Prod.map id (Value.rename r))

namespace Signature

theorem namedFault?_rename (sig : Signature) (positional : Nat) (named : Named) :
    sig.namedFault? positional (r.named named) = sig.namedFault? positional named := by
  induction named with
  | nil => rfl
  | cons entry rest ih =>
      obtain ⟨name, v⟩ := entry
      change sig.namedFault? positional ((name, v.rename r) :: r.named rest) = _
      simp only [namedFault?, ih]

theorem assign_rename (params : List Parameter) (args : List Value) (named : Named) :
    assign params (args.map (Value.rename r)) (r.named named) =
      (assign params args named).map (Option.map (Value.rename r)) := by
  induction params generalizing args with
  | nil => rfl
  | cons p params ih =>
      cases args with
      | nil =>
          have rest := ih []
          simp only [List.map_nil] at rest
          simp only [List.map_nil, assign, rest, List.map_cons]
          rw [Renaming.named, lookup_map]
      | cons v args => simp only [List.map_cons, assign, ih, Option.map_some]

theorem missing_rename (sig : Signature) (values : List (Option Value)) :
    sig.missing (values.map (Option.map (Value.rename r))) = sig.missing values := by
  simp only [missing, List.zip_map_right, List.filterMap_map]
  refine List.filterMap_congr fun entry _ => ?_
  simp

theorem bind_rename (sig : Signature) (args : List Value) (named : Named) :
    sig.bind (args.map (Value.rename r)) (r.named named) =
      List.map (Option.map (Value.rename r)) <$> sig.bind args named := by
  simp only [bind, List.length_map, namedFault?_rename, assign_rename, missing_rename]
  split
  · rfl
  · split
    · rfl
    · split <;> rfl

theorem checkUnnamed_rename (sig : Signature) (named : Named) :
    sig.checkUnnamed (r.named named) = sig.checkUnnamed named := by
  simp only [checkUnnamed, namedFault?_rename]

end Signature

theorem Header.bind_rename (header : Header) (args : List Value) (named : Named) :
    header.bind (args.map (Value.rename r)) (r.named named) =
      List.map (Prod.map id (Value.rename r)) <$> header.bind args named := by
  have zipped (values : List Value) : header.params.zip (values.map (Value.rename r)) =
      (header.params.zip values).map (Prod.map id (Value.rename r)) := List.zip_map_right ..
  unfold bind
  split
  · cases named with
    | nil =>
        simp only [Renaming.named, List.map_nil, List.length_map, zipped]
        split
        · rw [← List.map_reverse]
          rfl
        · rfl
    | cons entry rest => rfl
  · rw [Signature.bind_rename]
    cases (Signature.mk header.path (header.params.map ({ name := · })) false).bind args named with
    | error e => rfl
    | ok values =>
        have given : (values.map (Option.map (Value.rename r))).map (·.getD .none) =
            (values.map (·.getD .none)).map (Value.rename r) := by
          simp only [List.map_map]
          refine List.map_congr_left fun v _ => ?_
          cases v <;> rfl
        change Except.ok (header.params.zip ((values.map (Option.map (Value.rename r))).map
          (·.getD .none))) = _
        rw [given, zipped]
        rfl

/-! The calculus. -/

namespace Calculus

theorem newProcedure_equi (code env : Value) :
    Equi r (Value.rename r) (newProcedure code env) (newProcedure (code.rename r) (env.rename r)) := by
  refine (item_equi code (.str "parameters")).bind fun params => ?_
  refine (members_equi params).bind fun names => ?_
  have checked : Equi r (fun _ : PUnit => PUnit.unit)
      (forIn names PUnit.unit fun name _ =>
        Run.ofExcept name.checkKey >>= fun _ => pure (ForInStep.yield PUnit.unit))
      (forIn (names.map (Value.rename r)) PUnit.unit fun name _ =>
        Run.ofExcept name.checkKey >>= fun _ => pure (ForInStep.yield PUnit.unit)) := by
    induction names with
    | nil => exact .pure _
    | cons name names ih =>
        simp only [List.map_cons, List.forIn_cons, Value.checkKey_rename, bind_assoc, pure_bind]
        exact (Equi.ofExcept (f := id) (id_map _).symm).bind fun _ => ih
  refine checked.bind fun _ => (length_equi params).bind fun count => ?_
  have kept := Value.distinct_rename r [] names
  simp only [List.map_nil] at kept
  simp only [kept, List.length_map, id]
  split
  · exact (shownPlain_equi params).bind fun text => .fault rfl
  · exact Equi.fresh.bind fun mark => .pure (Value.procedure mark code env)

theorem lambda_equi (body params env : Value) :
    Equi r (Value.rename r) (lambda body params env)
      (lambda (body.rename r) (params.rename r) (env.rename r)) := by
  have made (params : Value) : Equi r (Value.rename r)
      (dict [(.str "body", body), (.str "parameters", params)] >>= fun code =>
        newProcedure code env)
      (dict [(.str "body", body.rename r), (.str "parameters", params.rename r)] >>= fun code =>
        newProcedure code (env.rename r)) :=
    (dict_equi [(.str "body", body), (.str "parameters", params)]).bind fun code =>
      newProcedure_equi code env
  refine (truth_equi params).bind fun given => ?_
  dsimp only [id]
  split
  · exact (Equi.pure params).bind made
  · exact (list_equi []).bind made

theorem define_equi (sym v env : Value) :
    Equi r (Value.rename r) (define sym v env)
      (define (sym.rename r) (v.rename r) (env.rename r)) :=
  (frameOf_equi env).bind fun id => (nameOf_equi sym).bind fun name =>
    (bind_equi id name v).bind fun _ => .pure v

theorem wrongCount_equi (proc params args : Value) (expected given : Nat) :
    Equi r (Fault.rename r) (wrongCount proc params args expected given)
      (wrongCount (proc.rename r) (params.rename r) (args.rename r) expected given) :=
  (shownPlain_equi args).bind fun args => (shownPlain_equi proc).bind fun proc =>
    (shownPlain_equi params).bind fun params =>
      .pure (f := Fault.rename r) (.contract (.wrongCount given args proc expected params))

theorem callFrame_equi (params closed : Value) :
    Equi r (Value.rename r) (callFrame params closed)
      (callFrame (params.rename r) (closed.rename r)) := by
  refine (truth_equi params).bind fun given => ?_
  dsimp only [id]
  split
  · exact newEnvironment_equi _ _ closed
  · exact .pure closed

end Calculus

/-! Kinds. -/

namespace Kind

theorem listed_equi (v : Option Value) :
    Equi r (Value.rename r) (listed v) (listed (v.map (Value.rename r))) := by
  cases v with
  | none => exact list_equi []
  | some v => exact .pure v

theorem make_equi (k : Kind) (values : List (Option Value)) :
    Equi r (Value.rename r) (k.make values) (k.make (values.map (Option.map (Value.rename r)))) := by
  have opt (i : Nat) : ((values.map (Option.map (Value.rename r)))[i]?).join =
      ((values[i]?).join).map (Value.rename r) := by
    rw [List.getElem?_map]
    rcases values[i]? with _ | _ | v <;> rfl
  have fixed (i : Nat) : ((((k.fields[i]?).bind (k.defaults.lookup ·)).getD .none).rename r) =
      ((k.fields[i]?).bind (k.defaults.lookup ·)).getD .none := by
    have defaults : k.defaults.map (Prod.map id (·.rename r)) = k.defaults := by
      cases k <;> simp [Kind.defaults]
    cases k.fields[i]? with
    | none => rfl
    | some name =>
        have known := Image.lookup_fixed defaults name
        simp only [Option.bind_some] at known ⊢
        cases held : k.defaults.lookup name with
        | none => rfl
        | some v => simpa [held] using known
  have val (i : Nat) :
      ((((values.map (Option.map (Value.rename r)))[i]?).join).getD
        (((k.fields[i]?).bind (k.defaults.lookup ·)).getD .none)) =
        ((((values[i]?).join).getD
          (((k.fields[i]?).bind (k.defaults.lookup ·)).getD .none)).rename r) := by
    rw [opt]
    cases (values[i]?).join with
    | none => exact (fixed i).symm
    | some v => rfl
  unfold make
  simp only [val]
  simp only [opt]
  split
  · exact Equi.fresh.bind fun mark => .pure (Value.thunk mark _)
  · exact (listed_equi _).bind fun results => Equi.fresh.bind fun mark =>
      .pure (Value.checkRun mark _ _ _ results)
  · exact tally_equi _ _
  · exact Calculus.newProcedure_equi _ _
  · exact Equi.fresh.bind fun mark => .pure (Value.var mark _)
  · exact (listed_equi _).bind fun args => Equi.fresh.bind fun mark =>
      .pure (Value.application mark _ args _)
  · exact .pure Value.none

theorem textual_rename (name : String) (v : Option Value) :
    textual name (v.map (Value.rename r)) = textual name v := by
  rcases v with _ | v
  · rfl
  · have operand := Value.operandName_rename r v
    cases v <;> simp_all [textual]

theorem textArguments_rename (args : List Value) (named : Named) :
    textArguments (args.map (Value.rename r)) (r.named named) =
      List.map (Option.map (Value.rename r)) <$> textArguments args named := by
  have faulty : (r.named named).findSome? (fun entry => textNamedFault? args.length entry.1) =
      named.findSome? fun entry => textNamedFault? args.length entry.1 := by
    rw [Renaming.named, List.findSome?_map]
    rfl
  have at_ (values : List (Option Value)) (i : Nat) :
      ((values.map (Option.map (Value.rename r)))[i]?).join =
        ((values[i]?).join).map (Value.rename r) := by
    rw [List.getElem?_map]
    rcases values[i]? with _ | _ | v <;> rfl
  have count : (r.named named).length = named.length := List.length_map _
  simp only [textArguments, List.length_map, count, faulty, Signature.assign_rename, at_,
    textual_rename]
  split
  · rfl
  · cases named.findSome? fun entry => textNamedFault? args.length entry.1 with
    | some fault => rfl
    | none =>
        simp only [map_bind, map_pure]

theorem makeText_equi (values : List (Option Value)) :
    Equi r (Value.rename r) (makeText values)
      (makeText (values.map (Option.map (Value.rename r)))) := by
  rcases values with _ | ⟨_ | v, rest⟩
  · exact .pure (Value.str "")
  · rcases rest with _ | ⟨a, _ | ⟨b, _ | ⟨c, rest⟩⟩⟩ <;> exact .pure (Value.str "")
  · have refused {a b : String} (same : b = a) : Equi r (Value.rename r)
        (fault (.type (.decodesNothing a))) (fault (.type (.decodesNothing b))) :=
      .fault (by rw [same])
    have operand := Value.operandName_rename r v
    rcases rest with _ | ⟨_ | a, _ | ⟨_ | b, _ | ⟨c, rest⟩⟩⟩
    case cons.none.cons.none.nil => exact (shownPlain_equi v).bind fun text => .pure (Value.str text)
    all_goals
      cases v <;>
        first
        | exact .fault rfl
        | exact refused operand

theorem call_equi (k : Kind) (args : List Value) (named : Named) :
    Equi r (Value.rename r) (k.call args named)
      (k.call (args.map (Value.rename r)) (r.named named)) := by
  have made (sig : Signature) : Equi r (Value.rename r)
      (do k.make (← ofExcept (sig.bind args named)))
      (do k.make (← ofExcept (sig.bind (args.map (Value.rename r)) (r.named named)))) :=
    (Equi.ofExcept (sig.bind_rename args named)).bind (make_equi k)
  unfold call
  split
  · exact (Equi.ofExcept (textArguments_rename args named)).bind makeText_equi
  · exact made _
  · exact .fault rfl

end Kind

end Knot
