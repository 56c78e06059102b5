import Knot.Call.Method
import Knot.Evaluate
import Knot.Proofs.Renaming.Making

/-!
What the forms of programs, methods and counters do by themselves, in an image.
-/

namespace Knot

open Renaming Run

variable {r : Renaming}

namespace Form

/-- A name that is in no scope. -/
theorem known_equi (name : String) : Equi r (Value.rename r) (known name) (known name) := by
  unfold known
  split
  · simpa using Equi.pure (r := r) (f := Value.rename r) outermost
  · split
    · exact .pure (Value.builtin _)
    · exact .pure (Value.kind _)
    · exact .fault rfl

theorem resolve_equi (name : String) :
    Equi r (Value.rename r) (resolve [] name) (resolve [] name) := by
  have known := known_equi (r := r) name
  refine Equi.get (fun t => ?_) fun t s image => ?_
  · split
    · exact .pure _
    · exact known.grows
  · rw [image.session, lookup_map]
    cases t.session.lookup name with
    | some v => exact .pure v
    | none => exact known

theorem literal_equi (l : Literal) : Equi r (Value.rename r) (literal l) (literal l) := by
  cases l with
  | float x => exact float_equi x
  | none => exact .pure Value.none
  | bool b => exact .pure (Value.bool b)
  | int i => exact .pure (Value.int i)
  | str s => exact .pure (Value.str s)

theorem defined_equi (name : String) (v : Value) :
    Equi r (Value.rename r)
      (do
        modify fun s => { s with session := s.session.assign name v }
        return v)
      (do
        modify fun s => { s with session := s.session.assign name (v.rename r) }
        return v.rename r) := by
  have assigned : Equi r id
      (modify fun s => { s with session := s.session.assign name v } : Run Unit)
      (modify fun s => { s with session := s.session.assign name (v.rename r) }) := by
    refine .update (fun _ => ⟨Nat.le_refl _, Nat.le_refl _, rfl, .still rfl rfl rfl⟩) fun t s image _ => ?_
    refine ⟨⟨image.frames, image.tallies, image.contents, image.tables, image.given,
      image.namespaces, image.entered, ?_, image.stack, image.out⟩, rfl, rfl, Kept.refl _, fun _ _ => rfl⟩
    rw [image.session]
    exact assign_map (Value.rename r) t.session name v
  exact assigned.bind fun _ => .pure v

theorem integer_rename (v : Value) : integer (v.rename r) = integer v := by
  simp only [integer, Grid.index?_rename, Value.operandName_rename]

theorem progression_equi (args : List Value) :
    Equi r (Value.rename r) (progression args) (progression (args.map (Value.rename r))) := by
  have range (start stop step : Int) : Equi r (Value.rename r)
      (do return Value.range (← fresh) start stop step)
      (do return Value.range (← fresh) start stop step) :=
    Equi.fresh.bind fun mark => .pure (Value.range mark start stop step)
  have same : (args.map (Value.rename r)).mapM integer = args.mapM integer := by
    rw [mapM_of_map]
    simp only [integer_rename]
  refine (Equi.ofExcept (f := id) (by rw [same, id_map])).bind fun ends => ?_
  rcases ends with _ | ⟨a, _ | ⟨b, _ | ⟨c, _ | ⟨d, ends⟩⟩⟩⟩
  · exact .fault rfl
  · exact range 0 a 1
  · exact range a b 1
  · dsimp only [id]
    split
    · exact .fault rfl
    · exact range a b c
  · exact .fault rfl

theorem gridded_equi (dtype : Option String) (v : Value) :
    Equi r (Value.rename r) (gridding (pure v) dtype) (gridding (pure (v.rename r)) dtype) := by
  have made (requested : Option DType) (v : Value) : Equi r (Value.rename r)
      (do
        let s ← get
        let grid ← Run.ofExcept (Grid.make (reading s) requested v)
        array grid.dtype grid.shape grid.data)
      (do
        let s ← get
        let grid ← Run.ofExcept (Grid.make (reading s) requested (v.rename r))
        array grid.dtype grid.shape grid.data) := by
    refine Equi.read (f := Grid.rename r) (fun t s image => ?_) fun grid =>
      array_equi grid.dtype grid.shape grid.data
    have read : Grid.Reading.Renamed r (reading t) (reading s) :=
      ⟨image.showPlain_view, fun v => Value.truth_rename r v⟩
    exact read.make r requested v
  refine (Equi.pure v).bind fun v => (now_equi v).bind fun v => ?_
  cases dtype with
  | none => exact (Equi.pure (f := id) Option.none).bind fun requested => made requested v
  | some name =>
      dsimp only
      split
      · exact (Equi.pure (f := id) (some _)).bind fun requested => made requested v
      · exact Equi.bind (f := id) (.fault rfl) fun requested => made requested v

end Form

namespace Calculus

theorem echoEval_equi (expr env tag : Value) :
    Equi r (fun _ : Unit => ()) (echoEval expr env tag)
      (echoEval (expr.rename r) (env.rename r) (tag.rename r)) := by
  have page {t s : Store} (image : Image r t s) (v : Value) : Equi r id
      (Run.ofExcept ((t.view v).docWith t.frame)) (Run.ofExcept ((s.view (v.rename r)).docWith s.frame)) :=
    .ofExcept (by rw [image.docWith_view, id_map])
  have printed (text : String) : Equi r (fun _ : Unit => ()) (print text) (print text) :=
    (print_equi text).map (h := id) (l := id) fun _ => rfl
  refine Equi.get (fun t => ?_) fun t s image => ?_
  · exact .bind (.ofExcept _) fun _ => .bind (.ofExcept _) fun _ => .bind (.ofExcept _) fun _ =>
      (printed _).grows
  · refine (page image env).bind fun env => (page image expr).bind fun doc =>
      (page image tag).bind fun tag => ?_
    rw [Value.typeText_rename]
    exact printed _

end Calculus

namespace Method

theorem enter_equi (owner : Value) :
    Equi r (Value.rename r) (enter owner) (enter (owner.rename r)) := by
  cases owner with
  | manager mark limit => exact (tell_equi _ _).bind fun _ => Run.enter_equi mark limit
  | _ => exact .pure _

theorem leave_equi (owner : Value) :
    Equi r (Value.rename r) (leave owner) (leave (owner.rename r)) := by
  cases owner with
  | manager mark limit =>
      exact (tell_equi _ _).bind fun _ => (Run.leave_equi mark).bind fun _ => .pure (Value.bool false)
  | checkRun mark name strict trace results =>
      exact (closeRun_equi name trace results).bind fun _ => .pure (Value.bool false)
  | _ => exact .pure (Value.bool false)

theorem binding_equi (env name : Value) :
    Equi r (Value.rename r) (binding env name) (binding (env.rename r) (name.rename r)) := by
  cases env with
  | environment id outer => exact item_equi (.environment id outer) name
  | _ => exact (nameOf_equi name).bind fun text => lookup_equi _ text

theorem equality_equi (owner other : Value) :
    Equi r (Value.rename r) (equality owner other) (equality (owner.rename r) (other.rename r)) := by
  simp only [equality, Value.kind?_rename]
  split
  · exact binary_equi .equal owner other
  · exact .pure (Value.inert "NotImplementedType")

end Method

namespace FixedPoint

theorem counting_equi (generator tally : Value) :
    Equi r (Value.rename r) (counting generator tally)
      (counting (generator.rename r) (tally.rename r)) := by
  refine Equi.get (fun t => .bind (Equi.fresh (r := r)).grows fun _ => .pure _) fun t s image => ?_
  rw [Value.ownName?_rename image.renamedFrames]
  exact Equi.fresh.bind fun mark => .pure (Value.counted mark _ generator tally)

theorem bump_equi (tally : Value) (counter : Counter) :
    Equi r (fun _ : Unit => ()) (bump tally counter) (bump (tally.rename r) counter) :=
  (getAttribute_equi tally counter.name).bind fun v => (increment_equi v).bind fun v =>
    setAttribute_equi tally counter.name v

end FixedPoint

end Knot
