import Knot.Proofs.Calls.Parameters
import Knot.Proofs.Calls.Paths
import Knot.Proofs.FixedPoints.Hidden

/-!
Delays without parameters that are given arguments. A thunk refuses them, and so does a procedure that takes
none; each says what it was given, so neither can where that cannot be written.
-/

namespace Knot

open Run Renaming Store Term Calculus

/-! What a procedure without parameters shows of itself. -/

namespace Value

variable (frames : Nat → Frame)

/-- Environments, one inside the other. -/
inductive Nested : Value → Prop
  | outermost (id : Nat) : Nested (environment id none)
  | inside (id : Nat) {outer : Value} : Nested outer → Nested (environment id outer)

theorem Nested.withContents {env : Value} (nested : Nested env) (c : Contents) (around : List Nat) :
    env.withContents c around = env := by
  induction nested with
  | outermost id => rfl
  | inside id _ ih => rw [Value.withContents, ih]

/-- Environments can always be written. -/
theorem Nested.shown {env : Value} (nested : Nested env) : ∃ text, env.showWith frames = .ok text := by
  induction nested with
  | outermost id => exact ⟨_, by rw [showWith.eq_def]; rfl⟩
  | @inside id outer inner ih =>
      obtain ⟨text, written⟩ := ih
      rw [showWith.eq_def]
      cases inner <;> exact ⟨_, by dsimp only; rw [written]; rfl⟩

theorem Nested.isInner {env : Value} (nested : Nested env) : ∃ inner, isInner env = .ok inner := by
  cases nested with
  | outermost id => exact ⟨_, rfl⟩
  | inside id inner => cases inner <;> exact ⟨_, rfl⟩

end Value

variable {s : Store}

/-- A procedure without parameters can always be written. -/
theorem Store.Made.shown {body env proc : Value} (made : s.Made [] body env proc) (nested : env.Nested) :
    ∃ text, (s.view proc).showPlain s.frame = .ok text := by
  obtain ⟨mark, dict, list, rfl, -, -, -, contents, table⟩ := made
  obtain ⟨hops, counted⟩ : ∃ hops, s.contents.length + s.namespaces.length + s.tables.length + codeHops = hops + 1 :=
    ⟨_, rfl⟩
  let c := s.contentsNow s.codeShown (hops + 1)
  obtain ⟨params, listed, text, written⟩ : ∃ params, (Value.list list []).withContents c [dict] = params ∧
      ∃ text, params.showPlain s.frame = .ok text := by
    refine ⟨_, rfl, ?_⟩
    rw [Value.withContents.eq_def]
    dsimp only
    split
    · exact ⟨_, by rw [Value.showPlain.eq_def]; dsimp only; rw [Value.showWith.eq_def]⟩
    · simp only [c, contentsNow, contents, Option.map_none]
      exact ⟨_, by rw [Value.withContentsAll, Value.showPlain_list, Value.showAll.eq_def]; rfl⟩
  have viewed : s.view (.procedure mark (.dict dict (code body list [])) env) =
      .procedure mark (.dict dict [(.str "body", body.withContents c [dict]), (.str "parameters", params)]) env := by
    rw [Store.view, counted, Value.withContents, nested.withContents, Value.withContents.eq_def]
    simp only [lies, List.contains_nil, Bool.and_false, Bool.false_eq_true, if_false, contentsNow, table, Option.map_none]
    change Value.procedure mark (.dict dict (Value.withContentsEntries c [dict] (code body list []))) env = _
    rw [Value.withContentsEntries_eq, code, List.map_cons, List.map_cons, List.map_nil, listed]
    rfl
  obtain ⟨inner, inside⟩ := nested.isInner
  obtain ⟨closed, closes⟩ := nested.shown s.frame
  have entry : Value.showEntry s.frame "parameters"
      [(.str "body", body.withContents c [dict]), (.str "parameters", params)] = .ok text := by
    rw [Value.showEntry.eq_def]
    change (if "body" = "parameters" then _ else Value.showEntry s.frame _ _) = _
    rw [if_neg (by decide), Value.showEntry.eq_def]
    change (if "parameters" = "parameters" then Value.showPlain s.frame _ else _) = _
    rw [if_pos rfl, written]
  rw [viewed, Value.showPlain.eq_def]
  dsimp only
  rw [Value.showWith.eq_def]
  dsimp only
  rw [entry, inside]
  cases inner with
  | true => exact ⟨_, by simp only [closes]; rfl⟩
  | false => exact ⟨_, rfl⟩

/-- Arguments are written alike as a tuple and as a list, both new, or neither can be written for the same
fault. -/
theorem Store.written {mark : Nat} (nothing : s.contents.lookup mark = none) (args : List Value) :
    ∃ texts : Except Fault (List String), (s.view (.tuple mark args)).showWith s.frame = Value.tupleText <$> texts ∧
      (s.view (.list mark args)).showPlain s.frame = Value.listText <$> texts := by
  obtain ⟨hops, counted⟩ : ∃ hops, s.contents.length + s.namespaces.length + s.tables.length + codeHops = hops + 1 :=
    ⟨_, rfl⟩
  let c := s.contentsNow s.codeShown (hops + 1)
  have tuple : s.view (.tuple mark args) = .tuple mark (Value.withContentsAll c [mark] args) := by
    rw [Store.view, counted, Value.withContents.eq_def]
    simp [lies, c]
  have list : s.view (.list mark args) = .list mark (Value.withContentsAll c [mark] args) := by
    rw [Store.view, counted, Value.withContents.eq_def]
    have unrecorded : (s.contentsNow s.codeShown (hops + 1)).items? [mark] mark = none := by
      simp only [contentsNow, nothing, Option.map_none]
    simp [lies, unrecorded, c]
  refine ⟨Value.showAll s.frame (Value.withContentsAll c [mark] args), ?_, ?_⟩
  · rw [tuple, Value.showWith.eq_def]
  · rw [list, Value.showPlain_list]

/-- A fault about arguments: of a broken contract where they can be written, or else why they cannot. -/
def Fault.About (texts : Except Fault (List String)) (f : Fault) : Prop :=
  match texts with
  | .ok _ => ∃ cause, f = .contract cause
  | .error refused => f = refused

theorem Fault.About.like {texts : Except Fault (List String)} {loose : Prop} {f f' : Fault} (first : f.About texts)
    (second : f'.About texts) (holds : loose) : Fault.Like loose f f' := by
  cases texts with
  | ok _ =>
      obtain ⟨cause, rfl⟩ := first
      obtain ⟨cause', rfl⟩ := second
      exact .contract holds rfl rfl
  | error refused =>
      obtain rfl : f = refused := first
      obtain rfl : f' = f := second
      exact .bare rfl

/-- A thunk refuses arguments. -/
theorem FixedPoint.refuse_eq {args : List Value} {texts : Except Fault (List String)}
    (written : (s.view (.tuple s.nextMark args)).showWith s.frame = Value.tupleText <$> texts) :
    ∃ f, FixedPoint.refuse args [] s = .error (.fault f) (s.skip 1) ∧ f.About texts := by
  have shown : Run.shown (.tuple s.nextMark args) (s.skip 1) = ofExcept (Value.tupleText <$> texts) (s.skip 1) := by
    rw [Run.shown, s.skip_view]
    exact congrArg (fun text => ofExcept text (s.skip 1)) written
  have made : Run.tuple args s = .ok (.tuple s.nextMark args) (s.skip 1) := rfl
  unfold FixedPoint.refuse
  rw [bind_of_ok made]
  cases texts with
  | error refused => exact ⟨refused, bind_of_error shown, rfl⟩
  | ok texts => exact ⟨.contract (.appliedThunk (Value.tupleText texts) (Value.dictText [])), bind_of_ok shown, _, rfl⟩

/-- A procedure without parameters refuses arguments. -/
theorem Calculus.apply_given (k : Machine) {body env proc caller : Value} (made : s.Made [] body env proc)
    (nested : env.Nested) {list : Nat} (unchanged : s.contents.lookup list = none) {args : List Value} (given : args ≠ [])
    {texts : Except Fault (List String)}
    (written : (s.view (.list list args)).showPlain s.frame = Value.listText <$> texts) :
    ∃ f, apply k proc (.list list args) caller s = .error (.fault f) s ∧ f.About texts := by
  obtain ⟨text, shown⟩ := made.shown nested
  obtain ⟨mark, dict, params, rfl, positive, -, -, nothing, table⟩ := made
  have lists : s.Lists [] (.list params []) := .list (by rw [Store.items, nothing]; rfl)
  obtain ⟨named, written'⟩ := lists.shown
  have wrong : 0 ≠ args.length := fun none => given (List.length_eq_zero_iff.mp none.symm)
  refine ⟨_, apply_refuses k mark env caller (item_parameters table positive) (length_list (head_list nothing _))
    (length_list (head_list unchanged _)) wrong, ?_⟩
  rw [Store.refusal, written]
  cases texts with
  | error refused => rfl
  | ok texts =>
      rw [shown, List.map_nil]
      cases params : (s.view (.list params [])).showPlain s.frame with
      | ok named => exact ⟨_, rfl⟩
      | error refused => cases (shownPlain_error params).symm.trans written'

end Knot
