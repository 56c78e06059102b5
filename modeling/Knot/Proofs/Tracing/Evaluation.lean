import Knot.Proofs.Calls.Paths
import Knot.Proofs.Tracing.Machine
import Knot.Proofs.Tracing.Pages

/-!
Traced evaluation. The page of an expression is written before anything is evaluated; where that can be
done, the evaluation goes on as the untraced one does, and prints behind the page what that one prints.
-/

namespace Knot

open Run Store

/-- The line that a traced evaluation prints: what is evaluated, and where. -/
def Store.echoed (s : Store) (expr env : Value) : Except Fault String := do
  let doc (v : Value) := (s.view v).docWith s.frame
  let fields : List (String × Doc) := [("'EVAL': ", .text ""), ("'env': ", ← doc env),
    ("'expr': ", ← doc expr), ("'tag': ", ← doc (.str "debug")), ("'type': ", .atom expr.typeText)]
  let flat := "\x7b" ++ Value.commaJoin (fields.map fun (label, d) => label ++ d.flat) ++ "\x7d"
  return (Doc.mapping flat fields).pretty ++ "\n"

namespace Calculus

theorem echoEval_eq (expr env : Value) (s : Store) :
    echoEval expr env (.str "debug") s =
      match s.echoed expr env with
      | .ok text => .ok () { s with out := s.out ++ text }
      | .error f => .error (.fault f) s := by
  unfold echoEval Store.echoed
  rw [get_bind]
  dsimp only
  cases e : (s.view env).docWith s.frame with
  | error f => rfl
  | ok envPage =>
      cases x : (s.view expr).docWith s.frame with
      | error f => rfl
      | ok exprPage =>
          cases t : (s.view (.str "debug")).docWith s.frame with
          | error f => rfl
          | ok tagPage => rfl

theorem evalTagged_debug (k : Machine) (expr env : Value) (s : Store) :
    evalTagged k expr env (.str "debug") s =
      match s.echoed expr env with
      | .ok text => eval k expr env { s.skip 1 with out := s.out ++ text }
      | .error f => .error (.fault f) (s.skip 1) := by
  have traced : binary .equal (.str "debug") (.str "debug") s = .ok (.bool true) (s.skip 1) := by
    have text : now (.str "debug") s = .ok (.str "debug") s := rfl
    change (now (.str "debug") >>= fun a => now (.str "debug") >>= fun b => _) s = _
    rw [bind_of_ok text, bind_of_ok text]
    rfl
  have same : (s.skip 1).echoed expr env = s.echoed expr env := by
    have frame : (s.skip 1).frame = s.frame := rfl
    simp only [Store.echoed, Store.skip_view, frame]
  have echo := echoEval_eq expr env (s.skip 1)
  rw [same] at echo
  unfold evalTagged
  rw [bind_of_ok traced, bind_of_ok (show Run.truth (.bool true) (s.skip 1) = .ok true (s.skip 1) from rfl),
    if_pos rfl]
  cases written : s.echoed expr env with
  | ok text =>
      rw [written] at echo
      exact bind_of_ok echo
  | error f =>
      rw [written] at echo
      exact bind_of_error echo

end Calculus

/-- The page of an evaluation can be written where those of the expression and the environment can. -/
theorem Store.echoed_succeeds {s : Store} {expr env : Value} (writable : (s.view expr).Writable)
    (closed : (s.view env).Writable) : ∃ text, s.echoed expr env = .ok text := by
  have tag : (s.view (.str "debug")).docWith s.frame = .ok (.text "debug") := by
    have view : s.view (.str "debug") = .str "debug" := rfl
    rw [view, Value.docWith]
  obtain ⟨e, env_page⟩ : Succeeds ((s.view env).docWith s.frame) := closed.paged
  obtain ⟨x, expr_page⟩ : Succeeds ((s.view expr).docWith s.frame) := writable.paged
  unfold Store.echoed
  dsimp only
  rw [env_page, expr_page, tag]
  exact ⟨_, rfl⟩

/-- How an evaluation goes with and without a trace: the page comes first, and then what the untraced one
prints. Where the page cannot be written, nothing is evaluated. -/
structure TracesEvaluation (n : Nat) (s : Store) (expr env : Value) : Prop where
  written : ∀ text, s.echoed expr env = .ok text → ∃ ended,
    (Machine.ofFuel n).callValue (.builtin .eval) [expr, env] [] s = Ended.behind s.out ended ∧
    (Machine.ofFuel n).callValue (.builtin .eval) [expr, env, .str "debug"] [] s =
      Ended.behind (s.out ++ text) ended
  unwritten : ∀ f, s.echoed expr env = .error f →
    (Machine.ofFuel n).callValue (.builtin .eval) [expr, env, .str "debug"] [] s =
      .error (.fault f) (s.skip 1)

theorem traces_evaluation (n : Nat) (s : Store) (expr env : Value) : TracesEvaluation n s expr env := by
  have debug := Calculus.evalTagged_debug (.ofFuel n) expr env s
  constructor
  · intro text written
    rw [written] at debug
    let empty : Store := { s.skip 1 with out := "" }
    have heedless : Heedless (Calculus.eval (.ofFuel n) expr env) :=
      (Calculus.eval_composed expr env : Composed _ (fun _ => False) _).heedless
        (Machine.takesNoNotice_ofFuel n) fun _ none => none.elim
    have from_empty (before : String) : { s.skip 1 with out := before } = empty.behind before := by
      simp only [empty, Store.behind, String.append_empty]
    refine ⟨Calculus.eval (.ofFuel n) expr env empty, ?_, ?_⟩
    · calc Machine.callValue (.ofFuel n) (.builtin .eval) [expr, env] [] s
        _ = Calculus.evalTagged (.ofFuel n) expr env .none s := rfl
        _ = Calculus.eval (.ofFuel n) expr env (s.skip 1) := Machine.evalTagged_none _ expr env
        _ = Calculus.eval (.ofFuel n) expr env (empty.behind s.out) := by rw [← from_empty s.out]; rfl
        _ = Ended.behind s.out (Calculus.eval (.ofFuel n) expr env empty) := heedless s.out empty
    · calc Machine.callValue (.ofFuel n) (.builtin .eval) [expr, env, .str "debug"] [] s
        _ = Calculus.evalTagged (.ofFuel n) expr env (.str "debug") s := rfl
        _ = Calculus.eval (.ofFuel n) expr env { s.skip 1 with out := s.out ++ text } := debug
        _ = Calculus.eval (.ofFuel n) expr env (empty.behind (s.out ++ text)) := by rw [from_empty]
        _ = Ended.behind (s.out ++ text) (Calculus.eval (.ofFuel n) expr env empty) := heedless _ empty
  · intro f unwritten
    rw [unwritten] at debug
    exact debug

end Knot
