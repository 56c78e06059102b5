import Knot.Proofs.Calls.Copies

/-!
Evaluating arrays. The elements are evaluated one after the other, row by row, each once, and what they give
is an array of objects of the same shape, with each value as it is at the place of its element. The first
element whose evaluation fails is the last one that is evaluated.
-/

namespace Knot

open Run

namespace Run

variable {α β γ : Type} {f : α → Run β} {s t u : Store}

/-- Steps with some values, one after the other, that all give something. -/
inductive InTurn (f : α → Run β) : List α → Store → List β → Store → Prop
  | nil (s : Store) : InTurn f [] s [] s
  | cons {a : α} {as : List α} {b : β} {bs : List β} {s t u : Store} :
      f a s = .ok b t → InTurn f as t bs u → InTurn f (a :: as) s (b :: bs) u

theorem InTurn.length {as : List α} {bs : List β} (steps : InTurn f as s bs t) : bs.length = as.length := by
  induction steps with
  | nil => rfl
  | cons _ _ ih => rw [List.length_cons, List.length_cons, ih]

theorem mapM_of_inTurn {as : List α} {bs : List β} (steps : InTurn f as s bs t) :
    as.mapM f s = .ok bs t := by
  induction steps with
  | nil => rfl
  | cons first _ ih =>
      rw [List.mapM_cons, bind_of_ok first, bind_of_ok ih]
      rfl

theorem mapM_of_stop {done rest : List α} {a : α} {bs : List β} {e : Stop} (steps : InTurn f done s bs t)
    (stops : f a t = .error e u) : (done ++ a :: rest).mapM f s = .error e u := by
  induction steps with
  | nil => rw [List.nil_append, List.mapM_cons, bind_of_error stops]
  | cons first _ ih => rw [List.cons_append, List.mapM_cons, bind_of_ok first, bind_of_error (ih stops)]

/-- Either every step gives something, or there is a first one that does not. -/
theorem inTurn_or_stops (f : α → Run β) (as : List α) (s : Store) :
    (∃ bs t, InTurn f as s bs t) ∨ ∃ done a rest bs t e u, as = done ++ a :: rest ∧
      InTurn f done s bs t ∧ f a t = .error e u := by
  induction as generalizing s with
  | nil => exact .inl ⟨[], s, .nil s⟩
  | cons a as ih =>
      cases first : f a s with
      | error e u => exact .inr ⟨[], a, as, [], s, e, u, rfl, .nil s, first⟩
      | ok b t =>
          rcases ih t with ⟨bs, u, steps⟩ | ⟨done, c, rest, bs, u, e, w, rfl, steps, stops⟩
          · exact .inl ⟨b :: bs, u, .cons first steps⟩
          · exact .inr ⟨a :: done, c, rest, b :: bs, u, e, w, rfl, .cons first steps, stops⟩

/-- How a run goes that takes a step with each value and then makes something of what the steps gave: either
every step gives something, or the first one that fails is the last one, and the run fails as it does. -/
theorem mapM_bind_cases (f : α → Run β) (g : List β → Run γ) (as : List α) (s : Store) :
    (∃ bs t, InTurn f as s bs t ∧ (as.mapM f >>= g) s = g bs t) ∨
      ∃ done a rest bs t e u, as = done ++ a :: rest ∧ InTurn f done s bs t ∧ f a t = .error e u ∧
        (as.mapM f >>= g) s = .error e u := by
  rcases inTurn_or_stops f as s with ⟨bs, t, steps⟩ | ⟨done, a, rest, bs, t, e, u, rfl, steps, stops⟩
  · exact .inl ⟨bs, t, steps, bind_of_ok (mapM_of_inTurn steps)⟩
  · exact .inr ⟨done, a, rest, bs, t, e, u, rfl, steps, stops, bind_of_error (mapM_of_stop steps stops)⟩

end Run

/-- An array shows now what it was made with, but for its elements. -/
theorem Store.now_array_shape (s : Store) (mark : Nat) (dtype : DType) (shape : List Nat) (data : List Value) :
    ∃ elements, s.now (.array mark dtype shape data) = .array mark dtype shape elements := by
  rw [now, Value.withContents]
  split <;> exact ⟨_, rfl⟩

/-- Mapping over an array calls the function with each element that the array has now. -/
theorem mapGrid_array (f : Value → Run Value) {s : Store} {v : Value} {mark : Nat} {dtype : DType}
    {shape : List Nat} {elements : List Value} (held : s.now v = .array mark dtype shape elements) :
    Calculus.mapGrid f v s = (elements.mapM (fun element => marked element >>= f) >>= array .object shape) s := by
  have read : now v s = .ok (.array mark dtype shape elements) s := congrArg (EStateM.Result.ok · s) held
  unfold Calculus.mapGrid
  rw [bind_of_ok read]
  rfl

namespace Machine

/-- Evaluating an element of an array, which gets a mark where it has none. -/
def evaluateElement (k : Machine) (env element : Value) : Run Value := marked element >>= (k.evaluate · env)

/-- How an array is evaluated that has some elements now: either every element gives a value, and an array of
objects of the same shape holds these values, or the evaluation of one element fails, none follows it, and
the whole fails alike. -/
def EvaluatesEach (k : Machine) (array env : Value) (s : Store) (shape : List Nat) (elements : List Value) :
    Prop :=
  (∃ vs t, InTurn (k.evaluateElement env) elements s vs t ∧ vs.length = elements.length ∧
    Calculus.eval k array env s = .ok (.array t.nextMark .object shape vs) (t.skip 1)) ∨
  ∃ done element rest vs t e u, elements = done ++ element :: rest ∧
    InTurn (k.evaluateElement env) done s vs t ∧ k.evaluateElement env element t = .error e u ∧
    Calculus.eval k array env s = .error e u

end Machine

end Knot
