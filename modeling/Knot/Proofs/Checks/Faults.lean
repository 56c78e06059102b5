import Knot.Check.CheckRun
import Knot.Proofs.Renaming.Printer

/-!
Comparing two values and writing their texts may fail, but never as a failed check does. So what a
check run catches is its own verdict and nothing else.
-/

namespace Knot

/-- Whether a fault is that of a failed check. -/
def Fault.isMismatch : Fault → Bool
  | .mismatch .. => true
  | _ => false

/-- A computation that fails in no way that a failed check does. -/
def NoMismatch {α : Type} (x : Except Fault α) : Prop := ∀ f, x = .error f → f.isMismatch = false

namespace NoMismatch

variable {α β : Type}

@[simp]
theorem ok (a : α) : NoMismatch (.ok a) := nofun

@[simp]
theorem pure (a : α) : NoMismatch (Pure.pure a) := nofun

@[simp]
theorem error {f : Fault} : NoMismatch (.error f : Except Fault α) ↔ f.isMismatch = false :=
  ⟨fun h => h f rfl, fun h _ e => by cases e; exact h⟩

theorem bind {x : Except Fault α} {f : α → Except Fault β} (first : NoMismatch x)
    (second : ∀ a, NoMismatch (f a)) : NoMismatch (x >>= f) := by
  cases x with
  | ok a => exact second a
  | error e => exact fun g same => first g (by cases same; rfl)

theorem map {x : Except Fault α} (f : α → β) (first : NoMismatch x) : NoMismatch (f <$> x) := by
  cases x with
  | ok a => nofun
  | error e => exact fun g same => first g (by cases same; rfl)

theorem mapM {f : α → Except Fault β} (each : ∀ a, NoMismatch (f a)) (xs : List α) :
    NoMismatch (xs.mapM f) := by
  induction xs with
  | nil => exact pure []
  | cons x xs ih =>
      rw [List.mapM_cons]
      exact (each x).bind fun b => ih.bind fun bs => pure _

end NoMismatch

open NoMismatch

/-! Grids and their elements. -/

theorem Number.toFloat_noMismatch (n : Number) : NoMismatch n.toFloat := by
  unfold Number.toFloat
  repeat' split
  all_goals simp [Fault.isMismatch]

namespace Grid

theorem integerOf_noMismatch (shown s : String) : NoMismatch (integerOf shown s) := by
  unfold integerOf
  split <;> simp [Fault.isMismatch]

theorem doubleOf_noMismatch (shown s : String) : NoMismatch (doubleOf shown s) := by
  unfold doubleOf
  split <;> simp [Fault.isMismatch]

theorem truncate_noMismatch (x : Float) : NoMismatch (truncate x) := by
  unfold truncate
  split <;> simp [Fault.isMismatch]

theorem toInteger_noMismatch (v : Value) : NoMismatch (toInteger v) := by
  fun_induction toInteger v <;>
    simp [Fault.isMismatch, truncate_noMismatch, integerOf_noMismatch, *]

theorem toDouble_noMismatch (v : Value) : NoMismatch (toDouble v) := by
  fun_induction toDouble v <;>
    simp [Fault.isMismatch, doubleOf_noMismatch, Number.toFloat_noMismatch, *]

theorem fitWord_noMismatch (dtype : DType) (i : Int) : NoMismatch (fitWord dtype i) := by
  unfold fitWord
  repeat' split
  all_goals simp [Fault.isMismatch]

theorem wrapWord_noMismatch (dtype : DType) (i : Int) : NoMismatch (wrapWord dtype i) := by
  unfold wrapWord
  repeat' split
  all_goals simp [Fault.isMismatch]

theorem given_noMismatch (dtype : DType) (v : Value) :
    NoMismatch (Reading.simple.given dtype v) := by
  unfold Reading.given
  split
  · simp
  · exact map _ (ok _)
  · exact map _ (ok _)
  · exact map _ (toDouble_noMismatch v)
  · split
    · exact map _ (fitWord_noMismatch _ _)
    · exact (toInteger_noMismatch v).bind fun i => (wrapWord_noMismatch _ _).bind fun _ => pure _

theorem converted_noMismatch (dtype : DType) (v : Value) : NoMismatch (converted dtype v) := by
  unfold converted
  split
  · simp
  · simp
  · simp
  · exact map _ (doubleOf_noMismatch _ _)
  · exact map _ (toDouble_noMismatch _)
  · exact (integerOf_noMismatch _ _).bind fun i => (wrapWord_noMismatch _ _).bind fun _ => pure _
  · simp

theorem cast_noMismatch (dtype : DType) (e : Element) :
    NoMismatch (Reading.simple.cast dtype e) := by
  unfold Reading.cast
  split
  · exact given_noMismatch _ _
  · exact converted_noMismatch _ _

theorem fitted_noMismatch (dtype : DType) (data : List Element) :
    NoMismatch (Reading.simple.fitted dtype data) := by
  unfold Reading.fitted
  split
  · refine (NoMismatch.mapM (fun e => ?_) data).bind fun _ => pure _
    split
    · exact ok _
    · exact map _ (ok _)
  · exact pure _

theorem ofValue_noMismatch (v : Value) : NoMismatch (ofValue v) := by
  unfold ofValue
  split
  · exact ok _
  · simp only [make]
    split
    · simp [Fault.isMismatch]
    · exact (fitted_noMismatch _ _).bind fun dtype =>
        (NoMismatch.mapM (cast_noMismatch dtype) _).bind fun _ => pure _

theorem meeting_noMismatch (a b : Grid) : NoMismatch (meeting a b) := by
  unfold meeting
  split <;> simp [Fault.isMismatch]

theorem operand_noMismatch (beside : DType) (v : Value) : NoMismatch (operand beside v) := by
  unfold operand
  split
  · unfold plainInteger
    split
    · exact ok _
    · exact (Number.toFloat_noMismatch _).bind fun _ => pure _
    · exact ok _
    · exact ok _
    · exact ok _
  · exact ok _
  · exact (ofValue_noMismatch _).bind fun _ => pure _

theorem operands_noMismatch (a b : Value) : NoMismatch (operands a b) := by
  unfold operands
  split
  · exact (operand_noMismatch _ _).bind fun _ => (operand_noMismatch _ _).bind fun _ => pure _
  · exact (ofValue_noMismatch _).bind fun _ => (operand_noMismatch _ _).bind fun _ => pure _
  · exact (operand_noMismatch _ _).bind fun _ => (ofValue_noMismatch _).bind fun _ => pure _
  · exact (ofValue_noMismatch _).bind fun _ => (ofValue_noMismatch _).bind fun _ => pure _

section

variable {equal : Value → Value → Except Fault Bool} (compares : ∀ a b, NoMismatch (equal a b))
include compares

theorem elementEqual_noMismatch (left right : DType) (a b : Value) :
    NoMismatch (elementEqual equal left right a b) := by
  unfold elementEqual
  split
  · exact compares a b
  · exact compares a b
  · exact compares a b
  · exact ok _
  · exact ok _
  · split
    · exact (toDouble_noMismatch a).bind fun _ => (toDouble_noMismatch b).bind fun _ => pure _
    · exact compares a b

theorem equalities_noMismatch (a b : Grid) : NoMismatch (equalities equal a b) :=
  (meeting_noMismatch a b).bind fun (_, pairs) =>
    (NoMismatch.mapM (fun (x, y) => elementEqual_noMismatch compares _ _ x y) pairs).bind fun _ =>
      pure _

theorem equal_noMismatch (a b : Grid) : NoMismatch (Grid.equal equal a b) := by
  unfold Grid.equal
  split
  · exact (equalities_noMismatch compares a b).bind fun _ => pure _
  · exact ok _

end

theorem soleTruth_noMismatch (truths : List Bool) : NoMismatch (soleTruth truths) := by
  unfold soleTruth
  split <;> simp [Fault.isMismatch]

end Grid

/-! Equality. -/

namespace Value

section

variable {arrays : Value → Value → Except Fault Bool}

theorem memberEqual_noMismatch {a b : Value} (equal : NoMismatch (equalWith arrays a b)) :
    NoMismatch (memberEqual arrays a b) := by
  unfold memberEqual orSame
  split
  · exact ok true
  · exact equal

theorem membersEqual_noMismatch (xs : List Value)
    (members : ∀ x ∈ xs, ∀ y, NoMismatch (memberEqual arrays x y)) (ys : List Value) :
    NoMismatch (membersEqual arrays xs ys) := by
  induction xs generalizing ys with
  | nil => cases ys <;> simp [membersEqual]
  | cons x xs ih =>
      cases ys with
      | nil => simp [membersEqual]
      | cons y ys =>
          have rest := ih (fun x member => members x (by simp [member])) ys
          rw [membersEqual]
          refine (members x (by simp) y).bind fun equal => ?_
          cases equal with
          | true => exact rest
          | false => exact pure false

theorem entriesEqual_noMismatch (xs : List (Value × Value))
    (values : ∀ x ∈ xs, ∀ y, NoMismatch (memberEqual arrays x.2 y)) (ys : List (Value × Value)) :
    NoMismatch (entriesEqual arrays xs ys) := by
  induction xs with
  | nil => simp [entriesEqual]
  | cons x xs ih =>
      have rest := ih fun x member => values x (by simp [member])
      rw [entriesEqual]
      split
      · refine (values x (by simp) _).bind fun equal => ?_
        cases equal with
        | true => exact rest
        | false => exact pure false
      · exact ok false

theorem both_noMismatch {x y : Except Fault Bool} (first : NoMismatch x) (second : NoMismatch y) :
    NoMismatch (do if ← x then y else return false) := by
  refine first.bind fun equal => ?_
  cases equal with
  | true => exact second
  | false => exact pure false

theorem equalWith_noMismatch (compares : ∀ a b, NoMismatch (arrays a b)) (a b : Value) :
    NoMismatch (equalWith arrays a b) := by
  induction a using Value.induction_children generalizing b with
  | step a ih =>
      have member (u : Value) (present : u ∈ a.children) (y : Value) :
          NoMismatch (memberEqual arrays u y) := memberEqual_noMismatch (ih u present y)
      have apart := compares a b
      rw [equalWith.eq_def]
      simp only [orSame_equalWith]
      cases a with
      | array => exact apart
      | list _ xs =>
          cases b with
          | array => exact apart
          | list _ ys =>
              dsimp only
              split
              · exact membersEqual_noMismatch xs member ys
              · exact ok false
          | _ => exact ok _
      | tuple _ xs =>
          cases b with
          | array => exact apart
          | tuple _ ys => exact membersEqual_noMismatch xs member ys
          | _ => exact ok _
      | dict _ xs =>
          cases b with
          | array => exact apart
          | dict _ ys =>
              dsimp only
              split
              · exact entriesEqual_noMismatch xs (fun x present => member x.2
                  (List.mem_append_right _ (List.mem_map_of_mem present))) ys
              · exact ok false
          | _ => exact ok _
      | recurring =>
          cases b with
          | array => exact apart
          | recurring => exact error.mpr rfl
          | _ => exact ok _
      | procedure | var | application | tally | checkRun =>
          simp only [children, List.mem_cons, forall_eq_or_imp, List.not_mem_nil, false_imp_iff,
            implies_true, and_true] at member
          cases b with
          | array => exact apart
          | checkRun =>
              first
              | exact ok _
              | exact both_noMismatch (member.1 _) (both_noMismatch (member.2.1 _)
                  (both_noMismatch (member.2.2.1 _) (member.2.2.2 _)))
          | _ => first | exact ok _ | simp only [member, both_noMismatch]
      | _ =>
          cases b with
          | array => exact apart
          | _ => exact ok _

end

theorem equalAt_noMismatch (depth : Nat) (a b : Value) : NoMismatch (equalAt depth a b) := by
  induction depth generalizing a b with
  | zero => exact equalWith_noMismatch (fun _ _ => error.mpr rfl) a b
  | succ depth ih =>
      exact equalWith_noMismatch (fun a b => (Grid.operands_noMismatch a b).bind fun (x, y) =>
        (Grid.equalities_noMismatch ih x.grid y.grid).bind fun (_, truths) =>
          Grid.soleTruth_noMismatch truths) a b

theorem equal_noMismatch (a b : Value) : NoMismatch (equal a b) := equalAt_noMismatch _ a b

/-! Texts. -/

theorem lacks_isMismatch (v : Value) (name : String) : (v.lacks name).isMismatch = false := by
  unfold lacks
  split <;> rfl

theorem truth_noMismatch (v : Value) : NoMismatch v.truth := by
  unfold truth
  split <;> simp [Fault.isMismatch]

theorem isInner_noMismatch (env : Value) : NoMismatch (isInner env) := by
  refine NoMismatch.bind ?_ truth_noMismatch
  unfold enclosing
  split
  · exact ok _
  · exact ok _
  · exact ok _
  · split
    · exact ok _
    · exact error.mpr (lacks_isMismatch _ _)

theorem lookup_noMismatch (frames : Nat → Frame) (name : String) (env : Value) :
    NoMismatch (env.lookup frames name) := by
  fun_induction Value.lookup frames name env with
  | case10 => exact error.mpr (lacks_isMismatch _ _)
  | _ => simp [Fault.isMismatch, *]

theorem integerText_noMismatch (i : Int) : NoMismatch (integerText i) := by
  unfold integerText
  split <;> simp [Fault.isMismatch]

theorem requireEntry_noMismatch (key : String) (entries : List (Value × Value)) :
    NoMismatch (requireEntry key entries) := by
  unfold requireEntry
  split <;> simp [Fault.isMismatch]

section

variable {frames : Nat → Frame}

theorem showAll_noMismatch (vs : List Value) (members : ∀ v ∈ vs, NoMismatch (showWith frames v)) :
    NoMismatch (showAll frames vs) := by
  induction vs with
  | nil => simp [showAll]
  | cons v rest ih =>
      have rest := ih fun u member => members u (by simp [member])
      rw [showAll]
      exact (members v (by simp)).bind fun _ => rest.bind fun _ => pure _

theorem showEntries_noMismatch (entries : List (Value × Value))
    (keys : ∀ e ∈ entries, NoMismatch (showWith frames e.1))
    (values : ∀ e ∈ entries, NoMismatch (showWith frames e.2)) :
    NoMismatch (showEntries frames entries) := by
  induction entries with
  | nil => simp [showEntries]
  | cons e rest ih =>
      have rest := ih (fun u member => keys u (by simp [member]))
        fun u member => values u (by simp [member])
      rw [showEntries]
      exact (keys e (by simp)).bind fun _ => (values e (by simp)).bind fun _ =>
        rest.bind fun _ => pure _

theorem showEntry_noMismatch (key : String) (entries : List (Value × Value))
    (values : ∀ e ∈ entries, NoMismatch (showPlain frames e.2)) :
    NoMismatch (showEntry frames key entries) := by
  induction entries with
  | nil => simp [showEntry, Fault.isMismatch]
  | cons e rest ih =>
      have rest := ih fun u member => values u (by simp [member])
      rw [showEntry.eq_def]
      dsimp only
      split
      · split
        · exact values e (by simp)
        · exact rest
      · exact rest

theorem discards_noMismatch {x y : Except Fault Value} {f : Fault} (first : NoMismatch x)
    (second : NoMismatch y) (other : f.isMismatch = false) :
    NoMismatch (do discard x; discard y; throw f : Except Fault String) :=
  (map _ first).bind fun _ => (map _ second).bind fun _ => error.mpr other

theorem shown_noMismatch (v : Value) :
    NoMismatch (showWith frames v) ∧ NoMismatch (showPlain frames v) := by
  induction v using Value.induction_nested with
  | step v ih nested =>
      have text : NoMismatch (showWith frames v) := by
        rw [showWith.eq_def]
        cases v with
        | int i => exact integerText_noMismatch i
        | list _ items | tuple _ items =>
            exact map _ (showAll_noMismatch items fun u member => (ih u member).1)
        | array _ _ _ items =>
            exact (showAll_noMismatch items fun u member => (ih u member).1).bind fun _ => pure _
        | dict _ entries =>
            exact map _ (showEntries_noMismatch entries
              (fun e present => (ih e.1 (List.mem_append_left _ (List.mem_map_of_mem present))).1)
              (fun e present => (ih e.2 (List.mem_append_right _ (List.mem_map_of_mem present))).1))
        | range _ start stop step =>
            refine (integerText_noMismatch start).bind fun _ =>
              (integerText_noMismatch stop).bind fun _ => ?_
            split
            · exact pure _
            · exact (integerText_noMismatch step).bind fun _ => pure _
        | method _ owner m =>
            have owned := (ih owner (by simp [children])).1
            dsimp only
            split
            · exact owned.bind fun _ => pure _
            · exact pure _
        | environment id outer =>
            have enclosed := (ih outer (by simp [children])).1
            dsimp only
            split
            · exact pure _
            · exact enclosed.bind fun _ => pure _
        | procedure mark code env =>
            have closed := (ih env (by simp [children])).1
            cases code with
            | dict m entries =>
                refine (requireEntry_noMismatch _ entries).bind fun _ =>
                  (showEntry_noMismatch _ entries fun e present =>
                    (nested (.dict m entries) (by simp [children]) e.2
                      (List.mem_append_right _ (List.mem_map_of_mem present))).2).bind fun _ =>
                  (isInner_noMismatch env).bind fun inner => ?_
                cases inner with
                | true => exact closed.bind fun _ => pure _
                | false => exact pure _
            | _ =>
                exact discards_noMismatch (lookup_noMismatch frames "body" _)
                  (lookup_noMismatch frames "parameters" _) rfl
        | var _ sym => exact (ih sym (by simp [children])).1.bind fun _ => pure _
        | application _ head args env =>
            refine (isInner_noMismatch env).bind fun inner =>
              (ih head (by simp [children])).1.bind fun _ =>
              (ih args (by simp [children])).1.bind fun _ => ?_
            cases inner with
            | true => exact (ih env (by simp [children])).1.bind fun _ => pure _
            | false => exact pure _
        | thunk _ generator =>
            dsimp only
            split
            · exact ok _
            · exact (ih generator (by simp [children])).2.bind fun _ => pure _
        | tally _ d c =>
            exact (ih d (by simp [children])).1.bind fun _ =>
              (ih c (by simp [children])).1.bind fun _ => pure _
        | checkRun _ name strict trace results =>
            exact (ih name (by simp [children])).1.bind fun _ =>
              (ih strict (by simp [children])).1.bind fun _ =>
              (ih trace (by simp [children])).1.bind fun _ =>
              (ih results (by simp [children])).1.bind fun _ => pure _
        | _ => exact ok _
      refine ⟨text, ?_⟩
      rw [showPlain.eq_def]
      cases v with
      | str => exact ok _
      | array _ dtype shape data =>
          have texts := showAll_noMismatch data fun u member => (ih u member).1
          dsimp only
          split
          · exact (ih _ (by simp [children])).2
          · exact texts.bind fun _ => pure _
      | _ => exact text

end

end Value

end Knot
