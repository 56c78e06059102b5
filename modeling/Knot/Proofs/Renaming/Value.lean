import Knot.Number
import Knot.Store
import Mathlib.Order.Monotone.Basic

/-!
Renamings: other marks and other frames for those that a value mentions, in the same order, and other
scopes for functions. What a value shows does not depend on any of them, so every operation gives
renamed results for renamed operands.
-/

namespace Knot

structure Renaming where
  mark : Nat → Nat
  frame : Nat → Nat
  mark_injective : Function.Injective mark
  frame_strict : StrictMono frame
  mark_zero : mark 0 = 0
  frame_zero : frame 0 = 0
  /-- What a function sees where that is not what it saw, renamed. -/
  sees : Value → Option Scope := fun _ => none
  /-- The marks of tallies that renamed values do not mention and that go their own way. -/
  own : List Nat := []
  own_apart : ∀ m ∈ own, ∀ x, mark x ≠ m := by simp

attribute [simp] Renaming.mark_zero Renaming.frame_zero

namespace Renaming

variable (r : Renaming)

@[simp]
theorem mark_inj {m n : Nat} : r.mark m = r.mark n ↔ m = n := r.mark_injective.eq_iff

@[simp]
theorem frame_inj {m n : Nat} : r.frame m = r.frame n ↔ m = n := r.frame_strict.injective.eq_iff

@[simp]
theorem mark_eq_zero {m : Nat} : r.mark m = 0 ↔ m = 0 := by
  rw [← r.mark_zero, r.mark_inj, r.mark_zero]

@[simp]
theorem frame_eq_zero {m : Nat} : r.frame m = 0 ↔ m = 0 := by
  rw [← r.frame_zero, r.frame_inj, r.frame_zero]

end Renaming

mutual

def Value.rename (r : Renaming) (v : Value) : Value :=
  match v with
  | .none => .none
  | .bool b => .bool b
  | .int i => .int i
  | .str s => .str s
  | .kind k => .kind k
  | .builtin b => .builtin b
  | .member k m => .member k m
  | .inert name => .inert name
  | .recurring text => .recurring text
  | .float mark x => .float (r.mark mark) x
  | .list mark items => .list (r.mark mark) (renameAll r items)
  | .tuple mark items => .tuple (r.mark mark) (renameAll r items)
  | .dict mark entries => .dict (r.mark mark) (renameEntries r entries)
  | .range mark start stop step => .range (r.mark mark) start stop step
  | .array mark dtype shape data => .array (r.mark mark) dtype shape (renameAll r data)
  | .closure mark header body scope =>
      .closure (r.mark mark) header body
        ((r.sees (.closure mark header body scope)).getD (renameScope r scope))
  | .method mark owner m => .method (r.mark mark) (owner.rename r) m
  | .frame id => .frame (r.frame id)
  | .environment id outer => .environment (r.frame id) (outer.rename r)
  | .procedure mark code env => .procedure (r.mark mark) (code.rename r) (env.rename r)
  | .var mark sym => .var (r.mark mark) (sym.rename r)
  | .application mark head args env =>
      .application (r.mark mark) (head.rename r) (args.rename r) (env.rename r)
  | .thunk mark generator => .thunk (r.mark mark) (generator.rename r)
  | .counted mark name generator counts =>
      .counted (r.mark mark) name (generator.rename r) (counts.rename r)
  | .countedThunk mark inner counts => .countedThunk (r.mark mark) (inner.rename r) (counts.rename r)
  | .tally mark derivations thunkCalls =>
      .tally (r.mark mark) (derivations.rename r) (thunkCalls.rename r)
  | .checkRun mark name strict trace results =>
      .checkRun (r.mark mark) (name.rename r) (strict.rename r) (trace.rename r) (results.rename r)
  | .manager mark limit => .manager (r.mark mark) (limit.rename r)
  | .limited mark owner func => .limited (r.mark mark) (owner.rename r) (func.rename r)

def Value.renameAll (r : Renaming) (vs : List Value) : List Value :=
  match vs with
  | [] => []
  | v :: rest => v.rename r :: renameAll r rest

def Value.renameScope (r : Renaming) (scope : List (String × Value)) : List (String × Value) :=
  match scope with
  | [] => []
  | (name, v) :: rest => (name, v.rename r) :: renameScope r rest

def Value.renameEntries (r : Renaming) (entries : List (Value × Value)) : List (Value × Value) :=
  match entries with
  | [] => []
  | (k, v) :: rest => (k.rename r, v.rename r) :: renameEntries r rest

end

/-- Environments are held by their frames. -/
def Renaming.holder (r : Renaming) : Holder → Holder
  | .kind k => .kind k
  | .environment id => .environment (r.frame id)

/-- An entry with its key and its value renamed. -/
def Renaming.entry (r : Renaming) (entry : Value × Value) : Value × Value :=
  (entry.1.rename r, entry.2.rename r)

@[simp]
theorem Renaming.entry_mk (r : Renaming) (k v : Value) : r.entry (k, v) = (k.rename r, v.rename r) :=
  rfl

@[simp]
theorem Renaming.entry_fst (r : Renaming) (e : Value × Value) : (r.entry e).1 = e.1.rename r := rfl

@[simp]
theorem Renaming.entry_snd (r : Renaming) (e : Value × Value) : (r.entry e).2 = e.2.rename r := rfl

namespace Value

variable (r : Renaming)

@[simp]
theorem renameAll_eq (vs : List Value) : renameAll r vs = vs.map (·.rename r) := by
  induction vs with
  | nil => rfl
  | cons v rest ih => simp [renameAll, ih]

@[simp]
theorem renameEntries_eq (entries : List (Value × Value)) :
    renameEntries r entries = entries.map r.entry := by
  induction entries with
  | nil => rfl
  | cons entry rest ih => simp [renameEntries, ih, Renaming.entry]

@[simp]
theorem renameScope_eq (scope : Scope) :
    renameScope r scope = scope.map (Prod.map id (·.rename r)) := by
  induction scope with
  | nil => rfl
  | cons entry rest ih => simp [renameScope, ih, Prod.map]

attribute [simp] rename

/-- The values that a value is directly made of. What a closure sees is not part of it: no operation
looks at it. -/
def children : Value → List Value
  | list _ items | tuple _ items | array _ _ _ items => items
  | dict _ entries => entries.map (·.1) ++ entries.map (·.2)
  | method _ owner _ => [owner]
  | environment _ outer => [outer]
  | procedure _ code env => [code, env]
  | var _ sym => [sym]
  | application _ head args env => [head, args, env]
  | thunk _ generator => [generator]
  | counted _ _ generator counts => [generator, counts]
  | countedThunk _ inner counts => [inner, counts]
  | tally _ derivations thunkCalls => [derivations, thunkCalls]
  | checkRun _ name strict trace results => [name, strict, trace, results]
  | manager _ limit => [limit]
  | limited _ owner func => [owner, func]
  | _ => []

theorem sizeOf_lt_of_mem_children {u v : Value} (member : u ∈ v.children) : sizeOf u < sizeOf v := by
  cases v with
  | list _ items | tuple _ items | array _ _ _ items =>
      have below : sizeOf u < sizeOf items := List.sizeOf_lt_of_mem member
      simp
      omega
  | dict _ entries =>
      rcases List.mem_append.mp (show u ∈ entries.map (·.1) ++ entries.map (·.2) from member) with
        member | member
      all_goals
        obtain ⟨⟨k, x⟩, present, rfl⟩ := List.mem_map.mp member
        have below := List.sizeOf_lt_of_mem present
        simp at below ⊢
        omega
  | _ => simp [children] at member <;> grind

/-- A property of all values follows for each from the values that it is made of. -/
theorem induction_children {P : Value → Prop} (step : ∀ v, (∀ u ∈ v.children, P u) → P v)
    (v : Value) : P v := by
  induction h : sizeOf v using Nat.strong_induction_on generalizing v with
  | _ n ih =>
      subst h
      exact step v fun u member => ih _ (sizeOf_lt_of_mem_children member) u rfl

/-- The same where a step also needs the values that those are made of. -/
theorem induction_nested {P : Value → Prop}
    (step : ∀ v, (∀ u ∈ v.children, P u) → (∀ u ∈ v.children, ∀ w ∈ u.children, P w) → P v)
    (v : Value) : P v := by
  have both : P v ∧ ∀ u ∈ v.children, P u := by
    induction v using induction_children with
    | step v ih =>
        have made : ∀ u ∈ v.children, P u := fun u member => (ih u member).1
        exact ⟨step v made fun u member => (ih u member).2, made⟩
  exact both.1

variable (r : Renaming) (v : Value)

@[simp]
theorem kind?_rename : (v.rename r).kind? = v.kind? := by
  induction v using induction_children with
  | step v ih => cases v <;> simp_all [kind?, children]

@[simp]
theorem typeName_rename : (v.rename r).typeName = v.typeName := by
  have kinds := kind?_rename r v
  cases v <;> simp_all [typeName]

@[simp]
theorem operandName_rename : (v.rename r).operandName = v.operandName := by
  have kinds := kind?_rename r v
  cases v <;> simp_all [operandName]

@[simp]
theorem typeText_rename : (v.rename r).typeText = v.typeText := by
  have kinds := kind?_rename r v
  cases v <;> simp_all [typeText]

@[simp]
theorem isCallable_rename : (v.rename r).isCallable = v.isCallable := by
  cases v <;> rfl

@[simp]
theorem number?_rename : (v.rename r).number? = v.number? := by
  cases v <;> rfl

@[simp]
theorem sameMark_rename (a b : Nat) : sameMark (r.mark a) (r.mark b) = sameMark a b := by
  rw [Bool.eq_iff_iff]
  simp [sameMark]

@[simp]
theorem same_rename (a b : Value) : same (a.rename r) (b.rename r) = same a b := by
  cases a with
  | tuple m xs => cases b with
    | tuple n ys => cases xs <;> cases ys <;> simp [same]
    | _ => simp [same]
  | _ => cases b <;> simp [same]

@[simp]
theorem ofLiteral_rename (mark : Nat) (l : Literal) :
    (ofLiteral mark l).rename r = ofLiteral (r.mark mark) l := by
  cases l <;> rfl

@[simp]
theorem holder?_rename : (v.rename r).holder? = v.holder?.map r.holder := by
  cases v <;> rfl

end Value

end Knot
