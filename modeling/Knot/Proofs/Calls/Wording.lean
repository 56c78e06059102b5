import Knot.Proofs.Checks.Data

/-!
What can be written. A value has a text, unless an integer that shows in it is too long, if the code of
each procedure has a body and parameters and procedures and applications close over environments.
-/

namespace Knot.Value

/-- An environment: a frame inside another environment, or the outermost one. -/
inductive IsEnvironment : Value → Prop
  | outermost (id : Nat) : IsEnvironment (environment id none)
  | inside (id : Nat) {outer : Value} : IsEnvironment outer → IsEnvironment (environment id outer)

/-- What is under a key. -/
def underKey? (key : String) (entries : List (Value × Value)) : Option Value :=
  match entries with
  | [] => Option.none
  | (k, v) :: rest =>
      match k with
      | str k => if k = key then some v else underKey? key rest
      | _ => underKey? key rest

/-- A value whose text does not depend on what it holds. -/
def isFlat (v : Value) : Bool :=
  match v with
  | none | bool _ | float .. | str _ | kind _ | builtin _ | closure .. | member .. | frame _ | counted ..
  | countedThunk .. | limited .. | inert _ | recurring _ | manager .. => true
  | _ => false

/-- A value in whose text only certain integers occur: the code of every procedure has a body and
parameters, and procedures and applications close over environments. -/
inductive Legible (of : Int → Prop) : Value → Prop
  | flat {v : Value} : v.isFlat = true → Legible of v
  | int {i : Int} : of i → Legible of (int i)
  | range {mark : Nat} {start stop step : Int} : of start → of stop → of step →
      Legible of (range mark start stop step)
  | list {mark : Nat} {items : List Value} : (∀ v ∈ items, Legible of v) → Legible of (list mark items)
  | tuple {mark : Nat} {items : List Value} : (∀ v ∈ items, Legible of v) → Legible of (tuple mark items)
  | array {mark : Nat} {dtype : DType} {shape : List Nat} {data : List Value} : (∀ v ∈ data, Legible of v) →
      Legible of (array mark dtype shape data)
  | dict {mark : Nat} {entries : List (Value × Value)} : (∀ e ∈ entries, Legible of e.1) →
      (∀ e ∈ entries, Legible of e.2) → Legible of (dict mark entries)
  | method {mark : Nat} {owner : Value} {m : Method} : Legible of owner → Legible of (method mark owner m)
  | outermost {id : Nat} : Legible of (environment id none)
  | environment {id : Nat} {outer : Value} : Legible of outer → Legible of (environment id outer)
  | procedure {mark mark' : Nat} {entries : List (Value × Value)} {params env : Value} :
      hasKey "body" entries = true → underKey? "parameters" entries = some params → Legible of params →
      IsEnvironment env → Legible of (procedure mark (dict mark' entries) env)
  | var {mark : Nat} {sym : Value} : Legible of sym → Legible of (var mark sym)
  | application {mark : Nat} {head args env : Value} : Legible of head → Legible of args →
      IsEnvironment env → Legible of (application mark head args env)
  | thunk {mark : Nat} {generator : Value} : Legible of generator → Legible of (thunk mark generator)
  | tally {mark : Nat} {derivations calls : Value} : Legible of derivations → Legible of calls →
      Legible of (tally mark derivations calls)
  | checkRun {mark : Nat} {name strict trace results : Value} : Legible of name → Legible of strict →
      Legible of trace → Legible of results → Legible of (checkRun mark name strict trace results)

variable {of : Int → Prop} {frames : Nat → Frame} {v env : Value}

theorem IsEnvironment.showWith_worded (isEnvironment : env.IsEnvironment) : Worded of (env.showWith frames) := by
  induction isEnvironment with
  | outermost id => rw [showWith.eq_def]; exact .ok _
  | inside id inside ih =>
      rw [showWith.eq_def]
      cases inside <;> exact ih.bind fun _ => .ok _

/-- Whether an environment is inside another one can be told. -/
theorem IsEnvironment.isInner_worded (isEnvironment : env.IsEnvironment) : Worded of env.isInner := by
  cases isEnvironment with
  | outermost => exact .ok _
  | inside id inside => cases inside <;> exact .ok _

/-- What follows the text of an environment, which is only named where it is the outermost one. -/
theorem IsEnvironment.closed_worded (isEnvironment : env.IsEnvironment) {α : Type} {f : String → Except Fault α}
    (rest : ∀ text, Worded of (f text)) (inner : Bool) :
    Worded of (if inner then env.showWith frames >>= f else pure (Text.quoted outermostName) >>= f) := by
  cases inner with
  | true => exact isEnvironment.showWith_worded.bind rest
  | false => exact rest _

theorem showEntry_worded {key : String} {entries : List (Value × Value)} {shown : Value}
    (known : underKey? key entries = some shown) (worded : Worded of (shown.showPlain frames)) :
    Worded of (showEntry frames key entries) := by
  induction entries with
  | nil => cases known
  | cons e entries ih =>
      obtain ⟨k, v⟩ := e
      rw [showEntry.eq_def]
      cases k with
      | str k =>
          by_cases here : k = key
          · have same : v = shown := by simpa [underKey?, here] using known
            simpa only [here, if_true, same] using worded
          · have later : underKey? key entries = some shown := by simpa [underKey?, here] using known
            simpa only [here, if_false] using ih later
      | _ => exact ih known

/-- A value that is neither a text nor an array is written for a reader as it is written. -/
theorem showPlain_eq (holds : v.isFlat = false) (other : v.isArray = false) :
    v.showPlain frames = v.showWith frames := by
  rw [showPlain.eq_def]
  cases v with
  | str => cases holds
  | array => cases other
  | _ => rfl

/-- A legible value has a text, unless an integer in it is too long. -/
theorem Legible.worded (legible : v.Legible of) :
    Worded of (v.showWith frames) ∧ Worded of (v.showPlain frames) := by
  induction legible with
  | @flat v flat =>
      have shown : Worded of (v.showWith frames) := by
        rw [showWith.eq_def]
        cases v with
        | none | bool | float | str | kind | builtin | closure | member | frame | counted | countedThunk
        | limited | inert | recurring | manager => exact .ok _
        | _ => cases flat
      refine ⟨shown, ?_⟩
      rw [showPlain.eq_def]
      cases v with
      | str s => exact .ok s
      | array => cases flat
      | _ => exact shown
  | @int i among =>
      rw [showPlain_eq rfl rfl, and_self, showWith.eq_def]
      exact .integerText among
  | range start stop step =>
      rw [showPlain_eq rfl rfl, and_self, showWith.eq_def]
      refine .bind (.integerText start) fun _ => .bind (.integerText stop) fun _ => ?_
      dsimp only
      split
      · exact .ok _
      · exact .bind (.integerText step) fun _ => .ok _
  | list _ ih =>
      rw [showPlain_eq rfl rfl, and_self, showWith.eq_def]
      exact (showAll_worded frames fun v member => (ih v member).1).map listText
  | tuple _ ih =>
      rw [showPlain_eq rfl rfl, and_self, showWith.eq_def]
      exact (showAll_worded frames fun v member => (ih v member).1).map tupleText
  | @array mark dtype shape data _ ih =>
      have texts := showAll_worded frames fun v member => (ih v member).1
      refine ⟨?_, ?_⟩
      · rw [showWith.eq_def]
        exact texts.bind fun _ => .ok _
      · rw [showPlain.eq_def]
        dsimp only
        split
        · exact (ih _ (List.mem_singleton.mpr rfl)).2
        · exact texts.bind fun _ => .ok _
  | dict _ _ keys values =>
      rw [showPlain_eq rfl rfl, and_self, showWith.eq_def]
      exact (showEntries_worded frames (fun e member => (keys e member).1) fun e member =>
        (values e member).1).map dictText
  | @method mark owner m _ ih =>
      rw [showPlain_eq rfl rfl, and_self, showWith.eq_def]
      dsimp only
      split
      · exact ih.1.bind fun _ => .ok _
      · exact .ok _
  | outermost =>
      rw [showPlain_eq rfl rfl, and_self, showWith.eq_def]
      exact .ok _
  | @environment id outer _ ih =>
      rw [showPlain_eq rfl rfl, and_self, showWith.eq_def]
      dsimp only
      split
      · exact .ok _
      · exact ih.1.bind fun _ => .ok _
  | @procedure mark mark' entries params env body known _ closed ih =>
      rw [showPlain_eq rfl rfl, and_self, showWith.eq_def]
      have required : requireEntry "body" entries = .ok () := if_pos body
      dsimp only
      rw [required]
      exact (showEntry_worded known ih.2).bind fun _ => closed.isInner_worded.bind fun inner =>
        closed.closed_worded (fun _ => .ok _) inner
  | var _ ih =>
      rw [showPlain_eq rfl rfl, and_self, showWith.eq_def]
      exact ih.1.bind fun _ => .ok _
  | application _ _ closed head args =>
      rw [showPlain_eq rfl rfl, and_self, showWith.eq_def]
      exact closed.isInner_worded.bind fun inner => head.1.bind fun _ => args.1.bind fun _ =>
        closed.closed_worded (fun _ => .ok _) inner
  | thunk _ ih =>
      rw [showPlain_eq rfl rfl, and_self, showWith.eq_def]
      dsimp only
      split
      · exact .ok _
      · exact ih.2.bind fun _ => .ok _
  | tally _ _ derivations calls =>
      rw [showPlain_eq rfl rfl, and_self, showWith.eq_def]
      exact derivations.1.bind fun _ => calls.1.bind fun _ => .ok _
  | checkRun _ _ _ _ name strict trace results =>
      rw [showPlain_eq rfl rfl, and_self, showWith.eq_def]
      exact name.1.bind fun _ => strict.1.bind fun _ => trace.1.bind fun _ => results.1.bind fun _ => .ok _

end Knot.Value
