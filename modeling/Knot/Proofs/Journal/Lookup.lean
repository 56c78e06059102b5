import Knot.Proofs.Journal.Frames

/-!
Looking names up, by the journal. The value of a name in a frame is the one that was bound last and not
unbound since; the value of a name in an environment is that of the nearest frame that has one.
-/

namespace Knot

open Run Renaming

namespace Value

/-- The frames that names are looked up in, from an environment outwards. -/
def chain : Value → List Nat
  | environment id outer => id :: outer.chain
  | procedure _ _ env | application _ _ _ env => env.chain
  | kind .procedure | kind .application => [0]
  | _ => []

/-- What encloses a value that names are looked up in. -/
def enclosing? : Value → Option Value
  | environment _ outer => some outer
  | procedure _ _ env | application _ _ _ env => some env
  | kind .procedure | kind .application => some outermost
  | _ => Option.none

/-- Environments one inside the other, out to a root, with frames before a number. -/
def IsScope (n : Nat) : Value → Prop
  | environment id .none => id < n
  | environment id outer => id < n ∧ outer.IsScope n
  | _ => False

/-- A look-up depends on the frames of the chain only. -/
theorem lookup_congr {frames frames' : Nat → Frame} {name : String} {v : Value}
    (same : ∀ i ∈ v.chain, frameValue? frames i name = frameValue? frames' i name) :
    v.lookup frames name = v.lookup frames' name := by
  induction v using Value.induction_children with
  | step v ih =>
      cases v with
      | environment id outer =>
          have here := same id (List.mem_cons_self ..)
          have rest := ih outer (by simp [children]) fun i member => same i (List.mem_cons_of_mem _ member)
          simp only [lookup, here, rest]
      | procedure mark code env => exact ih env (by simp [children]) same
      | application mark head args env => exact ih env (by simp [children]) same
      | kind k =>
          cases k with
          | procedure | application => simp only [lookup, same 0 (List.mem_cons_self ..)]
          | _ => rfl
      | _ => rfl

/-- In a scope, the nearest frame that has a name gives its value. -/
theorem lookup_scope {n : Nat} {frames : Nat → Frame} {name : String} {env : Value}
    (scope : env.IsScope n) : env.lookup frames name =
      match env.chain.findSome? (frameValue? frames · name) with
      | some v => .ok v
      | Option.none => .error (.name (.unbound name)) := by
  induction env using Value.induction_children with
  | step env ih =>
      cases env with
      | environment id outer =>
          cases held : frameValue? frames id name with
          | some v => simp [lookup, chain, held]
          | none =>
              have outside : outer = .none ∨ outer.IsScope n := by
                cases outer <;> simp_all [IsScope]
              rcases outside with rfl | inner
              · simp [lookup, chain, held]
              · simp only [lookup, chain, held, List.findSome?_cons]
                exact ih outer (by simp [children]) inner
      | _ => exact scope.elim

theorem chain_lt {n : Nat} {env : Value} (scope : env.IsScope n) : ∀ i ∈ env.chain, i < n := by
  induction env using Value.induction_children with
  | step env ih =>
      cases env with
      | environment id outer =>
          have outside : id < n ∧ (outer = .none ∨ outer.IsScope n) := by
            cases outer <;> simp_all [IsScope]
          obtain ⟨below, rfl | inner⟩ := outside
          · simpa [chain] using below
          · intro i member
            rcases List.mem_cons.mp member with rfl | member
            · exact below
            · exact ih outer (by simp [children]) inner i member
      | _ => exact scope.elim

/-- Every environment lies in finitely many others, one inside the other. -/
theorem enclosing_wellFounded : WellFounded fun outer inner : Value => inner.enclosing? = some outer := by
  have closed (v : Value) (acc : ∀ outer, v.enclosing? = some outer →
      Acc (fun outer inner : Value => inner.enclosing? = some outer) outer) :
      Acc (fun outer inner : Value => inner.enclosing? = some outer) v := ⟨v, acc⟩
  have empty : Acc (fun outer inner : Value => inner.enclosing? = some outer) .none :=
    closed _ fun _ same => nomatch same
  have root : Acc (fun outer inner : Value => inner.enclosing? = some outer) outermost :=
    closed _ fun outer same => by
      cases same
      exact empty
  refine ⟨fun v => ?_⟩
  induction v using Value.induction_children with
  | step v ih =>
      refine closed v fun outer same => ?_
      cases v with
      | environment | procedure | application =>
          cases same
          exact ih _ (by simp [children])
      | kind k =>
          cases k with
          | procedure | application =>
              cases same
              exact root
          | _ => cases same
      | _ => cases same

end Value

/-! Names that functions have nothing of their own under. -/

/-- Whether a name is one that every function has something under. -/
def isReserved (name : String) : Bool :=
  name == "__dict__" || (({} : Card).get? name).isSome || Kind.function.hasMember name

section

variable {name : String}

theorem Card.get?_eq_none (plain : isReserved name = false) (card : Card) : card.get? name = none := by
  have none : ({} : Card).get? name = Option.none := by
    simp only [isReserved, Bool.or_eq_false_iff, Option.isSome_eq_false_iff, Option.isNone_iff_eq_none] at plain
    exact plain.1.2
  unfold Card.get? at none ⊢
  split <;> simp_all

theorem Card.set?_eq_none (plain : isReserved name = false) (card : Card) (v : Value) :
    card.set? name v = none := by
  have none := Card.get?_eq_none plain card
  unfold Card.set?
  split <;> first | rfl | simp [Card.get?] at none

theorem Card.unset?_eq_none (plain : isReserved name = false) (card : Card) : card.unset? name = none := by
  have none := Card.get?_eq_none plain card
  unfold Card.unset?
  split
  · simp [Card.get?] at none
  · simp [Card.get?] at none
  · simp [Card.get?] at none
  · simp [Card.get?] at none
  · exact Card.set?_eq_none plain card .none

theorem ne_dict_of_plain (plain : isReserved name = false) : name ≠ "__dict__" := by
  simp only [isReserved, Bool.or_eq_false_iff, beq_eq_false_iff_ne] at plain
  exact plain.1.1

/-- What a frame has under a plain name is what is bound there. -/
theorem frameValue?_plain (plain : isReserved name = false) (frames : Nat → Frame) (id : Nat) :
    frameValue? frames id name = (frames id).bindings.lookup name := by
  have noMember : Kind.function.hasMember name = false := by
    simp only [isReserved, Bool.or_eq_false_iff] at plain
    exact plain.2
  simp [frameValue?, noMember,
    Frame.get?_of_card_none (ne_dict_of_plain plain) (Card.get?_eq_none plain _)]

end

/-! The frames and the names, by the events. -/

namespace Event

/-- How many frames events open. -/
def opens : List Event → Nat
  | [] => 0
  | opened _ :: rest => opens rest + 1
  | _ :: rest => opens rest

/-- The value that a name of a frame was bound to last and was not unbound from since, where the newest
event comes first. A frame that is opened has no names. -/
def newest? (id : Nat) (name : String) : List Event → Option Value
  | [] => none
  | opened _ :: rest => if opens rest = id then none else newest? id name rest
  | bound _ id' name' v :: rest => if id' = id ∧ name' = name then some v else newest? id name rest
  | unbound id' name' :: rest => if id' = id ∧ name' = name then none else newest? id name rest
  | overwritten _ :: rest => newest? id name rest

theorem size_replay_eq (events : List Event) : (replay events #[]).size = opens events := by
  induction events with
  | nil => rfl
  | cons e events ih =>
      have step : replay (e :: events) #[] = e.apply (replay events #[]) := rfl
      rw [step]
      cases e with
      | opened frame => simp [apply, opens, ih]
      | bound writer id name v =>
          simp only [apply, opens]
          split <;> simp [ih]
      | unbound id name =>
          simp only [apply, opens]
          split <;> simp [ih]
      | overwritten id => exact ih

variable {name : String}

/-- What is bound in a frame after a name of it was bound. -/
theorem lookup_set (plain : isReserved name = false) {frame frame' : Frame} {name' : String} {v : Value}
    (ne : name' ≠ "__dict__") (set : frame.set name' v = .ok frame') :
    frame'.bindings.lookup name =
      if name' = name then some v else frame.bindings.lookup name := by
  unfold Frame.set at set
  rw [if_neg ne] at set
  by_cases same : name' = name
  · subst same
    rw [Card.set?_eq_none plain] at set
    cases set
    simp [Bindings.lookup_assign_self]
  · rw [if_neg same]
    split at set
    · rename_i card _
      cases card with
      | error f => cases set
      | ok card =>
          cases set
          rfl
    · cases set
      exact Bindings.lookup_assign_of_ne v _ (Ne.symm same)

theorem lookup_unset (plain : isReserved name = false) {frame frame' : Frame} {name' : String}
    (unset : frame.unset name' = .ok frame') :
    frame'.bindings.lookup name =
      if name' = name then none else frame.bindings.lookup name := by
  unfold Frame.unset at unset
  split at unset
  · cases unset
  · by_cases same : name' = name
    · subst same
      rw [Card.unset?_eq_none plain] at unset
      dsimp only at unset
      split at unset
      · cases unset
        simp [Bindings.lookup_erase_self]
      · cases unset
    · rw [if_neg same]
      split at unset
      · rename_i card _
        cases card with
        | error f => cases unset
        | ok card =>
            cases unset
            rfl
      · split at unset
        · cases unset
          exact Bindings.lookup_erase_of_ne _ (Ne.symm same)
        · cases unset

theorem lookup_unset_error (plain : isReserved name = false) {frame : Frame} {f : Fault}
    (unset : frame.unset name = .error f) : frame.bindings.lookup name = none := by
  unfold Frame.unset at unset
  rw [if_neg (ne_dict_of_plain plain), Card.unset?_eq_none plain] at unset
  dsimp only at unset
  split at unset
  · cases unset
  · assumption

theorem set_ok_of_plain (plain : isReserved name = false) (frame : Frame) (v : Value) :
    ∃ frame', frame.set name v = .ok frame' := by
  unfold Frame.set
  rw [if_neg (ne_dict_of_plain plain), Card.set?_eq_none plain]
  exact ⟨_, rfl⟩

/-- The events tell what every frame has under a plain name. -/
theorem lookup_replay (plain : isReserved name = false) {events : List Event}
    (shaped : ∀ e ∈ events, e.WellShaped) {id : Nat} (known : id < opens events) :
    ((replay events #[]).getD id {}).bindings.lookup name = newest? id name events := by
  induction events with
  | nil => exact absurd known (Nat.not_lt_zero _)
  | cons e events ih =>
      have rest := ih fun e member => shaped e (List.mem_cons_of_mem _ member)
      have size := size_replay_eq events
      have step : replay (e :: events) #[] = e.apply (replay events #[]) := rfl
      rw [step]
      have placed {id' : Nat} (frame : Frame) (below : id < opens events) :
          ((replay events #[]).setIfInBounds id' frame).getD id {} =
            if id' = id then frame else (replay events #[]).getD id {} := by
        by_cases same : id' = id
        · subst same
          simp [Array.getD_eq_getD_getElem?, size, below]
        · simp [Array.getD_eq_getD_getElem?, same]
      cases e with
      | opened frame =>
          simp only [apply, newest?]
          by_cases last : opens events = id
          · have empty : frame.bindings = [] := shaped _ (List.mem_cons_self ..)
            subst last
            simp [Array.getD_eq_getD_getElem?, ← size, empty]
          · have below : id < opens events := by
              simp only [opens] at known
              omega
            rw [if_neg last, ← rest below]
            simp [Array.getD_eq_getD_getElem?, Array.getElem?_push, size, Ne.symm last]
      | bound writer id' name' v =>
          have ne : name' ≠ "__dict__" := shaped _ (List.mem_cons_self ..)
          have below : id < opens events := known
          simp only [apply, newest?]
          cases set : ((replay events #[]).getD id' {}).set name' v with
          | ok frame =>
              simp only [placed frame below]
              by_cases here : id' = id
              · subst here
                simp only [if_true, true_and, lookup_set plain ne set, rest below]
              · simp only [here, if_false, false_and, rest below]
          | error f =>
              have other : name' ≠ name := by
                rintro rfl
                obtain ⟨frame', ok⟩ := set_ok_of_plain plain ((replay events #[]).getD id' {}) v
                cases set.symm.trans ok
              simp only [other, and_false, if_false, rest below]
      | unbound id' name' =>
          have below : id < opens events := known
          simp only [apply, newest?]
          cases unset : ((replay events #[]).getD id' {}).unset name' with
          | ok frame =>
              simp only [placed frame below]
              by_cases here : id' = id
              · subst here
                simp only [if_true, true_and, lookup_unset plain unset, rest below]
              · simp only [here, if_false, false_and, rest below]
          | error f =>
              by_cases here : id' = id ∧ name' = name
              · obtain ⟨rfl, rfl⟩ := here
                simp only [and_self, if_true, lookup_unset_error plain unset]
              · simp only [here, if_false, rest below]
      | overwritten id' => exact rest known

end Event

end Knot
