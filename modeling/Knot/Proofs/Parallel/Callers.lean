import Knot.Evaluate

/-!
Code that uses some names for calling only. A name is called where it is the head of a call; wherever
else it stands, what it is bound to could be held, shown or compared.
-/

namespace Knot

/-- The calls that are made: how many arguments have no name, and whether some have one. -/
abbrev CallForm := Nat → Bool → Bool

/-- The names that parameters do not hide. -/
def without (names params : List String) : List String := names.filter (!params.contains ·)

namespace Term

/-- A call of what a name is bound to. -/
def isCalled (form : CallForm) (f : Term) (args : List Term) (named : List (String × Term)) : Bool :=
  match f with
  | var _ => form args.length (!named.isEmpty)
  | _ => false

mutual

/-- Whether code uses names for calls of some form only. -/
def onlyCalls (form : CallForm) (names : List String) (t : Term) : Bool :=
  match t with
  | lit _ | prim _ => true
  | var name => !names.contains name
  | define _ e => e.onlyCalls form names
  | letIn name e body => e.onlyCalls form names && body.onlyCalls form (without names [name])
  | call f args named =>
      (isCalled form f args named || f.onlyCalls form names) && onlyCallsAll form names args &&
        onlyCallsNamed form names named
  | lam header body => body.onlyCalls form (without names header.params)
  | ite c a b => c.onlyCalls form names && a.onlyCalls form names && b.onlyCalls form names
  | not a => a.onlyCalls form names
  | binary _ a b => a.onlyCalls form names && b.onlyCalls form names
  | attr o _ => o.onlyCalls form names
  | hasAttr o _ => o.onlyCalls form names
  | item o k => o.onlyCalls form names && k.onlyCalls form names
  | set env _ e => env.onlyCalls form names && e.onlyCalls form names
  | del env _ => env.onlyCalls form names
  | list items => onlyCallsAll form names items
  | tuple items => onlyCallsAll form names items
  | dict entries => onlyCallsEntries form names entries
  | range args => onlyCallsAll form names args
  | array e _ => e.onlyCalls form names
  | seq items => onlyCallsAll form names items
  | caught e => e.onlyCalls form names
  | within manager name body =>
      manager.onlyCalls form names && body.onlyCalls form (without names [name])

def onlyCallsAll (form : CallForm) (names : List String) (ts : List Term) : Bool :=
  match ts with
  | [] => true
  | t :: rest => t.onlyCalls form names && onlyCallsAll form names rest

def onlyCallsNamed (form : CallForm) (names : List String) (ts : List (String × Term)) : Bool :=
  match ts with
  | [] => true
  | (_, t) :: rest => t.onlyCalls form names && onlyCallsNamed form names rest

def onlyCallsEntries (form : CallForm) (names : List String) (ts : List (Term × Term)) : Bool :=
  match ts with
  | [] => true
  | (key, t) :: rest =>
      key.onlyCalls form names && t.onlyCalls form names && onlyCallsEntries form names rest

end

end Term

/-- Functions that use their first argument for calls of some form only: those whose body does, and
generators that count such a one. -/
inductive Value.OnlyCalls (form : CallForm) : Value → Prop
  | closure (mark : Nat) (header : Header) (body : Term) (scope : Scope) :
      (∀ p params, header.params = p :: params → body.onlyCalls form [p]) →
        OnlyCalls form (.closure mark header body scope)
  | builtin {b : Builtin} {params : List String} {body : Term} :
      Prelude.definition? b = some (params, body) →
        (∀ p rest, params = p :: rest → body.onlyCalls form [p]) → OnlyCalls form (.builtin b)
  | counted (mark : Nat) (name : String) {generator : Value} (tally : Value) :
      OnlyCalls form generator → OnlyCalls form (.counted mark name generator tally)

namespace Term

variable {form : CallForm}

theorem mem_without {names params : List String} {name : String} :
    name ∈ without names params ↔ name ∈ names ∧ name ∉ params := by
  simp [without]

theorem without_append (names more params : List String) :
    without (names ++ more) params = without names params ++ without more params :=
  List.filter_append ..

mutual

/-- Names that are used for calls only can be taken together. -/
theorem onlyCalls_append {names more : List String} (t : Term) (first : t.onlyCalls form names)
    (second : t.onlyCalls form more) : t.onlyCalls form (names ++ more) := by
  cases t with
  | lit | prim => rfl
  | var name =>
      simp only [onlyCalls, Bool.not_eq_true', List.contains_eq_mem, decide_eq_false_iff_not,
        List.mem_append] at first second ⊢
      exact fun member => member.elim first second
  | define _ e | not e | attr e _ | hasAttr e _ | del e _ | array e _ | caught e =>
      exact onlyCalls_append e first second
  | lam header body =>
      simp only [onlyCalls, without_append] at first second ⊢
      exact onlyCalls_append body first second
  | letIn _ a b | within a _ b =>
      simp only [onlyCalls, without_append, Bool.and_eq_true] at first second ⊢
      exact ⟨onlyCalls_append a first.1 second.1, onlyCalls_append b first.2 second.2⟩
  | binary _ a b | item a b | set a _ b =>
      simp only [onlyCalls, Bool.and_eq_true] at first second ⊢
      exact ⟨onlyCalls_append a first.1 second.1, onlyCalls_append b first.2 second.2⟩
  | ite c a b =>
      simp only [onlyCalls, Bool.and_eq_true] at first second ⊢
      exact ⟨⟨onlyCalls_append c first.1.1 second.1.1, onlyCalls_append a first.1.2 second.1.2⟩,
        onlyCalls_append b first.2 second.2⟩
  | list ts | tuple ts | range ts | seq ts => exact onlyCallsAll_append ts first second
  | dict ts => exact onlyCallsEntries_append ts first second
  | call f args named =>
      simp only [onlyCalls, Bool.and_eq_true, Bool.or_eq_true] at first second ⊢
      refine ⟨⟨?_, onlyCallsAll_append args first.1.2 second.1.2⟩,
        onlyCallsNamed_append named first.2 second.2⟩
      rcases first.1.1 with called | head
      · exact .inl called
      · rcases second.1.1 with called | head'
        · exact .inl called
        · exact .inr (onlyCalls_append f head head')

theorem onlyCallsAll_append {names more : List String} (ts : List Term)
    (first : onlyCallsAll form names ts) (second : onlyCallsAll form more ts) :
    onlyCallsAll form (names ++ more) ts := by
  cases ts with
  | nil => rfl
  | cons t rest =>
      simp only [onlyCallsAll, Bool.and_eq_true] at first second ⊢
      exact ⟨onlyCalls_append t first.1 second.1, onlyCallsAll_append rest first.2 second.2⟩

theorem onlyCallsNamed_append {names more : List String} (ts : List (String × Term))
    (first : onlyCallsNamed form names ts) (second : onlyCallsNamed form more ts) :
    onlyCallsNamed form (names ++ more) ts := by
  cases ts with
  | nil => rfl
  | cons t rest =>
      simp only [onlyCallsNamed, Bool.and_eq_true] at first second ⊢
      exact ⟨onlyCalls_append t.2 first.1 second.1, onlyCallsNamed_append rest first.2 second.2⟩

theorem onlyCallsEntries_append {names more : List String} (ts : List (Term × Term))
    (first : onlyCallsEntries form names ts) (second : onlyCallsEntries form more ts) :
    onlyCallsEntries form (names ++ more) ts := by
  cases ts with
  | nil => rfl
  | cons t rest =>
      simp only [onlyCallsEntries, Bool.and_eq_true] at first second ⊢
      exact ⟨⟨onlyCalls_append t.1 first.1.1 second.1.1, onlyCalls_append t.2 first.1.2 second.1.2⟩,
        onlyCallsEntries_append rest first.2 second.2⟩

end

mutual

/-- No name is used otherwise than for calls. -/
theorem onlyCalls_nil (t : Term) : t.onlyCalls form [] := by
  cases t with
  | lit | prim | var => rfl
  | define _ e | not e | attr e _ | hasAttr e _ | del e _ | array e _ | caught e =>
      exact onlyCalls_nil e
  | lam header body => exact onlyCalls_nil body
  | letIn _ a b | within a _ b | binary _ a b | item a b | set a _ b =>
      simp only [onlyCalls, Bool.and_eq_true]
      exact ⟨onlyCalls_nil a, onlyCalls_nil b⟩
  | ite c a b =>
      simp only [onlyCalls, Bool.and_eq_true]
      exact ⟨⟨onlyCalls_nil c, onlyCalls_nil a⟩, onlyCalls_nil b⟩
  | list ts | tuple ts | range ts | seq ts => exact onlyCallsAll_nil ts
  | dict ts => exact onlyCallsEntries_nil ts
  | call f args named =>
      simp only [onlyCalls, Bool.and_eq_true, Bool.or_eq_true]
      exact ⟨⟨.inr (onlyCalls_nil f), onlyCallsAll_nil args⟩, onlyCallsNamed_nil named⟩

theorem onlyCallsAll_nil (ts : List Term) : onlyCallsAll form [] ts := by
  cases ts with
  | nil => rfl
  | cons t rest =>
      simp only [onlyCallsAll, Bool.and_eq_true]
      exact ⟨onlyCalls_nil t, onlyCallsAll_nil rest⟩

theorem onlyCallsNamed_nil (ts : List (String × Term)) : onlyCallsNamed form [] ts := by
  cases ts with
  | nil => rfl
  | cons t rest =>
      simp only [onlyCallsNamed, Bool.and_eq_true]
      exact ⟨onlyCalls_nil t.2, onlyCallsNamed_nil rest⟩

theorem onlyCallsEntries_nil (ts : List (Term × Term)) : onlyCallsEntries form [] ts := by
  cases ts with
  | nil => rfl
  | cons t rest =>
      simp only [onlyCallsEntries, Bool.and_eq_true]
      exact ⟨⟨onlyCalls_nil t.1, onlyCalls_nil t.2⟩, onlyCallsEntries_nil rest⟩

end

end Term

end Knot
