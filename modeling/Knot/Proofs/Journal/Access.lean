import Knot.Proofs.Calls.Binding
import Knot.Proofs.Demo.Procedures
import Knot.Proofs.Journal.Lexical

/-!
Two ways of reading a name in an environment. With a dot, what the environment has of its own goes first, and
only then the bindings of the frames around it; between brackets, there are only the bindings. Where an
environment has nothing of its own under a name, both read the same.
-/

namespace Knot

open Run Store

/-- The names that every environment has something of its own under. -/
def ownNames : List String := Kind.environment.fields ++ Kind.environment.methods.map (·.1)

/-- What the nearest frame of a chain binds a name to. -/
def Store.bound? (s : Store) (name : String) (chain : List Nat) : Option Value :=
  chain.findSome? fun id => (s.frame id).bindings.lookup name

/-- The reserved names that an environment has something under by its kind. -/
def kindNames : List String :=
  ["__class__", "__dict__", "__weakref__", "__doc__", "__module__", "__hash__", "__match_args__",
    "__dataclass_fields__", "__annotations__", "__slots__"] ++ Kind.commonMembers ++ Kind.environment.members

section

variable {name : String}

theorem not_kindName (visible : name.startsWith "__" = false) : name ∉ kindNames := by
  have hidden : ∀ other ∈ kindNames, String.startsWith other "__" = true := by decide +kernel
  intro member
  rw [hidden name member] at visible
  cases visible

/-- By its kind, an environment has nothing under a visible name but its methods. -/
theorem kindPart?_environment (visible : name.startsWith "__" = false) (free : name ∉ ownNames) (s : Store)
    (id : Nat) (outer : Value) : s.kindPart? (.environment id outer) name = none := by
  have unreserved := not_kindName visible
  have methodless : Kind.environment.methods.lookup name = none := by
    rw [List.lookup_eq_none_iff]
    intro entry member
    have apart : name ≠ entry.1 := by
      rintro rfl
      exact free (List.mem_append_right _ (List.mem_map_of_mem member))
    simpa using apart
  have memberless : Kind.environment.hasMember name = false := by
    have common : name ∉ Kind.commonMembers := fun member =>
      unreserved (List.mem_append_left _ (List.mem_append_right _ member))
    have special : name ∉ Kind.environment.members := fun member => unreserved (List.mem_append_right _ member)
    simp [Kind.hasMember, common, special, Kind.plainMembers]
  have uncommon : Kind.environment.common? name = none := by
    unfold Kind.common?
    split <;> first | rfl | exact absurd (by decide) unreserved
  unfold kindPart?
  simp only [Value.kind?, Option.bind_some]
  split
  · exact absurd (by decide) unreserved
  · exact absurd (by decide) unreserved
  · exact absurd (by decide) unreserved
  · rw [uncommon, methodless, memberless]
    rfl

/-- An environment has nothing of its own under a visible name that is not one of its parts and methods. -/
theorem ordinary_of_free (visible : name.startsWith "__" = false) (free : name ∉ ownNames) : Ordinary name where
  plain := plain_of_ordinary visible
  visible := visible
  unowned s id outer := by
    have other : name ≠ "φ" ∧ name ≠ "π" := by
      constructor
      · rintro rfl
        exact free (by decide)
      · rintro rfl
        exact free (by decide)
    have partless : (s.parts (.environment id outer)).lookup name = none := by
      have φ : (name == "φ") = false := beq_false_of_ne other.1
      have π : (name == "π") = false := beq_false_of_ne other.2
      simp [parts, List.lookup_cons, φ, π]
    have functionless : s.functionAttribute? (.environment id outer) name = none := rfl
    have owned : s.ownAttribute? (.environment id outer) name =
        ((s.parts (.environment id outer)).lookup name).or
          ((s.functionAttribute? (.environment id outer) name).or (s.kindPart? (.environment id outer) name)) := rfl
    rw [owned, partless, functionless, kindPart?_environment visible free]
    rfl

/-- A look-up in a scope gives what the nearest frame binds. -/
theorem lookup_bound {s : Store} {env : Value} (plain : isReserved name = false)
    (scope : env.IsScope s.frames.size) : s.lookup name env =
      match s.bound? name env.chain with
      | some v => .ok v
      | none => .error (.name (.unbound name)) := by
  have walked : s.lookup name env = _ := Value.lookup_scope scope
  simp only [frameValue?_plain plain] at walked
  exact walked

end

/-- What reading a name in an environment gives: the value that the nearest frame binds it to, or the fault of
a name that is bound nowhere. -/
def Store.reading (s : Store) (name : String) (env : Value) : Run Value :=
  match s.bound? name env.chain with
  | some v => marked v
  | none => fault (.name (.unbound name))

/-- Between brackets, a scope reads a name that is not reserved. -/
theorem item_reading {s : Store} {name : String} {env : Value} (plain : isReserved name = false)
    (scope : env.IsScope s.frames.size) : item env (.str name) s = s.reading name env s := by
  cases env with
  | environment id outer =>
      rw [item_environment (ne_dict_of_plain plain) id outer, lookup_bound plain scope, Store.reading]
      cases s.bound? name (Value.environment id outer).chain <;> rfl
  | _ => exact scope.elim

/-- With a dot, between brackets and as a variable, an environment reads a visible name alike, unless it has
something of its own under the name: one of its parts and methods, or an attribute that it was given. -/
theorem notations_agree {s : Store} {id : Nat} {outer : Value} {name : String}
    (scope : (Value.environment id outer).IsScope s.frames.size) (visible : name.startsWith "__" = false)
    (free : name ∉ ownNames) (ungiven : s.given.lookup (.environment id, name) = none) :
    getAttribute (.environment id outer) name s = s.reading name (.environment id outer) s ∧
      item (.environment id outer) (.str name) s = s.reading name (.environment id outer) s ∧
      ∀ k mark, Calculus.eval k (.var mark (.str name)) (.environment id outer) s =
        s.reading name (.environment id outer) s := by
  have ordinary := ordinary_of_free visible free
  have bracketed : item (.environment id outer) (.str name) s = s.reading name (.environment id outer) s :=
    item_reading ordinary.plain scope
  constructor
  · calc
      getAttribute (.environment id outer) name s
      _ = (Run.ofExcept (s.lookup name (.environment id outer)) >>= marked) s :=
        getAttribute_lookup id ordinary ungiven
      _ = item (.environment id outer) (.str name) s :=
        (item_environment (ne_dict_of_plain ordinary.plain) id outer).symm
      _ = s.reading name (.environment id outer) s := bracketed
  · constructor
    · exact bracketed
    · intro k mark
      exact bracketed

/-- The outermost environment, with a combinator that it binds and a name that it does not. -/
theorem notations_agree_start :
    outermost.IsScope Session.start.frames.size ∧ "Υ".startsWith "__" = false ∧ "Υ" ∉ ownNames ∧
      Session.start.given.lookup (.environment 0, "Υ") = none ∧
      getAttribute outermost "Υ" Session.start = item outermost (.str "Υ") Session.start ∧
      getAttribute outermost "x" Session.start = fault (.name (.unbound "x")) Session.start := by
  have scope : outermost.IsScope Session.start.frames.size := Nat.zero_lt_one
  have visible : "Υ".startsWith "__" = false := by decide +kernel
  have free : "Υ" ∉ ownNames := by decide
  have ungiven (name : String) : Session.start.given.lookup (.environment 0, name) = none := rfl
  have bound := notations_agree scope visible free (ungiven "Υ")
  have unbound := notations_agree scope (by decide +kernel) (by decide) (ungiven "x")
  exact ⟨scope, visible, free, ungiven _, bound.1.trans bound.2.1.symm, unbound.1⟩

/-- An environment that binds the name of the part that encloses it. -/
def bindsEnclosing : Term :=
  .letIn "E" (.app (.prim .newEnvironment) [.var "ΓΠ"])
    (.seq [.app (.prim .define) [.lit (.str "π"), .num 5, .var "E"],
      .tuple [.attr (.var "E") "π", .item (.var "E") (.lit (.str "π"))]])

/-- With a dot, the environment gives what encloses it, and between brackets what it binds. -/
theorem bindsEnclosing_reads_apart :
    (match bindsEnclosing.eval (.ofFuel 3) [] Session.start with
      | .ok (.tuple _ [.environment 0 .none, .int 5]) _ => true
      | _ => false) = true := by
  decide +kernel

end Knot
