import Knot.Proofs.Journal.Lookup

/-!
Scoping over whole sessions. As long as no dictionary stands between a frame and its names, a name has
the value that it was bound to last in the nearest environment that has it, and writes of a name show
where no nearer environment has it.
-/

namespace Knot

open Run Renaming

/-- The stores of sessions: what runs leave, one after another, whether they ended or not. -/
inductive Reachable : Store → Prop
  | start : Reachable Session.start
  | ran {α : Type} {x : Run α} {t : Store} : GoesFrom 0 x → Reachable t → Reachable (x.after t)

/-- Where the journal tells everything that was done to the frames. -/
structure Recorded (t : Store) : Prop where
  shaped : ∀ e ∈ t.journal, e.WellShaped
  frames : (∀ e ∈ t.journal, e.isOverwrite = false) → t.frames = replay t.journal #[]

namespace Reachable

variable {t : Store}

theorem grew {α : Type} {x : Run α} (grows : Grows x) (reachable : Reachable t) : Reachable (x.after t) :=
  .ran grows.goesFrom reachable

theorem evaluated (fuel : Nat) (program : Term) (scope : Scope) (reachable : Reachable t) :
    Reachable ((program.eval (.ofFuel fuel) scope).after t) :=
  reachable.grew (Term.eval_grows (Machine.growing_ofFuel fuel) program scope)

theorem called (fuel : Nat) (f : Value) (args : List Value) (named : Named) (reachable : Reachable t) :
    Reachable (((Machine.ofFuel fuel).call f args named).after t) :=
  reachable.grew ((Machine.growing_ofFuel fuel).call f args named)

/-- The steps of a session lead from one to another. -/
theorem stepped (program : Term) (reachable : Reachable t) : Reachable (Session.run program t).2 := by
  have clears : Grows (modify fun s => { s with out := "" } : Run Unit) :=
    .update fun _ => ⟨Nat.le_refl _, Nat.le_refl _, rfl, .still rfl rfl rfl⟩
  have cleared : Reachable { t with out := "" } := reachable.grew clears
  have ran := cleared.evaluated Session.fuel program []
  unfold Session.run Session.step
  simp only [after] at ran
  split at ran <;> simp_all

theorem recorded (reachable : Reachable t) : Recorded t := by
  induction reachable with
  | start =>
      refine ⟨fun e member => ?_, fun _ => rfl⟩
      have members : e ∈ Session.startJournal := member
      simp only [Session.startJournal, Session.outermostFrame, List.reverse_cons, List.reverse_nil,
        List.nil_append, List.map_cons, List.map_nil, List.cons_append,
        List.mem_cons, List.not_mem_nil, or_false] at members
      rcases members with rfl | rfl | rfl <;> simp [Event.WellShaped]
  | ran goes _ ih =>
      rename_i x t _
      have tells := (goes t (Nat.zero_le _)).told.tells
      refine ⟨?_, fun plain => ?_⟩
      · rw [tells.journal]
        exact List.forall_mem_append.mpr ⟨tells.shaped, ih.shaped⟩
      · rw [tells.journal] at plain
        obtain ⟨new, old⟩ := List.forall_mem_append.mp plain
        rw [tells.frames new, ih.frames old, tells.journal, replay_append]

end Reachable

/-- The value of a name in the nearest frame of a chain that has one. -/
def nearest? (journal : List Event) (name : String) (chain : List Nat) : Option Value :=
  chain.findSome? (Event.newest? · name journal)

namespace Recorded

variable {t : Store} {name : String} {env : Value}

theorem frameValue?_eq (recorded : Recorded t) (direct : ∀ e ∈ t.journal, e.isOverwrite = false)
    (plain : isReserved name = false) {id : Nat} (known : id < t.frames.size) :
    frameValue? t.frame id name = Event.newest? id name t.journal := by
  have frames := recorded.frames direct
  rw [frameValue?_plain plain, Store.frame, frames]
  refine Event.lookup_replay plain recorded.shaped ?_
  rwa [← Event.size_replay_eq, ← frames]

theorem lookup_eq (recorded : Recorded t) (direct : ∀ e ∈ t.journal, e.isOverwrite = false)
    (plain : isReserved name = false) (scope : env.IsScope t.frames.size) :
    t.lookup name env =
      match nearest? t.journal name env.chain with
      | some v => .ok v
      | none => .error (.name (.unbound name)) := by
  have same : env.chain.findSome? (frameValue? t.frame · name) = nearest? t.journal name env.chain := by
    have known := Value.chain_lt scope
    unfold nearest?
    generalize env.chain = chain at known
    induction chain with
    | nil => rfl
    | cons id rest ih =>
        have here := recorded.frameValue?_eq direct plain (known id (List.mem_cons_self ..))
        simp only [List.findSome?_cons, here, ih fun i member => known i (List.mem_cons_of_mem _ member)]
  have walked : t.lookup name env = _ := Value.lookup_scope scope
  cases found : nearest? t.journal name env.chain with
  | some v =>
      rw [same, found] at walked
      exact walked
  | none =>
      rw [same, found] at walked
      exact walked

end Recorded

/-- Reading a name gives the value that the look-up finds, or its fault. -/
theorem item_environment {t : Store} {name : String} (ne : name ≠ "__dict__") (id : Nat) (outer : Value) :
    item (.environment id outer) (.str name) t =
      (ofExcept (t.lookup name (.environment id outer)) >>= marked) t := by
  have step : item (.environment id outer) (.str name) t =
      (ofExcept (t.lookup name (.environment id outer)) >>= fun v =>
        shareTable (.environment id outer) (.str name) v >>= fun _ => marked v) t := rfl
  have still (v : Value) : shareTable (.environment id outer) (.str name) v = pure () := by
    simp [shareTable, ne]
  simp only [step, still]
  rfl

/-! What one write shows. -/

/-- Events about one name of one frame. -/
def Event.IsAbout (id : Nat) (name : String) : Event → Prop
  | .bound _ id' name' _ | .unbound id' name' => id' = id ∧ name' = name
  | _ => False

theorem Event.newest?_append {id j : Nat} {x y : String} {new : List Event} (old : List Event)
    (about : ∀ e ∈ new, e.IsAbout id x) (apart : ¬ (id = j ∧ x = y)) :
    newest? j y (new ++ old) = newest? j y old := by
  induction new with
  | nil => rfl
  | cons e new ih =>
      have rest := ih fun e member => about e (List.mem_cons_of_mem _ member)
      have first := about e (List.mem_cons_self ..)
      cases e with
      | bound writer id' name' v =>
          obtain ⟨rfl, rfl⟩ := first
          simp only [List.cons_append, newest?, apart, if_false, rest]
      | unbound id' name' =>
          obtain ⟨rfl, rfl⟩ := first
          simp only [List.cons_append, newest?, apart, if_false, rest]
      | opened => exact first.elim
      | overwritten => exact first.elim

/-- The write of a name in a frame does not show where names are looked up along a chain: it is of
another name, or a nearer frame has the name. -/
def Hidden (journal : List Event) (id : Nat) (x y : String) (chain : List Nat) : Prop :=
  y ≠ x ∨ ∀ pre post, chain = pre ++ id :: post → ∃ i ∈ pre, (Event.newest? i y journal).isSome

theorem nearest?_append {id : Nat} {x y : String} {new old : List Event} {chain : List Nat}
    (about : ∀ e ∈ new, e.IsAbout id x) (hidden : Hidden old id x y chain) :
    nearest? (new ++ old) y chain = nearest? old y chain := by
  have same {j : Nat} (apart : ¬ (id = j ∧ x = y)) :
      Event.newest? j y (new ++ old) = Event.newest? j y old := Event.newest?_append old about apart
  unfold nearest?
  induction chain with
  | nil => rfl
  | cons j rest ih =>
      by_cases here : id = j ∧ x = y
      · obtain ⟨rfl, rfl⟩ := here
        obtain other | nearer := hidden
        · exact absurd rfl other
        · obtain ⟨i, member, _⟩ := nearer [] rest rfl
          cases member
      · simp only [List.findSome?_cons, same here]
        cases held : Event.newest? j y old with
        | some v => rfl
        | none =>
            refine ih (hidden.imp_right fun nearer pre post split => ?_)
            obtain ⟨i, member, has⟩ := nearer (j :: pre) post (by rw [split]; rfl)
            rcases List.mem_cons.mp member with rfl | member
            · simp [held] at has
            · exact ⟨i, member, has⟩

namespace Run

/-- The events of taking a name out of a frame are about that name, or overwrite the frame's names. -/
theorem unbind_journal (id : Nat) (name : String) (t : Store) :
    ∃ events, ((unbind id name).after t).journal = events ++ t.journal ∧
      ∀ e ∈ events, e = .overwritten id ∨ e = .unbound id name := by
  have run : unbind id name t = (ofExcept ((t.frame id).unset name) >>= fun frame =>
      modify fun s => s.change id frame (.unbound id name)) t := rfl
  cases unset : (t.frame id).unset name with
  | error e =>
      rw [unset] at run
      rw [after_of_error run]
      exact ⟨[], rfl, fun _ member => nomatch member⟩
  | ok frame =>
      rw [unset] at run
      rw [after_of_ok run]
      refine ⟨[if t.isShared id frame then .overwritten id else .unbound id name], ?_, fun e member => ?_⟩
      · simp only [Store.change, Store.note, Store.setFrame_journal, List.singleton_append]
      · rw [List.mem_singleton.mp member]
        split
        · exact .inl rfl
        · exact .inr rfl

/-- The writes of a name in a frame. -/
inductive Writes (id : Nat) (name : String) : Run Unit → Prop
  | bind (v : Value) : Writes id name (bind id name v)
  | unbind : Writes id name (unbind id name)

namespace Writes

variable {id : Nat} {name : String} {write : Run Unit} {t : Store}

theorem grows (writes : Writes id name write) : Grows write := by
  cases writes with
  | bind v => exact (bind_equi (r := .plain) id name v).grows
  | unbind => exact (unbind_equi (r := .plain) id name).grows

theorem about (writes : Writes id name write) : ∃ events,
    (write.after t).journal = events ++ t.journal ∧
      ∀ e ∈ events, e = .overwritten id ∨ e.IsAbout id name := by
  cases writes with
  | bind v =>
      obtain ⟨events, journal, shape⟩ := bind_journal id name v t
      refine ⟨events, journal, fun e member => (shape e member).imp_right ?_⟩
      rintro ⟨v, rfl⟩
      exact ⟨rfl, rfl⟩
  | unbind =>
      obtain ⟨events, journal, shape⟩ := unbind_journal id name t
      refine ⟨events, journal, fun e member => (shape e member).imp_right ?_⟩
      rintro rfl
      exact ⟨rfl, rfl⟩

end Writes

end Run

theorem Value.IsScope.mono {m n : Nat} {env : Value} (scope : env.IsScope m) (below : m ≤ n) :
    env.IsScope n := by
  induction env using Value.induction_children with
  | step env ih =>
      cases env with
      | environment id outer =>
          cases outer with
          | none => exact Nat.lt_of_lt_of_le scope below
          | environment | procedure | application =>
              exact ⟨Nat.lt_of_lt_of_le scope.1 below, ih _ (by simp [children]) scope.2⟩
          | _ => exact scope.2.elim
      | _ => exact scope.elim

/-- Scoping is lexical. As long as no dictionary stands between a frame and its names, reading a plain
name in an environment, or evaluating a variable there, gives the value that the name was bound to last
in the nearest environment that has it, and faults where none has it. A write of a name shows only where
that name is looked up and no nearer environment has it. Every environment lies in finitely many others,
one inside the other. -/
theorem lookup_is_lexical {t : Store} (reachable : Reachable t)
    (direct : ∀ e ∈ t.journal, e.isOverwrite = false) {x : String} (plain : isReserved x = false)
    {env : Value} (scope : env.IsScope t.frames.size) :
    item env (.str x) t = (match nearest? t.journal x env.chain with
        | some v => marked v
        | none => fault (.name (.unbound x))) t ∧
      (∀ k mark, Calculus.eval k (.var mark (.str x)) env t =
        (match nearest? t.journal x env.chain with
        | some v => marked v
        | none => fault (.name (.unbound x))) t) ∧
      (∀ id write, Writes id x write → (∀ e ∈ (write.after t).journal, e.isOverwrite = false) →
        ∀ y inner, isReserved y = false → inner.IsScope t.frames.size →
          Hidden t.journal id x y inner.chain → (write.after t).lookup y inner = t.lookup y inner) ∧
      WellFounded fun outer inner : Value => inner.enclosing? = some outer := by
  have read : item env (.str x) t = (match nearest? t.journal x env.chain with
      | some v => marked v
      | none => fault (.name (.unbound x))) t := by
    cases env with
    | environment id outer =>
        rw [item_environment (ne_dict_of_plain plain), reachable.recorded.lookup_eq direct plain scope]
        cases nearest? t.journal x (Value.environment id outer).chain <;> rfl
    | _ => exact scope.elim
  refine ⟨read, fun k mark => read, fun id write writes direct' y inner plain' inside hidden => ?_,
    Value.enclosing_wellFounded⟩
  have later := writes.grows t
  obtain ⟨events, journal, shape⟩ := writes.about (t := t)
  have about : ∀ e ∈ events, e.IsAbout id x := by
    intro e member
    refine (shape e member).resolve_left ?_
    rintro rfl
    have overwrites := direct' (.overwritten id) (journal ▸ List.mem_append_left _ member)
    exact Bool.noConfusion overwrites
  rw [(reachable.grew writes.grows).recorded.lookup_eq direct' plain' (inside.mono later.frames),
    reachable.recorded.lookup_eq direct plain' inside, journal, nearest?_append about hidden]

theorem lookup_is_lexical_start :
    (∀ e ∈ Session.start.journal, e.isOverwrite = false) ∧ isReserved "Υ" = false ∧
      outermost.IsScope Session.start.frames.size ∧
      item outermost (.str "Υ") Session.start = marked (Session.combinator 1 Prelude.thunkedBody) Session.start ∧
      item outermost (.str "y") Session.start = fault (.name (.unbound "y")) Session.start :=
  have direct : ∀ e ∈ Session.start.journal, e.isOverwrite = false := by decide +kernel
  have scope : outermost.IsScope Session.start.frames.size := Nat.zero_lt_one
  ⟨direct, by decide +kernel, scope, (lookup_is_lexical .start direct (by decide +kernel) scope).1,
    (lookup_is_lexical .start direct (by decide +kernel) scope).1⟩

/-- Two environments of which one gets the dictionary of the other's names, and then the other a name. -/
def sharedNames : Term :=
  let names (env : String) : Term := .attr (.attr (.var env) "φ") "__dict__"
  .letIn "E" (.app (.prim .newEnvironment) [.var "ΓΠ"])
    (.letIn "F" (.app (.prim .newEnvironment) [.var "ΓΠ"])
      (.seq [.set (.var "E") "__dict__" (names "F"), .set (.var "F") "x" (.num 7),
        .item (.var "E") (.lit (.str "x"))]))

/-- Where a dictionary stands for the names of two frames, a name can have a value in an environment
that it was never bound in, nor in one around it. -/
theorem sharedNames_reads :
    (match sharedNames.eval (.ofFuel 9) [] Session.start with
      | .ok (.int 7) t => t.journal.all fun e =>
          match e with
          | .bound _ id name _ => name != "x" || (id != 1 && id != 0)
          | _ => true
      | _ => false) = true := by
  decide +kernel

end Knot
