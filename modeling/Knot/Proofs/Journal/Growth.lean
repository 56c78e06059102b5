import Knot.Proofs.Renaming.Form

/-!
Everything that a machine runs takes nothing back and is told by the journal. The primitives do by
their laws of renaming; what calls back into programs does if the machine does, and so every machine
with fuel does.
-/

namespace Knot

open Run Renaming

variable {n : Nat} {t t' t'' : Store}

/-- Some renaming, for laws that hold of all. -/
def Renaming.plain : Renaming where
  mark := id
  frame := id
  mark_injective := Function.injective_id
  frame_strict := strictMono_id
  mark_zero := rfl
  frame_zero := rfl

/-! Arguments that are bound in the frames from a number on, which can be less than the number of the
frames there were. -/

/-- Nothing has been taken back, and arguments were bound in the frames from a number on. -/
structure Went (n : Nat) (t t' : Store) : Prop where
  marks : t.nextMark ≤ t'.nextMark
  frames : t.frames.size ≤ t'.frames.size
  room : t'.stack.room = t.stack.room
  told : Told n t t'

namespace Went

theorem of_later (later : Later t t') (below : n ≤ t.frames.size) : Went n t t' :=
  ⟨later.marks, later.frames, later.room, later.told.mono below⟩

theorem later (went : Went t.frames.size t t') : Later t t' :=
  ⟨went.marks, went.frames, went.room, went.told⟩

theorem trans (first : Went n t t') (second : Went n t' t'') : Went n t t'' :=
  ⟨first.marks.trans second.marks, first.frames.trans second.frames, second.room.trans first.room,
    first.told.trans second.told⟩

end Went

namespace Run

variable {α β γ : Type}

/-- A run after which arguments were bound in the frames from a number on. -/
def GoesFrom (n : Nat) (x : Run α) : Prop := ∀ t, n ≤ t.frames.size → Went n t (x.after t)

theorem Grows.goesFrom {x : Run α} (grows : Grows x) : GoesFrom n x := fun t => .of_later (grows t)

theorem GoesFrom.bind {x : Run α} {h : α → Run γ} (first : GoesFrom n x)
    (second : ∀ a, GoesFrom n (h a)) : GoesFrom n (x >>= h) := by
  intro t below
  cases run : x t with
  | ok a t' =>
      have went := first t below
      rw [after_of_ok run] at went
      have whole : (x >>= h).after t = (h a).after t' := by simp [after, bind_of_ok run]
      rw [whole]
      exact went.trans (second a t' (below.trans went.frames))
  | error e t' =>
      rw [after_of_error (bind_of_error run)]
      exact after_of_error run ▸ first t below

theorem ok_of_bind {x : Run α} {h : α → Run γ} {c : γ} (run : (x >>= h) t = .ok c t'') :
    ∃ a t', x t = .ok a t' ∧ h a t' = .ok c t'' := by
  cases ran : x t with
  | ok a t' => exact ⟨a, t', rfl, (bind_of_ok ran).symm.trans run⟩
  | error e t' =>
      rw [bind_of_error ran] at run
      cases run

theorem after_bind_of_ok {x : Run α} {h : α → Run γ} {a : α} (run : x t = .ok a t') :
    (x >>= h).after t = (h a).after t' := by
  simp only [after, bind_of_ok run]

/-! What runs are made of. -/

namespace Grows

theorem map {x : Run α} (f : α → β) (grows : Grows x) : Grows (f <$> x) := by
  simpa only [bind_pure_comp] using grows.bind fun a => pure (f a)

theorem discard {x : Run α} (grows : Grows x) : Grows (Functor.discard x) := grows.map _

theorem mapM {h : α → Run β} (step : ∀ a, Grows (h a)) (as : List α) : Grows (as.mapM h) := by
  induction as with
  | nil => exact pure []
  | cons a as ih =>
      simp only [List.mapM_cons]
      exact (step a).bind fun b => ih.bind fun bs => pure (b :: bs)

theorem ensuring {x : Run α} {last : Run Unit} (grows : Grows x) (ends : Grows last) :
    Grows (Run.ensuring x last) :=
  (grows.recover fun f => ends.bind fun _ => stop (.fault f)).bind fun a => ends.bind fun _ => pure a

theorem fault (f : Fault) : Grows (Run.fault f : Run α) := stop _

theorem deeper {x : Run α} (grows : Grows x) : Grows (Run.deeper x) := by
  intro s
  have unchanged (depth : Nat) (t : Store) : Later t (atDepth depth t) :=
    ⟨Nat.le_refl _, Nat.le_refl _, rfl, .still rfl rfl rfl⟩
  cases room : s.stack.room with
  | none =>
      have same : (Run.deeper x).after s = x.after s := by simp [after, Run.deeper, room]
      rw [same]
      exact grows s
  | some room' =>
      cases full : s.stack.full with
      | true =>
          have same : (Run.deeper x).after s = s.did .refused := by
            simp [after, Run.deeper, room, full]
          rw [same]
          exact did_later s _
      | false =>
          have same : (Run.deeper x).after s =
              atDepth s.stack.depth (x.after (atDepth (s.stack.depth + 1) s)) := by
            simp only [after, Run.deeper, room, full]
            cases x (atDepth (s.stack.depth + 1) s) <;> rfl
          rw [same]
          exact ((unchanged _ s).trans (grows _)).trans (unchanged _ _)

theorem ite {c : Prop} [Decidable c] {x y : Run α} (yes : Grows x) (no : Grows y) :
    Grows (if c then x else y) := by
  split
  · exact yes
  · exact no

theorem underLimit (mark : Nat) (limit : Value) {x : Run α} (grows : Grows x) :
    Grows (Run.underLimit mark limit x) :=
  (enter_equi (r := .plain) mark limit).grows.discard.bind fun _ =>
    grows.ensuring (leave_equi (r := .plain) mark).grows

theorem underSameLimit (manager : Value) {x : Run α} (grows : Grows x) :
    Grows (Run.underSameLimit manager x) := by
  cases manager with
  | manager mark limit =>
      exact .get fun s => .ite (.fault _)
        ((Equi.fresh (r := .plain)).grows.bind fun mark => grows.underLimit mark limit)
  | _ => exact .fault _

end Grows

theorem tell_grows (d : Deed) : Grows (tell d) := (tell_equi (r := .plain) d d).grows

/-! Arguments are bound in the frame of the call. -/

/-- The events of a binding are about its name and its frame. -/
theorem bind_journal (id : Nat) (name : String) (v : Value) (t : Store) :
    ∃ events, ((bind id name v).after t).journal = events ++ t.journal ∧
      ∀ e ∈ events, e = .overwritten id ∨ ∃ v, e = .bound t.writer id name v := by
  unfold bind
  split
  · have run : (do
        let v ← head v
        let frame ← ofExcept (((← get).frame id).set name v)
        modify fun s => (s.replaceNames id frame).note (.overwritten id) : Run Unit) t =
        (ofExcept ((t.frame id).set name (t.head v)) >>= fun frame =>
          modify fun s => (s.replaceNames id frame).note (.overwritten id)) t := rfl
    cases set : (t.frame id).set name (t.head v) with
    | error e =>
        rw [set] at run
        rw [after_of_error run]
        exact ⟨[], rfl, fun _ member => nomatch member⟩
    | ok frame =>
        rw [set] at run
        rw [after_of_ok run]
        refine ⟨[.overwritten id], ?_, fun e member => .inl (List.mem_singleton.mp member)⟩
        simp only [Store.note, Store.replaceNames, shareMark_journal, List.singleton_append]
  · have run : (do
        let frame ← ofExcept (((← get).frame id).set name v)
        modify fun s => s.change id frame (.bound s.writer id name v) : Run Unit) t =
        (ofExcept ((t.frame id).set name v) >>= fun frame =>
          modify fun s => s.change id frame (.bound s.writer id name v)) t := rfl
    cases set : (t.frame id).set name v with
    | error e =>
        rw [set] at run
        rw [after_of_error run]
        exact ⟨[], rfl, fun _ member => nomatch member⟩
    | ok frame =>
        rw [set] at run
        rw [after_of_ok run]
        refine ⟨[if t.isShared id frame then .overwritten id else .bound t.writer id name v], ?_,
          fun e member => ?_⟩
        · simp only [Store.change, Store.note, Store.setFrame_journal, List.singleton_append]
        · rw [List.mem_singleton.mp member]
          split
          · exact .inl rfl
          · exact .inr ⟨v, rfl⟩

theorem writing_after (writer : Writer) (x : Run α) (t : Store) :
    (writing writer x).after t = { x.after { t with writer } with writer := t.writer } := by
  simp only [after, writing]
  cases x { t with writer } <;> rfl

/-- An argument is bound in a frame from a number on, or to the empty name. -/
theorem passed_goesFrom {id : Nat} {name : String} (passes : n ≤ id ∨ name = "") (v : Value) :
    GoesFrom n (writing .call (bind id name v)) := by
  intro t below
  have later := (bind_equi (r := .plain) id name v).grows { t with writer := .call }
  obtain ⟨events, journal, shape⟩ := bind_journal id name v { t with writer := .call }
  obtain ⟨events', told⟩ := later.told.events
  obtain rfl : events' = events := List.append_cancel_right (told.journal.symm.trans journal)
  rw [writing_after]
  refine ⟨later.marks, later.frames, later.room, rfl, events', told.journal, told.shaped, told.frames,
    fun _ e member => ?_⟩
  obtain rfl | ⟨v, rfl⟩ := shape e member
  · trivial
  · exact passes

end Run

/-- A machine that takes nothing back. -/
structure Machine.Growing (k : Machine) : Prop where
  call : ∀ f args named, Grows (k.call f args named)
  evaluate : ∀ expr env, Grows (k.evaluate expr env)

variable {k : Machine}

namespace Calculus

/-- The frame of an environment is one from a number on, or the names are empty. -/
def Opens (n : Nat) (target : Value) (params : List Value) : Prop :=
  ∀ id outer, target = .environment id outer → n ≤ id ∨ ∀ name, .str name ∈ params → name = ""

theorem bindAll_goesFrom (growing : k.Growing) {target : Value} (caller : Value)
    {params : List Value} (opens : Opens n target params) (args : List Value) :
    GoesFrom n (bindAll k target caller params args) := by
  induction params generalizing args with
  | nil => cases args <;> exact (Grows.pure ()).goesFrom
  | cons param params ih =>
      cases args with
      | nil => exact (Grows.pure ()).goesFrom
      | cons arg args =>
          have rest : GoesFrom n (bindAll k target caller params args) :=
            ih (fun id outer same => (opens id outer same).imp_right fun empty name member =>
              empty name (List.mem_cons_of_mem _ member)) args
          cases target with
          | environment id outer =>
              refine (growing.evaluate arg caller).goesFrom.bind fun v => ?_
              cases param with
              | str name =>
                  have passes : n ≤ id ∨ name = "" :=
                    (opens id outer rfl).imp_right fun empty => empty name (List.mem_cons_self ..)
                  exact (passed_goesFrom passes v).bind fun _ => rest
              | _ => exact (Grows.fault _).goesFrom
          | _ => exact (Grows.fault _).goesFrom

/-- A string among the rows of an array is one of its elements. -/
theorem mem_of_str_mem_arrayRows {name : String} {dtype : DType} {shape : List Nat} {data : List Value}
    (member : .str name ∈ Value.arrayRows dtype shape data) : .str name ∈ data := by
  have rows_subset (width count : Nat) (data : List Value) :
      ∀ part ∈ Grid.rows width count data, ∀ v ∈ part, v ∈ data := by
    induction count generalizing data with
    | zero => simp [Grid.rows]
    | succ count ih =>
        intro part inside v member
        rcases List.mem_cons.mp inside with rfl | inside
        · exact List.mem_of_mem_take member
        · exact List.mem_of_mem_drop (ih _ part inside v member)
  cases shape with
  | nil => simp [Value.arrayRows, Grid.parts] at member
  | cons n inner =>
      simp only [Value.arrayRows, Grid.parts, List.map_map, List.mem_map, Function.comp_apply] at member
      obtain ⟨part, inside, same⟩ := member
      unfold Grid.toValue at same
      split at same
      · rename_i v _ single
        exact same ▸ rows_subset _ _ _ part inside v (by simp only at single; simp [single])
      · cases same

/-- Parameters that count as none have no name but the empty one. -/
theorem empty_of_not_truth {params : Value} {names : List Value} (falsy : params.truth = .ok false)
    (members : params.members = .ok names) (name : String) (member : .str name ∈ names) : name = "" := by
  cases params with
  | str s =>
      obtain rfl : s = "" := by simpa [Value.truth] using falsy
      cases members
      simp [Value.characters] at member
  | list mark items =>
      obtain rfl : items = [] := by simpa [Value.truth] using falsy
      cases members
      simp at member
  | tuple mark items =>
      obtain rfl : items = [] := by simpa [Value.truth] using falsy
      cases members
      simp at member
  | dict mark entries =>
      obtain rfl : entries = [] := by simpa [Value.truth] using falsy
      cases members
      simp at member
  | range mark start stop step =>
      cases members
      simp [rangeItems] at member
  | array mark dtype shape data =>
      rcases data with _ | ⟨v, _ | ⟨w, rest⟩⟩
      · cases falsy
      · cases shape with
        | nil => cases members
        | cons n inner =>
            cases members
            obtain rfl := List.mem_singleton.mp (mem_of_str_mem_arrayRows member)
            simpa [Value.truth, Value.elementTruth, Grid.elementTruth] using falsy
      · cases falsy
  | _ => cases members

theorem truth_apply (v : Value) (t : Store) :
    truth v t = match (t.head v).truth with
      | .ok b => .ok b t
      | .error e => .error (.fault e) t := by
  change ofExcept (t.head v).truth t = _
  cases (t.head v).truth <;> rfl

/-- The frame of a call is a new one, or the parameters count as none. -/
theorem callFrame_apply {params closed env : Value} (run : callFrame params closed t = .ok env t') :
    ((t.head params).truth = .ok true ∧ env = .environment t.frames.size closed ∧
        t'.frames.size = t.frames.size + 1) ∨
      (t.head params).truth = .ok false ∧ env = closed ∧ t' = t := by
  unfold callFrame at run
  cases given : (t.head params).truth with
  | error e =>
      have faulted : truth params t = .error (.fault e) t := by rw [truth_apply, given]
      rw [bind_of_error faulted] at run
      cases run
  | ok given' =>
      have ran : truth params t = .ok given' t := by rw [truth_apply, given]
      rw [bind_of_ok ran] at run
      cases given' with
      | true =>
          cases run
          exact .inl ⟨rfl, rfl, Array.size_push ..⟩
      | false =>
          cases run
          exact .inr ⟨rfl, rfl, rfl⟩

theorem str_of_marked {v : Value} {name : String} (run : marked v t = .ok (.str name) t') :
    v = .str name := by
  cases v with
  | str => cases run; rfl
  | float mark | list mark | tuple mark | dict mark | range mark | array mark | method mark =>
      cases mark <;> cases run
  | _ => cases run

theorem str_mem_of_marked {name : String} {vs ws : List Value} (run : vs.mapM marked t = .ok ws t')
    (member : .str name ∈ ws) : .str name ∈ vs := by
  induction vs generalizing ws t with
  | nil =>
      cases run
      cases member
  | cons v vs ih =>
      rw [List.mapM_cons] at run
      obtain ⟨w, s, ran, run⟩ := ok_of_bind run
      obtain ⟨ws', s', ran', run⟩ := ok_of_bind run
      cases run
      rcases List.mem_cons.mp member with rfl | member
      · exact List.mem_cons.mpr (.inl (str_of_marked ran).symm)
      · exact List.mem_cons_of_mem _ (ih ran' member)

/-- The strings among the members of a value, marked or not. -/
theorem str_mem_of_members {v : Value} {names : List Value} {name : String}
    (run : members v t = .ok names t') (member : .str name ∈ names) :
    ∃ names', (t.head v).members = .ok names' ∧ .str name ∈ names' := by
  obtain ⟨v', s, ran, run⟩ := ok_of_bind run
  cases ran
  obtain ⟨names', s', ran, run⟩ := ok_of_bind run
  cases known : (t.head v).members with
  | error e =>
      rw [known] at ran
      cases ran
  | ok names'' =>
      rw [known] at ran
      cases ran
      refine ⟨names', rfl, ?_⟩
      cases shape : t.head v with
      | array =>
          rw [shape] at run
          exact str_mem_of_marked run member
      | _ =>
          rw [shape] at run
          cases run
          exact member

/-- What a call binds goes into its own frame. -/
theorem opens_of_callFrame {params closed env : Value} {names : List Value}
    (frame : callFrame params closed t = .ok env t') (run : members params t' = .ok names t'') :
    Opens t.frames.size env names := by
  intro id outer same
  rcases callFrame_apply frame with ⟨_, rfl, _⟩ | ⟨falsy, _, rfl⟩
  · cases same
    exact .inl (Nat.le_refl _)
  · refine .inr fun name member => ?_
    obtain ⟨names', known, member⟩ := str_mem_of_members run member
    exact empty_of_not_truth falsy known name member

theorem apply_grows (growing : k.Growing) (proc args caller : Value) :
    Grows (Calculus.apply k proc args caller) := by
  unfold Calculus.apply
  cases proc with
  | procedure mark code closed =>
      refine (item_equi (r := .plain) code (.str "parameters")).grows.bind fun params => ?_
      refine (length_equi (r := .plain) params).grows.bind fun expected => ?_
      refine (length_equi (r := .plain) args).grows.bind fun given => ?_
      refine .ite ((wrongCount_equi (r := .plain) _ params args expected given).grows.bind fun f =>
        .fault f) ?_
      -- what is bound after the frame of the call is made is judged by the frames before
      intro t
      cases frame : callFrame params closed t with
      | error e t' =>
          rw [after_of_error (bind_of_error frame)]
          exact after_of_error frame ▸ (callFrame_equi (r := .plain) params closed).grows t
      | ok env t' =>
          have later : Later t t' :=
            after_of_ok frame ▸ (callFrame_equi (r := .plain) params closed).grows t
          refine Went.later ?_
          rw [after_bind_of_ok frame]
          refine (Went.of_later later (Nat.le_refl _)).trans ?_
          cases run : members params t' with
          | error e t'' =>
              rw [after_of_error (bind_of_error run)]
              exact .of_later (after_of_error run ▸ (members_equi (r := .plain) params).grows t') later.frames
          | ok names t'' =>
              have later' : Later t' t'' :=
                after_of_ok run ▸ (members_equi (r := .plain) params).grows t'
              rw [after_bind_of_ok run]
              refine (Went.of_later later' later.frames).trans ?_
              have body : GoesFrom t.frames.size (do
                  let args ← members args
                  bindAll k env caller names args
                  k.app (← item code (.str "body")) [env]) :=
                (members_equi (r := .plain) args).grows.goesFrom.bind fun args =>
                  (bindAll_goesFrom growing caller (opens_of_callFrame frame run) args).bind fun _ =>
                    ((item_equi (r := .plain) code (.str "body")).grows.bind fun body =>
                      growing.call body [env] []).goesFrom
              exact body t'' (later.frames.trans later'.frames)
  | _ => exact (shown_equi (r := .plain) _).grows.bind fun _ => .fault _

end Calculus

end Knot
