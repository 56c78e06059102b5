import Knot.Proofs.Journal.Lookup

/-!
Where the body of a procedure binds names. A procedure with parameters runs its body in an environment
whose frame was made for that call; one without parameters runs it in its own environment.
-/

namespace Knot

open Run Renaming

namespace Calculus

/-- What a call does before its body runs: the body and the environment that it is handed. -/
def enter (k : Machine) (proc args caller : Value) : Run (Value × Value) := do
  match proc with
  | .procedure _ code closed =>
      let params ← item code (.str "parameters")
      let expected ← length params
      let given ← length args
      if expected ≠ given then fault (← wrongCount proc params args expected given)
      else
        let env ← callFrame params closed
        bindAll k env caller (← members params) (← members args)
        return (← item code (.str "body"), env)
  | v => fault (.contract (.notProcedure (← shown v) v.typeName))

/-- A call is what comes before its body, and then the body in the environment that it is handed. -/
theorem apply_eq_enter (k : Machine) (proc args caller : Value) :
    Calculus.apply k proc args caller =
      (enter k proc args caller >>= fun handed => k.app handed.1 [handed.2]) := by
  cases proc with
  | procedure mark code closed =>
      simp only [Calculus.apply, enter, bind_assoc]
      refine bind_congr fun params => bind_congr fun expected => bind_congr fun given => ?_
      split
      · simp only [bind_assoc]
        rfl
      · simp only [bind_assoc, pure_bind]
  | _ =>
      simp only [Calculus.apply, enter, bind_assoc]
      rfl

/-- The parameters of a code dictionary count as some. -/
def Takes (code : Value) (t : Store) : Prop :=
  ∃ params s, item code (.str "parameters") t = .ok params s ∧ (s.head params).truth = .ok true

variable {k : Machine} {mark : Nat} {code closed args caller body env : Value} {t t' : Store}

theorem length_apply {v : Value} {n : Nat} (run : length v t = .ok n t') : t' = t := by
  obtain ⟨v', s, ran, run⟩ := ok_of_bind run
  cases ran
  cases known : (t.head v).length with
  | ok m =>
      rw [known] at run
      cases run
      rfl
  | error e =>
      rw [known] at run
      cases run

/-- The environment that a body is handed. -/
theorem enter_env (growing : k.Growing)
    (entered : enter k (.procedure mark code closed) args caller t = .ok (body, env) t') :
    ∃ params s, item code (.str "parameters") t = .ok params s ∧
      ((s.head params).truth = .ok false ∧ env = closed ∨
        (s.head params).truth = .ok true ∧ ∃ id, env = .environment id closed ∧
          t.frames.size ≤ id ∧ id < t'.frames.size) := by
  obtain ⟨params, s, read, counting⟩ := ok_of_bind entered
  obtain ⟨expected, s₁, counted, counting'⟩ := ok_of_bind counting
  cases length_apply counted
  obtain ⟨given, s₂, counted', framing⟩ := ok_of_bind counting'
  cases length_apply counted'
  have grown : t.frames.size ≤ s.frames.size :=
    (after_of_ok read ▸ (item_equi (r := .plain) code (.str "parameters")).grows t : Later t s).frames
  refine ⟨params, s, read, ?_⟩
  split at framing
  · obtain ⟨f, s₃, _, faulted⟩ := ok_of_bind framing
    cases faulted
  · obtain ⟨env', s₃, framed, entered⟩ := ok_of_bind framing
    have rest : Run.GoesFrom 0 (do
        bindAll k env' caller (← members params) (← members args)
        return (← item code (.str "body"), env')) :=
      (members_equi (r := .plain) params).grows.goesFrom.bind fun names =>
        (members_equi (r := .plain) args).grows.goesFrom.bind fun args =>
          (bindAll_goesFrom growing caller (fun _ _ _ => .inl (Nat.zero_le _)) args).bind fun _ =>
            (item_equi (r := .plain) code (.str "body")).grows.goesFrom.bind fun body =>
              (Grows.pure _).goesFrom
    have grown' : s₃.frames.size ≤ t'.frames.size :=
      (after_of_ok entered ▸ rest s₃ (Nat.zero_le _) : Went 0 s₃ t').frames
    obtain rfl : env' = env := by
      obtain ⟨_, _, _, entered⟩ := ok_of_bind entered
      obtain ⟨_, _, _, entered⟩ := ok_of_bind entered
      obtain ⟨_, _, _, entered⟩ := ok_of_bind entered
      obtain ⟨_, _, _, entered⟩ := ok_of_bind entered
      cases entered
      rfl
    rcases callFrame_apply framed with ⟨truthy, same, size⟩ | ⟨falsy, same, _⟩
    · exact .inr ⟨truthy, s.frames.size, same, grown, by omega⟩
    · exact .inl ⟨falsy, same⟩

/-- A body without parameters is handed the environment that its procedure closes over. -/
theorem enter_closed (growing : k.Growing) (none : ¬ Takes code t)
    (entered : enter k (.procedure mark code closed) args caller t = .ok (body, env) t') :
    env = closed := by
  obtain ⟨params, s, read, ⟨_, same⟩ | ⟨truthy, _⟩⟩ := enter_env growing entered
  · exact same
  · exact absurd ⟨params, s, read, truthy⟩ none

/-- A body with parameters is handed an environment whose frame was made by its call. -/
theorem enter_fresh (growing : k.Growing) (takes : Takes code t)
    (entered : enter k (.procedure mark code closed) args caller t = .ok (body, env) t') :
    ∃ id, env = .environment id closed ∧ t.frames.size ≤ id ∧ id < t'.frames.size := by
  obtain ⟨params, s, read, truthy⟩ := takes
  obtain ⟨params', s', read', ⟨falsy, _⟩ | ⟨_, own⟩⟩ := enter_env growing entered
  · cases read.symm.trans read'
    exact nomatch truthy.symm.trans falsy
  · exact own

end Calculus

namespace Run

/-- A binding changes no other frame, unless their dictionaries are the same. -/
theorem frame_bind_of_ne {id other : Nat} (name : String) (v : Value) {s : Store} (ne : other ≠ id)
    (apart : .overwritten id ∉ s.since ((bind id name v).after s)) :
    ((bind id name v).after s).frame other = s.frame other := by
  obtain ⟨events, journal, shape⟩ := bind_journal id name v s
  have told := ((bind_equi (r := .plain) id name v).grows s).told.tells
  obtain rfl : s.since ((bind id name v).after s) = events :=
    List.append_cancel_right (told.journal.symm.trans journal)
  have bound : ∀ e ∈ s.since ((bind id name v).after s), ∃ v, e = .bound s.writer id name v :=
    fun e member => (shape e member).resolve_left fun same => apart (same ▸ member)
  have frames := told.frames fun e member => by
    obtain ⟨v, rfl⟩ := bound e member
    rfl
  simp only [Store.frame, frames]
  generalize s.since ((bind id name v).after s) = events at bound
  induction events with
  | nil => rfl
  | cons e events ih =>
      obtain ⟨v, rfl⟩ := bound e (List.mem_cons_self ..)
      have rest := ih fun e member => bound e (List.mem_cons_of_mem _ member)
      have step (frames : Array Frame) :
          ((Event.bound s.writer id name v).apply frames).getD other {} = frames.getD other {} := by
        simp only [Event.apply]
        split
        · simp [Array.getD_eq_getD_getElem?, ne.symm]
        · rfl
      exact (step _).trans rest

end Run

namespace Calculus

/-- A call of a procedure with parameters has a frame of its own. Its body is handed an environment
whose frame was not there before the call. What is bound there leaves every other frame as it is, as
long as no dictionary stands for the names of both; and a call that starts when the frame is there, of
this procedure or any other one that closes over what was there before, hands its body an environment
that shows nothing of it. If all that the whole run writes is in frames that were not there before,
every frame that was there is as it was, however the run ends. -/
theorem body_has_own_frame (fuel mark : Nat) (code closed args caller : Value) {t : Store}
    (program : t.writer = .program) (takes : Takes code t) :
    (∀ body env t', enter (.ofFuel fuel) (.procedure mark code closed) args caller t = .ok (body, env) t' →
      ∃ id, env = .environment id closed ∧ t.frames.size ≤ id ∧ id < t'.frames.size ∧
        ∀ name v s, .overwritten id ∉ s.since ((bind id name v).after s) →
          (∀ other, other ≠ id → ((bind id name v).after s).frame other = s.frame other) ∧
          ∀ fuel' mark' code' closed' args' caller' body' env' r r',
            (∀ i ∈ closed'.chain, i < t.frames.size) → id < r.frames.size → Takes code' r →
            enter (.ofFuel fuel') (.procedure mark' code' closed') args' caller' r =
              .ok (body', env') r' →
            ∀ other, ((bind id name v).after s).lookup other env' = s.lookup other env') ∧
    ((∀ e ∈ t.since ((Calculus.apply (.ofFuel fuel) (.procedure mark code closed) args caller).after t),
        e.isWrite = true → e.Spares t.frames.size) →
      ∀ id < t.frames.size,
        ((Calculus.apply (.ofFuel fuel) (.procedure mark code closed) args caller).after t).frame id =
          t.frame id) := by
  refine ⟨fun body env t' entered => ?_, fun written id before => ?_⟩
  · obtain ⟨id, same, fresh, made⟩ := enter_fresh (Machine.growing_ofFuel fuel) takes entered
    refine ⟨id, same, fresh, made, fun name v s apart => ?_⟩
    have elsewhere : ∀ other, other ≠ id → ((bind id name v).after s).frame other = s.frame other :=
      fun other ne => frame_bind_of_ne name v ne apart
    refine ⟨elsewhere, ?_⟩
    intro fuel' mark' code' closed' args' caller' body' env' r r' old known takes' entered' other
    obtain ⟨id', rfl, fresh', _⟩ := enter_fresh (Machine.growing_ofFuel fuel') takes' entered'
    refine Value.lookup_congr fun i member => ?_
    have ne : i ≠ id := by
      rcases List.mem_cons.mp member with rfl | member
      · omega
      · have := old i member
        omega
    simp only [frameValue?, elsewhere i ne]
  · have told := (apply_grows (Machine.growing_ofFuel fuel) (.procedure mark code closed) args caller t).told
    refine told.frame_eq (fun e member => ?_) (Nat.le_refl _) before
    cases quiet : e.isWrite with
    | true => exact written e member quiet
    | false => exact (told.tells.passed program e member).spares quiet

/-- The code of a procedure whose body binds a name where it runs. -/
def definingCode (params : List String) : Value :=
  let header : Header := { name := "<lambda>", path := "<lambda>", params := ["π"], plain := true }
  let body : Term := .app (.prim .define) [.lit (.str "x"), .lit (.int 5), .var "π"]
  .dict 20 [(.str "body", .closure 21 header body []), (.str "parameters", .list 22 (params.map .str))]

theorem body_has_own_frame_defining :
    Session.start.writer = .program ∧ Takes (definingCode ["y"]) Session.start ∧
      ∀ id < Session.start.frames.size,
        ((Calculus.apply (.ofFuel 9) (.procedure 23 (definingCode ["y"]) outermost)
          (.list 24 [.int 3]) outermost).after Session.start).frame id = Session.start.frame id :=
  have takes : Takes (definingCode ["y"]) Session.start :=
    ⟨.list 22 [.str "y"], Session.start, rfl, rfl⟩
  ⟨rfl, takes, (body_has_own_frame 9 23 (definingCode ["y"]) outermost (.list 24 [.int 3]) outermost rfl
    takes).2 (by decide +kernel)⟩

/-- A call of a procedure without parameters binds names where the procedure was made. -/
theorem thunk_has_no_frame :
    Session.start.names 0 = ["Υ", "Υ1"] ∧
      ((Calculus.apply (.ofFuel 9) (.procedure 23 (definingCode []) outermost) (.list 24 [])
        outermost).after Session.start).names 0 = ["Υ", "Υ1", "x"] := by
  decide +kernel

end Calculus

end Knot
