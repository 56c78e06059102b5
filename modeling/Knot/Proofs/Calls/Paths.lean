import Knot.Proofs.Calls.Arguments

/-!
Every way of calling a procedure goes the way of applying it: a call of the procedure itself, the
evaluation of an application of its name, of a variable or of the procedure, and a call of an
application. Where the call comes from does not show in it.
-/

namespace Knot

open Run Renaming

/-- The ways of calling a procedure with the arguments in a list: what is called, and with what. -/
inductive CallPath (s : Store) (proc args : Value) (vs : List Value) : Value → List Value → Prop
  | direct : CallPath s proc args vs proc vs
  | applied (env : Value) : CallPath s proc args vs (.builtin .apply) [proc, args, env]
  | named (mark : Nat) (f : String) (closed env : Value) : item env (.str f) s = .ok proc s →
      CallPath s proc args vs (.builtin .eval) [.application mark (.str f) args closed, env]
  | throughVar (mark mark' : Nat) (f : String) (closed env : Value) : item env (.str f) s = .ok proc s →
      CallPath s proc args vs (.builtin .eval)
        [.application mark (.var mark' (.str f)) args closed, env]
  | evaluated (mark : Nat) (closed env : Value) :
      CallPath s proc args vs (.builtin .eval) [.application mark proc args closed, env]
  | called (mark : Nat) (closed : Value) :
      CallPath s proc args vs (.application mark proc args closed) []

/-- What a call passes on for the arguments in a list: it, a list of them, or of their values. -/
inductive Passes (s : Store) (args : Value) (vs : List Value) : Value → Prop
  | same : Passes s args vs args
  | listed (mark : Nat) : Passes s args vs (.list mark vs)
  | evaluated {ws : List Value} {n given : Nat} {env : Value} {t : Store} (mark : Nat) :
      vs.mapM ((Machine.ofFuel n).evaluate · env) (s.skip given) = .ok ws t →
        Passes s args vs (.list mark ws)

/-- Two ends of calls in a store that are the same: the same value or the same fault, and the stores
that they leave hold the same, but for the marks of what was made meanwhile. -/
def SameEnd (s : Store) (args : Value) (vs : List Value) (x y : EStateM.Result Stop Store Value) : Prop :=
  ∃ (r : Renaming) (args' : Value), r.Fixes s ∧ Passes s args vs args' ∧ Ends r args args' x y

variable {s t : Store}

theorem Stands.self {limit limit' depth : Nat} {vs ws : List Value}
    (stands : List.Forall₂ (Stands s limit depth) vs ws) : List.Forall₂ (Stands s limit' depth) vs vs := by
  induction stands with
  | nil => exact .nil
  | cons stand _ ih =>
      obtain ⟨count, copy, copies, tables, _⟩ := stand
      exact .cons ⟨count, copy, copies, tables, .inl rfl⟩ ih

namespace Rooted

variable (rooted : Rooted s) (more : Nat)
include rooted

theorem shift_skips (mark : Nat) (low : s.nextMark ≤ mark) (high : mark < s.nextMark + more) (x : Nat) :
    (Renaming.shift s.nextMark more rooted.positive).mark x ≠ mark := by
  simp only [Renaming.shift]
  split <;> omega

theorem shift_beside : Beside (Renaming.shift s.nextMark more rooted.positive) s (s.skip more) where
  image :=
    have own := rooted.image _ (rooted.fixes_shift more)
    ⟨own.frames, own.tallies, own.contents, own.tables, own.given, own.namespaces, own.entered,
      own.session, own.stack, own.out⟩
  marks i := by
    simp only [Renaming.shift, Store.skip]
    split <;> omega
  frames _ := rfl

/-- A list that is made on the way holds what it was made with. -/
theorem new_list {mark : Nat} (low : s.nextMark ≤ mark) (high : mark < s.nextMark + more) {u : Store}
    (beside : Beside (Renaming.shift s.nextMark more rooted.positive) t u) (items : List Value) :
    u.head (.list mark items) = .list mark items := by
  have clear := beside.image.clear (m := mark) (n := mark + 1) fun mark' low' high' x =>
    rooted.shift_skips more mark' (by omega) (by omega) x
  simp [Store.head, Store.items, (clear mark (Nat.le_refl _) (by omega)).1]

end Rooted

/-- What is under a name and is a procedure is there whatever marks were given out. -/
theorem Run.item_procedure {env code closed : Value} {f : String} {mark : Nat}
    (bound : item env (.str f) s = .ok (.procedure mark code closed) s) (n : Nat) :
    item env (.str f) (s.skip n) = .ok (.procedure mark code closed) (s.skip n) := by
  have step (n : Nat) : item env (.str f) (s.skip n) =
      (ofExcept ((s.head env).itemAt s.frame (.str f)) >>= fun v =>
        shareTable env (.str f) v >>= fun _ => marked v) (s.skip n) := rfl
  have here := (step 0).symm.trans bound
  rw [step]
  cases known : (s.head env).itemAt s.frame (.str f) with
  | error e =>
      rw [known] at here
      cases here
  | ok w =>
      rw [known] at here
      obtain ⟨w', t', ran, here⟩ := ok_of_bind here
      cases ran
      obtain ⟨_, t'', _, here⟩ := ok_of_bind here
      cases w with
      | procedure mark' code' closed' =>
          cases here
          have unshared : shareTable env (.str f) (.procedure mark code closed) (s.skip n) =
              .ok () (s.skip n) := by
            cases env with
            | environment id outer =>
                by_cases table : f = "__dict__"
                · subst table
                  rfl
                · have still : shareTable (.environment id outer) (.str f)
                      (.procedure mark code closed) = pure () := by simp [shareTable, table]
                  rw [still]
                  rfl
            | _ => rfl
          exact bind_of_ok unshared
      | float mark | list mark | tuple mark | dict mark | range mark | array mark | method mark =>
          cases mark <;> cases here
      | _ => cases here

namespace Machine

theorem call_eq (room : s.stack.room = none) (n : Nat) (f : Value) (args : List Value) (named : Named) :
    (ofFuel (n + 1)).call f args named s = callValue (ofFuel n) f args named s := by
  change deeper _ s = _
  simp [deeper, room]

/-- No tag is not the tag that traces; comparing them gives out a mark. -/
theorem evalTagged_none (k : Machine) (expr env : Value) :
    Calculus.evalTagged k expr env .none s = Calculus.eval k expr env (s.skip 1) := by
  have untraced : binary .equal .none (.str "debug") s = .ok (.bool false) (s.skip 1) := by
    have plain : now .none s = .ok .none s := rfl
    have text : now (.str "debug") s = .ok (.str "debug") s := rfl
    change (now .none >>= fun a => now (.str "debug") >>= fun b => _) s = _
    rw [bind_of_ok plain, bind_of_ok text]
    rfl
  unfold Calculus.evalTagged
  rw [bind_of_ok untraced]
  rfl

/-- An application whose head is a procedure applies it to the values of its arguments. -/
theorem evalApplication_eq (k : Machine) {mark m : Nat} {head closed env proc : Value}
    {items vs ws : List Value} {t u : Store} (unmarked : marked head t = .ok head t)
    (heads : Calculus.headOf k head env t = .ok proc t) (made : m ≠ 0) (held : t.items m items = vs)
    (evaluated : vs.mapM (k.evaluate · env) t = .ok ws u) :
    Calculus.evalApplication k (.application mark head (.list m items) closed) env t =
      Calculus.apply k proc (.list u.nextMark ws) env (u.skip 1) := by
  have first : getAttribute (.application mark head (.list m items) closed) "head" t = .ok head t :=
    unmarked
  have second : getAttribute (.application mark head (.list m items) closed) "args" t =
      .ok (.list m items) t := by
    change marked (.list m items) t = _
    cases m with
    | zero => exact absurd rfl made
    | succ m => rfl
  have listed : t.head (.list m items) = .list m vs := by rw [← held]; rfl
  unfold Calculus.evalApplication
  rw [bind_of_ok first, bind_of_ok heads, bind_of_ok second, bind_of_ok (members_list listed),
    bind_of_ok evaluated]
  rfl

section

variable {n depth mark m : Nat} {code closed : Value} {items : List Value} (rooted : Rooted s)
  (fixed : Settled s (.procedure mark code closed)) (own : Settled s (.list m items))
  (listed : ∀ params t, item code (.str "parameters") s = .ok params t →
    ∀ mark dtype shape data, params ≠ .array mark dtype shape data)
  (deep : depth ≤ n) (env : Value)
include rooted fixed own listed deep

/-- Some marks later, a procedure is applied to a list of the same arguments, or of copies of them, as to
the list itself. -/
theorem apply_later (more : Nat) {args' : Value} (passes : Passes s (.list m items) (s.items m items) args')
    {limit : Nat} (below : limit ≤ s.nextMark + more) {ws : List Value} {m' : Nat}
    (stands : List.Forall₂ (Stands s limit depth) (s.items m items) ws) (env' : Value)
    (held : ∀ t u, Keeps s t → Beside (Renaming.shift s.nextMark more rooted.positive) t u →
      u.head args' = .list m' ws) :
    SameEnd s (.list m items) (s.items m items)
      (Calculus.apply (ofFuel n) (.procedure mark code closed) (.list m items) env s)
      (Calculus.apply (ofFuel n) (.procedure mark code closed) args' env' (s.skip more)) :=
  ⟨_, args', rooted.fixes_shift more, passes, Calculus.apply_ends rooted (rooted.fixes_shift more)
    (fun mark low high => rooted.shift_skips more mark low (high.trans_le below)) deep fixed listed
    stands (fun _ keeps => keeps.head rooted own) held env env' (rooted.shift_beside more)⟩

/-- Evaluating an application of the procedure copies the arguments once and applies it to the copies. -/
theorem evalApplication_later (made : m ≠ 0) {count : Nat} {copies : Nat → List Value}
    (evaluated : ∀ t, Holds s t → ∀ n, depth ≤ n → ∀ env,
      (s.items m items).mapM ((ofFuel n).evaluate · env) t = .ok (copies t.nextMark) (t.skip count))
    (stands : ∀ low, s.nextMark ≤ low →
      List.Forall₂ (Stands s (low + count) depth) (s.items m items) (copies low))
    (given mark' : Nat) (head closed' env' : Value)
    (unmarked : marked head (s.skip given) = .ok head (s.skip given))
    (heads : Calculus.headOf (ofFuel n) head env' (s.skip given) =
      .ok (.procedure mark code closed) (s.skip given)) :
    SameEnd s (.list m items) (s.items m items)
      (Calculus.apply (ofFuel n) (.procedure mark code closed) (.list m items) env s)
      (Calculus.evalApplication (ofFuel n) (.application mark' head (.list m items) closed') env'
        (s.skip given)) := by
  have holds : Holds s (s.skip given) := ((Keeps.refl rooted).skip given).holds rooted
  have ran := evaluated (s.skip given) holds n deep env'
  have total : ((s.skip given).skip count).skip 1 = s.skip (given + count + 1) := by
    rw [Store.skip_skip, Store.skip_skip, Nat.add_assoc]
  rw [evalApplication_eq (ofFuel n) unmarked heads made rfl ran, total]
  exact apply_later rooted fixed own listed deep env (given + count + 1) (.evaluated _ ran)
    (by simp only [Store.skip]; omega) (stands (s.skip given).nextMark (Nat.le_add_right _ _)) env'
    fun _ _ _ beside => rooted.new_list _ (by simp only [Store.skip]; omega)
      (by simp only [Store.skip]; omega) beside _

end

/-- However a procedure is called with plain arguments, and wherever, it ends as if it was applied to
them. -/
theorem call_paths_agree {scope : Scope} (session : Held s scope) {p l : String} {mark m : Nat}
    {code closed : Value} {items : List Value}
    (procedure : (p, .procedure mark code closed) ∈ scope)
    (listed : ∀ params t, item code (.str "parameters") s = .ok params t →
      ∀ mark dtype shape data, params ≠ .array mark dtype shape data)
    (arguments : (l, .list m items) ∈ scope) (made : m ≠ 0)
    (plain : ∀ v ∈ s.items m items, Plain s v) :
    ∃ depth, ∀ n, depth ≤ n → ∀ env f given,
      CallPath s (.procedure mark code closed) (.list m items) (s.items m items) f given →
        SameEnd s (.list m items) (s.items m items)
          ((ofFuel (n + 1)).call (.builtin .apply) [.procedure mark code closed, .list m items, env] [] s)
          ((ofFuel (n + 1)).call f given [] s) := by
  obtain ⟨rooted, names⟩ := session.rooted
  have settled : ∀ entry ∈ scope, Settled s entry.2 := fun entry member r fixes => by
    have same : entry.map id (Value.rename r) = entry :=
      Settled.of_map (fun r fixes => names r fixes) entry member r fixes
    exact congrArg Prod.snd same
  have fixed := settled _ procedure
  have own := settled _ arguments
  have items_settled : ∀ v ∈ s.items m items, Settled s v := Settled.of_map fun r fixes => by
    have same := rooted.settled_head own r fixes
    simp only [Store.head, Value.rename, Value.renameAll_eq] at same
    injection same
  obtain ⟨depth, count, copies, evaluated, stands⟩ :=
    evaluate_all rooted (s.items m items) plain items_settled
  refine ⟨max depth 1, fun n enough env f given path => ?_⟩
  have deep : depth ≤ n := (Nat.le_max_left ..).trans enough
  obtain ⟨n', rfl⟩ : ∃ n', n = n' + 1 := ⟨n - 1, by omega⟩
  have room := rooted.room
  have reference : (ofFuel (n' + 2)).call (.builtin .apply)
      [.procedure mark code closed, .list m items, env] [] s =
        Calculus.apply (ofFuel (n' + 1)) (.procedure mark code closed) (.list m items) env s :=
    call_eq room _ _ _ _
  have same : List.Forall₂ (Stands s s.nextMark depth) (s.items m items) (s.items m items) :=
    Stands.self (stands s.nextMark (Nat.le_refl _))
  have resolved (given : Nat) (env' : Value) : Calculus.headOf (ofFuel (n' + 1))
      (.procedure mark code closed) env' (s.skip given) =
        .ok (.procedure mark code closed) (s.skip given) :=
    evaluate_atom n' env' room rfl
  have application := evalApplication_later rooted fixed own listed deep env made evaluated stands
  rw [reference]
  cases path with
  | direct =>
      rw [call_eq room]
      exact apply_later rooted fixed own listed deep env 1 (.listed s.nextMark) (Nat.le_succ _) same
        closed fun _ _ _ beside => rooted.new_list _ (Nat.le_refl _) (Nat.lt_succ_self _) beside _
  | applied env' =>
      rw [call_eq room]
      exact apply_later rooted fixed own listed deep env 0 .same (Nat.le_refl _) same env'
        fun _ _ keeps beside => (beside.holds rooted (rooted.fixes_shift 0) keeps).head _ own
  | named mark' f closed' env' bound =>
      rw [call_eq room]
      change SameEnd _ _ _ _ (Calculus.evalTagged (ofFuel (n' + 1))
        (.application mark' (.str f) (.list m items) closed') env' .none s)
      rw [evalTagged_none]
      exact application 1 mark' (.str f) closed' env' rfl (item_procedure bound 1)
  | throughVar mark' mark'' f closed' env' bound =>
      rw [call_eq room]
      change SameEnd _ _ _ _ (Calculus.evalTagged (ofFuel (n' + 1))
        (.application mark' (.var mark'' (.str f)) (.list m items) closed') env' .none s)
      rw [evalTagged_none]
      have heads : Calculus.headOf (ofFuel (n' + 1)) (.var mark'' (.str f)) env' (s.skip 1) =
          .ok (.procedure mark code closed) (s.skip 1) :=
        (evaluate_eq (t := s.skip 1) n' _ env' room).trans (item_procedure bound 1)
      exact application 1 mark' _ closed' env' rfl heads
  | evaluated mark' closed' env' =>
      rw [call_eq room]
      change SameEnd _ _ _ _ (Calculus.evalTagged (ofFuel (n' + 1))
        (.application mark' (.procedure mark code closed) (.list m items) closed') env' .none s)
      rw [evalTagged_none]
      exact application 1 mark' _ closed' env' rfl (resolved 1 env')
  | called mark' closed' =>
      rw [call_eq room]
      exact application 0 mark' _ closed' closed' rfl (resolved 0 closed')

/-- Makes a procedure that gives back what it is called with. -/
def giving : Term :=
  .app (.prim .lambda) [.fn ["π"] (.item (.var "π") (.lit (.str "x"))), .list [.lit (.str "x")]]

/-- The code of that procedure. -/
def givingCode : Value :=
  let header : Header := { name := "<lambda>", path := "<lambda>", params := ["π"], plain := true }
  .dict 18 [(.str "body", .closure 16 header (.item (.var "π") (.lit (.str "x"))) []),
    (.str "parameters", .list 17 [.str "x"])]

/-- The store of a session that has made the procedure, and then a list of an argument for it. -/
def givingStore : Store :=
  let made := (giving.eval (.ofFuel 9) []).after Session.unbounded
  ((Term.list [.num 3]).eval (.ofFuel 9) [("p", .procedure 19 givingCode outermost)]).after made

theorem held_giving :
    Held givingStore [("l", .list 20 [.int 3]), ("p", .procedure 19 givingCode outermost)] :=
  have made : giving.eval (.ofFuel 9) [] Session.unbounded = .ok (.procedure 19 givingCode outermost)
      ((giving.eval (.ofFuel 9) []).after Session.unbounded) := rfl
  have listed : (Term.list [.num 3]).eval (.ofFuel 9) [("p", .procedure 19 givingCode outermost)]
      ((giving.eval (.ofFuel 9) []).after Session.unbounded) = .ok (.list 20 [.int 3]) givingStore := rfl
  .ended "l" (.ended "p" .start made) listed

theorem call_paths_agree_giving :
    Held givingStore [("l", .list 20 [.int 3]), ("p", .procedure 19 givingCode outermost)] ∧
      ∃ depth, ∀ n, depth ≤ n → ∀ env f given,
        CallPath givingStore (.procedure 19 givingCode outermost) (.list 20 [.int 3])
            (givingStore.items 20 [.int 3]) f given →
          SameEnd givingStore (.list 20 [.int 3]) (givingStore.items 20 [.int 3])
            ((ofFuel (n + 1)).call (.builtin .apply)
              [.procedure 19 givingCode outermost, .list 20 [.int 3], env] [] givingStore)
            ((ofFuel (n + 1)).call f given [] givingStore) := by
  have listed : ∀ params t, item givingCode (.str "parameters") givingStore = .ok params t →
      ∀ mark dtype shape data, params ≠ .array mark dtype shape data := by
    intro params t ran mark dtype shape data same
    have known : item givingCode (.str "parameters") givingStore =
        .ok (.list 17 [.str "x"]) givingStore := rfl
    rw [known, same] at ran
    cases ran
  have plain : ∀ v ∈ givingStore.items 20 [.int 3], Plain givingStore v := by
    have held : givingStore.items 20 [.int 3] = [.int 3] := rfl
    intro v member
    rw [held, List.mem_singleton] at member
    exact member ▸ .atom rfl
  exact ⟨held_giving, call_paths_agree held_giving (List.mem_cons_of_mem _ (List.mem_cons_self ..))
    listed (List.mem_cons_self ..) (by decide) plain⟩

end Machine

/-! A list that holds itself. -/

namespace Value

variable (frames : Nat → Frame)

theorem showPlain_list (mark : Nat) (items : List Value) :
    (list mark items).showPlain frames = listText <$> showAll frames items := by
  rw [showPlain.eq_def]
  dsimp only
  rw [showWith.eq_def]

theorem showWith_list (mark : Nat) (items : List Value) :
    (list mark items).showWith frames = listText <$> showAll frames items := by
  rw [showWith.eq_def]

theorem showEntry_parameters (body : Value) (mark : Nat) :
    showEntry frames "parameters" [(.str "body", body), (.str "parameters", .list mark [])] =
      .ok (listText []) := by
  rw [showEntry.eq_def]
  change (if "body" = "parameters" then _ else showEntry frames _ _) = _
  rw [if_neg (by decide), showEntry.eq_def]
  change (if "parameters" = "parameters" then showPlain frames _ else _) = _
  rw [if_pos rfl, showPlain_list, showAll.eq_def]
  rfl

theorem showAll_one (v : Value) : showAll frames [v] = (fun t => [t]) <$> v.showWith frames := by
  rw [showAll.eq_def]
  dsimp only
  rw [showAll.eq_def]
  cases v.showWith frames <;> rfl

end Value

namespace Calculus

/-- A list that holds itself, in a store that says so. -/
def selfHeld : Value := .list 16 []

def constantCode : Value :=
  let header : Header := { name := "<lambda>", path := "<lambda>", params := ["π"], plain := true }
  .dict 17 [(.str "body", .closure 18 header (.num 1) []), (.str "parameters", .list 19 [])]

/-- A procedure without parameters. -/
def constant : Value := .procedure 20 constantCode outermost

/-- A store where the procedure has a name, the list holds itself and the stack has room for thirty
calls. -/
def selfHoldingStore : Store :=
  { Session.start with
    frames := #[{ mark := 9, bindings := Session.outermostFrame.bindings ++ [("f", constant)] }]
    nextMark := 22
    contents := [(16, [selfHeld])]
    stack := { depth := 16, limit := 20000, room := some 30 } }

theorem shown_args : ∃ text, (selfHoldingStore.view (.list 21 [selfHeld])).showPlain
    selfHoldingStore.frame = .ok text := by
  have viewed : selfHoldingStore.view (.list 21 [selfHeld]) =
      .list 21 [.list 16 [.recurring "[...]"]] := rfl
  rw [viewed, Value.showPlain_list, Value.showAll_one, Value.showWith_list, Value.showAll_one, Value.showWith.eq_def]
  exact ⟨_, rfl⟩

theorem shown_params : ∃ text, (selfHoldingStore.view (.list 19 [])).showPlain
    selfHoldingStore.frame = .ok text := by
  have viewed : selfHoldingStore.view (.list 19 []) = .list 19 [] := rfl
  rw [viewed, Value.showPlain_list, Value.showAll.eq_def]
  exact ⟨_, rfl⟩

theorem shown_proc : ∃ text, (selfHoldingStore.view constant).showPlain
    selfHoldingStore.frame = .ok text := by
  have viewed : selfHoldingStore.view constant = constant := rfl
  rw [viewed, constant, constantCode]
  rw [Value.showPlain.eq_def]
  dsimp only
  rw [Value.showWith.eq_def]
  dsimp only
  rw [Value.showEntry_parameters]
  exact ⟨_, rfl⟩

/-- Where their number is wrong, a procedure is not applied to its arguments. -/
theorem apply_refuses (k : Machine) (mark : Nat) (closed caller : Value) {code params args : Value}
    {expected given : Nat} {t u : Store} (read : item code (.str "parameters") t = .ok params u)
    (expects : length params u = .ok expected u) (gets : length args u = .ok given u)
    (wrong : expected ≠ given) : Calculus.apply k (.procedure mark code closed) args caller t =
      .error (.fault (u.refusal (.procedure mark code closed) params args expected given)) u := by
  refine (bind_of_ok read).trans ((bind_of_ok expects).trans ((bind_of_ok gets).trans ?_))
  rw [if_pos wrong, wrongCount_eq]

/-- Applied to the list, the procedure refuses the number of its arguments. -/
theorem apply_selfHeld : ∃ f, f.kind = "ContractViolation" ∧
    Calculus.apply (.ofFuel 40) constant (.list 21 [selfHeld]) outermost selfHoldingStore =
      .error (.fault f) selfHoldingStore := by
  have given : item constantCode (.str "parameters") selfHoldingStore =
      .ok (.list 19 []) selfHoldingStore := rfl
  have none : length (.list 19 []) selfHoldingStore = .ok 0 selfHoldingStore := rfl
  have one : length (.list 21 [selfHeld]) selfHoldingStore = .ok 1 selfHoldingStore := rfl
  rw [constant, apply_refuses _ _ _ _ given none one (by decide)]
  obtain ⟨_, first⟩ := shown_args
  obtain ⟨_, second⟩ := shown_proc
  obtain ⟨_, third⟩ := shown_params
  refine ⟨_, ?_, rfl⟩
  rw [constant] at second
  simp only [Store.refusal, first, second, third]
  rfl

/-- Calls with a list that holds itself tell apart how the procedure is called: an application of its
name is evaluated by evaluating the list, which never ends. -/
theorem selfHeld_tells_paths_apart :
    item outermost (.str "f") selfHoldingStore = .ok constant selfHoldingStore ∧
    (∃ f, f.kind = "ContractViolation" ∧
      Calculus.apply (.ofFuel 40) constant (.list 21 [selfHeld]) outermost selfHoldingStore =
        .error (.fault f) selfHoldingStore) ∧
    (match Calculus.eval (.ofFuel 40) (.application 22 (.str "f") (.list 21 [selfHeld]) outermost)
        outermost selfHoldingStore with
      | .error (.fault f) _ => f.kind == "RecursionError"
      | _ => false) = true :=
  ⟨rfl, apply_selfHeld, by decide +kernel⟩

end Calculus
end Knot
