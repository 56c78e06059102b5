import Knot.Proofs.Parallel.Terms

/-!
Calls side by side: of what stands for each other, and of functions that are handed twins and use them for
calls only.
-/

namespace Knot

open Run Renaming

/-! What a function's parameters are bound to. -/

namespace Signature

theorem length_assign (params : List Parameter) (args : List Value) (named : Named) :
    (assign params args named).length = params.length := by
  induction params generalizing args with
  | nil => rfl
  | cons p params ih => cases args <;> simp [assign, ih]

theorem length_of_bind {sig : Signature} {args : List Value} {named : Named}
    {values : List (Option Value)} (bound : sig.bind args named = .ok values) :
    values.length = sig.params.length := by
  unfold bind at bound
  cases found : sig.namedFault? args.length named with
  | some f =>
      rw [found] at bound
      cases bound
  | none =>
      rw [found] at bound
      dsimp only at bound
      by_cases more : sig.params.length < args.length
      · simp [more] at bound
      · rw [if_neg more] at bound
        cases lacking : sig.missing (assign sig.params args named) with
        | nil =>
            simp only [lacking, Except.ok.injEq] at bound
            rw [← bound, length_assign]
        | cons name names => simp [lacking] at bound

theorem assign_required (names : List String) (args : List Value)
    (fits : args.length = names.length) : assign (required names) args [] = args.map some := by
  induction names generalizing args with
  | nil =>
      obtain rfl := List.length_eq_zero_iff.mp fits
      rfl
  | cons name names ih =>
      cases args with
      | nil => cases fits
      | cons v args => exact congrArg (some v :: ·) (ih args (Nat.succ.inj fits))

theorem missing_required (path : String) (names : List String) (args : List Value) :
    (Signature.mk path (required names) false).missing (assign (required names) args []) =
      names.drop args.length := by
  induction names generalizing args with
  | nil => simp [missing, required, assign]
  | cons name names ih =>
      cases args with
      | nil =>
          have rest := ih []
          simp only [missing, required, List.map_cons, assign, List.lookup_nil, List.zip_cons_cons,
            List.length_nil, List.drop_zero, List.filterMap_cons] at rest ⊢
          simpa using rest
      | cons v args =>
          have rest := ih args
          simp only [missing, required, List.map_cons, assign, List.zip_cons_cons, List.length_cons,
            List.drop_succ_cons, List.filterMap_cons] at rest ⊢
          simpa using rest

/-- Arguments without names fit parameters that are all required if there are as many. -/
theorem bind_required (path : String) (names : List String) :
    ∃ refuse : Nat → Fault, ∀ args, (Signature.mk path (required names) false).bind args [] =
      if args.length = names.length then .ok (args.map some) else .error (refuse args.length) := by
  refine ⟨fun n => arity (if names.length < n then .tooMany path
    ((required names).filter (·.required)).length names.length n else .missing path (names.drop n)),
    fun args => ?_⟩
  have count : (required names).length = names.length := List.length_map _
  simp only [bind, namedFault?, missing_required, count]
  by_cases more : names.length < args.length
  · rw [if_pos more, if_neg (Nat.ne_of_gt more)]
    simp [more]
  · rw [if_neg more]
    by_cases fits : args.length = names.length
    · rw [if_pos fits, fits, List.drop_length, assign_required names args fits]
    · have fewer : args.length < names.length := by omega
      rw [if_neg fits, if_neg more]
      cases rest : names.drop args.length with
      | nil =>
          have none := List.drop_eq_nil_iff.mp rest
          omega
      | cons name names => rfl

end Signature

namespace Header

/-- Arguments without names are bound in order, the last one first where the function is plain. -/
theorem bind_positional (header : Header) :
    ∃ refuse : Nat → Fault, ∀ args, header.bind args [] =
      if args.length = header.params.length then
        .ok (if header.plain then (header.params.zip args).reverse else header.params.zip args)
      else .error (refuse args.length) := by
  by_cases plain : header.plain
  · refine ⟨fun n => Signature.arity (.counted header.name header.params.length n), fun args => ?_⟩
    simp only [bind, plain, if_true]
  · obtain ⟨refuse, bound⟩ := Signature.bind_required header.path header.params
    refine ⟨refuse, fun args => ?_⟩
    have known := bound args
    rw [Signature.required] at known
    unfold bind
    rw [if_neg plain, if_neg plain, known]
    by_cases fits : args.length = header.params.length
    · rw [if_pos fits, if_pos fits]
      change Except.ok (header.params.zip ((args.map some).map (·.getD .none))) = _
      rw [List.map_map]
      exact congrArg (Except.ok <| header.params.zip ·) (List.map_id args)
    · rw [if_neg fits, if_neg fits]
      rfl

theorem lookup_zip_ne_none {names : List String} {vs : List Value} (enough : names.length ≤ vs.length)
    {name : String} (member : name ∈ names) : (names.zip vs).lookup name ≠ none := by
  induction names generalizing vs with
  | nil => cases member
  | cons first names ih =>
      cases vs with
      | nil => cases enough
      | cons v vs =>
          rw [List.zip_cons_cons, List.lookup_cons]
          by_cases same : name = first
          · simp [same]
          · rw [beq_eq_false_iff_ne.mpr same]
            exact ih (Nat.le_of_succ_le_succ enough) ((List.mem_cons.mp member).resolve_left same)

theorem lookup_reverse_ne_none {entries : Scope} {name : String} (present : entries.lookup name ≠ none) :
    entries.reverse.lookup name ≠ none := by
  intro absent
  refine present (List.lookup_eq_none_iff.mpr fun entry member => ?_)
  exact List.lookup_eq_none_iff.mp absent entry (List.mem_reverse.mpr member)

/-- Every parameter is bound. -/
theorem bind_binds {header : Header} {args : List Value} {named : Named} {given : Scope}
    (bound : header.bind args named = .ok given) {name : String} (free : given.lookup name = none) :
    name ∉ header.params := by
  intro member
  unfold bind at bound
  split at bound
  · split at bound
    · cases bound
    · split at bound
      · injection bound with same
        subst same
        rename_i fits
        exact lookup_reverse_ne_none (lookup_zip_ne_none fits.ge member) free
      · cases bound
  · cases values : (Signature.mk header.path (header.params.map ({ name := · })) false).bind args named with
    | error e =>
        rw [values] at bound
        cases bound
    | ok values' =>
        rw [values] at bound
        injection bound with same
        subst same
        refine lookup_zip_ne_none ?_ member free
        have count := Signature.length_of_bind values
        simp only [List.length_map] at count ⊢
        exact count.ge

end Header

namespace Twins

variable {T : Twins} {way : Way} {w : Stage} {k k' : Machine} {args args' : List Value}
  {named named' : Named}

namespace Scopes

variable {names : List String} {scope scope' : Scope}

/-- What stands for each other, bound before what a function sees. -/
theorem bound (scopes : T.Scopes w names scope scope') (header : Header) (peers : Peers w args args')
    (keys : PeersNamed w named named') :
    (∃ given given', header.bind args named = .ok given ∧ header.bind args' named' = .ok given' ∧
      T.Scopes w (without names header.params) (given ++ scope) (given' ++ scope')) ∨
    ∃ f f', header.bind args named = .error f ∧ header.bind args' named' = .error f' ∧
      f'.bare = f.bare := by
  have renamed (r : Renaming) := Header.bind_rename (r := r) header args named
  cases found : header.bind args named with
  | error f =>
      refine .inr ⟨f, f, rfl, ?_, rfl⟩
      rw [peers.eq, keys.eq, renamed, found]
      rfl
  | ok given =>
      refine .inl ⟨given, w.names.named given, rfl, ?_, ?_⟩
      · rw [peers.eq, keys.eq, renamed, found]
        rfl
      · refine scopes.append header.params (fun name free => Header.bind_binds found free)
          ⟨fun r fixes => ?_, rfl⟩
        have same := renamed r
        rw [peers.map_eq fixes, keys.fixed r fixes, found] at same
        injection same with same
        exact same.symm

/-- A twin bound before what a function sees, and other arguments behind it. -/
theorem handed (scopes : T.Scopes w names scope scope') (header : Header) {u v : Value}
    (linked : T.Linked w u v) (peers : Peers w args args') :
    (∃ p params given given', header.params = p :: params ∧ header.bind (u :: args) [] = .ok given ∧
      header.bind (v :: args') [] = .ok given' ∧
        T.Scopes w (p :: without names header.params) (given ++ scope) (given' ++ scope')) ∨
    ∃ f f', header.bind (u :: args) [] = .error f ∧ header.bind (v :: args') [] = .error f' ∧
      f'.bare = f.bare := by
  obtain ⟨refuse, positional⟩ := header.bind_positional
  have count : args'.length = args.length := by rw [peers.eq, List.length_map]
  by_cases fits : (u :: args).length = header.params.length
  · have fits' : (v :: args').length = header.params.length := by
      rw [← fits, List.length_cons, List.length_cons, count]
    cases params : header.params with
    | nil =>
        rw [params] at fits
        cases fits
    | cons p params' =>
        have left := positional (u :: args)
        have right := positional (v :: args')
        rw [if_pos fits, params, List.zip_cons_cons] at left
        rw [if_pos fits', params, List.zip_cons_cons] at right
        have enough : params'.length ≤ args.length := by
          rw [params] at fits
          exact (Nat.succ.inj fits).ge
        have rest : Via Renaming.named w (params'.zip args) (params'.zip args') := by
          have renamed (r : Renaming) :
              r.named (params'.zip args) = params'.zip (args.map (Value.rename r)) := by
            rw [named, List.zip_map_right]
          exact ⟨fun r fixes => by rw [renamed, peers.map_eq fixes], by rw [peers.eq, renamed]⟩
        refine .inl ⟨p, params', _, _, rfl, left, right, ?_⟩
        by_cases plain : header.plain
        · have turned : Via Renaming.named w (params'.zip args).reverse (params'.zip args').reverse :=
            ⟨fun r fixes => by rw [named, List.map_reverse]; exact congrArg _ (rest.fixed r fixes),
              by rw [rest.eq, named, named, List.map_reverse]⟩
          have bound := (scopes.cons_linked p linked).append params' (fun name free member =>
            Header.lookup_reverse_ne_none (Header.lookup_zip_ne_none enough member) free) turned
          simp only [plain, if_true, List.reverse_cons, List.append_assoc, List.singleton_append]
          refine bound.mono fun name member => ?_
          simp only [Term.mem_without, List.mem_cons] at member ⊢
          grind
        · have bound := (scopes.append params' (fun name free member =>
            Header.lookup_zip_ne_none enough member free) rest).cons_linked p linked
          simp only [plain]
          refine bound.mono fun name member => ?_
          simp only [Term.mem_without, List.mem_cons] at member ⊢
          grind
  · have fits' : ¬(v :: args').length = header.params.length := by
      rwa [List.length_cons, count, ← List.length_cons]
    have left := positional (u :: args)
    have right := positional (v :: args')
    rw [if_neg fits] at left
    rw [if_neg fits', List.length_cons, count, ← List.length_cons] at right
    exact .inr ⟨_, _, left, right, rfl⟩

end Scopes

/-- What a function sees in the second run. -/
theorem Sound.closure (sound : T.Sound w) {mark : Nat} {header : Header} {body : Term} {scope : Scope}
    {f' : Value} (peer : Peer w (.closure mark header body scope) f') :
    ∃ names scope', f' = .closure (w.names.mark mark) header body scope' ∧
      body.onlyCalls T.form (without names header.params) ∧ T.Scopes w names scope scope' := by
  cases seen : w.names.sees (.closure mark header body scope) with
  | some scope' =>
      obtain ⟨_, _, _, _, names, made, _, only, scopes⟩ := sound.sees _ _ seen
      cases made
      exact ⟨names, scope', by rw [peer.eq, Value.rename, seen]; rfl, only, scopes⟩
  | none =>
      refine ⟨[], w.names.named scope, ?_, Term.onlyCalls_nil body, .of_via ⟨fun r fixes => ?_, rfl⟩⟩
      · rw [peer.eq, Value.rename, seen, Option.getD_none, Value.renameScope_eq]
        rfl
      · have same := peer.fixed r fixes
        rw [fixes.scopes.closure] at same
        injection same

namespace Companions

variable (companions : T.Companions way k k')
include companions

/-- A function goes alike in scopes that bind what stands for each other. -/
theorem callClosure {names : List String} {scope scope' : Scope} {header : Header} {body : Term}
    (only : body.onlyCalls T.form (without names header.params))
    (scopes : T.Scopes w names scope scope') (peers : Peers w args args')
    (keys : PeersNamed w named named') :
    T.Parallel way w Peer (Machine.callClosure k header body scope args named)
      (Machine.callClosure k' header body scope' args' named') := by
  unfold Machine.callClosure
  rcases scopes.bound header peers keys with ⟨given, given', left, right, bound⟩ |
    ⟨f, f', left, right, bare⟩
  · rw [left, right]
    exact companions.evalTerm body only bound
  · rw [left, right]
    exact .fault bare

/-- A function that uses its first argument for calls only is handed a twin. -/
theorem handClosure {names : List String} {scope scope' : Scope} {header : Header} {body : Term}
    (only : body.onlyCalls T.form (without names header.params))
    (taken : ∀ p params, header.params = p :: params → body.onlyCalls T.form [p])
    (scopes : T.Scopes w names scope scope') {u v : Value} (linked : T.Linked w u v)
    (peers : Peers w args args') :
    T.Parallel way w Peer (Machine.callClosure k header body scope (u :: args) [])
      (Machine.callClosure k' header body scope' (v :: args') []) := by
  unfold Machine.callClosure
  rcases scopes.handed header linked peers with ⟨p, params, given, given', first, left, right, bound⟩ |
    ⟨f, f', left, right, bare⟩
  · rw [left, right]
    exact companions.evalTerm body (Term.onlyCalls_append body (taken p params first) only) bound
  · rw [left, right]
    exact .fault bare

theorem callPrelude (b : Builtin) (peers : Peers w args args') (keys : PeersNamed w named named') :
    T.Parallel way w Peer (Machine.callBuiltin k b args named)
      (Machine.callBuiltin k' b args' named') := by
  have seen : T.Scopes w [] Machine.preludeScope Machine.preludeScope :=
    .of_via ⟨fun r _ => by simp [Machine.preludeScope, Renaming.named, outermost],
      by simp [Machine.preludeScope, Renaming.named, outermost]⟩
  unfold Machine.callBuiltin
  split
  · exact companions.callClosure (Term.onlyCalls_nil _) seen peers keys
  · exact companions.callBuiltin b peers keys

omit companions in
theorem callFrame {id id' : Nat} (ids : Via Renaming.frame w id id') (peers : Peers w args args')
    (keys : PeersNamed w named named') :
    T.Parallel way w Peer (Machine.callFrame id args named) (Machine.callFrame id' args' named') :=
  .three (fun _ => Machine.callFrame_equi) ids peers keys

/-- Calls go alike of whatever stands for each other. -/
theorem callValue {f f' : Value} (fs : Peer w f f') (peers : Peers w args args')
    (keys : PeersNamed w named named') :
    T.Parallel way w Peer (Machine.callValue k f args named) (Machine.callValue k' f' args' named') := by
  have refused : T.Parallel way w Peer (Run.fault (.type (.notCallable f.operandName)))
      (Run.fault (.type (.notCallable f'.operandName))) :=
    .fault (by rw [fs.eq, Value.operandName_rename])
  refine .given fun sound => ?_
  obtain rfl := fs.eq
  have part {u : Value} (member : u ∈ f.children) := fs.child member
  cases f with
  | builtin b => exact companions.callPrelude b peers keys
  | closure mark header body scope =>
      obtain ⟨names, scope', same, only, scopes⟩ := sound.closure fs
      rw [same]
      exact companions.callClosure only scopes peers keys
  | kind kd => exact .two (fun _ => Kind.call_equi kd) peers keys
  | method mark owner m => exact companions.callMethod (part (.head _)) m peers keys
  | member kd m => exact companions.callUnbound kd m peers keys
  | frame id => exact callFrame ⟨fun r fixes => Value.frame.inj (fs.fixed r fixes), rfl⟩ peers keys
  | procedure mark code env =>
      have envs := part (u := env) (.tail _ (.head _))
      have checked : T.Parallel way w (Via fun _ => id)
          (Run.ofExcept ((Signature.mk "Procedure.__call__" [] true).checkUnnamed named))
          (Run.ofExcept ((Signature.mk "Procedure.__call__" [] true).checkUnnamed named')) :=
        Parallel.one (fun _ named => Equi.ofExcept (f := id)
          (by rw [Signature.checkUnnamed_rename, id_map])) keys
      refine checked.bind fun w₁ _ _ leads₁ _ => ?_
      refine (Parallel.one (fun _ => list_equi) (peers.later leads₁)).bind fun w₂ _ _ leads₂ lists => ?_
      have leads := leads₁.trans leads₂
      exact companions.apply (fs.later leads) lists (envs.later leads)
  | application mark head expr env =>
      have envs := part (u := env) (by simp [Value.children])
      exact (bound _ peers keys).discard.bind fun w₁ _ _ leads _ =>
        companions.evalApplication (fs.later leads) (envs.later leads)
  | thunk mark generator =>
      have same : named'.any (·.1 == "self") = named.any (·.1 == "self") := by
        rw [keys.eq, Renaming.named, List.any_map]
        rfl
      exact .ite (.of_eq (congrArg (· = true) same)) (.fault rfl) (companions.force (part (.head _)) peers keys)
  | manager mark limit =>
      refine (bound _ peers keys).bind fun w₁ values values' leads₁ given => ?_
      refine (Parallel.none (F := Renaming.mark) fun _ => Equi.fresh).bind
        fun w₂ _ _ leads₂ marks => .pure (.limited marks (fs.later (leads₁.trans leads₂)) ?_)
      have first := given.value .none (fun _ => rfl) 0
      rw [← List.head?_eq_getElem?, ← List.head?_eq_getElem?] at first
      exact first.later leads₂
  | limited mark manager func =>
      exact underSameLimit (part (.head _)) fun w₁ leads =>
        companions.call ((part (u := func) (.tail _ (.head _))).later leads) (peers.later leads)
          (keys.later leads)
  | counted mark name generator tally =>
      refine (bound _ peers keys).bind fun w₁ values values' leads given => ?_
      have first := given.value .none (fun _ => rfl) 0
      rw [← List.head?_eq_getElem?, ← List.head?_eq_getElem?] at first
      exact companions.deriveCounted ((part (.head _)).later leads)
        ((part (u := tally) (.tail _ (.head _))).later leads) first
  | countedThunk mark inner tally =>
      exact companions.forceCounted (part (.head _)) (part (.tail _ (.head _))) peers keys
  | _ => exact refused

/-- A thunk that counts calls of twins passes its own on to them. -/
theorem forceLinked {u v tally tally' : Value} (linked : T.Linked w u v) (tallies : Peer w tally tally')
    (peers : Peers w args args') (keys : PeersNamed w named named')
    (admits : T.Admits args named) :
    T.Parallel way w Peer (FixedPoint.forceCounted k u tally args named)
      (FixedPoint.forceCounted k' v tally' args' named') := by
  refine (Parallel.one (F := fun _ _ => ()) (fun _ tally => FixedPoint.bump_equi tally .thunkCalls)
    tallies).bind fun w₁ _ _ leads₁ _ => .tells _ _ fun w₂ leads₂ => ?_
  have leads := leads₁.trans leads₂
  exact companions.linked (linked.later leads) (peers.later leads) (keys.later leads) admits

/-- A generator that uses its thunk for calls only is handed a counted one. -/
theorem deriveLinked {generator generator' u v tally tally' : Value}
    (only : generator.OnlyCalls T.form) (generators : Peer w generator generator')
    (tallies : Peer w tally tally') (linked : T.Linked w u v) :
    T.Parallel way w Peer (FixedPoint.deriveCounted k generator tally u)
      (FixedPoint.deriveCounted k' generator' tally' v) := by
  refine (Parallel.one (F := fun _ _ => ()) (fun _ tally => FixedPoint.bump_equi tally .derivations)
    tallies).bind fun w₁ _ _ leads₁ _ => .tells _ _ fun w₂ leads₂ => ?_
  refine (Parallel.none (F := Renaming.mark) fun _ => Equi.fresh).bind fun w₃ mark mark' leads₃ marks => ?_
  have leads := (leads₁.trans leads₂).trans leads₃
  exact companions.handed only (generators.later leads)
    (.counted marks (linked.later leads) (tallies.later leads)) (.nil _)

/-- What uses its first argument for calls only goes alike when it is handed twins. -/
theorem handValue {f f' u v : Value} (only : f.OnlyCalls T.form) (fs : Peer w f f')
    (linked : T.Linked w u v) (peers : Peers w args args') :
    T.Parallel way w Peer (Machine.callValue k f (u :: args) [])
      (Machine.callValue k' f' (v :: args') []) := by
  refine .given fun sound => ?_
  cases only with
  | closure mark header body scope taken =>
      obtain ⟨names, scope', rfl, only, scopes⟩ := sound.closure fs
      exact companions.handClosure only taken scopes linked peers
  | builtin defined taken =>
      have seen : T.Scopes w [] Machine.preludeScope Machine.preludeScope :=
        .of_via ⟨fun r _ => by simp [Machine.preludeScope, Renaming.named, outermost],
          by simp [Machine.preludeScope, Renaming.named, outermost]⟩
      obtain rfl := fs.eq
      change T.Parallel way w Peer (Machine.callBuiltin k _ (u :: args) [])
        (Machine.callBuiltin k' _ (v :: args') [])
      unfold Machine.callBuiltin
      simp only [defined]
      exact companions.handClosure (Term.onlyCalls_nil _) taken seen linked peers
  | counted mark name tally only =>
      have generators := fs.child (.head _)
      have tallies := fs.child (u := tally) (.tail _ (.head _))
      obtain rfl := fs.eq
      obtain ⟨refuse, bound⟩ := Signature.bind_required "counting.<locals>.counted" ["self"]
      have count : (v :: args').length = (u :: args).length := by
        rw [peers.eq, List.length_cons, List.length_map, List.length_cons]
      change T.Parallel way w Peer
        (Machine.callCounted k _ _ (u :: args) []) (Machine.callCounted k' _ _ (v :: args') [])
      unfold Machine.callCounted
      dsimp only
      rw [bound, bound, count]
      by_cases fits : (u :: args).length = ["self"].length
      · rw [if_pos fits, if_pos fits]
        exact companions.deriveLinked only generators tallies linked
      · rw [if_neg fits, if_neg fits]
        exact .fault rfl

end Companions

end Twins

end Knot
