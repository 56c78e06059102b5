import Knot.Proofs.Journal.Machine

/-!
Programs cannot tell marks and frames apart. Whatever a machine with fuel calls or evaluates goes in an
image of a store as it goes in the store itself, and ends alike: a rule goes alike in both if the
machine does, and so every machine with fuel does.
-/

namespace Knot

open Run Renaming

/-- Functions see what they saw, renamed. -/
def Renaming.KeepsScopes (r : Renaming) : Prop := ∀ v, r.sees v = none

theorem Renaming.KeepsScopes.closure {r : Renaming} (scopes : r.KeepsScopes) (mark : Nat) (header : Header)
    (body : Term) (scope : Scope) :
    (Value.closure mark header body scope).rename r =
      .closure (r.mark mark) header body (r.named scope) := by
  simp [scopes _, named]

/-- What a run numbers comes before what the rest does. -/
theorem Renaming.Allots.cut {r : Renaming} {t t' t'' s : Store} (allots : Allots r t t'' s) (rest : Went 0 t' t'') :
    Allots r t t' s where
  marks i below := allots.marks i (below.trans_le rest.marks)
  frames i below := allots.frames i (below.trans_le rest.frames)

theorem Renaming.Allots.rest {r : Renaming} {t t' t'' s s' : Store} (allots : Allots r t t'' s) (first : Went 0 t t')
    (follows : Follows r t t' s s') : Allots r t' t'' s' where
  marks i below := by
    obtain ⟨n, made⟩ := Nat.exists_eq_add_of_le first.marks
    have marks := follows.marks
    have numbered := allots.marks (n + i) (by omega)
    rw [made, Nat.add_assoc, numbered]
    omega
  frames i below := by
    obtain ⟨n, made⟩ := Nat.exists_eq_add_of_le first.frames
    have frames := follows.frames
    have numbered := allots.frames (n + i) (by omega)
    rw [made, Nat.add_assoc, numbered]
    omega

namespace Run

variable {α β γ δ : Type} {r : Renaming} {f : α → β} {g : γ → δ}

/-- Runs that end alike in a store and in an image of it, wherever they bind arguments. -/
structure Alike (r : Renaming) (f : α → β) (x : Run α) (y : Run β) : Prop where
  went : GoesFrom 0 x
  ok : ∀ {t s}, Image r t s → ∀ {a t'}, x t = .ok a t' → Allots r t t' s →
    ∃ s', y s = .ok (f a) s' ∧ Follows r t t' s s'
  error : ∀ {t s}, Image r t s → ∀ {e t'}, x t = .error e t' → Allots r t t' s →
    ∃ e' s', y s = .error e' s' ∧ e'.bare = e.bare ∧ Follows r t t' s s'

theorem Equi.alike {x : Run α} {y : Run β} (equi : Equi r f x y) : Alike r f x y :=
  ⟨equi.grows.goesFrom, equi.ok, equi.error⟩

theorem Alike.equi {x : Run α} {y : Run β} (alike : Alike r f x y) (grows : Grows x) : Equi r f x y :=
  ⟨grows, alike.ok, alike.error⟩

theorem Alike.bind {x : Run α} {y : Run β} {h : α → Run γ} {k : β → Run δ} (first : Alike r f x y)
    (second : ∀ a, Alike r g (h a) (k (f a))) : Alike r g (x >>= h) (y >>= k) where
  went := first.went.bind fun a => (second a).went
  ok {t s} image {c t''} run allots := by
    obtain ⟨a, t', ran, run⟩ := ok_of_bind run
    have before : Went 0 t t' := after_of_ok ran ▸ first.went t (Nat.zero_le _)
    have after : Went 0 t' t'' := after_of_ok run ▸ (second a).went t' (Nat.zero_le _)
    obtain ⟨s', ran', follows⟩ := first.ok image ran (allots.cut after)
    obtain ⟨s'', run', follows'⟩ := (second a).ok follows.image run (allots.rest before follows)
    exact ⟨s'', by rw [bind_of_ok ran', run'], follows.trans follows'⟩
  error {t s} image {e t''} run allots := by
    cases ran : x t with
    | error e' t' =>
        rw [bind_of_error ran] at run
        cases run
        obtain ⟨e', s', ran', bare, follows⟩ := first.error image ran allots
        exact ⟨e', s', bind_of_error ran', bare, follows⟩
    | ok a t' =>
        rw [bind_of_ok ran] at run
        have before : Went 0 t t' := after_of_ok ran ▸ first.went t (Nat.zero_le _)
        have after : Went 0 t' t'' := after_of_error run ▸ (second a).went t' (Nat.zero_le _)
        obtain ⟨s', ran', follows⟩ := first.ok image ran (allots.cut after)
        obtain ⟨e', s'', run', bare, follows'⟩ :=
          (second a).error follows.image run (allots.rest before follows)
        exact ⟨e', s'', by rw [bind_of_ok ran', run'], bare, follows.trans follows'⟩

/-- An image does not tell who binds names. -/
theorem written_image {t s : Store} (image : Image r t s) (writer writer' : Writer) :
    Image r { t with writer } { s with writer := writer' } :=
  ⟨image.frames, image.tallies, image.contents, image.tables, image.given, image.namespaces,
    image.entered, image.session, image.stack, image.out⟩

theorem passed_alike (id : Nat) (name : String) (v : Value) :
    Alike r (fun _ : Unit => ()) (writing .call (Run.bind id name v))
      (writing .call (Run.bind (r.frame id) name (v.rename r))) where
  went := passed_goesFrom (.inl (Nat.zero_le _)) v
  ok {t s} image {a t'} run allots := by
    unfold writing at run ⊢
    cases ran : Run.bind id name v { t with writer := .call } with
    | error e t'' => simp [ran] at run
    | ok a' t'' =>
        simp only [ran] at run
        cases run
        obtain ⟨s'', ran', follows⟩ := (bind_equi id name v).ok (written_image image .call .call) ran
          ⟨allots.marks, allots.frames⟩
        exact ⟨{ s'' with writer := s.writer }, by rw [ran'],
          ⟨written_image follows.image _ _, follows.marks, follows.frames, follows.kept,
            follows.tallies⟩⟩
  error {t s} image {e t'} run allots := by
    unfold writing at run ⊢
    cases ran : Run.bind id name v { t with writer := .call } with
    | ok a' t'' => simp [ran] at run
    | error e' t'' =>
        simp only [ran] at run
        cases run
        obtain ⟨e', s'', ran', bare, follows⟩ :=
          (bind_equi id name v).error (written_image image .call .call) ran
            ⟨allots.marks, allots.frames⟩
        exact ⟨e', { s'' with writer := s.writer }, by rw [ran'], bare,
          ⟨written_image follows.image _ _, follows.marks, follows.frames, follows.kept,
            follows.tallies⟩⟩

namespace Equi

theorem discard {x : Run α} {y : Run β} (first : Equi r f x y) :
    Equi r (fun _ : Unit => ()) (Functor.discard x) (Functor.discard y) :=
  first.map fun _ => rfl

theorem ite {c d : Prop} [Decidable c] [Decidable d] (same : d ↔ c) {x x' : Run α} {y y' : Run β}
    (yes : Equi r f x y) (no : Equi r f x' y') : Equi r f (if c then x else x') (if d then y else y') := by
  by_cases holds : c
  · rw [if_pos holds, if_pos (same.mpr holds)]
    exact yes
  · rw [if_neg holds, if_neg (holds ∘ same.mp)]
    exact no

theorem ensuring {x : Run α} {y : Run β} {last last' : Run Unit} (first : Equi r f x y)
    (ends : Equi r (fun _ : Unit => ()) last last') :
    Equi r f (Run.ensuring x last) (Run.ensuring y last') :=
  (first.recover fun _ _ bare => ends.bind fun _ => .fault bare).bind fun a => ends.bind fun _ => .pure a

theorem atDepth_image {t s : Store} (image : Image r t s) (depth : Nat) :
    Image r (atDepth depth t) (atDepth depth s) :=
  ⟨image.frames, image.tallies, image.contents, image.tables, image.given, image.namespaces,
    image.entered, image.session, by simp only [atDepth, image.stack], image.out⟩

theorem deeper {x : Run α} {y : Run β} (first : Equi r f x y) :
    Equi r f (Run.deeper x) (Run.deeper y) where
  grows := first.grows.deeper
  ok {t s} image {a t'} run allots := by
    unfold Run.deeper at run ⊢
    rw [image.stack]
    split at run
    · rename_i room
      rw [if_pos room]
      exact first.ok image run allots
    · rename_i room
      rw [if_neg room]
      split at run
      · cases run
      · rename_i full
        rw [if_neg full]
        cases ran : x (atDepth (t.stack.depth + 1) t) with
        | error e t'' => simp [ran] at run
        | ok a' t'' =>
            simp only [ran] at run
            cases run
            obtain ⟨s'', ran', follows⟩ := first.ok (atDepth_image image (t.stack.depth + 1)) ran
              ⟨allots.marks, allots.frames⟩
            exact ⟨_, by simp only [ran'], ⟨atDepth_image follows.image _, follows.marks, follows.frames,
              follows.kept, follows.tallies⟩⟩
  error {t s} image {e t'} run allots := by
    unfold Run.deeper at run ⊢
    rw [image.stack]
    split at run
    · rename_i room
      rw [if_pos room]
      exact first.error image run allots
    · rename_i room
      rw [if_neg room]
      split at run
      · rename_i full
        rw [if_pos full]
        cases run
        exact ⟨_, _, rfl, rfl, did_image image _ _, rfl, rfl, Kept.refl _, fun _ _ => rfl⟩
      · rename_i full
        rw [if_neg full]
        cases ran : x (atDepth (t.stack.depth + 1) t) with
        | ok a' t'' => simp [ran] at run
        | error e' t'' =>
            simp only [ran] at run
            cases run
            obtain ⟨e', s'', ran', bare, follows⟩ := first.error
              (atDepth_image image (t.stack.depth + 1)) ran ⟨allots.marks, allots.frames⟩
            exact ⟨e', _, by simp only [ran'], bare, ⟨atDepth_image follows.image _, follows.marks,
              follows.frames, follows.kept, follows.tallies⟩⟩

theorem underLimit (mark : Nat) (limit : Value) {x : Run α} {y : Run β} (block : Equi r f x y) :
    Equi r f (Run.underLimit mark limit x) (Run.underLimit (r.mark mark) (limit.rename r) y) :=
  (enter_equi mark limit).discard.bind fun _ => block.ensuring (leave_equi mark)

theorem underSameLimit (manager : Value) {x : Run α} {y : Run β} (block : Equi r f x y) :
    Equi r f (Run.underSameLimit manager x) (Run.underSameLimit (manager.rename r) y) := by
  have lacking (name : String) : Equi r f (Run.fault (manager.lacks name))
      (Run.fault ((manager.rename r).lacks name)) := .fault (by rw [Value.lacks_rename])
  cases manager with
  | manager mark limit =>
      have rest : Equi r f (Run.fresh >>= fun mark => Run.underLimit mark limit x)
          (Run.fresh >>= fun mark => Run.underLimit mark (limit.rename r) y) :=
        Equi.fresh.bind fun mark => block.underLimit mark limit
      refine .get (fun t => .ite (.fault _) rest.grows) fun t s image => ?_
      have entered : (s.entered.lookup (r.mark mark)).isSome = (t.entered.lookup mark).isSome := by
        rw [image.entered, lookup_of_injective r.mark_injective]
        cases t.entered.lookup mark <;> rfl
      exact .ite (by rw [entered]) (lacking "func") rest
  | _ => exact lacking "_recreate_cm"

end Equi

end Run

/-- A machine that goes in an image as in the store itself, and takes nothing back, where functions
see what they saw. -/
structure Machine.Equivariant (r : Renaming) (k : Machine) : Prop where
  scopes : r.KeepsScopes
  growing : k.Growing
  call : ∀ f args named, Equi r (Value.rename r) (k.call f args named)
    (k.call (f.rename r) (args.map (Value.rename r)) (r.named named))
  evaluate : ∀ expr env, Equi r (Value.rename r) (k.evaluate expr env)
    (k.evaluate (expr.rename r) (env.rename r))

variable {k : Machine} {r : Renaming}

namespace Calculus

theorem mapGrid_equi {f h : Value → Run Value} (step : ∀ v, Equi r (Value.rename r) (f v) (h (v.rename r)))
    (v : Value) : Equi r (Value.rename r) (mapGrid f v) (mapGrid h (v.rename r)) :=
  (now_equi v).bind fun v => (Equi.ofExcept (Grid.ofValue_rename r v)).bind fun grid =>
    (Equi.mapM (fun v => (marked_equi v).bind step) grid.data).bind fun results =>
      array_equi .object grid.shape results

variable (equivariant : k.Equivariant r)
include equivariant

theorem bindAll_alike (target caller : Value) (params args : List Value) :
    Alike r (fun _ : Unit => ()) (bindAll k target caller params args)
      (bindAll k (target.rename r) (caller.rename r) (params.map (Value.rename r))
        (args.map (Value.rename r))) := by
  induction params generalizing args with
  | nil => cases args <;> exact (Equi.pure (f := fun _ : Unit => ()) ()).alike
  | cons param params ih =>
      cases args with
      | nil => exact (Equi.pure (f := fun _ : Unit => ()) ()).alike
      | cons arg args =>
          exact (frameOf_equi target).alike.bind fun id =>
            (equivariant.evaluate arg caller).alike.bind fun v =>
              (nameOf_equi param).alike.bind fun name =>
                (passed_alike id name v).bind fun _ => ih args

theorem apply_equi (proc args caller : Value) :
    Equi r (Value.rename r) (Calculus.apply k proc args caller)
      (Calculus.apply k (proc.rename r) (args.rename r) (caller.rename r)) := by
  refine Alike.equi ?_ (apply_grows equivariant.growing proc args caller)
  have refused : Alike r (Value.rename r)
      (shown proc >>= fun text => fault (.contract (.notProcedure text proc.typeName)) : Run Value)
      (shown (proc.rename r) >>= fun text =>
        fault (.contract (.notProcedure text (proc.rename r).typeName))) :=
    ((shown_equi proc).bind fun text => .fault (by rw [Value.typeName_rename]; rfl)).alike
  cases proc with
  | procedure mark code closed =>
      refine (item_equi code (.str "parameters")).alike.bind fun params =>
        (length_equi params).alike.bind fun expected => (length_equi args).alike.bind fun given => ?_
      dsimp only [id]
      split
      · exact ((wrongCount_equi (.procedure mark code closed) params args expected given).bind
          fun f => .fault (Fault.bare_rename r f)).alike
      · exact (callFrame_equi params closed).alike.bind fun env =>
          (members_equi params).alike.bind fun names => (members_equi args).alike.bind fun args =>
            (bindAll_alike equivariant env caller names args).bind fun _ =>
              ((item_equi code (.str "body")).bind fun body => equivariant.call body [env] []).alike
  | _ => exact refused

theorem evalApplication_equi (expr env : Value) :
    Equi r (Value.rename r) (evalApplication k expr env)
      (evalApplication k (expr.rename r) (env.rename r)) := by
  refine (getAttribute_equi expr "head").bind fun head => ?_
  have rest (proc : Value) : Equi r (Value.rename r)
      (getAttribute expr "args" >>= fun args => members args >>= fun args =>
        args.mapM (k.evaluate · env) >>= fun args => list args >>= fun args =>
          Calculus.apply k proc args env)
      (getAttribute (expr.rename r) "args" >>= fun args => members args >>= fun args =>
        args.mapM (k.evaluate · (env.rename r)) >>= fun args => list args >>= fun args =>
          Calculus.apply k (proc.rename r) args (env.rename r)) :=
    (getAttribute_equi expr "args").bind fun args => (members_equi args).bind fun args =>
      (Equi.mapM (fun arg => equivariant.evaluate arg env) args).bind fun args =>
        (list_equi args).bind fun args => apply_equi equivariant proc args env
  cases head with
  | str name => exact (item_equi env (.str name)).bind rest
  | _ => exact (equivariant.evaluate _ env).bind rest

theorem eval_equi (expr env : Value) :
    Equi r (Value.rename r) (Calculus.eval k expr env)
      (Calculus.eval k (expr.rename r) (env.rename r)) := by
  refine (head_equi expr).bind fun v => ?_
  have each (vs : List Value) : Equi r (List.map (Value.rename r)) (vs.mapM (k.evaluate · env))
      ((vs.map (Value.rename r)).mapM (k.evaluate · (env.rename r))) :=
    .mapM (fun v => equivariant.evaluate v env) vs
  cases v with
  | dict mark entries =>
      simp only [Value.rename, Value.renameEntries_eq]
      exact (Equi.mapM (g := r.entry) (fun entry => (equivariant.evaluate entry.2 env).bind fun v =>
        .pure (f := r.entry) (entry.1, v)) entries).bind dict_equi
  | tuple mark items =>
      simp only [Value.rename, Value.renameAll_eq]
      exact (each items).bind tuple_equi
  | list mark items => exact (members_equi expr).bind fun vs => (each vs).bind list_equi
  | array mark dtype shape data =>
      exact mapGrid_equi (fun v => equivariant.evaluate v env) expr
  | var mark sym => exact item_equi env sym
  | application mark head args closed => exact evalApplication_equi equivariant expr env
  | _ => exact .pure _

theorem evalTagged_equi (expr env tag : Value) :
    Equi r (Value.rename r) (evalTagged k expr env tag)
      (evalTagged k (expr.rename r) (env.rename r) (tag.rename r)) := by
  refine (binary_equi .equal tag (.str "debug")).bind fun same => (truth_equi same).bind fun traced => ?_
  cases traced with
  | true => exact (echoEval_equi expr env tag).bind fun _ => eval_equi equivariant expr env
  | false => exact eval_equi equivariant expr env

end Calculus

/-- A function is made. -/
theorem Form.closing_equi (scopes : r.KeepsScopes) (header : Header) (body : Term) (scope : Scope) :
    Equi r (Value.rename r) (closing header body scope) (closing header body (r.named scope)) :=
  Equi.fresh.bind fun mark => by
    rw [← scopes.closure]
    exact .pure (Value.closure mark header body scope)

namespace FixedPoint

theorem refuse_equi (args : List Value) (named : Named) :
    Equi r (Value.rename r) (refuse args named) (refuse (args.map (Value.rename r)) (r.named named)) := by
  refine (tuple_equi args).bind fun positional => (shown_equi positional).bind fun _ => ?_
  refine (Equi.mapM (g := id) (f := Prod.map id (Value.rename r)) (fun entry => ?_) named).bind fun texts => ?_
  · exact (shown_equi entry.2).bind fun text => .pure (Text.quoted entry.1, text)
  · rw [List.map_id]
    exact .fault rfl

theorem adapter_equi (scopes : r.KeepsScopes) (code : Value) :
    Equi r (Value.rename r) (adapter code) (adapter (code.rename r)) := by
  refine Equi.get (fun t => .bind (Equi.fresh (r := r)).grows fun _ => .pure _) fun t s image => ?_
  rw [Value.ownName?_rename image.renamedFrames]
  exact Form.closing_equi scopes _ adaptedBody [("d", code)]

variable (equivariant : k.Equivariant r)
include equivariant

theorem derive_equi (generator : Value) :
    Equi r (Value.rename r) (derive k generator) (derive k (generator.rename r)) := by
  refine Equi.fresh.bind fun mark =>
    (equivariant.call generator [.thunk mark generator] []).bind fun result =>
      .ite (by rw [Value.isCallable_rename]) (.pure result) ?_
  exact (shownPlain_equi generator).bind fun _ => (shown_equi result).bind fun _ => .fault rfl

theorem build_equi (generator : Value) :
    Equi r (Value.rename r) (build k generator) (build k (generator.rename r)) :=
  (tell_equi _ _).bind fun _ => derive_equi equivariant generator

theorem force_equi (generator : Value) (args : List Value) (named : Named) :
    Equi r (Value.rename r) (force k generator args named)
      (force k (generator.rename r) (args.map (Value.rename r)) (r.named named)) := by
  cases args with
  | nil =>
      cases named with
      | nil => exact (tell_equi _ _).bind fun _ => derive_equi equivariant generator
      | cons entry named => exact refuse_equi [] (entry :: named)
  | cons arg args => exact refuse_equi (arg :: args) named

theorem deriveCounted_equi (generator tally thunk : Value) :
    Equi r (Value.rename r) (deriveCounted k generator tally thunk)
      (deriveCounted k (generator.rename r) (tally.rename r) (thunk.rename r)) :=
  (bump_equi tally .derivations).bind fun _ => (tell_equi _ _).bind fun _ => Equi.fresh.bind fun mark =>
    equivariant.call generator [.countedThunk mark thunk tally] []

theorem forceCounted_equi (inner tally : Value) (args : List Value) (named : Named) :
    Equi r (Value.rename r) (forceCounted k inner tally args named)
      (forceCounted k (inner.rename r) (tally.rename r) (args.map (Value.rename r)) (r.named named)) :=
  (bump_equi tally .thunkCalls).bind fun _ => (tell_equi _ _).bind fun _ =>
    equivariant.call inner args named

end FixedPoint

namespace Run

variable (equivariant : k.Equivariant r)
include equivariant

theorem append_equi (target entry : Value) :
    Equi r (fun _ : Unit => ()) (append k target entry)
      (append k (target.rename r) (entry.rename r)) := by
  have lacking : Equi r (fun _ : Unit => ()) (fault (target.lacks "append"))
      (fault ((target.rename r).lacks "append")) := .fault (by rw [Value.lacks_rename])
  cases target with
  | list mark items =>
      simp only [Value.rename, Value.renameAll_eq]
      exact appended_equi mark items entry
  | environment id outer =>
      exact (lookup_equi (.environment id outer) "append").bind fun f =>
        (equivariant.call f [entry] []).discard
  | _ => exact lacking

theorem record_equi (results label : Value) (ok : Bool) :
    Equi r (fun _ : Unit => ()) (record k results label ok)
      (record k (results.rename r) (label.rename r) ok) :=
  (tuple_equi [label, .bool ok]).bind fun entry => append_equi equivariant results entry

theorem failed_equi (strict trace results label : Value) {f f' : Fault} (bare : f'.bare = f.bare) :
    Equi r (Option.map (Value.rename r)) (failed k strict trace results label f)
      (failed k (strict.rename r) (trace.rename r) (results.rename r) (label.rename r) f') := by
  cases f with
  | mismatch a b c shown =>
      cases f' with
      | mismatch a' b' c' shown' =>
          obtain rfl : shown' = shown := by simpa [Fault.bare] using bare
          have ended : Equi r (Option.map (Value.rename r))
              (truth strict >>= fun strict =>
                if strict then fault (.mismatch a b c shown') else Pure.pure Option.none)
              (truth (strict.rename r) >>= fun strict =>
                if strict then fault (.mismatch a' b' c' shown') else Pure.pure Option.none) :=
            (truth_equi strict).bind fun strict =>
              .ite Iff.rfl (.fault rfl) (.pure (f := Option.map (Value.rename r)) Option.none)
          refine (record_equi equivariant results label false).bind fun _ =>
            (truth_equi trace).bind fun traced => ?_
          cases traced with
          | true => exact (echo_equi (.str "AssertionFailure") (.str shown')).discard.bind fun _ => ended
          | false => exact ended
      | _ => simp [Fault.bare] at bare
  | _ =>
      cases f' with
      | mismatch => simp [Fault.bare] at bare
      | _ => exact .fault bare

theorem checkEq_equi (run actual expected label : Value) :
    Equi r (Value.rename r) (checkEq k run actual expected label)
      (checkEq k (run.rename r) (actual.rename r) (expected.rename r) (label.rename r)) := by
  have lacking : Equi r (Value.rename r) (fault (run.lacks "assert_eq"))
      (fault ((run.rename r).lacks "assert_eq")) := .fault (by rw [Value.lacks_rename])
  cases run with
  | checkRun mark name strict trace results =>
      refine (checkLabel_equi name results label).bind fun label => ?_
      refine (Equi.recover (f := Option.map (Value.rename r))
        ((assertEq_equi actual expected label).map (h := some) (l := some) fun _ => rfl)
        fun e e' bare => failed_equi equivariant strict trace results label bare).bind fun outcome => ?_
      cases outcome with
      | none => exact .pure actual
      | some v => exact (record_equi equivariant results label true).bind fun _ => .pure actual
  | _ => exact lacking

end Run

/-- A parameter's value, of renamed values. -/
theorem Renaming.join_rename (values : List (Option Value)) (i : Nat) :
    ((values.map (Option.map (Value.rename r)))[i]?).join =
      ((values[i]?).join).map (Value.rename r) := by
  rw [List.getElem?_map]
  rcases values[i]? with _ | _ | v <;> rfl

/-- The same where a value of its own stands for one that is left out. -/
theorem Renaming.getD_rename (left : Value) (fixed : left.rename r = left) (values : List (Option Value))
    (i : Nat) : (((values.map (Option.map (Value.rename r)))[i]?).join).getD left =
      (((values[i]?).join).getD left).rename r := by
  rw [join_rename]
  cases (values[i]?).join with
  | none => exact fixed.symm
  | some v => rfl

namespace Method

variable (equivariant : k.Equivariant r)
include equivariant

theorem act_equi (owner : Value) (m : Method) (values : List (Option Value)) :
    Equi r (Value.rename r) (m.act k owner values)
      (m.act k (owner.rename r) (values.map (Option.map (Value.rename r)))) := by
  unfold act
  simp only [getD_rename (r := r) .none rfl]
  split
  · exact (getAttribute_equi owner "π").bind fun env => by
      have same := Value.same_rename r env .none
      simp only [Value.rename] at same
      rw [same]
      exact .pure (Value.bool _)
  · exact binding_equi owner _
  · exact checkEq_equi equivariant owner _ _ _
  · exact (getAttribute_equi owner "name").bind fun name =>
      (getAttribute_equi owner "results").bind fun results => summary_equi name results
  · exact (shown_equi owner).bind fun text => .pure (Value.str text)
  · exact (shownPlain_equi owner).bind fun text => .pure (Value.str text)
  · exact (length_equi owner).bind fun n => .pure (Value.int n)
  · exact item_equi owner _
  · exact (nameOf_equi _).bind fun name => missing_equi owner name
  · exact equality_equi owner _
  · exact enter_equi owner
  · exact leave_equi owner
  · exact .pure (Value.inert "NotImplementedType")

theorem call_equi (owner : Value) (m : Method) (args : List Value) (named : Named) :
    Equi r (Value.rename r) (m.call k owner args named)
      (m.call k (owner.rename r) (args.map (Value.rename r)) (r.named named)) := by
  unfold call
  split
  · exact equivariant.call owner args named
  · have called := Collection.call?_equi (r := r) owner m.name args named
    change Option.Rel _ _ (Collection.call? _ _ _ (r.named named)) at called
    generalize Collection.call? owner m.name args named = result at called
    generalize Collection.call? (owner.rename r) m.name (args.map (Value.rename r)) (r.named named) =
      result' at called
    cases called with
    | some equi => exact equi
    | none =>
        rw [Value.kind?_rename]
        exact (Equi.ofExcept (Signature.bind_rename _ args named)).bind fun values =>
          act_equi equivariant owner m values

theorem callUnbound_equi (kd : Kind) (m : Method) (args : List Value) (named : Named) :
    Equi r (Value.rename r) (m.callUnbound k kd args named)
      (m.callUnbound k kd (args.map (Value.rename r)) (r.named named)) := by
  have direct (args : List Value) : Equi r (Value.rename r)
      (ofExcept ((m.signature kd).unbound.bind args named) >>= fun values =>
        m.act k ((values.head?).join.getD .none) values.tail)
      (ofExcept ((m.signature kd).unbound.bind (args.map (Value.rename r)) (r.named named)) >>=
        fun values => m.act k ((values.head?).join.getD .none) values.tail) :=
    (Equi.ofExcept (Signature.bind_rename _ args named)).bind fun values => by
      rcases values with _ | ⟨_ | v, values⟩
      · exact act_equi equivariant .none m []
      · exact act_equi equivariant .none m values
      · exact act_equi equivariant v m values
  by_cases same : m = special "__call__"
  · subst same
    cases args with
    | nil => exact direct []
    | cons owner args => exact equivariant.call owner args named
  · have other (args : List Value) (named : Named) : m.callUnbound k kd args named =
        (ofExcept ((m.signature kd).unbound.bind args named) >>= fun values =>
          m.act k ((values.head?).join.getD .none) values.tail) := by
      unfold callUnbound
      split
      · exact absurd rfl same
      · rfl
    rw [other, other]
    exact direct args

end Method

namespace Builtin

variable (equivariant : k.Equivariant r)
include equivariant

theorem blowStack_equi (frames : Value) :
    Equi r (Value.rename r) (blowStack k frames) (blowStack k (frames.rename r)) := by
  refine (tally_equi (.int 0) (.int 0)).bind fun tally => Equi.fresh.bind fun mark' => ?_
  have counted := FixedPoint.counting_equi (r := r) (.closure mark' endless forever []) tally
  rw [equivariant.scopes.closure] at counted
  refine counted.bind fun generator => ?_
  refine (FixedPoint.build_equi equivariant generator).bind fun unfold => ?_
  refine .recover ?_ fun f f' bare => ?_
  · refine (headroom_equi frames).bind fun manager => ?_
    have block : Equi r (Value.rename r) (under manager (k.app unfold [.int 1]))
        (under (manager.rename r) (k.app (unfold.rename r) [.int 1])) := by
      have refused : Equi r (Value.rename r) (fault (.type (.notManager manager.operandName)))
          (fault (.type (.notManager (manager.rename r).operandName))) :=
        .fault (by rw [Value.operandName_rename])
      cases manager with
      | manager mark limit => exact (equivariant.call unfold [.int 1] []).underLimit mark limit
      | _ => exact refused
    exact block.discard.bind fun _ =>
      (mismatch_equi .none (.str "RecursionError") (.str "no base case")).bind fun f =>
        .fault (Fault.bare_rename r f)
  · cases f with
    | stackExhausted =>
        cases f' with
        | stackExhausted =>
            exact (getAttribute_equi tally "derivations").bind fun n =>
              (shownPlain_equi n).bind fun text => .pure (Value.str _)
        | _ => simp [Fault.bare] at bare
    | _ =>
        cases f' with
        | stackExhausted => simp [Fault.bare] at bare
        | _ => exact .fault bare

theorem act_equi (b : Builtin) (values : List (Option Value)) :
    Equi r (Value.rename r) (act k b values) (act k b (values.map (Option.map (Value.rename r)))) := by
  have frame : outermost.rename r = outermost := by simp [outermost]
  unfold act
  simp only [getD_rename (r := r) .none rfl, getD_rename outermost frame]
  split
  · exact FixedPoint.build_equi equivariant _
  · exact FixedPoint.adapter_equi equivariant.scopes _
  · exact Run.assertEq_equi _ _ _
  · exact FixedPoint.counting_equi _ _
  · exact stackDepth_equi
  · exact manager_equi _
  · exact headroom_equi _
  · exact Calculus.mapGrid_equi (fun v => (Equi.ofExcept (f := id) (by
      rw [Grid.toInteger_rename, id_map])).bind fun i => equivariant.call _ [.int i] []) _
  · exact Run.echo_equi _ _
  · exact Calculus.lambda_equi _ _ _
  · exact Calculus.evalTagged_equi equivariant _ _ _
  · exact Calculus.evalApplication_equi equivariant _ _
  · generalize (values[1]?).join.getD .none = given
    cases given with
    | none => exact (list_equi []).bind fun args => Calculus.apply_equi equivariant _ args _
    | _ => exact (Equi.pure _).bind fun args => Calculus.apply_equi equivariant _ args _
  · exact Calculus.define_equi _ _ _
  · exact blowStack_equi equivariant _
  · exact newEnvironment_equi _ _ _
  · exact .pure Value.none

theorem call_equi (b : Builtin) (args : List Value) (named : Named) :
    Equi r (Value.rename r) (b.call k args named)
      (b.call k (args.map (Value.rename r)) (r.named named)) := by
  have one : Equi r (Value.rename r) (ofExcept (sole b.name args named))
      (ofExcept (sole b.name (args.map (Value.rename r)) (r.named named))) := by
    refine .ofExcept ?_
    rcases named with _ | ⟨entry, named⟩
    · rcases args with _ | ⟨a, _ | ⟨b, args⟩⟩
      · rfl
      · rfl
      · simp [sole, Renaming.named]
    · rfl
  unfold call
  split
  · exact one.bind fun v => by
      rw [Value.isCallable_rename]
      exact .pure (Value.bool _)
  · exact one.bind fun v => (shown_equi v).bind fun text => .pure (Value.str text)
  · exact one.bind fun v => (length_equi v).bind fun n => .pure (Value.int n)
  · rcases args with _ | ⟨arg, args⟩ <;> rcases named with _ | ⟨entry, named⟩
    · exact recursionLimit_equi
    · exact .fault rfl
    · exact .fault (by simp)
    · exact .fault rfl
  · exact (Equi.ofExcept (Signature.bind_rename _ args named)).bind fun values =>
      act_equi equivariant _ values

end Builtin

namespace Form

theorem merged_rename (named : Named) : merged (r.named named) = r.named (merged named) := by
  unfold merged
  rw [Renaming.named, List.foldl_map]
  change List.foldl _ (r.named []) named = _
  exact List.foldl_hom r.named fun merged (entry : String × Value) =>
    assign_map (Value.rename r) merged entry.1 entry.2

theorem scoped_equi (scope : Scope) (name : String) :
    Equi r (Value.rename r) (resolve scope name) (resolve (r.named scope) name) := by
  have outside := resolve_equi (r := r) name
  unfold resolve at outside ⊢
  rw [Renaming.named, lookup_map]
  cases scope.lookup name with
  | some v => exact .pure v
  | none => exact outside

variable {c c' a a' b b' e e' f f' o o' : Run Value}

theorem calling_equi (equivariant : k.Equivariant r) {args args' : Run (List Value)}
    {named named' : Run Named} (first : Equi r (Value.rename r) f f')
    (second : Equi r (List.map (Value.rename r)) args args') (third : Equi r r.named named named') :
    Equi r (Value.rename r) (calling k f args named) (calling k f' args' named') :=
  first.bind fun f => second.bind fun args => third.bind fun named => by
    rw [merged_rename]
    exact equivariant.call f args (merged named)

theorem choosing_equi (first : Equi r (Value.rename r) c c') (yes : Equi r (Value.rename r) a a')
    (no : Equi r (Value.rename r) b b') :
    Equi r (Value.rename r) (choosing c a b) (choosing c' a' b') :=
  first.bind fun v => (truth_equi v).bind fun _ => .ite Iff.rfl yes no

theorem setting_equi (first : Equi r (Value.rename r) o o') (name : String)
    (second : Equi r (Value.rename r) e e') :
    Equi r (Value.rename r) (setting o name e) (setting o' name e') :=
  first.bind fun env => (frameOf_equi env).bind fun id => second.bind fun v =>
    (bind_equi id name v).bind fun _ => .pure Value.none

theorem deleting_equi (first : Equi r (Value.rename r) o o') (name : String) :
    Equi r (Value.rename r) (deleting o name) (deleting o' name) :=
  first.bind fun env => (frameOf_equi env).bind fun id => (unbind_equi id name).bind fun _ =>
    .pure Value.none

theorem gridding_equi (first : Equi r (Value.rename r) e e') (dtype : Option String) :
    Equi r (Value.rename r) (gridding e dtype) (gridding e' dtype) :=
  first.bind fun v => gridded_equi dtype v

theorem catching_equi (first : Equi r (Value.rename r) e e') :
    Equi r (Value.rename r) (catching e) (catching e') :=
  first.recover fun f f' bare => by
    rw [← Fault.kind_bare f', bare, Fault.kind_bare]
    exact .pure (Value.str f.kind)

theorem managing_equi {body body' : Value → Run Value} (first : Equi r (Value.rename r) e e')
    (second : ∀ v, Equi r (Value.rename r) (body v) (body' (v.rename r))) :
    Equi r (Value.rename r) (managing e body) (managing e' body') := by
  refine first.bind fun v => ?_
  have refused : Equi r (Value.rename r) (fault (.type (.notManager v.operandName)))
      (fault (.type (.notManager (v.rename r).operandName))) :=
    .fault (by rw [Value.operandName_rename])
  cases v with
  | manager mark limit => exact (second limit).underLimit mark limit
  | checkRun mark name strict trace results =>
      exact (second (.checkRun mark name strict trace results)).ensuring
        (closeRun_equi name trace results)
  | _ => exact refused

end Form

namespace Term

mutual

theorem eval_equi (equivariant : k.Equivariant r) (t : Term) (scope : Scope) :
    Equi r (Value.rename r) (t.eval k scope) (t.eval k (r.named scope)) := by
  cases t with
  | lit l => exact Form.literal_equi l
  | var name => exact Form.scoped_equi scope name
  | prim b => exact .pure (Value.builtin b)
  | define name e =>
      exact (eval_equi equivariant e scope).bind fun v => Form.defined_equi name v
  | letIn name e body =>
      exact (eval_equi equivariant e scope).bind fun v => eval_equi equivariant body ((name, v) :: scope)
  | call f args named =>
      exact Form.calling_equi equivariant (eval_equi equivariant f scope)
        (evalAll_equi equivariant args scope) (evalNamed_equi equivariant named scope)
  | lam header body => exact Form.closing_equi equivariant.scopes header body scope
  | ite c a b =>
      exact Form.choosing_equi (eval_equi equivariant c scope) (eval_equi equivariant a scope)
        (eval_equi equivariant b scope)
  | not a =>
      exact (eval_equi equivariant a scope).bind fun v => (truth_equi v).bind fun b =>
        .pure (Value.bool !b)
  | binary op a b =>
      exact (eval_equi equivariant a scope).bind fun a => (eval_equi equivariant b scope).bind fun b =>
        binary_equi op a b
  | attr o name =>
      exact (eval_equi equivariant o scope).bind fun o => getAttribute_equi o name
  | hasAttr o name =>
      exact (eval_equi equivariant o scope).bind fun o => (hasAttribute_equi o name).bind fun b =>
        .pure (Value.bool b)
  | item o key =>
      exact (eval_equi equivariant o scope).bind fun o => (eval_equi equivariant key scope).bind fun key =>
        item_equi o key
  | set env name e =>
      exact Form.setting_equi (eval_equi equivariant env scope) name (eval_equi equivariant e scope)
  | del env name => exact Form.deleting_equi (eval_equi equivariant env scope) name
  | list items => exact (evalAll_equi equivariant items scope).bind list_equi
  | tuple items => exact (evalAll_equi equivariant items scope).bind tuple_equi
  | dict entries => exact (evalEntries_equi equivariant entries scope []).bind dict_equi
  | range args => exact (evalAll_equi equivariant args scope).bind Form.progression_equi
  | array e dtype => exact Form.gridding_equi (eval_equi equivariant e scope) dtype
  | seq items =>
      exact (evalAll_equi equivariant items scope).map fun vs => by
        rw [List.getLastD_eq_getLast?, List.getLastD_eq_getLast?, List.getLast?_map]
        cases vs.getLast? <;> rfl
  | caught e => exact Form.catching_equi (eval_equi equivariant e scope)
  | within manager name body =>
      exact Form.managing_equi (eval_equi equivariant manager scope) fun v =>
        eval_equi equivariant body ((name, v) :: scope)

theorem evalAll_equi (equivariant : k.Equivariant r) (ts : List Term) (scope : Scope) :
    Equi r (List.map (Value.rename r)) (evalAll k ts scope) (evalAll k ts (r.named scope)) := by
  cases ts with
  | nil => exact .pure (f := List.map (Value.rename r)) []
  | cons t rest =>
      exact (eval_equi equivariant t scope).bind fun v =>
        (evalAll_equi equivariant rest scope).bind fun vs => .pure (f := List.map (Value.rename r)) (v :: vs)

theorem evalNamed_equi (equivariant : k.Equivariant r) (ts : List (String × Term)) (scope : Scope) :
    Equi r r.named (evalNamed k ts scope) (evalNamed k ts (r.named scope)) := by
  cases ts with
  | nil => exact .pure (f := r.named) []
  | cons t rest =>
      exact (eval_equi equivariant t.2 scope).bind fun v =>
        (evalNamed_equi equivariant rest scope).bind fun vs => .pure (f := r.named) ((t.1, v) :: vs)

theorem evalEntries_equi (equivariant : k.Equivariant r) (ts : List (Term × Term)) (scope : Scope)
    (entries : List (Value × Value)) :
    Equi r (List.map r.entry) (evalEntries k ts scope entries)
      (evalEntries k ts (r.named scope) (entries.map r.entry)) := by
  cases ts with
  | nil => exact .pure (f := List.map r.entry) entries
  | cons t rest =>
      exact (eval_equi equivariant t.1 scope).bind fun key =>
        (eval_equi equivariant t.2 scope).bind fun v =>
          (Equi.ofExcept (f := id) (by rw [Value.checkKey_rename, id_map])).bind fun _ => by
            rw [Value.insertEntry_rename]
            exact evalEntries_equi equivariant rest scope _

end

end Term

namespace Machine

theorem callFrame_equi (id : Nat) (args : List Value) (named : Named) :
    Equi r (Value.rename r) (callFrame id args named)
      (callFrame (r.frame id) (args.map (Value.rename r)) (r.named named)) := by
  have bound (path : String) : Equi r (Value.rename r)
      (Functor.discard (ofExcept ((Signature.mk path [] false).bind args named)) >>= fun _ =>
        pure .none)
      (Functor.discard (ofExcept ((Signature.mk path [] false).bind (args.map (Value.rename r))
        (r.named named))) >>= fun _ => pure .none) :=
    (Equi.ofExcept (Signature.bind_rename _ args named)).discard.bind fun _ => .pure Value.none
  refine .get (fun t => (bound _).grows) fun t s image => ?_
  rw [image.frame]
  simpa using bound _

variable (equivariant : k.Equivariant r)
include equivariant

theorem callBuiltin_equi (b : Builtin) (args : List Value) (named : Named) :
    Equi r (Value.rename r) (callBuiltin k b args named)
      (callBuiltin k b (args.map (Value.rename r)) (r.named named)) := by
  have seen : r.named preludeScope = preludeScope := by
    simp [preludeScope, Renaming.named, outermost]
  unfold callBuiltin
  split
  · refine (Equi.ofExcept (Header.bind_rename _ args named)).bind fun given => ?_
    have ran (t : Term) := Term.eval_equi equivariant t (given ++ preludeScope)
    simp only [Renaming.named, List.map_append] at ran seen
    simp only [seen] at ran
    exact ran _
  · exact Builtin.call_equi equivariant b args named

theorem callClosure_equi (header : Header) (body : Term) (scope : Scope) (args : List Value)
    (named : Named) :
    Equi r (Value.rename r) (callClosure k header body scope args named)
      (callClosure k header body (r.named scope) (args.map (Value.rename r)) (r.named named)) :=
  (Equi.ofExcept (header.bind_rename args named)).bind fun given => by
    have ran := Term.eval_equi equivariant body (given ++ scope)
    simp only [Renaming.named, List.map_append] at ran
    exact ran

theorem callValue_equi (f : Value) (args : List Value) (named : Named) :
    Equi r (Value.rename r) (callValue k f args named)
      (callValue k (f.rename r) (args.map (Value.rename r)) (r.named named)) := by
  have refused : Equi r (Value.rename r) (fault (.type (.notCallable f.operandName)))
      (fault (.type (.notCallable (f.rename r).operandName))) :=
    .fault (by rw [Value.operandName_rename])
  have first (values : List (Option Value)) :
      (((values.map (Option.map (Value.rename r))).head?).join.getD .none) =
        ((values.head?).join.getD .none).rename r := by
    rcases values with _ | ⟨_ | v, values⟩ <;> rfl
  cases f with
  | builtin b => exact callBuiltin_equi equivariant b args named
  | closure mark header body scope =>
      rw [equivariant.scopes.closure]
      exact callClosure_equi equivariant header body scope args named
  | kind kd => exact Kind.call_equi kd args named
  | method mark owner m => exact Method.call_equi equivariant owner m args named
  | member kd m => exact Method.callUnbound_equi equivariant kd m args named
  | frame id => exact callFrame_equi id args named
  | procedure mark code env =>
      exact (Equi.ofExcept (f := id) (by rw [Signature.checkUnnamed_rename, id_map])).bind fun _ =>
        (list_equi args).bind fun args =>
          Calculus.apply_equi equivariant (.procedure mark code env) args env
  | application mark head expr env =>
      exact (Equi.ofExcept (Signature.bind_rename _ args named)).discard.bind fun _ =>
        Calculus.evalApplication_equi equivariant (.application mark head expr env) env
  | thunk mark generator =>
      exact .ite (by simp [Renaming.named]) (.fault rfl)
        (FixedPoint.force_equi equivariant generator args named)
  | manager mark limit =>
      exact (Equi.ofExcept (Signature.bind_rename _ args named)).bind fun values =>
        Equi.fresh.bind fun mark' => by
          rw [first]
          exact .pure (Value.limited mark' (.manager mark limit) _)
  | limited mark manager func => exact (equivariant.call func args named).underSameLimit manager
  | counted mark name generator tally =>
      exact (Equi.ofExcept (Signature.bind_rename _ args named)).bind fun values => by
        rw [first]
        exact FixedPoint.deriveCounted_equi equivariant generator tally _
  | countedThunk mark inner tally => exact FixedPoint.forceCounted_equi equivariant inner tally args named
  | _ => exact refused

end Machine

/-- Whatever a machine with fuel calls or evaluates goes in an image as in the store itself. -/
theorem Machine.equivariant_ofFuel (r : Renaming) (scopes : r.KeepsScopes) (n : Nat) :
    (ofFuel n).Equivariant r := by
  induction n with
  | zero => exact ⟨scopes, growing_ofFuel 0, fun _ _ _ => .stop rfl, fun _ _ => .stop rfl⟩
  | succ n ih =>
      exact ⟨scopes, growing_ofFuel (n + 1), fun f args named => (callValue_equi ih f args named).deeper,
        fun expr env => (Calculus.eval_equi ih expr env).deeper⟩

end Knot
