import Knot.Proofs.Parallel.Aside

/-!
Rules of the machine that call back into programs, side by side. What a rule does by itself goes alike
by the laws of renaming, so a rule goes alike on two machines if these call and evaluate alike.
-/

namespace Knot

open Run Renaming

namespace Twins

variable {T : Twins} {way : Way} {w w' : Stage}

namespace Parallel

variable {α β γ δ ε : Type} {F : Renaming → α → α} {G : Renaming → β → β} {H : Renaming → γ → γ}
  {I : Renaming → δ → δ}

/-! What goes alike under every renaming of what it is given. -/

theorem none {x : Run α} (equi : ∀ r, Equi r (F r) x x) : T.Parallel way w (Via F) x x :=
  of_equi (y := fun _ => x) equi fun _ _ => rfl

theorem one {f : β → Run α} (equi : ∀ r b, Equi r (F r) (f b) (f (G r b))) {b b' : β}
    (via : Via G w b b') : T.Parallel way w (Via F) (f b) (f b') := by
  obtain rfl := via.eq
  exact of_equi (y := fun r => f (G r b)) (fun r => equi r b) fun r fixes => by rw [via.fixed r fixes]

theorem two {f : β → γ → Run α} (equi : ∀ r b c, Equi r (F r) (f b c) (f (G r b) (H r c))) {b b' : β}
    {c c' : γ} (via : Via G w b b') (via' : Via H w c c') :
    T.Parallel way w (Via F) (f b c) (f b' c') := by
  obtain rfl := via.eq
  obtain rfl := via'.eq
  exact of_equi (y := fun r => f (G r b) (H r c)) (fun r => equi r b c) fun r fixes => by
    rw [via.fixed r fixes, via'.fixed r fixes]

theorem three {f : β → γ → δ → Run α}
    (equi : ∀ r b c d, Equi r (F r) (f b c d) (f (G r b) (H r c) (I r d))) {b b' : β} {c c' : γ}
    {d d' : δ} (via : Via G w b b') (via' : Via H w c c') (via'' : Via I w d d') :
    T.Parallel way w (Via F) (f b c d) (f b' c' d') := by
  obtain rfl := via.eq
  obtain rfl := via'.eq
  obtain rfl := via''.eq
  exact of_equi (y := fun r => f (G r b) (H r c) (I r d)) (fun r => equi r b c d) fun r fixes => by
    rw [via.fixed r fixes, via'.fixed r fixes, via''.fixed r fixes]

/-- The same step for each of several values. -/
theorem mapM {f h : β → Run α} (natural : Natural F) (natural' : Natural G)
    (step : ∀ w' b b', w.Leads w' → Via G w' b b' → T.Parallel way w' (Via F) (f b) (h b'))
    {bs bs' : List β} (via : Via (fun r => List.map (G r)) w bs bs') :
    T.Parallel way w (Via fun r => List.map (F r)) (bs.mapM f) (bs'.mapM h) := by
  obtain rfl := via.eq
  have all : ∀ w', w.Leads w' → T.Parallel way w' (Via fun r => List.map (F r)) (bs.mapM f)
      ((bs.map (G w.names)).mapM h) := by
    have fixed := via.fixed.mem
    clear via
    induction bs with
    | nil => exact fun w' _ => .pure ⟨fun _ _ => rfl, rfl⟩
    | cons b bs ih =>
        intro w' leads
        simp only [List.map_cons, List.mapM_cons]
        have first : Via G w b (G w.names b) := ⟨fixed b (.head _), rfl⟩
        refine (step w' b _ leads (first.later natural' leads)).bind fun w₁ a a' leads₁ via₁ => ?_
        refine (ih (fun c member => fixed c (.tail _ member)) w₁ (leads.trans leads₁)).bind
          fun w₂ as as' leads₂ via₂ => .pure ?_
        have held := via₁.later natural leads₂
        exact ⟨fun r fixes => congrArg₂ List.cons (held.fixed r fixes) (via₂.fixed r fixes),
          congrArg₂ List.cons held.eq via₂.eq⟩
  exact fun sound => all w sound.refl sound

end Parallel

/-- Machines that call and evaluate alike what stands for each other. Twins may be called, in the calls that
may have them for heads, and handed to what uses them for such calls only. -/
structure Companions (T : Twins) (way : Way) (k k' : Machine) : Prop where
  call : ∀ {w : Stage} {f f' : Value} {args args' : List Value} {named named' : Named}, Peer w f f' →
    Peers w args args' → PeersNamed w named named' →
      T.Parallel way w Peer (k.call f args named) (k'.call f' args' named')
  evaluate : ∀ {w : Stage} {expr expr' env env' : Value}, Peer w expr expr' → Peer w env env' →
    T.Parallel way w Peer (k.evaluate expr env) (k'.evaluate expr' env')
  linked : ∀ {w : Stage} {u v : Value} {args args' : List Value} {named named' : Named},
    T.Linked w u v → Peers w args args' → PeersNamed w named named' →
      T.Admits args named → T.Parallel way w Peer (k.call u args named) (k'.call v args' named')
  handed : ∀ {w : Stage} {f f' u v : Value} {args args' : List Value}, f.OnlyCalls T.form →
    Peer w f f' → T.Linked w u v → Peers w args args' →
      T.Parallel way w Peer (k.call f (u :: args) []) (k'.call f' (v :: args') [])

variable {k k' : Machine}

namespace Companions

/-! The closure calculus. -/

theorem mapGrid {f h : Value → Run Value}
    (step : ∀ w' v v', w.Leads w' → Peer w' v v' → T.Parallel way w' Peer (f v) (h v')) {v v' : Value}
    (peer : Peer w v v') : T.Parallel way w Peer (Calculus.mapGrid f v) (Calculus.mapGrid h v') := by
  refine (Parallel.one (fun _ => now_equi) peer).bind fun w₁ v v' leads₁ peer => ?_
  refine (Parallel.one (F := Grid.rename) (fun r v => .ofExcept (Grid.ofValue_rename r v)) peer).bind
    fun w₂ grid grid' leads₂ via => ?_
  obtain rfl := via.eq
  have data : Peers w₂ grid.data (grid.data.map (Value.rename w₂.names)) :=
    ⟨fun r fixes => congrArg Grid.data (via.fixed r fixes), rfl⟩
  refine (Parallel.mapM .value .value (fun w' v v' leads peer =>
    (Parallel.one (fun _ => marked_equi) peer).bind fun w'' v v' leads' peer =>
      step w'' v v' (((leads₁.trans leads₂).trans leads).trans leads') peer) data).bind
    fun w₃ results results' leads₃ peers => ?_
  exact .one (fun _ => array_equi .object grid.shape) peers

/-- An argument is bound. -/
theorem passed {number number' : Nat} {v v' : Value} (numbers : Via Renaming.frame w number number')
    (peer : Peer w v v') (name : String) :
    T.Parallel way w (fun _ _ _ => True) (writing .call (Run.bind number name v))
      (writing .call (Run.bind number' name v')) := by
  obtain rfl := numbers.eq
  obtain rfl := peer.eq
  have alike : T.Parallel way w (Via fun _ _ => ()) (writing .call (Run.bind number name v))
      (writing .call (Run.bind (w.names.frame number) name (v.rename w.names))) :=
    .of_alike (y := fun r => writing .call (Run.bind (r.frame number) name (v.rename r)))
      (fun _ => passed_alike number name v)
      fun r fixes => by rw [numbers.fixed r fixes, peer.fixed r fixes]
  exact alike.mono fun _ _ _ _ _ => trivial

/-- Arguments that stand for each other fit the same parameters. -/
theorem bound (sig : Signature) {args args' : List Value} {named named' : Named}
    (peers : Peers w args args') (keys : PeersNamed w named named') :
    T.Parallel way w Given (Run.ofExcept (sig.bind args named)) (Run.ofExcept (sig.bind args' named')) :=
  Parallel.two (F := fun r => List.map (Option.map (Value.rename r)))
    (G := fun r => List.map (Value.rename r)) (H := Renaming.named)
    (f := fun args named => Run.ofExcept (sig.bind args named))
    (fun r args named => Equi.ofExcept (Signature.bind_rename (r := r) sig args named)) peers keys

theorem collection {owner owner' : Value} (owners : Peer w owner owner') (name : String)
    {args args' : List Value} {named named' : Named} (peers : Peers w args args')
    (keys : PeersNamed w named named') :
    Option.Rel (T.Parallel way w Peer) (Collection.call? owner name args named)
      (Collection.call? owner' name args' named') := by
  obtain rfl := owners.eq
  obtain rfl := peers.eq
  obtain rfl := keys.eq
  have called (r : Renaming) : Option.Rel (Equi r (Value.rename r))
      (Collection.call? owner name args named)
      (Collection.call? (owner.rename r) name (args.map (Value.rename r)) (r.named named)) :=
    Collection.call?_equi owner name args named
  cases found : Collection.call? owner name args named with
  | none =>
      have here := called w.names
      rw [found] at here
      generalize Collection.call? (owner.rename w.names) name _ _ = other at here ⊢
      cases here
      exact .none
  | some x =>
      let y (r : Renaming) : Run Value :=
        (Collection.call? (owner.rename r) name (args.map (Value.rename r)) (r.named named)).getD x
      have same (r : Renaming) :
          Collection.call? (owner.rename r) name (args.map (Value.rename r)) (r.named named) =
            some (y r) ∧ Equi r (Value.rename r) x (y r) := by
        have here := called r
        simp only [y]
        rw [found] at here
        generalize Collection.call? (owner.rename r) name _ _ = other at here ⊢
        cases here with
        | some equi => exact ⟨rfl, equi⟩
      rw [(same w.names).1]
      refine .some (Parallel.of_equi (fun r => (same r).2) fun r fixes => ?_)
      have again := (same r).1
      rw [owners.fixed r fixes] at again
      have kept : args.map (Value.rename r) = args := peers.fixed r fixes
      rw [kept, keys.fixed r fixes, found] at again
      exact (Option.some.inj again).symm

/-! Limits. -/

/-- A block under a limit. -/
theorem underLimit {mark mark' : Nat} {limit limit' : Value} {x y : Run Value}
    (marks : Via Renaming.mark w mark mark') (limits : Peer w limit limit')
    (block : ∀ w', w.Leads w' → T.Parallel way w' Peer x y) :
    T.Parallel way w Peer (Run.underLimit mark limit x) (Run.underLimit mark' limit' y) := by
  refine (Parallel.two (fun _ => Run.enter_equi) marks limits).discard.bind fun w₁ _ _ leads₁ _ => ?_
  refine (block w₁ leads₁).ensuring (fun _ _ _ _ leads peer => peer.later leads) fun w₂ leads₂ => ?_
  exact (Parallel.one (F := fun _ _ => ()) (fun _ => Run.leave_equi)
    (marks.later .mark (leads₁.trans leads₂))).mono fun _ _ _ _ _ => trivial

theorem underSameLimit {manager manager' : Value} {x y : Run Value} (managers : Peer w manager manager')
    (block : ∀ w', w.Leads w' → T.Parallel way w' Peer x y) :
    T.Parallel way w Peer (Run.underSameLimit manager x) (Run.underSameLimit manager' y) := by
  obtain rfl := managers.eq
  have lacking (name : String) : T.Parallel way w Peer (fault (manager.lacks name))
      (fault ((manager.rename w.names).lacks name)) := .fault (by rw [Value.lacks_rename])
  cases manager with
  | manager mark limit =>
      refine .get fun sound => ?_
      have entered : (w.right.entered.lookup (w.names.mark mark)).isSome =
          (w.left.entered.lookup mark).isSome := by
        rw [sound.beside.image.entered, lookup_of_injective w.names.mark_injective]
        cases w.left.entered.lookup mark <;> rfl
      refine .ite (by rw [entered]) (lacking "func") ?_
      refine (Parallel.none (F := Renaming.mark) fun _ => Equi.fresh).bind fun w₁ _ _ leads marks => ?_
      exact underLimit marks ((managers.child (.head _)).later leads) fun w' leads' =>
        block w' (leads.trans leads')
  | _ => exact lacking "_recreate_cm"

/-- Direct-style code as a generator. -/
theorem adapter {code code' : Value} (codes : Peer w code code') :
    T.Parallel way w Peer (FixedPoint.adapter code) (FixedPoint.adapter code') := by
  refine .get fun sound => ?_
  have named : code'.ownName? w.right.frame = code.ownName? w.left.frame := by
    rw [codes.eq, Value.ownName?_rename sound.beside.image.renamedFrames]
  rw [named]
  refine .closing _ _ (Term.onlyCalls_nil _) (.of_via ⟨fun r fixes => ?_, ?_⟩)
  · simp only [Renaming.named, List.map_cons, List.map_nil, Prod.map_apply, codes.fixed r fixes, id]
  · simp only [Renaming.named, List.map_cons, List.map_nil, Prod.map_apply, ← codes.eq, id]

variable (companions : T.Companions way k k')
include companions

theorem bindAll {target target' caller caller' : Value} {params params' args args' : List Value}
    (targets : Peer w target target') (callers : Peer w caller caller')
    (names : Peers w params params') (values : Peers w args args') :
    T.Parallel way w (fun _ _ _ => True) (Calculus.bindAll k target caller params args)
      (Calculus.bindAll k' target' caller' params' args') := by
  induction params generalizing w params' args args' with
  | nil =>
      obtain rfl := names.eq_nil
      cases args with
      | nil =>
          obtain rfl := values.eq_nil
          exact .pure trivial
      | cons arg args =>
          obtain ⟨arg', rest, rfl, -, -⟩ := values.uncons
          exact .pure trivial
  | cons param params ih =>
      obtain ⟨param', names', rfl, paramPeer, names⟩ := names.uncons
      cases args with
      | nil =>
          obtain rfl := values.eq_nil
          exact .pure trivial
      | cons arg args =>
          obtain ⟨arg', values', rfl, argPeer, values⟩ := values.uncons
          refine (Parallel.one (F := Renaming.frame) (fun _ => frameOf_equi) targets).bind
            fun w₁ number number' leads₁ numbers => ?_
          refine (companions.evaluate (argPeer.later leads₁) (callers.later leads₁)).bind
            fun w₂ v v' leads₂ peer => ?_
          refine (Parallel.one (F := fun _ => id) (fun _ => nameOf_equi)
            (paramPeer.later (leads₁.trans leads₂))).bind fun w₃ name name' leads₃ same => ?_
          obtain rfl := same.eq_of_plain
          have number := numbers.later .frame (leads₂.trans leads₃)
          refine (passed number (peer.later leads₃) name').bind fun w₄ _ _ leads₄ _ => ?_
          have leads := ((leads₁.trans leads₂).trans leads₃).trans leads₄
          exact ih (targets.later leads) (callers.later leads) (names.later leads) (values.later leads)

theorem apply {proc proc' args args' caller caller' : Value} (procs : Peer w proc proc')
    (peers : Peer w args args') (callers : Peer w caller caller') :
    T.Parallel way w Peer (Calculus.apply k proc args caller)
      (Calculus.apply k' proc' args' caller') := by
  obtain rfl := procs.eq
  have refused : T.Parallel way w Peer
      (shown proc >>= fun text => fault (.contract (.notProcedure text proc.typeName)) : Run Value)
      (shown (proc.rename w.names) >>= fun text =>
        fault (.contract (.notProcedure text (proc.rename w.names).typeName))) :=
    (Parallel.one (F := fun _ => id) (fun _ => shown_equi) procs).bind fun w' text text' _ same =>
      .fault (by rw [same.eq_of_plain, Value.typeName_rename])
  cases proc with
  | procedure mark code closed =>
      have codes := procs.child (u := code) (.head _)
      have closes := procs.child (u := closed) (.tail _ (.head _))
      refine (Parallel.one (fun _ code => item_equi code (.str "parameters")) codes).bind
        fun w₁ params params' leads₁ names => ?_
      refine (Parallel.one (F := fun _ => id) (fun _ => length_equi) names).bind
        fun w₂ expected expected' leads₂ same => ?_
      obtain rfl := same.eq_of_plain
      refine (Parallel.one (F := fun _ => id) (fun _ => length_equi)
        (peers.later (leads₁.trans leads₂))).bind fun w₃ given given' leads₃ same => ?_
      obtain rfl := same.eq_of_plain
      have leads := (leads₁.trans leads₂).trans leads₃
      have names : Peer w₃ params params' := Peer.later names (leads₂.trans leads₃)
      refine .ite Iff.rfl ?_ ?_
      · refine (Parallel.three (F := Fault.rename) (fun _ proc params args =>
          Calculus.wrongCount_equi proc params args expected' given') (procs.later leads) names
          (peers.later leads)).bind fun _ f f' _ via => ?_
        exact .fault (via.eq ▸ Fault.bare_rename _ f)
      · refine (Parallel.two (fun _ => Calculus.callFrame_equi) names (closes.later leads)).bind
          fun w₄ env env' leads₄ envs => ?_
        refine (Parallel.one (F := fun r => List.map (Value.rename r)) (fun _ => members_equi)
          (names.later leads₄)).bind fun w₅ ps ps' leads₅ params => ?_
        refine (Parallel.one (F := fun r => List.map (Value.rename r)) (fun _ => members_equi)
          (peers.later ((leads.trans leads₄).trans leads₅))).bind fun w₆ vs vs' leads₆ values => ?_
        have inner := leads₅.trans leads₆
        have outer := leads.trans (leads₄.trans inner)
        have envs : Peer w₆ env env' := Peer.later envs inner
        have params : Peers w₆ ps ps' := Peers.later params leads₆
        refine (companions.bindAll envs (callers.later outer) params values).bind
          fun w₇ _ _ leads₇ _ => ?_
        refine (Parallel.one (fun _ code => item_equi code (.str "body"))
          (codes.later (outer.trans leads₇))).bind fun w₈ body body' leads₈ bodies => ?_
        exact companions.call bodies (.cons (envs.later (leads₇.trans leads₈)) (.nil _)) (.nil _)
  | _ => exact refused

theorem evalApplication {expr expr' env env' : Value} (exprs : Peer w expr expr')
    (envs : Peer w env env') :
    T.Parallel way w Peer (Calculus.evalApplication k expr env)
      (Calculus.evalApplication k' expr' env') := by
  refine (Parallel.one (fun _ o => getAttribute_equi o "head") exprs).bind
    fun w₁ head head' leads₁ heads => ?_
  have headed : T.Parallel way w₁ Peer (Calculus.headOf k head env)
      (Calculus.headOf k' head' env') := by
    have evaluated := companions.evaluate heads (envs.later leads₁)
    obtain rfl := heads.eq
    cases head with
    | str name => exact .two (fun _ => item_equi) (envs.later leads₁) (Peer.atom w₁ fun _ => rfl)
    | _ => exact evaluated
  refine headed.bind fun w₂ proc proc' leads₂ procs => ?_
  refine (Parallel.one (fun _ o => getAttribute_equi o "args")
    (exprs.later (leads₁.trans leads₂))).bind fun w₃ args args' leads₃ peers => ?_
  refine (Parallel.one (F := fun r => List.map (Value.rename r)) (fun _ => members_equi) peers).bind
    fun w₄ vs vs' leads₄ values => ?_
  have leads := (leads₁.trans leads₂).trans (leads₃.trans leads₄)
  refine (Parallel.mapM .value .value (fun w' v v' leads' peer =>
    companions.evaluate peer (envs.later (leads.trans leads'))) values).bind
      fun w₅ vs vs' leads₅ values => ?_
  refine (Parallel.one (fun _ => list_equi) values).bind fun w₆ args args' leads₆ peers => ?_
  have leads' := (leads₃.trans leads₄).trans (leads₅.trans leads₆)
  exact companions.apply (procs.later leads') peers
    (envs.later ((leads₁.trans leads₂).trans leads'))

theorem eval {expr expr' env env' : Value} (exprs : Peer w expr expr') (envs : Peer w env env') :
    T.Parallel way w Peer (Calculus.eval k expr env) (Calculus.eval k' expr' env') := by
  refine (Parallel.one (fun _ => head_equi) exprs).bind fun w₁ v v' leads₁ peer => ?_
  have envs₁ := envs.later leads₁
  have exprs₁ := exprs.later leads₁
  have each {vs vs' : List Value} {w₂ : Stage} (envs : Peer w₂ env env') (peers : Peers w₂ vs vs') :
      T.Parallel way w₂ Peers (vs.mapM (k.evaluate · env)) (vs'.mapM (k'.evaluate · env')) :=
    .mapM .value .value (fun w' v v' leads peer =>
      companions.evaluate peer (envs.later leads)) peers
  obtain rfl := peer.eq
  cases v with
  | dict mark entries =>
      simp only [Value.rename, Value.renameEntries_eq]
      refine (Parallel.mapM .entry .entry (fun w' entry entry' leads' via => ?_)
        (Peer.dict_entries peer)).bind fun w₂ _ _ _ via => .one (fun _ => dict_equi) via
      have key : Peer w' entry.1 entry'.1 := via.fst
      have value : Peer w' entry.2 entry'.2 := via.snd
      exact (companions.evaluate value (envs₁.later leads')).bind fun w'' _ _ leads'' result =>
        .pure (Via.pair (key.later leads'') result)
  | tuple mark items =>
      simp only [Value.rename, Value.renameAll_eq]
      exact (each envs₁ (Peer.tuple_items peer)).bind fun w₂ _ _ _ peers =>
        .one (fun _ => tuple_equi) peers
  | list mark items =>
      refine (Parallel.one (F := fun r => List.map (Value.rename r)) (fun _ => members_equi) exprs₁).bind
        fun w₂ vs vs' leads₂ peers => ?_
      exact (each (envs₁.later leads₂) peers).bind fun w₃ vs vs' _ peers => .one (fun _ => list_equi) peers
  | array mark dtype shape data =>
      exact mapGrid (fun w' v v' leads' peer => companions.evaluate peer (envs₁.later leads')) exprs₁
  | var mark sym => exact .two (fun _ => item_equi) envs₁ (Peer.child peer (.head _))
  | application mark head args closed => exact companions.evalApplication exprs₁ envs₁
  | _ => exact .pure peer

theorem evalTagged {expr expr' env env' tag tag' : Value} (exprs : Peer w expr expr')
    (envs : Peer w env env') (tags : Peer w tag tag') :
    T.Parallel way w Peer (Calculus.evalTagged k expr env tag)
      (Calculus.evalTagged k' expr' env' tag') := by
  refine (Parallel.one (fun _ tag => binary_equi .equal tag (.str "debug")) tags).bind
    fun w₁ same same' leads₁ peer => ?_
  refine (Parallel.one (F := fun _ => id) (fun _ => truth_equi) peer).bind
    fun w₂ traced traced' leads₂ plain => ?_
  obtain rfl := plain.eq_of_plain
  have leads := leads₁.trans leads₂
  have plainly {w : Stage} (exprs : Peer w expr expr') (envs : Peer w env env') :
      T.Parallel way w Peer (Calculus.eval k expr env) (Calculus.eval k' expr' env') :=
    companions.eval exprs envs
  cases traced' with
  | true =>
      refine (Parallel.three (F := fun _ _ => ()) (fun _ => Calculus.echoEval_equi) (exprs.later leads)
        (envs.later leads) (tags.later leads)).bind fun w₃ _ _ leads₃ _ => ?_
      exact plainly (exprs.later (leads.trans leads₃)) (envs.later (leads.trans leads₃))
  | false => exact plainly (exprs.later leads) (envs.later leads)

/-! Fixed points. -/

theorem derive {generator generator' : Value} (generators : Peer w generator generator') :
    T.Parallel way w Peer (FixedPoint.derive k generator) (FixedPoint.derive k' generator') := by
  refine (Parallel.none (F := Renaming.mark) fun _ => Equi.fresh).bind fun w₁ mark mark' leads₁ marks => ?_
  have generators₁ : Peer w₁ generator generator' := Peer.later generators leads₁
  refine (companions.call generators₁ (.cons (.thunk marks generators₁) (.nil _)) (.nil _)).bind
    fun w₂ result result' leads₂ peer => ?_
  have same : result'.isCallable = result.isCallable := by rw [peer.eq, Value.isCallable_rename]
  refine .ite (by rw [same]) (.pure peer) ?_
  refine (Parallel.one (F := fun _ => id) (fun _ => shownPlain_equi) (generators₁.later leads₂)).bind
    fun w₃ text text' leads₃ plain => ?_
  obtain rfl := plain.eq_of_plain
  refine (Parallel.one (F := fun _ => id) (fun _ => shown_equi) (Peer.later peer leads₃)).bind
    fun w₄ shows shows' _ plain => ?_
  obtain rfl := plain.eq_of_plain
  exact .fault rfl

theorem build {generator generator' : Value} (generators : Peer w generator generator') :
    T.Parallel way w Peer (FixedPoint.build k generator) (FixedPoint.build k' generator') :=
  (Parallel.one (F := fun _ _ => ()) (f := fun g => tell (.built g)) (fun _ _ => tell_equi _ _)
    generators).bind fun _ _ _ leads _ => companions.derive (generators.later leads)

omit companions in
theorem refuse {args args' : List Value} {named named' : Named} (peers : Peers w args args')
    (keys : PeersNamed w named named') :
    T.Parallel way w Peer (FixedPoint.refuse args named) (FixedPoint.refuse args' named') :=
  .two (fun _ => FixedPoint.refuse_equi) peers keys

theorem force {generator generator' : Value} {args args' : List Value} {named named' : Named}
    (generators : Peer w generator generator') (peers : Peers w args args')
    (keys : PeersNamed w named named') :
    T.Parallel way w Peer (FixedPoint.force k generator args named)
      (FixedPoint.force k' generator' args' named') := by
  have refused : T.Parallel way w Peer (FixedPoint.refuse args named)
      (FixedPoint.refuse args' named') := refuse peers keys
  obtain rfl := peers.eq
  obtain rfl := keys.eq
  cases args with
  | nil =>
      cases named with
      | nil =>
          exact (Parallel.one (F := fun _ _ => ()) (f := fun g => tell (.asked g))
            (fun _ _ => tell_equi _ _) generators).bind fun _ _ _ leads _ =>
              companions.derive (generators.later leads)
      | cons entry named => exact refused
  | cons arg args => exact refused

theorem deriveCounted {generator generator' tally tally' thunk thunk' : Value}
    (generators : Peer w generator generator') (tallies : Peer w tally tally')
    (thunks : Peer w thunk thunk') :
    T.Parallel way w Peer (FixedPoint.deriveCounted k generator tally thunk)
      (FixedPoint.deriveCounted k' generator' tally' thunk') := by
  refine (Parallel.one (F := fun _ _ => ()) (fun _ tally => FixedPoint.bump_equi tally .derivations)
    tallies).bind fun w₁ _ _ leads₁ _ => .tells _ _ fun w₂ leads₂ => ?_
  refine (Parallel.none (F := Renaming.mark) fun _ => Equi.fresh).bind fun w₃ mark mark' leads₃ marks => ?_
  have leads := (leads₁.trans leads₂).trans leads₃
  have argument := Peer.countedThunk marks (thunks.later leads) (tallies.later leads)
  exact companions.call (generators.later leads) (.cons argument (.nil _)) (.nil _)

theorem forceCounted {inner inner' tally tally' : Value} {args args' : List Value}
    {named named' : Named} (inners : Peer w inner inner') (tallies : Peer w tally tally')
    (peers : Peers w args args') (keys : PeersNamed w named named') :
    T.Parallel way w Peer (FixedPoint.forceCounted k inner tally args named)
      (FixedPoint.forceCounted k' inner' tally' args' named') := by
  refine (Parallel.one (F := fun _ _ => ()) (fun _ tally => FixedPoint.bump_equi tally .thunkCalls)
    tallies).bind fun w₁ _ _ leads₁ _ => .tells _ _ fun w₂ leads₂ => ?_
  have leads := leads₁.trans leads₂
  exact companions.call (inners.later leads) (peers.later leads) (keys.later leads)

/-! Check runs. -/

theorem append {target target' entry entry' : Value} (targets : Peer w target target')
    (entries : Peer w entry entry') :
    T.Parallel way w (fun _ _ _ => True) (Run.append k target entry)
      (Run.append k' target' entry') := by
  obtain rfl := targets.eq
  have lacking : T.Parallel way w (fun _ (_ _ : Unit) => True) (fault (target.lacks "append"))
      (fault ((target.rename w.names).lacks "append")) := .fault (by rw [Value.lacks_rename])
  cases target with
  | list mark items =>
      have appended (r : Renaming) : Equi r (fun _ : Unit => ()) (Run.append k (.list mark items) entry)
          (Run.append k ((Value.list mark items).rename r) (entry.rename r)) := by
        simp only [Value.rename, Value.renameAll_eq]
        exact appended_equi mark items entry
      have both : T.Parallel way w (Via fun _ (_ : Unit) => ()) _ _ :=
        .of_equi appended fun r fixes => by rw [targets.fixed r fixes, entries.fixed r fixes]
      rw [← entries.eq] at both
      exact both.mono fun _ _ _ _ _ => trivial
  | environment id outer =>
      refine (Parallel.one (fun _ env => lookup_equi env "append") targets).bind
        fun w₁ f f' leads₁ fs => ?_
      exact (companions.call fs (.cons (entries.later leads₁) (.nil _)) (.nil _)).discard
  | _ => exact lacking

theorem record {results results' label label' : Value} (lists : Peer w results results')
    (labels : Peer w label label') (ok : Bool) :
    T.Parallel way w (fun _ _ _ => True) (Run.record k results label ok)
      (Run.record k' results' label' ok) := by
  have parts : Peers w [label, .bool ok] [label', .bool ok] :=
    .cons labels (.cons (.atom w fun _ => rfl) (.nil w))
  exact (Parallel.one (fun _ => tuple_equi) parts).bind fun _ _ _ leads entries =>
    companions.append (lists.later leads) entries

theorem failed {strict strict' trace trace' results results' label label' : Value}
    (stricts : Peer w strict strict') (traces : Peer w trace trace') (lists : Peer w results results')
    (labels : Peer w label label') {f f' : Fault} (like : Fault.Like T.loose f f') :
    T.Parallel way w (Via fun r => Option.map (Value.rename r))
      (Run.failed k strict trace results label f) (Run.failed k' strict' trace' results' label' f') := by
  cases like with
  | contract holds first second =>
      rw [first, second]
      exact .stop (.contract holds rfl rfl)
  | bare bare =>
      cases f with
      | mismatch a b c shown =>
          cases f' with
          | mismatch a' b' c' shown' =>
              obtain rfl : shown' = shown := by simpa [Fault.bare] using bare
              refine (companions.record lists labels false).bind fun w₁ _ _ leads₁ _ => ?_
              have ended {w₂ : Stage} (leads : w₁.Leads w₂) :
                  T.Parallel way w₂ (Via fun r => Option.map (Value.rename r))
                    (truth strict >>= fun strict =>
                      if strict then fault (.mismatch a b c shown') else pure Option.none)
                    (truth strict' >>= fun strict =>
                      if strict then fault (.mismatch a' b' c' shown') else pure Option.none) := by
                refine (Parallel.one (F := fun _ => id) (fun _ => truth_equi)
                  (stricts.later (leads₁.trans leads))).bind fun _ holds holds' _ plain => ?_
                obtain rfl := plain.eq_of_plain
                exact .ite Iff.rfl (.fault rfl) (.pure ⟨fun _ _ => rfl, rfl⟩)
              refine (Parallel.one (F := fun _ => id) (fun _ => truth_equi)
                (traces.later leads₁)).bind fun w₂ traced traced' leads₂ plain => ?_
              obtain rfl := plain.eq_of_plain
              cases traced' with
              | true =>
                  refine (Parallel.none fun _ => echo_equi (.str "AssertionFailure")
                    (.str shown')).discard.bind fun w₃ _ _ leads₃ _ => ?_
                  exact ended (leads₂.trans leads₃)
              | false => exact ended leads₂
          | _ => simp [Fault.bare] at bare
      | _ =>
          cases f' with
          | mismatch => simp [Fault.bare] at bare
          | _ => exact .fault bare

theorem checkEq {run run' actual actual' expected expected' label label' : Value}
    (runs : Peer w run run') (actuals : Peer w actual actual') (expects : Peer w expected expected')
    (labels : Peer w label label') :
    T.Parallel way w Peer (Run.checkEq k run actual expected label)
      (Run.checkEq k' run' actual' expected' label') := by
  obtain rfl := runs.eq
  have lacking : T.Parallel way w Peer (fault (run.lacks "assert_eq"))
      (fault ((run.rename w.names).lacks "assert_eq")) := .fault (by rw [Value.lacks_rename])
  cases run with
  | checkRun mark name strict trace results =>
      have names := runs.child (u := name) (by simp [Value.children])
      have stricts := runs.child (u := strict) (by simp [Value.children])
      have traces := runs.child (u := trace) (by simp [Value.children])
      have lists := runs.child (u := results) (by simp [Value.children])
      refine (Parallel.three (fun _ => checkLabel_equi) names lists labels).bind
        fun w₁ label label' leads₁ labels => ?_
      have asserted : T.Parallel way w₁ (Via fun r => Option.map (Value.rename r))
          (some <$> assertEq actual expected label) (some <$> assertEq actual' expected' label') :=
        (Parallel.three (fun _ => assertEq_equi) (actuals.later leads₁) (expects.later leads₁)
          labels).map fun _ _ _ _ via =>
            ⟨fun r fixes => congrArg some (via.fixed r fixes), congrArg some via.eq⟩
      refine (asserted.recover fun w₂ f f' leads₂ like => companions.failed
        (stricts.later (leads₁.trans leads₂)) (traces.later (leads₁.trans leads₂))
        (lists.later (leads₁.trans leads₂)) (Peer.later labels leads₂) like).bind
          fun w₂ outcome outcome' leads₂ via => ?_
      obtain rfl := via.eq
      have leads := leads₁.trans leads₂
      cases outcome with
      | none => exact .pure (actuals.later leads)
      | some v =>
          exact (companions.record (lists.later leads) (Peer.later labels leads₂) true).bind
            fun _ _ _ leads₃ _ => .pure (actuals.later (leads.trans leads₃))
  | _ => exact lacking

/-! Methods. -/

theorem act {owner owner' : Value} (owners : Peer w owner owner') (m : Method)
    {values values' : List (Option Value)} (given : Given w values values') :
    T.Parallel way w Peer (m.act k owner values) (m.act k' owner' values') := by
  have argument (i : Nat) : Peer w ((values[i]?).join.getD .none) ((values'[i]?).join.getD .none) :=
    given.value .none (fun _ => rfl) i
  have plainly {F : Renaming → Value → Value} {x y : Run Value} (first : T.Parallel way w (Via F) x y) :=
    first
  unfold Method.act
  split
  · refine (Parallel.one (fun _ o => getAttribute_equi o "π") owners).bind fun w₁ env env' _ via => ?_
    have same : Value.same env' .none = Value.same env .none := by
      rw [via.eq]
      exact Value.same_rename w₁.names env .none
    rw [same]
    exact .pure (.atom w₁ fun _ => rfl)
  · exact .two (fun _ => Method.binding_equi) owners (argument 0)
  · exact companions.checkEq owners (argument 0) (argument 1) (argument 2)
  · refine (Parallel.one (fun _ o => getAttribute_equi o "name") owners).bind fun w₁ _ _ leads₁ names => ?_
    refine (Parallel.one (fun _ o => getAttribute_equi o "results") (owners.later leads₁)).bind
      fun w₂ _ _ leads₂ lists => ?_
    exact .two (fun _ => summary_equi) (Peer.later names leads₂) lists
  · exact .one (fun _ o => (shown_equi o).bind fun text => .pure (Value.str text)) owners
  · exact .one (fun _ o => (shownPlain_equi o).bind fun text => .pure (Value.str text)) owners
  · exact .one (fun _ o => (length_equi o).bind fun n => .pure (Value.int n)) owners
  · exact .two (fun _ => item_equi) owners (argument 0)
  · exact .two (f := fun o v => nameOf v >>= fun name => missing o name)
      (fun _ o v => (nameOf_equi v).bind fun name => missing_equi o name) owners (argument 0)
  · exact .two (fun _ => Method.equality_equi) owners (argument 0)
  · exact .one (fun _ => Method.enter_equi) owners
  · exact .one (fun _ => Method.leave_equi) owners
  · exact .pure (.atom w fun _ => rfl)

theorem callMethod {owner owner' : Value} (owners : Peer w owner owner') (m : Method)
    {args args' : List Value} {named named' : Named} (peers : Peers w args args')
    (keys : PeersNamed w named named') :
    T.Parallel way w Peer (m.call k owner args named) (m.call k' owner' args' named') := by
  unfold Method.call
  split
  · exact companions.call owners peers keys
  · have called : Option.Rel (T.Parallel way w Peer) _ _ := collection owners m.name peers keys
    generalize Collection.call? owner m.name args named = x at called ⊢
    generalize Collection.call? owner' m.name args' named' = y at called ⊢
    cases called with
    | some both => exact both
    | none =>
        have kinds : owner'.kind? = owner.kind? := by rw [owners.eq, Value.kind?_rename]
        simp only [kinds]
        exact (bound _ peers keys).bind fun _ _ _ leads given =>
          companions.act (owners.later leads) m given

theorem callUnbound (kd : Kind) (m : Method) {args args' : List Value} {named named' : Named}
    (peers : Peers w args args') (keys : PeersNamed w named named') :
    T.Parallel way w Peer (m.callUnbound k kd args named) (m.callUnbound k' kd args' named') := by
  have direct : T.Parallel way w Peer
      (Run.ofExcept ((m.signature kd).unbound.bind args named) >>= fun values =>
        m.act k ((values.head?).join.getD .none) values.tail)
      (Run.ofExcept ((m.signature kd).unbound.bind args' named') >>= fun values =>
        m.act k' ((values.head?).join.getD .none) values.tail) := by
    refine (bound _ peers keys).bind fun w₁ values values' leads given => ?_
    have first := given.value .none (fun _ => rfl) 0
    rw [← List.head?_eq_getElem?, ← List.head?_eq_getElem?] at first
    refine companions.act first m ⟨fun r fixes => ?_, ?_⟩
    · have same : values.map (Option.map (Value.rename r)) = values := given.fixed r fixes
      rw [List.map_tail, same]
    · rw [given.eq, List.map_tail]
  by_cases same : m = .special "__call__"
  · subst same
    cases args with
    | nil =>
        obtain rfl := peers.eq_nil
        exact direct
    | cons owner args =>
        obtain ⟨owner', args', rfl, owners, peers⟩ := peers.uncons
        exact companions.call owners peers keys
  · have other (k : Machine) (args : List Value) (named : Named) : m.callUnbound k kd args named =
        (Run.ofExcept ((m.signature kd).unbound.bind args named) >>= fun values =>
          m.act k ((values.head?).join.getD .none) values.tail) := by
      unfold Method.callUnbound
      split
      · exact absurd rfl same
      · rfl
    rw [other, other]
    exact direct

/-! Built-in functions. -/

theorem blowStack {frames frames' : Value} (peers : Peer w frames frames') :
    T.Parallel way w Peer (Builtin.blowStack k frames) (Builtin.blowStack k' frames') := by
  refine (Parallel.none fun _ => tally_equi (.int 0) (.int 0)).bind fun w₁ tally tally' leads₁ tallies => ?_
  refine (Parallel.none (F := Renaming.mark) fun _ => Equi.fresh).bind fun w₂ mark mark' leads₂ marks =>
    .given fun sound => ?_
  have closures := sound.closure_nil marks Builtin.endless Builtin.forever
  refine (Parallel.two (fun _ => FixedPoint.counting_equi) closures (Peer.later tallies leads₂)).bind
    fun w₃ generator generator' leads₃ generators => ?_
  refine (companions.build generators).bind fun w₄ unfold unfold' leads₄ unfolds => ?_
  have leads := (leads₁.trans leads₂).trans (leads₃.trans leads₄)
  have tallies : Peer w₄ tally tally' := Peer.later tallies ((leads₂.trans leads₃).trans leads₄)
  refine .recover ?_ fun w₅ f f' leads₅ like => ?_
  · refine (Parallel.one (fun _ => headroom_equi) (peers.later leads)).bind
      fun w₅ manager manager' leads₅ managers => ?_
    have run {w' : Stage} (leads : w₅.Leads w') :
        T.Parallel way w' Peer (k.app unfold [.int 1]) (k'.app unfold' [.int 1]) :=
      companions.call (unfolds.later (leads₅.trans leads)) (.cons (.atom w' fun _ => rfl) (.nil _))
        (.nil _)
    have block : T.Parallel way w₅ Peer (Builtin.under manager (k.app unfold [.int 1]))
        (Builtin.under manager' (k'.app unfold' [.int 1])) := by
      have refused : T.Parallel way w₅ Peer (fault (.type (.notManager manager.operandName)))
          (fault (.type (.notManager manager'.operandName))) :=
        .fault (by rw [managers.eq, Value.operandName_rename])
      obtain rfl := managers.eq
      cases manager with
      | manager mark limit =>
          exact underLimit (Peer.manager_mark managers) (Peer.child managers (.head _)) fun _ => run
      | _ => exact refused
    refine block.discard.bind fun w₆ _ _ _ _ => ?_
    exact (Parallel.none (F := Fault.rename) fun _ =>
      mismatch_equi .none (.str "RecursionError") (.str "no base case")).bind fun _ f _ _ via =>
        .fault (via.eq ▸ Fault.bare_rename _ f)
  · have reported : T.Parallel way w₅ Peer
        (getAttribute tally "derivations" >>= Builtin.exhaustionReport)
        (getAttribute tally' "derivations" >>= Builtin.exhaustionReport) :=
      (Parallel.one (fun _ o => getAttribute_equi o "derivations") (tallies.later leads₅)).bind
        fun w₆ _ _ _ counts => .one (fun _ n => (shownPlain_equi n).bind fun text =>
          .pure (Value.str _)) counts
    cases like with
    | contract holds first second =>
        rw [first, second]
        exact .stop (.contract holds rfl rfl)
    | bare bare =>
        cases f with
        | stackExhausted =>
            cases f' with
            | stackExhausted => exact reported
            | _ => simp [Fault.bare] at bare
        | _ =>
            cases f' with
            | stackExhausted => simp [Fault.bare] at bare
            | _ => exact .fault bare

theorem actBuiltin (b : Builtin) {values values' : List (Option Value)} (given : Given w values values') :
    T.Parallel way w Peer (b.act k values) (b.act k' values') := by
  have argument (i : Nat) : Peer w ((values[i]?).join.getD .none) ((values'[i]?).join.getD .none) :=
    given.value .none (fun _ => rfl) i
  have within (i : Nat) :
      Peer w ((values[i]?).join.getD outermost) ((values'[i]?).join.getD outermost) :=
    given.value outermost (fun r => by simp [outermost]) i
  unfold Builtin.act
  split
  · exact companions.build (argument 0)
  · exact adapter (argument 0)
  · exact .three (fun _ => Run.assertEq_equi) (argument 0) (argument 1) (argument 2)
  · exact .two (fun _ => FixedPoint.counting_equi) (argument 0) (argument 1)
  · exact .none fun _ => stackDepth_equi
  · exact .one (fun _ => manager_equi) (argument 0)
  · exact .one (fun _ => headroom_equi) (argument 0)
  · refine mapGrid (fun w' v v' leads peer => ?_) (argument 1)
    have integers : T.Parallel way w' (Via fun _ => id) (Run.ofExcept (Grid.toInteger v))
        (Run.ofExcept (Grid.toInteger v')) :=
      Parallel.one (F := fun _ => id) (f := fun v => Run.ofExcept (Grid.toInteger v))
        (fun r v => Equi.ofExcept (by rw [Grid.toInteger_rename, id_map])) peer
    refine integers.bind fun w'' i i' leads' plain => ?_
    obtain rfl := plain.eq_of_plain
    exact companions.call ((argument 0).later (leads.trans leads'))
      (.cons (.atom w'' fun _ => rfl) (.nil _)) (.nil _)
  · exact .two (fun _ => Run.echo_equi) (argument 0) (argument 1)
  · exact .three (fun _ => Calculus.lambda_equi) (argument 0) (argument 1) (within 2)
  · exact companions.evalTagged (argument 0) (within 1) (argument 2)
  · exact companions.evalApplication (argument 0) (within 1)
  · have given := argument 1
    have apply {w₁ : Stage} {args args' : Value} (leads : w.Leads w₁) (peer : Peer w₁ args args') :=
      companions.apply ((argument 0).later leads) peer ((within 2).later leads)
    dsimp only
    generalize (values[1]?).join.getD .none = v at given ⊢
    have same := given.eq
    generalize (values'[1]?).join.getD .none = v' at given same ⊢
    subst same
    cases v with
    | none => exact (Parallel.none fun _ => list_equi []).bind fun _ _ _ leads args => apply leads args
    | _ => exact (Parallel.pure given).bind fun _ _ _ leads args => apply leads args
  · exact .three (fun _ => Calculus.define_equi) (argument 0) (argument 1) (within 2)
  · exact companions.blowStack (argument 0)
  · exact .one (fun _ => newEnvironment_equi _ _) (argument 0)
  · exact .pure (.atom w fun _ => rfl)

theorem callBuiltin (b : Builtin) {args args' : List Value} {named named' : Named}
    (peers : Peers w args args') (keys : PeersNamed w named named') :
    T.Parallel way w Peer (b.call k args named) (b.call k' args' named') := by
  have one : T.Parallel way w Peer (Run.ofExcept (Builtin.sole b.name args named))
      (Run.ofExcept (Builtin.sole b.name args' named')) := by
    refine Parallel.two (f := fun args named => Run.ofExcept (Builtin.sole b.name args named))
      (fun r args named => ?_) peers keys
    refine .ofExcept ?_
    rcases named with _ | ⟨entry, named⟩
    · rcases args with _ | ⟨a, _ | ⟨b, args⟩⟩
      · rfl
      · rfl
      · simp [Builtin.sole, Renaming.named]
    · rfl
  unfold Builtin.call
  split
  · refine one.bind fun w₁ v v' _ peer => ?_
    rw [peer.eq, Value.isCallable_rename]
    exact .pure (.atom w₁ fun _ => rfl)
  · exact one.bind fun w₁ _ _ _ peer =>
      .one (fun _ v => (shown_equi v).bind fun text => .pure (Value.str text)) peer
  · exact one.bind fun w₁ _ _ _ peer =>
      .one (fun _ v => (length_equi v).bind fun n => .pure (Value.int n)) peer
  · obtain rfl := peers.eq
    obtain rfl := keys.eq
    rcases args with _ | ⟨arg, args⟩ <;> rcases named with _ | ⟨entry, named⟩
    · exact .none fun _ => recursionLimit_equi
    · exact .fault rfl
    · exact .fault (by simp)
    · exact .fault rfl
  · exact (bound _ peers keys).bind fun _ _ _ _ given => companions.actBuiltin _ given

end Companions

end Twins

end Knot
