import Knot.Proofs.Parallel.Rules

/-!
Code side by side, in scopes that bind what stands for each other. Under some names these may bind twins:
code that uses such names for calls only goes alike too, as the machines call twins alike.
-/

namespace Knot

open Run Renaming

namespace Form

/-- Arguments with names are merged into some only where there are some. -/
theorem merged_isEmpty (named : Named) : (merged named).isEmpty = named.isEmpty := by
  have assigned (name : String) (v : Value) (first : Named) :
      (Bindings.assign name v first).isEmpty = false := by
    rcases first with _ | ⟨⟨key, u⟩, rest⟩
    · rfl
    · simp only [Bindings.assign]
      split <;> rfl
  have folded (first : Named) :
      (named.foldl (fun merged entry => Bindings.assign entry.1 entry.2 merged) first).isEmpty =
        (first.isEmpty && named.isEmpty) := by
    induction named generalizing first with
    | nil => simp
    | cons entry rest ih =>
        rw [List.foldl_cons, ih, assigned]
        simp
  exact (folded []).trans (Bool.true_and _)

end Form

namespace Twins

variable {T : Twins} {way : Way} {w : Stage} {k k' : Machine} {names : List String}
  {scope scope' : Scope} {args args' : List Value} {named named' : Named}

theorem merged_peers (keys : PeersNamed w named named') :
    PeersNamed w (Form.merged named) (Form.merged named') :=
  ⟨fun r fixes => by rw [← Form.merged_rename, keys.fixed r fixes],
    by rw [keys.eq, Form.merged_rename]⟩

namespace Parallel

variable {e e' : Run Value}

theorem resolve (scopes : T.Scopes w names scope scope') {name : String} (free : name ∉ names) :
    T.Parallel way w Peer (Form.resolve scope name) (Form.resolve scope' name) := by
  have seen := scopes.seen name
  have outside : T.Parallel way w Peer (Form.resolve [] name) (Form.resolve [] name) :=
    .none fun _ => Form.resolve_equi name
  unfold Form.resolve at outside ⊢
  generalize scope.lookup name = here at seen ⊢
  generalize scope'.lookup name = there at seen ⊢
  cases seen with
  | absent => exact outside
  | plain peer => exact .pure peer
  | linked member => exact absurd member free

theorem truth {v v' : Value} (peer : Peer w v v') :
    T.Parallel way w (Via fun _ => id) (Run.truth v) (Run.truth v') :=
  .one (fun _ => truth_equi) peer

theorem catching (first : T.Parallel way w Peer e e') :
    T.Parallel way w Peer (Form.catching e) (Form.catching e') :=
  first.recover fun w' f f' _ like => by
    rw [like.kind]
    exact .pure (.atom w' fun _ => rfl)

theorem managing {body body' : Value → Run Value} (first : T.Parallel way w Peer e e')
    (second : ∀ w' v v', w.Leads w' → Peer w' v v' → T.Parallel way w' Peer (body v) (body' v')) :
    T.Parallel way w Peer (Form.managing e body) (Form.managing e' body') := by
  refine first.bind fun w₁ v v' leads₁ peer => ?_
  have refused : T.Parallel way w₁ Peer (Run.fault (.type (.notManager v.operandName)))
      (Run.fault (.type (.notManager v'.operandName))) :=
    .fault (by rw [peer.eq, Value.operandName_rename])
  obtain rfl := peer.eq
  cases v with
  | manager mark limit =>
      have limits := Peer.child peer (u := limit) (.head _)
      exact Companions.underLimit (Peer.manager_mark peer) limits fun w₂ leads₂ =>
        second w₂ _ _ (leads₁.trans leads₂) (limits.later leads₂)
  | checkRun mark name strict trace results =>
      refine (second w₁ _ _ leads₁ peer).ensuring (fun _ _ _ _ leads peer => peer.later leads)
        fun w₂ leads₂ => ?_
      have part {u : Value} (member : u ∈ (Value.checkRun mark name strict trace results).children) :=
        (Peer.child peer member).later leads₂
      exact (Parallel.three (F := fun _ _ => ()) (fun _ => closeRun_equi)
        (part (u := name) (by simp [Value.children])) (part (u := trace) (by simp [Value.children]))
        (part (u := results) (by simp [Value.children]))).mono fun _ _ _ _ _ => trivial
  | _ => exact refused

end Parallel

/-- What a call may have for its head: what stands for each other or, in the right form, twins. -/
def Callable (T : Twins) (form : Prop) (w : Stage) (f f' : Value) : Prop :=
  Peer w f f' ∨ form ∧ T.Linked w f f'

theorem Callable.later {form : Prop} {w w' : Stage} {f f' : Value} (callable : Callable T form w f f')
    (leads : w.Leads w') : Callable T form w' f f' :=
  callable.imp (fun peer => peer.later leads) fun ⟨form, linked⟩ => ⟨form, linked.later leads⟩

namespace Companions

mutual

theorem evalTerm (companions : T.Companions way k k') (t : Term) {w : Stage} {names : List String}
    {scope scope' : Scope} (only : t.onlyCalls T.form names) (scopes : T.Scopes w names scope scope') :
    T.Parallel way w Peer (t.eval k scope) (t.eval k' scope') := by
  cases t with
  | lit l => exact .none fun _ => Form.literal_equi l
  | var name =>
      simp only [Term.onlyCalls, Bool.not_eq_true', List.contains_eq_mem,
        decide_eq_false_iff_not] at only
      exact .resolve scopes only
  | prim b => exact .pure (.atom w fun _ => rfl)
  | define name e =>
      exact (evalTerm companions e only scopes).bind fun _ _ _ _ peer =>
        .one (fun _ => Form.defined_equi name) peer
  | letIn name e body =>
      simp only [Term.onlyCalls, Bool.and_eq_true] at only
      exact (evalTerm companions e only.1 scopes).bind fun _ _ _ leads peer =>
        evalTerm companions body only.2 ((scopes.later leads).cons name peer)
  | call f args named =>
      simp only [Term.onlyCalls, Bool.and_eq_true, Bool.or_eq_true] at only
      have head : T.Parallel way w (Callable T (T.form args.length (!named.isEmpty)))
          (f.eval k scope) (f.eval k' scope') := by
        rcases only.1.1 with called | plain
        · cases f with
          | var name =>
              by_cases free : name ∈ names
              · have seen := scopes.seen name
                have outside : T.Parallel way w Peer (Form.resolve [] name) (Form.resolve [] name) :=
                  .none fun _ => Form.resolve_equi name
                change T.Parallel way w _ (Form.resolve scope name) (Form.resolve scope' name)
                unfold Form.resolve at outside ⊢
                generalize scope.lookup name = here at seen ⊢
                generalize scope'.lookup name = there at seen ⊢
                cases seen with
                | absent => exact outside.mono fun _ _ _ _ peer => .inl peer
                | plain peer => exact .pure (.inl peer)
                | linked _ linked => exact .pure (.inr ⟨called, linked⟩)
              · exact (Parallel.resolve scopes free).mono fun _ _ _ _ peer => .inl peer
          | _ => cases called
        · exact (evalTerm companions f plain scopes).mono fun _ _ _ _ peer => .inl peer
      refine head.bind fun w₁ f f' leads₁ callable => ?_
      refine (evalTerms companions args only.1.2 (scopes.later leads₁)).bind fun w₂ vs vs' leads₂ given => ?_
      refine (evalNamed companions named only.2 (scopes.later (leads₁.trans leads₂))).bind
        fun w₃ keys keys' leads₃ keyed => ?_
      have peers : Peers w₃ vs vs' := Peers.later given.1 leads₃
      rcases callable.later (leads₂.trans leads₃) with peer | ⟨form, linked⟩
      · exact companions.call peer peers (merged_peers keyed.1)
      · refine companions.linked linked peers (merged_peers keyed.1) (.inl ?_)
        rw [Form.merged_isEmpty, given.2, keyed.2]
        exact form
  | lam header body => exact .closing header body only scopes
  | ite c a b =>
      simp only [Term.onlyCalls, Bool.and_eq_true] at only
      refine (evalTerm companions c only.1.1 scopes).bind fun w₁ _ _ leads₁ peer => ?_
      refine (Parallel.truth peer).bind fun w₂ _ _ leads₂ plain => ?_
      obtain rfl := plain.eq_of_plain
      have scopes := scopes.later (leads₁.trans leads₂)
      exact .ite Iff.rfl (evalTerm companions a only.1.2 scopes) (evalTerm companions b only.2 scopes)
  | not a =>
      refine (evalTerm companions a only scopes).bind fun w₁ _ _ leads₁ peer => ?_
      exact .one (fun _ v => (truth_equi v).bind fun b => .pure (Value.bool !b)) peer
  | binary op a b =>
      simp only [Term.onlyCalls, Bool.and_eq_true] at only
      refine (evalTerm companions a only.1 scopes).bind fun w₁ _ _ leads₁ left => ?_
      exact (evalTerm companions b only.2 (scopes.later leads₁)).bind fun w₂ _ _ leads₂ right =>
        .two (fun _ => binary_equi op) (Peer.later left leads₂) right
  | attr o name =>
      exact (evalTerm companions o only scopes).bind fun _ _ _ _ peer =>
        .one (fun _ o => getAttribute_equi o name) peer
  | hasAttr o name =>
      exact (evalTerm companions o only scopes).bind fun _ _ _ _ peer =>
        .one (fun _ o => (hasAttribute_equi o name).bind fun b => .pure (Value.bool b)) peer
  | item o key =>
      simp only [Term.onlyCalls, Bool.and_eq_true] at only
      refine (evalTerm companions o only.1 scopes).bind fun w₁ _ _ leads₁ left => ?_
      exact (evalTerm companions key only.2 (scopes.later leads₁)).bind fun w₂ _ _ leads₂ right =>
        .two (fun _ => item_equi) (Peer.later left leads₂) right
  | set env name e =>
      simp only [Term.onlyCalls, Bool.and_eq_true] at only
      refine (evalTerm companions env only.1 scopes).bind fun w₁ _ _ leads₁ envs => ?_
      refine (Parallel.one (F := Renaming.frame) (fun _ => frameOf_equi) envs).bind
        fun w₂ _ _ leads₂ ids => ?_
      refine (evalTerm companions e only.2 (scopes.later (leads₁.trans leads₂))).bind
        fun w₃ _ _ leads₃ peer => ?_
      exact (Parallel.two (F := fun _ _ => ()) (fun _ id v => bind_equi id name v)
        (ids.later .frame leads₃) peer).bind fun w₄ _ _ _ _ => .pure (.atom w₄ fun _ => rfl)
  | del env name =>
      refine (evalTerm companions env only scopes).bind fun w₁ _ _ leads₁ envs => ?_
      refine (Parallel.one (F := Renaming.frame) (fun _ => frameOf_equi) envs).bind
        fun w₂ _ _ leads₂ ids => ?_
      exact (Parallel.one (F := fun _ _ => ()) (fun _ id => unbind_equi id name) ids).bind
        fun w₃ _ _ _ _ => .pure (.atom w₃ fun _ => rfl)
  | list items =>
      exact (evalTerms companions items only scopes).bind fun _ _ _ _ given => .one (fun _ => list_equi) given.1
  | tuple items =>
      exact (evalTerms companions items only scopes).bind fun _ _ _ _ given => .one (fun _ => tuple_equi) given.1
  | dict entries =>
      exact (evalEntries companions entries only scopes ⟨fun _ _ => rfl, rfl⟩).bind fun _ _ _ _ via =>
        .one (fun _ => dict_equi) via
  | range args =>
      exact (evalTerms companions args only scopes).bind fun _ _ _ _ given =>
        .one (fun _ => Form.progression_equi) given.1
  | array e dtype =>
      exact (evalTerm companions e only scopes).bind fun _ _ _ _ peer =>
        .one (f := fun v => Form.gridding (pure v) dtype) (fun _ => Form.gridded_equi dtype) peer
  | seq items =>
      have last (r : Renaming) (vs : List Value) :
          (vs.map (Value.rename r)).getLastD .none = (vs.getLastD .none).rename r := by
        rw [List.getLastD_eq_getLast?, List.getLastD_eq_getLast?, List.getLast?_map]
        cases vs.getLast? <;> rfl
      exact (evalTerms companions items only scopes).map fun w' vs vs' _ given =>
        ⟨fun r fixes => by rw [← last, given.1.map_eq fixes], by rw [given.1.eq, last]⟩
  | caught e => exact (evalTerm companions e only scopes).catching
  | within manager name body =>
      simp only [Term.onlyCalls, Bool.and_eq_true] at only
      exact (evalTerm companions manager only.1 scopes).managing fun _ _ _ leads peer =>
        evalTerm companions body only.2 ((scopes.later leads).cons name peer)

theorem evalTerms (companions : T.Companions way k k') (ts : List Term) {w : Stage} {names : List String}
    {scope scope' : Scope} (only : Term.onlyCallsAll T.form names ts) (scopes : T.Scopes w names scope scope') :
    T.Parallel way w (fun w vs vs' => Peers w vs vs' ∧ vs.length = ts.length)
      (Term.evalAll k ts scope) (Term.evalAll k' ts scope') := by
  cases ts with
  | nil => exact .pure ⟨.nil w, rfl⟩
  | cons t rest =>
      simp only [Term.onlyCallsAll, Bool.and_eq_true] at only
      refine (evalTerm companions t only.1 scopes).bind fun w₁ v v' leads₁ peer => ?_
      refine (evalTerms companions rest only.2 (scopes.later leads₁)).bind fun w₂ vs vs' leads₂ given => ?_
      exact .pure ⟨.cons (Peer.later peer leads₂) given.1, congrArg (· + 1) given.2⟩

theorem evalNamed (companions : T.Companions way k k') (ts : List (String × Term)) {w : Stage} {names : List String}
    {scope scope' : Scope} (only : Term.onlyCallsNamed T.form names ts) (scopes : T.Scopes w names scope scope') :
    T.Parallel way w (fun w vs vs' => PeersNamed w vs vs' ∧ vs.isEmpty = ts.isEmpty)
      (Term.evalNamed k ts scope) (Term.evalNamed k' ts scope') := by
  cases ts with
  | nil => exact .pure ⟨.nil w, rfl⟩
  | cons t rest =>
      simp only [Term.onlyCallsNamed, Bool.and_eq_true] at only
      refine (evalTerm companions t.2 only.1 scopes).bind fun w₁ v v' leads₁ peer => ?_
      refine (evalNamed companions rest only.2 (scopes.later leads₁)).bind fun w₂ vs vs' leads₂ given => ?_
      exact .pure ⟨.cons t.1 (Peer.later peer leads₂) given.1, rfl⟩

theorem evalEntries (companions : T.Companions way k k') (ts : List (Term × Term)) {w : Stage} {names : List String}
    {scope scope' : Scope} (only : Term.onlyCallsEntries T.form names ts)
    (scopes : T.Scopes w names scope scope') {entries entries' : List (Value × Value)}
    (via : Via (fun r => List.map r.entry) w entries entries') :
    T.Parallel way w (Via fun r => List.map r.entry) (Term.evalEntries k ts scope entries)
      (Term.evalEntries k' ts scope' entries') := by
  cases ts with
  | nil => exact .pure via
  | cons t rest =>
      simp only [Term.onlyCallsEntries, Bool.and_eq_true] at only
      refine (evalTerm companions t.1 only.1.1 scopes).bind fun w₁ key key' leads₁ keys => ?_
      refine (evalTerm companions t.2 only.1.2 (scopes.later leads₁)).bind fun w₂ v v' leads₂ peer => ?_
      have keys : Peer w₂ key key' := Peer.later keys leads₂
      have leads := leads₁.trans leads₂
      have checked : T.Parallel way w₂ (Via fun _ => id) (Run.ofExcept key.checkKey)
          (Run.ofExcept key'.checkKey) :=
        Parallel.one (f := fun key => Run.ofExcept (Value.checkKey key))
          (fun _ key => Equi.ofExcept (f := id) (by rw [Value.checkKey_rename, id_map])) keys
      refine checked.bind fun w₃ _ _ leads₃ _ => ?_
      have inserted : Via (fun r => List.map r.entry) w₃ (Value.insertEntry key v entries)
          (Value.insertEntry key' v' entries') := by
        have keys := keys.later leads₃
        have peer := Peer.later peer leads₃
        have via := via.later .entries (leads.trans leads₃)
        refine ⟨fun r fixes => ?_, ?_⟩
        · have same : entries.map r.entry = entries := via.fixed r fixes
          rw [← Value.insertEntry_rename, keys.fixed r fixes, peer.fixed r fixes, same]
        · rw [keys.eq, peer.eq, via.eq, Value.insertEntry_rename]
      exact evalEntries companions rest only.2 (scopes.later (leads.trans leads₃)) inserted

end

end Companions

end Twins

end Knot
