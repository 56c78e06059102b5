import Knot.Proofs.FixedPoints.Handing

/-!
Runs side by side in which a generator or code is held to what it may do. Where it is handed sealed functions, these
stand for each other whatever they hide; where it is not, it has to use its first argument for calls only. Either way
the rule goes alike, and code that is handed twins goes alike.
-/

namespace Knot

open Run Renaming

namespace Peers

variable {w : Stage} {args args' : List Value}

theorem all_inert (peers : Peers w args args') : args'.all Value.isInert = args.all Value.isInert := by
  rw [peers.eq, List.all_map]
  exact congrArg args.all (funext fun v => Value.isInert_rename _ v)

theorem length_eq (peers : Peers w args args') : args'.length = args.length := by
  rw [peers.eq, List.length_map]

end Peers

namespace PeersNamed

variable {w : Stage} {named named' : Named}

theorem isEmpty_eq (keys : PeersNamed w named named') : named'.isEmpty = named.isEmpty := by
  rw [keys.eq, Renaming.named, List.isEmpty_map]

end PeersNamed

namespace Twins

open Machine

variable {T : Twins} {way : Way} {w : Stage} {G : Gate} {seals : Bool} {k k' : Machine} {f f' u v p p' : Value}
  {args args' : List Value} {named named' : Named}

namespace Parallel

theorem outOfFuel {α β : Type} {R : Stage → α → β → Prop} :
    T.Parallel way w R (Run.outOfFuel : Run α) (Run.outOfFuel : Run β) := by
  cases way with
  | forth => exact .short (.inl ⟨rfl, _, rfl⟩)
  | back => exact .short (.inr ⟨rfl, _, rfl⟩)

/-- What the first run gives, and the store that it leaves, are what they are by itself. -/
theorem giving {α β : Type} {R : Stage → α → β → Prop} {x : Run α} {y : Run β} {P : α → Store → Prop}
    (runs : T.Parallel way w R x y) (gives : ∀ {a t}, x w.left = .ok a t → P a t) :
    T.Parallel way w (fun w a b => R w a b ∧ P a w.left) x y := by
  intro sound
  have ends := runs sound
  generalize result : x w.left = a at ends
  generalize y w.right = b at ends
  cases ends with
  | ok leads sound' rel => exact .ok leads sound' ⟨rel, gives result⟩
  | fault leads sound' like => exact .fault leads sound' like
  | forth forth => exact .forth forth
  | back back => exact .back back

/-- Sealed functions stand for each other. -/
theorem sealing (hidden : Peer w p p' ∨ T.Linked w p p') :
    T.Parallel way w (fun w q q' => Peer w q q' ∧ q.sealed? = some p) (Run.sealing p) (Run.sealing p') := by
  refine giving (R := Peer) (P := fun q _ => q.sealed? = some p) ?_ fun {q t} run => ?_
  case refine_2 =>
    cases run
    rfl
  rcases hidden with peer | linked
  · have scopes : T.Scopes w [] [("self", p)] [("self", p')] := by
      refine .of_via ⟨fun r fixes => ?_, ?_⟩
      · rw [Renaming.named, List.map_cons, List.map_nil, Prod.map_apply, peer.fixed r fixes, id]
      · rw [Renaming.named, List.map_cons, List.map_nil, Prod.map_apply, ← peer.eq, id]
    exact .closing _ _ (Term.onlyCalls_nil _) scopes
  · have nothing : T.Scopes w [] [] [] := .of_via ⟨fun _ _ => rfl, rfl⟩
    exact .closing _ _ (Term.onlyCalls_nil _) (nothing.cons_linked "self" linked)

end Parallel

end Twins

/-- Gates that go alike: what is a delay does not depend on numbers, and what is done before and after goes alike where
it is done for what stands for each other. Of a thunk that counts, what it counts makes no difference. -/
structure Gate.Alike (G : Gate) : Prop where
  delays : ∀ (r : Renaming) (v : Value), G.isDelay (v.rename r) = G.isDelay v
  counted : ∀ (mark mark' : Nat) (u v tally tally' : Value),
    G.isDelay (.countedThunk mark u tally) = G.isDelay (.countedThunk mark' v tally')
  admits : ∀ {w : Stage} {args args' : List Value} {named named' : Named}, Peers w args args' →
    PeersNamed w named named' → G.admits args' named' = G.admits args named
  before : ∀ {T : Twins} {way : Way} {w : Stage}, T.Parallel way w (fun _ _ _ => True) G.before G.before
  after : ∀ {T : Twins} {way : Way} {w : Stage} {f f' v v' : Value}, Peer w f f' → Peer w v v' →
    T.Parallel way w Peer (G.after f v) (G.after f' v')
  after_counted : ∀ {T : Twins} {way : Way} {w : Stage} (mark mark' : Nat) (u u' tally tally' : Value) {v v' : Value},
    Peer w v v' → T.Parallel way w Peer (G.after (.countedThunk mark u tally) v)
      (G.after (.countedThunk mark' u' tally') v')

theorem Handing.gate_alike (h : Handing) : h.gate.Alike where
  delays r v := Value.isDelay_rename h.direct r v
  counted _ _ _ _ _ _ := rfl
  admits peers keys := by
    change h.admits _ _ = h.admits _ _
    simp only [Handing.admits, Peers.all_inert peers, Peers.length_eq peers, PeersNamed.isEmpty_eq keys]
  before := (Twins.Parallel.none (F := fun _ => id) fun _ => print_equi h.note).mono fun _ _ _ _ _ => trivial
  after _ peer := .ite (by rw [peer.eq, Value.isCallable_rename]) (.pure peer) .outOfFuel
  after_counted _ _ _ _ _ _ _ _ peer := .ite (by rw [peer.eq, Value.isCallable_rename]) (.pure peer) .outOfFuel

namespace Twins

open Machine

variable {T : Twins} {way : Way} {w : Stage} {G : Gate} {seals : Bool} {k k' : Machine} {f f' u v p p' : Value}
  {args args' : List Value} {named named' : Named}

/-- Code goes alike that is handed what goes alike when it is called, if calls of the code do. -/
theorem Parallel.lending (alike : G.Alike) (after : ∀ {w' a b}, w.Leads w' → Peer w' a b →
      T.Parallel way w' Peer (G.after f a) (G.after f' b))
    (hidden : Peer w p p' ∨ T.Linked w p p')
    (sealed : seals → ∀ {w' q q'}, w.Leads w' → Peer w' q q' → q.sealed? = some p →
      T.Parallel way w' Peer (callValue k f [q] []) (callValue k' f' [q'] []))
    (plain : seals = false → ∀ {w'}, w.Leads w' →
      T.Parallel way w' Peer (callValue k f [p] []) (callValue k' f' [p'] [])) :
    T.Parallel way w Peer (Machine.lending G seals k f p) (Machine.lending G seals k' f' p') := by
  refine alike.before.bind fun w₁ _ _ leads₁ _ => ?_
  cases seals with
  | true =>
      have hidden₁ : Peer w₁ p p' ∨ T.Linked w₁ p p' := hidden.imp (·.later leads₁) (·.later leads₁)
      refine (Parallel.sealing hidden₁).bind fun w₂ q q' leads₂ opens => ?_
      have leads := leads₁.trans leads₂
      exact (sealed rfl leads opens.1 opens.2).bind fun w₃ _ _ leads₃ peer => after (leads.trans leads₃) peer
  | false =>
      have passed : T.Parallel way w₁ (fun _ q q' => q = p ∧ q' = p') (Pure.pure p : Run Value) (Pure.pure p') :=
        .pure ⟨rfl, rfl⟩
      refine passed.bind fun w₂ q q' leads₂ same => ?_
      obtain ⟨rfl, rfl⟩ := same
      have leads := leads₁.trans leads₂
      exact (plain rfl leads).bind fun w₃ _ _ leads₃ peer => after (leads.trans leads₃) peer

/-- Twins that code behind a gate may be handed: both are delays other than the code, or neither is a delay, and they
may be called as the gate lets delays be called. -/
structure Hands (T : Twins) (G : Gate) : Prop where
  alike : G.Alike
  routine : G.code.isRoutine
  known : ∀ m ∈ G.code.ownMarks, m ∈ T.known
  delays : ∀ {w : Stage} {u v : Value}, T.Twin w u v → G.isDelay v = G.isDelay u
  apart : ∀ {w : Stage} {u v : Value}, T.Sound w → T.Twin w u v → G.isDelay u →
    G.code.same u = false ∧ G.code.same v = false
  admits : ∀ {args : List Value} {named : Named}, G.admits args named → T.Admits args named
  sealed : ∀ {p q : Value}, G.isDelay p → q.sealed? = some p → T.Admits [p] [] → T.Admits [q] []

namespace Hands

variable (hands : T.Hands G) (sound : T.Sound w)
include hands sound

/-- What the code is does not differ between the runs. -/
theorem same_eq (fs : Peer w f f') : G.code.same f' = G.code.same f := by
  rw [fs.eq]
  exact Value.same_rename_of_known hands.routine (fun m own => (sound.keeps m (hands.known m own)).2) f

/-- Nor does it for thunks that count, whatever they count. -/
theorem same_counted {mark mark' : Nat} {tally tally' : Value} (marks : Via Renaming.mark w mark mark') :
    G.code.same (.countedThunk mark' v tally') = G.code.same (.countedThunk mark u tally) := by
  have kept (m : Nat) (own : m ∈ G.code.ownMarks) : w.names.mark m = m := (sound.keeps m (hands.known m own)).2
  rw [← Value.same_rename_of_known hands.routine kept (.countedThunk mark u tally), Value.rename, ← marks.eq]
  cases G.code <;> simp only [Value.same]

theorem handed_eq (same : G.code.same f' = G.code.same f) (peers : Peers w args args')
    (keys : PeersNamed w named named') :
    G.handed? f' args' named' = (G.handed? f args named).map (Value.rename w.names) := by
  rw [peers.eq, keys.eq]
  rcases args with _ | ⟨p, _ | ⟨q, args⟩⟩ <;> rcases named with _ | ⟨entry, named⟩ <;> try rfl
  have kept (m : Nat) (own : m ∈ G.code.ownMarks) : w.names.mark m = m := (sound.keeps m (hands.known m own)).2
  simp only [Gate.handed?, same, List.map_cons, List.map_nil, Renaming.named,
    Value.same_rename_of_known hands.routine kept, hands.alike.delays]
  split <;> rfl

omit hands in
/-- What a function is sealed over, in either run. -/
theorem opened_seen (fs : Peer w f f') : T.Seen w True (opened? seals f) (opened? seals f') := by
  cases seals with
  | false => exact .absent
  | true =>
      change T.Seen w True f.sealed? f'.sealed?
      cases f with
      | closure mark header body scope =>
          obtain ⟨names, scope', rfl, -, scopes⟩ := sound.closure fs
          cases body with
          | var name =>
              simp only [Value.sealed?]
              split
              · exact (scopes.seen "self").mono fun _ => trivial
              · exact .absent
          | _ => exact .absent
      | _ =>
          rw [fs.eq]
          exact .absent

/-- Where one run hands the code a twin, so does the other one. -/
theorem handed_linked (fs : Peer w f f') (linked : T.Linked w u v) (peers : Peers w args args') :
    G.handed? f (u :: args) [] = none ∧ G.handed? f' (v :: args') [] = none ∨
      args = [] ∧ args' = [] ∧ G.handed? f [u] [] = some u ∧ G.handed? f' [v] [] = some v := by
  cases args with
  | cons arg args =>
      obtain ⟨arg', rest, rfl, -⟩ := peers.uncons
      exact .inl ⟨rfl, rfl⟩
  | nil =>
      obtain rfl := Peers.eq_nil peers
      have same := hands.same_eq sound fs
      have delays : G.isDelay v = G.isDelay u := by
        cases linked with
        | counted => exact hands.alike.counted ..
        | twin twin => exact hands.delays twin
      have apart (delay : G.isDelay u) : G.code.same v = G.code.same u := by
        cases linked with
        | counted marks => exact hands.same_counted sound marks
        | twin twin =>
            obtain ⟨apart, apart'⟩ := hands.apart sound twin delay
            rw [apart, apart']
      cases is : G.code.same f with
      | false =>
          exact .inl ⟨Gate.nothing_handed_of_ne is, Gate.nothing_handed_of_ne (same.trans is)⟩
      | true =>
          cases delay : G.isDelay u with
          | false =>
              exact .inl ⟨Gate.nothing_handed_of_not_delay delay,
                Gate.nothing_handed_of_not_delay (delays.trans delay)⟩
          | true =>
              cases other : G.code.same u with
              | true =>
                  exact .inl ⟨Gate.nothing_handed_of_code other,
                    Gate.nothing_handed_of_code ((apart delay).trans other)⟩
              | false =>
                  exact .inr ⟨rfl, rfl, Gate.handed_of_delay is delay other,
                    Gate.handed_of_delay (same.trans is) (delays.trans delay) ((apart delay).trans other)⟩

end Hands

/-- What uses its first argument for calls only is not sealed. -/
theorem Sound.sealed_none (sound : T.Sound w) (only : f.OnlyCalls T.form) (fs : Peer w f f') :
    f.sealed? = none ∧ f'.sealed? = none := by
  cases only with
  | closure mark header body scope taken =>
      obtain ⟨names, scope', rfl, -⟩ := sound.closure fs
      cases body with
      | var name =>
          have fails : ¬(header = Value.sealHeader ∧ name = "self") := by
            rintro ⟨rfl, rfl⟩
            cases taken "self" [] rfl
          exact ⟨if_neg fails, if_neg fails⟩
      | _ => exact ⟨rfl, rfl⟩
  | builtin | counted =>
      rw [fs.eq]
      exact ⟨rfl, rfl⟩

namespace Companions

variable (companions : T.Companions way k k') (hands : T.Hands G)
include companions hands

/-- Calls go alike of whatever stands for each other, where code is behind a gate. -/
theorem callGating (fs : Peer w f f') (peers : Peers w args args') (keys : PeersNamed w named named') :
    T.Parallel way w Peer (gating G seals k f args named) (gating G seals k' f' args' named') := by
  refine .given fun sound => ?_
  have handed := hands.handed_eq sound (hands.same_eq sound fs) peers keys
  unfold gating
  rw [handed]
  cases found : G.handed? f args named with
  | some p =>
      obtain ⟨rfl, rfl, -⟩ := Gate.of_handed found
      obtain ⟨p', rest, rfl, peer, nothing⟩ := peers.uncons
      rw [Option.map_some, ← peer.eq]
      refine .lending hands.alike (fun leads => hands.alike.after (fs.later leads)) (.inl peer)
        (fun _ _ _ _ leads peer _ => ?_) fun _ _ leads => ?_
      · exact companions.callValue (fs.later leads) (.cons peer (.nil _)) (.nil _)
      · exact companions.callValue (fs.later leads) (.cons (peer.later leads) (.nil _)) (.nil _)
  | none =>
      rw [Option.map_none]
      dsimp only
      have seen : T.Seen w True (opened? seals f) (opened? seals f') := Hands.opened_seen sound fs
      generalize opened? seals f = x at seen ⊢
      generalize opened? seals f' = y at seen ⊢
      cases seen with
      | absent => exact companions.callValue fs peers keys
      | plain peer =>
          exact .ite (by rw [hands.alike.admits peers keys]) (companions.call peer peers keys) .outOfFuel
      | linked _ linked =>
          dsimp only
          rw [hands.alike.admits peers keys]
          by_cases admits : G.admits args named
          · rw [if_pos admits, if_pos admits]
            exact companions.linked linked peers keys (hands.admits admits)
          · rw [if_neg admits, if_neg admits]
            exact .outOfFuel

omit hands in
/-- Code that is handed twins goes alike: it gets sealed functions, or it uses its first argument for calls only. -/
theorem handTwin (alike : G.Alike) (usage : seals = false → f.OnlyCalls T.form) (fs : Peer w f f')
    (linked : T.Linked w u v) :
    T.Parallel way w Peer (Machine.lending G seals k f u) (Machine.lending G seals k' f' v) := by
  refine .lending alike (fun leads => alike.after (fs.later leads)) (.inr linked)
    (fun _ _ _ _ leads peer _ => ?_) fun plain _ leads => ?_
  · exact companions.callValue (fs.later leads) (.cons peer (.nil _)) (.nil _)
  · exact companions.handValue (usage plain) (fs.later leads) (linked.later leads) (.nil _)

/-- What uses its first argument for calls only goes alike when it is handed twins. -/
theorem handGating (only : f.OnlyCalls T.form) (fs : Peer w f f') (linked : T.Linked w u v)
    (peers : Peers w args args') :
    T.Parallel way w Peer (gating G seals k f (u :: args) []) (gating G seals k' f' (v :: args') []) := by
  refine .given fun sound => ?_
  rcases hands.handed_linked sound fs linked peers with ⟨none, none'⟩ | ⟨rfl, rfl, handed, handed'⟩
  · have plain := sound.sealed_none only fs
    rw [gating_eq plain.1 none, gating_eq plain.2 none']
    exact companions.handValue only fs linked peers
  · rw [gating_of_handed handed, gating_of_handed handed']
    exact companions.handTwin hands.alike (fun _ => only) fs linked

/-- Thunks that count calls of twins go alike. -/
theorem countGating {mark mark' : Nat} {tally tally' : Value} (marks : Via Renaming.mark w mark mark')
    (linked : T.Linked w u v) (tallies : Peer w tally tally') (peers : Peers w args args')
    (keys : PeersNamed w named named') (admits : T.Admits args named) :
    T.Parallel way w Peer (gating G seals k (.countedThunk mark u tally) args named)
      (gating G seals k' (.countedThunk mark' v tally') args' named') := by
  refine .given fun sound => ?_
  have same : G.code.same (.countedThunk mark' v tally') = G.code.same (.countedThunk mark u tally) :=
    hands.same_counted sound marks
  have handed := hands.handed_eq sound same peers keys
  unfold gating
  rw [handed]
  cases found : G.handed? (.countedThunk mark u tally) args named with
  | none =>
      rw [Option.map_none]
      cases seals <;> exact companions.forceLinked linked tallies peers keys admits
  | some p =>
      obtain ⟨rfl, rfl, -, delay, -⟩ := Gate.of_handed found
      obtain ⟨p', rest, rfl, peer, nothing⟩ := peers.uncons
      rw [Option.map_some, ← peer.eq]
      refine .lending hands.alike (fun _ peer => hands.alike.after_counted _ _ _ _ _ _ peer)
        (.inl peer) (fun _ _ _ _ leads opens hides => ?_) fun _ _ leads => ?_
      · exact companions.forceLinked (linked.later leads) (tallies.later leads) (.cons opens (.nil _)) (.nil _)
          (hands.sealed delay hides admits)
      · exact companions.forceLinked (linked.later leads) (tallies.later leads)
          (.cons (peer.later leads) (.nil _)) (.nil _) admits

end Companions

/-- Code that is handed twins goes alike, whatever levels of fuel there are. -/
theorem Hands.level {more n m : Nat} (hands : T.Hands G) (paced : way.Paced more n m)
    (before : ∀ {n' m'}, n = n' + 1 → m = m' + 1 → way.Paced more n' m' →
      T.Companions way (levels (gating G seals) n') (levels (gating G seals) m'))
    (usage : seals = false → G.code.OnlyCalls T.form) (codes : Peer w G.code G.code) (twin : T.Twin w u v)
    (delay : G.isDelay u) :
    T.Parallel way w Peer ((levels (gating G seals) n).call G.code [u] [])
      ((levels (gating G seals) m).call G.code [v] []) := by
  refine .given fun sound => .level paced fun first second paced => ?_
  have same := Value.same_of_isRoutine hands.routine
  have apart := hands.apart sound twin delay
  rw [gating_of_handed (Gate.handed_of_delay same delay apart.1),
    gating_of_handed (Gate.handed_of_delay same ((hands.delays twin).trans delay) apart.2)]
  exact (before first second paced).handTwin hands.alike usage codes (.twin twin)

end Twins

end Knot
