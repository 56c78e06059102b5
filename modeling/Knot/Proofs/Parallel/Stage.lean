import Knot.Proofs.Parallel.Agreement
import Knot.Proofs.Parallel.Callers

/-!
Two runs side by side. Each has a store, and a renaming tells what in the one stands for what in the
other. The runs need not make the same things: the second store may hold frames, marks and tallies that
stand for nothing in the first one, and functions may see different things under names that they use for
calls only. What stands for what never changes; as the runs go on, there is only more of it.
-/

namespace Knot

open Run Renaming

/-- Where two runs are: their stores, and what stands for what. -/
structure Stage where
  names : Renaming
  left : Store
  right : Store

namespace Stage

/-- A stage that comes after another one. -/
structure Leads (w w' : Stage) : Prop where
  rooted : Rooted w.left
  agrees : w.names.Agrees w'.names w.left
  marks : w.left.nextMark ≤ w'.left.nextMark
  frames : w.left.frames.size ≤ w'.left.frames.size
  given : w.right.nextMark ≤ w'.right.nextMark
  newMarks : ∀ m, w.left.nextMark ≤ m → w.right.nextMark ≤ w'.names.mark m
  newFrames : ∀ id, w.left.frames.size ≤ id → w.right.frames.size ≤ w'.names.frame id
  kept : Kept w.names w.right.frames w'.right.frames

variable {w w' w'' : Stage} {α : Type}

theorem Leads.trans (first : Leads w w') (second : Leads w' w'') : Leads w w'' where
  rooted := first.rooted
  agrees :=
    ⟨fun m below => (second.agrees.marks m (below.trans_le first.marks)).trans (first.agrees.marks m below),
      fun id below => (second.agrees.frames id (below.trans_le first.frames)).trans
        (first.agrees.frames id below),
      fun v settled => (second.agrees.sees v (settled.later first.marks first.frames)).trans
        (first.agrees.sees v settled)⟩
  marks := first.marks.trans second.marks
  frames := first.frames.trans second.frames
  given := first.given.trans second.given
  newMarks m above := by
    by_cases below : m < w'.left.nextMark
    · exact second.agrees.marks m below ▸ first.newMarks m above
    · exact first.given.trans (second.newMarks m (Nat.le_of_not_lt below))
  newFrames id above := by
    by_cases below : id < w'.left.frames.size
    · exact second.agrees.frames id below ▸ first.newFrames id above
    · exact first.kept.grows.trans (second.newFrames id (Nat.le_of_not_lt below))
  kept :=
    ⟨first.kept.grows.trans second.kept.grows, fun id below outside => by
      refine (second.kept.same id (below.trans_le first.kept.grows) fun j same => ?_).trans
        (first.kept.same id below outside)
      by_cases inside : j < w.left.frames.size
      · exact outside j ((first.agrees.frames j inside).symm.trans same)
      · have := first.newFrames j (Nat.le_of_not_lt inside)
        omega⟩

end Stage

/-- Values that stand for each other: the second one is the first one renamed. -/
structure Via {α : Type} (F : Renaming → α → α) (w : Stage) (a b : α) : Prop where
  fixed : Fixed F w.left a
  eq : b = F w.names a

namespace Via

variable {α : Type} {F : Renaming → α → α} {w w' : Stage} {a b : α}

theorem later (natural : Natural F) (via : Via F w a b) (leads : w.Leads w') : Via F w' a b where
  fixed := via.fixed.later leads.marks leads.frames
  eq := via.eq.trans (natural.agree leads.rooted leads.agrees via.fixed).symm

/-- What has no marks stands for itself. -/
theorem plain (w : Stage) (a : α) : Via (fun _ => id) w a a := ⟨fun _ _ => rfl, rfl⟩

theorem eq_of_plain (via : Via (fun _ => id) w a b) : b = a := via.eq

variable {β : Type} {G : Renaming → β → β} {c d : β} {e e' : α × β}

theorem pair (first : Via F w a b) (second : Via G w c d) :
    Via (fun r => Prod.map (F r) (G r)) w (a, c) (b, d) :=
  ⟨fun r fixes => Prod.ext (first.fixed r fixes) (second.fixed r fixes), Prod.ext first.eq second.eq⟩

theorem fst (via : Via (fun r => Prod.map (F r) (G r)) w e e') : Via F w e.1 e'.1 :=
  ⟨fun r fixes => congrArg Prod.fst (via.fixed r fixes), congrArg Prod.fst via.eq⟩

theorem snd (via : Via (fun r => Prod.map (F r) (G r)) w e e') : Via G w e.2 e'.2 :=
  ⟨fun r fixes => congrArg Prod.snd (via.fixed r fixes), congrArg Prod.snd via.eq⟩

end Via

/-- Values of two runs that stand for each other. -/
abbrev Peer : Stage → Value → Value → Prop := Via Value.rename

abbrev Peers : Stage → List Value → List Value → Prop := Via fun r => List.map (Value.rename r)

abbrev PeersNamed : Stage → Named → Named → Prop := Via Renaming.named

namespace Peer

variable {w w' : Stage} {v v' : Value}

theorem later (peer : Peer w v v') (leads : w.Leads w') : Peer w' v v' := Via.later .value peer leads

/-- What is part of something settled is settled. -/
theorem settled_child {t : Store} {u v : Value} (settled : Settled t v) (member : u ∈ v.children) :
    Settled t u := by
  intro r fixes
  have same := settled r fixes
  cases v with
  | list | tuple | array =>
      simp only [Value.rename, Value.renameAll_eq, Value.list.injEq, Value.tuple.injEq,
        Value.array.injEq, true_and] at same
      exact map_fixed same.2 u member
  | dict m entries =>
      simp only [Value.rename, Value.renameEntries_eq, Value.dict.injEq] at same
      rcases List.mem_append.mp member with member | member
      all_goals
        obtain ⟨e, present, rfl⟩ := List.mem_map.mp member
        have pair := map_fixed same.2 e present
      · exact congrArg Prod.fst pair
      · exact congrArg Prod.snd pair
  | _ => simp [Value.children] at member same <;> grind

theorem atom (w : Stage) {v : Value} (plain : ∀ r, v.rename r = v) : Peer w v v :=
  ⟨fun r _ => plain r, (plain _).symm⟩

theorem tuple_items {mark : Nat} {items : List Value} (peer : Peer w (.tuple mark items) v') :
    Peers w items (items.map (Value.rename w.names)) :=
  ⟨fun r fixes => by
    have same := peer.fixed r fixes
    simp only [Value.rename, Value.renameAll_eq, Value.tuple.injEq] at same
    exact same.2, rfl⟩

theorem dict_entries {mark : Nat} {entries : List (Value × Value)}
    (peer : Peer w (.dict mark entries) v') :
    Via (fun r => List.map r.entry) w entries (entries.map w.names.entry) :=
  ⟨fun r fixes => by
    have same := peer.fixed r fixes
    simp only [Value.rename, Value.renameEntries_eq, Value.dict.injEq] at same
    exact same.2, rfl⟩

theorem thunk {mark mark' : Nat} (marks : Via Renaming.mark w mark mark') (peer : Peer w v v') :
    Peer w (.thunk mark v) (.thunk mark' v') :=
  ⟨fun r fixes => by rw [Value.rename, marks.fixed r fixes, peer.fixed r fixes],
    by rw [Value.rename, ← marks.eq, ← peer.eq]⟩

theorem countedThunk {mark mark' : Nat} {tally tally' : Value} (marks : Via Renaming.mark w mark mark')
    (peer : Peer w v v') (tallies : Peer w tally tally') :
    Peer w (.countedThunk mark v tally) (.countedThunk mark' v' tally') :=
  ⟨fun r fixes => by rw [Value.rename, marks.fixed r fixes, peer.fixed r fixes, tallies.fixed r fixes],
    by rw [Value.rename, ← marks.eq, ← peer.eq, ← tallies.eq]⟩

theorem limited {mark mark' : Nat} {manager manager' : Value} (marks : Via Renaming.mark w mark mark')
    (managers : Peer w manager manager') (peer : Peer w v v') :
    Peer w (.limited mark manager v) (.limited mark' manager' v') :=
  ⟨fun r fixes => by rw [Value.rename, marks.fixed r fixes, managers.fixed r fixes, peer.fixed r fixes],
    by rw [Value.rename, ← marks.eq, ← managers.eq, ← peer.eq]⟩

theorem manager_mark {mark : Nat} {limit : Value} (peer : Peer w (.manager mark limit) v') :
    Via Renaming.mark w mark (w.names.mark mark) :=
  ⟨fun r fixes => (Value.manager.inj (peer.fixed r fixes)).1, rfl⟩

/-- A part of what stands for something. -/
theorem child {u : Value} (peer : Peer w v v') (member : u ∈ v.children) : Peer w u (u.rename w.names) :=
  ⟨settled_child peer.fixed member, rfl⟩

end Peer

namespace Peers

variable {w w' : Stage} {vs vs' : List Value}

theorem later (peers : Peers w vs vs') (leads : w.Leads w') : Peers w' vs vs' :=
  Via.later .values peers leads

theorem nil (w : Stage) : Peers w [] [] := ⟨fun _ _ => rfl, rfl⟩

theorem map_eq (peers : Peers w vs vs') {r : Renaming} (fixes : r.Fixes w.left) :
    vs.map (Value.rename r) = vs := peers.fixed r fixes

theorem eq_nil (peers : Peers w [] vs') : vs' = [] := peers.eq

theorem uncons {v : Value} (peers : Peers w (v :: vs) vs') :
    ∃ v' rest, vs' = v' :: rest ∧ Peer w v v' ∧ Peers w vs rest :=
  ⟨_, _, peers.eq, ⟨peers.fixed.mem v (.head _), rfl⟩,
    ⟨fun r fixes => (List.cons.inj (peers.fixed r fixes)).2, rfl⟩⟩

theorem cons {v v' : Value} (peer : Peer w v v') (peers : Peers w vs vs') :
    Peers w (v :: vs) (v' :: vs') :=
  ⟨fun r fixes => congrArg₂ List.cons (peer.fixed r fixes) (peers.fixed r fixes),
    congrArg₂ List.cons peer.eq peers.eq⟩

end Peers

/-- The values of parameters, or none where one is left out. -/
abbrev Given : Stage → List (Option Value) → List (Option Value) → Prop :=
  Via fun r => List.map (Option.map (Value.rename r))

/-- A parameter's value, where a value of its own stands for one that is left out. -/
theorem Given.value {w : Stage} {values values' : List (Option Value)} (given : Given w values values')
    (left : Value) (plain : ∀ r, left.rename r = left) (i : Nat) :
    Peer w (((values[i]?).join).getD left) (((values'[i]?).join).getD left) :=
  ⟨fun r fixes => by
    have same : values.map (Option.map (Value.rename r)) = values := given.fixed r fixes
    rw [← getD_rename left (plain r), same],
    by rw [given.eq, getD_rename left (plain _)]⟩

namespace PeersNamed

variable {w w' : Stage} {named named' : Named}

theorem later (peers : PeersNamed w named named') (leads : w.Leads w') : PeersNamed w' named named' :=
  Via.later .named peers leads

theorem nil (w : Stage) : PeersNamed w [] [] := ⟨fun _ _ => rfl, rfl⟩

theorem cons (name : String) {v v' : Value} (peer : Peer w v v') (peers : PeersNamed w named named') :
    PeersNamed w ((name, v) :: named) ((name, v') :: named') :=
  ⟨fun r fixes => congrArg₂ List.cons (congrArg (Prod.mk name) (peer.fixed r fixes))
      (peers.fixed r fixes),
    congrArg₂ List.cons (congrArg (Prod.mk name) peer.eq) peers.eq⟩

end PeersNamed

/-- What two runs have beside what stands for what: values that stand for each other where they are only
called, in one form of calls or with arguments that fit, tallies of the second run with what holds of them,
and marks that stand for themselves. Where it is loose, what broken contracts show need not be the same. -/
structure Twins where
  Twin : Stage → Value → Value → Prop
  form : CallForm
  fits : List Value → Prop := fun _ => False
  loose : Prop := False
  known : List Nat := []
  own : List Nat := []
  Holds : Store → Prop := fun _ => True
  settled : ∀ {w u v}, Twin w u v → Settled w.left u
  later : ∀ {w w' u v}, Stage.Leads w w' → Twin w u v → Twin w' u v
  holds_same : ∀ {s s'}, (∀ m ∈ own, s'.tallies.lookup m = s.tallies.lookup m) → Holds s → Holds s' := by
    intros; trivial

namespace Twins

variable (T : Twins) (w : Stage)

/-- Calls that may have twins for their heads. -/
def Admits (args : List Value) (named : Named) : Prop :=
  T.form args.length (!named.isEmpty) ∨ T.fits args ∧ named = []

/-- Twins, or thunks that count calls of twins. -/
inductive Linked : Value → Value → Prop
  | twin {u v : Value} : T.Twin w u v → Linked u v
  | counted {mark mark' : Nat} {u v tally tally' : Value} : Via Renaming.mark w mark mark' →
      Linked u v → Via Value.rename w tally tally' →
      Linked (.countedThunk mark u tally) (.countedThunk mark' v tally')

/-- What a name is bound to in two scopes. -/
inductive Seen (called : Prop) : Option Value → Option Value → Prop
  | absent : Seen called none none
  | plain {v v' : Value} : Via Value.rename w v v' → Seen called (some v) (some v')
  | linked {u v : Value} : called → T.Linked w u v → Seen called (some u) (some v)

/-- Scopes that bind what stands for each other; under some names it may do so for calls only. -/
structure Scopes (names : List String) (scope scope' : Scope) : Prop where
  fixed : Fixed Renaming.named w.left scope
  seen : ∀ name, T.Seen w (name ∈ names) (scope.lookup name) (scope'.lookup name)

/-- What a function sees in the second run. -/
def Sees (v : Value) (scope' : Scope) : Prop :=
  ∃ mark header body scope names, v = .closure mark header body scope ∧ Settled w.left v ∧
    body.onlyCalls T.form (without names header.params) ∧ T.Scopes w names scope scope'

/-- Stages where everything that stands for something does so rightly. -/
structure Sound : Prop where
  beside : Beside w.names w.left w.right
  rooted : Rooted w.left
  below : ∀ m < w.left.nextMark, w.names.mark m < w.right.nextMark
  marked : ∀ id < w.right.frames.size, (w.right.frame id).mark < w.right.nextMark
  own : w.names.own = T.own
  owned : ∀ m ∈ T.own, m < w.right.nextMark
  keeps : ∀ m ∈ T.known, m < w.left.nextMark ∧ w.names.mark m = m
  sees : ∀ v scope', w.names.sees v = some scope' → T.Sees w v scope'
  holds : T.Holds w.right

variable {T w} {w' : Stage} {names : List String} {scope scope' : Scope} {u v : Value}

theorem Linked.settled (linked : T.Linked w u v) : Settled w.left u := by
  induction linked with
  | twin twin => exact T.settled twin
  | counted marks _ tallies ih =>
      intro r fixes
      rw [Value.rename, marks.fixed r fixes, ih r fixes, tallies.fixed r fixes]

theorem Linked.later (linked : T.Linked w u v) (leads : w.Leads w') : T.Linked w' u v := by
  induction linked with
  | twin twin => exact .twin (T.later leads twin)
  | counted marks _ tallies ih => exact .counted (marks.later .mark leads) ih (tallies.later .value leads)

theorem Seen.later {called : Prop} {x y : Option Value} (seen : T.Seen w called x y)
    (leads : w.Leads w') : T.Seen w' called x y := by
  cases seen with
  | absent => exact .absent
  | plain via => exact .plain (via.later .value leads)
  | linked holds linked => exact .linked holds (linked.later leads)

theorem Seen.mono {called called' : Prop} {x y : Option Value} (seen : T.Seen w called x y)
    (weaker : called → called') : T.Seen w called' x y := by
  cases seen with
  | absent => exact .absent
  | plain via => exact .plain via
  | linked holds linked => exact .linked (weaker holds) linked

namespace Scopes

theorem later (scopes : T.Scopes w names scope scope') (leads : w.Leads w') :
    T.Scopes w' names scope scope' :=
  ⟨scopes.fixed.later leads.marks leads.frames, fun name => (scopes.seen name).later leads⟩

/-- Scopes that are renamed. -/
theorem of_via (via : Via Renaming.named w scope scope') : T.Scopes w [] scope scope' where
  fixed := via.fixed
  seen name := by
    have looked : scope'.lookup name = (scope.lookup name).map (Value.rename w.names) := by
      rw [via.eq, named, lookup_map]
    rw [looked]
    cases found : scope.lookup name with
    | none => exact .absent
    | some v =>
        refine .plain ⟨fun r fixes => ?_, rfl⟩
        have same := via.fixed r fixes
        have known := lookup_map (Value.rename r) scope name
        rw [named] at same
        rw [same, found] at known
        exact (Option.some.inj known).symm

/-- One more name for something that stands for something. -/
theorem cons (scopes : T.Scopes w names scope scope') (name : String) {v v' : Value}
    (via : Via Value.rename w v v') :
    T.Scopes w (without names [name]) ((name, v) :: scope) ((name, v') :: scope') where
  fixed r fixes := by
    have rest := scopes.fixed r fixes
    rw [named] at rest ⊢
    rw [List.map_cons, rest, Prod.map_apply, via.fixed r fixes, id]
  seen other := by
    simp only [List.lookup_cons]
    by_cases same : other = name
    · subst same
      simpa using Seen.plain via
    · rw [beq_eq_false_iff_ne.mpr same]
      exact (scopes.seen other).mono fun member => Term.mem_without.mpr ⟨member, by simpa using same⟩

/-- Under more names it may do so for calls only. -/
theorem mono (scopes : T.Scopes w names scope scope') {more : List String}
    (fewer : ∀ name ∈ names, name ∈ more) : T.Scopes w more scope scope' :=
  ⟨scopes.fixed, fun name => (scopes.seen name).mono (fewer name)⟩

/-- One more name for something that is called only. -/
theorem cons_linked (scopes : T.Scopes w names scope scope') (name : String)
    (linked : T.Linked w u v) :
    T.Scopes w (name :: without names [name]) ((name, u) :: scope) ((name, v) :: scope') where
  fixed r fixes := by
    have rest := scopes.fixed r fixes
    rw [named] at rest ⊢
    rw [List.map_cons, rest, Prod.map_apply, linked.settled r fixes, id]
  seen other := by
    simp only [List.lookup_cons]
    by_cases same : other = name
    · subst same
      have member : other ∈ other :: without names [other] := List.mem_cons_self
      simpa using Seen.linked member linked
    · rw [beq_eq_false_iff_ne.mpr same]
      exact (scopes.seen other).mono fun member =>
        List.mem_cons_of_mem _ (Term.mem_without.mpr ⟨member, by simpa using same⟩)

/-- The arguments of a call before what a function sees. -/
theorem append {given given' : Scope} (scopes : T.Scopes w names scope scope')
    (params : List String) (keys : ∀ name, given.lookup name = none → name ∉ params)
    (via : Via Renaming.named w given given') :
    T.Scopes w (without names params) (given ++ scope) (given' ++ scope') where
  fixed r fixes := by
    have rest := scopes.fixed r fixes
    have first := via.fixed r fixes
    rw [named] at rest first ⊢
    rw [List.map_append, first, rest]
  seen name := by
    have here := (of_via (T := T) via).seen name
    rw [List.lookup_append, List.lookup_append]
    cases found : given.lookup name with
    | none =>
        rw [found] at here
        generalize given'.lookup name = other at here
        cases here
        exact (scopes.seen name).mono fun member => Term.mem_without.mpr ⟨member, keys name found⟩
    | some v =>
        rw [found] at here
        generalize given'.lookup name = other at here
        cases here with
        | plain via => exact .plain via
        | linked member => exact absurd member (List.not_mem_nil)

end Scopes

theorem Sees.later (sees : T.Sees w v scope') (leads : w.Leads w') : T.Sees w' v scope' := by
  obtain ⟨mark, header, body, scope, names, made, settled, only, scopes⟩ := sees
  exact ⟨mark, header, body, scope, names, made, settled.later leads.marks leads.frames, only,
    scopes.later leads⟩

namespace Sound

variable (sound : T.Sound w)
include sound

theorem keeps_later (leads : w.Leads w') {m : Nat} (member : m ∈ T.known) :
    m < w'.left.nextMark ∧ w'.names.mark m = m :=
  have kept := sound.keeps m member
  ⟨kept.1.trans_le leads.marks, (leads.agrees.marks m kept.1).trans kept.2⟩

theorem inside {id : Nat} (below : id < w.left.frames.size) : w.names.frame id < w.right.frames.size :=
  (sound.beside.image.frames.inside id).mpr below

theorem mark_of_le {m : Nat} (above : w.left.nextMark ≤ m) :
    w.names.mark m = w.right.nextMark + (m - w.left.nextMark) := by
  obtain ⟨i, rfl⟩ := Nat.exists_eq_add_of_le above
  rw [sound.beside.marks, Nat.add_sub_cancel_left]

theorem frame_of_le {id : Nat} (above : w.left.frames.size ≤ id) :
    w.names.frame id = w.right.frames.size + (id - w.left.frames.size) := by
  obtain ⟨i, rfl⟩ := Nat.exists_eq_add_of_le above
  rw [sound.beside.frames, Nat.add_sub_cancel_left]

theorem refl : w.Leads w where
  rooted := sound.rooted
  agrees := .refl ..
  marks := Nat.le_refl _
  frames := Nat.le_refl _
  given := Nat.le_refl _
  newMarks _ above := sound.mark_of_le above ▸ Nat.le_add_right _ _
  newFrames _ above := sound.frame_of_le above ▸ Nat.le_add_right _ _
  kept := .refl _

end Sound

end Twins

end Knot
