import Knot.Proofs.Parallel.Runs

/-!
Tallies that nothing leads to. Where no value that a store holds leads to some tallies, the store without them goes
with the store itself: all that they hold stands for itself, and the tallies are the second run's own. A function may
see names for such tallies, as long as it uses these for calls only, which fail since no tally can be called.
-/

namespace Knot

open Run Renaming

/-- Calls with any arguments. -/
def anyhow : CallForm := fun _ _ => true

namespace Value

/-- Whether a value is a tally with one of some marks. -/
def isTallyOf (own : List Nat) : Value → Bool
  | tally mark _ _ => own.contains mark
  | _ => false

mutual

/-- Whether nothing in a value leads to tallies with some marks, but for names that functions use for calls only. -/
def avoids (own : List Nat) (v : Value) : Bool :=
  match v with
  | none | bool _ | int _ | str _ | kind _ | builtin _ | member .. | frame _ | inert _ | recurring _ => true
  | float mark _ | range mark _ _ _ => !own.contains mark
  | list mark items | tuple mark items | array mark _ _ items => !own.contains mark && avoidsAll own items
  | dict mark entries => !own.contains mark && avoidsEntries own entries
  | closure mark header body scope =>
      !own.contains mark && avoidsScope own scope &&
        body.onlyCalls anyhow (without ((scope.filter (·.2.isTallyOf own)).map (·.1)) header.params)
  | environment _ outer => outer.avoids own
  | method mark a _ | var mark a | thunk mark a | manager mark a => !own.contains mark && a.avoids own
  | procedure mark a b | counted mark _ a b | countedThunk mark a b | tally mark a b | limited mark a b =>
      !own.contains mark && a.avoids own && b.avoids own
  | application mark a b c => !own.contains mark && a.avoids own && b.avoids own && c.avoids own
  | checkRun mark a b c d => !own.contains mark && a.avoids own && b.avoids own && c.avoids own && d.avoids own

def avoidsAll (own : List Nat) (vs : List Value) : Bool :=
  match vs with
  | [] => true
  | v :: rest => v.avoids own && avoidsAll own rest

def avoidsEntries (own : List Nat) (entries : List (Value × Value)) : Bool :=
  match entries with
  | [] => true
  | (key, v) :: rest => key.avoids own && v.avoids own && avoidsEntries own rest

def avoidsScope (own : List Nat) (scope : List (String × Value)) : Bool :=
  match scope with
  | [] => true
  | (_, v) :: rest => (v.isTallyOf own || v.avoids own) && avoidsScope own rest

end

variable {own : List Nat}

theorem avoidsAll_iff {vs : List Value} : avoidsAll own vs ↔ ∀ v ∈ vs, v.avoids own := by
  induction vs with
  | nil => simp [avoidsAll]
  | cons v rest ih => simp [avoidsAll, ih]

theorem avoidsEntries_iff {entries : List (Value × Value)} :
    avoidsEntries own entries ↔ ∀ e ∈ entries, e.1.avoids own ∧ e.2.avoids own := by
  induction entries with
  | nil => simp [avoidsEntries]
  | cons e rest ih => simp [avoidsEntries, ih]

theorem avoidsScope_iff {scope : List (String × Value)} :
    avoidsScope own scope ↔ ∀ e ∈ scope, e.2.isTallyOf own ∨ e.2.avoids own := by
  induction scope with
  | nil => simp [avoidsScope]
  | cons e rest ih => simp [avoidsScope, ih]

end Value

/-- Whether nothing that a frame holds leads to tallies with some marks. -/
structure Frame.Avoids (own : List Nat) (frame : Frame) : Prop where
  mark : frame.mark ∉ own
  bindings : ∀ e ∈ frame.bindings, e.2.avoids own
  card : ∀ v ∈ [frame.card.name, frame.card.path, frame.card.doc, frame.card.home, frame.card.defaults,
    frame.card.namedDefaults, frame.card.annotations], v.avoids own

/-- Nothing that a store holds leads to tallies with some marks. -/
structure Store.Avoids (own : List Nat) (s : Store) : Prop where
  zero : 0 ∉ own
  frames : ∀ id < s.frames.size, (s.frame id).Avoids own
  tallies : ∀ e ∈ s.tallies, e.1 ∉ own → e.2.1.avoids own ∧ e.2.2.avoids own
  contents : ∀ e ∈ s.contents, e.1 ∉ own ∧ ∀ v ∈ e.2, v.avoids own
  tables : ∀ e ∈ s.tables, e.1 ∉ own ∧ ∀ entry ∈ e.2, entry.1.avoids own ∧ entry.2.avoids own
  given : ∀ e ∈ s.given, e.2.avoids own
  namespaces : ∀ e ∈ s.namespaces, e.1 ∉ own
  entered : ∀ e ∈ s.entered, e.1 ∉ own
  session : ∀ e ∈ s.session, e.2.avoids own

/-- A store without tallies with some marks. -/
def Store.without (own : List Nat) (s : Store) : Store :=
  { s with tallies := s.tallies.filter (!own.contains ·.1) }

/-- Marks that a store has given out, beside zero. -/
structure Store.Gave (s : Store) (own : List Nat) : Prop where
  zero : 0 ∉ own
  below : ∀ m ∈ own, m < s.nextMark

/-- Marks moved out of the way, where a store has not given them out or they are among some. -/
def Store.moved (s : Store) (own : List Nat) (m : Nat) : Nat :=
  if m ∈ own ∨ s.nextMark ≤ m then m + s.nextMark else m

theorem Store.moved_injective (s : Store) (own : List Nat) : Function.Injective (s.moved own) := by
  intro m n same
  unfold moved at same
  split at same <;> split at same <;> omega

theorem Store.Gave.moved_zero {s : Store} {own : List Nat} (gave : s.Gave own) (positive : 0 < s.nextMark) :
    s.moved own 0 = 0 :=
  if_neg (not_or.mpr ⟨gave.zero, Nat.not_le.mpr positive⟩)

theorem Store.Gave.moved_ne {s : Store} {own : List Nat} (gave : s.Gave own) (m : Nat) (member : m ∈ own) (x : Nat) :
    s.moved own x ≠ m := by
  have below := gave.below m member
  unfold moved
  split
  · omega
  · rintro rfl
    exact absurd (Or.inl member) ‹_›

open Classical in
/-- The renaming that moves marks out of the way, together with all that a store has not given out; a function that
leads to none of these tallies sees what it saw. -/
noncomputable def Renaming.apart (own : List Nat) (s : Store) (gave : s.Gave own) (positive : 0 < s.nextMark) :
    Renaming where
  mark := s.moved own
  frame := id
  mark_injective := s.moved_injective own
  frame_strict := strictMono_id
  mark_zero := gave.moved_zero positive
  frame_zero := Renaming.same.frame_zero
  sees v :=
    match v with
    | .closure mark header body scope =>
        if (Value.closure mark header body scope).avoids own ∧ Settled s (.closure mark header body scope) then some scope
        else none
    | _ => none
  own := own
  own_apart := gave.moved_ne

namespace Renaming

variable {own : List Nat} {s : Store} (gave : s.Gave own) (positive : 0 < s.nextMark)

theorem apart_mark_of_kept {m : Nat} (kept : m ∉ own) (below : m < s.nextMark) :
    (apart own s gave positive).mark m = m :=
  if_neg (not_or.mpr ⟨kept, Nat.not_le.mpr below⟩)

theorem apart_mark_of_le {m : Nat} (above : s.nextMark ≤ m) : (apart own s gave positive).mark m = m + s.nextMark :=
  if_pos (.inr above)

theorem apart_mark_le (m : Nat) : (apart own s gave positive).mark m ≤ m + s.nextMark := by
  dsimp only [apart, Store.moved]
  split <;> omega

/-- What is in sight stands for itself. -/
theorem apart_value (rooted : Rooted s) {v : Value} (avoids : v.avoids own) (settled : Settled s v) :
    v.rename (apart own s gave positive) = v := by
  induction size : sizeOf v using Nat.strong_induction_on generalizing v with
  | _ n ih =>
      subst size
      have mark {m : Nat} (kept : (!own.contains m) = true) (fixed : Fixed Renaming.mark s m) :
          (apart own s gave positive).mark m = m :=
        apart_mark_of_kept gave positive (by simpa using kept) (rooted.mark_lt fixed)
      have child {u : Value} (member : u ∈ v.children) (avoids : u.avoids own) (fixed : Settled s u) :
          u.rename (apart own s gave positive) = u := ih _ (Value.sizeOf_lt_of_mem_children member) avoids fixed rfl
      have held := settled
      cases v with
      | none | bool | int | str | kind | builtin | member | inert | recurring | frame => rfl
      | float m | range m =>
          simp only [Settled, Value.rename, Value.float.injEq, Value.range.injEq, and_true] at held
          simp only [Value.rename, mark avoids held]
      | list m items | tuple m items | array m dtype shape items =>
          simp only [Value.avoids, Bool.and_eq_true, Value.avoidsAll_iff] at avoids
          simp only [Settled, Value.rename, Value.renameAll_eq, Value.list.injEq, Value.tuple.injEq,
            Value.array.injEq, true_and] at held
          have each : items.map (·.rename (apart own s gave positive)) = items :=
            (List.map_congr_left fun u member => child member (avoids.2 u member)
              (Fixed.mem (F := Value.rename) (fun r fixes => (held r fixes).2) u member)).trans (List.map_id _)
          simp only [Value.rename, Value.renameAll_eq, mark avoids.1 fun r fixes => (held r fixes).1, each]
      | dict m entries =>
          simp only [Value.avoids, Bool.and_eq_true, Value.avoidsEntries_iff] at avoids
          simp only [Settled, Value.rename, Value.renameEntries_eq, Value.dict.injEq] at held
          have each : entries.map (apart own s gave positive).entry = entries :=
            (List.map_congr_left fun e member => by
              have pair := Fixed.mem (F := Renaming.entry) (fun r fixes => (held r fixes).2) e member
              have key := child (List.mem_append_left _ (List.mem_map_of_mem member)) (avoids.2 e member).1
                fun r fixes => congrArg Prod.fst (pair r fixes)
              have value := child (List.mem_append_right _ (List.mem_map_of_mem member)) (avoids.2 e member).2
                fun r fixes => congrArg Prod.snd (pair r fixes)
              exact Prod.ext key value).trans (List.map_id _)
          simp only [Value.rename, Value.renameEntries_eq, mark avoids.1 fun r fixes => (held r fixes).1, each]
      | closure m header body scope =>
          have kept : ∀ r : Renaming, r.Fixes s → r.mark m = m := fun r fixes => by
            have same := held r fixes
            rw [fixes.scopes.closure] at same
            injection same
          have seen : (apart own s gave positive).sees (.closure m header body scope) = some scope :=
            if_pos ⟨avoids, settled⟩
          simp only [Value.avoids, Bool.and_eq_true] at avoids
          simp only [Value.rename, mark avoids.1.1 kept, seen, Option.getD_some]
      | environment id outer =>
          simp only [Settled, Value.rename, Value.environment.injEq] at held
          have first := child (.head _) avoids fun r fixes => (held r fixes).2
          simp only [Value.rename, first]
          rfl
      | method m a | var m a | thunk m a | manager m a =>
          simp only [Value.avoids, Bool.and_eq_true] at avoids
          simp only [Settled, Value.rename, Value.method.injEq, Value.var.injEq, Value.thunk.injEq,
            Value.manager.injEq, and_true] at held
          have first := child (.head _) avoids.2 fun r fixes => (held r fixes).2
          simp only [Value.rename, mark avoids.1 fun r fixes => (held r fixes).1, first]
      | procedure m a b | countedThunk m a b | tally m a b | limited m a b | counted m name a b =>
          simp only [Value.avoids, Bool.and_eq_true] at avoids
          simp only [Settled, Value.rename, Value.procedure.injEq, Value.countedThunk.injEq,
            Value.tally.injEq, Value.limited.injEq, Value.counted.injEq, true_and] at held
          have first := child (.head _) avoids.1.2 fun r fixes => (held r fixes).2.1
          have second := child (.tail _ (.head _)) avoids.2 fun r fixes => (held r fixes).2.2
          simp only [Value.rename, mark avoids.1.1 fun r fixes => (held r fixes).1, first, second]
      | application m a b c =>
          simp only [Value.avoids, Bool.and_eq_true] at avoids
          simp only [Settled, Value.rename, Value.application.injEq] at held
          have first := child (.head _) avoids.1.1.2 fun r fixes => (held r fixes).2.1
          have second := child (.tail _ (.head _)) avoids.1.2 fun r fixes => (held r fixes).2.2.1
          have third := child (.tail _ (.tail _ (.head _))) avoids.2 fun r fixes => (held r fixes).2.2.2
          simp only [Value.rename, mark avoids.1.1.1 fun r fixes => (held r fixes).1, first, second, third]
      | checkRun m a b c d =>
          simp only [Value.avoids, Bool.and_eq_true] at avoids
          simp only [Settled, Value.rename, Value.checkRun.injEq] at held
          have first := child (.head _) avoids.1.1.1.2 fun r fixes => (held r fixes).2.1
          have second := child (.tail _ (.head _)) avoids.1.1.2 fun r fixes => (held r fixes).2.2.1
          have third := child (.tail _ (.tail _ (.head _))) avoids.1.2 fun r fixes => (held r fixes).2.2.2.1
          have fourth := child (.tail _ (.tail _ (.tail _ (.head _)))) avoids.2 fun r fixes =>
            (held r fixes).2.2.2.2
          simp only [Value.rename, mark avoids.1.1.1.1 fun r fixes => (held r fixes).1, first, second, third, fourth]

/-- So is a frame. -/
theorem apart_frame (rooted : Rooted s) {frame : Frame} (avoids : frame.Avoids own)
    (fixed : Fixed Frame.rename s frame) : frame.rename (apart own s gave positive) = frame := by
  obtain ⟨bindings, card, m⟩ := frame
  have value {v : Value} (avoids : v.avoids own) (fixed : Settled s v) : v.rename (apart own s gave positive) = v :=
    apart_value gave positive rooted avoids fixed
  have part (get : Card → Value) (renamed : ∀ r card, get (Card.rename r card) = (get card).rename r)
      (avoids : (get card).avoids own) : (get card).rename (apart own s gave positive) = get card :=
    value avoids fun r fixes => by
      rw [← renamed]
      exact congrArg (fun frame => get frame.card) (fixed r fixes)
  have shown := avoids.card
  simp only [List.forall_mem_cons] at shown
  have entries : named (apart own s gave positive) bindings = bindings := by
    refine (List.map_congr_left fun e member => ?_).trans (List.map_id _)
    have settled : Settled s e.2 := fun r fixes => by
      have same : named r bindings = bindings := congrArg Frame.bindings (fixed r fixes)
      exact congrArg Prod.snd (map_fixed same e member)
    exact Prod.ext rfl (value (avoids.bindings e member) settled)
  have marked : (apart own s gave positive).mark m = m :=
    apart_mark_of_kept gave positive avoids.mark
      (rooted.mark_lt fun r fixes => congrArg Frame.mark (fixed r fixes))
  have cards : Card.rename (apart own s gave positive) card = card := by
    simp only [Card.rename, part Card.name (fun _ _ => rfl) shown.1, part Card.path (fun _ _ => rfl) shown.2.1,
      part Card.doc (fun _ _ => rfl) shown.2.2.1, part Card.home (fun _ _ => rfl) shown.2.2.2.1,
      part Card.defaults (fun _ _ => rfl) shown.2.2.2.2.1, part Card.namedDefaults (fun _ _ => rfl) shown.2.2.2.2.2.1,
      part Card.annotations (fun _ _ => rfl) shown.2.2.2.2.2.2.1]
  exact Frame.mk.injEq .. ▸ ⟨entries, cards, marked⟩

end Renaming

theorem Store.without_settled {own : List Nat} {s : Store} {v : Value} (settled : Settled s v) :
    Settled (s.without own) v :=
  settled.later (Nat.le_refl _) (Nat.le_refl _)

theorem Rooted.without {s : Store} (rooted : Rooted s) (own : List Nat) : Rooted (s.without own) where
  image r fixes := by
    have image := rooted.image r ⟨fixes.marks, fixes.frames, fixes.scopes, fixes.alone⟩
    refine ⟨image.frames, ?_, image.contents, image.tables, image.given, image.namespaces, image.entered,
      image.session, image.stack, image.out⟩
    have same : s.tallies.map (Prod.map r.mark r.entry) = s.tallies := by
      simpa [fixes.alone] using image.tallies.symm
    have kept : (s.tallies.filter (!own.contains ·.1)).map (Prod.map r.mark r.entry) =
        s.tallies.filter (!own.contains ·.1) :=
      (List.map_congr_left fun e member => map_fixed same e (List.mem_of_mem_filter member)).trans (List.map_id _)
    simpa [Store.without, fixes.alone] using kept.symm
  positive := rooted.positive
  opened := rooted.opened
  room := rooted.room

/-- A store without some names of its session. -/
def Store.forget (names : List String) (s : Store) : Store :=
  { s with session := s.session.filter (!names.contains ·.1) }

@[simp] theorem Store.forget_nextMark (names : List String) (s : Store) : (s.forget names).nextMark = s.nextMark := rfl

theorem Store.forget_settled {names : List String} {s : Store} {v : Value} (settled : Settled s v) :
    Settled (s.forget names) v :=
  settled.later (Nat.le_refl _) (Nat.le_refl _)

theorem Rooted.forget {s : Store} (rooted : Rooted s) (names : List String) : Rooted (s.forget names) where
  image r fixes := by
    have image := rooted.image r ⟨fixes.marks, fixes.frames, fixes.scopes, fixes.alone⟩
    refine ⟨image.frames, image.tallies, image.contents, image.tables, image.given, image.namespaces, image.entered,
      ?_, image.stack, image.out⟩
    exact ((List.map_congr_left fun e member =>
      map_fixed image.session.symm e (List.mem_of_mem_filter member)).trans (List.map_id _)).symm
  positive := rooted.positive
  opened := rooted.opened
  room := rooted.room

section

variable {own : List Nat} {s : Store} (rooted : Rooted s) (gave : s.Gave own) (avoids : s.Avoids own)
include rooted avoids

/-- The store is an image of itself without the tallies. -/
theorem Store.Avoids.image :
    Image (Renaming.apart own s gave rooted.positive) (s.without own) (s.skip s.nextMark) := by
  have value {v : Value} (avoids : v.avoids own) (fixed : Settled s v) :
      v.rename (Renaming.apart own s gave rooted.positive) = v := apart_value gave rooted.positive rooted avoids fixed
  have mark {m : Nat} (kept : m ∉ own) (fixed : Fixed Renaming.mark s m) :
      (Renaming.apart own s gave rooted.positive).mark m = m :=
    apart_mark_of_kept gave rooted.positive kept (rooted.mark_lt fixed)
  have each {α : Type} (F : Renaming → α → α) (xs : List α) (fixed : ∀ r : Renaming, r.Fixes s → xs = xs.map (F r))
      (same : ∀ x ∈ xs, Fixed F s x → F (Renaming.apart own s gave rooted.positive) x = x) :
      xs = xs.map (F (Renaming.apart own s gave rooted.positive)) :=
    ((List.map_congr_left fun x member => same x member
      (Fixed.mem (F := F) (fun r fixes => (fixed r fixes).symm) x member)).trans (List.map_id _)).symm
  have image := rooted.image
  refine ⟨⟨fun _ => Iff.rfl, fun id => ?_, fun id _ outside => absurd rfl (outside id)⟩, ?_, ?_, ?_, ?_, ?_, ?_, ?_,
    rfl, rfl⟩
  · by_cases below : id < s.frames.size
    · refine (apart_frame gave rooted.positive rooted (avoids.frames id below) fun r fixes => ?_).symm
      have held := (image r fixes).frames.held id
      rw [fixes.frames id below] at held
      exact held.symm
    · exact (frameAt_of_size_le (Nat.le_of_not_lt below)).trans
        ((frameAt_of_size_le (Nat.le_of_not_lt below)).symm ▸ (Frame.rename_empty _).symm)
  · refine each (fun r => Prod.map r.mark r.entry) (s.tallies.filter (!own.contains ·.1))
      (fun r fixes => ?_) fun e member fixed => ?_
    · have held := ((rooted.without own).image r ⟨fixes.marks, fixes.frames, fixes.scopes, fixes.alone⟩).tallies
      simpa [Store.without, fixes.alone] using held
    · obtain ⟨listed, kept⟩ := List.mem_filter.mp member
      have kept : e.1 ∉ own := by simpa using kept
      obtain ⟨first, second⟩ := avoids.tallies e listed kept
      exact Prod.ext (mark kept fun r fixes => congrArg Prod.fst (fixed r fixes))
        (Prod.ext (value first fun r fixes => congrArg (·.2.1) (fixed r fixes))
          (value second fun r fixes => congrArg (·.2.2) (fixed r fixes)))
  · refine each (fun r => Prod.map r.mark (List.map (Value.rename r))) _ (fun r fixes => (image r fixes).contents)
      fun e member fixed => ?_
    obtain ⟨kept, items⟩ := avoids.contents e member
    have held : Fixed (fun r => List.map (Value.rename r)) s e.2 := fun r fixes => congrArg Prod.snd (fixed r fixes)
    exact Prod.ext (mark kept fun r fixes => congrArg Prod.fst (fixed r fixes))
      ((List.map_congr_left fun v member => value (items v member) (held.mem v member)).trans (List.map_id _))
  · refine each (fun r => Prod.map r.mark (List.map r.entry)) _ (fun r fixes => (image r fixes).tables)
      fun e member fixed => ?_
    obtain ⟨kept, entries⟩ := avoids.tables e member
    have held : Fixed (fun r => List.map r.entry) s e.2 := fun r fixes => congrArg Prod.snd (fixed r fixes)
    refine Prod.ext (mark kept fun r fixes => congrArg Prod.fst (fixed r fixes))
      ((List.map_congr_left fun entry member => ?_).trans (List.map_id _))
    have pair := held.mem entry member
    exact Prod.ext (value (entries entry member).1 fun r fixes => congrArg Prod.fst (pair r fixes))
      (value (entries entry member).2 fun r fixes => congrArg Prod.snd (pair r fixes))
  · refine each (fun r => Prod.map (Prod.map r.holder id) (Value.rename r)) _ (fun r fixes => (image r fixes).given)
      fun e member fixed => ?_
    obtain ⟨⟨holder, name⟩, v⟩ := e
    have kept : (Renaming.apart own s gave rooted.positive).holder holder = holder := by cases holder <;> rfl
    exact Prod.ext (Prod.ext kept rfl) (value (avoids.given _ member) fun r fixes => congrArg Prod.snd (fixed r fixes))
  · refine each (fun r => Prod.map r.mark r.frame) _ (fun r fixes => (image r fixes).namespaces)
      fun e member fixed => ?_
    exact Prod.ext (mark (avoids.namespaces e member) fun r fixes => congrArg Prod.fst (fixed r fixes)) rfl
  · refine each (fun r => Prod.map r.mark id) _ (fun r fixes => (image r fixes).entered) fun e member fixed => ?_
    exact Prod.ext (mark (avoids.entered e member) fun r fixes => congrArg Prod.fst (fixed r fixes)) rfl
  · refine each (fun r => Prod.map id (Value.rename r)) _ (fun r fixes => (image r fixes).session)
      fun e member fixed => ?_
    exact Prod.ext rfl (value (avoids.session e member) fun r fixes => congrArg Prod.snd (fixed r fixes))

end

namespace Twins

variable {T : Twins} {s : Store} (rooted : Rooted s) (gave : s.Gave T.own)

/-- Where a store is run from beside the same without some tallies. -/
noncomputable def aside (rooted : Rooted s) (gave : s.Gave T.own) : Stage :=
  ⟨Renaming.apart T.own s gave rooted.positive, s.without T.own, s.skip s.nextMark⟩

/-- What leads to none of the tallies stands for itself. -/
theorem aside_peer {v : Value} (avoids : v.avoids T.own) (settled : Settled s v) : Peer (aside rooted gave) v v :=
  ⟨Store.without_settled settled, (apart_value gave rooted.positive rooted avoids settled).symm⟩

/-- A function that leads to none of them sees what it saw. -/
theorem aside_sees (form : T.form = anyhow) (tallies : ∀ {w : Stage} {v : Value}, v.isTallyOf T.own →
      Settled w.left v → T.Twin w v v) {mark : Nat} {header : Header} {body : Term} {scope : Scope}
    (avoids : (Value.closure mark header body scope).avoids T.own)
    (settled : Settled s (.closure mark header body scope)) :
    T.Sees (aside rooted gave) (.closure mark header body scope) scope := by
  have entries : Fixed Renaming.named s scope := fun r fixes => by
    have same := settled r fixes
    rw [fixes.scopes.closure] at same
    injection same
  have apart := avoids
  simp only [Value.avoids, Bool.and_eq_true, Value.avoidsScope_iff] at apart
  refine ⟨mark, header, body, scope, _, rfl, Store.without_settled settled, form ▸ apart.2,
    entries.later (Nat.le_refl _) (Nat.le_refl _), fun name => ?_⟩
  cases found : scope.lookup name with
  | none => exact .absent
  | some v =>
      have member : (name, v) ∈ scope := by
        obtain ⟨before, after, rfl, -⟩ := List.lookup_eq_some_iff.mp found
        simp
      have held : Settled s v := fun r fixes => congrArg Prod.snd (map_fixed (entries r fixes) _ member)
      rcases apart.1.2 (name, v) member with tally | plain
      · have listed : name ∈ (scope.filter (·.2.isTallyOf T.own)).map (·.1) :=
          List.mem_map.mpr ⟨_, List.mem_filter.mpr ⟨member, tally⟩, rfl⟩
        exact .linked listed (.twin (tallies tally (Store.without_settled held)))
      · exact .plain (aside_peer rooted gave plain held)

theorem Sound.aside_start (avoids : s.Avoids T.own) (form : T.form = anyhow)
    (tallies : ∀ {w : Stage} {v : Value}, v.isTallyOf T.own → Settled w.left v → T.Twin w v v)
    (known : ∀ m ∈ T.known, m < s.nextMark ∧ m ∉ T.own) (holds : T.Holds (s.skip s.nextMark)) :
    T.Sound (aside rooted gave) where
  beside := by
    refine ⟨avoids.image rooted gave, fun i => ?_, fun _ => rfl⟩
    refine (apart_mark_of_le gave rooted.positive (Nat.le_add_right ..)).trans ?_
    exact Nat.add_right_comm ..
  rooted := rooted.without T.own
  below m inside := (apart_mark_le gave rooted.positive m).trans_lt (Nat.add_lt_add_right inside _)
  marked id inside := (rooted.frame_mark_lt id).trans_le (Nat.le_add_right ..)
  own := rfl
  owned m member := (gave.below m member).trans_le (Nat.le_add_right ..)
  keeps m member := ⟨(known m member).1, apart_mark_of_kept gave rooted.positive (known m member).2 (known m member).1⟩
  sees v scope' seen := by
    cases v with
    | closure mark header body scope =>
        by_cases apart : (Value.closure mark header body scope).avoids T.own ∧ Settled s (.closure mark header body scope)
        · obtain rfl : scope = scope' := Option.some.inj ((if_pos apart).symm.trans seen)
          exact aside_sees rooted gave form tallies apart.1 apart.2
        · cases (if_neg apart).symm.trans seen
    | _ => cases seen
  holds := holds

end Twins

end Knot
