import Knot.Proofs.Calls.Arguments

/-!
Renamings that agree on the marks and the frames that a store has given out. What the store holds, and
what is settled in it, they rename alike, so an image of the store is one under either of them.
-/

namespace Knot

open Run Renaming

/-- Renamings that say the same of what a store has given out. -/
structure Renaming.Agrees (r r' : Renaming) (t : Store) : Prop where
  marks : ∀ m < t.nextMark, r'.mark m = r.mark m
  frames : ∀ id < t.frames.size, r'.frame id = r.frame id
  sees : ∀ v, Settled t v → r'.sees v = r.sees v

/-- What renamings that leave alone what a store has given out leave alone too. -/
def Fixed {α : Type} (F : Renaming → α → α) (t : Store) (a : α) : Prop :=
  ∀ r : Renaming, r.Fixes t → F r a = a

/-- Renamings that agree do the same to what is fixed. -/
structure Natural {α : Type} (F : Renaming → α → α) : Prop where
  agree : ∀ {t : Store} {r r' : Renaming} {a : α}, Rooted t → r.Agrees r' t → Fixed F t a →
    F r' a = F r a

variable {α β : Type} {r r' : Renaming} {s s' t t' : Store}

theorem Renaming.Agrees.refl (r : Renaming) (t : Store) : r.Agrees r t :=
  ⟨fun _ _ => rfl, fun _ _ => rfl, fun _ _ => rfl⟩

theorem Fixed.later {F : Renaming → α → α} {a : α} (fixed : Fixed F t a)
    (marks : t.nextMark ≤ t'.nextMark) (frames : t.frames.size ≤ t'.frames.size) : Fixed F t' a :=
  fun r fixes => fixed r
    ⟨fun m below => fixes.marks m (below.trans_le marks),
      fun id below => fixes.frames id (below.trans_le frames), fixes.scopes, fixes.alone⟩

theorem Settled.later {v : Value} (settled : Settled t v) (marks : t.nextMark ≤ t'.nextMark)
    (frames : t.frames.size ≤ t'.frames.size) : Settled t' v :=
  Fixed.later (F := Value.rename) settled marks frames

theorem map_fixed {f : α → α} {xs : List α} (same : xs.map f = xs) : ∀ x ∈ xs, f x = x :=
  List.map_inj_left.mp (same.trans (List.map_id xs).symm)

/-- What a session has a name for is settled in its store. -/
theorem Held.settled {s : Store} {scope : Scope} (session : Held s scope) {name : String} {v : Value}
    (listed : (name, v) ∈ scope) : Settled s v :=
  fun r fixes => congrArg Prod.snd (map_fixed (session.rooted.2 r fixes) (name, v) listed)

theorem Fixed.mem {F : Renaming → α → α} {xs : List α} (fixed : Fixed (fun r => List.map (F r)) t xs) :
    ∀ x ∈ xs, Fixed F t x :=
  fun x member r fixes => map_fixed (fixed r fixes) x member

theorem Rooted.frame_lt (rooted : Rooted t) {id : Nat} (fixed : Fixed Renaming.frame t id) :
    id < t.frames.size := by
  have fixes : (Renaming.shiftFrame t.frames.size rooted.opened).Fixes t :=
    ⟨fun _ _ => rfl, fun _ below => if_pos below, fun _ => rfl, rfl⟩
  have moved := fixed _ fixes
  simp only [Renaming.shiftFrame] at moved
  split at moved
  · assumption
  · omega

/-! Being natural, for what runs give. -/

namespace Natural

theorem const : Natural fun _ => (id : α → α) := ⟨fun _ _ _ => rfl⟩

theorem mark : Natural Renaming.mark :=
  ⟨fun rooted agrees fixed => agrees.marks _ (rooted.mark_lt fixed)⟩

theorem frame : Natural Renaming.frame :=
  ⟨fun rooted agrees fixed => agrees.frames _ (rooted.frame_lt fixed)⟩

theorem list {F : Renaming → α → α} (natural : Natural F) : Natural fun r => List.map (F r) :=
  ⟨fun rooted agrees fixed => List.map_congr_left fun x member =>
    natural.agree rooted agrees (fixed.mem x member)⟩

theorem option {F : Renaming → α → α} (natural : Natural F) : Natural fun r => Option.map (F r) where
  agree {t r r' a} rooted agrees fixed := by
    cases a with
    | none => rfl
    | some a =>
        have held : Fixed F t a := fun r fixes => Option.some.inj (fixed r fixes)
        exact congrArg some (natural.agree rooted agrees held)

theorem pair {F : Renaming → α → α} {G : Renaming → β → β} (first : Natural F) (second : Natural G) :
    Natural fun r => Prod.map (F r) (G r) where
  agree {t r r' a} rooted agrees fixed := by
    have left : Fixed F t a.1 := fun r fixes => congrArg Prod.fst (fixed r fixes)
    have right : Fixed G t a.2 := fun r fixes => congrArg Prod.snd (fixed r fixes)
    exact Prod.ext (first.agree rooted agrees left) (second.agree rooted agrees right)

theorem value : Natural Value.rename := by
  refine ⟨fun {t r r' v} rooted agrees settled => ?_⟩
  induction size : sizeOf v using Nat.strong_induction_on generalizing v with
  | _ n ih =>
      subst size
      have mark {m : Nat} (fixed : Fixed Renaming.mark t m) : r'.mark m = r.mark m :=
        Natural.mark.agree rooted agrees fixed
      have frame {m : Nat} (fixed : Fixed Renaming.frame t m) : r'.frame m = r.frame m :=
        Natural.frame.agree rooted agrees fixed
      have child {u : Value} (member : u ∈ v.children) (fixed : Settled t u) :
          u.rename r' = u.rename r := ih _ (Value.sizeOf_lt_of_mem_children member) fixed rfl
      have held := settled
      cases v with
      | none | bool | int | str | kind | builtin | member | inert | recurring => rfl
      | float m | range m =>
          simp only [Fixed, Value.rename, Value.float.injEq, Value.range.injEq, and_true] at held
          simp only [Value.rename, mark held]
      | list m items | tuple m items | array m dtype shape items =>
          simp only [Fixed, Value.rename, Value.renameAll_eq, Value.list.injEq, Value.tuple.injEq,
            Value.array.injEq, true_and] at held
          have each : items.map (·.rename r') = items.map (·.rename r) :=
            List.map_congr_left fun u member => child member
              (Fixed.mem (F := Value.rename) (fun r fixes => (held r fixes).2) u member)
          simp only [Value.rename, Value.renameAll_eq, mark fun r fixes => (held r fixes).1, each]
      | dict m entries =>
          simp only [Fixed, Value.rename, Value.renameEntries_eq, Value.dict.injEq] at held
          have each : entries.map r'.entry = entries.map r.entry :=
            List.map_congr_left fun e member => by
              have pair := Fixed.mem (F := Renaming.entry) (fun r fixes => (held r fixes).2) e member
              have key := child (List.mem_append_left _ (List.mem_map_of_mem member))
                fun r fixes => congrArg Prod.fst (pair r fixes)
              have value := child (List.mem_append_right _ (List.mem_map_of_mem member))
                fun r fixes => congrArg Prod.snd (pair r fixes)
              simp only [Renaming.entry, key, value]
          simp only [Value.rename, Value.renameEntries_eq, mark fun r fixes => (held r fixes).1, each]
      | closure m header body scope =>
          have kept : ∀ r : Renaming, r.Fixes t → r.mark m = m ∧ r.named scope = scope := by
            intro r fixes
            have same := held r fixes
            rw [fixes.scopes.closure] at same
            injection same with marks _ _ scopes
            exact ⟨marks, scopes⟩
          have each : r'.named scope = r.named scope :=
            List.map_congr_left fun e member => by
              have pair := Fixed.mem (F := fun r => Prod.map id (Value.rename r))
                (fun r fixes => (kept r fixes).2) e member
              have below : sizeOf e < sizeOf scope := List.sizeOf_lt_of_mem member
              obtain ⟨name, u⟩ := e
              have seen : u.rename r' = u.rename r := ih (sizeOf u) (by simp at below ⊢; omega)
                (fun r fixes => congrArg Prod.snd (pair r fixes)) rfl
              simp only [Prod.map, seen]
          simp only [named] at each
          simp only [Value.rename, Value.renameScope_eq, mark fun r fixes => (kept r fixes).1,
            agrees.sees _ settled, each]
      | frame id =>
          simp only [Fixed, Value.rename, Value.frame.injEq] at held
          simp only [Value.rename, frame held]
      | environment id outer =>
          simp only [Fixed, Value.rename, Value.environment.injEq] at held
          have first := child (.head _) fun r fixes => (held r fixes).2
          simp only [Value.rename, frame fun r fixes => (held r fixes).1, first]
      | method m a | var m a | thunk m a | manager m a =>
          simp only [Fixed, Value.rename, Value.method.injEq, Value.var.injEq, Value.thunk.injEq,
            Value.manager.injEq, and_true] at held
          have first := child (.head _) fun r fixes => (held r fixes).2
          simp only [Value.rename, mark fun r fixes => (held r fixes).1, first]
      | procedure m a b | countedThunk m a b | tally m a b | limited m a b | counted m name a b =>
          simp only [Fixed, Value.rename, Value.procedure.injEq, Value.countedThunk.injEq,
            Value.tally.injEq, Value.limited.injEq, Value.counted.injEq, true_and] at held
          have first := child (.head _) fun r fixes => (held r fixes).2.1
          have second := child (.tail _ (.head _)) fun r fixes => (held r fixes).2.2
          simp only [Value.rename, mark fun r fixes => (held r fixes).1, first, second]
      | application m a b c =>
          simp only [Fixed, Value.rename, Value.application.injEq] at held
          have first := child (.head _) fun r fixes => (held r fixes).2.1
          have second := child (.tail _ (.head _)) fun r fixes => (held r fixes).2.2.1
          have third := child (.tail _ (.tail _ (.head _))) fun r fixes => (held r fixes).2.2.2
          simp only [Value.rename, mark fun r fixes => (held r fixes).1, first, second, third]
      | checkRun m a b c d =>
          simp only [Fixed, Value.rename, Value.checkRun.injEq] at held
          have first := child (.head _) fun r fixes => (held r fixes).2.1
          have second := child (.tail _ (.head _)) fun r fixes => (held r fixes).2.2.1
          have third := child (.tail _ (.tail _ (.head _))) fun r fixes => (held r fixes).2.2.2.1
          have fourth := child (.tail _ (.tail _ (.tail _ (.head _)))) fun r fixes =>
            (held r fixes).2.2.2.2
          simp only [Value.rename, mark fun r fixes => (held r fixes).1, first, second, third, fourth]

theorem values : Natural fun r => List.map (Value.rename r) := list value

theorem entry : Natural Renaming.entry := pair value value

theorem entries : Natural fun r => List.map r.entry := list entry

theorem named : Natural Renaming.named := list (pair const value)

theorem holder : Natural fun r => Prod.map r.holder (id : String → String) where
  agree {t r r' a} rooted agrees fixed := by
    obtain ⟨holder, name⟩ := a
    cases holder with
    | kind k => rfl
    | environment id =>
        have inside : Fixed Renaming.frame t id := fun r fixes => by
          simpa [Renaming.holder] using fixed r fixes
        simp only [Prod.map, Renaming.holder, Natural.frame.agree rooted agrees inside]

theorem card : Natural Card.rename where
  agree {t r r' card} rooted agrees fixed := by
    have part (get : Card → Value) (renamed : ∀ r card, get (Card.rename r card) = (get card).rename r) :
        (get card).rename r' = (get card).rename r :=
      value.agree rooted agrees fun r fixes => by rw [← renamed, fixed r fixes]
    simp only [Card.rename, part Card.name fun _ _ => rfl, part Card.path fun _ _ => rfl,
      part Card.doc fun _ _ => rfl, part Card.home fun _ _ => rfl, part Card.defaults fun _ _ => rfl,
      part Card.namedDefaults fun _ _ => rfl, part Card.annotations fun _ _ => rfl]

theorem frames : Natural Frame.rename where
  agree {t r r' frame} rooted agrees fixed := by
    have bindings := named.agree rooted agrees (a := frame.bindings)
      fun r fixes => congrArg Frame.bindings (fixed r fixes)
    have shown := card.agree rooted agrees fun r fixes => congrArg Frame.card (fixed r fixes)
    have marked := mark.agree rooted agrees fun r fixes => congrArg Frame.mark (fixed r fixes)
    exact Frame.mk.injEq .. ▸ ⟨bindings, shown, marked⟩

end Natural

/-- A store that has more than another one, beside some tallies that it has for itself. -/
structure Adds (own : List Nat) (s s' : Store) : Prop where
  marks : s.nextMark ≤ s'.nextMark
  size : s.frames.size ≤ s'.frames.size
  same : ∀ id < s.frames.size, frameAt s'.frames id = frameAt s.frames id
  new : ∀ id < s'.frames.size, s.frames.size ≤ id →
    s.nextMark ≤ (s'.frame id).mark ∧ (s'.frame id).mark < s'.nextMark
  tallies : s'.tallies.filter (!own.contains ·.1) = s.tallies.filter (!own.contains ·.1)
  contents : s'.contents = s.contents
  tables : s'.tables = s.tables
  given : s'.given = s.given
  namespaces : s'.namespaces = s.namespaces
  entered : s'.entered = s.entered
  session : s'.session = s.session
  stack : s'.stack = s.stack
  out : s'.out = s.out

namespace Adds

variable {own : List Nat} {s s' s'' : Store}

theorem refl (own : List Nat) (s : Store) : Adds own s s :=
  ⟨Nat.le_refl _, Nat.le_refl _, fun _ _ => rfl, fun _ inside above => absurd inside (Nat.not_lt.mpr above),
    rfl, rfl, rfl, rfl, rfl, rfl, rfl, rfl, rfl⟩

theorem trans (first : Adds own s s') (second : Adds own s' s'') : Adds own s s'' where
  marks := first.marks.trans second.marks
  size := first.size.trans second.size
  same id below := (second.same id (below.trans_le first.size)).trans (first.same id below)
  new id inside above := by
    by_cases old : id < s'.frames.size
    · have held : s''.frame id = s'.frame id := second.same id old
      have new := first.new id old above
      rw [held]
      exact ⟨new.1, new.2.trans_le second.marks⟩
    · have new := second.new id inside (Nat.le_of_not_lt old)
      exact ⟨first.marks.trans new.1, new.2⟩
  tallies := second.tallies.trans first.tallies
  contents := second.contents.trans first.contents
  tables := second.tables.trans first.tables
  given := second.given.trans first.given
  namespaces := second.namespaces.trans first.namespaces
  entered := second.entered.trans first.entered
  session := second.session.trans first.session
  stack := second.stack.trans first.stack
  out := second.out.trans first.out

/-- The marks of frames are given out. -/
theorem marked (adds : Adds own s s') (marked : ∀ id < s.frames.size, (s.frame id).mark < s.nextMark) :
    ∀ id < s'.frames.size, (s'.frame id).mark < s'.nextMark := by
  intro id inside
  by_cases old : id < s.frames.size
  · have held : s'.frame id = s.frame id := adds.same id old
    exact held ▸ (marked id old).trans_le adds.marks
  · exact (adds.new id inside (Nat.le_of_not_lt old)).2

theorem did (own : List Nat) (s : Store) (d : Deed) : Adds own s (s.did d) :=
  ⟨Nat.le_refl _, Nat.le_refl _, fun _ _ => rfl, fun _ inside above => absurd inside (Nat.not_lt.mpr above),
    rfl, rfl, rfl, rfl, rfl, rfl, rfl, rfl, rfl⟩

/-- More marks are given out. -/
theorem skip (own : List Nat) (s : Store) (n : Nat) : Adds own s (s.skip n) :=
  ⟨Nat.le_add_right _ _, Nat.le_refl _, fun _ _ => rfl,
    fun _ inside above => absurd inside (Nat.not_lt.mpr above), rfl, rfl, rfl, rfl, rfl, rfl, rfl, rfl, rfl⟩

/-- A tally of its own is given counts. -/
theorem counts (s : Store) {mark : Nat} (owned : mark ∈ own) (counts : Value × Value) :
    Adds own s { s with tallies := s.tallies.assign mark counts } := by
  refine ⟨Nat.le_refl _, Nat.le_refl _, fun _ _ => rfl,
    fun _ inside above => absurd inside (Nat.not_lt.mpr above), ?_, rfl, rfl, rfl, rfl, rfl, rfl, rfl, rfl⟩
  exact Bindings.filter_assign_of_not (p := fun m => !own.contains m) counts s.tallies (by simpa using owned)

end Adds

/-- An image of a store is one under a renaming that agrees with the first one, whatever it adds for
itself, as far as what the store has not given out stands for nothing in it. -/
theorem Rooted.image_of_agrees (rooted : Rooted t) (agrees : r.Agrees r' t) (image : Image r t s)
    {own : List Nat} (adds : Adds own s s')
    (alone : s'.tallies.filter (!r'.own.contains ·.1) = s.tallies.filter (!r.own.contains ·.1))
    (inside : ∀ id, r'.frame id < s'.frames.size ↔ id < t.frames.size)
    (apart : ∀ id < s'.frames.size, (∀ j, r'.frame j ≠ id) → ∀ m, (frameAt s'.frames id).mark ≠ r'.mark m) :
    Image r' t s' where
  frames := by
    refine ⟨inside, fun id => ?_, apart⟩
    by_cases below : id < t.frames.size
    · have held : Fixed Frame.rename t (frameAt t.frames id) := fun r fixes => by
        have same := (rooted.image r fixes).frames.held id
        rw [fixes.frames id below] at same
        exact same.symm
      rw [agrees.frames id below, adds.same _ ((image.frames.inside id).mpr below), image.frames.held,
        Natural.frames.agree rooted agrees held]
    · have outside : ¬r'.frame id < s'.frames.size := fun h => below ((inside id).mp h)
      rw [frameAt_of_size_le (Nat.le_of_not_lt outside), frameAt_of_size_le (Nat.le_of_not_lt below)]
      simp
  tallies := by
    have held : Fixed (fun r => List.map (Prod.map r.mark r.entry)) t t.tallies := fun r fixes => by
      simpa [fixes.alone] using (rooted.image r fixes).tallies.symm
    rw [alone, image.tallies,
      (Natural.mark.pair .entry).list.agree rooted agrees held]
  contents := by
    have held : Fixed (fun r => List.map (Prod.map r.mark (List.map (Value.rename r)))) t t.contents :=
      fun r fixes => (rooted.image r fixes).contents.symm
    rw [adds.contents, image.contents, (Natural.mark.pair .values).list.agree rooted agrees held]
  tables := by
    have held : Fixed (fun r => List.map (Prod.map r.mark (List.map r.entry))) t t.tables :=
      fun r fixes => (rooted.image r fixes).tables.symm
    rw [adds.tables, image.tables, (Natural.mark.pair .entries).list.agree rooted agrees held]
  given := by
    have held : Fixed (fun r => List.map (Prod.map (Prod.map r.holder (id : String → String))
        (Value.rename r))) t t.given := fun r fixes => (rooted.image r fixes).given.symm
    rw [adds.given, image.given, (Natural.holder.pair .value).list.agree rooted agrees held]
  namespaces := by
    have held : Fixed (fun r => List.map (Prod.map r.mark r.frame)) t t.namespaces :=
      fun r fixes => (rooted.image r fixes).namespaces.symm
    rw [adds.namespaces, image.namespaces, (Natural.mark.pair .frame).list.agree rooted agrees held]
  entered := by
    have held : Fixed (fun r => List.map (Prod.map r.mark (id : Nat → Nat))) t t.entered :=
      fun r fixes => (rooted.image r fixes).entered.symm
    rw [adds.entered, image.entered, (Natural.mark.pair .const).list.agree rooted agrees held]
  session := by
    have held : Fixed (fun r => List.map (Prod.map (id : String → String) (Value.rename r))) t t.session :=
      fun r fixes => (rooted.image r fixes).session.symm
    rw [adds.session, image.session, (Natural.const.pair .value).list.agree rooted agrees held]
  stack := adds.stack.trans image.stack
  out := adds.out.trans image.out

end Knot
