import Knot.Proofs.Parallel.Calls

/-!
Machines with fuel side by side. Where the rule that they call by goes alike on machines that do, and twins
go alike on them, so do the machines with fuel for any number of levels. Then two computations come to the
same if they are parallel at a stage, the one with fuel to spare for the other.
-/

namespace Knot

open Run Renaming

namespace Machine

/-- What a call does, over the machine for what it calls in turn. -/
abbrev Rule := Machine → Value → List Value → Named → Run Value

/-- The machine with fuel for some levels of calls and evaluations, where calls go by a rule. -/
def levels (rule : Rule) : Nat → Machine
  | 0 => spent
  | n + 1 =>
      ⟨fun f args named => deeper (rule (levels rule n) f args named),
        fun expr env => deeper (Calculus.eval (levels rule n) expr env)⟩

theorem levels_callValue (n : Nat) : levels callValue n = ofFuel n := by
  induction n with
  | zero => rfl
  | succ n ih => rw [levels, ofFuel, ih]

theorem levels_call {rule : Rule} {s : Store} (room : s.stack.room = none) (n : Nat) (f : Value)
    (args : List Value) (named : Named) :
    (levels rule (n + 1)).call f args named s = rule (levels rule n) f args named s := by
  change deeper _ s = _
  simp [deeper, room]

end Machine

/-- How much fuel the two runs have: enough for the second one to end where the first one does, though it
goes some more levels deep for each of its own, or the other way round. -/
def Way.Paced (way : Way) (more n m : Nat) : Prop :=
  match way with
  | .forth => (more + 1) * n ≤ m
  | .back => m ≤ n

/-- The same holds one level deeper. -/
theorem Way.Paced.pred {way : Way} {more n m : Nat} (paced : way.Paced more (n + 1) (m + 1)) :
    way.Paced more n m := by
  cases way with
  | forth =>
      simp only [Paced, Nat.mul_succ] at paced ⊢
      omega
  | back => exact Nat.le_of_succ_le_succ paced

namespace Twins

variable {T : Twins} {way : Way} {w : Stage} {rule : Machine.Rule} {more : Nat}

/-- Rules that go alike on machines that do, and by which twins go alike. -/
structure Lawful (T : Twins) (way : Way) (rule : Machine.Rule) (more : Nat) : Prop where
  call : ∀ {k k' : Machine}, T.Companions way k k' → ∀ {w : Stage} {f f' : Value}
    {args args' : List Value} {named named' : Named}, Peer w f f' → Peers w args args' →
      PeersNamed w named named' → T.Parallel way w Peer (rule k f args named) (rule k' f' args' named')
  handed : ∀ {k k' : Machine}, T.Companions way k k' → ∀ {w : Stage} {f f' u v : Value}
    {args args' : List Value}, f.OnlyCalls T.form → Peer w f f' → T.Linked w u v →
      Peers w args args' → T.Parallel way w Peer (rule k f (u :: args) []) (rule k' f' (v :: args') [])
  counted : ∀ {k k' : Machine}, T.Companions way k k' → ∀ {w : Stage} {mark mark' : Nat}
    {u v tally tally' : Value} {args args' : List Value} {named named' : Named},
      Via Renaming.mark w mark mark' → T.Linked w u v → Peer w tally tally' → Peers w args args' →
        PeersNamed w named named' → T.Admits args named → T.Parallel way w Peer
          (rule k (.countedThunk mark u tally) args named) (rule k' (.countedThunk mark' v tally') args' named')
  twin : ∀ {n m : Nat}, way.Paced more n m →
    (∀ {n' m' : Nat}, n' + m' < n + m → way.Paced more n' m' →
      T.Companions way (.levels rule n') (.levels rule m')) →
    ∀ {w : Stage} {u v : Value} {args args' : List Value} {named named' : Named}, T.Twin w u v →
      Peers w args args' → PeersNamed w named named' → T.Admits args named →
        T.Parallel way w Peer ((Machine.levels rule n).call u args named)
          ((Machine.levels rule m).call v args' named')

/-- A run without fuel goes alike with any other one, as long as it is the one that may be short. -/
theorem Parallel.short {α β : Type} {R : Stage → α → β → Prop} {x : Run α} {y : Run β}
    (short : way = .forth ∧ (∃ t, x w.left = .error .outOfFuel t) ∨
      way = .back ∧ ∃ s, y w.right = .error .outOfFuel s) : T.Parallel way w R x y := by
  intro _
  rcases short with ⟨forth, t, run⟩ | ⟨back, s, run⟩
  · rw [run]
    exact .forth forth
  · rw [run]
    exact .back back

theorem Companions.short {k k' : Machine} (short : way = .forth ∧ k = .spent ∨ way = .back ∧ k' = .spent) :
    T.Companions way k k' := by
  have calls (f f' : Value) (args args' : List Value) (named named' : Named) (w : Stage) :
      T.Parallel way w Peer (k.call f args named) (k'.call f' args' named') := by
    rcases short with ⟨forth, rfl⟩ | ⟨back, rfl⟩
    · exact .short (.inl ⟨forth, _, rfl⟩)
    · exact .short (.inr ⟨back, _, rfl⟩)
  have evaluates (expr expr' env env' : Value) (w : Stage) :
      T.Parallel way w Peer (k.evaluate expr env) (k'.evaluate expr' env') := by
    rcases short with ⟨forth, rfl⟩ | ⟨back, rfl⟩
    · exact .short (.inl ⟨forth, _, rfl⟩)
    · exact .short (.inr ⟨back, _, rfl⟩)
  exact ⟨fun _ _ _ => calls _ _ _ _ _ _ _, fun _ _ => evaluates _ _ _ _ _,
    fun _ _ _ _ => calls _ _ _ _ _ _ _, fun _ _ _ _ => calls _ _ _ _ _ _ _⟩

/-- Calls go alike that do by the rule one level deeper. -/
theorem Parallel.level {n m : Nat} (paced : way.Paced more n m) {f f' : Value} {args args' : List Value}
    {named named' : Named} (step : ∀ {n' m'}, n = n' + 1 → m = m' + 1 → way.Paced more n' m' →
      T.Parallel way w Peer (rule (.levels rule n') f args named) (rule (.levels rule m') f' args' named')) :
    T.Parallel way w Peer ((Machine.levels rule n).call f args named) ((Machine.levels rule m).call f' args' named') := by
  cases n with
  | zero =>
      cases way with
      | forth => exact .short (.inl ⟨rfl, _, rfl⟩)
      | back =>
          obtain rfl := Nat.le_zero.mp paced
          exact .short (.inr ⟨rfl, _, rfl⟩)
  | succ n =>
      cases m with
      | zero =>
          cases way with
          | forth => simp [Way.Paced, Nat.mul_succ] at paced
          | back => exact .short (.inr ⟨rfl, _, rfl⟩)
      | succ m => exact (step rfl rfl paced.pred).deeper

namespace Lawful

variable (lawful : T.Lawful way rule more)
include lawful

/-- Twins go alike, and so do thunks that count calls of twins. -/
theorem linked {n m : Nat} (companions : T.Companions way (.levels rule n) (.levels rule m))
    (twins : ∀ {w : Stage} {u v : Value} {args args' : List Value} {named named' : Named},
      T.Twin w u v → Peers w args args' → PeersNamed w named named' →
        T.Admits args named → T.Parallel way w Peer ((Machine.levels rule (n + 1)).call u args named)
          ((Machine.levels rule (m + 1)).call v args' named'))
    {u v : Value} {args args' : List Value} {named named' : Named} (linked : T.Linked w u v)
    (peers : Peers w args args') (keys : PeersNamed w named named')
    (admits : T.Admits args named) :
    T.Parallel way w Peer ((Machine.levels rule (n + 1)).call u args named)
      ((Machine.levels rule (m + 1)).call v args' named') := by
  cases linked with
  | twin twin => exact twins twin peers keys admits
  | counted marks linked tallies =>
      exact Parallel.deeper (lawful.counted companions marks linked tallies peers keys admits)

/-- The machines with fuel go alike. -/
theorem companions {n m : Nat} (paced : way.Paced more n m) :
    T.Companions way (.levels rule n) (.levels rule m) := by
  induction total : n + m using Nat.strong_induction_on generalizing n m with
  | _ total ih =>
      subst total
      have before {n' m' : Nat} (less : n' + m' < n + m) (paced : way.Paced more n' m') :
          T.Companions way (.levels rule n') (.levels rule m') := ih _ less paced rfl
      cases n with
      | zero =>
          cases way with
          | forth => exact .short (.inl ⟨rfl, rfl⟩)
          | back =>
              obtain rfl := Nat.le_zero.mp paced
              exact .short (.inr ⟨rfl, rfl⟩)
      | succ n =>
          cases m with
          | zero =>
              cases way with
              | forth => simp [Way.Paced, Nat.mul_succ] at paced
              | back => exact .short (.inr ⟨rfl, rfl⟩)
          | succ m =>
              have inner : T.Companions way (.levels rule n) (.levels rule m) :=
                before (by omega) paced.pred
              exact ⟨fun fs peers keys => (lawful.call inner fs peers keys).deeper,
                fun exprs envs => (inner.eval exprs envs).deeper,
                fun linked peers keys admits =>
                  lawful.linked inner (lawful.twin paced before) linked peers keys admits,
                fun only fs linked peers => (lawful.handed inner only fs linked peers).deeper⟩

end Lawful

end Twins

/-! What computations come to. -/

/-- The end of a run with a value or a fault. -/
def Ended {α : Type} (x : EStateM.Result Stop Store α) : Prop := ∀ s, x ≠ .error .outOfFuel s

/-- Ends of two runs that programs cannot tell apart: values that are the same but for what was numbered
in the runs, or faults that show the same, and the same text printed. Where it is loose, what broken
contracts show need not be the same. -/
inductive Matched (loose : Prop) :
    EStateM.Result Stop Store Value → EStateM.Result Stop Store Value → Prop
  | ok {v v' : Value} {t s : Store} (r : Renaming) : v' = v.rename r → s.out = t.out →
      Matched loose (.ok v t) (.ok v' s)
  | fault {f f' : Fault} {t s : Store} : Fault.Like loose f f' → s.out = t.out →
      Matched loose (.error (.fault f) t) (.error (.fault f') s)

/-- Computations that come to the same, each with whatever fuel it takes: where either of them ends, the
other one does too, and their ends match. -/
structure SameOutcome (loose : Prop) (x y : Nat → EStateM.Result Stop Store Value) : Prop where
  forth : ∀ n, Ended (x n) → ∃ m, Matched loose (x n) (y m)
  back : ∀ m, Ended (y m) → ∃ n, Matched loose (x n) (y m)

namespace Matched

variable {loose : Prop} {x y : EStateM.Result Stop Store Value}

theorem left (matched : Matched loose x y) : Ended x := by
  intro s
  cases matched <;> simp

theorem right (matched : Matched loose x y) : Ended y := by
  intro s
  cases matched <;> simp

end Matched

/-- Where one of them never ends, the other one does not either. -/
theorem SameOutcome.endless {loose : Prop} {x y : Nat → EStateM.Result Stop Store Value}
    (same : SameOutcome loose x y) : (∀ n, ¬Ended (x n)) ↔ ∀ m, ¬Ended (y m) := by
  constructor
  · intro never m ended
    obtain ⟨n, matched⟩ := same.back m ended
    exact never n matched.left
  · intro never n ended
    obtain ⟨m, matched⟩ := same.forth n ended
    exact never m matched.right

/-! Where computations start from one store. -/

/-- What is settled in the store where two runs start stands for itself. -/
theorem Settled.peer {s t : Store} {names : Renaming} {v : Value} (settled : Settled s v)
    (rooted : Rooted s) (agrees : Renaming.same.Agrees names s) : Peer ⟨names, s, t⟩ v v :=
  ⟨settled, (settled _ (Renaming.same_fixes s)).symm.trans
    (Natural.value.agree rooted agrees settled).symm⟩

theorem Rooted.skip {s : Store} (rooted : Rooted s) (n : Nat) : Rooted (s.skip n) where
  image r fixes :=
    have image := rooted.image r ⟨fun m below => fixes.marks m (Nat.lt_add_right n below),
      fixes.frames, fixes.scopes, fixes.alone⟩
    ⟨image.frames, image.tallies, image.contents, image.tables, image.given, image.namespaces,
      image.entered, image.session, image.stack, image.out⟩
  positive := Nat.add_pos_left rooted.positive n
  opened := rooted.opened
  room := rooted.room

namespace Twins

variable {T : Twins} {w : Stage}

/-- Two runs that start from one store, the second one after it made tallies of its own. -/
theorem Sound.start {s t : Store} (rooted : Rooted s) (known : ∀ m ∈ T.known, m < s.nextMark)
    (adds : Adds T.own s t) (own : ∀ m ∈ T.own, s.nextMark ≤ m ∧ m < t.nextMark)
    (alone : t.tallies.filter (!T.own.contains ·.1) = s.tallies) (holds : T.Holds t) :
    ∃ names, Renaming.same.Agrees names s ∧ T.Sound ⟨names, s, t⟩ := by
  have bounded : Renaming.same.Bounded T.own s t :=
    ⟨rooted.positive, rooted.opened, fun m below => below.trans_le adds.marks,
      fun id below => below.trans_le adds.size, fun m member => (own m member).2,
      fun m member x below => (below.trans_le (own m member).1).ne⟩
  have agrees := onward_agrees bounded
  have marked : ∀ id < s.frames.size, (s.frame id).mark < s.nextMark := fun id _ => rooted.frame_mark_lt id
  have beside := onward_beside rooted ⟨rooted.image _ (Renaming.same_fixes s), fun _ => rfl, fun _ => rfl⟩
    (fun _ below => below) marked adds bounded (alone.trans (by simp [Renaming.same]))
  exact ⟨_, agrees, beside, rooted, fun m below => agrees.marks m below ▸ bounded.marks m below,
    adds.marked marked, rfl, fun m member => (own m member).2,
    fun m member => ⟨known m member, agrees.marks m (known m member)⟩, fun _ _ seen => (by cases seen), holds⟩

theorem Ends.matched {way : Way} {x y : EStateM.Result Stop Store Value} (ends : T.Ends way w Peer x y)
    (ended : way = .forth ∧ Ended x ∨ way = .back ∧ Ended y) : Matched T.loose x y := by
  cases ends with
  | ok _ sound peer => exact .ok _ peer.eq sound.beside.image.out
  | fault _ sound like => exact .fault like sound.beside.image.out
  | forth forth =>
      rcases ended with ⟨_, ended⟩ | ⟨back, _⟩
      · exact absurd rfl (ended _)
      · cases forth.symm.trans back
  | back back =>
      rcases ended with ⟨forth, _⟩ | ⟨_, ended⟩
      · cases back.symm.trans forth
      · exact absurd rfl (ended _)

/-- Computations come to the same that are parallel, the one with fuel to spare for the other. -/
theorem Sound.sameOutcome (sound : T.Sound w) {x y : Nat → Run Value}
    (forth : ∀ n, ∃ m, T.Parallel .forth w Peer (x n) (y m))
    (back : ∀ m, ∃ n, T.Parallel .back w Peer (x n) (y m)) :
    SameOutcome T.loose (fun n => x n w.left) (fun m => y m w.right) where
  forth n ended := by
    obtain ⟨m, parallel⟩ := forth n
    exact ⟨m, (parallel sound).matched (.inl ⟨rfl, ended⟩)⟩
  back m ended := by
    obtain ⟨n, parallel⟩ := back m
    exact ⟨n, (parallel sound).matched (.inr ⟨rfl, ended⟩)⟩

end Twins

end Knot
