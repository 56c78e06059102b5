import Knot.Proofs.FixedPoints.Comparison
import Knot.Proofs.FixedPoints.HostDelays

/-!
The fixed points of direct-style code. Self-application hands the code functions that apply a root to itself, adapted
code is handed functions that ask a thunk, and the calculus hands procedures of a parameter. Applied, each of them goes
on as the code does with another one, and what comes back gets the argument. So code that is held to its part has the
same fixed point in all three ways.
-/

namespace Knot

open Run Renaming Store Machine Calculus

namespace Twins

/-! What the ways hand the code. -/

/-- A delay over a thunk that stands for nothing in the first run. -/
def HidesAdapted (d : Value) (w : Stage) (p : Value) : Prop :=
  ∃ mark thunk generator name, p = adaptedDelay d mark thunk generator name ∧ w.HidesMark mark

/-- The delays of self-application beside those of the other two ways, each applied to one argument that stands for
itself. -/
def applications (d : Value) (known : Nat) : Twins where
  Twin w u v := ∃ mark root, u = selfDelay d mark root ∧ (known ≤ mark ∧ mark < w.left.nextMark) ∧
    root < w.left.nextMark ∧ (HidesAdapted d w v ∨ Delay.direct.HidesDelay d w v) ∧ Peer w d d
  form _ _ := false
  fits args := ∃ v : Value, args = [v] ∧ v.isInert
  known := List.range known
  settled := by
    rintro w u v ⟨mark, root, rfl, ⟨-, below⟩, known, -, codes⟩
    have scope : Fixed Renaming.named w.left (rootScope d) := fun r fixes => by
      simp [rootScope, Renaming.named, codes.fixed r fixes, outermost, Value.rename]
    refine settled_closure below fun r fixes => ?_
    have roots : (selfRoot d root).rename r = selfRoot d root := settled_closure known scope r fixes
    rw [Renaming.named, List.map_cons, Prod.map_apply, roots, id]
    exact congrArg _ (scope r fixes)
  later := by
    rintro w w' u v leads ⟨mark, root, rfl, ⟨above, below⟩, known, delay, codes⟩
    refine ⟨mark, root, rfl, ⟨above, below.trans_le leads.marks⟩, known.trans_le leads.marks, ?_,
      Peer.later codes leads⟩
    refine delay.imp ?_ fun hides => hides.later leads
    rintro ⟨mark, thunk, generator, name, rfl, hides⟩
    exact ⟨mark, thunk, generator, name, rfl, hides.later leads⟩

section

variable {h : Handing} {known : Nat} {way : Way} {w : Stage}
  (routine : h.code.isRoutine) (marks : ∀ m ∈ h.code.ownMarks, m < known) (direct : h.direct = true)
include marks

theorem applications_known : ∀ m ∈ h.code.ownMarks, m ∈ (applications h.code known).known :=
  fun m own => List.mem_range.mpr (marks m own)

theorem selfDelay_apart {mark : Nat} (above : known ≤ mark) (root : Nat) :
    h.code.same (selfDelay h.code mark root) = false := by
  refine Value.same_eq_false_of_apart rfl fun member => ?_
  exact absurd (marks mark member) (Nat.not_lt.mpr above)

theorem hidden_apart (sound : (applications h.code known).Sound w) {p : Value}
    (delay : HidesAdapted h.code w p ∨ Delay.direct.HidesDelay h.code w p) : h.code.same p = false := by
  rcases delay with ⟨mark, _, _, _, rfl, hides⟩ | ⟨_, _, _, -, ⟨mark, _, _, _, rfl, -, -, hides⟩, -⟩
  · exact sound.apart_hidden rfl hides (applications_known marks)
  · exact sound.apart_hidden rfl hides (applications_known marks)

omit marks in
theorem selfDelay_delays (direct : h.direct = true) (mark root : Nat) :
    h.gate.isDelay (selfDelay h.code mark root) = true := by
  simp [Handing.gate, direct, selfDelay, Value.isDelay]

include routine direct

theorem applications_hands : (applications h.code known).Hands h.gate where
  alike := h.gate_alike
  routine := routine
  known := applications_known marks
  delays := by
    rintro w u v ⟨mark, root, rfl, -, -, delay, -⟩
    rw [selfDelay_delays direct]
    simp only [Handing.gate, direct]
    rcases delay with ⟨_, _, _, _, rfl, -⟩ | ⟨_, _, _, -, ⟨_, _, _, _, rfl, -⟩, -⟩
    · exact adaptedDelay_isDelay ..
    · exact Value.isDelay_procedure.trans (by decide)
  apart := by
    rintro w u v sound ⟨mark, root, rfl, ⟨above, -⟩, -, delay, -⟩ -
    exact ⟨selfDelay_apart marks above root, hidden_apart marks sound delay⟩
  admits := by
    intro args named admits
    simp only [Handing.gate, Handing.admits, direct, Bool.not_true, Bool.false_or, Bool.and_eq_true, List.isEmpty_iff,
      beq_iff_eq, List.length_eq_one_iff] at admits
    obtain ⟨rfl, ⟨v, rfl⟩, inert⟩ := admits
    exact .inr ⟨⟨v, rfl, by simpa using inert⟩, rfl⟩
  sealed := by
    intro p q _ hides _
    refine .inr ⟨⟨q, rfl, ?_⟩, rfl⟩
    unfold Value.sealed? at hides
    split at hides
    · rfl
    · cases hides

end

/-! What the second run makes for the code. -/

/-- A delay for direct-style code that the second run made, beside a mark of the first one, since a stage. -/
inductive MakesDirect (d : Value) (w : Stage) (t : Store) : Value → Prop
  | adapted {mark thunk generator : Nat} {name : String} : w.right.nextMark < mark → mark < t.nextMark →
      MakesDirect d w t (adaptedDelay d mark thunk generator name)
  | calculus {root p : Value} : Delay.direct.MakesDelay (w.right.skip 1) t root p →
      Delay.direct.HidesRoot d w root ∨ Delay.direct.MakesRoot d (w.right.skip 1) t root → MakesDirect d w t p

section

variable {d : Value} {known : Nat} {w : Stage} {t : Store} {p : Value}

/-- The first run has made a delay of self-application then, and the two are twins. -/
theorem Sound.applies (sound : (applications d known).Sound w) (codes : Peer w d d) (above : known ≤ w.left.nextMark)
    {root : Nat} (rooted : root ≤ w.left.nextMark) (more : (w.right.skip 1).Extends t) (makes : MakesDirect d w t p) :
    ∃ names₁ names, (applications d known).Sound ⟨names₁, w.left.skip 1, w.right.skip 1⟩ ∧
      Stage.Leads ⟨names₁, w.left.skip 1, w.right.skip 1⟩ ⟨names, w.left.skip 1, t⟩ ∧
      (applications d known).Sound ⟨names, w.left.skip 1, t⟩ ∧ w.Leads ⟨names, w.left.skip 1, t⟩ ∧
      (applications d known).Twin ⟨names, w.left.skip 1, t⟩ (selfDelay d w.left.nextMark root) p := by
  obtain ⟨names₁, sound₁, leads₁, -⟩ := sound.numbered
  obtain ⟨names, sound₂, leads₂⟩ := sound₁.aside more.adds trivial
  have leads := leads₁.trans leads₂
  refine ⟨names₁, names, sound₁, leads₂, sound₂, leads, _, _, rfl, ⟨above, Nat.lt_succ_self _⟩,
    Nat.lt_succ_of_le rooted, ?_, Peer.later codes leads⟩
  cases makes with
  | adapted new known => exact .inl ⟨_, _, _, _, rfl, sound₁.hides_mark sound₂ leads₂ new known⟩
  | calculus makes roots =>
      refine .inr (sound₁.hides_delay sound₂ leads₂ makes ?_)
      exact roots.elim (fun hidden => hidden.later leads) fun made => sound₁.hides_root sound₂ leads₂ made

end

section

variable {h : Handing} {known : Nat} {way : Way} {w : Stage} {q x : Value}
  (routine : h.code.isRoutine) (marks : ∀ m ∈ h.code.ownMarks, m < known) (direct : h.direct = true)
include routine marks direct

omit routine direct in
theorem ownMarks_lt (sound : (applications h.code known).Sound w) : ∀ m ∈ h.code.ownMarks, m < w.right.nextMark := by
  intro m own
  have kept := sound.keeps m (applications_known marks m own)
  exact kept.2 ▸ sound.below m kept.1

/-- A hidden delay applied to an argument goes on as the code does with another delay; then what comes back gets the
argument, with the fuel that was left. -/
theorem Sound.resumes (seals : Bool) (sound : (applications h.code known).Sound w)
    (delay : HidesAdapted h.code w q ∨ Delay.direct.HidesDelay h.code w q) (inert : x.isInert) :
    ∃ cost deep rest p t, ∃ last : Nat → Value → Run Value, (w.right.skip 1).Extends t ∧ MakesDirect h.code w t p ∧
      GoesOn (fun m => (levels (holding h seals) m).call q [x] []) w.right cost
        (fun m => (levels (holding h seals) (m + deep)).call h.code [p] [] >>= last m) t ∧
      (∀ {names₁ names w'}, (applications h.code known).Sound ⟨names₁, w.left.skip 1, w.right.skip 1⟩ →
        Stage.Leads ⟨names₁, w.left.skip 1, w.right.skip 1⟩ ⟨names, w.left.skip 1, t⟩ →
          (applications h.code known).Sound ⟨names, w.left.skip 1, t⟩ → Stage.Leads ⟨names, w.left.skip 1, t⟩ w' →
            (applications h.code known).Sound w' →
              ∀ m f, last m f w'.right = (levels (holding h seals) (m + rest)).call f [x] [] w'.right) ∧
      deep + 2 ≤ cost ∧ rest + 1 ≤ cost ∧ cost ≤ rest + 2 ∧ cost ≤ 5 := by
  have room : w.right.stack.room = none := sound.beside.image.stack ▸ sound.rooted.room
  have apart := hidden_apart marks sound delay
  rcases delay with ⟨mark, thunk, generator, name, rfl, -⟩ | ⟨env, id, root, binding, hides, roots⟩
  · obtain ⟨t, more, new, goes⟩ := adaptedDelay_goesOn seals room x (Value.same_of_isRoutine routine) direct
      (ownMarks_lt marks sound) apart
    refine ⟨3, 0, 2, _, t, _, more, .adapted (Nat.lt_succ_self _) new, goes, ?_, by omega⟩
    intros
    rfl
  · obtain ⟨own, made⟩ := sound.made hides
    have unaltered : Unaltered (holding h seals) q [x] := by
      intro k
      obtain ⟨_, _, _, _, rfl, -⟩ := hides
      exact holding_eq rfl (Handing.nothing_handed_of_ne apart)
    obtain ⟨frame, u, bound, opens, applied⟩ := Delay.applied_goesOn (faithful_holding h seals) room sound.fresh made
      (sound.binds binding) (sound.isRoot roots) unaltered inert
    obtain ⟨p, t, makes, more, rooted⟩ := Delay.root_goesOn (faithful_holding h seals) (applied.more.room room)
      (applied.more.quiet.fresh sound.fresh) (Value.isInert_of_isRoutine routine)
      ((sound.isRoot roots).later applied.more.quiet.beneath)
    have before : (w.right.skip 1).Extends (u.skip 1) := opens.trans (.skip u 1)
    let last (m : Nat) (f : Value) : Run Value :=
      getAttribute frame "m" >>= fun v => (levels (holding h seals) (m + 3)).call f [v] []
    refine ⟨5, 1, 3, p, t, last, before.trans more, .calculus (makes.before before) (.inl roots),
      applied.trans (rooted.bind (f := fun m f => getAttribute frame "m" >>= fun v =>
        (levels (holding h seals) m).call f [v] [])), ?_, by omega⟩
    intro names₁ names w' sound₁ leads₂ sound₂ leads' sound' m f
    have bound' := (sound₁.hides_binding sound₂ leads₂ (bound.later ((Extends.skip u 1).trans more))).later leads'
    exact bind_of_ok ((sound'.binds bound').attribute ordinary_m (Value.inert_of_isInert inert))

/-- A delay of self-application goes alike with a hidden one. -/
theorem applying_parallel {n m mark root : Nat} {x' : Value} (paced : way.Paced 3 n m)
    (before : ∀ {n' m' : Nat}, n' + m' < n + m → way.Paced 3 n' m' →
      (applications h.code known).Companions way (levels (holding h true) n') (levels (holding h true) m'))
    (above : known ≤ mark ∧ mark < w.left.nextMark) (rooted : root < w.left.nextMark)
    (delay : HidesAdapted h.code w q ∨ Delay.direct.HidesDelay h.code w q) (codes : Peer w h.code h.code)
    (arguments : Peer w x x') (inert : x'.isInert) :
    (applications h.code known).Parallel way w Peer
      ((levels (holding h true) n).call (selfDelay h.code mark root) [x] [])
      ((levels (holding h true) m).call q [x'] []) := by
  intro sound
  have room := sound.rooted.room
  have applied := selfDelay_goesOn true room x (selfDelay_apart marks above.1 root)
  obtain ⟨cost, deep, rest, p, t, last, more, makes, goes, ends, enough⟩ :=
    sound.resumes routine marks direct true delay inert
  obtain ⟨names₁, names, sound₁, leads₂, sound₂, leads, twin⟩ :=
    sound.applies codes (above.1.trans (Nat.le_of_lt above.2)) (Nat.le_of_lt rooted) more makes
  have hands := applications_hands routine marks direct
  by_cases few : n < 2 ∨ m < cost
  · refine Parallel.short ?_ sound
    cases way with
    | forth =>
        simp only [Way.Paced] at paced
        exact .inl ⟨rfl, applied.short n (by omega)⟩
    | back =>
        simp only [Way.Paced] at paced
        exact .inr ⟨rfl, goes.short m (by omega)⟩
  · obtain ⟨n, rfl⟩ : ∃ n', n = n' + 2 := ⟨n - 2, by omega⟩
    obtain ⟨m, rfl⟩ : ∃ m', m = m' + cost := ⟨m - cost, by omega⟩
    have codePaced : way.Paced 3 n (m + deep) := by
      cases way <;> simp only [Way.Paced] at paced ⊢ <;> omega
    have restPaced : way.Paced 3 (n + 1) (m + rest) := by
      cases way <;> simp only [Way.Paced] at paced ⊢ <;> omega
    have called := hands.level codePaced (fun first second paced => before (by omega) paced)
      (fun sealed => absurd sealed.symm Bool.false_ne_true) (Peer.later codes leads) twin
      (selfDelay_delays direct ..)
    have through := called.bind (h := fun f => (levels (holding h true) (n + 1)).call f [x] []) (k := last m)
      fun w' f f' leads' functions sound' => by
        rw [ends sound₁ leads₂ sound₂ leads' sound' m f']
        exact (before (by omega) restPaced).call functions
          (.cons (Peer.later (Peer.later arguments leads) leads') (.nil _)) (.nil _) sound'
    rw [applied.run n, goes.run m]
    exact (through sound₂).before leads

theorem applications_lawful : (applications h.code known).Lawful way (holding h true) 3 where
  call companions _ _ _ _ _ _ _ fs peers keys :=
    companions.callGating (applications_hands routine marks direct) fs peers keys
  handed companions _ _ _ _ _ _ _ only fs linked peers :=
    companions.handGating (applications_hands routine marks direct) only fs linked peers
  counted companions _ _ _ _ _ _ _ _ _ _ _ marked linked tallies peers keys admits :=
    companions.countGating (applications_hands routine marks direct) marked linked tallies peers keys admits
  twin := by
    rintro n m paced before w u v args args' named named' ⟨mark, root, rfl, above, rooted, delay, codes⟩ peers keys admits
    obtain ⟨⟨x, rfl, inert⟩, rfl⟩ : (applications h.code known).fits args ∧ named = [] :=
      admits.resolve_left Bool.false_ne_true
    obtain rfl : named' = [] := keys.eq
    obtain ⟨x', rest, rfl, arguments, nothing⟩ := peers.uncons
    obtain rfl := Peers.eq_nil nothing
    have inert' : x'.isInert := by
      rw [arguments.eq, Value.isInert_rename]
      exact inert
    exact applying_parallel routine marks direct paced before above rooted delay codes arguments inert'

/-! Making the fixed points, and applying them. -/

/-- The other ways to make the fixed point go on as the code does with a delay. -/
theorem Sound.builds (seals : Bool) (sound : (applications h.code known).Sound w)
    (provides : w.right.Provides "Υ1" 5 Prelude.directBody)
    {r : DirectFixing} (other : r ≠ .selfApplied) :
    ∃ cost deep p t, (w.right.skip 1).Extends t ∧ MakesDirect h.code w t p ∧
      GoesOn (fun m => r.build (levels (holding h seals) m) h.code) w.right cost
        (fun m => (levels (holding h seals) (m + deep)).call h.code [p] []) t ∧ deep + 2 ≤ cost ∧ cost ≤ 7 := by
  have room : w.right.stack.room = none := sound.beside.image.stack ▸ sound.rooted.room
  have same := Value.same_of_isRoutine routine
  cases r with
  | selfApplied => exact absurd rfl other
  | adapted =>
      obtain ⟨name, t, more, new, goes⟩ := adapter_goesOn seals room same direct (ownMarks_lt marks sound)
      exact ⟨2, 0, _, t, more, .adapted (by omega) new, goes, by omega, by omega⟩
  | calculus =>
      have read : getAttribute outermost "Υ1" w.right = .ok (Session.combinator 5 Prelude.directBody) w.right :=
        provides.read ordinary_directFixedPoint
      obtain ⟨root, p, t, roots, makes, more, goes⟩ := Delay.combinator_goesOn (δ := .direct) (faithful_holding h seals)
        room sound.fresh (Value.isInert_of_isRoutine routine) provides
        fun _ => holding_eq rfl (Handing.nothing_handed_of_code same)
      exact ⟨7, 1, p, t, more, .calculus makes (.inr roots), .of_same (fun _ => bind_of_ok read) goes, by omega, by omega⟩

/-- Self-application goes alike with another way, where the marks of its root and of the root's first delay stand
beside the first two that the other way gives out. -/
theorem through_ends {s : Store} {names : Renaming} {t : Store}
    (sound : (applications h.code known).Sound ⟨names, s.skip 1, t⟩) (codes : Peer ⟨names, s.skip 1, t⟩ h.code h.code)
    (arguments : Peer ⟨names, s.skip 1, t⟩ x q) (above : known ≤ s.nextMark)
    (provides : t.Provides "Υ1" 5 Prelude.directBody) {r : DirectFixing} (other : r ≠ .selfApplied) {n m : Nat}
    (starts : way = .forth ∧ 4 * n + 7 ≤ m ∨ way = .back ∧ m + 1 ≤ n) :
    (applications h.code known).Ends way ⟨names, s.skip 1, t⟩ Peer
      (DirectFixing.selfApplied.through (levels (holding h true) n) h.code x s)
      (r.through (levels (holding h true) m) h.code q t) := by
  have room : s.stack.room = none := sound.rooted.room
  have built := selfFixedPoint_goesOn true room (Value.same_of_isRoutine routine)
  obtain ⟨cost, deep, p, u, more, makes, goes, less, enough⟩ :=
    sound.builds routine marks direct true provides other
  have lawful : (applications h.code known).Lawful way (holding h true) 3 := applications_lawful routine marks direct
  by_cases few : n < 3 ∨ m < cost
  · rcases starts with ⟨rfl, starts⟩ | ⟨rfl, starts⟩
    · obtain ⟨v, stopped⟩ := built.short n (by omega)
      rw [DirectFixing.through, bind_of_error stopped]
      exact .forth rfl
    · obtain ⟨v, stopped⟩ := goes.short m (by omega)
      rw [DirectFixing.through, DirectFixing.through, bind_of_error stopped]
      exact .back rfl
  · obtain ⟨n, rfl⟩ : ∃ n', n = n' + 3 := ⟨n - 3, by omega⟩
    obtain ⟨m, rfl⟩ : ∃ m', m = m' + cost := ⟨m - cost, by omega⟩
    have codePaced : way.Paced 3 n (m + deep) := by
      rcases starts with ⟨rfl, starts⟩ | ⟨rfl, starts⟩ <;> simp only [Way.Paced] <;> omega
    have paced : way.Paced 3 (n + 3) (m + cost) := by
      rcases starts with ⟨rfl, starts⟩ | ⟨rfl, starts⟩ <;> simp only [Way.Paced] <;> omega
    obtain ⟨_, names', -, -, sound', leads, twin⟩ := sound.applies codes
      (above.trans (Nat.le_succ _)) (Nat.le_succ s.nextMark) more makes
    have called := (applications_hands routine marks direct).level codePaced
      (fun _ _ paced => lawful.companions paced) (fun sealed => absurd sealed.symm Bool.false_ne_true)
      (Peer.later codes leads) twin (selfDelay_delays direct ..)
    have through := called.bind fun w' f f' leads' functions => (lawful.companions paced).call functions
      (.cons (Peer.later (Peer.later arguments leads) leads') (.nil _)) (.nil _)
    have first : DirectFixing.selfApplied.through (levels (holding h true) (n + 3)) h.code x s = _ :=
      bind_of_eq (built.run n)
    have second : r.through (levels (holding h true) (m + cost)) h.code q t = _ := bind_of_eq (goes.run m)
    rw [first, second]
    exact (through sound').before leads

end

variable {h : Handing} {s : Store} (rooted : Rooted s) (codes : Settled s h.code) (routine : h.code.isRoutine)
  (direct : h.direct = true) (provides : s.Provides "Υ1" 5 Prelude.directBody) {x : Value} (arguments : Settled s x)
include rooted codes routine direct provides arguments

/-- Held to its part, code has the same fixed point in all ways. -/
theorem directly_sameRun (r : DirectFixing) :
    SameRun s.nextMark (fun n => DirectFixing.selfApplied.through (levels (holding h true) n) h.code x s)
      (fun n => r.through (levels (holding h true) n) h.code x s) := by
  have marks := rooted.ownMarks_lt codes
  -- the run beside gives out a mark first, for the root that is applied to itself
  have later : SameRun s.nextMark (fun n => r.through (levels (holding h true) n) h.code x s)
      (fun n => r.through (levels (holding h true) n) h.code x (s.skip 1)) := by
    refine sameRun_aside (fun k => r.through k h.code x) rooted (.skip ..) rfl
      (fun way => nothing_lawful fun companions => companions.callGating (nothing_hands h.gate_alike routine marks)) ?_
    exact fun agrees companions => companions.throughDirect (codes.peer rooted agrees) (arguments.peer rooted agrees) r
  by_cases self : r = .selfApplied
  · subst self
    exact later.trans later.symm
  · obtain ⟨names, agrees, sound⟩ := Sound.start (T := applications h.code s.nextMark) rooted
      (fun _ known => List.mem_range.mp known) (.refl ..) (fun _ member => nomatch member) (by simp [applications]) trivial
    obtain ⟨names', sound', leads, -⟩ := sound.numbered
    have codes' := Peer.later (codes.peer rooted agrees) leads
    have arguments' := Peer.later (arguments.peer rooted agrees) leads
    have provides' : (s.skip 1).Provides "Υ1" 5 Prelude.directBody :=
      provides.later rooted.fresh (Store.Extends.skip s 1).quiet.beneath
    have ends {way : Way} {n m : Nat} (starts : way = .forth ∧ 4 * n + 7 ≤ m ∨ way = .back ∧ m + 1 ≤ n) :=
      through_ends routine marks direct sound' codes' arguments' (Nat.le_refl _) provides' self starts
    have beside : SameRun s.nextMark
        (fun n => DirectFixing.selfApplied.through (levels (holding h true) n) h.code x s)
        (fun n => r.through (levels (holding h true) n) h.code x (s.skip 1)) :=
      sameRun_of_ends (fun _ known => List.mem_range.mpr known)
        (fun n => ⟨4 * n + 7, ends (.inl ⟨rfl, Nat.le_refl _⟩)⟩) fun m => ⟨m + 1, ends (.inr ⟨rfl, Nat.le_refl _⟩)⟩
    exact beside.trans later.symm

end Twins

namespace Machine

/-- Code of the factorial function that counts, in the outermost environment, how often it gives a function; the
function ends with that count. -/
def tracked : Term :=
  .seq [.set (.var "ΓΠ") "given" (.num 0), .fn ["f"] (.seq [
    .set (.var "ΓΠ") "given" (.binary .add (.attr (.var "ΓΠ") "given") (.num 1)),
    .fn ["n"] (.ite (.binary .equal (.var "n") (.num 0)) (.attr (.var "ΓΠ") "given")
      (.binary .mul (.var "n") (.app (.var "f") [.binary .sub (.var "n") (.num 1)])))])]

/-- The code as a value of a session. -/
def trackedMade : Value :=
  match tracked.eval (.ofFuel 9) [] Session.unbounded with
  | .ok code _ => code
  | .error _ _ => .none

/-- The session then. -/
def trackedStore : Store := (tracked.eval (.ofFuel 9) []).after Session.unbounded

theorem held_tracked : Held trackedStore [("x", .int 3), ("d", trackedMade)] := by
  have made : Held trackedStore [("d", trackedMade)] := by
    have run : tracked.eval (.ofFuel 9) [] Session.unbounded = .ok trackedMade trackedStore := rfl
    exact .ended "d" .start run
  have run : (Term.num 3).eval (.ofFuel 0) [("d", trackedMade)] trackedStore = .ok (.int 3) trackedStore := rfl
  exact .ended "x" made run

theorem trackedMade_kept (note : String) (listed : note = "" ∨ note = "!") (r : DirectFixing) :
    Handing.Kept ⟨trackedMade, true, note⟩ true (fun k => r.through k trackedMade (.int 3)) trackedStore := by
  have codes : Settled trackedStore trackedMade := held_tracked.settled (.tail _ (.head _))
  have arguments : Settled trackedStore (.int 3) := held_tracked.settled (.head _)
  obtain ⟨tells, sealed, plain⟩ : ∃ tells,
      told (r.through (levels (holding ⟨trackedMade, true, note⟩ true) 30) trackedMade (.int 3) trackedStore) = some tells ∧
        told (r.through (levels (noting ⟨trackedMade, true, note⟩) 30) trackedMade (.int 3) trackedStore) = some tells := by
    rcases listed with rfl | rfl
    · exact ⟨(24, "", []), by cases r <;> decide +kernel, by cases r <;> decide +kernel⟩
    · exact ⟨(24, "!!!!", []), by cases r <;> decide +kernel, by cases r <;> decide +kernel⟩
  obtain ⟨ended, same⟩ := indistinct_of_told sealed plain
  have routine : trackedMade.isRoutine := by decide
  have rooted := held_tracked.rooted.1
  exact Handing.kept_of_ended rooted routine codes (fun agrees companions => companions.throughDirect
    (codes.peer rooted agrees) (arguments.peer rooted agrees) r) ended same

end Machine

end Knot
