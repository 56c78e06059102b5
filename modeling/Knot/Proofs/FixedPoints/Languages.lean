import Knot.Proofs.FixedPoints.Conduct
import Knot.Proofs.FixedPoints.Misuse

/-!
The fixed points of a generator in both languages. The combinator of the calculus hands a generator procedures
without parameters where the one of the host language hands it thunks. Asked for nothing, each of them goes on as
the generator does with another one; given anything, each refuses it. So a generator that is held to its part has the
same fixed point in both languages.
-/

namespace Knot

open Run Renaming Store Machine Calculus

/-- Calls with arguments that have no names. -/
def positional : CallForm := fun _ named => !named

namespace Twins

/-! The first mark that both runs give out. -/

section

variable {T : Twins} {way : Way} {α β : Type} {w : Stage} {R : Stage → α → β → Prop}

theorem Sound.numbered (sound : T.Sound w) : ∃ names, T.Sound ⟨names, w.left.skip 1, w.right.skip 1⟩ ∧
    w.Leads ⟨names, w.left.skip 1, w.right.skip 1⟩ ∧ names.mark w.left.nextMark = w.right.nextMark := by
  have ends : T.Ends .forth w (Via Renaming.mark) (.ok w.left.nextMark (w.left.skip 1))
      (.ok w.right.nextMark (w.right.skip 1)) := Parallel.none (fun _ => Equi.fresh) sound
  cases ends with
  | ok leads sound' marks => exact ⟨_, sound', leads, marks.eq.symm⟩

/-- Where the first run gives out a mark and the second one goes on from a store that has more than one more. -/
theorem Parallel.numbered {x : Nat → Run α} {y y' : Run β} {t : Store} (own : T.own = []) (run : y w.right = y' t)
    (more : (w.right.skip 1).Extends t)
    (rest : ∀ names₁ names, T.Sound ⟨names₁, w.left.skip 1, w.right.skip 1⟩ →
      Stage.Leads ⟨names₁, w.left.skip 1, w.right.skip 1⟩ ⟨names, w.left.skip 1, t⟩ →
        w.Leads ⟨names, w.left.skip 1, t⟩ → T.Sound ⟨names, w.left.skip 1, t⟩ →
          T.Parallel way ⟨names, w.left.skip 1, t⟩ R (x w.left.nextMark) y') :
    T.Parallel way w R (Run.fresh >>= x) y := by
  intro sound
  obtain ⟨names₁, sound₁, leads₁, -⟩ := sound.numbered
  obtain ⟨names, sound₂, leads₂⟩ := sound₁.aside (own ▸ more.adds)
    (T.holds_same (fun m member => absurd (own ▸ member) List.not_mem_nil) sound₁.holds)
  have leads := leads₁.trans leads₂
  have fresh : Run.fresh w.left = .ok w.left.nextMark (w.left.skip 1) := rfl
  rw [bind_of_ok fresh, run]
  exact (rest names₁ names sound₁ leads₂ leads sound₂ sound₂).before leads

end

/-- The thunks of a generator beside the procedures that it is handed in the calculus. -/
def derivations (g : Value) (known : Nat) : Twins where
  Twin w u v := ∃ mark, u = .thunk mark g ∧ (known ≤ mark ∧ mark < w.left.nextMark) ∧
    Delay.thunked.HidesDelay g w v ∧ Peer w g g
  form := positional
  loose := True
  known := List.range known
  settled := by
    rintro w u v ⟨mark, rfl, ⟨-, below⟩, -, generators⟩ r fixes
    rw [Value.rename, fixes.marks mark below, generators.fixed r fixes]
  later := by
    rintro w w' u v leads ⟨mark, rfl, ⟨above, below⟩, delay, generators⟩
    exact ⟨mark, rfl, ⟨above, below.trans_le leads.marks⟩, delay.later leads, Peer.later generators leads⟩

section

variable {h : Handing} {seals : Bool} {known : Nat} {way : Way} {w : Stage}
  (routine : h.code.isRoutine) (marks : ∀ m ∈ h.code.ownMarks, m < known) (thunked : h.direct = false)

/-- What is hidden in the second run is not the generator. -/
theorem Sound.apart_hidden {T : Twins} (sound : T.Sound w) {g p : Value} {m : Nat} (own : p.ownMarks = [m])
    (hides : w.HidesMark m) (keeps : ∀ m ∈ g.ownMarks, m ∈ T.known) : g.same p = false := by
  refine Value.same_eq_false_of_apart own fun member => ?_
  exact hides.2 m (sound.keeps m (keeps m member)).2

include marks

theorem thunk_apart {mark : Nat} (above : known ≤ mark) (g : Value) : h.code.same (.thunk mark g) = false := by
  refine Value.same_eq_false_of_apart rfl fun member => ?_
  exact absurd (marks mark member) (Nat.not_lt.mpr above)

theorem derivations_known : ∀ m ∈ h.code.ownMarks, m ∈ (derivations h.code known).known :=
  fun m own => List.mem_range.mpr (marks m own)

theorem delay_apart (sound : (derivations h.code known).Sound w) {δ : Delay} {p : Value}
    (delay : δ.HidesDelay h.code w p) : h.code.same p = false := by
  obtain ⟨_, _, _, -, ⟨mark, dict, list, own, rfl, -, -, hides⟩, -⟩ := delay
  exact sound.apart_hidden rfl hides (derivations_known marks)

include routine thunked

theorem derivations_hands : (derivations h.code known).Hands h.gate where
  alike := h.gate_alike
  routine := routine
  known := derivations_known marks
  delays := by
    rintro w u v ⟨mark, rfl, -, ⟨_, _, _, -, ⟨_, _, _, _, rfl, -⟩, -⟩, -⟩
    simp only [Handing.gate, thunked]
    have second : bodyHeader 2 Delay.thunked.env = bodyHeader 2 (if false then "π" else "πt") := by decide
    exact Value.isDelay_procedure.trans (decide_eq_true second)
  apart := by
    rintro w u v sound ⟨mark, rfl, ⟨above, -⟩, delay, -⟩ -
    exact ⟨thunk_apart marks above _, delay_apart marks sound delay⟩
  admits := by
    intro args named admits
    refine .inl ?_
    simp only [Handing.gate, Handing.admits, Bool.and_eq_true] at admits
    simp [derivations, positional, admits.1]
  sealed _ _ admits := admits

end

/-! What either language makes of a generator. -/

section

variable {h : Handing} {seals : Bool} {known : Nat} {way : Way} {w : Stage} (routine : h.code.isRoutine)
  (marks : ∀ m ∈ h.code.ownMarks, m < known) (thunked : h.direct = false)
include routine marks thunked

/-- A derivation of a generator that is held to its part is a call of it. -/
theorem derive_holding {s : Store} (room : s.stack.room = none) (above : known ≤ s.nextMark) (n : Nat) :
    FixedPoint.derive (levels (holding h seals) n) h.code s =
      (Run.fresh >>= fun mark => (levels (holding h seals) n).call h.code [.thunk mark h.code] []) s := by
  have fresh : Run.fresh s = .ok s.nextMark (s.skip 1) := rfl
  have handed : h.handed? h.code [.thunk s.nextMark h.code] [] = some (.thunk s.nextMark h.code) :=
    Handing.handed_of_delay (Value.same_of_isRoutine routine) (by rw [thunked]; rfl) (thunk_apart marks above _)
  unfold FixedPoint.derive
  rw [bind_of_ok fresh, bind_of_ok fresh, Machine.app]
  cases run : (levels (holding h seals) n).call h.code [.thunk s.nextMark h.code] [] (s.skip 1) with
  | error e t => rw [bind_of_error run]
  | ok v t =>
      have room' : (s.skip 1).stack.room = none := room
      rw [bind_of_ok run, if_pos (callable_of_holding room' handed run)]
      rfl

omit routine thunked in
/-- A thunk of the generator goes by the rule of the language. -/
theorem thunk_holding {mark : Nat} (above : known ≤ mark) (k : Machine) (args : List Value) :
    holding h seals k (.thunk mark h.code) args [] = FixedPoint.force k h.code args [] :=
  holding_eq rfl (Handing.nothing_handed_of_ne (thunk_apart marks above _))

omit routine thunked in
/-- A delay that refuses what it is given goes alike with a thunk that does. -/
theorem refusing_parallel {k : Machine} {p : Value} {args args' : List Value} (given : args ≠ [])
    (peers : Peers w args args')
    (delay : Delay.thunked.HidesDelay h.code w p) :
    (derivations h.code known).Parallel way w Peer (FixedPoint.refuse args []) (holding h seals k p args' []) := by
  intro sound
  have apart := delay_apart marks sound delay
  have new := sound.rooted.fresh
  obtain ⟨texts, tuple, list⟩ := w.left.written (new.contents _ (Nat.le_refl _)) args
  obtain ⟨f, refuses, about⟩ := FixedPoint.refuse_eq tuple
  obtain ⟨env, id, root, ⟨id', rfl, -⟩, hides, -⟩ := delay
  obtain ⟨own, made⟩ := sound.made hides
  have listed : ((w.right.skip 1).view (.list w.right.nextMark args')).showPlain (w.right.skip 1).frame =
      Value.listText <$> texts := by
    have same := sound.beside.image.showPlain_view (.list w.left.nextMark args)
    have first := sound.beside.marks 0
    rw [Nat.add_zero, Nat.add_zero] at first
    rw [Value.rename, Value.renameAll_eq, first, ← peers.eq, list] at same
    rw [w.right.skip_view]
    exact same
  have given' : args' ≠ [] := by
    rw [peers.eq]
    exact fun nothing => given (List.map_eq_nil_iff.mp nothing)
  obtain ⟨f', applied, about'⟩ : ∃ f', apply k p (.list w.right.nextMark args')
      (.environment id' (.environment id outermost)) (w.right.skip 1) = .error (.fault f') (w.right.skip 1) ∧
        f'.About texts :=
    apply_given _ (made.later (Extends.skip _ 1).quiet) (.inside _ (.inside _ (.outermost 0)))
      (sound.fresh.contents _ (Nat.le_refl _)) given' listed
  have called : holding h seals k p args' [] w.right = .error (.fault f') (w.right.skip 1) := by
    obtain ⟨mark, dict, list, own, rfl, -⟩ := hides
    rw [holding_eq rfl (Handing.nothing_handed_of_ne apart)]
    exact applied
  obtain ⟨names, sound', leads, -⟩ := sound.numbered
  rw [refuses, called]
  exact .fault leads sound' (about.like about' trivial)

variable (usage : seals = false → h.code.OnlyCalls positional)
include usage

/-- A derivation goes alike with what hands the generator a delay. -/
theorem derivation_parallel {n m : Nat} (paced : way.Paced 3 n (m + 1))
    (before : ∀ {n' m' : Nat}, n = n' + 1 → m + 1 = m' + 1 → way.Paced 3 n' m' → (derivations h.code known).Companions way
      (levels (holding h seals) n') (levels (holding h seals) m'))
    (generators : Peer w h.code h.code) (above : known ≤ w.left.nextMark) {y : Run Value} {p root : Value} {t : Store}
    (run : y w.right = (levels (holding h seals) (m + 1)).call h.code [p] [] t) (more : (w.right.skip 1).Extends t)
    (makes : Delay.thunked.MakesDelay (w.right.skip 1) t root p)
    (roots : Delay.thunked.HidesRoot h.code w root ∨ Delay.thunked.MakesRoot h.code (w.right.skip 1) t root) :
    (derivations h.code known).Parallel way w Peer (FixedPoint.derive (levels (holding h seals) n) h.code) y := by
  have hands := derivations_hands routine marks thunked
  refine .given fun sound => .onward (derive_holding routine marks thunked sound.rooted.room above n) ?_
  refine .numbered rfl run more fun names₁ names sound₁ leads₁ leads sound₂ => ?_
  have root : Delay.thunked.HidesRoot h.code ⟨names, w.left.skip 1, t⟩ _ :=
    roots.elim (fun hidden => hidden.later leads) fun made => sound₁.hides_root sound₂ leads₁ made
  have generators' : Peer ⟨names, w.left.skip 1, t⟩ h.code h.code := generators.later leads
  have twin : (derivations h.code known).Twin ⟨names, w.left.skip 1, t⟩ (.thunk w.left.nextMark h.code) p :=
    ⟨_, rfl, ⟨above, Nat.lt_succ_self _⟩, sound₁.hides_delay sound₂ leads₁ makes root, generators'⟩
  have delay : h.gate.isDelay (.thunk w.left.nextMark h.code) := by
    simp only [Handing.gate, thunked]
    rfl
  exact hands.level paced before usage generators' twin delay

/-- A thunk that is asked goes alike with a delay that is. -/
theorem asking_parallel {n m mark : Nat} {p : Value} (paced : way.Paced 3 (n + 1) m)
    (before : ∀ {n' m' : Nat}, n' + m' < n + 1 + m → way.Paced 3 n' m' →
      (derivations h.code known).Companions way (levels (holding h seals) n') (levels (holding h seals) m'))
    (above : known ≤ mark ∧ mark < w.left.nextMark) (delay : Delay.thunked.HidesDelay h.code w p)
    (generators : Peer w h.code h.code) :
    (derivations h.code known).Parallel way w Peer
      ((levels (holding h seals) (n + 1)).call (.thunk mark h.code) [] []) ((levels (holding h seals) m).call p [] []) := by
  intro sound
  have room : w.right.stack.room = none := sound.beside.image.stack ▸ sound.rooted.room
  obtain ⟨env, id, root, binding, hides, roots⟩ := delay
  obtain ⟨own, made⟩ := sound.made hides
  have binds := sound.binds binding
  obtain ⟨id', rfl, -⟩ := binding
  obtain ⟨p', t, makes, more, goes⟩ := Delay.asked_goesOn (faithful_holding h seals) room sound.fresh
    (Value.isInert_of_isRoutine routine) made binds (sound.isRoot roots)
  have left : (levels (holding h seals) (n + 1)).call (.thunk mark h.code) [] [] w.left =
      FixedPoint.force (levels (holding h seals) n) h.code [] [] w.left := by
    rw [levels_call sound.rooted.room, thunk_holding marks above.1]
  by_cases few : m < 5
  · refine Parallel.short ?_ sound
    cases way with
    | forth =>
        obtain rfl : n = 0 := by
          simp only [Way.Paced] at paced
          omega
        exact .inl ⟨rfl, _, left⟩
    | back => exact .inr ⟨rfl, goes.short m few⟩
  · obtain ⟨m, rfl⟩ : ∃ m', m = m' + 5 := ⟨m - 5, by omega⟩
    have inner : way.Paced 3 n (m + 1) := by
      cases way <;> simp only [Way.Paced] at paced ⊢ <;> omega
    obtain ⟨sound', leads⟩ := sound.told (.asked h.code)
    have derived := derivation_parallel routine marks thunked usage inner
      (fun first second paced => before (by omega) paced) (Peer.later generators leads)
      (above.1.trans (Nat.le_of_lt above.2)) (goes.run m) more makes (.inl (roots.later leads)) sound'
    rw [left]
    exact derived.before leads

theorem derivations_lawful : (derivations h.code known).Lawful way (holding h seals) 3 where
  call companions _ _ _ _ _ _ _ fs peers keys :=
    companions.callGating (derivations_hands routine marks thunked) fs peers keys
  handed companions _ _ _ _ _ _ _ only fs linked peers :=
    companions.handGating (derivations_hands routine marks thunked) only fs linked peers
  counted companions _ _ _ _ _ _ _ _ _ _ _ marked linked tallies peers keys admits :=
    companions.countGating (derivations_hands routine marks thunked) marked linked tallies peers keys admits
  twin := by
    rintro n m paced before w u v args args' named named' ⟨mark, rfl, above, delay, generators⟩ peers keys admits
    obtain rfl : named = [] := by simpa [derivations, Admits, positional] using admits
    obtain rfl : named' = [] := keys.eq
    cases args with
    | nil =>
        obtain rfl := Peers.eq_nil peers
        cases n with
        | zero => exact .level paced fun none => absurd none (Nat.succ_ne_zero _).symm
        | succ n => exact asking_parallel routine marks thunked usage paced before above delay generators
    | cons arg args =>
        refine .level paced fun _ _ _ => ?_
        rw [thunk_holding marks above.1]
        exact refusing_parallel marks (List.cons_ne_nil _ _) peers delay

end

end Twins

/-! Making the fixed points, and applying them. -/

/-- How much fuel the two runs have where the fixed points are made: enough for the combinator of the calculus,
too. -/
def Way.Starts (way : Way) (n m : Nat) : Prop :=
  match way with
  | .forth => 4 * n + 7 ≤ m
  | .back => m ≤ n

theorem Way.Starts.paced {way : Way} {n m : Nat} (starts : way.Starts n m) : way.Paced 3 n m := by
  cases way <;> simp only [Starts, Paced] at starts ⊢ <;> omega

namespace Twins

variable {h : Handing} {seals : Bool} {known : Nat} {way : Way} {w : Stage} (routine : h.code.isRoutine)
  (marks : ∀ m ∈ h.code.ownMarks, m < known) (thunked : h.direct = false)
  (usage : seals = false → h.code.OnlyCalls positional) (provides : w.right.Provides "Υ" 1 Prelude.thunkedBody)
  (above : known ≤ w.left.nextMark) {n m : Nat} (starts : way.Starts n m)
include routine marks thunked usage provides above starts

theorem building_parallel (generators : Peer w h.code h.code) :
    (derivations h.code known).Parallel way w Peer (Fixing.native.build (levels (holding h seals) n) h.code)
      (Fixing.calculus.build (levels (holding h seals) m) h.code) := by
  intro sound
  have same := Value.same_of_isRoutine routine
  have room : w.right.stack.room = none := sound.beside.image.stack ▸ sound.rooted.room
  have read : getAttribute outermost "Υ" w.right = .ok (Session.combinator 1 Prelude.thunkedBody) w.right :=
    provides.read Calculus.ordinary_fixedPoint
  obtain ⟨root, p, t, roots, makes, more, goes⟩ := Delay.combinator_goesOn (δ := .thunked)
    (faithful_holding h seals) room sound.fresh (Value.isInert_of_isRoutine routine) provides
    fun _ => holding_eq rfl (Handing.nothing_handed_of_code same)
  have right : Fixing.calculus.build (levels (holding h seals) m) h.code w.right =
      (levels (holding h seals) m).call (Session.combinator 1 Prelude.thunkedBody) [h.code] [] w.right :=
    bind_of_ok read
  cases n with
  | zero =>
      refine Parallel.short ?_ sound
      cases way with
      | forth => exact .inl ⟨rfl, w.left, rfl⟩
      | back =>
          obtain rfl := Nat.le_zero.mp starts
          exact .inr ⟨rfl, w.right, right⟩
  | succ n =>
      by_cases few : m < 7
      · refine Parallel.short ?_ sound
        cases way with
        | forth =>
            simp only [Way.Starts] at starts
            omega
        | back =>
            obtain ⟨u, stopped⟩ := goes.short m few
            exact .inr ⟨rfl, u, right.trans stopped⟩
      · obtain ⟨m, rfl⟩ : ∃ m', m = m' + 7 := ⟨m - 7, by omega⟩
        have inner : way.Paced 3 n (m + 1) := by
          cases way <;> simp only [Way.Starts, Way.Paced] at starts ⊢ <;> omega
        have left : Fixing.native.build (levels (holding h seals) (n + 1)) h.code w.left =
            FixedPoint.derive (levels (holding h seals) n) h.code (w.left.did (.built h.code)) := by
          change (levels (holding h seals) (n + 1)).call (.builtin .fixedPoint) [h.code] [] w.left = _
          rw [levels_call sound.rooted.room, holding_eq rfl (Handing.nothing_handed_of_code same)]
          rfl
        obtain ⟨sound', leads⟩ := sound.told (.built h.code)
        have derived := derivation_parallel routine marks thunked usage inner
          (fun _ _ paced => (derivations_lawful routine marks thunked usage).companions paced)
          (Peer.later generators leads) above (right.trans (goes.run m)) more makes (.inr roots) sound'
        rw [left]
        exact derived.before leads

theorem through_parallel (generators : Peer w h.code h.code) {x x' : Value} (arguments : Peer w x x') :
    (derivations h.code known).Parallel way w Peer (Fixing.native.through (levels (holding h seals) n) h.code x)
      (Fixing.calculus.through (levels (holding h seals) m) h.code x') :=
  (building_parallel routine marks thunked usage provides above starts generators).bind fun _ _ _ leads functions =>
    ((derivations_lawful routine marks thunked usage).companions starts.paced).call functions
      (.cons (Peer.later arguments leads) (.nil _)) (.nil _)

end Twins

end Knot
