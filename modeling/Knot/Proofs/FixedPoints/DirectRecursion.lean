import Knot.Proofs.Parallel.Levels

/-!
A fixed point is the function that calls itself. For a step of a recursion, which gets a function to go on
with and an argument, the fixed point of the generator that goes on through its thunk comes to the same as
the function that hands itself to the step.
-/

namespace Knot

open Run Renaming

namespace Machine

/-- Calls go by the rule of the language, except that one function sees itself under its own name. -/
def knowing (own : Nat) : Rule := fun k f args named =>
  match f with
  | .closure mark header body scope =>
      if mark = own then callClosure k header body ((header.name, f) :: scope) args named
      else callValue k f args named
  | f => callValue k f args named

variable {own : Nat} {k : Machine} {args : List Value} {named : Named}

theorem knowing_own (header : Header) (body : Term) (scope : Scope) :
    knowing own k (.closure own header body scope) args named =
      callClosure k header body ((header.name, .closure own header body scope) :: scope) args named :=
  if_pos rfl

theorem knowing_of_ne {mark : Nat} (ne : mark ≠ own) (header : Header) (body : Term) (scope : Scope) :
    knowing own k (.closure mark header body scope) args named =
      callClosure k header body scope args named :=
  if_neg ne

end Machine

namespace Twins.Companions

variable {T : Twins} {way : Way} {w : Stage} {k k' : Machine} {own : Nat} {f f' u v : Value}
  {args args' : List Value} {named named' : Named}

/-- The function that sees itself sees what stands for it in the second run. -/
theorem known_scope (known : own ∈ T.known) (sound : T.Sound w) {header : Header} {body : Term}
    {scope : Scope} (fs : Peer w (.closure own header body scope) f') :
    ∃ scope', f' = .closure own header body scope' ∧ ∃ names,
      body.onlyCalls T.form (without names header.params) ∧
        T.Scopes w names ((header.name, .closure own header body scope) :: scope)
          ((header.name, .closure own header body scope') :: scope') := by
  obtain ⟨names, scope', same, only, scopes⟩ := sound.closure fs
  rw [(sound.keeps own known).2] at same
  subst same
  exact ⟨scope', rfl, names, only, (scopes.cons header.name fs).mono fun name member =>
    (Term.mem_without.mp member).1⟩

theorem callKnowing (companions : T.Companions way k k') (known : own ∈ T.known) (fs : Peer w f f')
    (peers : Peers w args args') (keys : PeersNamed w named named') :
    T.Parallel way w Peer (Machine.knowing own k f args named)
      (Machine.knowing own k' f' args' named') := by
  refine .given fun sound => ?_
  have plain := companions.callValue fs peers keys
  cases f with
  | closure mark header body scope =>
      by_cases same : mark = own
      · subst same
        obtain ⟨scope', rfl, names, only, scopes⟩ := known_scope known sound fs
        rw [Machine.knowing_own, Machine.knowing_own]
        exact companions.callClosure only scopes peers keys
      · obtain ⟨names, scope', rfl, -, -⟩ := sound.closure fs
        have other : w.names.mark mark ≠ own := fun named =>
          same (w.names.mark_injective (named.trans (sound.keeps own known).2.symm))
        rw [Machine.knowing_of_ne same, Machine.knowing_of_ne other]
        exact plain
  | _ =>
      obtain rfl := fs.eq
      exact plain

theorem handKnowing (companions : T.Companions way k k') (known : own ∈ T.known)
    (only : f.OnlyCalls T.form) (fs : Peer w f f') (linked : T.Linked w u v) (peers : Peers w args args') :
    T.Parallel way w Peer (Machine.knowing own k f (u :: args) [])
      (Machine.knowing own k' f' (v :: args') []) := by
  refine .given fun sound => ?_
  have plain := companions.handValue only fs linked peers
  cases only with
  | closure mark header body scope taken =>
      by_cases same : mark = own
      · subst same
        obtain ⟨scope', rfl, names, only, scopes⟩ := known_scope known sound fs
        rw [Machine.knowing_own, Machine.knowing_own]
        exact companions.handClosure only taken scopes linked peers
      · obtain ⟨names, scope', rfl, -, -⟩ := sound.closure fs
        have other : w.names.mark mark ≠ own := fun named =>
          same (w.names.mark_injective (named.trans (sound.keeps own known).2.symm))
        rw [Machine.knowing_of_ne same, Machine.knowing_of_ne other]
        exact plain
  | builtin defined taken =>
      obtain rfl := fs.eq
      exact plain
  | counted mark name tally only =>
      obtain rfl := fs.eq
      exact plain

end Twins.Companions

/-! A step of a recursion, the function that calls itself by it, and its generator. -/

namespace Step

/-- Calls with one argument, which has no name. -/
def once : CallForm := fun count named => count == 1 && !named

/-- The function that hands itself to the step. -/
def direct (own : Nat) (step : Value) : Value :=
  .closure own { name := "r", path := "r", params := ["i"], plain := true }
    (.app (.var "s") [.var "r", .var "i"]) [("s", step)]

/-- A function without a name of its own. -/
def nameless (param : String) : Header :=
  { name := "<lambda>", path := "<lambda>", params := [param], plain := true }

/-- What goes on through the thunk. -/
def delay : Term := .app (.app (.var "self") []) [.var "m"]

/-- The step goes on with a function that goes on through the thunk. -/
def unfolding : Term := .app (.var "s") [.lam (nameless "m") delay, .var "i"]

/-- The generator of the recursion. -/
def generator (mark : Nat) (step : Value) : Value :=
  .closure mark (nameless "self") (.lam (nameless "i") unfolding) [("s", step)]

/-- The function that a generator derives. -/
def unfolded (mark : Nat) (thunk step : Value) : Value :=
  .closure mark (nameless "i") unfolding [("self", thunk), ("s", step)]

/-- The function that a step is given for an argument. -/
def delayed (mark : Nat) (thunk step argument : Value) : Value :=
  .closure mark (nameless "m") delay [("i", argument), ("self", thunk), ("s", step)]

/-- The fixed point of a generator is applied. -/
def throughFixedPoint (k : Machine) (generator argument : Value) : Run Value := do
  let f ← k.call (.builtin .fixedPoint) [generator] []
  k.call f [argument] []

/-- A thunk is asked a number of times for nothing. -/
def ask (k : Machine) (thunk : Value) : Nat → Run Unit
  | 0 => pure ()
  | times + 1 => do
      discard (k.call thunk [] [])
      ask k thunk times

/-- What a new thunk of a generator gives after that. -/
def fromThunk (k : Machine) (generator : Value) (times : Nat) : Run Value := do
  let thunk ← k.call (.kind .thunk) [generator] []
  ask k thunk times
  k.call thunk [] []

/-- What the thunk gives is applied. -/
def throughThunk (k : Machine) (generator argument : Value) (times : Nat) : Run Value := do
  let f ← fromThunk k generator times
  k.call f [argument] []

/-! What the calls of these come to. -/

open Machine

variable {own : Nat} {s : Store} (room : s.stack.room = none)
include room

theorem direct_call (n : Nat) (step argument : Value) :
    (levels (knowing own) (n + 1)).call (direct own step) [argument] [] s =
      (levels (knowing own) n).call step [direct own step, argument] [] s := by
  rw [levels_call room, direct, knowing_own]
  rfl

omit room in
/-- A session in which the function has its name calls it so too. -/
theorem direct_call_of_session {s : Store} {step : Value}
    (named : s.session.lookup "r" = some (direct own step)) (k : Machine) (argument : Value) :
    callValue k (direct own step) [argument] [] s =
      knowing own k (direct own step) [argument] [] s := by
  have resolved : Form.resolve [("i", argument), ("s", step)] "r" s = .ok (direct own step) s := by
    change ((MonadState.get : Run Store) >>= _) s = _
    rw [get_bind, named]
    rfl
  have arguments : Term.evalAll k [.var "r", .var "i"] [("i", argument), ("s", step)] s =
      .ok [direct own step, argument] s := (bind_of_ok resolved).trans rfl
  have called : callValue k (direct own step) [argument] [] s =
      k.call step [direct own step, argument] [] s := by
    change (Term.evalAll k [.var "r", .var "i"] [("i", argument), ("s", step)] >>= fun args =>
      k.call step args []) s = _
    exact bind_of_ok arguments
  rw [called, direct, knowing_own]
  rfl

theorem generator_call (n : Nat) {mark : Nat} (ne : mark ≠ own) (thunk step : Value) :
    (levels (knowing own) (n + 1)).call (generator mark step) [thunk] [] s =
      .ok (unfolded s.nextMark thunk step) (s.skip 1) := by
  rw [levels_call room, generator, knowing_of_ne ne]
  rfl

theorem derive_generator (n : Nat) {mark : Nat} (ne : mark ≠ own) (step : Value) :
    FixedPoint.derive (levels (knowing own) (n + 1)) (generator mark step) s =
      .ok (unfolded (s.nextMark + 1) (.thunk s.nextMark (generator mark step)) step) (s.skip 2) := by
  have called : (levels (knowing own) (n + 1)).call (generator mark step)
      [.thunk s.nextMark (generator mark step)] [] (s.skip 1) = .ok _ _ :=
    generator_call (s := s.skip 1) room n ne _ step
  unfold FixedPoint.derive
  rw [bind_of_ok (show fresh s = .ok s.nextMark (s.skip 1) from rfl), Machine.app, bind_of_ok called]
  rfl

theorem thunk_call (n : Nat) {mark : Nat} (ne : mark ≠ own) (step : Value) (m : Nat) :
    (levels (knowing own) (n + 2)).call (.thunk m (generator mark step)) [] [] s =
      .ok (unfolded (s.nextMark + 1) (.thunk s.nextMark (generator mark step)) step)
        ((s.did (.asked (generator mark step))).skip 2) := by
  rw [levels_call room]
  exact derive_generator (s := s.did (.asked (generator mark step))) room n ne step

theorem unfolded_call (n : Nat) {mark : Nat} (ne : mark ≠ own) (thunk step argument : Value) :
    (levels (knowing own) (n + 1)).call (unfolded mark thunk step) [argument] [] s =
      (levels (knowing own) n).call step [delayed s.nextMark thunk step argument, argument] []
        (s.skip 1) := by
  rw [levels_call room, unfolded, knowing_of_ne ne]
  rfl

theorem delayed_call (n : Nat) {mark : Nat} (ne : mark ≠ own) (thunk step first argument : Value) :
    (levels (knowing own) (n + 1)).call (delayed mark thunk step first) [argument] [] s =
      ((levels (knowing own) n).call thunk [] [] >>= fun f =>
        (levels (knowing own) n).call f [argument] []) s := by
  rw [levels_call room, delayed, knowing_of_ne ne]
  rfl

theorem fixedPoint_call (n : Nat) {mark : Nat} (ne : mark ≠ own) (step : Value) :
    (levels (knowing own) (n + 2)).call (.builtin .fixedPoint) [generator mark step] [] s =
      .ok (unfolded (s.nextMark + 1) (.thunk s.nextMark (generator mark step)) step)
        ((s.did (.built (generator mark step))).skip 2) := by
  rw [levels_call room]
  exact derive_generator (s := s.did (.built (generator mark step))) room n ne step

/-- A thunk is made. -/
theorem thunk_made (n : Nat) (generator : Value) :
    (levels (knowing own) (n + 1)).call (.kind .thunk) [generator] [] s =
      .ok (.thunk s.nextMark generator) (s.skip 1) := by
  rw [levels_call room]
  rfl

theorem thunk_short {n : Nat} (few : n < 2) {mark : Nat} (step : Value) (m : Nat) :
    ∃ t, (levels (knowing own) n).call (.thunk m (generator mark step)) [] [] s =
      .error .outOfFuel t := by
  obtain rfl | rfl : n = 0 ∨ n = 1 := by omega
  · exact ⟨s, rfl⟩
  · rw [levels_call room]
    exact ⟨_, rfl⟩

theorem delayed_short {n : Nat} (few : n < 3) {mark mark' : Nat} (ne : mark ≠ own)
    (step first argument : Value) (m : Nat) :
    ∃ t, (levels (knowing own) n).call (delayed mark (.thunk m (generator mark' step)) step first)
      [argument] [] s = .error .outOfFuel t := by
  cases n with
  | zero => exact ⟨s, rfl⟩
  | succ n =>
      obtain ⟨t, asked⟩ : ∃ t, (levels (knowing own) n).call (.thunk m (generator mark' step)) [] [] s =
        .error .outOfFuel t := thunk_short room (Nat.lt_of_succ_lt_succ few) step m
      exact ⟨t, (delayed_call room n ne _ step first argument).trans (bind_of_error asked)⟩

theorem fixedPoint_short {n : Nat} (few : n < 2) (generator : Value) :
    ∃ t, (levels (knowing own) n).call (.builtin .fixedPoint) [generator] [] s =
      .error .outOfFuel t := by
  obtain rfl | rfl : n = 0 ∨ n = 1 := by omega
  · exact ⟨s, rfl⟩
  · rw [levels_call room]
    exact ⟨_, rfl⟩

end Step

open Twins Step Machine

variable {own : Nat} {step : Value} {way : Way} {w : Stage}

/-- The function that calls itself beside the functions that steps are given, which go on through thunks of
the generator. -/
def Step.twins (own : Nat) (step : Value) : Twins where
  Twin w u v := ∃ step' argument m₁ m₂ mark, u = direct own step ∧
    v = delayed m₁ (.thunk m₂ (generator mark step')) step' argument ∧ m₁ ≠ own ∧ mark ≠ own ∧
      own < w.left.nextMark ∧ Peer w step step'
  form := once
  known := [own]
  settled := by
    rintro w u v ⟨step', argument, m₁, m₂, mark, rfl, -, -, -, below, steps⟩
    refine settled_closure below fun r fixes => ?_
    rw [Renaming.named, List.map_cons, List.map_nil, Prod.map_apply, steps.fixed r fixes, id]
  later := by
    rintro w w' u v leads ⟨step', argument, m₁, m₂, mark, rfl, rfl, ne, ne', below, steps⟩
    exact ⟨step', argument, m₁, m₂, mark, rfl, rfl, ne, ne', below.trans_le leads.marks,
      Peer.later steps leads⟩

namespace Step

variable (only : step.OnlyCalls once)
include only

omit only in
/-- What is made from a stage on is not the function that calls itself. -/
theorem made_apart (sound : (twins own step).Sound w) (n : Nat) : w.right.nextMark + n ≠ own := by
  have kept := sound.keeps own (.head _)
  have below : own < w.right.nextMark := kept.2 ▸ sound.below own kept.1
  omega

/-- The function that calls itself and one that the generator derives hand the step what goes on. -/
theorem unfolded_parallel {n m : Nat}
    (companions : (twins own step).Companions way (levels (knowing own) n) (levels (knowing own) m))
    {mark m₁ m₂ : Nat} (ne : m₁ ≠ own) (ne' : mark ≠ own) {step' argument argument' : Value}
    (steps : Peer w step step') (arguments : Peer w argument argument') :
    (twins own step).Parallel way w Peer
      ((levels (knowing own) (n + 1)).call (direct own step) [argument] [])
      ((levels (knowing own) (m + 1)).call
        (unfolded m₁ (.thunk m₂ (generator mark step')) step') [argument'] []) := by
  refine .given fun sound => ?_
  have room := sound.rooted.room
  have room' : w.right.stack.room = none := sound.beside.image.stack ▸ room
  have below := (sound.keeps own (.head _)).1
  refine .onward (direct_call room n step argument) (.aside (unfolded_call room' m ne _ _ _)
    (fun _ => .skip ..) (fun _ => trivial) fun names leads => ?_)
  refine companions.handed only (Peer.later steps leads) (.twin ⟨step', argument', _, m₂, mark, rfl, rfl,
    made_apart sound 0, ne', below.trans_le leads.marks, Peer.later steps leads⟩)
    (.cons (Peer.later arguments leads) (.nil _))

theorem lawful : (twins own step).Lawful way (knowing own) 2 where
  call companions _ _ _ _ _ _ _ fs peers keys := companions.callKnowing (.head _) fs peers keys
  handed companions _ _ _ _ _ _ _ only fs linked peers :=
    companions.handKnowing (.head _) only fs linked peers
  counted companions _ _ _ _ _ _ _ _ _ _ _ _ linked tallies peers keys admits :=
    companions.forceLinked linked tallies peers keys admits
  twin := by
    intro n m paced before w u v args args' named named' twin peers keys form
    obtain ⟨step', first, m₁, m₂, mark, rfl, rfl, ne, ne', below, steps⟩ := twin
    replace form : args.length = 1 ∧ named = [] := by simpa [twins, Admits, once] using form
    obtain ⟨argument, rfl⟩ := List.length_eq_one_iff.mp form.1
    obtain ⟨argument', _, rfl, arguments, rest⟩ := peers.uncons
    obtain rfl := rest.eq_nil
    obtain rfl := form.2
    obtain rfl : named' = [] := keys.eq
    refine .given fun sound => ?_
    have room' : w.right.stack.room = none := sound.beside.image.stack ▸ sound.rooted.room
    by_cases few : m < 3
    · refine .short ?_
      cases way with
      | forth =>
          have none : n = 0 := by
            simp only [Way.Paced] at paced
            omega
          exact .inl ⟨rfl, none ▸ ⟨w.left, rfl⟩⟩
      | back => exact .inr ⟨rfl, delayed_short room' few ne step' first argument' m₂⟩
    · obtain ⟨m, rfl⟩ : ∃ m', m = m' + 3 := ⟨m - 3, by omega⟩
      cases n with
      | zero =>
          cases way with
          | forth => exact .short (.inl ⟨rfl, w.left, rfl⟩)
          | back => cases paced
      | succ n =>
          have inner : way.Paced 2 n (m + 1) := by
            cases way <;> simp only [Way.Paced] at paced ⊢ <;> omega
          have run := (delayed_call room' (m + 2) ne (.thunk m₂ (generator mark step')) step' first
            argument').trans (bind_of_ok (thunk_call room' m ne' step' m₂))
          refine .aside run (fun _ => (Adds.did ..).trans (.skip ..)) (fun _ => trivial)
            fun names leads => ?_
          exact unfolded_parallel only (before (by omega) inner) (made_apart sound 1) ne'
            (Peer.later steps leads) (Peer.later arguments leads)

/-! Both ways of applying a fixed point. -/

variable {s : Store} {argument : Value}

omit only in
/-- However often a thunk is asked for nothing, only marks are given out. -/
theorem ask_adds (room : s.stack.room = none) (m : Nat) {mark : Nat} (ne : mark ≠ own) (thunk times : Nat) :
    ∃ t, ask (levels (knowing own) (m + 2)) (.thunk thunk (generator mark step)) times s = .ok () t ∧
      Adds [] s t := by
  induction times generalizing s with
  | zero => exact ⟨s, rfl, .refl ..⟩
  | succ times ih =>
      have asked := thunk_call room m ne step thunk
      have more : Adds [] s ((s.did (.asked (generator mark step))).skip 2) :=
        (Adds.did ..).trans (.skip ..)
      obtain ⟨t, run, rest⟩ := ih (s := (s.did (.asked (generator mark step))).skip 2) room
      exact ⟨t, (bind_of_ok (discard_of_ok asked)).trans run, more.trans rest⟩

omit only in
theorem fromThunk_short {m : Nat} (few : m < 2) {mark : Nat} (times : Nat) (room : s.stack.room = none) :
    ∃ t, fromThunk (levels (knowing own) m) (generator mark step) times s = .error .outOfFuel t := by
  obtain rfl | rfl : m = 0 ∨ m = 1 := by omega
  · exact ⟨s, rfl⟩
  · obtain ⟨t, asked⟩ : ∃ t, (levels (knowing own) 1).call (.thunk s.nextMark (generator mark step)) [] []
      (s.skip 1) = .error .outOfFuel t := thunk_short (s := s.skip 1) room Nat.one_lt_two step _
    refine ⟨t, (bind_of_ok (thunk_made room 0 (generator mark step))).trans ?_⟩
    cases times with
    | zero => exact (bind_of_ok rfl).trans asked
    | succ times =>
        have stopped : ask (levels (knowing own) 1) (.thunk s.nextMark (generator mark step)) (times + 1)
            (s.skip 1) = .error .outOfFuel t := bind_of_error (discard_of_error asked)
        exact bind_of_error stopped

/-- The function that calls itself comes to the same as what is applied once a run has made a function of
the generator, if that run has nothing to show but marks. -/
theorem sameOutcome_of_made (rooted : Rooted s) (steps : Settled s step) (arguments : Settled s argument)
    (below : own < s.nextMark) {mark : Nat} (ne : mark ≠ own) (make : Machine → Run Value)
    (made : ∀ m, ∃ m₁ m₂ t, m₁ ≠ own ∧ Adds [] s t ∧ make (levels (knowing own) (m + 2)) s =
      .ok (unfolded m₁ (.thunk m₂ (generator mark step)) step) t)
    (short : ∀ {m}, m < 2 → ∃ t, make (levels (knowing own) m) s = .error .outOfFuel t) :
    SameOutcome False (fun n => (levels (knowing own) n).call (direct own step) [argument] [] s)
      (fun m => (make (levels (knowing own) m) >>= fun f =>
        (levels (knowing own) m).call f [argument] []) s) := by
  obtain ⟨names, agrees, sound⟩ := Sound.start (T := twins own step) rooted
    (fun m member => List.mem_singleton.mp member ▸ below) (.refl ..) (fun _ member => nomatch member)
    (by simp [twins]) trivial
  have applied {way : Way} {n m : Nat} (paced : way.Paced 2 n (m + 1)) :
      (twins own step).Parallel way ⟨names, s, s⟩ Peer
        ((levels (knowing own) (n + 1)).call (direct own step) [argument] [])
        (make (levels (knowing own) (m + 2)) >>= fun f =>
          (levels (knowing own) (m + 2)).call f [argument] []) := by
    obtain ⟨m₁, m₂, t, ne', adds, run⟩ := made m
    refine .aside (bind_of_ok run) (fun _ => adds) (fun _ => trivial) fun names leads => ?_
    exact unfolded_parallel only ((lawful only).companions paced) ne' ne
      ((steps.peer rooted agrees).later leads) ((arguments.peer rooted agrees).later leads)
  refine sound.sameOutcome (x := fun n => (levels (knowing own) n).call (direct own step) [argument] [])
    (y := fun m => make (levels (knowing own) m) >>= fun f =>
      (levels (knowing own) m).call f [argument] []) (fun n => ?_) fun m => ?_
  · cases n with
    | zero => exact ⟨0, .short (.inl ⟨rfl, s, rfl⟩)⟩
    | succ n => exact ⟨3 * n + 2, applied (Nat.le_succ (3 * n))⟩
  · by_cases few : m < 2
    · obtain ⟨t, run⟩ := short few
      exact ⟨0, .short (.inr ⟨rfl, t, bind_of_error run⟩)⟩
    · obtain ⟨m, rfl⟩ : ∃ m', m = m' + 2 := ⟨m - 2, by omega⟩
      exact ⟨m + 2, applied (Nat.le_refl (m + 1))⟩

end Step

namespace Machine

/-- A step of the factorial function. -/
def factorialStep : Term :=
  .fn ["rec", "i"] (.ite (.binary .equal (.var "i") (.num 0)) (.num 1)
    (.binary .mul (.var "i") (.app (.var "rec") [.binary .sub (.var "i") (.num 1)])))

/-- The step as a value of a session. -/
def factorialStepMade : Value :=
  match factorialStep.eval (.ofFuel 0) [] Session.unbounded with
  | .ok step _ => step
  | .error _ _ => .none

theorem held_factorialStep :
    Held (Session.unbounded.skip 1) [("x", .int 5), ("s", factorialStepMade)] :=
  have stepped : Held (Session.unbounded.skip 1) [("s", factorialStepMade)] :=
    have run : factorialStep.eval (.ofFuel 0) [] Session.unbounded =
      .ok factorialStepMade (Session.unbounded.skip 1) := rfl
    .ended "s" .start run
  have run : (Term.num 5).eval (.ofFuel 0) [("s", factorialStepMade)] (Session.unbounded.skip 1) =
    .ok (.int 5) (Session.unbounded.skip 1) := rfl
  .ended "x" stepped run

end Machine

end Knot
