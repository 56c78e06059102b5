import Knot.Proofs.Checks.Interleaving
import Knot.Proofs.FixedPoints.Languages

/-!
The combinators of both languages compared. A generator that gives functions and only calls what it is handed has
the same fixed point in either language: applied to an argument, the two come to the same, printed text and tallies
included. What either combinator hands a generator refuses arguments without going back to the generator.
-/

namespace Knot

open Run Renaming Store Machine Calculus

/-! What the combinators hand a generator. -/

namespace Fixing

variable {g v : Value} {s t : Store}

/-- A computation goes on, some levels down, as a call of the generator with a delay, and gives the function that
comes back. -/
def HandsOn (g : Value) (delay : Store → Value → Prop) (x : Machine → Run Value) (s : Store) : Prop :=
  ∃ (levels : Nat) (p : Value) (t : Store) (checked : Value → Run Value), delay t p ∧
    (∀ f : Value, f.isCallable → checked f = pure f) ∧
      ∀ n, x (.ofFuel (n + 1 + levels)) s = ((Machine.ofFuel (n + 1)).call g [p] [] >>= checked) t

/-- What holds of the delays that a combinator hands a generator. To make the fixed point and to ask a delay for
nothing is to hand the generator a delay; a delay that is given anything refuses it, and nothing is called. -/
structure Delays (r : Fixing) (g : Value) (s : Store) (delay : Store → Value → Prop) : Prop where
  made : HandsOn g delay (fun k => r.build k g) s
  asked : ∀ {t v}, t.stack.room = none → t.Fresh → delay t v → HandsOn g delay (fun k => k.call v [] []) t
  refused : ∀ {t v}, t.Fresh → delay t v → ∀ args ≠ [], ∀ k, ∃ f,
    callValue k v args [] t = .error (.fault f) (t.skip 1) ∧
      ((∃ text, (t.view (.list t.nextMark args)).showPlain t.frame = .ok text) → f.kind = "ContractViolation")

/-- What a generator is handed: a thunk of it, or a procedure without parameters over a root of the calculus. -/
def Hands (g : Value) (s : Store) (v : Value) : Fixing → Prop
  | native => ∃ mark, v = .thunk mark g
  | calculus => ∃ own scope env id root,
      s.Made [] (.closure own (bodyHeader 2 Delay.thunked.env) Delay.thunked.body scope) env v ∧
        s.Binds "sf" root (.environment id outermost) env ∧ Delay.thunked.IsRoot g s root

/-- A broken contract, where the arguments can be written. -/
theorem kind_of_about {args : List Value} {texts : Except Fault (List String)} {f : Fault}
    (written : (s.view (.list s.nextMark args)).showPlain s.frame = Value.listText <$> texts) (about : f.About texts)
    (shown : ∃ text, (s.view (.list s.nextMark args)).showPlain s.frame = .ok text) : f.kind = "ContractViolation" := by
  obtain ⟨text, shown⟩ := shown
  cases texts with
  | error refused => cases written.symm.trans shown
  | ok texts =>
      obtain ⟨cause, rfl⟩ := about
      rfl

theorem derive_handsOn {delay : Store → Value → Prop} (handed : delay (s.skip 1) (.thunk s.nextMark g)) :
    HandsOn g delay (fun k => FixedPoint.derive k g) s := by
  let checked (f : Value) : Run Value :=
    if f.isCallable then return f
    else do
      let generator ← shownPlain g
      let result ← shown f
      fault (.contract (.generatorReturned generator result))
  exact ⟨0, _, s.skip 1, checked, handed, fun f callable => if_pos callable, fun n => rfl⟩

theorem HandsOn.deeper {delay : Store → Value → Prop} {x y : Machine → Run Value} (levels : Nat)
    (run : ∀ n, x (.ofFuel (n + levels)) s = y (.ofFuel n) t) (hands : HandsOn g delay y t) : HandsOn g delay x s := by
  obtain ⟨more, p, u, checked, handed, checks, goes⟩ := hands
  refine ⟨more + levels, p, u, checked, handed, checks, fun n => ?_⟩
  rw [← Nat.add_assoc, run, goes]

theorem native_delays (room : s.stack.room = none) : native.Delays g s fun t v => Hands g t v native where
  made := by
    have derives : HandsOn g (fun t v => Hands g t v native) (fun k => FixedPoint.derive k g) (s.did (.built g)) :=
      derive_handsOn ⟨_, rfl⟩
    refine derives.deeper 1 fun n => ?_
    change Run.deeper _ s = _
    simp only [Run.deeper, room]
    rfl
  asked := by
    rintro t _ room' - ⟨mark, rfl⟩
    have derives : HandsOn g (fun t v => Hands g t v native) (fun k => FixedPoint.derive k g) (t.did (.asked g)) :=
      derive_handsOn ⟨_, rfl⟩
    refine derives.deeper 1 fun n => ?_
    change Run.deeper _ t = _
    simp only [Run.deeper, room']
    rfl
  refused := by
    rintro t _ new ⟨mark, rfl⟩ args given k
    obtain ⟨texts, tuple, list⟩ := t.written (new.contents _ (Nat.le_refl _)) args
    obtain ⟨f, refuses, about⟩ := FixedPoint.refuse_eq tuple
    refine ⟨f, ?_, kind_of_about list about⟩
    cases args with
    | nil => exact absurd rfl given
    | cons arg args => exact refuses

theorem faithful_callValue : Faithful callValue :=
  ⟨fun _ _ _ _ => rfl, fun _ _ _ _ _ _ _ _ _ _ _ => rfl, fun _ _ _ _ _ _ _ _ => rfl, fun _ _ _ _ _ => rfl⟩

theorem hands_of_made {u root : Value} (new : s.Fresh) (more : s.Extends t)
    (makes : Delay.thunked.MakesDelay s t root u) (is : Delay.thunked.IsRoot g t root) : Hands g t u calculus := by
  obtain ⟨env, id, binds, makes⟩ := makes
  obtain ⟨own, made⟩ := makes.made new more
  exact ⟨own, _, env, id, root, made, binds.binds new more, is⟩

theorem calculus_delays (room : s.stack.room = none) (new : s.Fresh) (inert : g.isInert)
    (provides : s.Provides "Υ" 1 Prelude.thunkedBody) : calculus.Delays g s fun t v => Hands g t v calculus where
  made := by
    have new' : (s.skip 1).Fresh := (Extends.skip s 1).quiet.fresh new
    obtain ⟨root, p, t, roots, makes, more, goes⟩ := Delay.combinator_goesOn (δ := .thunked) faithful_callValue room new
      inert provides fun _ => rfl
    have is : Delay.thunked.IsRoot g t root := roots.is new' more
    refine ⟨6, p, t, pure, hands_of_made new' more makes is, fun _ _ => rfl, fun n => ?_⟩
    have read : getAttribute outermost "Υ" s = .ok (Session.combinator 1 Prelude.thunkedBody) s :=
      provides.read Calculus.ordinary_fixedPoint
    have run := goes.run n
    rw [levels_callValue, levels_callValue] at run
    rw [bind_pure]
    exact (bind_of_ok read).trans run
  asked := by
    rintro t v room' new' ⟨own, scope, env, id, root, made, binds, is⟩
    obtain ⟨frame, rfl⟩ : ∃ frame, env = .environment frame (.environment id outermost) := binds.imp fun _ is => is.1
    obtain ⟨p, u, makes, more, goes⟩ := Delay.asked_goesOn faithful_callValue room' new' inert made binds is
    have later : t.Extends u := (Extends.skip t 1).trans more
    refine ⟨4, p, u, pure, ?_, fun _ _ => rfl, fun n => ?_⟩
    · exact hands_of_made ((Extends.skip t 1).quiet.fresh new') more makes (is.later later.quiet.beneath)
    · have run := goes.run n
      rw [levels_callValue, levels_callValue] at run
      rw [bind_pure]
      exact run
  refused := by
    rintro t v new' ⟨own, scope, env, id, root, made, binds, is⟩ args given k
    obtain ⟨id', rfl, -⟩ := binds
    obtain ⟨texts, -, list⟩ := t.written (new'.contents _ (Nat.le_refl _)) args
    have later := Extends.skip t 1
    have listed : ((t.skip 1).view (.list t.nextMark args)).showPlain (t.skip 1).frame = Value.listText <$> texts := by
      rw [t.skip_view]
      exact list
    obtain ⟨f, applied, about⟩ : ∃ f, apply k v (.list t.nextMark args)
        (.environment id' (.environment id outermost)) (t.skip 1) = .error (.fault f) (t.skip 1) ∧ f.About texts :=
      apply_given k (made.later later.quiet) (.inside _ (.inside _ (.outermost 0)))
        (new'.contents _ (Nat.le_refl _)) given listed
    refine ⟨f, ?_, kind_of_about list about⟩
    obtain ⟨mark, dict, params, rfl, -⟩ := made
    exact applied

theorem delays (r : Fixing) (room : s.stack.room = none) (new : s.Fresh) (inert : g.isInert)
    (provides : s.Provides "Υ" 1 Prelude.thunkedBody) : r.Delays g s fun t v => Hands g t v r := by
  cases r with
  | native => exact native_delays room
  | calculus => exact calculus_delays room new inert provides

end Fixing

/-! Generators that keep to their part. -/

namespace Twins

variable {h : Handing} {seals : Bool} {s : Store}

/-- Held to its part, a generator has the same fixed point in both languages. -/
theorem through_sameRun (rooted : Rooted s) (generators : Settled s h.code) (routine : h.code.isRoutine)
    (thunked : h.direct = false) (usage : seals = false → h.code.OnlyCalls positional)
    (provides : s.Provides "Υ" 1 Prelude.thunkedBody) {x : Value} (arguments : Settled s x) :
    SameRun s.nextMark (fun n => Fixing.native.through (levels (holding h seals) n) h.code x s)
      (fun m => Fixing.calculus.through (levels (holding h seals) m) h.code x s) := by
  obtain ⟨names, agrees, sound⟩ := Sound.start (T := derivations h.code s.nextMark) rooted
    (fun _ known => List.mem_range.mp known) (.refl ..) (fun _ member => nomatch member) (by simp [derivations]) trivial
  have through {way : Way} {n m : Nat} (starts : way.Starts n m) :
      (derivations h.code s.nextMark).Parallel way ⟨names, s, s⟩ Peer
        (Fixing.native.through (levels (holding h seals) n) h.code x)
        (Fixing.calculus.through (levels (holding h seals) m) h.code x) :=
    through_parallel routine (rooted.ownMarks_lt generators) thunked usage provides (Nat.le_refl _) starts
      (generators.peer rooted agrees) (arguments.peer rooted agrees)
  exact sound.sameRun (fun _ known => List.mem_range.mpr known)
    (fun n => ⟨4 * n + 7, through (Nat.le_refl _)⟩) fun m => ⟨m, through (Nat.le_refl m)⟩

end Twins

namespace Machine

/-- A generator of the factorial function as a procedure of the calculus, counted by a tally. -/
def tallied : Term :=
  .app (.prim .counting) [.app (.prim .lambda) [.fn ["π"] (.fn ["n"]
    (.ite (.binary .equal (.var "n") (.num 0)) (.num 1) (.binary .mul (.var "n")
      (.app (.app (.attr (.var "π") "self") []) [.binary .sub (.var "n") (.num 1)])))), .list [.lit (.str "self")]],
    .app (.var "ThunkTally") []]

/-- The counted generator as a value of a session. -/
def talliedMade : Value :=
  match tallied.eval (.ofFuel 9) [] Session.unbounded with
  | .ok generator _ => generator
  | .error _ _ => .none

/-- The session then. -/
def talliedStore : Store := (tallied.eval (.ofFuel 9) []).after Session.unbounded

theorem held_tallied : Held talliedStore [("x", .int 3), ("g", talliedMade)] :=
  have made : Held talliedStore [("g", talliedMade)] :=
    have run : tallied.eval (.ofFuel 9) [] Session.unbounded = .ok talliedMade talliedStore := rfl
    .ended "g" .start run
  have run : (Term.num 3).eval (.ofFuel 0) [("g", talliedMade)] talliedStore = .ok (.int 3) talliedStore := rfl
  .ended "x" made run

theorem talliedMade_kept (r : Fixing) :
    Handing.Kept ⟨talliedMade, false, ""⟩ true (fun k => r.through k talliedMade (.int 3)) talliedStore := by
  have rooted := held_tallied.rooted.1
  have codes : Settled talliedStore talliedMade := held_tallied.settled (.tail _ (.head _))
  have arguments : Settled talliedStore (.int 3) := held_tallied.settled (.head _)
  have sealed : told (r.through (levels (holding ⟨talliedMade, false, ""⟩ true) 19) talliedMade (.int 3) talliedStore) =
      some (6, "", [(20, 4, 3)]) := by
    cases r <;> decide +kernel
  have plain : told (r.through (levels (noting ⟨talliedMade, false, ""⟩) 19) talliedMade (.int 3) talliedStore) =
      some (6, "", [(20, 4, 3)]) := by
    cases r <;> decide +kernel
  obtain ⟨ended, same⟩ := indistinct_of_told sealed plain
  exact Handing.kept_of_ended rooted (by decide) codes (fun agrees companions => companions.through
    (codes.peer rooted agrees) (arguments.peer rooted agrees) r) ended same

theorem talliedStore_original : talliedStore.Original :=
  ⟨rfl, rfl, by decide, rfl, rfl⟩

/-- A generator of a function that passes its argument to the thunk. -/
def passing : Term := .fn ["self"] (.fn ["n"] (.app (.var "self") [.var "n"]))

/-- That generator as a value of a session. -/
def passingMade : Value :=
  match passing.eval (.ofFuel 9) [] Session.unbounded with
  | .ok generator _ => generator
  | .error _ _ => .none

/-- A tuple cannot be written where its one member cannot. -/
theorem unwritten_tuple {n : Nat} (long : Nat.pow 10 Text.digitLimit ≤ n) (s : Store) (mark : Nat) :
    (s.view (.tuple mark [.int n])).showWith s.frame =
      Value.tupleText <$> (.error (.value .integerTooLong) : Except Fault (List String)) := by
  obtain ⟨hops, counted⟩ : ∃ hops, s.contents.length + s.namespaces.length + s.tables.length + codeHops = hops + 1 :=
    ⟨_, rfl⟩
  have viewed : s.view (.tuple mark [.int n]) = .tuple mark [.int n] := by
    rw [Store.view, counted, Value.withContents.eq_def]
    simp [lies, Value.withContentsAll, Value.withContents]
  rw [viewed, Value.showWith.eq_def]
  dsimp only
  rw [Value.showAll.eq_def]
  dsimp only
  rw [Book.showWith_int, Book.integerText_of_long (i := n) long]
  rfl

end Machine

end Knot
