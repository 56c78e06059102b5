import Knot.Proofs.Effects.Composition

/-!
What every machine with fuel does to a store. A law relates the store before a run to the one that a
run leaves when it ends. It goes on from run to run, holds of whatever leaves the stack, the managers
and the tallies alone, and says for itself what becomes of those. Then it holds of all that a machine
calls and evaluates, if it does of deriving fixed points and counting them.
-/

namespace Knot

open Run Store

namespace Run

variable {α β : Type}

/-- A run that ends, with a value or a fault, leaves a store. -/
inductive Leaves (x : Run α) (s : Store) : Store → Prop
  | value {a : α} {t : Store} : x s = .ok a t → Leaves x s t
  | fault {f : Fault} {t : Store} : x s = .error (.fault f) t → Leaves x s t

namespace Leaves

variable {x : Run α} {s t u : Store}

theorem after (leaves : x.Leaves s t) : x.after s = t := by
  cases leaves with
  | value run => exact after_of_ok run
  | fault run => exact after_of_error run

theorem congr {y : Run α} (leaves : x.Leaves s u) (same : x s = y t) : y.Leaves t u := by
  cases leaves with
  | value run => exact .value (same ▸ run)
  | fault run => exact .fault (same ▸ run)

theorem not_of_outOfFuel (run : x s = .error .outOfFuel t) : ¬x.Leaves s u := by
  intro leaves
  cases leaves with
  | value ends => cases run ▸ ends
  | fault ends => cases run ▸ ends

/-- A sequence of runs ends where the first one fails, or else where the second one ends. -/
theorem of_bind {h : α → Run β} (leaves : (x >>= h).Leaves s u) :
    (∃ f, x s = .error (.fault f) u) ∨ ∃ a t, x s = .ok a t ∧ (h a).Leaves t u := by
  cases run : x s with
  | ok a t => exact .inr ⟨a, t, rfl, leaves.congr (bind_of_ok run)⟩
  | error e t =>
      have whole : (x >>= h) s = .error e t := bind_of_error run
      cases leaves with
      | value ends => cases whole ▸ ends
      | fault ends =>
          cases whole ▸ ends
          exact .inl ⟨_, rfl⟩

theorem of_discard_bind {h : Unit → Run β} (leaves : (Functor.discard x >>= h).Leaves s u) :
    (x >>= fun _ => h ()).Leaves s u := by
  simpa only [Functor.discard, map_const, Function.comp, bind_map_left] using leaves

/-- A run with a handler ends where it has a value, or else where the handler ends. -/
theorem of_recover {h : Fault → Run α} (leaves : (Run.recover x h).Leaves s u) :
    (∃ a, x s = .ok a u) ∨ ∃ f t, x s = .error (.fault f) t ∧ (h f).Leaves t u := by
  cases run : x s with
  | ok a t =>
      have whole : Run.recover x h s = .ok a t := recover_of_ok run
      cases leaves with
      | value ends =>
          cases whole ▸ ends
          exact .inl ⟨_, rfl⟩
      | fault ends => cases whole ▸ ends
  | error e t =>
      cases e with
      | outOfFuel => exact absurd leaves (not_of_outOfFuel (recover_of_outOfFuel run))
      | fault f => exact .inr ⟨f, t, rfl, leaves.congr (recover_of_fault run)⟩

/-- What runs last does so however the run ended. -/
theorem of_ensuring {last : Run Unit} (leaves : (Run.ensuring x last).Leaves s u) :
    ∃ t, x.Leaves s t ∧ last.Leaves t u := by
  cases run : x s with
  | ok a t =>
      have whole : Run.ensuring x last s = (do last; return a) t := bind_of_ok (recover_of_ok run)
      obtain ⟨f, broken⟩ | ⟨_, t', done, returned⟩ := (leaves.congr whole).of_bind
      · exact ⟨t, .value run, .fault broken⟩
      · cases returned.after
        exact ⟨t, .value run, .value done⟩
  | error e t =>
      cases e with
      | outOfFuel =>
          exact absurd leaves (not_of_outOfFuel (bind_of_error (recover_of_outOfFuel run)))
      | fault f =>
          have caught : Run.recover x (fun f => do last; Run.fault f) s = (do last; Run.fault f) t :=
            recover_of_fault run
          cases ends : last t with
          | ok _ t' =>
              have whole : Run.ensuring x last s = .error (.fault f) t' :=
                bind_of_error (caught.trans (bind_of_ok ends))
              have here : u = t' := leaves.after.symm.trans (after_of_error whole)
              exact ⟨t, .fault run, here ▸ .value ends⟩
          | error e t' =>
              have whole : Run.ensuring x last s = .error e t' :=
                bind_of_error (caught.trans (bind_of_error ends))
              have here : u = t' := leaves.after.symm.trans (after_of_error whole)
              cases e with
              | outOfFuel => exact absurd leaves (not_of_outOfFuel whole)
              | fault g => exact ⟨t, .fault run, here ▸ .fault ends⟩

end Leaves

/-- Where the run ends, the store before is related to the one that it leaves. -/
def Leads (holds : Store → Store → Prop) (x : Run α) : Prop := ∀ s t, x.Leaves s t → holds s t

end Run

namespace Run

/-- What holds of a refused call and does not depend on the depth holds of a run one call deeper. -/
theorem deeper_leads {α : Type} {holds : Store → Store → Prop} {x : Run α}
    (refused : ∀ s, holds s (s.did .refused))
    (levels : ∀ {s t} depth depth', holds (atDepth depth s) t → holds s (atDepth depth' t))
    (leads : Leads holds x) : Leads holds (deeper x) := by
  intro s u leaves
  cases room : s.stack.room with
  | none =>
      have whole : deeper x s = x s := by simp [deeper, room]
      exact leads s u (leaves.congr whole)
  | some n =>
      cases full : s.stack.full with
      | true =>
          have whole : deeper x s = .error (.fault .stackExhausted) (s.did .refused) := by
            simp [deeper, room, full]
          have here : u = s.did .refused := leaves.after.symm.trans (after_of_error whole)
          rw [here]
          exact refused s
      | false =>
          obtain ⟨t, inner, rfl⟩ : ∃ t, x.Leaves (atDepth (s.stack.depth + 1) s) t ∧
              u = atDepth s.stack.depth t := by
            cases run : x (atDepth (s.stack.depth + 1) s) with
            | ok a t =>
                have whole : deeper x s = .ok a (atDepth s.stack.depth t) := by
                  simp [deeper, room, full, run]
                exact ⟨t, .value run, leaves.after.symm.trans (after_of_ok whole)⟩
            | error e t =>
                have whole : deeper x s = .error e (atDepth s.stack.depth t) := by
                  simp [deeper, room, full, run]
                cases e with
                | outOfFuel => exact absurd leaves (Leaves.not_of_outOfFuel whole)
                | fault f => exact ⟨t, .fault run, leaves.after.symm.trans (after_of_error whole)⟩
          exact levels _ _ (leads _ t inner)

end Run

/-- What holds of the stores before and after runs. -/
structure Law where
  holds : Store → Store → Prop
  trans : ∀ {s t u}, holds s t → holds t u → holds s u
  same : ∀ {s t}, Same s t → holds s t
  atDepth : ∀ s depth, holds s (atDepth depth s)
  refused : ∀ s, holds s (s.did .refused)
  tally : ∀ derivations thunkCalls, Leads holds (Run.tally derivations thunkCalls)
  entered : ∀ mark limit, Leads holds (Method.enter (.manager mark limit))
  left : ∀ mark limit, Leads holds (Method.leave (.manager mark limit))
  underLimit : ∀ mark limit {α : Type} {x : Run α}, Leads holds x → Leads holds (underLimit mark limit x)

variable {law : Law}

namespace Run

variable {α β : Type} {x : Run α}

theorem Still.leads (still : Still x) : Leads law.holds x :=
  fun s _ leaves => law.same (leaves.after ▸ still s)

theorem Tame.leads (tame : Tame x) : Leads law.holds x := tame.still.leads

namespace Leads

theorem outOfFuel {holds : Store → Store → Prop} : Leads holds (Run.outOfFuel : Run α) := by
  intro s t leaves
  cases leaves with
  | value run => cases run
  | fault run => cases run

theorem bind {h : α → Run β} (first : Leads law.holds x) (second : ∀ a, Leads law.holds (h a)) :
    Leads law.holds (x >>= h) := by
  intro s u leaves
  obtain ⟨f, failed⟩ | ⟨a, t, run, rest⟩ := leaves.of_bind
  · exact first s u (.fault failed)
  · exact law.trans (first s t (.value run)) (second a t u rest)

theorem recover {h : Fault → Run α} (first : Leads law.holds x)
    (second : ∀ f, Leads law.holds (h f)) : Leads law.holds (Run.recover x h) := by
  intro s u leaves
  obtain ⟨a, run⟩ | ⟨f, t, run, rest⟩ := leaves.of_recover
  · exact first s u (.value run)
  · exact law.trans (first s t (.fault run)) (second f t u rest)

theorem get {h : Store → Run β} (second : ∀ s, Leads law.holds (h s)) :
    Leads law.holds ((MonadState.get : Run Store) >>= h) := by
  intro s t leaves
  cases leaves with
  | value ends => exact second s s t (.value ends)
  | fault ends => exact second s s t (.fault ends)

theorem ite {c : Prop} [Decidable c] {y : Run α} (yes : Leads law.holds x) (no : Leads law.holds y) :
    Leads law.holds (if c then x else y) := by
  split
  · exact yes
  · exact no

theorem deeper (leads : Leads law.holds x) : Leads law.holds (Run.deeper x) :=
  deeper_leads law.refused (fun depth depth' between =>
    law.trans (law.trans (law.atDepth _ depth) between) (law.atDepth _ depth')) leads

end Leads

end Run

/-- A machine that keeps a law by whatever it calls or evaluates. -/
structure Machine.Obeys (k : Machine) (law : Law) : Prop where
  call : ∀ f args named, Leads law.holds (k.call f args named)
  evaluate : ∀ expr env, Leads law.holds (k.evaluate expr env)

/-- A machine that keeps a law where it derives fixed points and counts them. -/
structure Machine.Derives (k : Machine) (law : Law) : Prop where
  build : ∀ generator, Leads law.holds (FixedPoint.build k generator)
  force : ∀ generator args named, Leads law.holds (FixedPoint.force k generator args named)
  deriveCounted : ∀ generator tally thunk,
    Leads law.holds (FixedPoint.deriveCounted k generator tally thunk)
  forceCounted : ∀ inner tally args named,
    Leads law.holds (FixedPoint.forceCounted k inner tally args named)

variable {k : Machine}

/-- What is put together of runs that keep a law keeps it. -/
theorem Run.Composed.leads {given : Run Value → Prop} (keeps : k.Obeys law)
    (fixed : ∀ x, given x → Leads law.holds x) {α : Type} {x : Run α} (composed : Composed k given x) :
    Leads law.holds x := by
  induction composed with
  | tame tame => exact tame.leads
  | given holds => exact fixed _ holds
  | call f args named => exact keeps.call f args named
  | evaluate expr env => exact keeps.evaluate expr env
  | tally derivations thunkCalls => exact law.tally derivations thunkCalls
  | entered mark limit => exact law.entered mark limit
  | left mark limit => exact law.left mark limit
  | underLimit mark limit _ ih => exact law.underLimit mark limit ih
  | bind _ _ first second => exact first.bind second
  | recover _ _ first second => exact first.recover second
  | get _ _ second => exact .get second

theorem Machine.Derives.derivation (derives : k.Derives law) {x : Run Value} (derivation : k.Derivation x) :
    Leads law.holds x := by
  cases derivation with
  | build generator => exact derives.build generator
  | force generator args named => exact derives.force generator args named
  | deriveCounted generator tally thunk => exact derives.deriveCounted generator tally thunk
  | forceCounted inner tally args named => exact derives.forceCounted inner tally args named

/-- Calls and evaluations are all that a machine needs to keep a law by. -/
theorem Run.Composed.obeys (keeps : k.Obeys law) {α : Type} {x : Run α}
    (composed : Composed k (fun _ => False) x) : Leads law.holds x :=
  composed.leads keeps fun _ none => none.elim

theorem FixedPoint.derive_leads (keeps : k.Obeys law) (generator : Value) :
    Leads law.holds (derive k generator) :=
  (derive_composed generator).obeys keeps

namespace Machine

/-- Every machine with fuel keeps a law that deriving and counting keep. -/
theorem keeps_ofFuel (derives : ∀ n, (∀ m ≤ n, (ofFuel m).Obeys law) → (ofFuel n).Derives law)
    (n : Nat) : (ofFuel n).Obeys law := by
  induction n using Nat.strongRecOn with
  | ind n ih =>
      cases n with
      | zero => exact ⟨fun _ _ _ => .outOfFuel, fun _ _ => .outOfFuel⟩
      | succ n =>
          have keeps : (ofFuel n).Obeys law := ih n (Nat.lt_succ_self n)
          have derives := derives n fun m below => ih m (Nat.lt_succ_of_le below)
          constructor
          · intro f args named
            have called : Composed (ofFuel n) (ofFuel n).Derivation (callValue (ofFuel n) f args named) :=
              callValue_composed (fun _ derivation => derivation) f args named
            exact (called.leads keeps fun _ => derives.derivation).deeper
          · intro expr env
            exact ((Calculus.eval_composed expr env).obeys keeps).deeper

/-- The stores that a machine passes through, one after another: terms are run, values called and
expressions evaluated, each however it ends; calls go deeper and come back, and values do what they do
by themselves. -/
inductive Traverses (k : Machine) : Store → Store → Prop
  | here (s : Store) : Traverses k s s
  | runs {s t u : Store} {term : Term} {scope : Scope} :
      (term.eval k scope).Leaves s t → Traverses k t u → Traverses k s u
  | calls {s t u : Store} {f : Value} {args : List Value} {named : Named} :
      (k.call f args named).Leaves s t → Traverses k t u → Traverses k s u
  | evaluates {s t u : Store} {expr env : Value} :
      (k.evaluate expr env).Leaves s t → Traverses k t u → Traverses k s u
  | moves {s u : Store} {depth : Nat} : Traverses k (atDepth depth s) u → Traverses k s u
  | does {s t u : Store} : Same s t → Traverses k t u → Traverses k s u

theorem Traverses.holds (keeps : k.Obeys law) {s t : Store} (passes : k.Traverses s t) : law.holds s t := by
  induction passes with
  | here s => exact law.same (.refl s)
  | runs run _ ih => exact law.trans ((Term.eval_composed _ _).obeys keeps _ _ run) ih
  | calls run _ ih => exact law.trans (keeps.call _ _ _ _ _ run) ih
  | evaluates run _ ih => exact law.trans (keeps.evaluate _ _ _ _ run) ih
  | moves _ ih => exact law.trans (law.atDepth _ _) ih
  | does same _ ih => exact law.trans (law.same same) ih

end Machine

end Knot
