import Knot.Proofs.FixedPoints.Outcomes
import Knot.Proofs.FixedPoints.Sealing
import Knot.Proofs.Recursion.Fixing

/-!
Generators and direct-style code that keep to their part. Whether one does in a run that ends can be seen from the
run with just enough fuel, since what a run comes to it comes to with more fuel as well.
-/

namespace Knot

open Run Renaming Machine

/-- In a run, code keeps to its part: the run comes to the same where the code is held to that. -/
def Handing.Kept (h : Handing) (seals : Bool) (run : Machine → Run Value) (s : Store) : Prop :=
  SameRun s.nextMark (fun n => run (levels (holding h seals) n) s) (fun n => run (levels (noting h) n) s)

/-- What the fixed point of a generator gives for an argument. -/
def Fixing.through (r : Fixing) (k : Machine) (g x : Value) : Run Value := do
  let f ← r.build k g
  k.call f [x] []

/-- What the fixed point of direct-style code gives for an argument. -/
def DirectFixing.through (r : DirectFixing) (k : Machine) (d x : Value) : Run Value := do
  let f ← r.build k d
  k.call f [x] []

/-- Where no note is to be printed, the machine is the one of the language. -/
theorem Machine.levels_silent (code : Value) (direct : Bool) (n : Nat) :
    levels (noting ⟨code, direct, ""⟩) n = .ofFuel n := by
  rw [noting_eq rfl, levels_callValue]

/-! More fuel. -/

/-- What a computation comes to it comes to with more fuel as well. -/
def Lasting (known : Nat) (x : Nat → EStateM.Result Stop Store Value) : Prop :=
  ∀ {m n}, m ≤ n → Ended (x m) → Indistinct known (x n) (x m)

section

variable {known : Nat} {x y : Nat → EStateM.Result Stop Store Value}

/-- It ends in one way only. -/
theorem Lasting.same (lasting : Lasting known x) {m n : Nat} (ended : Ended (x m)) (ended' : Ended (x n)) :
    Indistinct known (x m) (x n) := by
  rcases Nat.le_total m n with le | le
  · exact (lasting le ended).symm
  · exact lasting le ended'

/-- Computations come to the same that do in one run of each. -/
theorem SameRun.of_ended (lasting : Lasting known x) (lasting' : Lasting known y) {n m : Nat} (ended : Ended (x n))
    (same : Indistinct known (x n) (y m)) : SameRun known x y where
  forth _ ended' := ⟨m, (lasting.same ended' ended).trans same⟩
  back _ ended' := ⟨n, same.trans (lasting'.same (same.ended ended) ended')⟩

end

namespace Twins

/-- Nothing stands for something else for calls only. -/
def nothing (known : Nat) : Twins where
  Twin _ _ _ := False
  form _ _ := true
  known := List.range known
  settled := nofun
  later _ := id

variable {T : Twins} {way : Way} {known : Nat} {w : Stage} {h : Handing} {G : Gate} {seals : Bool} {k k' : Machine}

theorem not_linked {u v : Value} : ¬(nothing known).Linked w u v := by
  intro linked
  induction linked with
  | twin twin => exact twin
  | counted _ _ _ ih => exact ih

theorem nothing_hands (alike : G.Alike) (routine : G.code.isRoutine) (marks : ∀ m ∈ G.code.ownMarks, m < known) :
    (nothing known).Hands G where
  alike := alike
  routine := routine
  known m own := List.mem_range.mpr (marks m own)
  delays := nofun
  apart _ := nofun
  admits _ := .inl rfl
  sealed _ _ admits := admits

theorem nothing_lawful {rule : Rule}
    (call : ∀ {k k'}, (nothing known).Companions way k k' → ∀ {w f f' args args' named named'},
    Peer w f f' → Peers w args args' → PeersNamed w named named' →
      (nothing known).Parallel way w Peer (rule k f args named) (rule k' f' args' named')) :
    (nothing known).Lawful way rule 0 where
  call companions _ _ _ _ _ _ _ := call companions
  handed _ _ _ _ _ _ _ _ _ _ linked := absurd linked not_linked
  counted _ _ _ _ _ _ _ _ _ _ _ _ _ linked _ _ _ _ := absurd linked not_linked
  twin _ _ _ _ _ _ _ _ _ twin := twin.elim

/-- Calls go alike where a note is printed whenever the code is handed a delay. -/
theorem Companions.callNoting (companions : T.Companions way k k') (hands : T.Hands h.gate) {f f' : Value}
    {args args' : List Value} {named named' : Named} (fs : Peer w f f') (peers : Peers w args args')
    (keys : PeersNamed w named named') :
    T.Parallel way w Peer (noting h k f args named) (noting h k' f' args' named') := by
  refine .given fun sound => ?_
  have handed : h.handed? f' args' named' = (h.handed? f args named).map (Value.rename w.names) :=
    hands.handed_eq sound (hands.same_eq sound fs) peers keys
  unfold noting
  rw [handed]
  cases h.handed? f args named with
  | none => exact companions.callValue fs peers keys
  | some p =>
      have noted : T.Parallel way w (Via fun _ => id) (Run.print h.note) (Run.print h.note) :=
        .none fun _ => print_equi h.note
      exact noted.bind fun _ _ _ leads _ =>
        companions.callValue (fs.later leads) (peers.later leads) (keys.later leads)

section

variable (companions : T.Companions way k k') {g g' x x' : Value} (gs : Peer w g g') (xs : Peer w x x')
include companions gs

theorem Companions.attribute (name : String) :
    T.Parallel way w Peer (do k.call (← getAttribute outermost name) [g] [])
      (do k'.call (← getAttribute outermost name) [g'] []) := by
  have read : T.Parallel way w Peer (getAttribute outermost name) (getAttribute outermost name) :=
    .none fun r => by simpa [outermost, Value.rename] using getAttribute_equi (r := r) outermost name
  exact read.bind fun _ _ _ leads made => companions.call made (.cons (gs.later leads) (.nil _)) (.nil _)

include xs

/-- Fixed points of generators that stand for each other come to the same. -/
theorem Companions.through (r : Fixing) : T.Parallel way w Peer (r.through k g x) (r.through k' g' x') := by
  have built : T.Parallel way w Peer (r.build k g) (r.build k' g') := by
    cases r with
    | native => exact companions.call (.atom _ fun _ => rfl) (.cons gs (.nil _)) (.nil _)
    | calculus => exact companions.attribute gs "Υ"
  exact built.bind fun _ _ _ leads functions => companions.call functions (.cons (xs.later leads) (.nil _)) (.nil _)

/-- So do fixed points of direct-style code. -/
theorem Companions.throughDirect (r : DirectFixing) :
    T.Parallel way w Peer (r.through k g x) (r.through k' g' x') := by
  have builtin (b : Builtin) (w : Stage) : Peer w (.builtin b) (.builtin b) := .atom _ fun _ => rfl
  have built : T.Parallel way w Peer (r.build k g) (r.build k' g') := by
    cases r with
    | selfApplied => exact companions.call (builtin ..) (.cons gs (.nil _)) (.nil _)
    | adapted =>
        exact (companions.call (builtin ..) (.cons gs (.nil _)) (.nil _)).bind fun _ _ _ _ adapted =>
          companions.call (builtin ..) (.cons adapted (.nil _)) (.nil _)
    | calculus => exact companions.attribute gs "Υ1"
  exact built.bind fun _ _ _ leads functions => companions.call functions (.cons (xs.later leads) (.nil _)) (.nil _)

end

/-- With a rule that goes alike with itself, a computation that does lasts, whatever settled parts it has. -/
theorem lasting {s : Store} (rooted : Rooted s) {rule : Rule} (lawful : (nothing s.nextMark).Lawful .back rule 0)
    (run : Machine → Run Value) (alike : ∀ {names k k'}, Renaming.same.Agrees names s →
      (nothing s.nextMark).Companions .back k k' →
        (nothing s.nextMark).Parallel .back ⟨names, s, s⟩ Peer (run k) (run k')) :
    Lasting s.nextMark fun n => run (levels rule n) s := by
  obtain ⟨names, agrees, sound⟩ := Sound.start (T := nothing s.nextMark) rooted
    (fun _ known => List.mem_range.mp known) (.refl ..) (fun _ member => nomatch member) (by simp [nothing]) trivial
  intro m n le ended
  have alike := alike agrees (lawful.companions le)
  exact (alike sound).indistinct (fun _ below => List.mem_range.mpr below) (.inr ⟨rfl, ended⟩)

/-- So does one that starts where another store only has more. -/
theorem sameRun_aside {s t : Store} (run : Machine → Run Value) (rooted : Rooted s) (adds : Adds [] s t)
    (tallies : t.tallies = s.tallies) {rule : Rule} (lawful : ∀ way, (nothing s.nextMark).Lawful way rule 0)
    (alike : ∀ {way names k k'}, Renaming.same.Agrees names s →
      (nothing s.nextMark).Companions way k k' →
        (nothing s.nextMark).Parallel way ⟨names, s, t⟩ Peer (run k) (run k')) :
    SameRun s.nextMark (fun n => run (levels rule n) s) (fun n => run (levels rule n) t) := by
  obtain ⟨names, agrees, sound⟩ := Sound.start (T := nothing s.nextMark) rooted
    (fun _ known => List.mem_range.mp known) adds (fun _ member => nomatch member) (by simp [nothing, tallies]) trivial
  have paced (way : Way) (n : Nat) : way.Paced 0 n n := by
    cases way <;> simp [Way.Paced]
  have through (way : Way) (n : Nat) : (nothing s.nextMark).Parallel way ⟨names, s, t⟩ Peer
      (run (levels rule n)) (run (levels rule n)) := alike agrees ((lawful way).companions (paced way n))
  exact sound.sameRun (x := fun n => run (levels rule n)) (y := fun n => run (levels rule n))
    (fun _ known => List.mem_range.mpr known) (fun n => ⟨n, through .forth n⟩) fun n => ⟨n, through .back n⟩

end Twins

/-- What stays under all renamings that leave a store alone is known by marks of that store. -/
theorem Rooted.ownMarks_lt {s : Store} {g : Value} (rooted : Rooted s) (settled : Settled s g) :
    ∀ m ∈ g.ownMarks, m < s.nextMark := by
  intro m own
  refine rooted.mark_lt fun r fixes => ?_
  have fixed := settled r fixes
  cases g <;> simp_all [Value.ownMarks, Value.rename]

namespace Handing

open Twins

variable {h : Handing} {seals : Bool} {s : Store} (rooted : Rooted s) (routine : h.code.isRoutine)
  (codes : Settled s h.code)
include rooted routine codes

/-- Code keeps to its part in a run that ends as it does where the code is held to that. -/
theorem kept_of_ended {run : Machine → Run Value} (alike : ∀ {names k k'}, Renaming.same.Agrees names s →
      (nothing s.nextMark).Companions .back k k' →
        (nothing s.nextMark).Parallel .back ⟨names, s, s⟩ Peer (run k) (run k'))
    {n m : Nat} (ended : Ended (run (levels (holding h seals) n) s))
    (same : Indistinct s.nextMark (run (levels (holding h seals) n) s) (run (levels (noting h) m) s)) :
    h.Kept seals run s := by
  have hands : (nothing s.nextMark).Hands h.gate := nothing_hands h.gate_alike routine (rooted.ownMarks_lt codes)
  have held : Lasting s.nextMark fun n => run (levels (holding h seals) n) s :=
    lasting rooted (nothing_lawful fun companions => companions.callGating hands) run alike
  have noted : Lasting s.nextMark fun n => run (levels (noting h) n) s :=
    lasting rooted (nothing_lawful fun companions => companions.callNoting hands) run alike
  exact SameRun.of_ended held noted ended same

end Handing

end Knot
