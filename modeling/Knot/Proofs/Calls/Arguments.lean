import Knot.Proofs.Calls.Copies
import Mathlib.Data.List.Forall2

/-!
Passing arguments or copies of them. Two calls of a procedure that bind arguments and copies of them in
frames of their own go alike: what is bound are copies in both, and the marks are all that tells them
apart.
-/

namespace Knot

open Run Renaming

/-- A store and an image of it that will number alike what they make. -/
structure Beside (r : Renaming) (t u : Store) : Prop where
  image : Image r t u
  marks : ∀ i, r.mark (t.nextMark + i) = u.nextMark + i
  frames : ∀ i, r.frame (t.frames.size + i) = u.frames.size + i

/-- Ends of two runs that are alike but for marks: results or faults, and what the stores hold. -/
inductive Meets {α β : Type} (r : Renaming) (f : α → β) :
    EStateM.Result Stop Store α → EStateM.Result Stop Store β → Prop
  | ok {a : α} {t u : Store} : Beside r t u → Meets r f (.ok a t) (.ok (f a) u)
  | error {e e' : Stop} {t u : Store} :
      e'.bare = e.bare → Beside r t u → Meets r f (.error e t) (.error e' u)

section

variable {α β γ δ : Type} {r : Renaming} {f : α → β} {g : γ → δ} {t t' u u' : Store}

theorem Beside.after (beside : Beside r t u) (went : Went 0 t t') (follows : Follows r t t' u u') :
    Beside r t' u' where
  image := follows.image
  marks i := by
    obtain ⟨n, made⟩ := Nat.exists_eq_add_of_le went.marks
    have numbered := beside.marks (n + i)
    have marks := follows.marks
    rw [made, Nat.add_assoc, numbered]
    omega
  frames i := by
    obtain ⟨n, made⟩ := Nat.exists_eq_add_of_le went.frames
    have numbered := beside.frames (n + i)
    have frames := follows.frames
    rw [made, Nat.add_assoc, numbered]
    omega

theorem Beside.skip (beside : Beside r t u) (n : Nat) : Beside r (t.skip n) (u.skip n) where
  image := ⟨beside.image.frames, beside.image.tallies, beside.image.contents, beside.image.tables,
    beside.image.given, beside.image.namespaces, beside.image.entered, beside.image.session,
    beside.image.stack, beside.image.out⟩
  marks i := by
    simp only [Store.skip, Nat.add_assoc]
    exact beside.marks (n + i)
  frames := beside.frames

theorem Run.Alike.meets {x : Run α} {y : Run β} (alike : Alike r f x y) (beside : Beside r t u) :
    Meets r f (x t) (y u) := by
  have allots (t' : Store) : Allots r t t' u := ⟨fun i _ => beside.marks i, fun i _ => beside.frames i⟩
  cases run : x t with
  | ok a t' =>
      have went : Went 0 t t' := after_of_ok run ▸ alike.went t (Nat.zero_le _)
      obtain ⟨u', run', follows⟩ := alike.ok beside.image run (allots t')
      rw [run']
      exact .ok (beside.after went follows)
  | error e t' =>
      have went : Went 0 t t' := after_of_error run ▸ alike.went t (Nat.zero_le _)
      obtain ⟨e', u', run', bare, follows⟩ := alike.error beside.image run (allots t')
      rw [run']
      exact .error bare (beside.after went follows)

theorem Meets.bind {x : Run α} {y : Run β} {h : α → Run γ} {k : β → Run δ}
    (first : Meets r f (x t) (y u))
    (second : ∀ a t' u', x t = .ok a t' → Beside r t' u' → Meets r g (h a t') (k (f a) u')) :
    Meets r g ((x >>= h) t) ((y >>= k) u) := by
  cases run : x t with
  | ok a t' =>
      cases run' : y u with
      | ok b u' =>
          rw [run, run'] at first
          cases first with
          | ok beside =>
              rw [bind_of_ok run, bind_of_ok run']
              exact second a t' u' run beside
      | error e u' =>
          rw [run, run'] at first
          cases first
  | error e t' =>
      cases run' : y u with
      | ok b u' =>
          rw [run, run'] at first
          cases first
      | error e' u' =>
          rw [run, run'] at first
          cases first with
          | error bare beside =>
              rw [bind_of_error run, bind_of_error run']
              exact .error bare beside

end

variable {s t u : Store} {r : Renaming}

/-! Copies of arguments. -/

/-- A value for another one: that value itself, or a copy of it that was not made before, with marks
below a limit. -/
def Stands (s : Store) (limit depth : Nat) (v w : Value) : Prop :=
  ∃ count copy, Copies (fun k env v => k.evaluate v env) (fun r v => v.rename r) s v depth count copy ∧
    (∀ m, s.nextMark ≤ m → NewTable s (copy m)) ∧
      (w = v ∨ ∃ m, w = copy m ∧ s.nextMark ≤ m ∧ m + count ≤ limit)

theorem Copies.deepen {β : Type} {run : Machine → Value → β → Run β} {ren : Renaming → β → β} {b : β}
    {depth depth' count : Nat} {copy : Nat → β} (copies : Copies run ren s b depth count copy)
    (deeper : depth ≤ depth') : Copies run ren s b depth' count copy where
  first t holds n enough := copies.first t holds n (deeper.trans enough)
  again t m room clear n enough := copies.again t m room clear n (deeper.trans enough)
  renamed := copies.renamed

theorem Stands.mono {limit limit' depth depth' : Nat} {v w : Value} (stands : Stands s limit depth v w)
    (below : limit ≤ limit') (deeper : depth ≤ depth') : Stands s limit' depth' v w := by
  obtain ⟨count, copy, copies, tables, same⟩ := stands
  refine ⟨count, copy, copies.deepen deeper, tables, same.imp_right ?_⟩
  rintro ⟨m, same, given, inside⟩
  exact ⟨m, same, given, inside.trans below⟩

/-- Plain arguments are evaluated to copies of them. -/
theorem evaluate_all (rooted : Rooted s) (vs : List Value) (plain : ∀ v ∈ vs, Plain s v)
    (settled : ∀ v ∈ vs, Settled s v) : ∃ (depth count : Nat) (copies : Nat → List Value),
      (∀ t, Holds s t → ∀ n, depth ≤ n → ∀ env,
        vs.mapM ((Machine.ofFuel n).evaluate · env) t = .ok (copies t.nextMark) (t.skip count)) ∧
      ∀ m, s.nextMark ≤ m → List.Forall₂ (Stands s (m + count) depth) vs (copies m) := by
  induction vs with
  | nil => exact ⟨0, 0, fun _ => [], fun _ _ _ _ _ => rfl, fun _ _ => .nil⟩
  | cons v vs ih =>
      obtain ⟨depth, count, copy, one, tables⟩ :=
        (plain v (List.mem_cons_self ..)).copied rooted (settled v (List.mem_cons_self ..))
      obtain ⟨depth', count', copies, rest, stands⟩ := ih
        (fun v member => plain v (List.mem_cons_of_mem _ member))
        (fun v member => settled v (List.mem_cons_of_mem _ member))
      refine ⟨max depth depth', count + count', fun m => copy m :: copies (m + count),
        fun t holds n enough env => ?_, fun m given => .cons ?_ ?_⟩
      · have ran := one.first t holds n ((Nat.le_max_left ..).trans enough) env
        have ran' := rest (t.skip count) (holds.skip count) n ((Nat.le_max_right ..).trans enough) env
        rw [List.mapM_cons, bind_of_ok ran, bind_of_ok ran', Store.skip_skip]
        rfl
      · exact ⟨count, copy, one.deepen (Nat.le_max_left ..), tables, .inr ⟨m, rfl, given, by omega⟩⟩
      · refine (stands (m + count) (by omega)).imp fun v w stands => ?_
        exact stands.mono (by omega) (Nat.le_max_right ..)

/-! Nothing was recorded for marks that a renaming skips. -/

theorem lookup_skipped {κ α β : Type} [DecidableEq κ] {f : κ → κ} {g : α → β} {key : κ}
    (skipped : ∀ k, f k ≠ key) (bindings : Bindings κ α) :
    List.lookup key (bindings.map (Prod.map f g)) = none := by
  induction bindings with
  | nil => rfl
  | cons entry rest ih =>
      have other : (key == f entry.1) = false := by simpa using (skipped entry.1).symm
      simp only [List.map_cons, Prod.map, List.lookup_cons, other]
      exact ih

theorem Image.clear (image : Image r t u) {m n : Nat}
    (skipped : ∀ mark, m ≤ mark → mark < n → ∀ x, r.mark x ≠ mark) : Clear u m n := by
  intro mark low high
  have apart := skipped mark low high
  refine ⟨?_, ?_⟩
  · rw [image.contents]
    exact lookup_skipped apart _
  · have spaces : u.namespaces.lookup mark = none := by
      rw [image.namespaces]
      exact lookup_skipped apart _
    rw [Store.table?, spaces, image.tables]
    exact lookup_skipped apart _

/-- In an image, settled values hold what they hold in the store itself. -/
theorem Beside.holds (beside : Beside r t u) (rooted : Rooted s) (fixes : r.Fixes s) (keeps : Keeps s t) :
    Holds s u where
  room := by rw [beside.image.stack, keeps.room]
  head v settled := by
    have held := beside.image.head v
    rw [settled r fixes, keeps.head rooted settled, rooted.settled_head settled r fixes] at held
    exact held

/-- Arguments are bound in frames that were not there before. -/
theorem Keeps.passed (keeps : Keeps s t) (rooted : Rooted s) {id : Nat} (new : s.frames.size ≤ id)
    (inside : id < t.frames.size) {name : String} {v : Value} (table : NewTable s v)
    {t' : Store} (run : Run.writing .call (Run.bind id name v) t = .ok () t') : Keeps s t' := by
  unfold Run.writing at run
  cases ran : Run.bind id name v { t with writer := .call } with
  | ok a t'' =>
      simp only [ran] at run
      cases run
      exact ((keeps.writing .call).bind rooted new inside table ran).writing t.writer
  | error e t'' => simp [ran] at run

namespace Calculus

/-- Binding arguments and binding copies of them in frames of their own goes alike. -/
theorem bindAll_meets (rooted : Rooted s) (fixes : r.Fixes s) {limit depth n : Nat}
    (skipped : ∀ mark, s.nextMark ≤ mark → mark < limit → ∀ x, r.mark x ≠ mark) (enough : depth ≤ n)
    (target caller caller' : Value) (names : List Value) {vs ws : List Value}
    (stands : List.Forall₂ (Stands s limit depth) vs ws) (keeps : Keeps s t) (beside : Beside r t u)
    (opens : ∀ id outer, target = .environment id outer →
      s.frames.size ≤ id ∧ id < t.frames.size ∨ names = []) :
    Meets r (fun _ : Unit => ()) (bindAll (.ofFuel n) target caller names vs t)
      (bindAll (.ofFuel n) (target.rename r) caller' (names.map (Value.rename r)) ws u) := by
  induction names generalizing vs ws t u with
  | nil => cases stands <;> exact .ok beside
  | cons name names ih =>
      cases stands with
      | nil => exact .ok beside
      | @cons v w vs ws stand stands =>
          have lacking : Meets r (fun _ : Unit => ()) (fault (target.lacks "φ") t)
              (fault ((target.rename r).lacks "φ") u) := by
            rw [Value.lacks_rename]
            exact .error rfl beside
          cases target with
          | environment id outer =>
              obtain ⟨new, inside⟩ : s.frames.size ≤ id ∧ id < t.frames.size :=
                (opens id outer rfl).resolve_right (List.cons_ne_nil _ _)
              obtain ⟨count, copy, copies, tables, stand⟩ := stand
              have ran := copies.first t (keeps.holds rooted) n enough caller
              have holds := beside.holds rooted fixes keeps
              have ran' : (Machine.ofFuel n).evaluate w caller' u = .ok (copy u.nextMark) (u.skip count) := by
                rcases stand with rfl | ⟨m, rfl, given, below⟩
                · exact copies.first u holds n enough caller'
                · exact copies.again u m holds.room (beside.image.clear fun mark low high =>
                    skipped mark (given.trans low) (high.trans_le below)) n enough caller'
              have same := copies.renamed r t.nextMark u.nextMark fixes fun i _ => beside.marks i
              have after := beside.skip count
              change Meets r _ (((Machine.ofFuel n).evaluate v caller >>= fun v => nameOf name >>= fun name =>
                  writing .call (Run.bind id name v) >>= fun _ =>
                    bindAll (.ofFuel n) (.environment id outer) caller names vs) t)
                (((Machine.ofFuel n).evaluate w caller' >>= fun v => nameOf (name.rename r) >>= fun name =>
                  writing .call (Run.bind (r.frame id) name v) >>= fun _ =>
                    bindAll (.ofFuel n) ((Value.environment id outer).rename r) caller'
                      (names.map (Value.rename r)) ws) u)
              rw [bind_of_ok ran, bind_of_ok ran', ← same]
              have refused : Meets r (fun _ : Unit => ())
                  (fault (.type (.attributeName name.operandName)) (t.skip count))
                  (fault (.type (.attributeName (name.rename r).operandName)) (u.skip count)) := by
                rw [Value.operandName_rename]
                exact .error rfl after
              cases name with
              | str name =>
                  refine ((passed_alike id name (copy t.nextMark)).meets after).bind
                    fun _ t' u' bound beside' => ?_
                  have table := tables t.nextMark keeps.marks
                  have kept := (keeps.skip count).passed rooted new inside table bound
                  have went : Went 0 (t.skip count) t' :=
                    after_of_ok bound ▸ passed_goesFrom (.inl (Nat.zero_le _)) _ _ (Nat.zero_le _)
                  refine ih stands kept beside' fun _ _ same => ?_
                  cases same
                  exact .inl ⟨new, inside.trans_le went.frames⟩
              | _ => exact refused
          | _ => exact lacking

end Calculus

/-! What reading leaves. -/

namespace Run

/-- A value gets at most one mark. -/
theorem marked_gives (v : Value) (t : Store) : ∃ w n, marked v t = .ok w (t.skip n) := by
  cases v with
  | float mark | list mark | tuple mark | dict mark | range mark | array mark | method mark =>
      cases mark
      · exact ⟨_, 1, rfl⟩
      · exact ⟨_, 0, rfl⟩
  | _ => exact ⟨_, 0, rfl⟩

theorem marked_skips {v w : Value} (run : marked v t = .ok w u) : ∃ n, u = t.skip n := by
  obtain ⟨w', n, given⟩ := marked_gives v t
  rw [given] at run
  cases run
  exact ⟨n, rfl⟩

theorem item_skips {o v : Value} {name : String} (ne : name ≠ "__dict__")
    (run : item o (.str name) t = .ok v u) : ∃ n, u = t.skip n := by
  have still (v : Value) : shareTable o (.str name) v = pure () := by
    cases o <;> simp [shareTable, ne]
  have step : item o (.str name) t = (ofExcept ((t.head o).itemAt t.frame (.str name)) >>= fun v =>
      shareTable o (.str name) v >>= fun _ => marked v) t := rfl
  rw [step] at run
  simp only [still] at run
  cases known : (t.head o).itemAt t.frame (.str name) with
  | error e =>
      rw [known] at run
      cases run
  | ok w =>
      rw [known] at run
      exact marked_skips run

theorem length_same {v : Value} {n : Nat} (run : length v t = .ok n u) : u = t := by
  have step : length v t = ofExcept (t.head v).length t := rfl
  rw [step] at run
  cases known : (t.head v).length with
  | error e =>
      rw [known] at run
      cases run
  | ok n' =>
      rw [known] at run
      cases run
      rfl

theorem members_same {v : Value} {vs : List Value} (run : members v t = .ok vs u)
    (other : ∀ mark dtype shape data, v ≠ .array mark dtype shape data) :
    u = t ∧ (t.head v).members = .ok vs := by
  obtain ⟨v', t', ran, run⟩ := ok_of_bind run
  cases ran
  obtain ⟨vs', t'', ran, run⟩ := ok_of_bind run
  cases known : (t.head v).members with
  | error e =>
      rw [known] at ran
      cases ran
  | ok vs'' =>
      rw [known] at ran
      cases ran
      cases v with
      | array mark dtype shape data => exact absurd rfl (other mark dtype shape data)
      | _ =>
          cases run
          exact ⟨rfl, rfl⟩

/-- The members of a list are those that it has now. -/
theorem members_list {v : Value} {mark : Nat} {items : List Value} (held : t.head v = .list mark items) :
    members v t = .ok items t := by
  unfold members
  rw [bind_of_ok (Machine.head_ok held)]
  rfl

theorem length_list {v : Value} {mark : Nat} {items : List Value} (held : t.head v = .list mark items) :
    length v t = .ok items.length t := by
  have step : length v t = ofExcept (t.head v).length t := rfl
  rw [step, held]
  rfl

end Run

namespace Calculus

/-- A new environment of a call, or what the procedure closes over, where it has no parameters. -/
theorem callFrame_keeps (keeps : Keeps s t) {params closed env : Value}
    (run : callFrame params closed t = .ok env u) :
    Keeps s u ∧ ((∀ id outer, env = .environment id outer → s.frames.size ≤ id ∧ id < u.frames.size) ∨
      u = t ∧ (t.head params).truth = .ok false) := by
  unfold callFrame at run
  cases given : (t.head params).truth with
  | error e =>
      have faulted : truth params t = .error (.fault e) t := by rw [truth_apply, given]
      rw [bind_of_error faulted] at run
      cases run
  | ok given' =>
      have ran : truth params t = .ok given' t := by rw [truth_apply, given]
      rw [bind_of_ok ran] at run
      cases given' with
      | true =>
          cases run
          refine ⟨keeps.push _, .inl fun id outer same => ?_⟩
          cases same
          exact ⟨keeps.size, by simp [Store.push]⟩
      | false =>
          cases run
          exact ⟨keeps, .inr ⟨rfl, rfl⟩⟩

/-- Parameters that count as none have no members. -/
theorem nil_of_not_truth {params : Value} {names : List Value} (falsy : params.truth = .ok false)
    (members : params.members = .ok names)
    (other : ∀ mark dtype shape data, params ≠ .array mark dtype shape data) : names = [] := by
  cases params with
  | str s =>
      obtain rfl : s = "" := by simpa [Value.truth] using falsy
      cases members
      rfl
  | list mark items | tuple mark items | dict mark items =>
      obtain rfl : items = [] := by simpa [Value.truth] using falsy
      cases members
      rfl
  | range mark start stop step =>
      have none : rangeLength start stop step = 0 := by simpa [Value.truth] using falsy
      cases members
      simp [rangeItems, none]
  | array mark dtype shape data => exact absurd rfl (other mark dtype shape data)
  | _ => cases members

end Calculus

/-! A wrong number of arguments. -/

/-- The fault that refuses a number of arguments, or the one of writing the arguments, the procedure or
the parameters in its message. -/
def Store.refusal (t : Store) (proc params args : Value) (expected given : Nat) : Fault :=
  let written : Except Fault Fault := do
    let args ← (t.view args).showPlain t.frame
    let proc ← (t.view proc).showPlain t.frame
    let params ← (t.view params).showPlain t.frame
    return .contract (.wrongCount given args proc expected params)
  match written with
  | .ok f => f
  | .error f => f

/-- A fault, but for how the arguments are written in it. -/
def Fault.unwritten : Fault → Fault
  | .contract (.wrongCount given _ proc expected params) =>
      .contract (.wrongCount given "" proc expected params)
  | f => f

theorem Run.shownPlain_ok {v : Value} {text : String} (written : (t.view v).showPlain t.frame = .ok text) :
    shownPlain v t = .ok text t := by
  change ofExcept ((t.view v).showPlain t.frame) t = _
  rw [written]
  rfl

theorem Run.shownPlain_error {v : Value} {f : Fault} (refused : (t.view v).showPlain t.frame = .error f) :
    shownPlain v t = .error (.fault f) t := by
  change ofExcept ((t.view v).showPlain t.frame) t = _
  rw [refused]
  rfl

theorem Calculus.wrongCount_eq (proc params args : Value) (expected given : Nat) (t : Store) :
    (wrongCount proc params args expected given >>= fault : Run Value) t =
      .error (.fault (t.refusal proc params args expected given)) t := by
  simp only [wrongCount, bind_assoc, pure_bind]
  unfold Store.refusal
  cases first : (t.view args).showPlain t.frame with
  | error f =>
      rw [bind_of_error (shownPlain_error first)]
      rfl
  | ok args =>
      rw [bind_of_ok (shownPlain_ok first)]
      cases second : (t.view proc).showPlain t.frame with
      | error f =>
          rw [bind_of_error (shownPlain_error second)]
          rfl
      | ok proc =>
          rw [bind_of_ok (shownPlain_ok second)]
          cases third : (t.view params).showPlain t.frame with
          | error f =>
              rw [bind_of_error (shownPlain_error third)]
              rfl
          | ok params =>
              rw [bind_of_ok (shownPlain_ok third)]
              rfl

/-- Where the arguments can be written, only how they are written tells the refusals apart. -/
theorem Store.refusal_unwritten (image : Image r t u) {proc : Value} (fixed : proc.rename r = proc)
    (params : Value) {args args' : Value} (expected given : Nat)
    (written : ∃ text, (t.view args).showPlain t.frame = .ok text)
    (written' : ∃ text, (u.view args').showPlain u.frame = .ok text) :
    (u.refusal proc (params.rename r) args' expected given).unwritten =
      (t.refusal proc params args expected given).unwritten := by
  obtain ⟨text, written⟩ := written
  obtain ⟨text', written'⟩ := written'
  have procs : (u.view proc).showPlain u.frame = (t.view proc).showPlain t.frame := by
    have shown := image.showPlain_view proc
    rwa [fixed] at shown
  simp only [refusal, written, written', procs, image.showPlain_view]
  cases (t.view proc).showPlain t.frame with
  | error f => rfl
  | ok proc => cases (t.view params).showPlain t.frame <;> rfl

/-- Ends of two calls of a procedure with the same arguments, that are alike but for marks and for how
the arguments, `args` and `args'`, are written where their number is refused. -/
inductive Ends (r : Renaming) (args args' : Value) :
    EStateM.Result Stop Store Value → EStateM.Result Stop Store Value → Prop
  | meets {x y : EStateM.Result Stop Store Value} : Meets r (Value.rename r) x y → Ends r args args' x y
  | refused {t u : Store} {proc params params' : Value} {expected given : Nat} : expected ≠ given →
      Beside r t u →
      ((∃ text, (t.view args).showPlain t.frame = .ok text) →
        (∃ text, (u.view args').showPlain u.frame = .ok text) →
          (u.refusal proc params' args' expected given).unwritten =
            (t.refusal proc params args expected given).unwritten) →
      Ends r args args' (.error (.fault (t.refusal proc params args expected given)) t)
        (.error (.fault (u.refusal proc params' args' expected given)) u)

theorem Ends.bind {α β : Type} {f : α → β} {args args' : Value} {x : Run α} {y : Run β}
    {h : α → Run Value} {k : β → Run Value} (first : Meets r f (x t) (y u))
    (second : ∀ a t' u', x t = .ok a t' → Beside r t' u' → Ends r args args' (h a t') (k (f a) u')) :
    Ends r args args' ((x >>= h) t) ((y >>= k) u) := by
  cases run : x t with
  | ok a t' =>
      cases run' : y u with
      | ok b u' =>
          rw [run, run'] at first
          cases first with
          | ok beside =>
              rw [bind_of_ok run, bind_of_ok run']
              exact second a t' u' run beside
      | error e u' =>
          rw [run, run'] at first
          cases first
  | error e t' =>
      cases run' : y u with
      | ok b u' =>
          rw [run, run'] at first
          cases first
      | error e' u' =>
          rw [run, run'] at first
          cases first with
          | error bare beside =>
              rw [bind_of_error run, bind_of_error run']
              exact .meets (.error bare beside)

namespace Calculus

/-- Applying a procedure to arguments and to copies of them ends alike. -/
theorem apply_ends (rooted : Rooted s) (fixes : r.Fixes s) {limit depth n : Nat}
    (skipped : ∀ mark, s.nextMark ≤ mark → mark < limit → ∀ x, r.mark x ≠ mark) (enough : depth ≤ n)
    {mark : Nat} {code closed args args' : Value} (settled : Settled s (.procedure mark code closed))
    (listed : ∀ params t, item code (.str "parameters") s = .ok params t →
      ∀ mark dtype shape data, params ≠ .array mark dtype shape data)
    {vs ws : List Value} {m m' : Nat} (stands : List.Forall₂ (Stands s limit depth) vs ws)
    (held : ∀ t, Keeps s t → t.head args = .list m vs)
    (held' : ∀ t u, Keeps s t → Beside r t u → u.head args' = .list m' ws)
    (caller caller' : Value) (beside : Beside r s u) :
    Ends r args args' (Calculus.apply (.ofFuel n) (.procedure mark code closed) args caller s)
      (Calculus.apply (.ofFuel n) (.procedure mark code closed) args' caller' u) := by
  have fixed := settled r fixes
  have codes : code.rename r = code := by
    simp only [Value.rename] at fixed
    injection fixed
  have closes : closed.rename r = closed := by
    simp only [Value.rename] at fixed
    injection fixed
  have read (name : String) : Equi r (Value.rename r) (item code (.str name)) (item code (.str name)) := by
    have equi := item_equi (r := r) code (.str name)
    rwa [codes] at equi
  refine Ends.bind ((read "parameters").alike.meets beside) fun params t₁ u₁ ran beside₁ => ?_
  have keeps₁ : Keeps s t₁ := by
    obtain ⟨i, rfl⟩ := item_skips (by decide) ran
    exact (Keeps.refl rooted).skip i
  have plain := listed params t₁ ran
  refine Ends.bind ((length_equi params).alike.meets beside₁) fun expected t₂ u₂ ran₂ beside₂ => ?_
  obtain rfl := length_same ran₂
  rw [bind_of_ok (length_list (held t₂ keeps₁)), bind_of_ok (length_list (held' t₂ u₂ keeps₁ beside₂)),
    ← stands.length_eq]
  dsimp only [id]
  split
  · rename_i wrong
    rw [wrongCount_eq, wrongCount_eq]
    exact .refused wrong beside₂ (Store.refusal_unwritten beside₂.image fixed params expected vs.length)
  · have opened : Equi r (Value.rename r) (callFrame params closed)
        (callFrame (params.rename r) closed) := by
      have equi := callFrame_equi (r := r) params closed
      rwa [closes] at equi
    refine .meets ((opened.alike.meets beside₂).bind fun env t₃ u₃ ran₃ beside₃ => ?_)
    obtain ⟨keeps₃, opens⟩ := callFrame_keeps keeps₁ ran₃
    refine ((members_equi params).alike.meets beside₃).bind fun names t₄ u₄ ran₄ beside₄ => ?_
    obtain ⟨rfl, names_eq⟩ := members_same ran₄ plain
    rw [bind_of_ok (members_list (held t₄ keeps₃)),
      bind_of_ok (members_list (held' t₄ u₄ keeps₃ beside₄))]
    have frames : ∀ id outer, env = .environment id outer →
        s.frames.size ≤ id ∧ id < t₄.frames.size ∨ names = [] := fun id outer same => by
      rcases opens with new | ⟨rfl, falsy⟩
      · exact .inl (new id outer same)
      · exact .inr (nil_of_not_truth falsy names_eq fun mark dtype shape data same => by
          cases params with
          | array mark dtype shape data => exact plain mark dtype shape data rfl
          | _ => cases same)
    refine (bindAll_meets rooted fixes skipped enough env caller caller' names stands keeps₃ beside₄
      frames).bind fun _ t₅ u₅ _ beside₅ => ?_
    exact ((read "body").bind fun body =>
      (Machine.equivariant_ofFuel r fixes.scopes n).call body [env] []).alike.meets beside₅

end Calculus

end Knot
