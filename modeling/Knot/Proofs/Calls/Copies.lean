import Knot.Proofs.Calls.Held

/-!
Evaluating plain values: what holds no variable, application or array is copied, with new marks for the
containers, and so is the copy. Where the copies are made does not show but in their marks.
-/

namespace Knot

open Run Renaming

/-- A value that evaluation gives back itself. -/
def Value.isAtom : Value → Bool
  | .dict .. | .tuple .. | .list .. | .array .. | .var .. | .application .. => false
  | _ => true

/-- A value that is free of variables, applications and arrays, as far as evaluation looks into it, and
does not hold itself. -/
inductive Plain (s : Store) : Value → Prop
  | atom {v : Value} : v.isAtom = true → Plain s v
  | dict {v : Value} {mark : Nat} {entries : List (Value × Value)} :
      s.head v = .dict mark entries → (∀ entry ∈ entries, Plain s entry.2) → Plain s v
  | tuple {v : Value} {mark : Nat} {items : List Value} :
      s.head v = .tuple mark items → (∀ u ∈ items, Plain s u) → Plain s v
  | list {v : Value} {mark : Nat} {items : List Value} :
      s.head v = .list mark items → (∀ u ∈ items, Plain s u) → Plain s v

/-- The store with some marks given out. -/
def Store.skip (s : Store) (n : Nat) : Store := { s with nextMark := s.nextMark + n }

theorem Store.skip_contentsNow (s : Store) (n : Nat) (code : (Value → Value) → Value → Value) (hops : Nat) :
    (s.skip n).contentsNow code hops = s.contentsNow code hops := by
  induction hops with
  | zero => rfl
  | succ hops ih =>
      simp only [contentsNow, ih]
      rfl

theorem Store.skip_view (s : Store) (n : Nat) (v : Value) : (s.skip n).view v = s.view v := by
  have code : (s.skip n).codeShown = s.codeShown := rfl
  simp only [view, skip_contentsNow, code]
  rfl

/-- A store in which settled values hold what they hold in an earlier one. -/
structure Holds (s t : Store) : Prop where
  room : t.stack.room = none
  head : ∀ v, Settled s v → t.head v = s.head v

theorem Keeps.holds {s t : Store} (keeps : Keeps s t) (rooted : Rooted s) : Holds s t :=
  ⟨keeps.room, fun _ settled => keeps.head rooted settled⟩

theorem Holds.skip {s t : Store} (holds : Holds s t) (n : Nat) : Holds s (t.skip n) :=
  ⟨holds.room, holds.head⟩

/-- Nothing was recorded for the values of some marks. -/
def Clear (t : Store) (m n : Nat) : Prop :=
  ∀ mark, m ≤ mark → mark < n → t.contents.lookup mark = none ∧ t.table? mark = none

theorem Store.skip_skip (s : Store) (m n : Nat) : (s.skip m).skip n = s.skip (m + n) := by
  simp only [skip, Nat.add_assoc]

/-- A run over expressions that copies one of them, giving out `count` marks, if the machine has fuel
for its depth; `copy m` is the copy whose marks start at `m`, and is copied like what it is a copy of. -/
structure Copies {β : Type} (run : Machine → Value → β → Run β) (ren : Renaming → β → β) (s : Store)
    (b : β) (depth count : Nat) (copy : Nat → β) : Prop where
  first : ∀ t, Holds s t → ∀ n, depth ≤ n → ∀ env,
    run (.ofFuel n) env b t = .ok (copy t.nextMark) (t.skip count)
  again : ∀ t m, t.stack.room = none → Clear t m (m + count) → ∀ n, depth ≤ n → ∀ env,
    run (.ofFuel n) env (copy m) t = .ok (copy t.nextMark) (t.skip count)
  renamed : ∀ (r : Renaming) m m', r.Fixes s → (∀ i < count, r.mark (m + i) = m' + i) →
    ren r (copy m) = copy m'

namespace Copies

variable {α β : Type} {s : Store}

theorem all {run : Machine → Value → α → Run α} {ren : Renaming → α → α} (as : List α)
    (each : ∀ a ∈ as, ∃ depth count copy, Copies run ren s a depth count copy) :
    ∃ depth count copies, Copies (fun k env as => as.mapM (run k env)) (fun r => List.map (ren r)) s as
      depth count copies := by
  induction as with
  | nil =>
      exact ⟨0, 0, fun _ => [], fun _ _ _ _ _ => rfl, fun _ _ _ _ _ _ _ => rfl, fun _ _ _ _ _ => rfl⟩
  | cons a as ih =>
      obtain ⟨depth, count, copy, one⟩ := each a (List.mem_cons_self ..)
      obtain ⟨depth', count', copies, rest⟩ := ih fun a member => each a (List.mem_cons_of_mem _ member)
      refine ⟨max depth depth', count + count', fun m => copy m :: copies (m + count), ?_, ?_, ?_⟩
      · intro t holds n enough env
        have ran := one.first t holds n ((Nat.le_max_left ..).trans enough) env
        have ran' := rest.first (t.skip count) (holds.skip count) n ((Nat.le_max_right ..).trans enough) env
        simp only [List.mapM_cons]
        rw [bind_of_ok ran, bind_of_ok ran', Store.skip_skip]
        rfl
      · intro t m room clear n enough env
        have ran := one.again t m room (fun mark low high => clear mark low (by omega)) n
          ((Nat.le_max_left ..).trans enough) env
        have ran' := rest.again (t.skip count) (m + count) room
          (fun mark low high => clear mark (by omega) (by omega)) n
          ((Nat.le_max_right ..).trans enough) env
        simp only [List.mapM_cons]
        rw [bind_of_ok ran, bind_of_ok ran', Store.skip_skip]
        rfl
      · intro r m m' fixes numbered
        have here := one.renamed r m m' fixes fun i below => numbered i (by omega)
        have there := rest.renamed r (m + count) (m' + count) fixes fun i below => by
          rw [Nat.add_assoc, numbered (count + i) (by omega), Nat.add_assoc]
        simp only [List.map_cons, here, there]

/-- A container is copied if its members are. -/
theorem made {run : Machine → Value → β → Run β} {ren : Renaming → β → β} {v : Value}
    {make : Nat → β → Value} {mark : Nat} {b : β} {depth count : Nat} {copies : Nat → β}
    (settled : ∀ t : Store, Holds s t → t.head v = make mark b)
    (head : ∀ (t : Store) mark b, t.contents.lookup mark = none ∧ t.table? mark = none →
      t.head (make mark b) = make mark b)
    (evaluate : ∀ n (t : Store) v mark b env, t.stack.room = none → t.head v = make mark b →
      (Machine.ofFuel (n + 1)).evaluate v env t =
        (run (.ofFuel n) env b >>= fun b => fresh >>= fun mark => pure (make mark b)) t)
    (rename : ∀ r mark b, (make mark b).rename r = make (r.mark mark) (ren r b))
    (members : Copies run ren s b depth count copies) :
    Copies (fun k env v => k.evaluate v env) (fun r v => v.rename r) s v (depth + 1) (count + 1)
      fun m => make (m + count) (copies m) where
  first t holds n enough env := by
    obtain ⟨n', rfl⟩ : ∃ n', n = n' + 1 := ⟨n - 1, by omega⟩
    have ran := members.first t holds n' (by omega) env
    rw [evaluate n' t v mark b env holds.room (settled t holds), bind_of_ok ran]
    rfl
  again t m room clear n enough env := by
    obtain ⟨n', rfl⟩ : ∃ n', n = n' + 1 := ⟨n - 1, by omega⟩
    have ran := members.again t m room (fun mark low high => clear mark low (by omega)) n' (by omega) env
    have held := head t (m + count) (copies m) (clear (m + count) (by omega) (by omega))
    rw [evaluate n' t _ _ _ env room held, bind_of_ok ran]
    rfl
  renamed r m m' fixes numbered := by
    rw [rename, members.renamed r m m' fixes fun i below => numbered i (by omega),
      numbered count (by omega)]

end Copies

/-! What evaluation does with each container. -/

namespace Machine

variable {t : Store} {v : Value} {mark : Nat}

theorem evaluate_eq (n : Nat) (v env : Value) (room : t.stack.room = none) :
    (ofFuel (n + 1)).evaluate v env t = Calculus.eval (ofFuel n) v env t := by
  change deeper _ t = _
  simp [deeper, room]

theorem head_ok {w : Value} (held : t.head v = w) : Run.head v t = .ok w t :=
  congrArg (EStateM.Result.ok · t) held

theorem evaluate_dict (n : Nat) {entries : List (Value × Value)} (env : Value)
    (room : t.stack.room = none) (held : t.head v = .dict mark entries) :
    (ofFuel (n + 1)).evaluate v env t =
      (entries.mapM (fun entry => (ofFuel n).evaluate entry.2 env >>= fun w => pure (entry.1, w)) >>=
        fun entries => fresh >>= fun mark => pure (.dict mark entries)) t := by
  rw [evaluate_eq n v env room]
  unfold Calculus.eval
  rw [bind_of_ok (head_ok held)]
  rfl

theorem evaluate_tuple (n : Nat) {items : List Value} (env : Value) (room : t.stack.room = none)
    (held : t.head v = .tuple mark items) :
    (ofFuel (n + 1)).evaluate v env t =
      (items.mapM (fun item => (ofFuel n).evaluate item env) >>=
        fun items => fresh >>= fun mark => pure (.tuple mark items)) t := by
  rw [evaluate_eq n v env room]
  unfold Calculus.eval
  rw [bind_of_ok (head_ok held)]
  rfl

theorem evaluate_list (n : Nat) {items : List Value} (env : Value) (room : t.stack.room = none)
    (held : t.head v = .list mark items) :
    (ofFuel (n + 1)).evaluate v env t =
      (items.mapM (fun item => (ofFuel n).evaluate item env) >>=
        fun items => fresh >>= fun mark => pure (.list mark items)) t := by
  have listed : members v t = .ok items t := by
    unfold members
    rw [bind_of_ok (head_ok held)]
    rfl
  rw [evaluate_eq n v env room]
  unfold Calculus.eval
  rw [bind_of_ok (head_ok held)]
  change (members v >>= fun items => _) t = _
  rw [bind_of_ok listed]
  rfl

theorem eval_atom (k : Machine) (env : Value) (atom : v.isAtom = true) : Calculus.eval k v env t = .ok v t := by
  cases v with
  | dict | tuple | list | array | var | application => cases atom
  | _ => rfl

theorem evaluate_atom (n : Nat) (env : Value) (room : t.stack.room = none) (atom : v.isAtom = true) :
    (ofFuel (n + 1)).evaluate v env t = .ok v t := by
  rw [evaluate_eq n v env room, eval_atom _ env atom]

end Machine

/-! Plain values. -/

/-- What is copied one by one. -/
def Copied (s : Store) (v : Value) : Prop :=
  ∃ depth count copy, Copies (fun k env v => k.evaluate v env) (fun r v => v.rename r) s v depth count copy ∧
    ∀ m, s.nextMark ≤ m → NewTable s (copy m)

theorem Settled.of_map {s : Store} {α : Type} {ren : Renaming → α → α} {as : List α}
    (fixed : ∀ r : Renaming, r.Fixes s → as.map (ren r) = as) :
    ∀ a ∈ as, ∀ r : Renaming, r.Fixes s → ren r a = a := fun a member r fixes =>
  List.map_inj_left.mp ((fixed r fixes).trans (List.map_id as).symm) a member

theorem Plain.copied {s : Store} (rooted : Rooted s) {v : Value} (plain : Plain s v)
    (settled : Settled s v) : Copied s v := by
  induction plain with
  | @atom v atom =>
      refine ⟨1, 0, fun _ => v, ⟨fun t holds n enough env => ?_, fun t m room _ n enough env => ?_,
        fun r _ _ fixes _ => settled r fixes⟩, fun _ _ mark entries same => ?_⟩
      · obtain ⟨n', rfl⟩ : ∃ n', n = n' + 1 := ⟨n - 1, by omega⟩
        exact Machine.evaluate_atom n' env holds.room atom
      · obtain ⟨n', rfl⟩ : ∃ n', n = n' + 1 := ⟨n - 1, by omega⟩
        exact Machine.evaluate_atom n' env room atom
      · obtain rfl : v = .dict mark entries := same
        cases atom
  | @dict v mark entries held _ ih =>
      have fixed (r : Renaming) (fixes : r.Fixes s) : entries.map r.entry = entries := by
        have same := rooted.settled_head settled r fixes
        rw [held] at same
        simp only [Value.rename, Value.renameEntries_eq] at same
        injection same
      have each : ∀ entry ∈ entries, ∃ depth count copy,
          Copies (fun k env entry => k.evaluate entry.2 env >>= fun w => pure (entry.1, w))
            (fun r entry => r.entry entry) s entry depth count copy := fun entry member => by
        have own := Settled.of_map fixed entry member
        obtain ⟨depth, count, copy, copies, _⟩ := ih entry member fun r fixes =>
          congrArg Prod.snd (own r fixes)
        refine ⟨depth, count, fun m => (entry.1, copy m), fun t holds n enough env => ?_,
          fun t m room clear n enough env => ?_, fun r m m' fixes numbered => ?_⟩
        · rw [bind_of_ok (copies.first t holds n enough env)]
          rfl
        · rw [bind_of_ok (copies.again t m room clear n enough env)]
          rfl
        · have key : entry.1.rename r = entry.1 := congrArg Prod.fst (own r fixes)
          exact Prod.ext key (copies.renamed r m m' fixes numbered)
      obtain ⟨depth, count, copies, all⟩ := Copies.all entries each
      refine ⟨depth + 1, count + 1, fun m => .dict (m + count) (copies m), .made
        (fun t holds => (holds.head v settled).trans held) (fun t mark entries clear => ?_)
        (fun n t v mark entries env => Machine.evaluate_dict n env) (fun r mark entries => ?_) all, ?_⟩
      · simp [Store.head, clear.2]
      · simp
      · intro m given mark entries same
        cases same
        omega
  | @tuple v mark items held _ ih =>
      have fixed (r : Renaming) (fixes : r.Fixes s) : items.map (Value.rename r) = items := by
        have same := rooted.settled_head settled r fixes
        rw [held] at same
        simp only [Value.rename, Value.renameAll_eq] at same
        injection same
      obtain ⟨depth, count, copies, all⟩ := Copies.all items fun item member => by
        obtain ⟨depth, count, copy, copies, _⟩ := ih item member (Settled.of_map fixed item member)
        exact ⟨depth, count, copy, copies⟩
      refine ⟨depth + 1, count + 1, fun m => .tuple (m + count) (copies m), .made
        (fun t holds => (holds.head v settled).trans held) (fun t mark items clear => rfl)
        (fun n t v mark items env => Machine.evaluate_tuple n env) (fun r mark items => ?_) all, ?_⟩
      · simp
      · intro m given mark entries same
        cases same
  | @list v mark items held _ ih =>
      have fixed (r : Renaming) (fixes : r.Fixes s) : items.map (Value.rename r) = items := by
        have same := rooted.settled_head settled r fixes
        rw [held] at same
        simp only [Value.rename, Value.renameAll_eq] at same
        injection same
      obtain ⟨depth, count, copies, all⟩ := Copies.all items fun item member => by
        obtain ⟨depth, count, copy, copies, _⟩ := ih item member (Settled.of_map fixed item member)
        exact ⟨depth, count, copy, copies⟩
      refine ⟨depth + 1, count + 1, fun m => .list (m + count) (copies m), .made
        (fun t holds => (holds.head v settled).trans held) (fun t mark items clear => ?_)
        (fun n t v mark items env => Machine.evaluate_list n env) (fun r mark items => ?_) all, ?_⟩
      · simp [Store.head, Store.items, clear.1]
      · simp
      · intro m given mark entries same
        cases same

end Knot
