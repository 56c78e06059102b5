import Knot.Proofs.Calls.Reached
import Knot.Proofs.Recursion.Manner

/-!
Evaluating what holds no variable, application or array. With room for the levels that its containers are
nested in, a plain value is evaluated to a copy of it.
-/

namespace Knot

open Run Renaming Store

/-- What evaluation makes of a plain value: the value itself, or a new container of its kind, under the
same keys, of what it makes of the members. -/
inductive CopyOf (s : Store) : Value → Value → Prop
  | atom {v : Value} : v.isAtom = true → CopyOf s v v
  | dict {v : Value} {mark mark' : Nat} {entries copies : List (Value × Value)} :
      s.head v = .dict mark entries → s.nextMark ≤ mark' → copies.map Prod.fst = entries.map Prod.fst →
      List.Forall₂ (CopyOf s) (entries.map Prod.snd) (copies.map Prod.snd) → CopyOf s v (.dict mark' copies)
  | tuple {v : Value} {mark mark' : Nat} {items copies : List Value} :
      s.head v = .tuple mark items → s.nextMark ≤ mark' → List.Forall₂ (CopyOf s) items copies →
      CopyOf s v (.tuple mark' copies)
  | list {v : Value} {mark mark' : Nat} {items copies : List Value} :
      s.head v = .list mark items → s.nextMark ≤ mark' → List.Forall₂ (CopyOf s) items copies →
      CopyOf s v (.list mark' copies)

variable {s t u : Store} {v : Value}

/-- Settled values hold what they held, whatever was made in the meantime. -/
theorem Store.Beneath.head (beneath : s.Beneath t) (rooted : s.IsRooted) (settled : Settled s v) :
    t.head v = s.head v := by
  have marked {mark : Nat} (fixed : ∀ r : Renaming, r.Fixes s → r.mark mark = mark) : mark < s.nextMark :=
    Rooted.mark_lt (s := s.unbounded) rooted fun r fixes => fixed r fixes.of_unbounded
  have contents {mark : Nat} (known : mark < s.nextMark) : t.contents.lookup mark = s.contents.lookup mark :=
    beneath.contents mark known
  cases v with
  | list mark items =>
      have known := marked fun r fixes => by
        have fixed := settled r fixes
        simp only [Value.rename] at fixed
        injection fixed
      simp only [Store.head, Store.items, contents known]
  | array mark dtype shape data =>
      have known := marked fun r fixes => by
        have fixed := settled r fixes
        simp only [Value.rename] at fixed
        injection fixed
      simp only [Store.head, Store.items, contents known]
  | dict mark entries =>
      have spaces : t.namespaces = s.namespaces := Quiet.namespaces (s := Run.atDepth 0 s) (t := Run.atDepth 0 t) beneath
      have tables : t.tables = s.tables := Quiet.tables (s := Run.atDepth 0 s) (t := Run.atDepth 0 t) beneath
      have table : t.table? mark = s.table? mark := by
        simp only [Store.table?, spaces, tables]
        cases known : s.namespaces.lookup mark with
        | none => rfl
        | some id =>
            have same : t.frame id = s.frame id := beneath.frames id (rooted.namespaces_lt known)
            simp only [Store.entries, same]
      simp only [Store.head, table]
  | _ => rfl

/-! Evaluating plain values. -/

theorem Store.IsRooted.settled_head (rooted : s.IsRooted) (settled : Settled s v) : Settled s (s.head v) :=
  fun r fixes => by
    have held := (rooted.image fixes).head v
    rw [settled r fixes] at held
    exact held.symm

/-- A run over expressions that, with so many levels of calls to go, makes of one of them what stands in
a relation to it, unless the ceiling stops it. -/
def Makes {α β : Type} (s : Store) (run : Machine → Value → α → Run β) (R : α → β → Prop) (levels : Nat)
    (a : α) : Prop :=
  ∀ stops n t env, s.Beneath t → (Manner.silent stops).Room levels n t →
    Attains (.silent stops) (run (.ofFuel n) env a) t fun b _ => R a b

theorem Makes.all {α β : Type} {run : Machine → Value → α → Run β} {R : α → β → Prop} (as : List α)
    (each : ∀ a ∈ as, ∃ levels, Makes s run R levels a) :
    ∃ levels, Makes s (fun k env as => as.mapM (run k env)) (List.Forall₂ R) levels as := by
  induction as with
  | nil => exact ⟨0, fun _ _ _ _ _ _ => .pure .nil⟩
  | cons a as ih =>
      obtain ⟨levels, one⟩ := each a (List.mem_cons_self ..)
      obtain ⟨levels', rest⟩ := ih fun a member => each a (List.mem_cons_of_mem _ member)
      refine ⟨max levels levels', fun stops n t env beneath room => ?_⟩
      dsimp only
      rw [List.mapM_cons]
      refine (one stops n t env beneath (room.less (Nat.le_max_left ..))).bind fun b u quiet related => ?_
      have room' := (room.less (Nat.le_max_right levels levels')).later quiet.stack
      refine (rest stops n u env (beneath.trans quiet.beneath) room').bind fun bs _ _ related' => ?_
      exact .pure (.cons related related')

/-- Evaluation of a value of the calculus. -/
abbrev Machine.evaluating (k : Machine) (env v : Value) : Run Value := k.evaluate v env

/-- A container is copied if its members are. -/
theorem Makes.container {α : Type} {run : Machine → Value → α → Run α} {R : α → α → Prop} {levels : Nat} {a : α}
    (make : Nat → α → Value) (members : Makes s run R levels a)
    (evaluate : ∀ n (t : Store) env, s.Beneath t →
      Calculus.eval (.ofFuel n) v env t = (run (.ofFuel n) env a >>= fun a => fresh >>= fun mark => pure (make mark a)) t)
    (copy : ∀ mark b, s.nextMark ≤ mark → R a b → CopyOf s v (make mark b)) :
    Makes s Machine.evaluating (CopyOf s) (levels + 1) v := by
  intro stops n t env beneath room
  refine evaluate_attains room (steady_value _) fun n' u _ deeper room' => ?_
  have beneath' : s.Beneath u := beneath.trans deeper
  refine .of_eq (evaluate n' u env beneath') (.refl u) ?_
  refine (members stops n' u env beneath' room').bind fun b w quiet related => ?_
  have marks : s.nextMark ≤ w.nextMark := (beneath'.trans quiet.beneath).marks
  have made : Gives (fresh >>= fun mark => pure (make mark b)) w fun v' _ => CopyOf s v v' :=
    .of_run rfl (Quiet.told w 1 w.journal w.deeds) (copy w.nextMark b marks related)
  exact made.attains

theorem keys_eq {R : Value → Value → Prop} {entries copies : List (Value × Value)}
    (related : List.Forall₂ (fun entry copy => entry.1 = copy.1 ∧ R entry.2 copy.2) entries copies) :
    copies.map Prod.fst = entries.map Prod.fst := by
  induction related with
  | nil => rfl
  | cons pair _ ih => rw [List.map_cons, List.map_cons, pair.1, ih]

/-- Plain values are evaluated to copies of them. -/
theorem Plain.makes (rooted : s.IsRooted) (plain : Plain s v) (settled : Settled s v) :
    ∃ levels, Makes s Machine.evaluating (CopyOf s) levels v := by
  induction plain with
  | @atom v atom =>
      refine ⟨1, fun stops n t env _ room => ?_⟩
      refine evaluate_attains room (steady_value _) fun n' u _ _ _ => ?_
      have stays : Calculus.eval (.ofFuel n') v env u = (pure v : Run Value) u := Machine.eval_atom _ env atom
      exact .of_eq stays (.refl u) (.pure (.atom atom))
  | @dict v mark entries held _ ih =>
      have fixed (r : Renaming) (fixes : r.Fixes s) : entries.map r.entry = entries := by
        have same := rooted.settled_head settled r fixes
        rw [held] at same
        simp only [Value.rename, Value.renameEntries_eq] at same
        injection same
      obtain ⟨levels, members⟩ : ∃ levels, Makes s
          (fun k env entries => entries.mapM fun entry => k.evaluate entry.2 env >>= fun w => pure (entry.1, w))
          (List.Forall₂ fun entry copy => entry.1 = copy.1 ∧ CopyOf s entry.2 copy.2) levels entries :=
        Makes.all entries fun entry member => by
          have own := Settled.of_map fixed entry member
          obtain ⟨levels, copied⟩ := ih entry member fun r fixes => congrArg Prod.snd (own r fixes)
          refine ⟨levels, fun stops n t env beneath room => ?_⟩
          exact (copied stops n t env beneath room).bind fun w _ _ related => .pure ⟨rfl, related⟩
      refine ⟨levels + 1, .container .dict members (fun n t env beneath => ?_) fun mark' copies new related => ?_⟩
      · have head : Run.head v t = .ok (.dict mark entries) t :=
          Machine.head_ok ((beneath.head rooted settled).trans held)
        unfold Calculus.eval
        rw [bind_of_ok head]
        rfl
      · refine .dict held new ?_ ?_
        · exact keys_eq related
        · exact List.forall₂_map_left_iff.mpr (List.forall₂_map_right_iff.mpr (related.imp fun _ _ pair => pair.2))
  | @tuple v mark items held _ ih =>
      have fixed (r : Renaming) (fixes : r.Fixes s) : items.map (Value.rename r) = items := by
        have same := rooted.settled_head settled r fixes
        rw [held] at same
        simp only [Value.rename, Value.renameAll_eq] at same
        injection same
      obtain ⟨levels, members⟩ := Makes.all items fun item member =>
        ih item member (Settled.of_map fixed item member)
      refine ⟨levels + 1, .container .tuple members (fun n t env beneath => ?_) fun mark' copies => .tuple held⟩
      have head : Run.head v t = .ok (.tuple mark items) t :=
        Machine.head_ok ((beneath.head rooted settled).trans held)
      unfold Calculus.eval
      rw [bind_of_ok head]
      rfl
  | @list v mark items held _ ih =>
      have fixed (r : Renaming) (fixes : r.Fixes s) : items.map (Value.rename r) = items := by
        have same := rooted.settled_head settled r fixes
        rw [held] at same
        simp only [Value.rename, Value.renameAll_eq] at same
        injection same
      obtain ⟨levels, members⟩ := Makes.all items fun item member =>
        ih item member (Settled.of_map fixed item member)
      refine ⟨levels + 1, .container .list members (fun n t env beneath => ?_) fun mark' copies => .list held⟩
      have now : t.head v = .list mark items := (beneath.head rooted settled).trans held
      unfold Calculus.eval
      rw [bind_of_ok (Machine.head_ok now)]
      change (Run.members v >>= fun items => _) t = _
      rw [bind_of_ok (members_list now)]
      rfl

end Knot
