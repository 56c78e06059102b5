import Knot.Proofs.FixedPoints.Descent
import Knot.Proofs.Recursion.Host

/-!
What the combinators of the host language for direct-style code come to, level by level, where code is held to its
part. Self-application gives the code a delay that applies the same root to itself again, and adapted code is given a
delay over a thunk; applied, either goes on as the code does with another delay, and what comes back gets the argument.
-/

namespace Knot

open Run Store Term Machine

namespace GoesOn

variable {rule : Rule} {s t : Store} {f : Value} {args : List Value} {named : Named} {y : Nat → Run Value}

/-- A call goes on one level deeper. -/
theorem call (more : s.Extends t) (run : ∀ n, (levels rule (n + 1)).call f args named s = y n t) :
    GoesOn (fun n => (levels rule n).call f args named) s 1 y t where
  more := more
  run := run
  short n few := by
    obtain rfl := Nat.lt_one_iff.mp few
    exact ⟨s, rfl⟩

end GoesOn

theorem Store.Extends.did (s : Store) (d : Deed) : s.Extends (s.did d) :=
  ⟨.did .., rfl⟩

/-- What is applied to itself is no delay. -/
theorem selfRoot_isDelay (direct : Bool) (d : Value) (root : Nat) : (selfRoot d root).isDelay direct = false := by
  have first : lsfHeader ≠ delayedHeader := by decide
  have second : lsfHeader ≠ adaptedDelayHeader := by decide
  simp [selfRoot, Value.isDelay, first, second]

theorem adaptedDelay_isDelay (d : Value) (mark thunk generator : Nat) (name : String) :
    (adaptedDelay d mark thunk generator name).isDelay true := by
  simp [adaptedDelay, Value.isDelay]

variable {h : Handing} (seals : Bool) {s : Store} (room : s.stack.room = none) (v : Value)
include room

/-! Self-application. -/

theorem selfRoot_goesOn (root root' : Nat) :
    GoesOn (fun n => (levels (holding h seals) n).call (selfRoot h.code root) [selfRoot h.code root'] []) s 1
      (fun n => (levels (holding h seals) n).call h.code [selfDelay h.code s.nextMark root'] []) (s.skip 1) := by
  refine .call (.skip s 1) fun n => ?_
  rw [levels_call room, holding_eq rfl (Handing.nothing_handed_of_not_delay (selfRoot_isDelay ..))]
  rfl

/-- A delay of self-application, applied. -/
theorem selfDelay_goesOn {mark root : Nat} (apart : h.code.same (selfDelay h.code mark root) = false) :
    GoesOn (fun n => (levels (holding h seals) n).call (selfDelay h.code mark root) [v] []) s 2
      (fun n => (levels (holding h seals) n).call h.code [selfDelay h.code s.nextMark root] [] >>= fun f =>
        (levels (holding h seals) (n + 1)).call f [v] []) (s.skip 1) := by
  have applied : GoesOn (fun n => (levels (holding h seals) n).call (selfDelay h.code mark root) [v] []) s 1
      (fun n => (levels (holding h seals) n).call (selfRoot h.code root) [selfRoot h.code root] [] >>= fun f =>
        (levels (holding h seals) n).call f [v] []) s := by
    refine .call (.refl s) fun n => ?_
    rw [levels_call room, holding_eq rfl (Handing.nothing_handed_of_ne apart)]
    rfl
  exact applied.trans (GoesOn.bind (f := fun n f => (levels (holding h seals) n).call f [v] [])
    (selfRoot_goesOn seals room root root))

theorem selfFixedPoint_goesOn (same : h.code.same h.code) :
    GoesOn (fun n => DirectFixing.selfApplied.build (levels (holding h seals) n) h.code) s 3
      (fun n => (levels (holding h seals) n).call h.code [selfDelay h.code (s.nextMark + 1) s.nextMark] [])
      (s.skip 2) := by
  have roots : GoesOn (fun n => DirectFixing.selfApplied.build (levels (holding h seals) n) h.code) s 1
      (fun n => (levels (holding h seals) n).call (.builtin .selfApply) [selfRoot h.code s.nextMark] []) (s.skip 1) := by
    refine .call (.skip s 1) fun n => ?_
    rw [levels_call room, holding_eq rfl (Handing.nothing_handed_of_code same)]
    rfl
  have room' : (s.skip 1).stack.room = none := room
  have applies :
      GoesOn (fun n => (levels (holding h seals) n).call (.builtin .selfApply) [selfRoot h.code s.nextMark] []) (s.skip 1)
        1 (fun n => (levels (holding h seals) n).call (selfRoot h.code s.nextMark) [selfRoot h.code s.nextMark] [])
      (s.skip 1) := by
    refine .call (.refl _) fun n => ?_
    rw [levels_call room', holding_eq rfl (Handing.nothing_handed_of_not_delay (selfRoot_isDelay ..))]
    rfl
  exact (roots.trans applies).trans (selfRoot_goesOn seals room' s.nextMark s.nextMark)

/-! Adapted code. -/

variable (same : h.code.same h.code) (direct : h.direct = true) (own : ∀ m ∈ h.code.ownMarks, m < s.nextMark)
include same direct own

/-- To derive the fixed point of adapted code is to give the code a delay over the thunk; the code gives a function. -/
theorem derive_adapted_goesOn (generator : Nat) (name : String) :
    GoesOn (fun n => FixedPoint.derive (levels (holding h seals) n) (adapted h.code generator name)) s 1
      (fun n => (levels (holding h seals) n).call h.code
        [adaptedDelay h.code (s.nextMark + 1) s.nextMark generator name] []) (s.skip 2) := by
  have thunk : Run.fresh s = .ok s.nextMark (s.skip 1) := rfl
  have room' : (s.skip 1).stack.room = none := room
  have plain : (Value.thunk s.nextMark (adapted h.code generator name)).isDelay h.direct = false := by
    rw [direct]
    rfl
  have unsealed : (adapted h.code generator name).sealed? = none := by
    refine Value.sealed_closure (fun same => ?_) _ _
    have paths := congrArg Header.path same
    simp [adapterHeader, Value.sealHeader] at paths
  have called (n : Nat) : (levels (holding h seals) (n + 1)).call (adapted h.code generator name)
      [.thunk s.nextMark (adapted h.code generator name)] [] (s.skip 1) = (levels (holding h seals) n).call h.code
        [adaptedDelay h.code (s.nextMark + 1) s.nextMark generator name] [] (s.skip 2) := by
    rw [levels_call room', holding_eq unsealed (Handing.nothing_handed_of_not_delay plain)]
    rfl
  have handed : h.handed? h.code [adaptedDelay h.code (s.nextMark + 1) s.nextMark generator name] [] =
      some (adaptedDelay h.code (s.nextMark + 1) s.nextMark generator name) := by
    refine Handing.handed_of_delay same (direct ▸ adaptedDelay_isDelay ..)
      (Value.same_eq_false_of_apart rfl fun member => ?_)
    have := own _ member
    omega
  refine ⟨.skip s 2, fun n => ?_, fun n few => ?_⟩
  · unfold FixedPoint.derive
    rw [bind_of_ok thunk, Machine.app]
    cases run : (levels (holding h seals) n).call h.code
        [adaptedDelay h.code (s.nextMark + 1) s.nextMark generator name] [] (s.skip 2) with
    | error e t => exact bind_of_error ((called n).trans run)
    | ok f t =>
        have room'' : (s.skip 2).stack.room = none := room
        rw [bind_of_ok ((called n).trans run), if_pos (callable_of_holding room'' handed run)]
        rfl
  · obtain rfl := Nat.lt_one_iff.mp few
    unfold FixedPoint.derive
    rw [bind_of_ok thunk]
    exact ⟨_, rfl⟩

/-- A delay over a thunk, applied. -/
theorem adaptedDelay_goesOn {mark thunk generator : Nat} {name : String}
    (apart : h.code.same (adaptedDelay h.code mark thunk generator name) = false) :
    ∃ t, (s.skip 1).Extends t ∧ s.nextMark + 1 < t.nextMark ∧
      GoesOn (fun n => (levels (holding h seals) n).call (adaptedDelay h.code mark thunk generator name) [v] []) s 3
        (fun n => (levels (holding h seals) n).call h.code
          [adaptedDelay h.code (s.nextMark + 1) s.nextMark generator name] [] >>= fun f =>
            (levels (holding h seals) (n + 2)).call f [v] []) t := by
  let g := adapted h.code generator name
  have applied : GoesOn (fun n => (levels (holding h seals) n).call (adaptedDelay h.code mark thunk generator name) [v] [])
      s 1 (fun n => (levels (holding h seals) n).call (.thunk thunk g) [] [] >>= fun f =>
        (levels (holding h seals) n).call f [v] []) s := by
    refine .call (.refl s) fun n => ?_
    rw [levels_call room, holding_eq rfl (Handing.nothing_handed_of_ne apart)]
    rfl
  have asked : GoesOn (fun n => (levels (holding h seals) n).call (.thunk thunk g) [] []) s 1
      (fun n => FixedPoint.derive (levels (holding h seals) n) g) (s.did (.asked g)) := by
    refine .call (.did s _) fun n => ?_
    rw [levels_call room, holding_eq rfl rfl]
    rfl
  have derives := derive_adapted_goesOn (s := s.did (.asked g)) seals room same direct own generator name
  refine ⟨(s.did (.asked g)).skip 2, (Extends.did (s.skip 1) _).trans (.skip _ 1), Nat.lt_succ_self _, ?_⟩
  exact applied.trans (GoesOn.bind (f := fun n f => (levels (holding h seals) n).call f [v] []) (asked.trans derives))

theorem adapter_goesOn :
    ∃ name t, (s.skip 1).Extends t ∧ s.nextMark + 2 < t.nextMark ∧
      GoesOn (fun n => DirectFixing.adapted.build (levels (holding h seals) n) h.code) s 2
        (fun n => (levels (holding h seals) n).call h.code
          [adaptedDelay h.code (s.nextMark + 2) (s.nextMark + 1) s.nextMark name] []) t := by
  let known := (h.code.ownName? s.frame).getD "d"
  let name := s!"as_generator({known})"
  let g := adapted h.code s.nextMark name
  have adapts (n : Nat) : (levels (holding h seals) (n + 1)).call (.builtin .asGenerator) [h.code] [] s =
      .ok g (s.skip 1) := by
    rw [levels_call room, holding_eq rfl (Handing.nothing_handed_of_code same)]
    rfl
  have room' : (s.skip 1).stack.room = none := room
  have builds : GoesOn (fun n => DirectFixing.adapted.build (levels (holding h seals) n) h.code) s 1
      (fun n => FixedPoint.derive (levels (holding h seals) n) g) ((s.skip 1).did (.built g)) := by
    refine ⟨(Extends.skip s 1).trans (.did _ _), fun n => ?_, fun n few => ?_⟩
    · refine (bind_of_ok (adapts n)).trans ?_
      have plain : g.isDelay h.direct = false := by
        rw [direct]
        rfl
      rw [levels_call room', holding_eq rfl (Handing.nothing_handed_of_not_delay plain)]
      rfl
    · obtain rfl := Nat.lt_one_iff.mp few
      exact ⟨s, rfl⟩
  have own' : ∀ m ∈ h.code.ownMarks, m < ((s.skip 1).did (.built g)).nextMark := fun m member =>
    (own m member).trans (Nat.lt_succ_self _)
  have derives := derive_adapted_goesOn (s := (s.skip 1).did (.built g)) seals room' same direct own'
    s.nextMark name
  exact ⟨name, ((s.skip 1).did (.built g)).skip 2, (Extends.did (s.skip 1) _).trans (.skip _ 2), Nat.lt_succ_self _,
    builds.trans derives⟩

end Knot
