import Knot.Proofs.Effects.Law
import Knot.Session

/-!
The recursion ceiling. A manager notes the limit that it finds when it is entered, nothing forgets what
it noted, and leaving it sets that limit again. So the limit is after every run what it was before,
however blocks are nested and however they end, and inside a block it is the block's own.
-/

namespace Knot

open Run Store

namespace Store

variable {s t u : Store}

/-- A manager was entered: the limit before is noted, and its own one is set. -/
def under (s : Store) (mark limit : Nat) : Store :=
  { s with
    entered := s.entered.assign mark s.stack.limit
    stack := { s.stack with limit } }

/-- A manager was used up by an entry that failed. -/
def used (s : Store) (mark : Nat) : Store := { s with entered := s.entered.assign mark s.stack.limit }

/-- What managers noted is not forgotten, and the limit is as it was if managers were entered and left
by blocks only. -/
structure KeepsLimit (s t : Store) : Prop where
  told : s.deeds <:+ t.deeds
  noted : ∀ mark limit, s.entered.lookup mark = some limit → t.entered.lookup mark = some limit
  limit : .steered ∉ t.deedsSince s → t.stack.limit = s.stack.limit

namespace KeepsLimit

theorem of_eq (deeds : t.deeds = s.deeds) (entered : t.entered = s.entered)
    (limit : t.stack.limit = s.stack.limit) : KeepsLimit s t where
  told := deeds ▸ List.suffix_refl _
  noted mark before noted := by rwa [entered]
  limit _ := limit

theorem trans (first : KeepsLimit s t) (second : KeepsLimit t u) : KeepsLimit s u where
  told := first.told.trans second.told
  noted mark limit noted := second.noted mark limit (first.noted mark limit noted)
  limit blocks := by
    rw [deedsSince_trans first.told second.told, List.mem_append, not_or] at blocks
    rw [second.limit blocks.1, first.limit blocks.2]

theorem did (s : Store) (d : Deed) : KeepsLimit s (s.did d) :=
  ⟨List.suffix_cons d s.deeds, fun _ _ noted => noted, fun _ => rfl⟩

end KeepsLimit

theorem noted_assign {mark other limit before : Nat} (fresh : (s.entered.lookup mark).isSome = false)
    (noted : s.entered.lookup other = some before) :
    (s.entered.assign mark limit).lookup other = some before := by
  have apart : other ≠ mark := by
    intro same
    rw [same] at noted
    simp [noted] at fresh
  rwa [Bindings.lookup_assign_of_ne _ _ apart]

end Store

namespace Run

variable {s t : Store}

/-- The ways in which an entry of a manager ends. -/
inductive Entering (mark : Nat) (limit : Value) (s : Store) : EStateM.Result Stop Store Value → Prop
  | again {f : Fault} : (s.entered.lookup mark).isSome = true → Entering mark limit s (.error (.fault f) s)
  | refused {f : Fault} : (s.entered.lookup mark).isSome = false →
      limitOf s.stack.depth limit = .error f → Entering mark limit s (.error (.fault f) (s.used mark))
  | entered {n : Nat} : (s.entered.lookup mark).isSome = false →
      limitOf s.stack.depth limit = .ok n → Entering mark limit s (.ok limit (s.under mark n))

theorem enter_cases (mark : Nat) (limit : Value) (s : Store) : Entering mark limit s (enter mark limit s) := by
  have whole : enter mark limit s =
      (if (s.entered.lookup mark).isSome then fault (Value.lacks (.manager mark limit) "args")
      else do
        modify fun s => { s with entered := s.entered.assign mark s.stack.limit }
        setLimit (← ofExcept (limitOf s.stack.depth limit))
        return limit : Run Value) s := rfl
  rw [whole]
  cases known : (s.entered.lookup mark).isSome with
  | true => exact .again known
  | false =>
      cases set : limitOf s.stack.depth limit with
      | error f => exact .refused known set
      | ok n => exact .entered known set

theorem leave_eq (mark : Nat) (s : Store) :
    leave mark s = match s.entered.lookup mark with
      | some before => .ok () { s with stack := { s.stack with limit := before } }
      | none => .ok () s := by
  change (match s.entered.lookup mark with
    | some before => setLimit before
    | none => return ()) s = _
  cases s.entered.lookup mark <;> rfl

/-- A limit that can be set is a number that the value stands for, and greater than the depth. -/
theorem index_of_limitOf {depth n : Nat} {v : Value} (set : limitOf depth v = .ok n) :
    v.index? = .ok (some (n : Int)) ∧ depth < n := by
  unfold limitOf at set
  cases index : v.index? with
  | error f =>
      rw [index] at set
      cases set
  | ok i =>
      rw [index] at set
      cases i with
      | none => cases set
      | some i =>
          change (if !Word.isShort i then throw (.overflow .tooLargeForLimit)
            else if i ≤ 0 then throw (.value .limitTooSmall)
            else if i ≤ depth then throw .stackExhausted
            else return i.toNat : Except Fault Nat) = .ok n at set
          split at set
          · cases set
          · split at set
            · cases set
            · split at set
              · cases set
              · cases set
                refine ⟨?_, by omega⟩
                rw [Int.toNat_of_nonneg (by omega)]

/-- Whatever comes of an entry, nothing is told or forgotten. -/
theorem keeps_of_enter {mark : Nat} {limit : Value} (entered : (enter mark limit).Leaves s t) :
    t.deeds = s.deeds ∧
      ∀ other before, s.entered.lookup other = some before → t.entered.lookup other = some before := by
  have entry := enter_cases mark limit s
  cases entered with
  | value run =>
      rw [run] at entry
      cases entry with
      | entered unknown => exact ⟨rfl, fun _ _ noted => noted_assign unknown noted⟩
  | fault run =>
      rw [run] at entry
      cases entry with
      | again => exact ⟨rfl, fun _ _ noted => noted⟩
      | refused unknown => exact ⟨rfl, fun _ _ noted => noted_assign unknown noted⟩

/-- An entry that fails leaves the limit as it is. -/
theorem limit_of_enter_error {mark : Nat} {limit : Value} {e : Stop}
    (failed : enter mark limit s = .error e t) : t.stack.limit = s.stack.limit := by
  have entry := enter_cases mark limit s
  rw [failed] at entry
  cases entry <;> rfl

/-- An entry that does not fail sets the limit that the manager was made for. -/
theorem limit_of_enter_ok {mark : Nat} {limit v : Value} (entered : enter mark limit s = .ok v t) :
    limit.index? = .ok (some (t.stack.limit : Int)) ∧ s.stack.depth < t.stack.limit := by
  have entry := enter_cases mark limit s
  rw [entered] at entry
  cases entry with
  | entered unknown set => exact index_of_limitOf set

/-- After a step by hand nothing is claimed of the limit. -/
theorem keepsLimit_of_steered (deeds : t.deeds = (s.did .steered).deeds)
    (noted : ∀ mark limit, s.entered.lookup mark = some limit → t.entered.lookup mark = some limit) :
    KeepsLimit s t where
  told := deeds ▸ List.suffix_cons _ _
  noted := noted
  limit blocks := by
    have since : t.deedsSince s = [.steered] := deedsSince_of_append deeds
    rw [since] at blocks
    exact absurd (List.mem_singleton_self _) blocks

theorem enteredByHand_keepsLimit (mark : Nat) (limit : Value) :
    Leads KeepsLimit (Method.enter (.manager mark limit)) := by
  intro s u leaves
  have entered : (enter mark limit).Leaves (s.did .steered) u := leaves.congr rfl
  have kept := keeps_of_enter entered
  exact keepsLimit_of_steered kept.1 kept.2

theorem leftByHand_keepsLimit (mark : Nat) (limit : Value) :
    Leads KeepsLimit (Method.leave (.manager mark limit)) := by
  intro s u leaves
  have whole : Method.leave (.manager mark limit) s =
      (leave mark >>= fun _ => pure (.bool false)) (s.did .steered) := rfl
  obtain ⟨f, failed⟩ | ⟨_, t, left, returned⟩ := (leaves.congr whole).of_bind
  · rw [leave_eq] at failed
    split at failed <;> cases failed
  · cases returned.after
    rw [leave_eq] at left
    split at left
    · cases left
      exact keepsLimit_of_steered rfl fun _ _ noted => noted
    · cases left
      exact keepsLimit_of_steered rfl fun _ _ noted => noted

/-- A block under a manager's limit leaves the limit that was set before. -/
theorem underLimit_keepsLimit (mark : Nat) (limit : Value) {α : Type} {x : Run α}
    (block : Leads KeepsLimit x) : Leads KeepsLimit (underLimit mark limit x) := by
  intro s u leaves
  have entry := enter_cases mark limit s
  obtain ⟨f, failed⟩ | ⟨_, t, entered, rest⟩ := leaves.of_discard_bind.of_bind
  · have kept := keeps_of_enter (.fault failed)
    refine ⟨kept.1 ▸ List.suffix_refl _, kept.2, fun _ => limit_of_enter_error failed⟩
  · have kept := keeps_of_enter (.value entered)
    rw [entered] at entry
    cases entry with
    | entered unknown set =>
        obtain ⟨t', inner, left⟩ := rest.of_ensuring
        have body := block _ _ inner
        have before : t'.entered.lookup mark = some s.stack.limit :=
          body.noted mark _ (Bindings.lookup_assign_self _ _ _)
        have back : leave mark t' = .ok () { t' with stack := { t'.stack with limit := s.stack.limit } } := by
          rw [leave_eq, before]
        cases left.after.symm.trans (after_of_ok back)
        exact ⟨body.told, fun other before noted => body.noted other before (kept.2 other before noted),
          fun _ => rfl⟩

end Run

/-- The limit is kept by every run. -/
def ceiling : Law where
  holds := KeepsLimit
  trans := KeepsLimit.trans
  same same := .of_eq same.deeds same.entered (by rw [same.stack])
  atDepth _ _ := .of_eq rfl rfl rfl
  refused s := .did s .refused
  tally _ _ s t leaves := by
    rw [← leaves.after]
    exact .of_eq rfl rfl rfl
  entered := enteredByHand_keepsLimit
  left := leftByHand_keepsLimit
  underLimit := underLimit_keepsLimit

namespace FixedPoint

variable {k : Machine}

theorem tell_keepsLimit (d : Deed) : Leads ceiling.holds (tell d) := by
  intro s t leaves
  rw [← leaves.after]
  exact .did s d

theorem bump_keepsLimit (tally : Value) (counter : Counter) : Leads ceiling.holds (bump tally counter) := by
  refine (getAttribute_tame tally _).leads.bind fun v => (increment_tame v).leads.bind fun v => ?_
  by_cases counts : ∃ mark d c, tally = .tally mark d c
  · obtain ⟨mark, d, c, rfl⟩ := counts
    intro s t leaves
    rw [← leaves.after]
    exact .of_eq rfl rfl rfl
  · exact (setAttribute_tame (fun mark d c same => counts ⟨mark, d, c, same⟩) _ v).leads

theorem derives_ceiling (keeps : k.Obeys ceiling) : k.Derives ceiling where
  build generator := (tell_keepsLimit _).bind fun _ => derive_leads keeps generator
  force generator args named := by
    unfold force
    split
    · exact (tell_keepsLimit _).bind fun _ => derive_leads keeps generator
    · exact (refuse_tame _ _).leads
  deriveCounted generator tally thunk :=
    (bump_keepsLimit tally .derivations).bind fun _ => (tell_keepsLimit _).bind fun _ =>
      fresh_tame.leads.bind fun mark => keeps.call generator [.countedThunk mark thunk tally] []
  forceCounted inner tally args named :=
    (bump_keepsLimit tally .thunkCalls).bind fun _ => (tell_keepsLimit _).bind fun _ =>
      keeps.call inner args named

end FixedPoint

namespace Machine

/-- What a machine leaves of the limit, where managers are entered and left by blocks only. -/
structure RestoresLimit (k : Machine) : Prop where
  /-- Whatever runs, and however it ends, the limit is then what it was. -/
  program : ∀ {s t}, k.Traverses s t → .steered ∉ t.deedsSince s → t.stack.limit = s.stack.limit
  /-- In a block the limit is the one that its manager was made for, outside the blocks inside it. -/
  block : ∀ {mark limit s v t}, enter mark limit s = .ok v t →
    ∃ n : Nat, limit.index? = .ok (some (n : Int)) ∧
      ∀ u, k.Traverses t u → .steered ∉ u.deedsSince t → u.stack.limit = n
  /-- An entry that fails leaves the limit as it is. -/
  refused : ∀ {mark limit s e t}, enter mark limit s = .error e t → t.stack.limit = s.stack.limit

theorem keeps_ceiling (n : Nat) : (ofFuel n).Obeys ceiling :=
  keeps_ofFuel (fun n keeps => FixedPoint.derives_ceiling (keeps n (Nat.le_refl n))) n

example : Leaves ((Term.within (.app (.prim .recursionLimit) [.num 500]) "limit"
    (.caught (.within (.app (.prim .recursionLimit) [.num (-1)]) "none" (.var "limit")))).eval
      (ofFuel 3) []) Session.start
    { Session.start with nextMark := 18, entered := [(16, 20000), (17, 500)] } :=
  .value rfl

end Machine

end Knot
