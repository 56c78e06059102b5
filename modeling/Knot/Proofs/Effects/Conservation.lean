import Knot.Proofs.Effects.Ceiling
import Knot.Proofs.Effects.Ledger
import Knot.Proofs.Journal.Machine
import Knot.Proofs.Checks.Books

/-!
The balance of a tally. Each building of a fixed point and each asking of a thunk is answered by one
derivation before anything else is told, and each plain call that reaches such a thunk through a
counting one asks it. What is told of a run is therefore made of whole rounds, and both counters are
read off it.
-/

namespace Knot

open Run Store

/-! Books of runs. -/

/-- A tally that was made before has two numbers as its counts. -/
structure Tallied (mark : Nat) (s : Store) (derivations thunkCalls : Int) : Prop where
  made : mark < s.nextMark
  counts : s.tallies.lookup mark = some (.int derivations, .int thunkCalls)

theorem Tallied.unique {mark : Nat} {s : Store} {d d' c c' : Int} (recorded : Tallied mark s d c)
    (recorded' : Tallied mark s d' c') : d' = d ∧ c' = c := by
  have same := recorded'.counts.symm.trans recorded.counts
  simp only [Option.some.injEq, Prod.mk.injEq, Value.int.injEq] at same
  exact same

/-- What is told between two stores, unless a call was refused, is of some form, and the counts of a
tally go on by what it says. -/
structure Books (mark : Nat) (form : List Deed → Prop) (s t : Store) : Prop where
  marks : s.nextMark ≤ t.nextMark
  told : s.deeds <:+ t.deeds
  counts : .refused ∉ t.deedsSince s → ∀ d c, Tallied mark s d c →
    form (t.deedsSince s) ∧ Tallied mark t (d + (Ledger.of mark (t.deedsSince s)).derived)
      (c + (Ledger.of mark (t.deedsSince s)).passed)

namespace Books

variable {mark : Nat} {form form' form'' : List Deed → Prop} {s t u : Store}

theorem mono (weaker : ∀ l, form l → form' l) (books : Books mark form s t) : Books mark form' s t :=
  ⟨books.marks, books.told, fun unrefused d c recorded =>
    (books.counts unrefused d c recorded).imp_left (weaker _)⟩

theorem trans (join : ∀ old new, form old → form' new → form'' (new ++ old))
    (first : Books mark form s t) (second : Books mark form' t u) : Books mark form'' s u where
  marks := first.marks.trans second.marks
  told := first.told.trans second.told
  counts unrefused d c recorded := by
    have since := deedsSince_trans first.told second.told
    rw [since, List.mem_append, not_or] at unrefused
    obtain ⟨old, between⟩ := first.counts unrefused.2 d c recorded
    obtain ⟨new, after⟩ := second.counts unrefused.1 _ _ between
    rw [since]
    have derived : (Ledger.of mark (u.deedsSince t ++ t.deedsSince s)).derived = _ :=
      Ledger.derived_append _ _
    have passed : (Ledger.of mark (u.deedsSince t ++ t.deedsSince s)).passed = _ :=
      Ledger.passed_append _ _
    have sum (n : Int) {i j k : Nat} (all : k = i + j) : n + k = n + j + i := by omega
    refine ⟨join _ _ old new, ?_⟩
    rw [sum d derived, sum c passed]
    exact after

/-- Nothing is told, and the tally is as it was. -/
theorem of_eq (deeds : t.deeds = s.deeds) (marks : s.nextMark ≤ t.nextMark)
    (tallies : mark < s.nextMark → t.tallies.lookup mark = s.tallies.lookup mark) :
    Books mark (· = []) s t where
  marks := marks
  told := deeds ▸ List.suffix_refl _
  counts _ d c recorded := by
    rw [deedsSince_of_eq deeds]
    refine ⟨rfl, recorded.made.trans_le marks, ?_⟩
    rw [tallies recorded.made, recorded.counts]
    simp [Ledger.of, Ledger.passed, Ledger.count]

theorem of_same (same : Same s t) : Books mark (· = []) s t :=
  .of_eq same.deeds same.marks fun _ => by rw [same.tallies]

/-- One thing is told, and the tally goes on by what it says. -/
theorem of_deed {d : Deed} {a b : Int} (recorded : Tallied mark s a b) (deeds : t.deeds = d :: s.deeds)
    (marks : s.nextMark ≤ t.nextMark)
    (after : Tallied mark t (a + (Ledger.of mark [d]).derived) (b + (Ledger.of mark [d]).passed)) :
    Books mark (· = [d]) s t where
  marks := marks
  told := deeds ▸ List.suffix_cons _ _
  counts _ a' b' recorded' := by
    obtain ⟨rfl, rfl⟩ := recorded.unique recorded'
    have since : t.deedsSince s = [d] := deedsSince_of_append deeds
    rw [since]
    exact ⟨rfl, after⟩

theorem of_refused (s : Store) : Books mark form s (s.did .refused) where
  marks := Nat.le_refl _
  told := List.suffix_cons _ _
  counts unrefused := by
    rw [deedsSince_did] at unrefused
    exact absurd (List.mem_singleton_self _) unrefused

/-- A deed that adds to no counter. -/
theorem of_told {d : Deed} (derived : (Ledger.of mark [d]).derived = 0)
    (passed : (Ledger.of mark [d]).passed = 0) (s : Store) : Books mark (· = [d]) s (s.did d) := by
  refine ⟨Nat.le_refl _, List.suffix_cons _ _, fun _ a b recorded => ?_⟩
  rw [deedsSince_did, derived, passed, Int.natCast_zero, Int.add_zero, Int.add_zero]
  exact ⟨rfl, recorded.made, recorded.counts⟩

/-- A deed that says nothing of the tally is a round of its own. -/
theorem of_quiet {d : Deed} (quiet : d.Quiet mark) (s : Store) :
    Books mark (Ledger.Rounds mark) s (s.did d) := by
  refine .mono ?_ (of_told ?_ ?_ s)
  · rintro _ rfl
    exact .other quiet.builds quiet.asks quiet.hands .nil
  · simp [Ledger.of, Ledger.count, quiet.derives]
  · simp [Ledger.of, Ledger.passed, Ledger.count, quiet.hands, quiet.rejects, quiet.strays]

/-- Where nothing is told, nothing is open. -/
theorem rounds (books : Books mark (· = []) s t) : Books mark (Ledger.Rounds mark) s t := by
  refine .mono ?_ books
  rintro _ rfl
  exact .nil

/-- Nothing is claimed of a tally that has no numbers. -/
theorem of_unrecorded (unrecorded : ¬∃ d c, Tallied mark s d c) (marks : s.nextMark ≤ t.nextMark)
    (told : s.deeds <:+ t.deeds) : Books mark form s t :=
  ⟨marks, told, fun _ d c recorded => absurd ⟨d, c, recorded⟩ unrecorded⟩

end Books

namespace Run

variable {mark : Nat} {s t : Store}

/-- Adding one to a number makes a mark that nobody gets. -/
theorem increment_int (i : Int) (s : Store) : increment (.int i) s = .ok (.int (i + 1)) (s.skip 1) := by
  have now : now (.int i) s = .ok (.int i) s := by
    have same : s.now (.int i) = .int i := s.now_of_atom fun _ => rfl
    change EStateM.Result.ok (s.now (.int i)) s = _
    rw [same]
  have added : binary .add (.int i) (.int 1) s = .ok (.int (i + 1)) (s.skip 1) := rfl
  unfold increment
  rw [bind_of_ok now]
  exact recover_of_ok added

theorem getAttribute_int {o : Value} {name : String} {i : Int} (found : s.attribute? o name = some (.int i))
    (plain : name ≠ "__dict__") : getAttribute o name s = .ok (.int i) s := by
  have read : (get : Run Store) s = .ok s s := rfl
  unfold getAttribute
  rw [bind_of_ok read, found]
  dsimp only
  rw [if_neg plain]
  rfl

/-- What the counters of a tally show. -/
theorem getAttribute_counter {d c : Int} (a b : Value) (recorded : Tallied mark s d c) :
    getAttribute (.tally mark a b) "derivations" s = .ok (.int d) s ∧
      getAttribute (.tally mark a b) "thunk_calls" s = .ok (.int c) s := by
  have counts : s.counts mark (a, b) = (.int d, .int c) := by simp [Store.counts, recorded.counts]
  have derivations : s.attribute? (.tally mark a b) "derivations" = some (s.counts mark (a, b)).1 := rfl
  have thunkCalls : s.attribute? (.tally mark a b) "thunk_calls" = some (s.counts mark (a, b)).2 := rfl
  rw [counts] at derivations thunkCalls
  exact ⟨getAttribute_int derivations (by decide), getAttribute_int thunkCalls (by decide)⟩

/-- The store with other counts of a tally, one mark later. -/
def recounted (s : Store) (mark : Nat) (d c : Int) : Store :=
  { s.skip 1 with tallies := s.tallies.assign mark (.int d, .int c) }

theorem recounted_tallied (made : mark < s.nextMark) (d c : Int) (e : Deed) :
    Tallied mark ((recounted s mark d c).did e) d c :=
  ⟨made.trans (Nat.lt_succ_self _), Bindings.lookup_assign_self _ _ _⟩

theorem bump_derivations {d c : Int} (a b : Value) (recorded : Tallied mark s d c) :
    FixedPoint.bump (.tally mark a b) .derivations s = .ok () (recounted s mark (d + 1) c) := by
  have counts : (s.skip 1).counts mark (a, b) = (.int d, .int c) := by
    simp [Store.counts, Store.skip, recorded.counts]
  change (getAttribute (.tally mark a b) "derivations" >>= fun v => increment v >>= fun v =>
    setAttribute (.tally mark a b) "derivations" v) s = _
  rw [bind_of_ok (getAttribute_counter a b recorded).1, bind_of_ok (increment_int d s)]
  change EStateM.Result.ok () _ = _
  simp only [counts]
  rfl

theorem bump_thunkCalls {d c : Int} (a b : Value) (recorded : Tallied mark s d c) :
    FixedPoint.bump (.tally mark a b) .thunkCalls s = .ok () (recounted s mark d (c + 1)) := by
  have counts : (s.skip 1).counts mark (a, b) = (.int d, .int c) := by
    simp [Store.counts, Store.skip, recorded.counts]
  change (getAttribute (.tally mark a b) "thunk_calls" >>= fun v => increment v >>= fun v =>
    setAttribute (.tally mark a b) "thunk_calls" v) s = _
  rw [bind_of_ok (getAttribute_counter a b recorded).2, bind_of_ok (increment_int c s)]
  change EStateM.Result.ok () _ = _
  simp only [counts]
  rfl

/-- Making a tally leaves those alone that were made before. -/
theorem tally_books (d c : Value) : Leads (Books mark (· = [])) (Run.tally d c) := by
  intro s t leaves
  rw [← leaves.after]
  refine .of_eq rfl (Nat.le_succ _) fun made => ?_
  exact Bindings.lookup_assign_of_ne _ _ (Nat.ne_of_lt made)

/-- Entering a manager tells nothing and leaves the tallies alone. -/
theorem enter_books (manager : Nat) (limit : Value) : Leads (Books mark (· = [])) (enter manager limit) := by
  intro s t leaves
  have entry := enter_cases manager limit s
  cases leaves with
  | value run =>
      rw [run] at entry
      cases entry
      exact .of_eq rfl (Nat.le_refl _) fun _ => rfl
  | fault run =>
      rw [run] at entry
      cases entry with
      | again => exact .of_eq rfl (Nat.le_refl _) fun _ => rfl
      | refused => exact .of_eq rfl (Nat.le_refl _) fun _ => rfl

theorem leave_books (manager : Nat) : Leads (Books mark (· = [])) (leave manager) := by
  intro s t leaves
  have whole := leave_eq manager s
  rw [← leaves.after, after, whole]
  cases s.entered.lookup manager <;> exact .of_eq rfl (Nat.le_refl _) fun _ => rfl

end Run

/-- Whole rounds before and after. -/
theorem Books.join {mark : Nat} {s t u : Store} (first : Books mark (Ledger.Rounds mark) s t)
    (second : Books mark (Ledger.Rounds mark) t u) : Books mark (Ledger.Rounds mark) s u :=
  first.trans (fun _ _ old new => new.append old) second

/-- The counters of a tally go on by what is told of whole runs. -/
def conservation (mark : Nat) : Law where
  holds := Books mark (Ledger.Rounds mark)
  trans := .join
  same same := (Books.of_same same).rounds
  atDepth s depth :=
    Books.rounds (s := s) (t := Run.atDepth depth s) (.of_eq rfl (Nat.le_refl _) fun _ => rfl)
  refused := .of_refused
  tally d c s t leaves := (tally_books d c s t leaves).rounds
  entered manager limit s u leaves := by
    have entered : (enter manager limit).Leaves (s.did .steered) u := leaves.congr rfl
    exact (Books.of_quiet ⟨rfl, rfl, rfl, rfl, rfl, rfl⟩ s).join (enter_books _ _ _ _ entered).rounds
  left manager limit s u leaves := by
    have whole : Method.leave (.manager manager limit) s =
        (leave manager >>= fun _ => pure (.bool false)) (s.did .steered) := rfl
    have steered : Books mark (Ledger.Rounds mark) s (s.did .steered) :=
      .of_quiet ⟨rfl, rfl, rfl, rfl, rfl, rfl⟩ s
    obtain ⟨f, failed⟩ | ⟨_, t, left, returned⟩ := (leaves.congr whole).of_bind
    · exact steered.join (leave_books _ _ _ (.fault failed)).rounds
    · cases returned.after
      exact steered.join (leave_books _ _ _ (.value left)).rounds
  underLimit manager limit {α x} block s u leaves := by
    obtain ⟨f, failed⟩ | ⟨_, t, entered, rest⟩ := leaves.of_discard_bind.of_bind
    · exact (enter_books _ _ _ _ (.fault failed)).rounds
    · obtain ⟨t', inner, left⟩ := rest.of_ensuring
      exact ((enter_books _ _ _ _ (.value entered)).rounds.join (block _ _ inner)).join
        (leave_books _ _ _ left).rounds

namespace Ledger

/-- What is told of a run that starts with a derivation of a generator that counts. -/
def Answer (mark : Nat) (l : List Deed) : Prop :=
  ∃ rest d, l = rest ++ [d] ∧ d.derives mark = true ∧ Rounds mark rest

/-- What is told of a run that asks a thunk of a generator that counts. -/
def Asking (mark : Nat) (l : List Deed) : Prop :=
  ∃ rest d d', l = rest ++ [d', d] ∧ d.asks mark = true ∧ d'.derives mark = true ∧ Rounds mark rest

end Ledger

open Ledger

variable {mark : Nat} {s t u : Store} {k : Machine}

namespace Books

theorem answered (first : Books mark (Answer mark) s t) (second : Books mark (Rounds mark) t u) :
    Books mark (Answer mark) s u := by
  refine first.trans ?_ second
  rintro _ new ⟨rest, d, rfl, derives, old⟩ rounds
  exact ⟨new ++ rest, d, by rw [List.append_assoc], derives, rounds.append old⟩

theorem after_nothing {form : List Deed → Prop} (first : Books mark (· = []) s t)
    (second : Books mark form t u) : Books mark form s u := by
  refine first.trans ?_ second
  rintro _ new rfl formed
  rwa [List.append_nil]

theorem before_nothing {form : List Deed → Prop} (first : Books mark form s t)
    (second : Books mark (· = []) t u) : Books mark form s u := by
  refine first.trans ?_ second
  rintro old _ formed rfl
  rwa [List.nil_append]

/-- Where a run is on the stack does not matter. -/
theorem levels {form : List Deed → Prop} (depth depth' : Nat)
    (books : Books mark form (Run.atDepth depth s) t) : Books mark form s (Run.atDepth depth' t) := by
  have down : Books mark (· = []) s (Run.atDepth depth s) := .of_eq rfl (Nat.le_refl _) fun _ => rfl
  have up : Books mark (· = []) t (Run.atDepth depth' t) := .of_eq rfl (Nat.le_refl _) fun _ => rfl
  exact (down.after_nothing books).before_nothing up

end Books

namespace FixedPoint

theorem exists_of_isTally {t : Value} (isTally : t.isTally mark = true) : ∃ a b, t = .tally mark a b := by
  cases t with
  | tally m a b =>
      simp only [Value.isTally, beq_iff_eq] at isTally
      exact ⟨a, b, by rw [isTally]⟩
  | _ => cases isTally

/-- Another tally than one that was made before, or something else, leaves that one alone. -/
theorem bump_books {t : Value} (other : t.isTally mark = false) (counter : Counter) :
    Leads (conservation mark).holds (bump t counter) := by
  refine (getAttribute_tame t _).leads.bind fun v => (increment_tame v).leads.bind fun v => ?_
  by_cases counts : ∃ m a b, t = .tally m a b
  · obtain ⟨m, a, b, rfl⟩ := counts
    intro s u leaves
    have apart : mark ≠ m := by
      intro same
      rw [same] at other
      simp [Value.isTally] at other
    rw [← leaves.after]
    exact Books.rounds (.of_eq rfl (Nat.le_refl _) fun _ => Bindings.lookup_assign_of_ne _ _ apart)
  · exact (setAttribute_tame (fun m a b same => counts ⟨m, a, b, same⟩) _ v).leads

theorem tell_books {d : Deed} (quiet : d.Quiet mark) : Leads (conservation mark).holds (tell d) := by
  intro s u leaves
  rw [← leaves.after]
  exact .of_quiet quiet s

/-- The first two steps of a derivation: it is counted and told. -/
theorem derived_step {d c : Int} (a b : Value) (recorded : Tallied mark s d c) :
    Books mark (· = [.derived (.tally mark a b)]) s
      ((recounted s mark (d + 1) c).did (.derived (.tally mark a b))) := by
  have isTally : Deed.derives mark (.derived (.tally mark a b)) = true := by
    simp [Deed.derives, Value.isTally]
  obtain ⟨one, none⟩ := derived_of_derives isTally
  refine .of_deed recorded rfl (Nat.le_succ _) ?_
  rw [one, none, Int.natCast_one, Int.natCast_zero, Int.add_zero]
  exact recounted_tallied recorded.made _ _ _

/-- The first two steps of a call that is passed on: it is counted and told. -/
theorem passed_step {d c : Int} (a b : Value) (recorded : Tallied mark s d c) (inner : Value)
    (plain : Bool) : Books mark (· = [.passed (.tally mark a b) inner plain]) s
      ((recounted s mark d (c + 1)).did (.passed (.tally mark a b) inner plain)) := by
  have isTally : (Value.tally mark a b).isTally mark = true := by simp [Value.isTally]
  obtain ⟨none, one⟩ := passed_of_passes isTally inner plain
  refine .of_deed recorded rfl (Nat.le_succ _) ?_
  rw [none, one, Int.natCast_one, Int.natCast_zero, Int.add_zero]
  exact recounted_tallied recorded.made _ _ _

theorem deriveCounted_answer {n : Nat} (keeps : (Machine.ofFuel n).Obeys (conservation mark))
    (generator thunk : Value) {t : Value} (isTally : t.isTally mark = true) :
    Leads (Books mark (Answer mark)) (deriveCounted (Machine.ofFuel n) generator t thunk) := by
  obtain ⟨a, b, rfl⟩ := exists_of_isTally isTally
  intro s u leaves
  by_cases recorded : ∃ d c, Tallied mark s d c
  · obtain ⟨d, c, recorded⟩ := recorded
    have told : (do (Machine.ofFuel n).app generator [.countedThunk (← fresh) thunk (.tally mark a b)]).Leaves
        ((recounted s mark (d + 1) c).did (.derived (.tally mark a b))) u :=
      leaves.congr (bind_of_ok (bump_derivations a b recorded))
    have rest : Leads (conservation mark).holds (do
        (Machine.ofFuel n).app generator [.countedThunk (← fresh) thunk (.tally mark a b)]) :=
      fresh_tame.leads.bind fun m => keeps.call generator [.countedThunk m thunk (.tally mark a b)] []
    refine (derived_step a b recorded).trans ?_ (rest _ _ told)
    rintro _ new rfl rounds
    exact ⟨new, _, rfl, isTally, rounds⟩
  · exact .of_unrecorded recorded (leaves.after ▸ (deriveCounted_grows (Machine.growing_ofFuel n) _ _ _ s).marks)
      ((derives_ceiling (Machine.keeps_ceiling n)).deriveCounted _ _ _ s u leaves).told

/-- A generator that counts answers the call that it is derived by. -/
theorem call_answer {n : Nat} (keeps : ∀ m ≤ n, (Machine.ofFuel m).Obeys (conservation mark))
    {generator : Value} (counts : generator.countsOn mark = true) (thunk : Value) :
    Leads (Books mark (Answer mark)) ((Machine.ofFuel n).app generator [thunk]) := by
  cases generator with
  | counted m name inner t =>
      cases n with
      | zero => exact Leads.outOfFuel
      | succ n =>
          refine deeper_leads .of_refused .levels ?_
          intro s u leaves
          exact deriveCounted_answer (keeps n (Nat.le_succ n)) inner thunk counts s u (leaves.congr rfl)
  | _ => cases counts

/-- Deriving the fixed point of a generator that counts starts with an answer. -/
theorem derive_answer {n : Nat} (keeps : ∀ m ≤ n, (Machine.ofFuel m).Obeys (conservation mark))
    {generator : Value} (counts : generator.countsOn mark = true) :
    Leads (Books mark (Answer mark)) (derive (Machine.ofFuel n) generator) := by
  intro s u leaves
  have checked (result : Value) : Leads (conservation mark).holds (do
      if result.isCallable then return result
      else
        let generator ← shownPlain generator
        let result ← shown result
        fault (.contract (.generatorReturned generator result))) :=
    Tame.leads (.ite (.pure _) ((shownPlain_tame _).bind fun _ => (shown_tame _).bind fun _ => .fault _))
  obtain ⟨f, failed⟩ | ⟨m, t, made, rest⟩ := leaves.of_bind
  · cases failed
  · cases made
    refine .after_nothing (.of_same (fresh_tame.still s)) ?_
    obtain ⟨f, failed⟩ | ⟨result, t, called, rest⟩ := rest.of_bind
    · exact call_answer keeps counts _ _ _ (.fault failed)
    · exact (call_answer keeps counts _ _ _ (.value called)).answered (checked result _ _ rest)

theorem build_books {n : Nat} (keeps : ∀ m ≤ n, (Machine.ofFuel m).Obeys (conservation mark))
    (generator : Value) : Leads (conservation mark).holds (build (Machine.ofFuel n) generator) := by
  intro s u leaves
  have told : (derive (Machine.ofFuel n) generator).Leaves (s.did (.built generator)) u :=
    leaves.congr rfl
  by_cases counts : generator.countsOn mark = true
  · have step : Books mark (· = [.built generator]) s (s.did (.built generator)) :=
      .of_told rfl rfl s
    refine step.trans ?_ (derive_answer keeps counts _ _ told)
    rintro _ _ rfl ⟨rest, d, rfl, derives, rounds⟩
    rw [List.append_assoc]
    exact rounds.append (.built counts derives .nil)
  · have quiet : Deed.Quiet mark (.built generator) :=
      ⟨by simpa [Deed.builds] using counts, rfl, rfl, rfl, rfl, rfl⟩
    exact (Books.of_quiet quiet s).join (derive_leads (keeps n (Nat.le_refl n)) generator _ _ told)

/-- Asking a thunk of a generator that counts. -/
theorem force_asking {n : Nat} (keeps : ∀ m ≤ n, (Machine.ofFuel m).Obeys (conservation mark))
    {generator : Value} (counts : generator.countsOn mark = true) :
    Leads (Books mark (Asking mark)) (force (Machine.ofFuel n) generator [] []) := by
  intro s u leaves
  have told : (derive (Machine.ofFuel n) generator).Leaves (s.did (.asked generator)) u :=
    leaves.congr rfl
  have step : Books mark (· = [.asked generator]) s (s.did (.asked generator)) := .of_told rfl rfl s
  refine step.trans ?_ (derive_answer keeps counts _ _ told)
  rintro _ _ rfl ⟨rest, d, rfl, derives, rounds⟩
  exact ⟨rest, .asked generator, d, by rw [List.append_assoc]; rfl, counts, derives, rounds⟩

theorem force_books {n : Nat} (keeps : ∀ m ≤ n, (Machine.ofFuel m).Obeys (conservation mark))
    (generator : Value) (args : List Value) (named : Named) :
    Leads (conservation mark).holds (force (Machine.ofFuel n) generator args named) := by
  by_cases plain : args = [] ∧ named = []
  · obtain ⟨rfl, rfl⟩ := plain
    intro s u leaves
    by_cases counts : generator.countsOn mark = true
    · refine .mono ?_ (force_asking keeps counts s u leaves)
      rintro _ ⟨rest, d, d', rfl, asks, derives, rounds⟩
      exact rounds.append (.asked asks derives .nil)
    · have told : (derive (Machine.ofFuel n) generator).Leaves (s.did (.asked generator)) u :=
        leaves.congr rfl
      have quiet : Deed.Quiet mark (.asked generator) :=
        ⟨rfl, by simpa [Deed.asks] using counts, rfl, rfl, rfl, rfl⟩
      exact (Books.of_quiet quiet s).join (derive_leads (keeps n (Nat.le_refl n)) generator _ _ told)
  · have whole : force (Machine.ofFuel n) generator args named = refuse args named := by
      unfold force
      split
      · exact absurd ⟨rfl, rfl⟩ plain
      · rfl
    rw [whole]
    exact (refuse_tame args named).leads

/-- A plain call of a thunk of a generator that counts asks it. -/
theorem call_asking {n : Nat} (keeps : ∀ m ≤ n, (Machine.ofFuel m).Obeys (conservation mark))
    {generator : Value} (counts : generator.countsOn mark = true) (thunk : Nat) :
    Leads (Books mark (Asking mark)) ((Machine.ofFuel n).call (.thunk thunk generator) [] []) := by
  cases n with
  | zero => exact Leads.outOfFuel
  | succ n =>
      refine deeper_leads .of_refused .levels ?_
      intro s u leaves
      exact force_asking (fun m below => keeps m (Nat.le_succ_of_le below)) counts s u (leaves.congr rfl)

/-- What a thunk that counts does once it has counted and told so. -/
theorem passed_books {n : Nat} (keeps : ∀ m ≤ n, (Machine.ofFuel m).Obeys (conservation mark))
    {t : Value} (inner : Value) (args : List Value) (named : Named) {s₁ : Store}
    {plain : Bool} (isPlain : plain = (args.isEmpty && named.isEmpty))
    (step : Books mark (· = [.passed t inner plain]) s s₁)
    (leaves : ((Machine.ofFuel n).call inner args named).Leaves s₁ u) :
    Books mark (Rounds mark) s u := by
  by_cases hands : Deed.hands mark (.passed t inner plain) = true
  · obtain ⟨t', m, g, same, -, counts⟩ := Deed.exists_of_hands hands
    cases same
    obtain ⟨rfl, rfl⟩ : args = [] ∧ named = [] := by
      simpa [List.isEmpty_iff] using isPlain
    refine step.trans ?_ (call_asking keeps counts m _ _ leaves)
    rintro _ _ rfl ⟨rest, d, d', rfl, asks, derives, rounds⟩
    rw [List.append_assoc]
    exact rounds.append (.handed hands asks derives .nil)
  · refine step.trans ?_ ((keeps n (Nat.le_refl n)).call inner args named _ _ leaves)
    rintro _ _ rfl rounds
    exact rounds.append (.other rfl rfl (by simpa using hands) .nil)

theorem forceCounted_books {n : Nat} (keeps : ∀ m ≤ n, (Machine.ofFuel m).Obeys (conservation mark))
    (inner t : Value) (args : List Value) (named : Named) :
    Leads (conservation mark).holds (forceCounted (Machine.ofFuel n) inner t args named) := by
  intro s u leaves
  by_cases isTally : t.isTally mark = true
  · obtain ⟨a, b, rfl⟩ := exists_of_isTally isTally
    by_cases recorded : ∃ d c, Tallied mark s d c
    · obtain ⟨d, c, recorded⟩ := recorded
      exact passed_books keeps inner args named rfl (passed_step a b recorded _ _)
        (leaves.congr (bind_of_ok (bump_thunkCalls a b recorded)))
    · exact .of_unrecorded recorded
        (leaves.after ▸ (forceCounted_grows (Machine.growing_ofFuel n) _ _ _ _ s).marks)
        ((derives_ceiling (Machine.keeps_ceiling n)).forceCounted _ _ _ _ s u leaves).told
  · have other : t.isTally mark = false := by simpa using isTally
    have quiet : Deed.Quiet mark (.passed t inner (args.isEmpty && named.isEmpty)) := by
      refine ⟨rfl, rfl, rfl, ?_, ?_, ?_⟩
      · cases inner <;> simp [Deed.hands, other]
      · simp [Deed.rejects, other]
      · simp [Deed.strays, other]
    have whole : Leads (conservation mark).holds (forceCounted (Machine.ofFuel n) inner t args named) :=
      (bump_books other .thunkCalls).bind fun _ => (tell_books quiet).bind fun _ =>
        (keeps n (Nat.le_refl n)).call inner args named
    exact whole s u leaves

theorem deriveCounted_books {n : Nat} (keeps : (Machine.ofFuel n).Obeys (conservation mark))
    (generator t thunk : Value) :
    Leads (conservation mark).holds (deriveCounted (Machine.ofFuel n) generator t thunk) := by
  intro s u leaves
  by_cases isTally : t.isTally mark = true
  · refine .mono ?_ (deriveCounted_answer keeps generator thunk isTally s u leaves)
    rintro _ ⟨rest, d, rfl, derives, rounds⟩
    obtain ⟨t', rfl, -⟩ := Deed.exists_of_derives derives
    exact rounds.append (.other rfl rfl rfl .nil)
  · have other : t.isTally mark = false := by simpa using isTally
    have quiet : Deed.Quiet mark (.derived t) := ⟨rfl, rfl, by simpa [Deed.derives] using other, rfl, rfl, rfl⟩
    have whole : Leads (conservation mark).holds (deriveCounted (Machine.ofFuel n) generator t thunk) :=
      (bump_books other .derivations).bind fun _ => (tell_books quiet).bind fun _ =>
        fresh_tame.leads.bind fun m => keeps.call generator [.countedThunk m thunk t] []
    exact whole s u leaves

end FixedPoint

namespace Machine

theorem keeps_conservation (mark n : Nat) : (ofFuel n).Obeys (conservation mark) :=
  keeps_ofFuel (fun n keeps =>
    ⟨FixedPoint.build_books keeps, FixedPoint.force_books keeps,
      FixedPoint.deriveCounted_books (keeps n (Nat.le_refl n)),
      FixedPoint.forceCounted_books keeps⟩) n

/-- A thunk that is called with arguments tells nothing. -/
theorem refused_books {n : Nat} (generator : Value) (thunk : Nat) {args : List Value} {named : Named}
    (given : args ≠ [] ∨ named ≠ []) :
    Leads (Books mark (· = [])) ((ofFuel n).call (.thunk thunk generator) args named) := by
  cases n with
  | zero => exact Leads.outOfFuel
  | succ n =>
      refine deeper_leads .of_refused .levels ?_
      have refuses : FixedPoint.force (ofFuel n) generator args named = FixedPoint.refuse args named := by
        unfold FixedPoint.force
        split
        · simp at given
        · rfl
      have tame : Tame (callThunk (ofFuel n) generator args named) := by
        unfold callThunk
        rw [refuses]
        exact .ite (.fault _) (FixedPoint.refuse_tame args named)
      intro s t leaves
      exact .of_same (leaves.after ▸ tame.still s)

/-- A call with arguments of a thunk that counts is one more call and no derivation. -/
theorem rejected_books {n : Nat} {m thunk : Nat} (generator a b : Value) {args : List Value}
    {named : Named} (given : args ≠ [] ∨ named ≠ []) {d c : Int} (recorded : Tallied mark s d c)
    (leaves : ((ofFuel n).call (.countedThunk m (.thunk thunk generator) (.tally mark a b)) args
      named).Leaves s t) (unrefused : .refused ∉ t.deedsSince s) :
    Tallied mark t d (c + 1) := by
  have passes : Leads (Books mark (· = [.passed (.tally mark a b) (.thunk thunk generator)
      (args.isEmpty && named.isEmpty)])) ((ofFuel n).call (.countedThunk m (.thunk thunk generator)
        (.tally mark a b)) args named) := by
    cases n with
    | zero => exact Leads.outOfFuel
    | succ n =>
        refine deeper_leads .of_refused .levels fun s u leaves => ?_
        by_cases recorded : ∃ d c, Tallied mark s d c
        · obtain ⟨d, c, recorded⟩ := recorded
          refine (FixedPoint.passed_step a b recorded _ _).before_nothing ?_
          exact refused_books generator thunk given _ _ (leaves.congr (bind_of_ok
            (bump_thunkCalls a b recorded)))
        · exact .of_unrecorded recorded
            (leaves.after ▸ (FixedPoint.forceCounted_grows (growing_ofFuel n) _ _ _ _ s).marks)
            ((FixedPoint.derives_ceiling (keeps_ceiling n)).forceCounted _ _ _ _ s u leaves).told
  obtain ⟨told, after⟩ := (passes s t leaves).counts unrefused d c recorded
  have isTally : (Value.tally mark a b).isTally mark = true := by simp [Value.isTally]
  obtain ⟨none, one⟩ := Ledger.passed_of_passes isTally (.thunk thunk generator)
    (args.isEmpty && named.isEmpty)
  rw [told, none, one, Int.natCast_one, Int.natCast_zero, Int.add_zero] at after
  exact after

/-- What a machine leaves of the tallies that there were, where no call was refused. -/
structure ConservesTallies (k : Machine) : Prop where
  /-- Derivations and rejected calls on one side are what was built and asked and all calls of thunks
  that count on the other, but for calls of counting generators that are neither for a fixed point nor
  for a thunk, and plain calls that go astray because of such. Neither counter falls. -/
  balance : ∀ {mark s t d c}, k.Traverses s t → .refused ∉ t.deedsSince s → Tallied mark s d c →
    ∃ d' c' : Int, Tallied mark t d' c' ∧ d ≤ d' ∧ c ≤ c' ∧
      d' - d + (Ledger.of mark (t.deedsSince s)).rejected + (Ledger.of mark (t.deedsSince s)).strayed =
        (Ledger.of mark (t.deedsSince s)).built + (Ledger.of mark (t.deedsSince s)).asked +
          (Ledger.of mark (t.deedsSince s)).called + (c' - c)
  /-- A call that is rejected counts as a call and as no derivation. -/
  rejected : ∀ {mark s t d c m thunk generator a b args named}, Tallied mark s d c →
    args ≠ [] ∨ named ≠ [] →
    (k.call (.countedThunk m (.thunk thunk generator) (.tally mark a b)) args named).Leaves s t →
    .refused ∉ t.deedsSince s → Tallied mark t d (c + 1)
  /-- What the counters show is what is recorded. -/
  shown : ∀ {mark s d c a b}, Tallied mark s d c →
    getAttribute (.tally mark a b) "derivations" s = .ok (.int d) s ∧
      getAttribute (.tally mark a b) "thunk_calls" s = .ok (.int c) s

theorem conservesTallies_ofFuel (n : Nat) : (ofFuel n).ConservesTallies where
  balance {mark s t d c} passes unrefused recorded := by
    have books := passes.holds (keeps_conservation mark n)
    obtain ⟨rounds, after⟩ := books.counts unrefused d c recorded
    have balance := Ledger.balance rounds
    refine ⟨_, _, after, by omega, by omega, ?_⟩
    simp only [Ledger.passed]
    omega
  rejected recorded given leaves unrefused := rejected_books _ _ _ given recorded leaves unrefused
  shown recorded := getAttribute_counter _ _ recorded

/-- A program with a generator whose function asks a thunk that was made beside it. -/
def asideProgram : Term :=
  let generator := .fn ["self"] (.fn ["n"] (.ite (.binary .less (.var "n") (.num 1)) (.num 1)
    (.app (.app (.var "beside") []) [.binary .sub (.var "n") (.num 1)])))
  .seq [.define "tally" (.app (.var "ThunkTally") []),
    .define "counting" (.app (.prim .counting) [generator, .var "tally"]),
    .define "beside" (.app (.var "Thunk") [.var "counting"]),
    .app (.app (.prim .fixedPoint) [.var "counting"]) [.num 1]]

/-- One fixed point is built, no thunk is called but in the generator's function, and that one does not
count; still there are two derivations. -/
theorem asideProgram_derives :
    (match asideProgram.eval (ofFuel 20) [] Session.start with
      | .ok _ t =>
          (match t.tallies.lookup 16 with
            | some (.int 2, .int 0) => true
            | _ => false) &&
            (t.deeds.all fun d => match d with | .refused => false | _ => true) &&
            (Ledger.of 16 t.deeds).built == 1 && (Ledger.of 16 t.deeds).rejected == 0
      | _ => false) = true := by
  decide +kernel

end Machine

end Knot
