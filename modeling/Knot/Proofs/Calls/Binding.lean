import Knot.Proofs.Calls.Evaluating
import Knot.Proofs.Calls.Parameters
import Knot.Proofs.Demo.Procedures
import Knot.Proofs.Journal.Lexical

/-!
What the body of a procedure finds. Its parameters are names of which no two are equal, so each argument
keeps the place that it was bound to, and every other name is looked up where the procedure was made.
-/

namespace Knot

open Run Renaming Store

variable {s t u : Store} {v : Value}

/-! What binding the arguments leaves. -/

/-- Every name that functions have something under starts with two underscores. -/
theorem plain_of_ordinary {name : String} (ordinary : name.startsWith "__" = false) :
    isReserved name = false := by
  have hidden : ∀ name ∈ "__dict__" :: Card.settable ++ Kind.commonMembers ++ Kind.function.members,
      String.startsWith name "__" = true := by decide +kernel
  by_contra reserved
  rw [Bool.not_eq_false] at reserved
  suffices among : name ∈ "__dict__" :: Card.settable ++ Kind.commonMembers ++ Kind.function.members by
    rw [hidden name among] at ordinary
    cases ordinary
  have shown : (({} : Card).get? name).isSome = true → name ∈ Card.settable := by
    intro some
    unfold Card.get? at some
    split at some <;> simp_all [Card.settable]
  have members : Kind.function.hasMember name = true →
      name ∈ Kind.commonMembers ∨ name ∈ Kind.function.members := by
    simp [Kind.hasMember, Kind.plainMembers]
  simp only [isReserved, Bool.or_eq_true, beq_iff_eq] at reserved
  simp only [List.mem_append, List.mem_cons]
  rcases reserved with (table | some) | member
  · exact .inl (.inl (.inl table))
  · exact .inl (.inl (.inr (shown some)))
  · exact (members member).elim (fun common => .inl (.inr common)) .inr

theorem Store.change_alone (id : Nat) {frame : Frame} (alone : t.namespaces.lookup frame.mark = none) (e : Event) :
    t.change id frame e =
      { t with frames := t.frames.setIfInBounds id frame, journal := e :: t.journal } := by
  have unshared : t.isShared id frame = false := by
    rw [Store.isShared, alone]
    rfl
  rw [Store.change, unshared, Store.setFrame, alone]
  rfl

/-- A frame that was made since a store was left, and that no dictionary stands for, can be bound in. -/
theorem Run.bind_new (quiet : Quiet s t) {id : Nat} (new : s.frames.size ≤ id) (inside : id < t.frames.size)
    (alone : t.namespaces.lookup (t.frame id).mark = none) {name : String} (plain : isReserved name = false)
    (v : Value) : ∃ u, writing .call (Run.bind id name v) t = .ok () u ∧ Quiet s u ∧
      u.frames.size = t.frames.size ∧
        u.frame id = { t.frame id with bindings := (t.frame id).bindings.assign name v } := by
  have set : (t.frame id).set name v =
      .ok { t.frame id with bindings := (t.frame id).bindings.assign name v } := by
    unfold Frame.set
    rw [if_neg (ne_dict_of_plain plain), Card.set?_eq_none plain]
  generalize built : { t.frame id with bindings := (t.frame id).bindings.assign name v } = frame at set
  have alone' : t.namespaces.lookup frame.mark = none := by rw [← built, alone]
  have changed := Store.change_alone id alone' (.bound .call id name v)
  refine ⟨t.change id frame (.bound .call id name v), ?_, changed ▸ quiet.framed new frame _, ?_, ?_⟩
  · have ran : Run.bind id name v { t with writer := .call } =
        .ok () ({ t with writer := .call }.change id frame (.bound .call id name v)) := by
      rw [Run.bind, if_neg (ne_dict_of_plain plain)]
      change (Run.ofExcept ((t.frame id).set name v) >>= fun frame =>
        modify fun t => t.change id frame (.bound t.writer id name v)) _ = _
      rw [set]
      rfl
    rw [writing, ran, changed, Store.change_alone (t := { t with writer := .call }) id alone']
  · rw [changed, Array.size_setIfInBounds]
  · rw [changed]
    change frameAt (t.frames.setIfInBounds id frame) id = _
    rw [frameAt_set, if_pos ⟨rfl, inside⟩]

/-- Runs that may be stopped in some ways, whatever they do. -/
def Manner.stopping (stops : Stop → Prop) : Manner :=
  ⟨fun _ _ => True, stops, fun _ => trivial, fun _ _ => trivial, fun _ => trivial⟩

theorem Run.Attains.stopping {α : Type} {x : Run α} {stops : Stop → Prop} {P : α → Store → Prop}
    (attains : Attains (.silent stops) x s P) :
    Attains (.stopping stops) x s fun a t => Quiet s t ∧ P a t := by
  refine attains.imp ?_ id
  rintro ⟨a, t, run, quiet, holds⟩
  exact ⟨a, t, run, trivial, quiet, holds⟩

namespace Calculus

/-- Names are bound to copies of the arguments, in order, in a frame that was made for them. -/
theorem bindAll_new (rooted : s.IsRooted) {levels n : Nat} {stops : Stop → Prop} (closed caller : Value)
    {names : List String} {args : List Value} (same : args.length = names.length)
    (plain : ∀ name ∈ names, isReserved name = false) (nodup : names.Nodup)
    (makes : ∀ arg ∈ args, Makes s Machine.evaluating (CopyOf s) levels arg)
    (id : Nat) (new : s.frames.size ≤ id) (inside : id < t.frames.size) (quiet : Quiet s t)
    (room : (Manner.silent stops).Room levels n s) (unmade : s.nextMark ≤ (t.frame id).mark)
    (apart : ∀ name ∈ names, name ∉ (t.frame id).bindings.keys) :
    Attains (.stopping stops)
      (bindAll (.ofFuel n) (.environment id closed) caller (names.map .str) args) t fun _ u =>
        Quiet s u ∧ id < u.frames.size ∧ ∃ copies, List.Forall₂ (CopyOf s) args copies ∧
          (u.frame id).bindings = (t.frame id).bindings ++ names.zip copies := by
  induction names generalizing t args with
  | nil =>
      obtain rfl : args = [] := List.length_eq_zero_iff.mp same
      exact .pure ⟨quiet, inside, [], .nil, (List.append_nil _).symm⟩
  | cons name names ih =>
      cases args with
      | nil => cases same
      | cons arg args =>
          have step : bindAll (.ofFuel n) (.environment id closed) caller ((name :: names).map .str) (arg :: args) =
              ((Machine.ofFuel n).evaluate arg caller >>= fun v => writing .call (Run.bind id name v) >>= fun _ =>
                bindAll (.ofFuel n) (.environment id closed) caller (names.map .str) args) := rfl
          rw [step]
          have evaluated := makes arg (List.mem_cons_self ..) stops n t caller quiet.beneath
            (room.later quiet.stack)
          refine evaluated.stopping.bind ?_
          rintro w t' - ⟨quiet', copied⟩
          have kept : t'.frame id = t.frame id := quiet'.frames id inside
          have since : Quiet s t' := quiet.trans quiet'
          have alone : t'.namespaces.lookup (t'.frame id).mark = none := by
            rw [since.namespaces, kept]
            exact rooted.namespaces_new unmade
          obtain ⟨u, bound, quietly, size, frame⟩ := Run.bind_new since new (inside.trans_le quiet'.size) alone
            (plain name (List.mem_cons_self ..)) w
          have absent : name ∉ (t.frame id).bindings.keys := apart name (List.mem_cons_self ..)
          rw [kept, Bindings.assign_of_not_mem w absent] at frame
          refine .step bound trivial ?_
          refine (ih (Nat.succ.inj same) (fun name member => plain name (List.mem_cons_of_mem _ member))
            (List.nodup_cons.mp nodup).2 (fun arg member => makes arg (List.mem_cons_of_mem _ member))
            (size ▸ inside.trans_le quiet'.size) quietly (by rw [frame]; exact unmade) ?_).mono ?_
          · intro other member
            have ne : other ≠ name := fun same => (List.nodup_cons.mp nodup).1 (same ▸ member)
            simp only [frame, Bindings.keys, List.map_append, List.map_cons, List.map_nil, List.mem_append,
              List.mem_singleton, not_or]
            exact ⟨apart other (List.mem_cons_of_mem _ member), ne⟩
          · rintro - x - ⟨quiet'', inside', copies, related, bindings⟩
            refine ⟨quiet'', inside', w :: copies, .cons copied related, ?_⟩
            rw [bindings, frame, List.append_assoc]
            rfl

end Calculus

/-! What a body finds. -/

namespace Value

theorem chain_rename (r : Renaming) (env : Value) : (env.rename r).chain = env.chain.map r.frame := by
  induction env using Value.induction_children with
  | step env ih =>
      cases env with
      | environment id outer =>
          simp only [rename, chain, List.map_cons, ih outer (by simp [children])]
      | procedure mark code env => exact ih env (by simp [children])
      | application mark head args env => exact ih env (by simp [children])
      | kind k =>
          cases k with
          | procedure | application => simp [rename, chain, r.frame_zero]
          | _ => rfl
      | _ => rfl

end Value

/-- Names are looked up in frames that were there. -/
theorem Store.IsRooted.chain_lt (rooted : s.IsRooted) (settled : Settled s v) : ∀ id ∈ v.chain, id < s.frames.size := by
  intro id member
  let r := Renaming.shiftFrame s.frames.size rooted.opened
  have fixes : r.Fixes s := ⟨fun _ _ => rfl, fun _ below => if_pos below, fun _ => rfl, rfl⟩
  have same := Value.chain_rename r v
  rw [settled r fixes] at same
  have fixed : r.frame id = id :=
    List.map_inj_left.mp (same.symm.trans (List.map_id _).symm) id member
  simp only [r, Renaming.shiftFrame] at fixed
  split at fixed
  · assumption
  · omega

/-- Each of some names is looked up as what it was bound to, if no two are equal. -/
theorem lookup_zip {R : Value → Value → Prop} {names : List String} {args copies : List Value}
    (same : args.length = names.length) (nodup : names.Nodup) (related : List.Forall₂ R args copies) :
    List.Forall₂ (fun name arg => ∃ w, R arg w ∧ (names.zip copies).lookup name = some w) names args := by
  induction related generalizing names with
  | nil =>
      obtain rfl : names = [] := List.length_eq_zero_iff.mp same.symm
      exact .nil
  | @cons arg w args copies here _ ih =>
      cases names with
      | nil => cases same
      | cons name names =>
          obtain ⟨apart, nodup⟩ := List.nodup_cons.mp nodup
          refine .cons ⟨w, here, by simp⟩ ?_
          have rest := ih (Nat.succ.inj same) nodup
          have lengths := rest.length_eq
          refine List.forall₂_iff_zip.mpr ⟨lengths, fun {other arg'} member => ?_⟩
          obtain ⟨w', held, found⟩ := (List.forall₂_iff_zip.mp rest).2 member
          have ne : (other == name) = false := by
            have among : other ∈ names := (List.of_mem_zip member).1
            simpa using fun same : other = name => apart (same ▸ among)
          exact ⟨w', held, by rw [List.zip_cons_cons, List.lookup_cons, ne]; exact found⟩

namespace Calculus

/-- An environment that a body starts in: inside the one that the procedure closes over, with a frame that
was not there before, which binds the names in order to copies of the arguments, and nothing else. Every
other name is what it was where the procedure closes. -/
structure Entered (s : Store) (closed : Value) (names : List String) (args : List Value) (env : Value)
    (t : Store) : Prop where
  made : ∃ id, env = .environment id closed ∧ s.frames.size ≤ id ∧ id < t.frames.size ∧ t.names id = names
  bound : List.Forall₂ (fun name arg => ∃ w, CopyOf s arg w ∧ t.lookup name env = .ok w) names args
  others : ∀ name, name.startsWith "__" = false → name ∉ names → t.lookup name env = s.lookup name closed
  reads : ∀ name, name.startsWith "__" = false →
    item env (.str name) t = (Run.ofExcept (t.lookup name env) >>= marked) t

variable {code closed : Value} {names : List String} {args copies : List Value}

theorem entered_of_bindings (rooted : s.IsRooted) (settled : Settled s closed) (quiet : Quiet s u) {id : Nat}
    (new : s.frames.size ≤ id) (inside : id < u.frames.size) (same : args.length = names.length)
    (nodup : names.Nodup) (ordinary : ∀ name ∈ names, name.startsWith "__" = false)
    (related : List.Forall₂ (CopyOf s) args copies) (bindings : (u.frame id).bindings = names.zip copies) :
    Entered s closed names args (.environment id closed) u where
  made := by
    refine ⟨id, rfl, new, inside, ?_⟩
    rw [Store.names, bindings]
    exact List.map_fst_zip (same.symm.trans related.length_eq).le
  bound := by
    have found := lookup_zip same nodup related
    refine List.forall₂_iff_zip.mpr ⟨found.length_eq, fun {name arg} member => ?_⟩
    obtain ⟨w, copied, held⟩ := (List.forall₂_iff_zip.mp found).2 member
    have plain := plain_of_ordinary (ordinary name (List.of_mem_zip member).1)
    have here : frameValue? u.frame id name = some w := by rw [frameValue?_plain plain, bindings, held]
    exact ⟨w, copied, by rw [Store.lookup, Value.lookup, here]⟩
  others name ordinary absent := by
    have missed : frameValue? u.frame id name = none := by
      rw [frameValue?_plain (plain_of_ordinary ordinary), bindings, List.lookup_eq_none_iff]
      rintro ⟨other, w⟩ member
      simpa using fun same : name = other => absent (same ▸ (List.of_mem_zip member).1)
    have outside : u.lookup name (.environment id closed) = u.lookup name closed := by
      rw [Store.lookup, Value.lookup, missed]
      rfl
    refine outside.trans (Value.lookup_congr fun i member => ?_)
    simp only [frameValue?, quiet.frames i (rooted.chain_lt settled i member)]
  reads name ordinary := item_environment (ne_dict_of_plain (plain_of_ordinary ordinary)) id closed

theorem head_opened (rooted : s.IsRooted) (quiet : Quiet s t) (v : Value) : t.opened.head v = t.head v := by
  have table (mark : Nat) : t.opened.table? mark = t.table? mark := by
    have spaces : t.opened.namespaces = t.namespaces := rfl
    have tables : t.opened.tables = t.tables := rfl
    simp only [Store.table?, spaces, tables]
    cases known : t.namespaces.lookup mark with
    | none => rfl
    | some id =>
        have below : id < t.frames.size := by
          rw [quiet.namespaces] at known
          exact (rooted.namespaces_lt known).trans_le quiet.size
        simp only [Store.entries, (Quiet.opened t).frames id below]
  cases v with
  | dict mark entries => simp only [Store.head, table]
  | _ => rfl

/-- With room for evaluating the arguments, the body of a procedure starts where its parameters are bound to
them; with less, the ceiling may stop the call before. -/
theorem apply_entered (rooted : s.IsRooted) {mark m levels n : Nat} {items : List Value} (stops : Stop → Prop)
    (caller : Value) (procedure : Settled s (.procedure mark code closed)) (arguments : Settled s (.list m items))
    (declares : s.Declares code names) (any : names ≠ []) (nodup : names.Nodup)
    (ordinary : ∀ name ∈ names, name.startsWith "__" = false) (fits : (s.items m items).length = names.length)
    (makes : ∀ arg ∈ s.items m items, Makes s Machine.evaluating (CopyOf s) levels arg)
    (room : (Manner.silent stops).Room levels n s) :
    (∃ env t, Entered s closed names (s.items m items) env t ∧
      apply (.ofFuel n) (.procedure mark code closed) (.list m items) caller s =
        (item code (.str "body") >>= fun body => (Machine.ofFuel n).app body [env]) t) ∨
      ∃ e t, apply (.ofFuel n) (.procedure mark code closed) (.list m items) caller s = .error e t ∧ stops e := by
  obtain ⟨params, t, read, plain, members⟩ := declares
  obtain ⟨more, rfl⟩ := item_skips (by decide) read
  generalize began : s.skip more = t at read members
  have quiet : Quiet s t := began ▸ Quiet.told s more s.journal s.deeds
  have size : t.frames.size = s.frames.size := began ▸ rfl
  have listed : t.head (.list m items) = .list m (s.items m items) := quiet.beneath.head rooted arguments
  have opens : callFrame params closed t = .ok (.environment t.frames.size closed) t.opened := by
    have truthy : truth params t = .ok true t := by
      rw [truth_apply, Value.truth_of_members (head_ne_array plain t) members any]
    unfold callFrame
    rw [bind_of_ok truthy]
    rfl
  have named : Run.members params t.opened = .ok (names.map .str) t.opened :=
    members_of_head plain ((congrArg Value.members (head_opened rooted quiet params)).trans members)
  have passed : Run.members (.list m items) t.opened = .ok (s.items m items) t.opened :=
    members_list ((head_opened rooted quiet _).trans listed)
  have counts : Run.length params t = .ok names.length t := length_of_head plain members
  have started : apply (.ofFuel n) (.procedure mark code closed) (.list m items) caller s =
      (bindAll (.ofFuel n) (.environment t.frames.size closed) caller (names.map .str) (s.items m items) >>= fun _ =>
        item code (.str "body") >>= fun body =>
          (Machine.ofFuel n).app body [.environment t.frames.size closed]) t.opened := by
    unfold apply
    dsimp only
    rw [bind_of_ok read, bind_of_ok counts, bind_of_ok (length_list listed), if_neg (fun ne => ne fits.symm),
      bind_of_ok opens, bind_of_ok named, bind_of_ok passed]
  have frame := t.opened_frame
  have bound := bindAll_new rooted closed caller fits (fun name member => plain_of_ordinary (ordinary name member))
    nodup makes t.frames.size (t := t.opened) quiet.size (by simp [Store.opened, Store.push])
    (quiet.trans (Quiet.opened t)) room (by rw [frame]; exact quiet.marks) (by rw [frame]; simp [Bindings.keys])
  rw [started]
  rcases bound with ⟨_, u, ran, -, quiet', inside, copies, related, bindings⟩ | ⟨e, u, ran, stopped⟩
  · have closes : Settled s closed := fun r fixes => by
      have fixed := procedure r fixes
      simp only [Value.rename] at fixed
      injection fixed
    rw [frame] at bindings
    exact .inl ⟨_, u, entered_of_bindings rooted closes quiet' quiet.size inside fits nodup ordinary related
      bindings, bind_of_ok ran⟩
  · exact .inr ⟨e, u, bind_of_error ran, stopped⟩

/-- An application comes to running the body where the names are bound to the arguments. -/
def StartsBody (n : Nat) (s : Store) (proc arguments caller : Value) (names : List String) (args : List Value) : Prop :=
  ∃ mark code closed env t, proc = .procedure mark code closed ∧ Entered s closed names args env t ∧
    apply (.ofFuel n) proc arguments caller s =
      (item code (.str "body") >>= fun body => (Machine.ofFuel n).app body [env]) t

/-- Where a procedure lists one name or more, its body starts where they are bound to copies of as many plain
arguments, unless the ceiling stops the call before, for want of room for evaluating them. -/
theorem apply_startsBody (rooted : s.IsRooted) {mark m : Nat} {items : List Value}
    (procedure : Settled s (.procedure mark code closed)) (arguments : Settled s (.list m items))
    (accepts : Accepts (.procedure mark code closed) names) (declares : s.Declares code names) (any : names ≠ [])
    (ordinary : ∀ name ∈ names, name.startsWith "__" = false)
    (fits : (s.items m items).length = names.length) (plain : ∀ v ∈ s.items m items, Plain s v) :
    ∃ levels, ∀ n caller,
      (Roomy levels n s →
        StartsBody n s (.procedure mark code closed) (.list m items) caller names (s.items m items)) ∧
      (StartsBody n s (.procedure mark code closed) (.list m items) caller names (s.items m items) ∨
        ∃ e t, e.IsCeiling ∧
          apply (.ofFuel n) (.procedure mark code closed) (.list m items) caller s = .error e t) := by
  have members : ∀ v ∈ s.items m items, Settled s v := Settled.of_map fun r fixes => by
    have same := rooted.settled_head arguments r fixes
    simp only [Store.head, Value.rename, Value.renameAll_eq] at same
    injection same
  obtain ⟨levels, makes⟩ : ∃ levels, ∀ v ∈ s.items m items, Makes s Machine.evaluating (CopyOf s) levels v := by
    have each : ∀ v ∈ s.items m items, ∃ levels, Makes s Machine.evaluating (CopyOf s) levels v :=
      fun v member => (plain v member).makes rooted (members v member)
    generalize s.items m items = vs at each
    induction vs with
    | nil => exact ⟨0, fun _ member => absurd member List.not_mem_nil⟩
    | cons v vs ih =>
        obtain ⟨levels, first⟩ := each v (List.mem_cons_self ..)
        obtain ⟨levels', rest⟩ := ih fun v member => each v (List.mem_cons_of_mem _ member)
        refine ⟨max levels levels', fun w member stops n t env beneath room => ?_⟩
        rcases List.mem_cons.mp member with rfl | member
        · exact first stops n t env beneath (room.less (Nat.le_max_left ..))
        · exact rest w member stops n t env beneath (room.less (Nat.le_max_right ..))
  refine ⟨levels, fun n caller => ⟨fun roomy => ?_, ?_⟩⟩
  · rcases apply_entered rooted (fun _ => False) caller procedure arguments declares any accepts.nodup ordinary fits
      makes (.inr roomy) with ⟨env, t, entered, run⟩ | ⟨_, _, _, never⟩
    · exact ⟨mark, code, closed, env, t, rfl, entered, run⟩
    · exact never.elim
  · rcases apply_entered rooted Stop.IsCeiling caller procedure arguments declares any accepts.nodup ordinary fits
      makes (.inl Manner.bounded_open) with ⟨env, t, entered, run⟩ | ⟨e, t, run, ceiling⟩
    · exact .inl ⟨mark, code, closed, env, t, rfl, entered, run⟩
    · exact .inr ⟨e, t, ceiling, run⟩

/-- The binding law of applications. Where a procedure lists one name or more, and its arguments hold no
variable, application or array and do not hold themselves, the body starts where the names, and they alone,
are bound to copies of the arguments; the ceiling may stop the call before, if the stack has no room for
evaluating the arguments. Of a list, a tuple or a text of names, a procedure is made just when no two of them
are equal. -/
theorem apply_binds_parameters {scope : Scope} (reached : Reached s scope) {p l : String} {mark m : Nat}
    {items : List Value} (procedure : (p, .procedure mark code closed) ∈ scope)
    (arguments : (l, .list m items) ∈ scope) (accepts : Accepts (.procedure mark code closed) names)
    (declares : s.Declares code names) (any : names ≠ [])
    (ordinary : ∀ name ∈ names, name.startsWith "__" = false)
    (fits : (s.items m items).length = names.length) (plain : ∀ v ∈ s.items m items, Plain s v) :
    (∃ levels, ∀ n caller,
      (Roomy levels n s →
        StartsBody n s (.procedure mark code closed) (.list m items) caller names (s.items m items)) ∧
      (StartsBody n s (.procedure mark code closed) (.list m items) caller names (s.items m items) ∨
        ∃ e t, e.IsCeiling ∧
          apply (.ofFuel n) (.procedure mark code closed) (.list m items) caller s = .error e t)) ∧
    ∀ (s t : Store) (code closed params : Value) (names : List String),
      item code (.str "parameters") s = .ok params t → t.Lists names params →
        (names.Nodup → ∃ mark u, newProcedure code closed s = .ok (.procedure mark code closed) u) ∧
        (¬names.Nodup → ∃ text, newProcedure code closed s =
          .error (.fault (.value (.duplicateParameters text))) t) := by
  obtain ⟨rooted, settled⟩ := reached.rooted
  exact ⟨apply_startsBody rooted (settled _ procedure) (settled _ arguments) accepts declares any ordinary fits plain,
    fun s t code closed params names read lists => newProcedure_names read lists⟩

/-- The store of a session that has made a procedure of one parameter, and then a list of a list for it. -/
def nestedStore : Store :=
  let made := (Machine.giving.eval (.ofFuel 9) []).after Session.start
  ((Term.list [.list [.num 3]]).eval (.ofFuel 9) [("p", .procedure 19 Machine.givingCode outermost)]).after made

theorem reached_nested : Reached nestedStore
    [("l", .list 21 [.list 20 [.int 3]]), ("p", .procedure 19 Machine.givingCode outermost)] := by
  have made : Machine.giving.eval (.ofFuel 9) [] Session.start =
      .ok (.procedure 19 Machine.givingCode outermost)
        ((Machine.giving.eval (.ofFuel 9) []).after Session.start) := rfl
  have listed : (Term.list [.list [.num 3]]).eval (.ofFuel 9)
      [("p", .procedure 19 Machine.givingCode outermost)]
      ((Machine.giving.eval (.ofFuel 9) []).after Session.start) =
        .ok (.list 21 [.list 20 [.int 3]]) nestedStore := rfl
  exact .ended "l" (.ended "p" .start made) listed

theorem apply_binds_parameters_nested :
    Reached nestedStore
        [("l", .list 21 [.list 20 [.int 3]]), ("p", .procedure 19 Machine.givingCode outermost)] ∧
      Accepts (.procedure 19 Machine.givingCode outermost) ["x"] ∧
      nestedStore.Declares Machine.givingCode ["x"] ∧
      (∀ v ∈ nestedStore.items 21 [.list 20 [.int 3]], Plain nestedStore v) ∧
      ∃ levels, ∀ n caller, Roomy levels n nestedStore →
        StartsBody n nestedStore (.procedure 19 Machine.givingCode outermost) (.list 21 [.list 20 [.int 3]])
          caller ["x"] [.list 20 [.int 3]] := by
  have declares : nestedStore.Declares Machine.givingCode ["x"] :=
    ⟨.list 17 [.str "x"], nestedStore, rfl, nofun, rfl⟩
  have accepts : Accepts (.procedure 19 Machine.givingCode outermost) ["x"] :=
    ⟨19, Machine.givingCode, outermost, { nestedStore with nextMark := 19 }, _, rfl,
      ⟨.list 17 [.str "x"], { nestedStore with nextMark := 19 }, rfl, nofun, rfl⟩, rfl⟩
  have plain : ∀ v ∈ nestedStore.items 21 [.list 20 [.int 3]], Plain nestedStore v := by
    intro v member
    obtain rfl : v = .list 20 [.int 3] := List.mem_singleton.mp member
    have held : nestedStore.head (.list 20 [.int 3]) = .list 20 [.int 3] := rfl
    refine .list held fun u member => ?_
    obtain rfl : u = .int 3 := List.mem_singleton.mp member
    exact .atom rfl
  obtain ⟨levels, starts⟩ := (apply_binds_parameters reached_nested (List.mem_cons_of_mem _ (List.mem_cons_self ..))
    (List.mem_cons_self ..) accepts declares (by decide) (by decide +kernel) rfl plain).1
  exact ⟨reached_nested, accepts, declares, plain, levels, fun n caller => (starts n caller).1⟩

/-- A procedure of one parameter, where the list that holds itself does. -/
def takingStore : Store := { selfHoldingStore with nextMark := 30 }

/-- A list that holds itself is not bound to a parameter: it has no copy, so the body of a procedure that is
applied to it does not start. -/
theorem selfHeld_stops_binding :
    Accepts (.procedure 19 Machine.givingCode outermost) ["x"] ∧
      takingStore.head selfHeld = .list 16 [selfHeld] ∧
        (match apply (.ofFuel 40) (.procedure 19 Machine.givingCode outermost) (.list 21 [selfHeld]) outermost
            takingStore with
          | .error (.fault f) _ => f.kind == "RecursionError"
          | _ => false) = true :=
  ⟨⟨19, Machine.givingCode, outermost, { takingStore with nextMark := 19 }, _, rfl,
    ⟨.list 17 [.str "x"], _, rfl, nofun, rfl⟩, rfl⟩, rfl, by decide +kernel⟩

end Calculus

end Knot
