import Knot.Proofs.Demo.Procedures

/-!
Recursion in the calculus. A generator of the factorial that is given to the combinator of the outermost
environment becomes a procedure that computes factorials: each time its thunk is asked, the combinator's
root is applied to itself in a new environment, and the generator gives the procedure again.
-/

namespace Knot

open Run Store Term Prelude

namespace Calculus

/-- The names that the calculus and its examples bind. -/
theorem ordinary_of_mem : ∀ name ∈ ["i", "self", "sf", "g", "d", "m", "Υ1", "Υ"], Ordinary name := by
  simp only [List.forall_mem_cons, List.not_mem_nil, false_implies, implies_true, and_true]
  refine ⟨?_, ?_, ?_, ?_, ?_, ?_, ?_, ?_⟩
  all_goals exact ⟨rfl, by decide +kernel, fun _ _ _ => rfl⟩

theorem ordinary_i : Ordinary "i" := ordinary_of_mem _ (by simp)
theorem ordinary_self : Ordinary "self" := ordinary_of_mem _ (by simp)
theorem ordinary_sf : Ordinary "sf" := ordinary_of_mem _ (by simp)
theorem ordinary_g : Ordinary "g" := ordinary_of_mem _ (by simp)
theorem ordinary_d : Ordinary "d" := ordinary_of_mem _ (by simp)
theorem ordinary_m : Ordinary "m" := ordinary_of_mem _ (by simp)
theorem ordinary_directFixedPoint : Ordinary "Υ1" := ordinary_of_mem _ (by simp)
theorem ordinary_fixedPoint : Ordinary "Υ" := ordinary_of_mem _ (by simp)

/-- What the functions in a combinator's body show of themselves. -/
def bodyHeader (depth : Nat) (env : String) : Header where
  name := "<lambda>"
  path := "<lambda>" ++ String.join (List.replicate depth ".<locals>.<lambda>")
  params := [env]
  plain := false
  home := Builtin.lambda.home

/-- What the functions in the generator's body show of themselves. -/
def generatorHeader (depth : Nat) (env : String) : Header where
  name := "<lambda>"
  path := Builtin.schemulatedFactorial.name ++ String.join (List.replicate depth ".<locals>.<lambda>")
  params := [env]
  plain := false
  home := Builtin.schemulatedFactorial.home

/-- The factorial of the number that `π` binds, by what `π` binds to ask for it. -/
def stepTerm : Term := factorialStep (app (attr (var "π") "self") []) (attr (var "π") "i")

def generatorTerm : Term := Prelude.procedure (lam (generatorHeader 2 "π") stepTerm) ["i"] (var "πs")

/-- A value applied to itself, by the name that an environment binds it to. -/
def twice (env name : String) : Term := app (attr (var env) name) [attr (var env) name]

def delayTerm : Term := Prelude.procedure (lam (bodyHeader 2 "πt") (twice "πt" "sf")) [] (var "πsf")

def rootTerm : Term := app (attr (var "πd") "d") [delayTerm]

theorem thunkedBody_eq : thunkedBody =
    app (Prelude.procedure (lam (bodyHeader 1 "πg") (twice "πg" "g")) ["g"] (var "πd"))
      [Prelude.procedure (lam (bodyHeader 1 "πsf") rootTerm) ["sf"] (var "πd")] := rfl

theorem schemulatedFactorial_eq : schemulatedFactorial =
    app (app (attr (var "ΓΠ") "Υ")
      [app (prim .lambda) [lam (generatorHeader 1 "πs") generatorTerm,
        list (["self"].map fun p => lit (.str p))]]) [var "n"] := rfl

/-- The generator as it was made. -/
def IsGenerator (s : Store) (v : Value) : Prop :=
  ∃ mark scope, s.Made ["self"] (.closure mark (generatorHeader 1 "πs") generatorTerm scope) outermost v

/-- What the combinator applies to itself, for the generator. -/
def IsRoot (s : Store) (v : Value) : Prop :=
  ∃ mark env generator, s.Made ["sf"] (.closure mark (bodyHeader 1 "πsf") rootTerm [("πd", env)]) env v ∧
    s.Binds "d" generator outermost env ∧ IsGenerator s generator

/-- A thunk that applies a root to itself. -/
def IsThunk (s : Store) (v : Value) : Prop :=
  ∃ mark scope env root outer, s.Made [] (.closure mark (bodyHeader 2 "πt") (twice "πt" "sf") scope) env v ∧
    s.Binds "sf" root outer env ∧ IsRoot s root

/-- What the generator gives for a thunk. -/
def IsFactorial (s : Store) (v : Value) : Prop :=
  ∃ mark scope env thunk, s.Made ["i"] (.closure mark (generatorHeader 2 "π") stepTerm scope) env v ∧
    s.Binds "self" thunk outermost env ∧ IsThunk s thunk

section

variable {s t : Store} {v : Value} (beneath : Beneath s t)
include beneath

theorem IsGenerator.later (is : IsGenerator s v) : IsGenerator t v := by
  obtain ⟨mark, scope, made⟩ := is
  exact ⟨mark, scope, beneath.made made⟩

theorem IsRoot.later (is : IsRoot s v) : IsRoot t v := by
  obtain ⟨mark, env, generator, made, binds, inner⟩ := is
  exact ⟨mark, env, generator, beneath.made made, beneath.binds binds, inner.later beneath⟩

theorem IsThunk.later (is : IsThunk s v) : IsThunk t v := by
  obtain ⟨mark, scope, env, root, outer, made, binds, inner⟩ := is
  exact ⟨mark, scope, env, root, outer, beneath.made made, beneath.binds binds, inner.later beneath⟩

theorem IsFactorial.later (is : IsFactorial s v) : IsFactorial t v := by
  obtain ⟨mark, scope, env, thunk, made, binds, inner⟩ := is
  exact ⟨mark, scope, env, thunk, beneath.made made, beneath.binds binds, inner.later beneath⟩

end

theorem steady_isFactorial : Steady fun v t => IsFactorial t v := fun _ _ _ is => is

section

variable {s : Store} {k : Machine} {scope : Scope}

/-- An attribute of what a name stands for. -/
theorem attr_eq {name part : String} {env : Value} (bound : scope.lookup name = some env) :
    (attr (var name) part).eval k scope s = getAttribute env part s := by
  have value : (var name).eval k scope s = .ok env s := by
    rw [Term.eval, Form.resolve, bound]
    rfl
  rw [Term.eval]
  exact bind_of_ok value

theorem attr_yields {name part : String} {env v : Value} (bound : scope.lookup name = some env)
    (found : getAttribute env part s = .ok v s) : Yields ((attr (var name) part).eval k scope) s v :=
  .same ((attr_eq bound).trans found) rfl

theorem IsGenerator.inert {generator : Value} (is : IsGenerator s generator) : generator.Inert := by
  obtain ⟨_, _, made⟩ := is
  exact made.inert

theorem IsRoot.inert {root : Value} (is : IsRoot s root) : root.Inert := by
  obtain ⟨_, _, _, made, -⟩ := is
  exact made.inert

theorem IsThunk.inert {thunk : Value} (is : IsThunk s thunk) : thunk.Inert := by
  obtain ⟨_, _, _, _, _, made, -⟩ := is
  exact made.inert

/-- The generator gives a factorial for a thunk. -/
theorem generator_gives {generator thunk : Value} (called : IsGenerator s generator)
    (passed : IsThunk s thunk) (new : s.Fresh) (affords : Affords 3 k s) :
    Gives (k.call generator [thunk] []) s fun v t => IsFactorial t v := by
  obtain ⟨mark, scope', made⟩ := called
  refine procedure_call_gives steady_isFactorial made rfl passed.inert new (fun _ => rfl) affords ?_
  intro k' env t beneath inner bound
  have isThunk := passed.later beneath
  refine (Term.procedure_gives _ _ (beneath.new new) inner (by decide) fun _ _ => var_yields rfl).mono ?_
  rintro v u quiet ⟨mark', made'⟩
  exact ⟨mark', _, env, thunk, made', bound.later quiet, isThunk.later quiet.beneath⟩

/-- A root applied to a root asks the generator for a factorial, with a new thunk. -/
theorem root_gives {root root' : Value} (called : IsRoot s root) (passed : IsRoot s root') (new : s.Fresh)
    (affords : Affords 5 k s) : Gives (k.call root [root'] []) s fun v t => IsFactorial t v := by
  obtain ⟨mark, outer, generator, made, binds, isGenerator⟩ := called
  refine procedure_call_gives steady_isFactorial made rfl passed.inert new (fun _ => rfl) affords ?_
  intro k' env t beneath inner bound
  have generates := isGenerator.later beneath
  have isRoot := passed.later beneath
  refine app_gives (F := fun g _ => g = generator) (A := fun v t => IsThunk t v) ?_ ?_ ?_
  · exact attr_yields rfl ((beneath.binds binds).attribute ordinary_d isGenerator.inert)
  · rintro g u quiet rfl
    refine (Term.procedure_gives _ _ (quiet.fresh (beneath.new new)) ((inner.later quiet).less (by decide))
      (by decide) fun _ _ => var_yields rfl).mono ?_
    rintro v w later ⟨mark', made'⟩
    have since := (quiet.trans later)
    exact ⟨mark', _, env, root', outer, made', bound.later since, isRoot.later since.beneath⟩
  · rintro g u thunk w quiet rfl later isThunk
    have since := quiet.trans later
    exact generator_gives (generates.later since.beneath) isThunk (since.fresh (beneath.new new))
      (inner.later since)

/-- A value that an environment binds, applied to itself. -/
theorem twice_gives {env name : String} {e v outer : Value} (bound : scope.lookup env = some e)
    (binds : s.Binds name v outer e) (ordinary : Ordinary name) (isRoot : IsRoot s v) (new : s.Fresh)
    (affords : Affords 5 k s) : Gives ((twice env name).eval k scope) s fun v t => IsFactorial t v := by
  have read (t : Store) (quiet : Quiet s t) : Yields ((attr (var env) name).eval k scope) t v :=
    attr_yields bound ((binds.later quiet).attribute ordinary isRoot.inert)
  refine app_gives (read s (.refl s)) (fun _ t quiet _ => read t quiet) ?_
  rintro g t w u quiet rfl later rfl
  have since := quiet.trans later
  have there := isRoot.later since.beneath
  exact root_gives there there (since.fresh new) (affords.later since)

/-- A thunk that is asked gives a factorial. -/
theorem thunk_gives {thunk : Value} (isThunk : IsThunk s thunk) (new : s.Fresh) (affords : Affords 7 k s) :
    Gives (k.call thunk [] []) s fun v t => IsFactorial t v := by
  obtain ⟨mark, scope', env, root, outer, made, binds, isRoot⟩ := isThunk
  refine thunk_call_gives steady_isFactorial made new (fun _ => rfl) affords ?_
  intro k' t beneath inner
  exact twice_gives rfl (beneath.binds binds) ordinary_sf (isRoot.later beneath) (beneath.new new) inner

/-- What the generator gives computes factorials. -/
theorem isFactorial_computes (n : Nat) {v : Value} (isFactorial : IsFactorial s v) (new : s.Fresh)
    (affords : Affords (if n = 0 then 2 else 2 * n + 7) k s) :
    Yields (k.call v [.int n] []) s (.int n.factorial) := by
  induction n generalizing s k v with
  | zero =>
      obtain ⟨mark, scope', env, thunk, made, binds, isThunk⟩ := isFactorial
      refine procedure_call_gives (steady_value _) made rfl (Value.inert_int _) new (fun _ => rfl)
        (show Affords 2 k s from affords) ?_
      intro k' env t beneath inner bound
      refine factorialStep_yields 0 (fun u quiet => ?_) nofun
      exact attr_yields rfl ((bound.later quiet).attribute ordinary_i (Value.inert_int _))
  | succ n ih =>
      obtain ⟨mark, scope', env, thunk, made, binds, isThunk⟩ := isFactorial
      have more : Affords (2 * n + 7 + 2) k s := affords.less (by rw [if_neg (by omega)]; omega)
      refine procedure_call_gives (steady_value _) made rfl (Value.inert_int _) new (fun _ => rfl) more ?_
      intro k' env' t beneath inner bound
      have since (u : Store) (quiet : Quiet t u) := beneath.trans quiet.beneath
      refine factorialStep_yields (n + 1) (fun u quiet => ?_) ?_
      · exact attr_yields rfl ((bound.later quiet).attribute ordinary_i (Value.inert_int _))
      · intro m same u quiet
        obtain rfl : n = m := by omega
        refine recur_yields (n := n + 1) 1 (by omega) (F := fun g w => IsFactorial w g) ?_ ?_ ?_
        · refine ask_gives (F := fun g _ => g = thunk) ?_ ?_
          · have found : env.lookup u.frame "self" = .ok thunk :=
              ((beneath.binds binds).later quiet).lookup ordinary_self.plain
            exact attr_yields rfl ((bound.later quiet).attribute_outer ordinary_self (by decide)
              isThunk.inert found)
          · rintro g w later rfl
            have there := since w (quiet.trans later)
            exact thunk_gives (isThunk.later there) (there.new new)
              ((inner.later (quiet.trans later)).less (by omega))
        · intro w later
          exact attr_yields rfl ((bound.later (quiet.trans later)).attribute ordinary_i (Value.inert_int _))
        · intro g w x first isFactorial second
          have there := since x (quiet.trans (first.trans second))
          refine ih (isFactorial.later second.beneath) (there.new new) ?_
          exact (inner.later (quiet.trans (first.trans second))).less (by split <;> omega)

end

end Calculus

/-- The outermost environment binds a name to a combinator as sessions start with it, of whose code nothing
was recorded. -/
structure Store.Provides (s : Store) (name : String) (mark : Nat) (body : Term) : Prop where
  bound : (s.frame 0).bindings.lookup name = some (Session.combinator mark body)
  free : s.given.lookup (.environment 0, name) = none
  positive : 0 < mark
  known : mark + 3 < s.nextMark
  params : s.contents.lookup (mark + 1) = none
  code : s.table? (mark + 3) = none

namespace Store.Provides

variable {s t : Store} {name : String} {mark : Nat} {body : Term} (provides : s.Provides name mark body)
include provides

theorem later (new : s.Fresh) (beneath : Beneath s t) : t.Provides name mark body where
  bound := by
    have kept : t.frame 0 = s.frame 0 := beneath.frames 0 new.opened
    rw [kept, provides.bound]
  free := by
    have kept : t.given = s.given := beneath.given
    rw [kept, provides.free]
  positive := provides.positive
  known := provides.known.trans_le beneath.marks
  params := by
    have known : mark + 1 < (Run.atDepth 0 s).nextMark := by
      have := provides.known
      simp only [Run.atDepth]
      omega
    have kept : t.contents.lookup (mark + 1) = s.contents.lookup (mark + 1) := beneath.contents _ known
    rw [kept, provides.params]
  code := table?_later (s := atDepth 0 s) (t := atDepth 0 t) beneath provides.code

theorem made : s.Made ["d"] (.closure mark Session.bodyHeader body []) outermost
    (Session.combinator mark body) := by
  have known := provides.known
  have positive := provides.positive
  exact ⟨mark + 2, mark + 3, mark + 1, rfl, by omega, by omega, by omega, provides.params, provides.code⟩

theorem read (ordinary : Ordinary name) :
    getAttribute outermost name s = .ok (Session.combinator mark body) s := by
  refine getAttribute_environment 0 ordinary provides.made.inert provides.free ?_
  have found : frameValue? s.frame 0 name = some (Session.combinator mark body) := by
    rw [frameValue?_plain ordinary.plain, provides.bound]
  rw [Value.lookup, found]

end Store.Provides

/-- The outermost environment binds the combinator that sessions start with, of whose code nothing was
recorded. -/
structure Store.Original (s : Store) : Prop where
  bound : (s.frame 0).bindings.lookup "Υ" = some (Session.combinator 1 thunkedBody)
  free : s.given.lookup (.environment 0, "Υ") = none
  known : 4 < s.nextMark
  params : s.contents.lookup 2 = none
  code : s.table? 4 = none

namespace Store.Original

variable {s t : Store} (original : s.Original)
include original

theorem provides : s.Provides "Υ" 1 thunkedBody :=
  ⟨original.bound, original.free, Nat.one_pos, original.known, original.params, original.code⟩

theorem later (new : s.Fresh) (beneath : Beneath s t) : t.Original :=
  let provides := original.provides.later new beneath
  ⟨provides.bound, provides.free, provides.known, provides.params, provides.code⟩

theorem made : s.Made ["d"] (.closure 1 Session.bodyHeader thunkedBody []) outermost
    (Session.combinator 1 thunkedBody) := original.provides.made

theorem read : getAttribute outermost "Υ" s = .ok (Session.combinator 1 thunkedBody) s :=
  original.provides.read Calculus.ordinary_fixedPoint

end Store.Original

namespace Calculus

/-- The combinator gives a factorial for the generator. -/
theorem combinator_gives {s : Store} {k : Machine} {generator : Value} (original : s.Original)
    (isGenerator : IsGenerator s generator) (new : s.Fresh) (affords : Affords 9 k s) :
    Gives (k.call (Session.combinator 1 thunkedBody) [generator] []) s fun v t => IsFactorial t v := by
  refine procedure_call_gives steady_isFactorial original.made rfl isGenerator.inert new (fun _ => rfl)
    affords ?_
  intro k' env t beneath inner bound
  rw [thunkedBody_eq]
  have generates := isGenerator.later beneath
  have new' := beneath.new new
  refine app_gives (F := fun g t => ∃ mark, t.Made ["g"] (.closure mark (bodyHeader 1 "πg") (twice "πg" "g")
    [("πd", env)]) env g) (A := fun v t => IsRoot t v) ?_ ?_ ?_
  · exact Term.procedure_gives _ _ new' (inner.less (by decide)) (by decide) fun _ _ => var_yields rfl
  · rintro g u quiet -
    refine (Term.procedure_gives _ _ (quiet.fresh new') ((inner.later quiet).less (by decide)) (by decide)
      fun _ _ => var_yields rfl).mono ?_
    rintro v w later ⟨mark, made⟩
    have since := quiet.trans later
    exact ⟨mark, env, generator, made, bound.later since, generates.later since.beneath⟩
  · rintro g u root w quiet ⟨mark, made⟩ later isRoot
    have since := quiet.trans later
    refine procedure_call_gives steady_isFactorial (made.later later) rfl isRoot.inert (since.fresh new')
      (fun _ => rfl) (show Affords 7 k' w from (inner.later since).less (by decide)) ?_
    intro k'' env' x beneath' inner' bound'
    exact twice_gives rfl bound' ordinary_g (isRoot.later beneath') (beneath'.new (since.fresh new')) inner'

/-- The factorial of the calculus, from the generator on. -/
theorem schemulatedFactorial_yields (n : Nat) {s : Store} {k : Machine} (original : s.Original)
    (new : s.Fresh) (affords : Affords (max 10 (2 * n + 8)) k s) :
    Yields (Demo.call k .schemulatedFactorial [.int n]) s (.int n.factorial) := by
  have more : Affords (max 9 (2 * n + 7) + 1) k s := affords.less (by omega)
  refine call_gives more (steady_value _) fun k' inner => ?_
  refine definition_gives rfl rfl ?_
  rw [schemulatedFactorial_eq]
  have beneath := Beneath.inside s
  have new' := beneath.new new
  have there := original.later new beneath
  refine app_gives (F := fun g t => IsFactorial t g) ?_ (fun _ _ _ _ => var_yields rfl) ?_
  · refine app_gives (attr_yields rfl there.read) (A := fun v t => IsGenerator t v) ?_ ?_
    · rintro g t quiet rfl
      refine (Term.outermost_procedure_gives _ _ (quiet.fresh new') ((inner.later quiet).less (by omega))
        (by decide)).mono ?_
      rintro v u later ⟨mark, made⟩
      exact ⟨mark, _, made⟩
    · rintro g t generator u quiet rfl later isGenerator
      have since := quiet.trans later
      exact combinator_gives (there.later new' since.beneath) isGenerator (since.fresh new')
        ((inner.later since).less (by omega))
  · rintro g t v u quiet isFactorial later rfl
    have since := quiet.trans later
    exact isFactorial_computes n (isFactorial.later later.beneath) (since.fresh new')
      ((inner.later since).less (by split <;> omega))

end Calculus

end Knot
