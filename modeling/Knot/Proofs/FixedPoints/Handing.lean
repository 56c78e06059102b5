import Knot.Proofs.Journal.Growth
import Knot.Proofs.Parallel.Levels
import Knot.Proofs.Recursion.Fixing

/-!
What a generator or direct-style code is handed, and what it may do with it. Whoever uses a function for calls only
cannot tell it from a sealed one: an opaque function that passes calls on to it. A rule of the machine seals what a
generator is handed and leaves out runs in which the generator gives no function. Such a rule goes alike where the
rule of the language does, and a sealed function stands for another one whatever the two hide.
-/

namespace Knot

open Run Renaming

/-! Delays, and functions that hide them. -/

namespace Value

/-- Whether a value is made as the combinators make what they hand on: thunks for generators, and functions of an
argument for direct-style code. -/
def isDelay (direct : Bool) : Value → Bool
  | thunk .. => !direct
  | closure _ header _ _ => direct && (header = delayedHeader || header = adaptedDelayHeader)
  | procedure _ (dict _ ((_, closure _ header _ _) :: _)) _ =>
      header = Calculus.bodyHeader 2 (if direct then "π" else "πt")
  | _ => false

/-- What a sealed function shows of itself. -/
def sealHeader : Header := { name := "sealed", path := "sealed", params := ["self"], plain := true }

/-- What a sealed function hides. -/
def sealed? : Value → Option Value
  | closure _ header (.var name) scope =>
      if header = sealHeader ∧ name = "self" then scope.lookup "self" else Option.none
  | _ => Option.none

/-- Whether a value can be called with an argument and stands for itself. -/
def isRoutine : Value → Bool
  | kind _ | builtin _ | member .. => true
  | closure mark .. | procedure mark .. | method mark .. | thunk mark _ | counted mark .. | countedThunk mark ..
  | manager mark _ | limited mark .. => mark != 0
  | _ => false

/-- The mark by which something to call is known. -/
def ownMarks : Value → List Nat
  | closure mark .. | procedure mark .. | method mark .. | thunk mark _ | counted mark .. | countedThunk mark ..
  | manager mark _ | limited mark .. => [mark]
  | _ => []

/-- Whether a value stands for itself: it is made, and evaluation leaves it as it is. -/
def isInert : Value → Bool
  | list .. | tuple .. | dict .. | array .. | var .. | application .. => false
  | float mark _ | range mark .. | method mark .. => mark != 0
  | _ => true

variable {g v : Value} {direct : Bool} {r : Renaming}

theorem inert_of_isInert (inert : v.isInert) : v.Inert := by
  cases v with
  | list | tuple | dict | array | var | application => cases inert
  | float mark | range mark | method mark =>
      cases mark with
      | zero => cases inert
      | succ mark => exact ⟨rfl, fun _ _ => rfl⟩
  | _ => exact ⟨rfl, fun _ _ => rfl⟩

@[simp]
theorem isInert_rename (r : Renaming) (v : Value) : (v.rename r).isInert = v.isInert := by
  have marked (mark : Nat) : (r.mark mark != 0) = (mark != 0) := by
    rw [Bool.eq_iff_iff, bne_iff_ne, bne_iff_ne, ne_eq, ne_eq, r.mark_eq_zero]
  cases v <;> simp [rename, isInert, marked]

theorem isInert_of_isRoutine (routine : g.isRoutine) : g.isInert := by
  cases g <;> simp_all [isRoutine, isInert]

theorem same_of_isRoutine (routine : g.isRoutine) : g.same g := by
  cases g <;> simp_all [isRoutine, same, sameMark]

/-- Delays stand for themselves. -/
theorem isInert_of_isDelay (delay : v.isDelay direct) : v.isInert := by
  cases v <;> simp_all [isDelay, isInert]

@[simp]
theorem isDelay_rename (direct : Bool) (r : Renaming) (v : Value) : (v.rename r).isDelay direct = v.isDelay direct := by
  cases v with
  | procedure mark code env =>
      cases code with
      | dict mark entries =>
          rcases entries with _ | ⟨⟨key, value⟩, rest⟩
          · rfl
          · rw [rename, rename, renameEntries_eq, List.map_cons]
            cases value <;> rfl
      | _ => rfl
  | _ => rfl

theorem isDelay_procedure {mark dict own list : Nat} {header : Header} {body : Term} {scope : Scope} {env : Value}
    {params : List String} :
    (procedure mark (.dict dict (Store.code (.closure own header body scope) list params)) env).isDelay direct =
      decide (header = Calculus.bodyHeader 2 (if direct then "π" else "πt")) := rfl

theorem sealed_closure {mark : Nat} {header : Header} (ne : header ≠ sealHeader) (body : Term) (scope : Scope) :
    (closure mark header body scope).sealed? = Option.none := by
  cases body <;> simp [sealed?, ne]

/-- A renaming that leaves the mark of something to call alone does not change what is the same as that. -/
theorem same_rename_of_known (routine : g.isRoutine) (known : ∀ m ∈ g.ownMarks, r.mark m = m) (f : Value) :
    g.same (f.rename r) = g.same f := by
  have kept {a b : Nat} (fixed : r.mark a = a) : sameMark a (r.mark b) = sameMark a b := by
    conv_lhs => rw [← fixed]
    exact sameMark_rename _ a b
  -- most pairs of constructors are told apart by computation
  cases g <;> first
    | (cases routine; done)
    | cases f <;> first | rfl | simp_all [same, rename, ownMarks]

end Value

/-- Who is handed delays, whether these are functions of an argument, and a note that is printed whenever one is
handed. -/
structure Handing where
  code : Value
  direct : Bool
  note : String := ""

namespace Handing

variable (h : Handing)

/-- The delay that a call hands the code. -/
def handed? (f : Value) (args : List Value) (named : Named) : Option Value :=
  match args, named with
  | [p], [] => if h.code.same f && p.isDelay h.direct && !h.code.same p then some p else none
  | _, _ => none

/-- Calls that the code may make of what it is handed: none with names and, where it is handed a function of an
argument, those with one argument that stands for itself. -/
def admits (args : List Value) (named : Named) : Bool :=
  named.isEmpty && (!h.direct || args.length == 1 && args.all Value.isInert)

end Handing

/-- A gate before code: which values are delays, which calls of a delay that the code is handed go through, and what
is done before the code is called and with what it gives. -/
structure Gate where
  code : Value
  isDelay : Value → Bool
  admits : List Value → Named → Bool
  before : Run Unit
  after : Value → Value → Run Value

/-- The delay that a call hands the code behind a gate. -/
def Gate.handed? (G : Gate) (f : Value) (args : List Value) (named : Named) : Option Value :=
  match args, named with
  | [p], [] => if G.code.same f && G.isDelay p && !G.code.same p then some p else none
  | _, _ => none

/-- The note is printed before, and the run does not end where no function comes back. -/
def Handing.gate (h : Handing) : Gate where
  code := h.code
  isDelay p := p.isDelay h.direct
  admits := h.admits
  before := Run.print h.note
  after _ v := if v.isCallable then return v else outOfFuel

/-- A function that hides another one. -/
def Run.sealing (p : Value) : Run Value := Form.closing Value.sealHeader (.var "self") [("self", p)]

/-- What code is handed for a delay: a function that hides it, where these are asked for. -/
def Run.passing (seals : Bool) (p : Value) : Run Value := if seals then sealing p else pure p

namespace Machine

/-- Calls go by the rule of the language, and whenever the code is handed a delay, a note is printed first. -/
def noting (h : Handing) : Rule := fun k f args named => do
  if (h.handed? f args named).isSome then print h.note
  callValue k f args named

/-- The code is handed a delay, or a function that hides it; the run does not end where no function comes back. -/
def handing (h : Handing) (seals : Bool) (k : Machine) (f p : Value) : Run Value := do
  print h.note
  let p ← passing seals p
  let v ← callValue k f [p] []
  if v.isCallable then return v else outOfFuel

/-- The function that a call is passed on to. -/
def opened? (seals : Bool) (f : Value) : Option Value := if seals then f.sealed? else none

/-- Calls go by the rule of the language, but the code is handed sealed functions, where these are asked for. A run
does not end where the code breaks what it is held to: to give functions, and to call what it is handed only so. -/
def holding (h : Handing) (seals : Bool) : Rule := fun k f args named =>
  match h.handed? f args named with
  | some p => handing h seals k f p
  | none =>
      match opened? seals f with
      | some p => if h.admits args named then k.call p args named else outOfFuel
      | none => callValue k f args named

/-- The code behind a gate is handed a delay, or a function that hides it. -/
def lending (G : Gate) (seals : Bool) (k : Machine) (f p : Value) : Run Value := do
  G.before
  let p ← passing seals p
  let v ← callValue k f [p] []
  G.after f v

/-- Calls go by the rule of the language, but what code is handed passes its gate. -/
def gating (G : Gate) (seals : Bool) : Rule := fun k f args named =>
  match G.handed? f args named with
  | some p => lending G seals k f p
  | none =>
      match opened? seals f with
      | some p => if G.admits args named then k.call p args named else outOfFuel
      | none => callValue k f args named

variable {h : Handing} {G : Gate} {seals : Bool} {k : Machine} {f p : Value} {args : List Value} {named : Named}

theorem holding_eq_gating : holding h seals = gating h.gate seals := rfl

theorem noting_eq (silent : h.note = "") : noting h = callValue := by
  funext k f args named
  have quiet : print h.note = pure () := by
    funext s
    rw [silent]
    change EStateM.Result.ok () { s with out := s.out ++ "" } = .ok () s
    rw [String.append_empty]
  unfold noting
  rw [quiet]
  cases (h.handed? f args named).isSome <;> rfl

theorem opened_of_plain (plain : f.sealed? = none) : opened? seals f = none := by
  cases seals with
  | true => exact plain
  | false => rfl

/-- What is not sealed and hands nothing goes by the rule of the language. -/
theorem gating_eq (plain : f.sealed? = none) (nothing : G.handed? f args named = none) :
    gating G seals k f args named = callValue k f args named := by
  simp only [gating, opened_of_plain plain, nothing]

theorem gating_of_handed (handed : G.handed? f args named = some p) :
    gating G seals k f args named = lending G seals k f p := by
  simp only [gating, handed]

theorem holding_eq (plain : f.sealed? = none) (nothing : h.handed? f args named = none) :
    holding h seals k f args named = callValue k f args named :=
  gating_eq (G := h.gate) plain nothing

theorem holding_of_handed (handed : h.handed? f args named = some p) :
    holding h seals k f args named = handing h seals k f p :=
  gating_of_handed (G := h.gate) handed

end Machine

namespace Gate

variable {G : Gate} {f p : Value} {args : List Value} {named : Named}

theorem of_handed (handed : G.handed? f args named = some p) :
    args = [p] ∧ named = [] ∧ G.code.same f ∧ G.isDelay p ∧ G.code.same p = false := by
  unfold handed? at handed
  split at handed
  · split at handed
    · rename_i fit
      obtain rfl := Option.some.inj handed
      simp only [Bool.and_eq_true, Bool.not_eq_true'] at fit
      exact ⟨rfl, rfl, fit.1.1, fit.1.2, fit.2⟩
    · cases handed
  · cases handed

/-- The code is handed a delay other than itself. -/
theorem handed_of_delay (is : G.code.same f) (delay : G.isDelay p) (other : G.code.same p = false) :
    G.handed? f [p] [] = some p := by
  simp [handed?, is, delay, other]

theorem nothing_handed_of_ne (other : G.code.same f = false) : G.handed? f args named = none := by
  unfold handed?
  split
  · simp [other]
  · rfl

theorem nothing_handed_of_not_delay (plain : G.isDelay p = false) : G.handed? f [p] [] = none := by
  simp [handed?, plain]

theorem nothing_handed_of_code (same : G.code.same p) : G.handed? f [p] [] = none := by
  simp [handed?, same]

end Gate

namespace Handing

variable {h : Handing} {f p : Value} {args : List Value} {named : Named}

theorem handed_of_delay (is : h.code.same f) (delay : p.isDelay h.direct) (other : h.code.same p = false) :
    h.handed? f [p] [] = some p :=
  Gate.handed_of_delay (G := h.gate) is delay other

theorem nothing_handed_of_ne (other : h.code.same f = false) : h.handed? f args named = none :=
  Gate.nothing_handed_of_ne (G := h.gate) other

theorem nothing_handed_of_not_delay (plain : p.isDelay h.direct = false) : h.handed? f [p] [] = none :=
  Gate.nothing_handed_of_not_delay (G := h.gate) plain

theorem nothing_handed_of_code (same : h.code.same p) : h.handed? f [p] [] = none :=
  Gate.nothing_handed_of_code (G := h.gate) same

end Handing

namespace Value

variable {g u : Value}

/-- What has a mark that something to call is not known by is not the same as that. -/
theorem same_eq_false_of_apart {m : Nat} (own : u.ownMarks = [m]) (apart : m ∉ g.ownMarks) : g.same u = false := by
  have other {a : Nat} (ne : m ≠ a) : sameMark a m = false := by
    rw [sameMark, beq_eq_false_iff_ne.mpr ne.symm, Bool.false_and]
  cases u <;> cases own <;> cases g <;> first | rfl | simp_all [ownMarks, same]

end Value

namespace Machine

variable {h : Handing} {seals : Bool} {k : Machine} {f p v : Value} {s t : Store}

/-- Code that is held to it gives functions. -/
theorem callable_of_handing (run : handing h seals k f p s = .ok v t) : v.isCallable := by
  obtain ⟨_, _, -, run⟩ := ok_of_bind run
  obtain ⟨_, _, -, run⟩ := ok_of_bind run
  obtain ⟨result, u, -, run⟩ := ok_of_bind run
  cases callable : result.isCallable with
  | true =>
      rw [callable] at run
      cases run
      exact callable
  | false =>
      rw [callable] at run
      cases run

theorem callable_of_holding (room : s.stack.room = none) (handed : h.handed? f [p] [] = some p) {n : Nat}
    (run : (levels (holding h seals) n).call f [p] [] s = .ok v t) : v.isCallable := by
  cases n with
  | zero => cases run
  | succ n =>
      rw [levels_call room, holding_of_handed handed] at run
      exact callable_of_handing run

end Machine

end Knot
