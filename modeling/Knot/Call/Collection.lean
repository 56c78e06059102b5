import Knot.Attribute
import Knot.Signature

/-!
Methods of lists, tuples and dictionaries. A list and a dictionary are changed in place: what they
hold from then on is kept in the store under their marks.
-/

namespace Knot.Collection

open Run Signature

/-- How many arguments a method takes, none of which has a name. -/
inductive Takes where
  | nothing
  | one
  | between (least most : Nat)

/-- The arguments fit what a method takes. -/
def Takes.check (takes : Takes) (kindName name : String) (args : List Value) (named : Named) :
    Except Fault Unit :=
  let given := args.length
  let path := kindName ++ "." ++ name
  match takes, named with
  | _, _ :: _ => .error (arity (.noKeywords path))
  | .nothing, [] => if given = 0 then .ok () else .error (arity (.noArguments path given))
  | .one, [] => if given = 1 then .ok () else .error (arity (.exactlyOne path given))
  | .between least most, [] =>
      if least = most ∧ given ≠ least then .error (arity (.expectedExactly name least given))
      else if given < least then .error (arity (.expectedAtLeast name least given))
      else if most < given then .error (arity (.expectedAtMost name most given))
      else .ok ()

/-! Members of lists and tuples. -/

/-- The place of the first member that is equal to a value. -/
def placeOf (v : Value) : List Value → Except Fault (Option Nat)
  | [] => .ok none
  | member :: rest => do
      if ← member.equalMember v then return some 0 else return (← placeOf v rest).map (· + 1)

/-- How many members are equal to a value. -/
def countOf (v : Value) : List Value → Except Fault Nat
  | [] => .ok 0
  | member :: rest => do
      let here := if ← member.equalMember v then 1 else 0
      return here + (← countOf v rest)

/-- An argument that has to be a word. -/
def wordOf (v : Value) : Except Fault Int := do
  match ← v.index? with
  | some i =>
      if Word.isSigned i then return i else throw (.overflow .tooLargeForSize)
  | none => throw (.type (.notInteger v.operandName))

/-- An argument that bounds a part of a sequence; its size does not matter. -/
def boundOf (v : Value) : Except Fault Int := do
  match ← v.index? with
  | some i => return i
  | none => throw (.type .notBound)

/-- The place in front of which something goes at an index; one out of range is moved to the nearest
end. -/
def clamp (length : Nat) (i : Int) : Nat :=
  if i < 0 then (length + i).toNat else min i.toNat length

theorem clamp_le (length : Nat) (i : Int) : clamp length i ≤ length := by
  unfold clamp
  split <;> omega

/-- A list after a method, where it was changed, and what the method gives. -/
structure Outcome where
  items : Option (List Value) := none
  result : Value := .none

def takesOfList? : String → Option Takes
  | "append" | "extend" | "remove" | "count" => some .one
  | "clear" | "reverse" | "copy" => some .nothing
  | "insert" => some (.between 2 2)
  | "pop" => some (.between 0 1)
  | "index" => some (.between 1 3)
  | _ => none

def takesOfTuple? : String → Option Takes
  | "count" => some .one
  | "index" => some (.between 1 3)
  | _ => none

def pop (items : List Value) (i : Int) : Except Fault Outcome :=
  if items.isEmpty then .error (.index .popsNothing)
  else
    match (Value.position? items.length i).bind fun place => (items[place]?).map (place, ·) with
    | some (place, v) => .ok ⟨some (items.eraseIdx place), v⟩
    | none => .error (.index .popsOutside)

/-- The place of a value among the members from one index to another. -/
def indexOf (members : List Value) (v : Value) (bounds : List Value) (absent : Fault) :
    Except Fault Outcome := do
  let ends ← bounds.mapM boundOf
  let first := clamp members.length (ends.getD 0 0)
  let last := clamp members.length (ends.getD 1 members.length)
  match ← placeOf v ((members.take last).drop first) with
  | some place => return { result := .int (place + first : Nat) }
  | none => throw absent

/-- Removes the item that was found, where one was. -/
def removeAt (items : List Value) (found : Option Nat) : Except Fault Outcome :=
  match found with
  | some place => .ok { items := some (items.eraseIdx place) }
  | none => .error (.value .removesAbsent)

/-- What a method does to the items of a list; `members` are the items with what they hold now. -/
def actOnList (s : Store) (mark : Nat) (name : String) (items members args : List Value) :
    Except Fault Outcome := do
  match name, args with
  | "append", [v] => return { items := some (items ++ [v]) }
  | "extend", [v] => return { items := some (items ++ (← (s.head v).members)) }
  | "insert", [i, v] =>
      let place := clamp items.length (← wordOf i)
      return { items := some (items.take place ++ v :: items.drop place) }
  | "pop", [] => pop items (-1)
  | "pop", [i] => pop items (← wordOf i)
  | "remove", [v] => removeAt items (← placeOf (s.now v) members)
  | "clear", _ => return { items := some [] }
  | "reverse", _ => return { items := some items.reverse }
  | "copy", _ => return { result := .list mark items }
  | "count", [v] => return { result := .int (← countOf (s.now v) members) }
  | "index", v :: bounds =>
      let v := s.now v
      indexOf members v bounds (.value (.notInList (← v.showWith s.frame)))
  | _, _ => return {}

def actOnTuple (s : Store) (name : String) (members args : List Value) : Except Fault Outcome := do
  match name, args with
  | "count", [v] => return { result := .int (← countOf (s.now v) members) }
  | "index", v :: bounds => indexOf members (s.now v) bounds (.value .notInTuple)
  | _, _ => return {}

/-! Entries of dictionaries. -/

/-- A dictionary after a method, where it was changed, and what the method gives. -/
structure TableOutcome where
  entries : Option (List (Value × Value)) := none
  result : Value := .none

def takesOfDict? : String → Option Takes
  | "copy" | "clear" => some .nothing
  | "get" | "pop" | "setdefault" => some (.between 1 2)
  | _ => none

/-- The value under a key, if there is one. -/
def find? (key : Value) (entries : List (Value × Value)) : Except Fault (Option Value) := do
  key.checkKey
  return (entries.find? fun (k, _) => Value.sameKey k key).map (·.2)

/-- What a method does to the entries of a dictionary. Taking from an empty one does not look at the
key. -/
def actOnDict (s : Store) (mark : Nat) (name : String) (entries : List (Value × Value))
    (args : List Value) : Except Fault TableOutcome := do
  match name, args with
  | "copy", _ => return { result := .dict mark entries }
  | "clear", _ => return { entries := some [] }
  | "get", key :: rest => return { result := (← find? key entries).getD (rest.headD .none) }
  | "setdefault", key :: rest =>
      match ← find? key entries with
      | some v => return { result := v }
      | none =>
          let v := rest.headD .none
          return { entries := some (Value.insertEntry key v entries), result := v }
  | "pop", key :: rest =>
      let found ← if entries.isEmpty then pure none else find? key entries
      match found, rest with
      | some v, _ => return ⟨some (entries.filter fun (k, _) => !Value.sameKey k key), v⟩
      | none, v :: _ => return { result := v }
      | none, [] => throw (.key (← key.showWith s.frame))
  | _, _ => return {}

/-! Calls. -/

/-- Replaces what a list holds. -/
def setItems (mark : Nat) (items : List Value) : Run Unit :=
  modify fun s => { s with contents := s.contents.assign mark items }

/-- Replaces the entries of a dictionary, which may stand for the names of a frame. -/
def setEntries (mark : Nat) (entries : List (Value × Value)) : Run Unit :=
  modify fun s =>
    match s.namespaces.lookup mark with
    | some id =>
        (s.setFrame id { s.frame id with bindings := Frame.bindingsOf entries }).note (.overwritten id)
    | none => { s with tables := s.tables.assign mark entries }

/-- Calls a method of a list, a tuple or a dictionary; none where it has no method of the name. -/
def call? (owner : Value) (name : String) (args : List Value) (named : Named) :
    Option (Run Value) := do
  let k ← owner.kind?
  let takes ← match owner with
    | .list .. => takesOfList? name
    | .tuple .. => takesOfTuple? name
    | .dict .. => takesOfDict? name
    | _ => none
  return do
    ofExcept (takes.check k.name name args named)
    let copied ← fresh
    let s ← get
    match s.head owner with
    | .list mark items =>
        let outcome ← ofExcept (actOnList s copied name items (items.map s.now) args)
        if let some items := outcome.items then setItems mark items
        return outcome.result
    | .tuple _ items =>
        return (← ofExcept (actOnTuple s name (items.map s.now) args)).result
    | .dict mark entries =>
        let outcome ← ofExcept (actOnDict s copied name entries args)
        if let some entries := outcome.entries then setEntries mark entries
        return outcome.result
    | _ => return .none

end Knot.Collection
