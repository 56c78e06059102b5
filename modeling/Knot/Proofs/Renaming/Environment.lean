import Knot.Function
import Knot.Proofs.Renaming.Equality

/-!
Frames, cards and look-up of renamed values: a renamed environment finds under a name the renamed
value, in frames that hold renamed values under the same names.
-/

namespace Knot

variable (r : Renaming)

namespace Value

@[simp]
theorem lacks_rename (v : Value) (name : String) : (v.rename r).lacks name = v.lacks name := by
  have kinds := kind?_rename r v
  have types := typeName_rename r v
  have operands := operandName_rename r v
  cases v <;> simp_all [lacks]

@[simp]
theorem outermost_rename : outermost.rename r = outermost := by simp [outermost]

end Value

namespace Card

def rename (card : Card) : Card where
  name := card.name.rename r
  path := card.path.rename r
  doc := card.doc.rename r
  home := card.home.rename r
  defaults := card.defaults.rename r
  namedDefaults := card.namedDefaults.rename r
  annotations := card.annotations.rename r

@[simp]
theorem rename_empty : Card.rename r {} = {} := by simp [rename]

@[simp]
theorem get?_rename (card : Card) (name : String) :
    (card.rename r).get? name = (card.get? name).map (·.rename r) := by
  unfold get?
  split <;> simp [rename]

theorem text_rename (v : Value) :
    (match v.rename r with | .str s => s | _ => "") = (match v with | .str s => s | _ => "") := by
  cases v <;> rfl

@[simp]
theorem pathText_rename (card : Card) : (card.rename r).pathText = card.pathText :=
  text_rename r card.path

@[simp]
theorem nameText_rename (card : Card) : (card.rename r).nameText = card.nameText :=
  text_rename r card.name

@[simp]
theorem of_rename (name path home : String) (doc : Option String) :
    (Card.of name path home doc).rename r = .of name path home doc := by
  cases doc <;> simp [rename, Card.of]

/-- The names that a card reserves for setting. -/
def settable : List String := ["__name__", "__qualname__", "__doc__", "__module__", "__defaults__",
  "__kwdefaults__", "__annotations__", "__code__", "__closure__", "__globals__", "__builtins__",
  "__class__"]

theorem set?_of_not_settable {card : Card} {name : String} {v : Value} (free : name ∉ settable) :
    card.set? name v = none := by
  unfold set?
  split <;> simp_all [settable]

@[simp]
theorem set?_rename (card : Card) (name : String) (v : Value) :
    (card.rename r).set? name (v.rename r) = (card.set? name v).map (rename r <$> ·) := by
  by_cases reserved : name ∈ settable
  · simp only [settable, List.mem_cons, List.not_mem_nil, or_false] at reserved
    have types := Value.typeName_rename r v
    rcases reserved with rfl | rfl | rfl | rfl | rfl | rfl | rfl | rfl | rfl | rfl | rfl | rfl
    all_goals
      cases v <;>
        first
        | rfl
        | exact congrArg (fun t => some (Except.error (Fault.type (.notClass t)))) types
        | simp [set?, rename]
  · rw [set?_of_not_settable reserved, set?_of_not_settable reserved]
    rfl

@[simp]
theorem unset?_rename (card : Card) (name : String) :
    (card.rename r).unset? name = (card.unset? name).map (rename r <$> ·) := by
  unfold unset?
  split
  · rfl
  · rfl
  · rfl
  · rfl
  · exact set?_rename r card _ .none

end Card

namespace Frame

def rename (frame : Frame) : Frame where
  bindings := frame.bindings.map (Prod.map id (·.rename r))
  card := frame.card.rename r
  mark := r.mark frame.mark

@[simp]
theorem rename_empty : Frame.rename r {} = {} := by simp [rename]

@[simp]
theorem rename_bindings (frame : Frame) :
    (frame.rename r).bindings = frame.bindings.map (Prod.map id (·.rename r)) := rfl

@[simp]
theorem rename_card (frame : Frame) : (frame.rename r).card = frame.card.rename r := rfl

@[simp]
theorem rename_mark (frame : Frame) : (frame.rename r).mark = r.mark frame.mark := rfl

@[simp]
theorem entries_rename (frame : Frame) : (frame.rename r).entries = frame.entries.map r.entry := by
  simp [entries, Renaming.entry]

end Frame

section

variable {α α' β β' : Type} [BEq α] [LawfulBEq α] [BEq α'] [LawfulBEq α'] {f : α → α'}
  (injective : Function.Injective f) (g : β → β')
include injective

theorem beq_of_injective (a b : α) : (f a == f b) = (a == b) := by
  rw [Bool.eq_iff_iff]
  simp [injective.eq_iff]

theorem lookup_of_injective (bindings : Bindings α β) (key : α) :
    List.lookup (f key) (bindings.map (Prod.map f g)) = (bindings.lookup key).map g := by
  induction bindings with
  | nil => rfl
  | cons head rest ih =>
      obtain ⟨k, v⟩ := head
      simp only [List.map_cons, Prod.map_apply, List.lookup_cons, beq_of_injective injective, ih]
      split <;> rfl

theorem assign_of_injective (bindings : Bindings α β) (key : α) (v : β) :
    Bindings.assign (f key) (g v) (bindings.map (Prod.map f g)) =
      (bindings.assign key v).map (Prod.map f g) := by
  induction bindings with
  | nil => rfl
  | cons head rest ih =>
      obtain ⟨k, u⟩ := head
      simp only [List.map_cons, Prod.map_apply, Bindings.assign, beq_of_injective injective, ih]
      split <;> rfl

theorem erase_of_injective (bindings : Bindings α β) (key : α) :
    Bindings.erase (f key) (bindings.map (Prod.map f g)) =
      (bindings.erase key).map (Prod.map f g) := by
  simp only [Bindings.erase, List.filter_map, Function.comp_def, Prod.map_fst,
    beq_of_injective injective]

end

theorem lookup_map {α β : Type} (f : α → β) (bindings : Bindings String α) (name : String) :
    List.lookup name (bindings.map (Prod.map id f)) = (bindings.lookup name).map f :=
  lookup_of_injective Function.injective_id f bindings name

theorem assign_map {α β : Type} (f : α → β) (bindings : Bindings String α) (name : String) (v : α) :
    Bindings.assign name (f v) (bindings.map (Prod.map id f)) =
      (bindings.assign name v).map (Prod.map id f) :=
  assign_of_injective Function.injective_id f bindings name v

theorem erase_map {α β : Type} (f : α → β) (bindings : Bindings String α) (name : String) :
    Bindings.erase name (bindings.map (Prod.map id f)) =
      (bindings.erase name).map (Prod.map id f) :=
  erase_of_injective Function.injective_id f bindings name

@[simp]
theorem keys_map {α β : Type} (f : α → β) (bindings : Bindings String α) :
    Bindings.keys (bindings.map (Prod.map id f)) = bindings.keys := by
  simp [Bindings.keys]

namespace Frame

@[simp]
theorem get?_rename (frame : Frame) (name : String) :
    (frame.rename r).get? name = (frame.get? name).map (·.rename r) := by
  simp only [get?, rename_card, rename_bindings, rename_mark, entries_rename, Card.get?_rename,
    lookup_map]
  split
  · simp
  · cases frame.card.get? name <;> rfl

@[simp]
theorem bindingsOf_rename (entries : List (Value × Value)) :
    bindingsOf (entries.map r.entry) = (bindingsOf entries).map (Prod.map id (·.rename r)) := by
  induction entries with
  | nil => rfl
  | cons e rest ih =>
      obtain ⟨k, v⟩ := e
      rw [List.map_cons, bindingsOf, List.filterMap_cons, bindingsOf, List.filterMap_cons]
      cases k <;> first | exact ih | exact congrArg (_ :: ·) ih

@[simp]
theorem set_rename (frame : Frame) (name : String) (v : Value) :
    (frame.rename r).set name (v.rename r) = rename r <$> frame.set name v := by
  have types := Value.typeName_rename r v
  simp only [set, rename_card, Card.set?_rename]
  split
  · cases v <;>
      first
      | exact congrArg (fun t => (.error (.type (.namespaceType t)) : Except Fault Frame)) types
      | simp [rename]
  · cases frame.card.set? name v with
    | none => simp [rename, assign_map]
    | some card => simp [rename]

@[simp]
theorem unset_rename (frame : Frame) (name : String) :
    (frame.rename r).unset name = rename r <$> frame.unset name := by
  simp only [unset, rename_card, Card.unset?_rename]
  split
  · rfl
  · cases frame.card.unset? name with
    | some card => simp [rename]
    | none =>
        simp only [Option.map_none, rename_bindings, lookup_map]
        cases frame.bindings.lookup name with
        | none => rfl
        | some v => simp [rename, erase_map]

end Frame

/-! Looking up. -/

/-- Frames under other numbers that hold renamed values. -/
def Renaming.Frames (frames frames' : Nat → Frame) : Prop :=
  ∀ id, frames' (r.frame id) = (frames id).rename r

variable {r} {frames frames' : Nat → Frame} (renamed : r.Frames frames frames')
include renamed

theorem frameValue?_rename (id : Nat) (name : String) :
    frameValue? frames' (r.frame id) name = (frameValue? frames id name).map (·.rename r) := by
  simp only [frameValue?, renamed id, Frame.get?_rename]
  cases (frames id).get? name with
  | some v => rfl
  | none => split <;> simp

namespace Value

theorem lookup_rename (name : String) (env : Value) :
    (env.rename r).lookup frames' name = (·.rename r) <$> env.lookup frames name := by
  have found (id : Nat) := frameValue?_rename renamed id name
  have outer := r.frame_zero ▸ found 0
  induction env using Value.induction_children with
  | step env ih =>
      have lacking := lacks_rename r env "π"
      cases env with
      | environment id outer =>
          simp only [Value.rename, lookup, found]
          cases frameValue? frames id name with
          | some v => rfl
          | none => exact ih outer (by simp [children])
      | procedure _ code env => exact ih env (by simp [children])
      | application _ head args env => exact ih env (by simp [children])
      | kind k =>
          cases k with
          | procedure | application =>
              simp only [Value.rename, lookup, outer]
              cases frameValue? frames 0 name <;> rfl
          | _ => rfl
      | method _ owner m => exact congrArg Except.error lacking
      | _ => rfl

theorem card?_rename (v : Value) :
    (v.rename r).card? frames' = (v.card? frames).map (Card.rename r) := by
  induction v using Value.induction_children with
  | step v ih =>
      cases v with
      | frame id => simp [card?, renamed id]
      | limited mark owner func =>
          have inner := ih func (by simp [children])
          have plain : Card.rename r limitedCard = limitedCard := by simp [limitedCard]
          have shown : some (((func.rename r).card? frames').getD limitedCard) =
              (some ((func.card? frames).getD limitedCard)).map (Card.rename r) := by
            rw [inner]
            cases func.card? frames <;> simp [plain]
          cases func with
          | kind k => simp [card?, kindCard]
          | _ => exact shown
      | method _ owner m => simp [card?, Method.card]
      | builtin b =>
          have defaults : b.defaults.map (·.rename r) = b.defaults := by
            cases b <;> simp [Builtin.defaults]
          have fixed : Card.rename r b.card = b.card := by
            have given (card : Card) (v : Value) : Card.rename r { card with defaults := v } =
                { card.rename r with defaults := v.rename r } := rfl
            rw [Builtin.card, given, Card.of_rename]
            split <;> simp [defaults]
          simp [card?, fixed]
      | _ => simp [card?, Header.card, Method.card]

theorem ownName?_rename (v : Value) : (v.rename r).ownName? frames' = v.ownName? frames := by
  have cards := congrArg (Option.map Card.nameText) (card?_rename renamed v)
  rw [Option.map_map] at cards
  have names : Option.map (Card.nameText ∘ Card.rename r) (v.card? frames) =
      Option.map Card.nameText (v.card? frames) := by
    simp [Function.comp_def]
  rw [names] at cards
  cases v <;> first | rfl | exact cards

end Value

end Knot
