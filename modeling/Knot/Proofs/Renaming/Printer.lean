import Knot.Printer
import Knot.Proofs.Renaming.Environment

/-!
The text of a renamed value. Addresses are not written, so no text tells one mark from another.
-/

namespace Knot.Value

@[simp]
theorem cellOf_rename (r : Renaming) (dtype : DType) (text : String) (v : Value) :
    Grid.cellOf dtype text (v.rename r) = Grid.cellOf dtype text v := by
  cases dtype <;> cases v <;> rfl

@[simp]
theorem enclosing_rename (r : Renaming) (v : Value) :
    (v.rename r).enclosing = (·.rename r) <$> v.enclosing := by
  have lacking := lacks_rename r v "π"
  cases v with
  | kind k => cases k <;> simp [enclosing, same]
  | method => exact congrArg Except.error lacking
  | tuple _ items => cases items <;> rfl
  | _ => rfl

@[simp]
theorem isInner_rename (r : Renaming) (env : Value) : isInner (env.rename r) = isInner env := by
  simp only [isInner, enclosing_rename, bind_map_left, truth_rename]

@[simp]
theorem hasKey_rename (r : Renaming) (key : String) (entries : List (Value × Value)) :
    hasKey key (entries.map r.entry) = hasKey key entries := by
  simp only [hasKey, List.any_map]
  congr 1
  funext e
  obtain ⟨k, v⟩ := e
  cases k <;> rfl

@[simp]
theorem requireEntry_rename (r : Renaming) (key : String) (entries : List (Value × Value)) :
    requireEntry key (entries.map r.entry) = requireEntry key entries := by
  simp only [requireEntry, hasKey_rename]

theorem discards_congr {x x' y y' : Except Fault Value} {f : Value → Value} {e : Fault}
    (first : x' = f <$> x) (second : y' = f <$> y) :
    (do discard x'; discard y'; throw e : Except Fault String) =
      (do discard x; discard y; throw e) := by
  subst first second
  cases x <;> cases y <;> rfl

variable {r : Renaming} {frames frames' : Nat → Frame}

theorem showAll_rename (vs : List Value)
    (members : ∀ v ∈ vs, showWith frames' (v.rename r) = showWith frames v) :
    showAll frames' (vs.map (·.rename r)) = showAll frames vs := by
  induction vs with
  | nil => simp only [List.map_nil, showAll]
  | cons v rest ih =>
      simp only [List.map_cons, showAll, members v (by simp),
        ih fun u member => members u (by simp [member])]

theorem showEntries_rename (entries : List (Value × Value))
    (keys : ∀ e ∈ entries, showWith frames' (e.1.rename r) = showWith frames e.1)
    (values : ∀ e ∈ entries, showWith frames' (e.2.rename r) = showWith frames e.2) :
    showEntries frames' (entries.map r.entry) = showEntries frames entries := by
  induction entries with
  | nil => simp only [List.map_nil, showEntries]
  | cons e rest ih =>
      have rest := ih (fun u member => keys u (by simp [member])) fun u member =>
        values u (by simp [member])
      obtain ⟨k, v⟩ := e
      have key : showWith frames' (k.rename r) = showWith frames k := keys (k, v) (by simp)
      have value : showWith frames' (v.rename r) = showWith frames v := values (k, v) (by simp)
      simp only [List.map_cons, Renaming.entry_mk, showEntries, key, value, rest]

theorem showEntry_rename (key : String) (entries : List (Value × Value))
    (values : ∀ e ∈ entries, showPlain frames' (e.2.rename r) = showPlain frames e.2) :
    showEntry frames' key (entries.map r.entry) = showEntry frames key entries := by
  induction entries with
  | nil => simp only [List.map_nil, showEntry]
  | cons e rest ih =>
      obtain ⟨k, v⟩ := e
      have value : showPlain frames' (v.rename r) = showPlain frames v := values (k, v) (by simp)
      have rest := ih fun u member => values u (by simp [member])
      cases k <;> simp [showEntry, rest, value]

theorem shown_rename (renamed : r.Frames frames frames') (v : Value) :
    showWith frames' (v.rename r) = showWith frames v ∧
      showPlain frames' (v.rename r) = showPlain frames v := by
  induction v using Value.induction_nested with
  | step v ih nested =>
      have text : showWith frames' (v.rename r) = showWith frames v := by
        have card := card?_rename renamed v
        rw [showWith.eq_def frames' (v.rename r), showWith.eq_def frames v]
        cases v with
        | list _ items | tuple _ items =>
            have texts := showAll_rename items fun u member => (ih u member).1
            simp only [Value.rename, renameAll_eq, texts]
        | array _ _ _ items =>
            have texts := showAll_rename items fun u member => (ih u member).1
            simp only [Value.rename, renameAll_eq, texts, List.zipWith_map_right, cellOf_rename]
        | dict _ entries =>
            have texts := showEntries_rename entries
              (fun e present => (ih e.1 (List.mem_append_left _ (List.mem_map_of_mem present))).1)
              (fun e present => (ih e.2 (List.mem_append_right _ (List.mem_map_of_mem present))).1)
            simp only [Value.rename, renameEntries_eq, texts]
        | method _ owner m =>
            have owned := (ih owner (by simp [children])).1
            simp only [Value.rename, kind?_rename, owned]
        | frame id => simp only [Value.rename, renamed id, Frame.rename_card, Card.pathText_rename]
        | environment id outer =>
            have enclosed := (ih outer (by simp [children])).1
            simp only [Value.rename, renamed id, Frame.rename_bindings, keys_map]
            cases outer with
            | none => rfl
            | _ =>
                exact congrArg (fun text : Except Fault String => do
                  let outer ← text
                  return "(" ++ fragmentText ++ ") " ++ namesText (frames id).bindings.keys ++ ">" ++
                    outer) enclosed
        | procedure mark code env =>
            have closed := (ih env (by simp [children])).1
            have bodies := lookup_rename renamed "body" code
            have params := lookup_rename renamed "parameters" code
            cases code with
            | dict m entries =>
                have shown (key : String) := showEntry_rename key entries fun e present =>
                  (nested (.dict m entries) (by simp [children]) e.2
                    (List.mem_append_right _ (List.mem_map_of_mem present))).2
                simp only [Value.rename, renameEntries_eq, requireEntry_rename, shown, isInner_rename,
                  closed]
            | _ =>
                exact discards_congr bodies params
        | var | application | tally | checkRun =>
            simp only [children, List.mem_cons, forall_eq_or_imp, List.not_mem_nil, false_imp_iff,
              implies_true, and_true] at ih
            simp only [Value.rename, ih, isInner_rename]
        | thunk _ generator =>
            have plain := (ih generator (by simp [children])).2
            simp only [Value.rename, ownName?_rename renamed, plain]
        | limited mark owner func =>
            have paths : (((Value.limited mark owner func).rename r).card? frames').map Card.pathText =
                ((Value.limited mark owner func).card? frames).map Card.pathText := by
              rw [card, Option.map_map]
              congr 1
              funext shown
              exact Card.pathText_rename r shown
            exact congrArg (fun path : Option String =>
              (Except.ok (functionText (path.getD "")) : Except Fault String)) paths
        | _ => rfl
      refine ⟨text, ?_⟩
      rw [showPlain.eq_def frames' (v.rename r), showPlain.eq_def frames v]
      cases v with
      | array _ dtype shape data =>
          have texts := showAll_rename data fun u member => (ih u member).1
          have grid : (do
                let texts ← showAll frames' (data.map (·.rename r))
                return Grid.plainText shape
                  (List.zipWith (Grid.cellOf dtype) texts (data.map (·.rename r)))) = (do
                let texts ← showAll frames data
                return Grid.plainText shape (List.zipWith (Grid.cellOf dtype) texts data)) := by
            simp only [texts, List.zipWith_map_right, cellOf_rename]
          simp only [Value.rename, renameAll_eq]
          rcases shape with _ | ⟨n, shape⟩
          · rcases data with _ | ⟨u, _ | ⟨u', data⟩⟩
            · exact grid
            · exact (ih u (by simp [children])).2
            · exact grid
          · exact grid
      | str => rfl
      | _ => exact text

theorem showWith_rename (renamed : r.Frames frames frames') (v : Value) :
    showWith frames' (v.rename r) = showWith frames v :=
  (shown_rename renamed v).1

theorem showPlain_rename (renamed : r.Frames frames frames') (v : Value) :
    showPlain frames' (v.rename r) = showPlain frames v :=
  (shown_rename renamed v).2

/-! Pages. -/

theorem docAll_rename (vs : List Value)
    (members : ∀ v ∈ vs, docWith frames' (v.rename r) = docWith frames v) :
    docAll frames' (vs.map (·.rename r)) = docAll frames vs := by
  induction vs with
  | nil => simp only [List.map_nil, docAll]
  | cons v rest ih =>
      simp only [List.map_cons, docAll, members v (by simp),
        ih fun u member => members u (by simp [member])]

theorem docEntries_rename (entries : List (Value × Value))
    (keys : ∀ e ∈ entries, docWith frames' (e.1.rename r) = docWith frames e.1)
    (values : ∀ e ∈ entries, docWith frames' (e.2.rename r) = docWith frames e.2) :
    docEntries frames' (entries.map r.entry) =
      List.map (Prod.map (·.rename r) id) <$> docEntries frames entries := by
  induction entries with
  | nil => simp only [List.map_nil, docEntries]; rfl
  | cons e rest ih =>
      have rest := ih (fun u member => keys u (by simp [member])) fun u member =>
        values u (by simp [member])
      obtain ⟨k, v⟩ := e
      have key : docWith frames' (k.rename r) = docWith frames k := keys (k, v) (by simp)
      have value : docWith frames' (v.rename r) = docWith frames v := values (k, v) (by simp)
      simp only [List.map_cons, Renaming.entry_mk, docEntries, key, value, rest, map_bind, map_pure,
        bind_map_left, Prod.map_apply, id_eq]

theorem docWith_rename (renamed : r.Frames frames frames') (v : Value) :
    docWith frames' (v.rename r) = docWith frames v := by
  induction v using Value.induction_children with
  | step v ih =>
      have text := showWith_rename renamed v
      rw [docWith.eq_def frames' (v.rename r), docWith.eq_def frames v]
      cases v with
      | str => rfl
      | list _ items | tuple _ items =>
          have docs := docAll_rename items ih
          simp only [Value.rename, renameAll_eq, docs]
      | dict _ entries =>
          have docs := docEntries_rename entries
            (fun e present => ih e.1 (List.mem_append_left _ (List.mem_map_of_mem present)))
            (fun e present => ih e.2 (List.mem_append_right _ (List.mem_map_of_mem present)))
          have sorted (docs : List (Value × Doc × Doc)) :
              Sorted.sort (fun a b => keyBefore a.1 b.1) (docs.map (Prod.map (·.rename r) id)) =
                (Sorted.sort (fun a b => keyBefore a.1 b.1) docs).map (Prod.map (·.rename r) id) :=
            Sorted.sort_map (fun x y => keyBefore_rename r x.1 y.1) docs
          simp only [Value.rename, renameEntries_eq, docs, bind_map_left, sorted, List.map_map,
            Function.comp_def, Prod.map_snd, id_eq]
      | var | tally | checkRun =>
          simp only [children, List.mem_cons, forall_eq_or_imp, List.not_mem_nil, false_imp_iff,
            implies_true, and_true] at ih
          simp only [Value.rename] at text ⊢
          simp only [text, ih]
      | _ => exact congrArg (Doc.atom <$> ·) text

end Knot.Value
