import StreamTyping.Json.Reader
import StreamTyping.Proofs.Lexing

/-!
# A written value is read back

* `Json.toTree` is the tree of a value, and `Json.foldl_tokens` says that the
  tokens of a value build it. So the document of a written value is the tree of
  the value (`Document.parse_render`).
* `Json.json_toTree`: the value is read from its tree if there is room for it
  and its numbers are in range. `Json.eq_of_json_toTree`: nothing else is.
* `Tree.depth_le_of_json`: what is read is not deeper than there was room for.
-/

namespace StreamTyping

/-! ## What tokens do to a tree that is being built -/

namespace Builder

variable (frames : List Frame)

theorem put_array (value : Tree) (items : List Tree) :
    put value (.array items :: frames) =
      .growing (.array (value :: items) :: frames) .separator := rfl

theorem put_object (value : Tree) (name : Option String) (members : List (Option String × Tree)) :
    put value (.object members (some name) :: frames) =
      .growing (.object ((name, value) :: members) none :: frames) .separator := rfl

/-- A name and a colon, behind the opening bracket or behind a comma. -/
theorem foldl_name (name : Option String) (members : List (Option String × Tree))
    {expecting : Expecting} (h : expecting = .firstName ∨ expecting = .name) (rest : List Token) :
    (.text name :: .colon :: rest).foldl step
        (.growing (.object members none :: frames) expecting) =
      rest.foldl step (.growing (.object members (some name) :: frames) .value) := by
  rcases h with rfl | rfl <;> rfl

theorem step_closing_square (items : List Tree) :
    step (.growing (.array items :: frames) .separator) (.closing .square) =
      put (.array items.reverse true) frames := rfl

theorem step_closing_curly (members : List (Option String × Tree)) :
    step (.growing (.object members none :: frames) .separator) (.closing .curly) =
      put (.object members.reverse true) frames := rfl

theorem step_comma_array (items : List Tree) :
    step (.growing (.array items :: frames) .separator) .comma =
      .growing (.array items :: frames) .value := rfl

theorem step_comma_object (members : List (Option String × Tree)) :
    step (.growing (.object members none :: frames) .separator) .comma =
      .growing (.object members none :: frames) .name := rfl

end Builder

namespace Json

/-! ## The tree of a value -/

mutual

/-- The tree that the text of a value has. -/
def toTree : Json → Tree
  | null => .null
  | bool value => .bool value
  | number literal => .number literal
  | text content => .text (some content)
  | array items => .array (itemTrees items) true
  | object members => .object (memberTrees members) true

/-- The trees of the items of an array. -/
def itemTrees : List Json → List Tree
  | [] => []
  | item :: rest => item.toTree :: itemTrees rest

/-- The trees of the members of an object. -/
def memberTrees : List (String × Json) → List (Option String × Tree)
  | [] => []
  | (name, value) :: rest => (some name, value.toTree) :: memberTrees rest

end

mutual

/-- Where a value may come, the tokens of a value put its tree. -/
theorem foldl_tokens (frames : List Frame) (expecting : Expecting)
    (h : Builder.takesValue expecting = true) : (value : Json) →
    value.tokens.foldl Builder.step (.growing frames expecting) = Builder.put value.toTree frames
  | null | bool _ | number _ => if_pos h
  | text _ | array [] | object [] => by
    cases expecting with
    | value | firstItem => rfl
    | firstName | name | colon | separator => cases h
  | array (item :: rest) => by
    have hopening : Builder.step (.growing frames expecting) (.opening .square) =
        .growing (.array [] :: frames) .firstItem := if_pos h
    rw [tokens, List.foldl_cons, hopening, List.foldl_append, List.foldl_append,
      foldl_tokens (.array [] :: frames) .firstItem rfl item, Builder.put_array,
      foldl_moreItems frames [item.toTree] rest, List.foldl_cons, List.foldl_nil,
      Builder.step_closing_square, List.reverse_append, List.reverse_reverse]
    rfl
  | object ((name, value) :: rest) => by
    have hopening : Builder.step (.growing frames expecting) (.opening .curly) =
        .growing (.object [] none :: frames) .firstName := if_pos h
    rw [tokens, List.foldl_cons, hopening, Builder.foldl_name frames (some name) [] (.inl rfl),
      List.foldl_append, List.foldl_append,
      foldl_tokens (.object [] (some (some name)) :: frames) .value rfl value,
      Builder.put_object, foldl_moreMembers frames [(some name, value.toTree)] rest,
      List.foldl_cons, List.foldl_nil, Builder.step_closing_curly, List.reverse_append,
      List.reverse_reverse]
    rfl

/-- Items behind the first one are put in front of those before them. -/
theorem foldl_moreItems (frames : List Frame) (before : List Tree) : (items : List Json) →
    (moreItems items).foldl Builder.step (.growing (.array before :: frames) .separator) =
      .growing (.array ((itemTrees items).reverse ++ before) :: frames) .separator
  | [] => rfl
  | item :: rest => by
    rw [moreItems, List.foldl_cons, Builder.step_comma_array, List.foldl_append,
      foldl_tokens (.array before :: frames) .value rfl item, Builder.put_array,
      foldl_moreItems frames (item.toTree :: before) rest, itemTrees, List.reverse_cons,
      List.append_assoc, List.singleton_append]

/-- Members behind the first one are put in front of those before them. -/
theorem foldl_moreMembers (frames : List Frame) (before : List (Option String × Tree)) :
    (members : List (String × Json)) →
    (moreMembers members).foldl Builder.step (.growing (.object before none :: frames) .separator) =
      .growing (.object ((memberTrees members).reverse ++ before) none :: frames) .separator
  | [] => rfl
  | (name, value) :: rest => by
    rw [moreMembers, List.foldl_cons, Builder.step_comma_object,
      Builder.foldl_name frames (some name) before (.inr rfl), List.foldl_append,
      foldl_tokens (.object before (some (some name)) :: frames) .value rfl value,
      Builder.put_object,
      foldl_moreMembers frames ((some name, value.toTree) :: before) rest, memberTrees,
      List.reverse_cons, List.append_assoc, List.singleton_append]

end

end Json

/-- The document of a written value is the value, also if blanks follow it. -/
theorem Document.parse_render_append (layout : Layout) (value : Json) (blanks : String)
    (h : ∀ c ∈ blanks.toList, isBlank c = true) :
    Document.parse (value.render layout ++ blanks) = ⟨value.toTree, false⟩ := by
  rw [Document.parse, Json.render, String.toList_append, String.toList_ofList, Json.lex_chars _ _ h,
    Json.foldl_tokens [] .value rfl]
  rfl

theorem Document.parse_render (layout : Layout) (value : Json) :
    Document.parse (value.render layout) = ⟨value.toTree, false⟩ := by
  have happend := parse_render_append layout value "" (by simp)
  rwa [String.append_empty] at happend

/-! ## Reading any value -/

namespace Json

mutual

/-- All numbers of a value can be read. -/
def InRange : Json → Prop
  | null | bool _ | text _ => True
  | number literal => literal.toFloat?.isSome = true
  | array items => InRangeItems items
  | object members => InRangeMembers members

/-- All numbers of the items of an array can be read. -/
def InRangeItems : List Json → Prop
  | [] => True
  | item :: rest => item.InRange ∧ InRangeItems rest

/-- All numbers of the members of an object can be read. -/
def InRangeMembers : List (String × Json) → Prop
  | [] => True
  | (_, value) :: rest => value.InRange ∧ InRangeMembers rest

end

mutual

/-- A value is read from its tree, if there is room for it and its numbers are in range. -/
theorem json_toTree : (value : Json) → {room : Nat} → value.depth ≤ room → value.InRange →
    Tree.json room value.toTree = .ok value
  | null, _, _, _ | bool _, _, _, _ | text _, _, _, _ => by rw [toTree, Tree.json]
  | number _, _, _, hrange => by
    rw [toTree, Tree.json]
    exact if_pos hrange
  | array items, 0, hdepth, _ => absurd hdepth (Nat.not_succ_le_zero _)
  | array items, room + 1, hdepth, hrange => by
    rw [toTree, Tree.json, jsonItems_itemTrees items (Nat.le_of_succ_le_succ hdepth) hrange]
    rfl
  | object members, 0, hdepth, _ => absurd hdepth (Nat.not_succ_le_zero _)
  | object members, room + 1, hdepth, hrange => by
    rw [toTree, Tree.json, jsonMembers_memberTrees members (Nat.le_of_succ_le_succ hdepth) hrange]
    rfl

theorem jsonItems_itemTrees : (items : List Json) → {room : Nat} → depthItems items ≤ room →
    InRangeItems items → Tree.jsonItems room (itemTrees items) = .ok items
  | [], _, _, _ => rfl
  | item :: rest, _, hdepth, hrange => by
    rw [itemTrees, Tree.jsonItems,
      json_toTree item (Nat.le_trans (Nat.le_max_left _ _) hdepth) hrange.1,
      jsonItems_itemTrees rest (Nat.le_trans (Nat.le_max_right _ _) hdepth) hrange.2]
    rfl

theorem jsonMembers_memberTrees : (members : List (String × Json)) → {room : Nat} →
    depthMembers members ≤ room → InRangeMembers members →
    Tree.jsonMembers room (memberTrees members) = .ok members
  | [], _, _, _ => rfl
  | (name, value) :: rest, _, hdepth, hrange => by
    rw [memberTrees, Tree.jsonMembers,
      json_toTree value (Nat.le_trans (Nat.le_max_left _ _) hdepth) hrange.1,
      jsonMembers_memberTrees rest (Nat.le_trans (Nat.le_max_right _ _) hdepth) hrange.2]
    rfl

end

end Json

/-- Both steps of a reading that succeeds do. -/
theorem exists_of_bind_eq_ok {ε α β : Type} {x : Except ε α} {f : α → Except ε β} {b : β}
    (h : x >>= f = .ok b) : ∃ a, x = .ok a ∧ f a = .ok b := by
  cases x with
  | error _ => cases h
  | ok a => exact ⟨a, rfl, h⟩

theorem Reader.eq_of_close_eq_ok {α : Type} {closed : Bool} {a b : α}
    (h : Reader.close closed a = .ok b) : a = b := by
  cases closed with
  | false => cases h
  | true => exact Except.ok.inj h

namespace Json

mutual

/-- Nothing but the value is read from its tree. -/
theorem eq_of_json_toTree : (value : Json) → {room : Nat} → {read : Json} →
    Tree.json room value.toTree = .ok read → read = value
  | null, _, _, h | bool _, _, _, h | text _, _, _, h => by
    rw [toTree, Tree.json] at h
    cases h
    rfl
  | number _, _, _, h => by
    rw [toTree, Tree.json] at h
    split at h
    · cases h
      rfl
    · cases h
  | array _, 0, _, h | object _, 0, _, h => by
    rw [toTree, Tree.json] at h
    cases h
  | array items, room + 1, _, h => by
    rw [toTree, Tree.json] at h
    obtain ⟨values, hvalues, hclose⟩ := exists_of_bind_eq_ok h
    rw [← Reader.eq_of_close_eq_ok hclose, eq_of_jsonItems_itemTrees items hvalues]
  | object members, room + 1, _, h => by
    rw [toTree, Tree.json] at h
    obtain ⟨entries, hentries, hclose⟩ := exists_of_bind_eq_ok h
    rw [← Reader.eq_of_close_eq_ok hclose, eq_of_jsonMembers_memberTrees members hentries]

theorem eq_of_jsonItems_itemTrees : (items : List Json) → {room : Nat} → {read : List Json} →
    Tree.jsonItems room (itemTrees items) = .ok read → read = items
  | [], _, _, h => by
    cases h
    rfl
  | item :: rest, _, _, h => by
    rw [itemTrees, Tree.jsonItems] at h
    obtain ⟨value, hvalue, h⟩ := exists_of_bind_eq_ok h
    obtain ⟨values, hvalues, h⟩ := exists_of_bind_eq_ok h
    cases h
    rw [eq_of_json_toTree item hvalue, eq_of_jsonItems_itemTrees rest hvalues]

theorem eq_of_jsonMembers_memberTrees : (members : List (String × Json)) → {room : Nat} →
    {read : List (String × Json)} → Tree.jsonMembers room (memberTrees members) = .ok read →
    read = members
  | [], _, _, h => by
    cases h
    rfl
  | (name, value) :: rest, _, _, h => by
    rw [memberTrees, Tree.jsonMembers] at h
    obtain ⟨read, hread, h⟩ := exists_of_bind_eq_ok h
    obtain ⟨entries, hentries, h⟩ := exists_of_bind_eq_ok h
    cases h
    rw [eq_of_json_toTree value hread, eq_of_jsonMembers_memberTrees rest hentries]

end

end Json

namespace Tree

mutual

/-- What is read is not deeper than there was room for. -/
theorem depth_le_of_json : (tree : Tree) → {room : Nat} → {value : Json} →
    json room tree = .ok value → value.depth ≤ room
  | null, _, _, h | bool _, _, _, h | text (some _), _, _, h => by
    rw [json] at h
    cases h
    exact Nat.zero_le _
  | number _, _, _, h => by
    rw [json] at h
    split at h
    · cases h
      exact Nat.zero_le _
    · cases h
  | text none, _, _, h | broken, _, _, h => by
    rw [json] at h
    cases h
  | array _ _, 0, _, h | object _ _, 0, _, h => by
    rw [json] at h
    cases h
  | array items closed, room + 1, _, h => by
    rw [json] at h
    obtain ⟨values, hvalues, hclose⟩ := exists_of_bind_eq_ok h
    rw [← Reader.eq_of_close_eq_ok hclose, Json.depth]
    exact Nat.succ_le_succ (depthItems_le_of_jsonItems items hvalues)
  | object members closed, room + 1, _, h => by
    rw [json] at h
    obtain ⟨values, hvalues, hclose⟩ := exists_of_bind_eq_ok h
    rw [← Reader.eq_of_close_eq_ok hclose, Json.depth]
    exact Nat.succ_le_succ (depthMembers_le_of_jsonMembers members hvalues)

theorem depthItems_le_of_jsonItems : (items : List Tree) → {room : Nat} → {values : List Json} →
    jsonItems room items = .ok values → Json.depthItems values ≤ room
  | [], _, _, h => by
    cases h
    exact Nat.zero_le _
  | item :: rest, _, _, h => by
    rw [jsonItems] at h
    obtain ⟨value, hvalue, h⟩ := exists_of_bind_eq_ok h
    obtain ⟨values, hvalues, h⟩ := exists_of_bind_eq_ok h
    cases h
    exact Nat.max_le.2 ⟨depth_le_of_json item hvalue, depthItems_le_of_jsonItems rest hvalues⟩

theorem depthMembers_le_of_jsonMembers : (members : List (Option String × Tree)) → {room : Nat} →
    {entries : List (String × Json)} → jsonMembers room members = .ok entries →
    Json.depthMembers entries ≤ room
  | [], _, _, h => by
    cases h
    exact Nat.zero_le _
  | (none, _) :: _, _, _, h => by cases h
  | (some _, tree) :: rest, _, _, h => by
    rw [jsonMembers] at h
    obtain ⟨value, hvalue, h⟩ := exists_of_bind_eq_ok h
    obtain ⟨values, hvalues, h⟩ := exists_of_bind_eq_ok h
    cases h
    exact Nat.max_le.2 ⟨depth_le_of_json tree hvalue, depthMembers_le_of_jsonMembers rest hvalues⟩

end

end Tree

/-- A reader of a text that writes a value reads the tree of the value, also if blanks follow. -/
theorem Reader.read_render_append {α : Type} (reader : Reader α) (layout : Layout) (value : Json)
    (blanks : String) (h : ∀ c ∈ blanks.toList, isBlank c = true) :
    reader.read (value.render layout ++ blanks) = reader nestingLimit value.toTree := by
  rw [Reader.read, Document.parse_render_append _ _ _ h]
  cases reader nestingLimit value.toTree <;> rfl

theorem Reader.read_render {α : Type} (reader : Reader α) (layout : Layout) (value : Json) :
    reader.read (value.render layout) = reader nestingLimit value.toTree := by
  have happend := reader.read_render_append layout value "" (by simp)
  rwa [String.append_empty] at happend

/-- What is read from a text is read from the tree of its document. -/
theorem Reader.root_of_read_eq_ok {α : Type} {reader : Reader α} {text : String} {a : α}
    (h : reader.read text = .ok a) : reader nestingLimit (Document.parse text).root = .ok a := by
  obtain ⟨b, hread, hrest⟩ := exists_of_bind_eq_ok h
  rw [hread]
  split at hrest
  · cases hrest
  · exact hrest

/-- Values with the same text are the same. -/
theorem Json.eq_of_render_eq {layout : Layout} {value other : Json} (hvalue : value.InRange)
    (hother : other.InRange) (h : value.render layout = other.render layout) : value = other := by
  have htree : value.toTree = other.toTree := by
    have hdocument := Document.parse_render layout value
    rw [h, Document.parse_render] at hdocument
    exact (Document.mk.inj hdocument).1.symm
  have hread := value.json_toTree (Nat.le_max_left value.depth other.depth) hvalue
  rw [htree, other.json_toTree (Nat.le_max_right value.depth other.depth) hother] at hread
  exact (Except.ok.inj hread).symm

end StreamTyping
