/-
Every layout of a parameter list is read.

`Layout` says which texts a parameter list may be written as, without saying how they are read: its parameters and
block-locals in any spelling, with white space wherever the notation allows it. Between the bars of a block, the comma
after a lone name or pattern tells that it is a parameter of a list, and without the comma it is the sole parameter. So a
layout settles its list, and whoever knows that the list is one that can be read at all knows what its text is read as:
`read_layout` says so, and that there is such a text for every list of this form.

With what is known of reading (`returned_of_read`), these lists are exactly the ones that are read from some text
(`returned_iff`).
-/
import RubySignature.Proofs.Sexp.Parsing
import RubySignature.Proofs.Signature.Rereading

namespace RubySignature.Signature

/-! ## Layouts -/

/-- The parts of a written list are spelt, with nothing but white space around them. -/
structure ListText.LaidOut (written : ListText) : Prop where
  spaced : ∀ part ∈ written.parts, part.Spaced
  spelt : ∀ part ∈ written.parts, ItemText part.value part.text
  blanks : Blanks written.gap
  names_spaced : ∀ name ∈ written.names, name.Spaced
  names_spelt : ∀ name ∈ written.names, name.text = name.value.toList ∧ IsName name.value

/-- a parameter list and a text that it may be written as inside the given construct -/
inductive Layout (enclosing : Enclosing) : Node → List Char → Prop where
  /-- A last comma may follow in a block, if all the parameters must be given. It has to follow a lone one of these. -/
  | list {written : ListText} (h : written.LaidOut)
      (hcomma : written.comma = true →
        enclosing = .block ∧ written.parts ≠ [] ∧ ∀ part ∈ written.parts, IsRequired part.value.kind)
      (hlone : enclosing = .block → ∀ part, written.parts = [part] → IsRequired part.value.kind → written.comma = true) :
      Layout enclosing
        (.ofNodes .args ((values written.parts).map Item.toNode ++ (values written.names).map shadowNode)) written.chars
  /-- A lone name or pattern without the comma is the sole parameter of a block. -/
  | sole {written : ListText} {part : Spelt Item} (h : written.LaidOut) (hblock : enclosing = .block)
      (hpart : written.parts = [part]) (hrequired : IsRequired part.value.kind) (hcomma : written.comma = false) :
      Layout enclosing (.ofNodes .args (part.value.toSole :: (values written.names).map shadowNode)) written.chars

/-- an integer has any decimal spelling -/
theorem defaultText_of_integerText {s : List Char} {value : Int64} (h : Sexp.IntegerText s value.toInt) :
    DefaultText ⟨.int, [.int value]⟩ s := by
  have hvalue := Sexp.wordOfDecimal_iff.2 h
  generalize value.toInt = i at h
  obtain ⟨negative, hdigits⟩ := h
  exact .int negative hdigits.1 hdigits.2 hvalue

/-! ## Kinds of spelt parameters -/

/-- a parameter is neither a block-local nor the sole parameter of a block -/
theorem ItemText.kind_ne {item : Item} {text : List Char} (h : ItemText item text) :
    item.toNode.kind ≠ .shadowarg ∧ item.toNode.kind ≠ .procarg0 := by
  cases h with
  | group => exact ⟨Kind.noConfusion, Kind.noConfusion⟩
  | flat h => cases h <;> exact ⟨Kind.noConfusion, Kind.noConfusion⟩

theorem Slot.run?_leading {kinds : List Kind} (h : ∀ kind ∈ kinds, IsRequired kind) :
    Slot.leading.run? kinds = some .leading := by
  obtain ⟨last, hlast, hrank⟩ : Slot.leading.Passes kinds 0 := Slot.passes_required h (Or.inl rfl) (Nat.le_refl _)
  cases last with
  | leading => exact hlast
  | _ => exact absurd hrank (by decide)

theorem kinds_toNode (items : List Item) : (items.map Item.toNode).map Node.kind = items.map Item.kind := by
  rw [List.map_map]
  exact List.map_congr_left fun item _ => kind_toNode item

namespace ListText

variable {written : ListText} {enclosing : Enclosing}

/-- parameters in signature order that are laid out make a valid list -/
theorem LaidOut.valid_list (h : written.LaidOut)
    (horder : InOrder enclosing (((values written.parts).map Item.toNode).map Node.kind))
    (hcomma : written.comma = true →
      enclosing = .block ∧ written.parts ≠ [] ∧ ∀ part ∈ written.parts, IsRequired part.value.kind) :
    written.Valid enclosing where
  spaced := h.spaced
  spelt := h.spelt
  ordered := kinds_toNode (values written.parts) ▸ horder.run?_ne_none
  forwarding := by
    rcases horder.forwarding_allowed with hother | hnone
    · exact Or.inl hother
    · rw [kinds_toNode, values, List.map_map, List.forall_mem_map] at hnone
      exact Or.inr hnone
  blanks := h.blanks
  extra htrue := by
    obtain ⟨hblock, hne, hrequired⟩ := hcomma htrue
    refine ⟨hblock, hne, Slot.run?_leading ?_⟩
    rw [values, List.map_map, List.forall_mem_map]
    exact hrequired
  names_spaced := h.names_spaced
  names_spelt := h.names_spelt

theorem LaidOut.valid_sole {part : Spelt Item} (h : written.LaidOut) (hpart : written.parts = [part])
    (hrequired : IsRequired part.value.kind) (hcomma : written.comma = false) : written.Valid .block where
  spaced := h.spaced
  spelt := h.spelt
  ordered := by
    rw [hpart]
    exact run?_required hrequired ▸ Option.some_ne_none _
  forwarding := by
    rw [hpart, List.forall_mem_singleton]
    rcases hrequired with hkind | hkind <;> rw [hkind] <;> exact Or.inr Kind.noConfusion
  blanks := h.blanks
  extra htrue := absurd (hcomma.symm.trans htrue) Bool.false_ne_true
  names_spaced := h.names_spaced
  names_spelt := h.names_spelt

end ListText

/-! ## Reading layouts -/

theorem read_chars {written : ListText} {enclosing : Enclosing} {text : String} (h : written.Valid enclosing)
    (htext : text.toList = written.chars) : read text enclosing = .ok (written.toNode enclosing) := by
  rw [read, htext, ListText.readList_chars h]
  rfl

/-- the parameters of a list in a layout are in order if the list is one that can be read -/
theorem inOrder_of_returned {enclosing : Enclosing} {nodes : List Node} {shadows : List String}
    (hnodes : ∀ node ∈ nodes, node.kind ≠ .shadowarg ∧ node.kind ≠ .procarg0)
    (h : Returned enclosing (.ofNodes .args (nodes ++ shadows.map shadowNode))) :
    InOrder enclosing (nodes.map Node.kind) := by
  generalize hlist : Node.ofNodes .args (nodes ++ shadows.map shadowNode) = list at h
  have hshadowless : ∀ node ∈ nodes, node.kind ≠ .shadowarg := fun node hnode => (hnodes node hnode).1
  cases h with
  | list hnormals horder =>
    obtain ⟨rfl, -⟩ := append_shadows_inj hshadowless
      (fun node hnode => (hnormals node hnode).kind_ne_shadowarg) (ofNodes_inj hlist)
    exact horder
  | @sole parts =>
    obtain ⟨rfl, -⟩ := eq_loneList (show Kind.procarg0 ≠ .shadowarg from Kind.noConfusion) hshadowless hlist
    exact absurd rfl (hnodes _ List.mem_cons_self).2

theorem read_of_layout {enclosing : Enclosing} {list : Node} {text : String} (hreturned : Returned enclosing list)
    (h : Layout enclosing list text.toList) : read text enclosing = .ok list := by
  generalize hchars : text.toList = chars at h
  cases h with
  | @list written h hcomma hlone =>
    have hkinds : ∀ node ∈ (values written.parts).map Item.toNode, node.kind ≠ .shadowarg ∧ node.kind ≠ .procarg0 := by
      rw [values, List.map_map, List.forall_mem_map]
      exact fun part hpart => (h.spelt part hpart).kind_ne
    have hvalid := h.valid_list (inOrder_of_returned hkinds hreturned) hcomma
    -- a lone name or pattern in a block has the comma, so nothing becomes a sole parameter
    have hnodes : Normals.nodes ⟨values written.parts, .leading, written.comma, []⟩ enclosing =
        (values written.parts).map Item.toNode := by
      apply nodes_eq_map
      intro hblock hnone item hitem
      obtain ⟨part, hpart, rfl⟩ := List.map_eq_singleton_iff.1 hitem
      have hother : ¬ IsRequired part.value.kind := by
        intro hrequired
        exact absurd (hnone.symm.trans (hlone hblock part hpart hrequired)) Bool.false_ne_true
      rw [IsRequired, not_or, ← kind_toNode] at hother
      exact toSole_eq_toNode hother.1 hother.2
    rw [read_chars hvalid hchars, ListText.toNode, hnodes]
  | @sole written part h hblock hpart hrequired hcomma =>
    subst hblock
    have hnodes : Normals.nodes ⟨values written.parts, .leading, written.comma, []⟩ .block = [part.value.toSole] := by
      rw [hpart, hcomma]
      rfl
    rw [read_chars (h.valid_sole hpart hrequired hcomma) hchars, ListText.toNode, hnodes]
    rfl

/-! ## Every list has a layout -/

/-- every text can stand in a string, if quotes and backslashes are escaped -/
theorem exists_stringText (text : List Char) : ∃ written, StringText text written := by
  induction text with
  | nil => exact ⟨[], .done⟩
  | cons c text ih =>
    obtain ⟨written, hwritten⟩ := ih
    by_cases hquote : c = '"'
    · subst hquote
      exact ⟨'\\' :: '"' :: written, .escaped '"' hwritten⟩
    · by_cases hback : c = '\\'
      · subst hback
        exact ⟨'\\' :: '\\' :: written, .escaped '\\' hwritten⟩
      · exact ⟨c :: written, .plain hquote hback hwritten⟩

theorem ReadDefault.exists_text {default : Node} (h : ReadDefault default) : ∃ text, DefaultText default text := by
  cases h with
  | int value => exact ⟨_, defaultText_intChars value⟩
  | str text =>
    obtain ⟨written, hwritten⟩ := exists_stringText text.toList
    exact ⟨_, .str hwritten⟩
  | sym h => exact ⟨_, .sym h⟩
  | word h =>
    have hword : IsDefault (.leaf _) := .word h
    obtain ⟨text, _, htext⟩ := hword.written 0
    exact ⟨_, htext⟩
  | call h hdigit hword =>
    have hcall : IsDefault _ := .call h hdigit hword
    obtain ⟨text, _, htext⟩ := hcall.written 0
    exact ⟨_, htext⟩

theorem ReadParam.exists_text {node : Node} (h : ReadParam node) :
    ∃ item text, ItemText item text ∧ item.toNode = node := by
  cases h with
  | plain h =>
    obtain ⟨item, text, hwritten⟩ := h.written (Nat.le_refl node.height)
    exact ⟨item, text.toList, hwritten.spelt, hwritten.stands⟩
  | defaulted hkind h hdefault =>
    obtain ⟨text, htext⟩ := hdefault.exists_text
    rcases hkind with rfl | rfl
    · exact ⟨_, _, .flat (.optional h blanks_nil blanks_nil htext), rfl⟩
    · exact ⟨_, _, .flat (.keywordDefault h blanks_nil htext), rfl⟩

/-- a part with no white space around it -/
def Spelt.bare {α : Type} (value : α) (text : List Char) : Spelt α := ⟨value, [], text, []⟩

theorem Spelt.spaced_bare {α : Type} (value : α) (text : List Char) : (Spelt.bare value text).Spaced :=
  ⟨blanks_nil, blanks_nil⟩

theorem exists_parts {nodes : List Node} (h : ∀ node ∈ nodes, ReadParam node) :
    ∃ parts : List (Spelt Item), (∀ part ∈ parts, part.Spaced) ∧ (∀ part ∈ parts, ItemText part.value part.text) ∧
      (values parts).map Item.toNode = nodes := by
  induction nodes with
  | nil => exact ⟨[], List.forall_mem_nil _, List.forall_mem_nil _, rfl⟩
  | cons node later ih =>
    rw [List.forall_mem_cons] at h
    obtain ⟨item, text, htext, rfl⟩ := h.1.exists_text
    obtain ⟨parts, hspaced, hspelt, rfl⟩ := ih h.2
    exact ⟨.bare item text :: parts, List.forall_mem_cons.2 ⟨Spelt.spaced_bare item text, hspaced⟩,
      List.forall_mem_cons.2 ⟨htext, hspelt⟩, rfl⟩

/-- a pattern in parentheses -/
theorem exists_group {nodes : List Node} (hnodes : ∀ node ∈ nodes, IsParam node)
    (hpattern : IsPattern (nodes.map Node.kind)) :
    ∃ part : Spelt Item, part.Spaced ∧ ItemText part.value part.text ∧ part.value = .group nodes := by
  obtain ⟨parts, hspaced, hspelt, rfl⟩ := exists_parts fun node hnode => .plain (hnodes node hnode)
  rw [kinds_toNode] at hpattern
  exact ⟨.bare _ _, Spelt.spaced_bare _ _, .group hspaced hspelt hpattern, rfl⟩

def bareNames (names : List String) : List (Spelt String) := names.map fun name => .bare name name.toList

theorem values_bareNames (names : List String) : values (bareNames names) = names := by
  rw [values, bareNames, List.map_map]
  exact List.map_id _

theorem laidOut_bareNames {parts : List (Spelt Item)} {names : List String} (hspaced : ∀ part ∈ parts, part.Spaced)
    (hspelt : ∀ part ∈ parts, ItemText part.value part.text) (hnames : ∀ name ∈ names, IsName name) (comma : Bool) :
    ListText.LaidOut ⟨parts, comma, [], bareNames names⟩ where
  spaced := hspaced
  spelt := hspelt
  blanks := blanks_nil
  names_spaced := by
    rw [bareNames, List.forall_mem_map]
    exact fun name _ => Spelt.spaced_bare name name.toList
  names_spelt := by
    rw [bareNames, List.forall_mem_map]
    exact fun name hname => ⟨rfl, hnames name hname⟩

theorem exists_layout {enclosing : Enclosing} {list : Node} (h : Returned enclosing list) :
    ∃ text : String, Layout enclosing list text.toList := by
  suffices hchars : ∃ chars, Layout enclosing list chars by
    obtain ⟨chars, hlayout⟩ := hchars
    exact ⟨String.ofList chars, by rwa [String.toList_ofList]⟩
  cases h with
  | @list normals shadows hnormals horder hshadows =>
    obtain ⟨parts, hspaced, hspelt, rfl⟩ := exists_parts hnormals
    rw [← values_bareNames shadows]
    by_cases hlone : enclosing = .block ∧ ∃ part, parts = [part] ∧ IsRequired part.value.kind
    · have hlaidOut := laidOut_bareNames hspaced hspelt hshadows true
      refine ⟨_, .list hlaidOut (fun _ => ?_) fun _ _ _ _ => rfl⟩
      obtain ⟨hblock, part, rfl, hrequired⟩ := hlone
      exact ⟨hblock, List.cons_ne_nil _ _, List.forall_mem_singleton.2 hrequired⟩
    · have hlaidOut := laidOut_bareNames hspaced hspelt hshadows false
      refine ⟨_, .list hlaidOut (fun htrue => absurd htrue Bool.false_ne_true) ?_⟩
      intro hblock part hpart hrequired
      exact absurd ⟨hblock, part, hpart, hrequired⟩ hlone
  | @sole nodes shadows hblock hparts hpattern hshadows =>
    obtain ⟨part, hspaced, hspelt, hvalue⟩ := exists_group hparts hpattern
    have hlaidOut := laidOut_bareNames (List.forall_mem_singleton.2 hspaced) (List.forall_mem_singleton.2 hspelt)
      hshadows false
    have hsole : part.value.toSole = .ofNodes .procarg0 nodes := by
      rw [hvalue]
      rfl
    rw [← values_bareNames shadows, ← hsole]
    exact ⟨_, .sole hlaidOut hblock rfl (hvalue ▸ Or.inr rfl) rfl⟩

/-! ## Main result -/

/-- **The lists that are read are the ones of this form.** -/
theorem returned_iff {enclosing : Enclosing} {list : Node} :
    Returned enclosing list ↔ ∃ text, read text enclosing = .ok list := by
  constructor
  · intro h
    obtain ⟨text, hlayout⟩ := exists_layout h
    exact ⟨text, read_of_layout h hlayout⟩
  · rintro ⟨text, h⟩
    exact returned_of_read h

/-- **Every layout is read.** A parameter list of the form that reading gives can be written inside its construct, and
whatever layout it is written in, reading the text there gives the list. -/
theorem read_layout {enclosing : Enclosing} {list : Node} (h : Returned enclosing list) :
    (∃ text : String, Layout enclosing list text.toList) ∧
      ∀ text : String, Layout enclosing list text.toList → read text enclosing = .ok list :=
  ⟨exists_layout h, fun _ hlayout => read_of_layout h hlayout⟩

/-- the parts of a pattern that is written `( b ,*)` -/
def airyPattern : List (Spelt Item) :=
  [⟨.bare "b", [' '], ['b'], [' ']⟩, ⟨.node (starNode .restarg none), [], ['*'], []⟩]

/-- a pattern, an optional parameter and a block-local, with much white space and some zeros too many -/
def airyList : ListText where
  parts := [⟨.group ((values airyPattern).map Item.toNode), ['\u00a0'], '(' :: joined airyPattern ++ [')'], [' ']⟩,
    ⟨.node ⟨.optarg, [.symbol "c", .ofNode ⟨.int, [.int (-7)]⟩]⟩, ['\n'], ['c', '=', ' ', '-', '0', '0', '7'], []⟩]
  comma := false
  gap := []
  names := [⟨"d", ['\t'], ['d'], [' ']⟩]

theorem isPattern_airyPattern : IsPattern ((values airyPattern).map Item.kind) := by
  have hkinds : (values airyPattern).map Item.kind = [.arg, .restarg] := rfl
  rw [hkinds]
  exact ⟨by decide, by decide, by decide⟩

theorem laidOut_airyList : airyList.LaidOut := by
  have hblank (c : Char) (h : Unicode.isBlank c = true) : Blanks [c] := List.forall_mem_singleton.2 h
  have hparts : ∀ part ∈ airyPattern, part.Spaced ∧ ItemText part.value part.text := by
    unfold airyPattern
    rw [List.forall_mem_cons, List.forall_mem_singleton]
    exact ⟨⟨⟨blanks_space, blanks_space⟩, .flat (.bare (by decide))⟩, ⟨blanks_nil, blanks_nil⟩, .flat (.splat (by decide))⟩
  have hpattern : ItemText (.group ((values airyPattern).map Item.toNode)) ('(' :: joined airyPattern ++ [')']) :=
    .group (fun part hpart => (hparts part hpart).1) (fun part hpart => (hparts part hpart).2) isPattern_airyPattern
  have hdigits : Sexp.Digits ['0', '0', '7'] := ⟨by decide, List.all_eq_true.1 rfl⟩
  have hvalue : (-7 : Int64).toInt = -(digitsValue ['0', '0', '7'] : Int) := by decide
  have hseven : Sexp.IntegerText ['-', '0', '0', '7'] (-7 : Int64).toInt := by
    rw [hvalue]
    exact .intro true hdigits
  have hname : IsName "c" := by decide
  have hoptional := FlatText.optional hname blanks_nil blanks_space (defaultText_of_integerText hseven)
  refine ⟨?_, ?_, blanks_nil, ?_, ?_⟩
  · exact List.forall_mem_cons.2 ⟨⟨hblank _ rfl, blanks_space⟩, List.forall_mem_singleton.2 ⟨hblank _ rfl, blanks_nil⟩⟩
  · exact List.forall_mem_cons.2 ⟨hpattern, List.forall_mem_singleton.2 (.flat hoptional)⟩
  · exact List.forall_mem_singleton.2 ⟨hblank _ rfl, blanks_space⟩
  · exact List.forall_mem_singleton.2 ⟨rfl, by decide⟩

/-- A list with much white space in it is read between the bars of a block. -/
theorem read_layout_airy :
    ∃ list, Returned .block list ∧ read "\u00a0( b ,*) ,\nc= -007;\td " .block = .ok list := by
  have hpattern : IsParam (.ofNodes .mlhs ((values airyPattern).map Item.toNode)) := by
    refine .mlhs ?_ (kinds_toNode (values airyPattern) ▸ isPattern_airyPattern)
    exact List.forall_mem_cons.2 ⟨.arg (by decide), List.forall_mem_singleton.2 (.restarg (by decide))⟩
  have hnormals : ∀ node ∈ (values airyList.parts).map Item.toNode, ReadParam node :=
    List.forall_mem_cons.2 ⟨.plain hpattern,
      List.forall_mem_singleton.2 (.defaulted (Or.inl rfl) (by decide) (.int (-7)))⟩
  have horder : InOrder .block ([Kind.mlhs] ++ ([Kind.optarg] ++ ([] ++ ([] ++ (([] ++ []) ++ []))))) :=
    .sections (by decide) (by decide) (Or.inl rfl) (by decide) (.accepted (by decide) (Or.inl rfl)) (Or.inl rfl)
  have hreturned : Returned .block (.ofNodes .args
      ((values airyList.parts).map Item.toNode ++ (values airyList.names).map shadowNode)) :=
    .list hnormals horder (List.forall_mem_singleton.2 (by decide))
  have hlayout : Layout .block _ airyList.chars :=
    .list laidOut_airyList (fun htrue => absurd htrue (by decide)) fun _ _ hlone => absurd hlone (by simp [airyList])
  have htext : "\u00a0( b ,*) ,\nc= -007;\td ".toList = airyList.chars := by decide
  exact ⟨_, hreturned, (read_layout hreturned).2 _ (htext ▸ hlayout)⟩

end RubySignature.Signature
