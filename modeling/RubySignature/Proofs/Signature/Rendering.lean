/-
What canonical parameters are written as.

Every canonical parameter is written as a text that spells it (`IsParam.written`), so what is known of reading spelt texts
applies to it. The induction is on the parameter, and its invariant is `Written`: the node is rendered, the text spells an
item, and the item stands for the node.
-/
import RubySignature.Proofs.Param.Decoding
import RubySignature.Proofs.Render.Quoting
import RubySignature.Proofs.Signature.Canonical
import RubySignature.Proofs.Signature.Spelling

namespace RubySignature.Signature

open RenderM Unicode

/-! ## Default values -/

/-- what a character of a string is read back as: the marks of carriage returns and escapes are taken for letters -/
def comesBack : Char → Char
  | '\r' => 'r'
  | '\x1b' => 'e'
  | c => c

theorem comesBack_eq_self_iff {c : Char} : comesBack c = c ↔ c ≠ '\r' ∧ c ≠ '\x1b' := by
  unfold comesBack
  split
  · decide
  · decide
  · rename_i hreturn hescape
    exact iff_of_true rfl ⟨hreturn, hescape⟩

/-- the reader of parameters takes every escape for the character that Ruby takes it for, but for these two -/
theorem unescape_eq_comesBack {d : Char} (h : d ∉ Literal.controls) :
    unescape d = comesBack (Literal.Piece.escaped d).value := by
  unfold Literal.Piece.value
  split
  · rename_i heq
    obtain rfl := Literal.Piece.escaped.inj heq
    rfl
  · rename_i heq
    obtain rfl := Literal.Piece.escaped.inj heq
    rfl
  · rename_i heq
    obtain rfl := Literal.Piece.escaped.inj heq
    rfl
  · rename_i heq
    obtain rfl := Literal.Piece.escaped.inj heq
    rfl
  · rename_i hline htab _ _ heq
    obtain rfl := Literal.Piece.escaped.inj heq
    simp only [Literal.controls, List.mem_cons, not_or] at h
    rw [comesBack_eq_self_iff.2 ⟨h.2.2.1, h.2.2.2.1⟩, unescape]
    · exact hline
    · exact htab
  · rename_i heq
    cases heq

/-- one more character spells what comes back of it -/
theorem stringText_cons {next? : Option Char} {c : Char} {text written later : List Char} {piece : Literal.Piece}
    (hc : Literal.WrittenAs next? c written piece) (h : StringText text later) :
    StringText (comesBack c :: text) (written ++ later) := by
  cases hc with
  | raw hplain =>
    simp only [Literal.controls, List.mem_cons, not_or] at hplain
    obtain ⟨hquote, hback, -, -, hreturn, hescape, -⟩ := hplain
    rw [comesBack_eq_self_iff.2 ⟨hreturn, hescape⟩]
    exact .plain hquote hback h
  | escaped hvisible hvalue =>
    rw [← hvalue, ← unescape_eq_comesBack hvisible]
    exact .escaped _ h

/-- What is written between the quotes spells what comes back of the text. -/
theorem stringText_comesBack (text : List Char) : StringText (text.map comesBack) (Literal.body text) := by
  induction text with
  | nil => exact .done
  | cons c text ih =>
    obtain ⟨piece, hpiece⟩ := Literal.writtenAs_escape text.head? c
    exact stringText_cons hpiece ih

theorem stringText_body {text : List Char} (h : ∀ c ∈ text, c ≠ '\r' ∧ c ≠ '\x1b') :
    StringText text (Literal.body text) := by
  have hsame : text.map comesBack = text := by
    rw [List.map_congr_left fun c hc => comesBack_eq_self_iff.2 (h c hc), List.map_id']
  have htext := stringText_comesBack text
  rwa [hsame] at htext

theorem isName_of_isIdentifier {name : String} (h : Symbol.isIdentifier name.toList = true) : IsName name :=
  Symbol.isNameChar_of_isIdentifier h

/-- an identifier is written as a bare symbol -/
theorem symChars_of_isIdentifier {name : List Char} (h : Symbol.isIdentifier name = true) :
    Literal.symChars name = ':' :: name :=
  Literal.symChars_of_isPlain (Symbol.isPlainChars_of_isIdentifier h)

theorem defaultText_intChars (value : Int64) : DefaultText ⟨.int, [.int value]⟩ (intChars value.toInt) := by
  have hvalue := wordOfDecimal_intChars value
  have hdigits : ∀ c ∈ natChars value.toInt.natAbs, c.isDigit = true := fun _ => isDigit_of_mem_natChars
  unfold intChars at hvalue ⊢
  by_cases hi : value.toInt < 0
  · rw [if_pos hi] at hvalue ⊢
    exact .int true (natChars_ne_nil _) hdigits hvalue
  · rw [if_neg hi] at hvalue ⊢
    exact .int false (natChars_ne_nil _) hdigits hvalue

theorem defaultText_word {name : String} (h : IsName name) (hdigit : Stops Char.isDigit name.toList) {node : Node}
    (hnode : wordNode name = node) : DefaultText node name.toList := by
  subst hnode
  exact .word h hdigit

/-- A default value is written as a text that spells it. -/
theorem IsDefault.written {default : Node} (h : IsDefault default) (levels : Nat) :
    ∃ text, Renders (levels + 1) default text ∧ DefaultText default text.toList := by
  cases h with
  | int value =>
    refine ⟨_, renders_of_writes (writes_host rfl (Writes.write (String.ofList (intChars value.toInt)))), ?_⟩
    rw [String.toList_ofList]
    exact defaultText_intChars value
  | @str text h =>
    refine ⟨_, Literal.renders_str levels text, ?_⟩
    unfold Literal.str Literal.strChars
    rw [String.toList_ofList]
    exact .str (stringText_body h)
  | @sym name h =>
    refine ⟨_, Literal.renders_sym levels name, ?_⟩
    unfold Literal.sym
    rw [String.toList_ofList, symChars_of_isIdentifier h]
    exact .sym (isName_of_isIdentifier h)
  | @word kind h =>
    have hwrites : ∀ enclosing, Writes (Emitter.descend Host.basic levels)
        (renderNode Host.basic (.leaf kind) enclosing) kind.name := by
      simp only [List.mem_cons, List.not_mem_nil, or_false] at h
      rcases h with rfl | rfl | rfl | rfl <;> exact writes_host rfl (Writes.write _)
    refine ⟨kind.name, renders_of_writes hwrites, ?_⟩
    simp only [List.mem_cons, List.not_mem_nil, or_false] at h
    rcases h with rfl | rfl | rfl | rfl <;> exact defaultText_word (by decide) (by decide) rfl
  | @call name h hdigit hword =>
    have hwrites (visitor : Visitor) : Writes visitor (Host.renderSend ⟨.send, [.nil, .symbol name]⟩) name := by
      have hsend : Writes visitor (Host.renderSend ⟨.send, [.nil, .symbol name]⟩) ("" ++ (name ++ "")) := by
        rw [renderSend_eq]
        exact Writes.ofShape rfl <| Writes.ofShape rfl <| Writes.ofShape rfl <| Writes.ofShape rfl <|
          Writes.seq Writes.pure <| Writes.seq (Writes.write name) Writes.pure
      rwa [String.append_empty, String.empty_append] at hsend
    refine ⟨name, renders_of_writes (writes_host rfl (hwrites _)), defaultText_word h hdigit ?_⟩
    simp only [List.mem_cons, List.not_mem_nil, or_false, not_or] at hword
    obtain ⟨hnil, htrue, hfalse, hself⟩ := hword
    rw [wordNode, if_neg hnil, if_neg htrue, if_neg hfalse, if_neg hself]

/-! ## Parameters -/

/-- The node is rendered as a text that spells the item, and the item stands for the node. -/
structure Written (levels : Nat) (node : Node) (item : Item) (text : String) : Prop where
  renders : Renders levels node text
  spelt : ItemText item text.toList
  stands : item.toNode = node

theorem writes_param {visitor : Visitor} {host : Host} {node : Node} {param : Param} {enclosing : Enclosing}
    {text : String} (hkind : node.kind.isParameter = true) (hparam : Param.ofNode node = .ok param)
    (h : Writes visitor (renderParam param enclosing) text) : Writes visitor (renderNode host node enclosing) text := by
  rw [renderNode_param hkind hparam]
  exact h

theorem written_flat {levels : Nat} {node : Node} {param : Param} {item : Item} {text : String}
    (hkind : node.kind.isParameter = true) (hparam : Param.ofNode node = .ok param)
    (hwrites : ∀ enclosing, Writes (Emitter.descend Host.basic levels) (renderParam param enclosing) text)
    (hspelt : FlatText item text.toList) (hstands : item.toNode = node) : Written (levels + 1) node item text :=
  ⟨renders_of_writes fun enclosing => writes_param hkind hparam (hwrites enclosing), .flat hspelt, hstands⟩

theorem ofNode_star (name? : Option String) :
    Param.ofNode (starNode .restarg name?) = .ok (.restarg name?) ∧
      Param.ofNode (starNode .kwrestarg name?) = .ok (.kwrestarg name?) ∧
      Param.ofNode (starNode .blockarg name?) = .ok (.blockarg name?) := by
  cases name? <;> exact ⟨rfl, rfl, rfl⟩

theorem ofNode_pattern {nodes : List Node} (hne : nodes ≠ []) :
    Param.ofNode (.ofNodes .mlhs nodes) = .ok (.mlhs nodes) :=
  Param.ofNode_of_decodes (.mlhs rfl hne)

/-- the texts of nodes, with the items they spell -/
def Pieces (levels : Nat) (nodes : List Node) (pieces : List (Item × String)) : Prop :=
  List.Forall₂ (fun node piece => Written levels node piece.1 piece.2) nodes pieces

theorem exists_pieces {levels : Nat} {nodes : List Node} (h : ∀ node ∈ nodes, ∃ item text, Written levels node item text) :
    ∃ pieces, Pieces levels nodes pieces := by
  induction nodes with
  | nil => exact ⟨[], .nil⟩
  | cons node later ih =>
    obtain ⟨⟨item, text, hnode⟩, hlater⟩ := List.forall_mem_cons.1 h
    obtain ⟨pieces, hpieces⟩ := ih hlater
    exact ⟨(item, text) :: pieces, .cons hnode hpieces⟩

namespace Pieces

variable {levels : Nat} {nodes : List Node} {pieces : List (Item × String)}

theorem renders (h : Pieces levels nodes pieces) : List.Forall₂ (Renders levels) nodes (pieces.map Prod.snd) :=
  List.forall₂_map_right_iff.2 (h.imp fun _ _ hnode => hnode.renders)

theorem writes (h : Pieces levels nodes pieces) :
    Writes (Emitter.descend Host.basic levels) (delimited nodes) (", ".intercalate (pieces.map Prod.snd)) :=
  Writes.delimited (h.renders.imp fun _ _ hnode => Writes.visit hnode)

theorem nodes_eq (h : Pieces levels nodes pieces) : (pieces.map Prod.fst).map Item.toNode = nodes := by
  induction h with
  | nil => rfl
  | cons hnode _ ih => rw [List.map_cons, List.map_cons, hnode.stands, ih]

theorem spelt (h : Pieces levels nodes pieces) : ∀ piece ∈ pieces, ItemText piece.1 piece.2.toList := by
  induction h with
  | nil =>
    intro piece hpiece
    cases hpiece
  | cons hnode _ ih => exact List.forall_mem_cons.2 ⟨hnode.spelt, ih⟩

theorem kinds_eq (h : Pieces levels nodes pieces) : (pieces.map Prod.fst).map Item.kind = nodes.map Node.kind := by
  rw [← h.nodes_eq, List.map_map, List.map_map, List.map_map]
  exact List.map_congr_left fun piece _ => (kind_toNode piece.1).symm

end Pieces

/-- a default value inside a parameter has a level less -/
theorem exists_levels_default {kind : Kind} {name : String} {default : Node} {levels : Nat}
    (h : Node.height ⟨kind, [.symbol name, .ofNode default]⟩ ≤ levels + 1) : ∃ below, levels = below + 1 := by
  have hdefault : (Child.ofNode default).height ≤ levels := Node.height_le_succ.1 h _ (by simp)
  exact Node.exists_levels (show default.height ≤ levels from hdefault)

/-- Patterns in parentheses are written as a text that spells a group. -/
theorem written_group {levels : Nat} {nodes : List Node} {pieces : List (Item × String)}
    (h : Pieces levels nodes pieces) (hpattern : IsPattern (nodes.map Node.kind)) :
    ItemText (.group nodes) ("(" ++ (", ".intercalate (pieces.map Prod.snd) ++ ")")).toList := by
  have hne : pieces ≠ [] := by
    rintro rfl
    cases h
    exact hpattern.ne_nil rfl
  have hspaced : ∀ part ∈ spaced [] pieces, part.Spaced := by
    refine forall_mem_spaced fun piece _ before hbefore => ⟨?_, blanks_nil⟩
    rcases hbefore with rfl | rfl
    · exact blanks_nil
    · exact blanks_space
  have hkinds : IsPattern ((values (spaced [] pieces)).map Item.kind) := by
    rw [values_spaced, h.kinds_eq]
    exact hpattern
  have htext := ItemText.group hspaced (forall_mem_spaced fun piece hpiece _ _ => h.spelt piece hpiece) hkinds
  rw [values_spaced, h.nodes_eq, joined_spaced hne] at htext
  simpa using htext

/-- A pattern is written if its parts are. -/
theorem written_pattern {levels : Nat} {nodes : List Node}
    (h : ∀ node ∈ nodes, ∃ item text, Written levels node item text) (hpattern : IsPattern (nodes.map Node.kind)) :
    ∃ text, Written (levels + 1) (.ofNodes .mlhs nodes) (.group nodes) text := by
  obtain ⟨pieces, hpieces⟩ := exists_pieces h
  have hparam := ofNode_pattern hpattern.parts_ne_nil
  exact ⟨_, renders_of_writes fun _ => writes_param rfl hparam (Writes.parentheses hpieces.writes),
    written_group hpieces hpattern, rfl⟩

/-- **A canonical parameter is written as a text that spells it.** -/
theorem IsParam.written {node : Node} (h : IsParam node) {levels : Nat} (hlevels : node.height ≤ levels) :
    ∃ item text, Written levels node item text := by
  induction h generalizing levels with
  | @arg name h =>
    obtain ⟨below, rfl⟩ := Node.exists_levels hlevels
    exact ⟨.bare name, name, written_flat rfl rfl (fun _ => Writes.write name) (.bare h) rfl⟩
  | @optarg name default h hdefault =>
    obtain ⟨below, rfl⟩ := Node.exists_levels hlevels
    obtain ⟨lower, rfl⟩ := exists_levels_default hlevels
    obtain ⟨text, hrenders, htext⟩ := hdefault.written lower
    refine ⟨.node ⟨.optarg, [.symbol name, .ofNode default]⟩, name ++ " = " ++ text,
      written_flat rfl rfl (fun _ => Writes.seq (Writes.two name " = ") (Writes.visit hrenders)) ?_ rfl⟩
    have hflat := FlatText.optional h blanks_space blanks_space htext
    simpa using hflat
  | @restarg name? h =>
    obtain ⟨below, rfl⟩ := Node.exists_levels hlevels
    refine ⟨.node (starNode .restarg name?), "*" ++ name?.getD "",
      written_flat rfl (ofNode_star name?).1 (fun _ => Writes.two "*" _) ?_ rfl⟩
    rw [String.toList_append]
    exact .splat h
  | @kwarg name h =>
    obtain ⟨below, rfl⟩ := Node.exists_levels hlevels
    refine ⟨.node ⟨.kwarg, [.symbol name]⟩, name ++ ":", written_flat rfl rfl (fun _ => Writes.two name ":") ?_ rfl⟩
    rw [String.toList_append]
    exact .keyword h
  | @kwoptarg name default h hdefault =>
    obtain ⟨below, rfl⟩ := Node.exists_levels hlevels
    obtain ⟨lower, rfl⟩ := exists_levels_default hlevels
    obtain ⟨text, hrenders, htext⟩ := hdefault.written lower
    refine ⟨.node ⟨.kwoptarg, [.symbol name, .ofNode default]⟩, name ++ ": " ++ text,
      written_flat rfl rfl (fun _ => Writes.seq (Writes.two name ": ") (Writes.visit hrenders)) ?_ rfl⟩
    have hflat := FlatText.keywordDefault h blanks_space htext
    simpa using hflat
  | @kwrestarg name? h =>
    obtain ⟨below, rfl⟩ := Node.exists_levels hlevels
    refine ⟨.node (starNode .kwrestarg name?), "**" ++ name?.getD "",
      written_flat rfl (ofNode_star name?).2.1 (fun _ => Writes.two "**" _) ?_ rfl⟩
    rw [String.toList_append]
    exact .keywordSplat h
  | kwnilarg =>
    obtain ⟨below, rfl⟩ := Node.exists_levels hlevels
    exact ⟨.node (.leaf .kwnilarg), "**nil", written_flat rfl rfl (fun _ => Writes.write "**nil") .noKeywords rfl⟩
  | @blockarg name? h =>
    obtain ⟨below, rfl⟩ := Node.exists_levels hlevels
    refine ⟨.node (starNode .blockarg name?), "&" ++ name?.getD "",
      written_flat rfl (ofNode_star name?).2.2 (fun _ => Writes.two "&" _) ?_ rfl⟩
    rw [String.toList_append]
    exact .block h
  | forwardArg =>
    obtain ⟨below, rfl⟩ := Node.exists_levels hlevels
    exact ⟨.node (.leaf .forwardArg), "...", written_flat rfl rfl (fun _ => Writes.write "...") .forward rfl⟩
  | @mlhs nodes hnodes hpattern ih =>
    obtain ⟨below, rfl⟩ := Node.exists_levels hlevels
    have hheights := Node.height_ofNodes_le.1 hlevels
    obtain ⟨text, hwritten⟩ := written_pattern (fun node hnode => ih node hnode (hheights node hnode)) hpattern
    exact ⟨.group nodes, text, hwritten⟩

end RubySignature.Signature
