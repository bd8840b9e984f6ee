/-
Which error a text that follows the notation gives.

A text is taken apart as a whole before the tree is built, and a part of the tree is built from its own tokens alone. So
what a part gives is said of its tokens (`Settles`): all of them fit into a tree, or the error is that of the first one
that does not (`FirstMisfit`). Two parts that are built one after the other are settled by the tokens of the first and
then of the second (`Settles.bind`), and since the name of a node comes before its items in the text and is looked at
before them, the induction on the grammar goes through at every nesting (`settles_item`).

`read_firstMisfit` is the result for whole texts. A text that follows the notation has one row of tokens only
(`TextTokens.unique`); a text that does not gives the place of the fault, whatever its tokens are.
-/
import RubySignature.Proofs.Sexp.Faults

namespace RubySignature.Sexp

variable {s mid rest : List Char} {tokens later : List Token}

/-! ## The tokens of a text -/

/-- the tokens at the front of a text, with some layout before each of them, and the text after them -/
inductive TokensAt : List Token → List Char → List Char → Prop where
  | nil (rest : List Char) : TokensAt [] rest rest
  | cons {token : Token} {later : List Token} {s start next rest : List Char} (hlayout : Layout s start)
    (htoken : TokenAt token start next) (hlater : TokensAt later next rest) : TokensAt (token :: later) s rest

def TextTokens (tokens : List Token) (text : List Char) : Prop := ∃ rest, TokensAt tokens text rest ∧ Layout rest []

theorem TokensAt.append (h : TokensAt tokens s mid) (hlater : TokensAt later mid rest) :
    TokensAt (tokens ++ later) s rest := by
  induction h with
  | nil => exact hlater
  | cons hlayout htoken _ ih => exact .cons hlayout htoken (ih hlater)

/-- there is no token in the layout at the end of a text -/
theorem not_tokenAt_of_layout {token : Token} {start next : List Char} (hend : Layout s []) (hlayout : Layout s start) :
    ¬ TokenAt token start next := by
  intro htoken
  have hnext := next_skip hlayout htoken
  rw [List.isEmpty_iff.1 (layout_nil_iff.1 hend)] at hnext
  cases hnext

/-- **A text has one row of tokens only.** -/
theorem TextTokens.unique {other : List Token} {text : List Char} (h : TextTokens tokens text)
    (hother : TextTokens other text) : tokens = other := by
  obtain ⟨rest, htokens, hrest⟩ := h
  obtain ⟨left, hother, hleft⟩ := hother
  induction htokens generalizing other with
  | nil =>
    cases hother with
    | nil => rfl
    | cons hlayout htoken _ => exact absurd htoken (not_tokenAt_of_layout hrest hlayout)
  | cons hlayout htoken _ ih =>
    cases hother with
    | nil => exact absurd htoken (not_tokenAt_of_layout hleft hlayout)
    | cons hlayoutOther htokenOther hlater =>
      have hsame := (next_skip hlayout htoken).symm.trans (next_skip hlayoutOther htokenOther)
      obtain ⟨rfl, rfl⟩ := Prod.mk.inj (Except.ok.inj hsame)
      rw [ih hrest hlater]

/-! ## Tokens that fit into a tree -/

/-- The token can stand in a tree: a name is that of a kind, and an integer is one of 64 bits. -/
def Token.Fits : Token → Prop
  | .opening name => ∃ kind : Kind, kind.name = name
  | .leaf (.integer spelling) => ∃ value : Int, IntegerText spelling.toList value ∧ -2 ^ 63 ≤ value ∧ value < 2 ^ 63
  | _ => True

/-- the error that the token gives where it does not fit -/
def Token.error? : Token → Option ReadError
  | .opening name => some (.unknownKind name)
  | .leaf (.integer spelling) => some (.integerRange spelling)
  | _ => none

/-- The error is that of the first token that does not fit. -/
inductive FirstMisfit : List Token → ReadError → Prop where
  | here {token : Token} {error : ReadError} (h : ¬ token.Fits) (herror : token.error? = some error)
    (later : List Token) : FirstMisfit (token :: later) error
  | later {token : Token} {later : List Token} {error : ReadError} (h : token.Fits) (hlater : FirstMisfit later error) :
    FirstMisfit (token :: later) error

namespace FirstMisfit

variable {error : ReadError}

theorem not_fits (h : FirstMisfit tokens error) : ¬ ∀ token ∈ tokens, token.Fits := by
  intro hall
  induction h with
  | here h _ _ => exact h (List.forall_mem_cons.1 hall).1
  | later _ _ ih => exact ih (List.forall_mem_cons.1 hall).2

theorem unique {other : ReadError} (h : FirstMisfit tokens error) (hother : FirstMisfit tokens other) :
    error = other := by
  induction h with
  | here h herror _ =>
    cases hother with
    | here _ hother _ => exact Option.some.inj (herror.symm.trans hother)
    | later hfits _ => exact absurd hfits h
  | later h _ ih =>
    cases hother with
    | here hmisfit _ _ => exact absurd h hmisfit
    | later _ hlater => exact ih hlater

theorem append (h : FirstMisfit tokens error) (after : List Token) : FirstMisfit (tokens ++ after) error := by
  induction h with
  | here h herror later => exact .here h herror (later ++ after)
  | later h _ ih => exact .later h ih

theorem prepend (hall : ∀ token ∈ tokens, token.Fits) (h : FirstMisfit later error) :
    FirstMisfit (tokens ++ later) error := by
  induction tokens with
  | nil => exact h
  | cons token tokens ih =>
    obtain ⟨htoken, hall⟩ := List.forall_mem_cons.1 hall
    exact .later htoken (ih hall)

end FirstMisfit

/-! ## Building -/

section

variable {α β : Type}

/-- The tokens decide the result: it is a value if all of them fit, and the error of the first that does not otherwise. -/
def Settles (tokens : List Token) : Except ReadError α → Prop
  | .ok _ => ∀ token ∈ tokens, token.Fits
  | .error error => FirstMisfit tokens error

namespace Settles

variable {first : Except ReadError α}

/-- **Step.** What is built first has its tokens first. -/
theorem bind {next : α → Except ReadError β} (h : Settles tokens first) (hnext : ∀ value, Settles later (next value)) :
    Settles (tokens ++ later) (first >>= next) := by
  cases first with
  | error error => exact FirstMisfit.append h later
  | ok value =>
    have hlater := hnext value
    change Settles (tokens ++ later) (next value)
    cases hresult : next value with
    | error error =>
      rw [hresult] at hlater
      exact FirstMisfit.prepend h hlater
    | ok result =>
      rw [hresult] at hlater
      exact List.forall_mem_append.2 ⟨h, hlater⟩

theorem map (h : Settles tokens first) (f : α → β) : Settles tokens (first >>= fun value => pure (f value)) := by
  cases first with
  | error error => exact h
  | ok value => exact h

theorem ok_iff (h : Settles tokens first) : (∃ value, first = .ok value) ↔ ∀ token ∈ tokens, token.Fits := by
  cases first with
  | error error => exact ⟨nofun, fun hall => absurd hall (FirstMisfit.not_fits h)⟩
  | ok value => exact ⟨fun _ => h, fun _ => ⟨value, rfl⟩⟩

theorem error_iff {error : ReadError} (h : Settles tokens first) : first = .error error ↔ FirstMisfit tokens error := by
  cases first with
  | error found =>
    constructor
    · intro hfound
      rwa [← Except.error.inj hfound]
    · intro hother
      rw [FirstMisfit.unique h hother]
  | ok value => exact ⟨nofun, fun hmisfit => absurd h hmisfit.not_fits⟩

end Settles

end

/-- an integer fits exactly if it is made into a word -/
theorem fits_integer_iff {spelling : String} :
    (Token.leaf (.integer spelling)).Fits ↔ ∃ value, wordOfDecimal spelling.toList = .ok value := by
  constructor
  · rintro ⟨value, hinteger, hlow, hhigh⟩
    refine ⟨Int64.ofInt value, wordOfDecimal_iff.2 ?_⟩
    rwa [Int64.toInt_ofInt_of_le hlow hhigh]
  · rintro ⟨value, hvalue⟩
    exact ⟨value.toInt, wordOfDecimal_iff.1 hvalue, value.le_toInt, value.toInt_lt⟩

theorem settles_leaf (value : Leaf) : Settles [.leaf value] value.toChild := by
  have hfits (h : (Token.leaf value).Fits) : ∀ token ∈ [Token.leaf value], token.Fits := List.forall_mem_singleton.2 h
  cases value with
  | integer spelling =>
    unfold Leaf.toChild
    dsimp only
    cases hword : wordOfDecimal spelling.toList with
    | ok word => exact hfits (fits_integer_iff.2 ⟨word, hword⟩)
    | error fault =>
      refine .here ?_ rfl []
      rw [fits_integer_iff, hword]
      exact nofun
  | symbol | float | str | nil => exact hfits trivial

theorem settles_kindNamed (name : String) : Settles [.opening name] (kindNamed name) := by
  cases hkind : kindNamed name with
  | ok kind => exact List.forall_mem_singleton.2 ⟨kind, (kindNamed_iff.1 hkind).symm⟩
  | error error =>
    have hname : ¬ (Token.opening name).Fits := by
      rintro ⟨kind, rfl⟩
      rw [kindNamed_name] at hkind
      cases hkind
    refine .here hname ?_ []
    unfold kindNamed at hkind
    split at hkind
    · cases hkind
    · exact congrArg some (Except.error.inj hkind)

/-- the name of a node comes before its items, and is looked at before them -/
theorem settles_node {α : Type} {name : String} {items : List Form} (h : Settles tokens (Form.toChildren items))
    (build : Kind → List Child → α) :
    Settles (.opening name :: tokens)
      (kindNamed name >>= fun kind => Form.toChildren items >>= fun children => pure (build kind children)) :=
  (settles_kindNamed name).bind fun kind => h.map (build kind)

mutual

/-- **Step.** The child that an item stands for is settled by the tokens of the item. -/
theorem settles_item {item : Form} {s start rest : List Char} (hlayout : Layout s start) :
    ItemAt item start rest → ∃ tokens, TokensAt tokens s rest ∧ Settles tokens item.toChild
  | .leaf hleaf => ⟨_, .cons hlayout (.leaf hleaf) (.nil rest), settles_leaf _⟩
  | .node hname hitems => by
    obtain ⟨tokens, htokens, hsettles⟩ := settles_items hitems
    exact ⟨_, .cons hlayout (.opening hname) htokens, settles_node hsettles Child.node⟩

/-- the children that the items of a node stand for are settled by what is left of the tokens of the node -/
theorem settles_items {items : List Form} {s rest : List Char} :
    ItemsAt items s rest → ∃ tokens, TokensAt tokens s rest ∧ Settles tokens (Form.toChildren items)
  | .closing hlayout => ⟨[.closing], .cons hlayout (.closing rest) (.nil rest), List.forall_mem_singleton.2 trivial⟩
  | .item hlayout hitem hlater => by
    obtain ⟨tokens, htokens, hsettles⟩ := settles_item hlayout hitem
    obtain ⟨later, hlater, hsettlesLater⟩ := settles_items hlater
    exact ⟨tokens ++ later, htokens.append hlater, hsettles.bind fun child => hsettlesLater.map (child :: ·)⟩

end

/-- **Run.** The tree of a whole text is settled by the tokens of the text. -/
theorem settles_group {group : Group} {text : List Char} (h : GroupText group text) :
    ∃ tokens, TextTokens tokens text ∧ Settles tokens group.toNode := by
  obtain ⟨start, rest, hlayout, hnode, hend⟩ := h
  cases hnode with
  | node hname hitems =>
    obtain ⟨tokens, htokens, hsettles⟩ := settles_items hitems
    exact ⟨_, ⟨rest, .cons hlayout (.opening hname) htokens, hend⟩, settles_node hsettles Node.mk⟩

/-! ## Whole texts -/

/-- every float of the grammar has a value -/
theorem exists_value_of_floatText {spelling : List Char} (h : FloatText spelling) :
    ∃ value, Double.ofText? (String.ofList spelling) = some value := by
  obtain ⟨n, left, hscan, -, hleft⟩ := Numeral.scan?_extends h []
  rw [hleft (stops_nil _), List.append_nil] at hscan
  obtain ⟨found, rfl, -, hvalue⟩ := Numeral.scan?_sound hscan
  rw [List.append_nil]
  exact ⟨n.toDouble, hvalue⟩

theorem read_of_groupText {group : Group} {text : String} (h : GroupText group text.toList) : read text = group.toNode := by
  unfold read readChars
  rw [readGroup_iff.2 h]

theorem not_groupText_iff {text : String} : (¬ ∃ group, GroupText group text.toList) ↔
    ∃ position expected, read text = .error (.malformed position expected) := by
  constructor
  · intro hnone
    cases hgroup : readGroup text.toList with
    | ok group => exact absurd ⟨group, readGroup_iff.1 hgroup⟩ hnone
    | error fault => exact ⟨_, _, read_malformed_iff.2 ⟨fault, hgroup, rfl⟩⟩
  · rintro ⟨position, expected, hmalformed⟩ ⟨group, hgroup⟩
    rw [read_of_groupText hgroup] at hmalformed
    exact toNode_ne_malformed group hmalformed

/-- **The first token that does not fit is the error.** A text that follows the notation is read exactly if every name in it
is that of a kind and every integer is one of 64 bits, and gives the error of the first token for which this fails
otherwise. A text that breaks the notation gives the place of the fault, and no float of the notation fails to have a
value. -/
theorem read_firstMisfit (text : String) :
    (∀ group, GroupText group text.toList → ∃ tokens, (∀ other, TextTokens other text.toList ↔ other = tokens) ∧
      ((∃ node, read text = .ok node) ↔ ∀ token ∈ tokens, token.Fits) ∧
      ∀ error, read text = .error error ↔ FirstMisfit tokens error) ∧
    ((¬ ∃ group, GroupText group text.toList) ↔ ∃ position expected, read text = .error (.malformed position expected)) ∧
    ∀ spelling, FloatText spelling → ∃ value, Double.ofText? (String.ofList spelling) = some value := by
  refine ⟨?_, not_groupText_iff, fun spelling => exists_value_of_floatText⟩
  intro group hgroup
  obtain ⟨tokens, htokens, hsettles⟩ := settles_group hgroup
  rw [read_of_groupText hgroup]
  refine ⟨tokens, ?_, hsettles.ok_iff, fun error => hsettles.error_iff⟩
  intro other
  constructor
  · intro hother
    exact hother.unique htokens
  · rintro rfl
    exact htokens

/-- of two tokens that do not fit the first one counts, a name also if it is that of a node around the other -/
example : read "(args (foo 9223372036854775808))" = .error (.unknownKind "foo") ∧
    read "(args (int 9223372036854775808) (foo))" = .error (.integerRange "9223372036854775808") := by
  constructor <;> cbv

end RubySignature.Sexp
