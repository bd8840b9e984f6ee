/-
Which default values survive being written and read.

Take any default value that reading a list can give, and the list of a lambda with one optional parameter that has it.
The list is always written, and it comes back just as it was if and only if the default value is one that reads back
(`IsDefault`). What goes wrong otherwise is known (`read_default`). In a string, a carriage return and an escape are
written as a backslash and a letter, and of the two only the letter is read. A symbol that is no identifier, such as one
that begins with a digit, is written with quotes, which no symbol is read with.

`default_lost` is such a list: its string is a carriage return.
-/
import RubySignature.Proofs.Signature.Allowed

namespace RubySignature.Signature

open Unicode

/-- the list with one optional parameter, which has the default value -/
def optionalList (value : Node) : Node := .ofNodes .args [⟨.optarg, [.symbol "a", .ofNode value]⟩]

theorem optionalList_inj {value other : Node} (h : optionalList value = optionalList other) : value = other := by
  have hchildren := (Node.mk.inj (List.cons.inj (ofNodes_inj h)).1).2
  exact Child.ofNode_inj.1 (List.cons.inj (List.cons.inj hchildren).2).1

/-- What a default value comes back as, if it does. -/
def valueBack? : Node → Option Node
  | ⟨.str, [.str string]⟩ => some ⟨.str, [.str (String.ofList (string.toList.map comesBack))]⟩
  | ⟨.sym, [.symbol name]⟩ => if Symbol.isIdentifier name.toList then some ⟨.sym, [.symbol name]⟩ else none
  | value => some value

/-! ## Writing and reading the list -/

theorem listText_sole (text : String) : listText [text] false [] = text := by
  simp [listText]

/-- The list is written if its default value is. -/
theorem unparseArgs_optionalList {value : Node} {text : String} (h : Renders (253 + 1) value text) :
    unparseArgs (optionalList value) .lambda = .ok ("a" ++ " = " ++ text) := by
  have hwritten : Renders (254 + 1) ⟨.optarg, [.symbol "a", .ofNode value]⟩ ("a" ++ " = " ++ text) :=
    renders_of_writes fun _ =>
      writes_param rfl rfl (RenderM.Writes.seq (RenderM.Writes.two "a" " = ") (RenderM.Writes.visit h))
  have hlist := unparseArgs_alone (by simp) hwritten .lambda []
  rwa [show needsComma _ .lambda = false from rfl, listText_sole] at hlist

/-- The text is read as the list of the default value that it spells. -/
theorem read_optionalList {value : Node} {text : String} (h : DefaultText value text.toList) :
    read ("a" ++ " = " ++ text) .lambda = .ok (optionalList value) := by
  let item : Item := .node ⟨.optarg, [.symbol "a", .ofNode value]⟩
  have hname : IsName "a" := by decide
  have hflat : FlatText item ("a" ++ " = " ++ text).toList := by
    have hoptional := FlatText.optional hname blanks_space blanks_space h
    simpa using hoptional
  have hspelt : ∀ piece ∈ [(item, "a" ++ " = " ++ text)], ItemText piece.1 piece.2.toList :=
    List.forall_mem_singleton.2 (.flat hflat)
  have hordered : Slot.leading.run? [Kind.optarg] ≠ none := by decide
  have hforward : ∀ piece ∈ [(item, "a" ++ " = " ++ text)], piece.1.kind ≠ .forwardArg :=
    List.forall_mem_singleton.2 (show Kind.optarg ≠ .forwardArg by decide)
  have hextra : false = true → Enclosing.lambda = .block ∧ [(item, "a" ++ " = " ++ text)] ≠ [] ∧
      Slot.leading.run? [Kind.optarg] = some .leading := fun htrue => absurd htrue Bool.false_ne_true
  have hread := read_listText hspelt hordered (Or.inr hforward) hextra (List.forall_mem_nil IsName)
  rw [List.map_singleton, listText_sole] at hread
  exact hread

/-- What fails to be read as a parameter is no list. -/
theorem read_of_readFlat_error {s : List Char} {fault : Fault} (hbegins : Begins s) (hparen : Stops (· == '(') s)
    (h : readFlat s = .error fault) (enclosing : Enclosing) :
    ∃ error, read (String.ofList s) enclosing = .error error := by
  have hitem : readItem [] s = .error fault := by
    rw [readItem]
    · split
      · rename_i other hother
        rw [h] at hother
        exact congrArg Except.error (Except.error.inj hother).symm
      · rename_i hother
        rw [h] at hother
        cases hother
    · rintro rest rfl
      rw [stops_cons] at hparen
      exact absurd hparen (by decide)
  have hnormals : readNormals enclosing .leading s = .error fault := by
    rw [readNormals]
    split
    · rename_i other hother
      rw [hitem] at hother
      exact congrArg Except.error (Except.error.inj hother).symm
    · rename_i hother
      rw [hitem] at hother
      cases hother
  have hstart : startNormals enclosing s = .error fault := by
    unfold startNormals
    rw [hbegins.skipBlank_eq, not_atNormalsEnd hbegins, if_neg Bool.false_ne_true, hnormals]
  refine ⟨fault.locate s.length, ?_⟩
  rw [read, String.toList_ofList, readList_eq, hstart]
  rfl

/-- A symbol in quotes is not read. -/
theorem read_quotedSymbol (written : List Char) (enclosing : Enclosing) :
    ∃ error, read (String.ofList ("a = :".toList ++ '"' :: written)) enclosing = .error error := by
  have hname : IsName "a" := by decide
  have hstops : Stops isNameChar ([' '] ++ '=' :: (' ' :: ':' :: '"' :: written)) := by
    simp [stops_cons]
    decide
  have hquote : readName ('"' :: written) = .error (.expected .name ('"' :: written)) := by
    rw [readName, scanName?_none ((stops_cons _ _ _).2 (by decide))]
  have hdefault : readDefault (':' :: '"' :: written) = .error (.expected .name ('"' :: written)) := by
    rw [readDefault, hquote]
    rfl
  have hflat : readFlat ("a".toList ++ ([' '] ++ '=' :: (' ' :: ':' :: '"' :: written))) =
      .error (.expected .name ('"' :: written)) := by
    have hblank : skipBlank (' ' :: ':' :: '"' :: written) = ':' :: '"' :: written :=
      skipBlank_append_cons blanks_space (by decide) _
    rw [readFlat_name hname hstops, readNamed_equals "a" blanks_space, hblank, hdefault]
    rfl
  exact read_of_readFlat_error (hname.begins.append _) (hname.stops (by decide) _) hflat enclosing

/-! ## Default values that are read -/

/-- the default value of an optional parameter, anywhere in a list that is read -/
theorem readDefault_of_read {text : String} {enclosing : Enclosing} {list node value : Node}
    (h : read text enclosing = .ok list) (hnode : node.Occurs list) (hkind : node.kind = .optarg ∨ node.kind = .kwoptarg)
    (hvalue : value ∈ node.nodes) : ReadDefault value := by
  have hallowed : Allowed enclosing list := by
    cases returned_of_read h with
    | list hnormals horder hshadows => exact allowed_list hnormals horder hshadows
    | sole hblock hparts hpattern hshadows => exact hblock ▸ allowed_sole hparts hpattern hshadows
  obtain ⟨name, default, hchildren, hdefault⟩ := (hallowed.nodes node hnode).default hkind
  obtain ⟨kind, children⟩ := node
  obtain rfl : children = [.symbol name, .ofNode default] := hchildren
  obtain rfl : value = default := List.mem_singleton.1 hvalue
  exact hdefault

/-! ## What comes back -/

/-- A string comes back character by character. -/
theorem written_str (string : String) :
    ∃ written, unparseArgs (optionalList ⟨.str, [.str string]⟩) .lambda = .ok written ∧
      read written .lambda = .ok (optionalList ⟨.str, [.str (String.ofList (string.toList.map comesBack))]⟩) := by
  have htext : DefaultText ⟨.str, [.str (String.ofList (string.toList.map comesBack))]⟩ (Literal.str string).toList := by
    unfold Literal.str Literal.strChars
    rw [String.toList_ofList]
    refine .str ?_
    rw [String.toList_ofList]
    exact stringText_comesBack string.toList
  exact ⟨_, unparseArgs_optionalList (Literal.renders_str 253 string), read_optionalList htext⟩

/-- A symbol that is a name but no identifier does not come back. -/
theorem written_sym {name : String} (hname : IsName name) (hident : Symbol.isIdentifier name.toList = false) :
    ∃ written, unparseArgs (optionalList ⟨.sym, [.symbol name]⟩) .lambda = .ok written ∧
      ∃ error, read written .lambda = .error error := by
  have hplain : Symbol.isPlainChars name.toList = false := (Symbol.isPlainChars_of_isNameChar hname.2).trans hident
  have htext : "a" ++ " = " ++ Literal.sym name =
      String.ofList ("a = :".toList ++ '"' :: (Literal.body name.toList ++ ['"'])) := by
    rw [Literal.sym, Literal.symChars_of_not_isPlain (Bool.eq_false_iff.1 hplain)]
    simp [Literal.strChars, ← String.toList_inj]
  refine ⟨_, unparseArgs_optionalList (Literal.renders_sym 253 name), ?_⟩
  rw [htext]
  exact read_quotedSymbol _ .lambda

/-- A default value that reads back does so. -/
theorem written_isDefault {value : Node} (h : IsDefault value) :
    ∃ written, unparseArgs (optionalList value) .lambda = .ok written ∧
      read written .lambda = .ok (optionalList value) := by
  obtain ⟨text, hrenders, htext⟩ := h.written 253
  exact ⟨_, unparseArgs_optionalList hrenders, read_optionalList htext⟩

/-- a default value comes back as itself if it reads back -/
theorem valueBack?_eq_self_iff {value : Node} (h : ReadDefault value) : valueBack? value = some value ↔ IsDefault value := by
  cases h with
  | int value => exact iff_of_true rfl (.int value)
  | word h =>
    refine iff_of_true ?_ (.word h)
    simp only [List.mem_cons, List.not_mem_nil, or_false] at h
    rcases h with rfl | rfl | rfl | rfl <;> rfl
  | call h hdigit hword => exact iff_of_true rfl (.call h hdigit hword)
  | str string =>
    have hchars : String.ofList (string.toList.map comesBack) = string ↔ ∀ c ∈ string.toList, comesBack c = c := by
      rw [← String.toList_inj, String.toList_ofList]
      simpa using List.map_inj_left (l := string.toList) (f := comesBack) (g := id)
    constructor
    · intro hsame
      have hstring := Child.str.inj (List.cons.inj (Node.mk.inj (Option.some.inj hsame)).2).1
      exact .str fun c hc => comesBack_eq_self_iff.1 (hchars.1 hstring c hc)
    · intro hdefault
      cases hdefault with
      | str h =>
        have hstring := hchars.2 fun c hc => comesBack_eq_self_iff.2 (h c hc)
        rw [valueBack?, hstring]
  | @sym name hname =>
    constructor
    · intro hsame
      cases hident : Symbol.isIdentifier name.toList with
      | true => exact .sym hident
      | false =>
        have hback : valueBack? ⟨.sym, [.symbol name]⟩ = none := if_neg (Bool.eq_false_iff.1 hident)
        cases hback.symm.trans hsame
    · intro hdefault
      cases hdefault with
      | sym h => exact if_pos h

/-- What is read again is what the default value comes back as. -/
theorem written_back {value : Node} (h : ReadDefault value) :
    ∃ written, unparseArgs (optionalList value) .lambda = .ok written ∧
      (read written .lambda).toOption = (valueBack? value).map optionalList := by
  by_cases hdefault : IsDefault value
  · obtain ⟨written, hwritten, hread⟩ := written_isDefault hdefault
    refine ⟨written, hwritten, ?_⟩
    rw [hread, (valueBack?_eq_self_iff h).2 hdefault]
    rfl
  · cases h with
    | int value => exact absurd (.int value) hdefault
    | word h => exact absurd (.word h) hdefault
    | call h hdigit hword => exact absurd (.call h hdigit hword) hdefault
    | str string =>
      obtain ⟨written, hwritten, hread⟩ := written_str string
      exact ⟨written, hwritten, congrArg Except.toOption hread⟩
    | @sym name hname =>
      have hident : Symbol.isIdentifier name.toList = false := eq_false_of_ne_true fun h => hdefault (.sym h)
      obtain ⟨written, hwritten, error, hread⟩ := written_sym hname hident
      refine ⟨written, hwritten, ?_⟩
      rw [hread, valueBack?, hident]
      rfl

/-- **Which default values survive.** Whatever default value a list is read with, the list of a lambda with an optional
parameter of that value is written. It is read again with what the value comes back as, or not at all, and so it is the
same list exactly if the value is one that reads back. -/
theorem read_default {text : String} {enclosing : Enclosing} {list node value : Node}
    (h : read text enclosing = .ok list) (hnode : node.Occurs list) (hkind : node.kind = .optarg ∨ node.kind = .kwoptarg)
    (hvalue : value ∈ node.nodes) :
    ∃ written, unparseArgs (optionalList value) .lambda = .ok written ∧
      (read written .lambda).toOption = (valueBack? value).map optionalList ∧
      (read written .lambda = .ok (optionalList value) ↔ IsDefault value) := by
  have hdefault := readDefault_of_read h hnode hkind hvalue
  obtain ⟨written, hwritten, hread⟩ := written_back hdefault
  refine ⟨written, hwritten, hread, ?_⟩
  rw [← valueBack?_eq_self_iff hdefault]
  constructor
  · intro hsame
    rw [hsame] at hread
    obtain ⟨back, hback, hlist⟩ := Option.map_eq_some_iff.1 hread.symm
    rwa [optionalList_inj hlist] at hback
  · intro hback
    rw [hback] at hread
    cases hlist : read written .lambda with
    | error error =>
      rw [hlist] at hread
      cases hread
    | ok again =>
      rw [hlist] at hread
      exact congrArg Except.ok (Option.some.inj hread)

def carriageReturn : Node := ⟨.str, [.str "\r"]⟩

theorem read_carriageReturn : read "a = \"\r\"" .lambda = .ok (optionalList carriageReturn) := by
  have hplain : StringText "\r".toList ['\r'] := .plain (by decide) (by decide) .done
  have htext : DefaultText carriageReturn "\"\r\"".toList := .str hplain
  exact read_optionalList htext

theorem occurs_optionalList (value : Node) :
    Node.Occurs ⟨.optarg, [.symbol "a", .ofNode value]⟩ (optionalList value) :=
  .inside List.mem_cons_self .root

/-- A carriage return comes back as a letter. -/
theorem read_default_letter :
    ∃ written, unparseArgs (optionalList carriageReturn) .lambda = .ok written ∧
      (read written .lambda).toOption = some (optionalList ⟨.str, [.str "r"]⟩) := by
  obtain ⟨written, hwritten, hback, -⟩ := read_default read_carriageReturn (occurs_optionalList carriageReturn)
    (Or.inl rfl) List.mem_cons_self
  exact ⟨written, hwritten, hback⟩

/-- Not every default value that is read survives. -/
theorem default_lost :
    ¬ ∀ (text : String) (enclosing : Enclosing) (list node value : Node), read text enclosing = .ok list →
      node.Occurs list → node.kind = .optarg ∨ node.kind = .kwoptarg → value ∈ node.nodes →
        ∃ written, unparseArgs (optionalList value) .lambda = .ok written ∧
          read written .lambda = .ok (optionalList value) := by
  intro hcomesBack
  obtain ⟨written, hwritten, hread⟩ := hcomesBack _ .lambda _ _ carriageReturn read_carriageReturn
    (occurs_optionalList carriageReturn) (Or.inl rfl) List.mem_cons_self
  obtain ⟨other, hother, hback⟩ := written_str "\r"
  obtain rfl := Except.ok.inj (hwritten.symm.trans hother)
  have hsame := optionalList_inj (Except.ok.inj (hread.symm.trans hback))
  exact absurd (Child.str.inj (List.cons.inj (Node.mk.inj hsame).2).1) (by decide)

end RubySignature.Signature
