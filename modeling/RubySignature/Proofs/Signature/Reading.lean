/-
Spelt parameter lists are read.

Whatever spelling a parameter has, reading it hands the parameter on and stops at its end, provided the text goes on as it
may after a parameter (`ItemText.reads`). The induction is on the spelling: a pattern is read part by part inside the
patterns that are open around it, and its closing parenthesis makes it a part of the next one out.
-/
import RubySignature.Proofs.Signature.Spelling

namespace RubySignature.Signature

open Unicode

variable {rest : List Char}

/-! ## Default values -/

theorem readString_cons {c : Char} (hquote : c ≠ '"') (hback : c ≠ '\\') (s : List Char) :
    readString (c :: s) = (readString s).map fun (text, rest) => (c :: text, rest) := by
  rw [readString]
  · exact hquote
  · intro hc _
    exact absurd hc hback
  · intro _ _ hc
    exact absurd hc hback

theorem readString_text {text written : List Char} (h : StringText text written) (rest : List Char) :
    readString (written ++ '"' :: rest) = .ok (text, rest) := by
  induction h with
  | done => rfl
  | plain hquote hback _ ih =>
    rw [List.cons_append, readString_cons hquote hback, ih]
    rfl
  | escaped c _ ih =>
    rw [List.cons_append, List.cons_append, readString, ih]
    rfl

theorem readDefault_cons {c : Char} (hquote : c ≠ '"') (hcolon : c ≠ ':') (s : List Char) :
    readDefault (c :: s) =
      if c == '-' || c.isDigit then
        match wordOfDecimal (c :: digitRun s) with
        | .ok value => .ok (⟨.int, [.int value]⟩, afterDigits s)
        | .error fault => .error (.integer (c :: digitRun s) fault)
      else (readName (c :: s)).map fun (word, rest) => (wordNode word, rest) := by
  unfold readDefault
  split
  · rename_i heq
    exact absurd (List.cons.inj heq).1 hquote
  · rename_i heq
    exact absurd (List.cons.inj heq).1 hcolon
  · rename_i heq
    obtain ⟨rfl, rfl⟩ := List.cons.inj heq
    rfl
  · rename_i heq
    cases heq

theorem readDefault_int {value : Int64} (negative : Bool) {digits : List Char} (hne : digits ≠ [])
    (hdigits : ∀ c ∈ digits, c.isDigit = true)
    (hvalue : wordOfDecimal ((if negative then ['-'] else []) ++ digits) = .ok value)
    (hrest : Stops Char.isDigit rest) :
    readDefault ((if negative then ['-'] else []) ++ digits ++ rest) = .ok (⟨.int, [.int value]⟩, rest) := by
  cases negative with
  | true =>
    have hvalue : wordOfDecimal ('-' :: digits) = .ok value := hvalue
    rw [if_pos rfl, List.append_assoc, List.singleton_append, readDefault_cons (by decide) (by decide),
      if_pos (by decide), digitRun_append hdigits hrest, afterDigits_append hdigits hrest, hvalue]
  | false =>
    obtain ⟨c, s, rfl⟩ := List.exists_cons_of_ne_nil hne
    obtain ⟨hc, hs⟩ := List.forall_mem_cons.1 hdigits
    have hvalue : wordOfDecimal (c :: s) = .ok value := hvalue
    have hquote : c ≠ '"' := ne_of_sort hc (by decide)
    have hcolon : c ≠ ':' := ne_of_sort hc (by decide)
    have hnumber : (c == '-' || c.isDigit) = true := by rw [hc, Bool.or_true]
    rw [if_neg Bool.false_ne_true, List.nil_append, List.cons_append, readDefault_cons hquote hcolon, if_pos hnumber,
      digitRun_append hs hrest, afterDigits_append hs hrest, hvalue]

theorem readDefault_word {name : String} (h : IsName name) (hdigit : Stops Char.isDigit name.toList)
    (hrest : Stops isNameChar rest) : readDefault (name.toList ++ rest) = .ok (wordNode name, rest) := by
  have hread := readName_name h hrest
  obtain ⟨c, s, hcs, hc⟩ := h.head
  rw [hcs, stops_cons] at hdigit
  have hquote : c ≠ '"' := ne_of_sort hc (by decide)
  have hcolon : c ≠ ':' := ne_of_sort hc (by decide)
  have hminus : (c == '-') = false := beq_eq_false_iff_ne.2 (ne_of_sort hc (by decide))
  rw [hcs, List.cons_append] at hread ⊢
  rw [readDefault_cons hquote hcolon, hminus, hdigit, hread]
  rfl

/-- A spelt default value is read, and the text after it is left. -/
theorem readDefault_text {node : Node} {text : List Char} (h : DefaultText node text) (hrest : Closes rest) :
    readDefault (text ++ rest) = .ok (node, rest) := by
  have hname : Stops isNameChar rest := hrest.stops noBlank_isNameChar (by decide) (by decide) (by decide)
  have hdigit : Stops Char.isDigit rest := hrest.stops noBlank_isDigit (by decide) (by decide) (by decide)
  cases h with
  | int negative hne hdigits hvalue => exact readDefault_int negative hne hdigits hvalue hdigit
  | str h =>
    rw [List.cons_append, List.cons_append, List.append_assoc, List.singleton_append, readDefault, readString_text h]
    dsimp only
    rw [String.ofList_toList]
  | sym h =>
    rw [List.cons_append, readDefault, readName_name h hname]
    rfl
  | word h hword => exact readDefault_word h hword hname

theorem DefaultText.begins {node : Node} {text : List Char} (h : DefaultText node text) : Begins text := by
  cases h with
  | int negative hne hdigits hvalue =>
    cases negative with
    | true => exact begins_cons (by decide) (by decide) _
    | false =>
      obtain ⟨c, s, rfl⟩ := List.exists_cons_of_ne_nil hne
      exact begins_digit (hdigits c List.mem_cons_self) s
  | str h => exact begins_cons (by decide) (by decide) _
  | sym h => exact begins_cons (by decide) (by decide) _
  | word h hword => exact h.begins

/-! ## Parameters without patterns -/

theorem readFlat_name {name : String} (h : IsName name) (hrest : Stops isNameChar rest) :
    readFlat (name.toList ++ rest) = readNamed name rest := by
  have hread := readName_name h hrest
  obtain ⟨c, s, hcs, hc⟩ := h.head
  rw [hcs, List.cons_append] at hread ⊢
  unfold readFlat
  split
  · rename_i heq
    exact absurd (List.cons.inj heq).1 (ne_of_sort hc (by decide))
  · rename_i heq
    exact absurd (List.cons.inj heq).1 (ne_of_sort hc (by decide))
  · rename_i heq
    exact absurd (List.cons.inj heq).1 (ne_of_sort hc (by decide))
  · rename_i heq
    exact absurd (List.cons.inj heq).1 (ne_of_sort hc (by decide))
  · rw [hread]

theorem readOptionalName_text (kind : Kind) {name? : Option String} (h : ∀ name ∈ name?, IsName name)
    (hrest : Stops isNameChar rest) :
    readOptionalName kind ((name?.getD "").toList ++ rest) = (starNode kind name?, rest) := by
  unfold readOptionalName
  cases name? with
  | none =>
    rw [Option.getD_none, String.toList_empty, List.nil_append, scanName?_none hrest]
    rfl
  | some name =>
    rw [Option.getD_some, scanName?_name (h name rfl) hrest]
    rfl

/-- a name that may be missing does not begin with a star -/
theorem stops_optionalName {name? : Option String} (h : ∀ name ∈ name?, IsName name) (hrest : Closes rest) :
    Stops (· == '*') ((name?.getD "").toList ++ rest) := by
  cases name? with
  | none => exact hrest.stops (by decide) (by decide) (by decide) (by decide)
  | some name => exact (h name rfl).stops (by decide) rest

theorem readKeywordRest_text {name? : Option String} (h : ∀ name ∈ name?, IsName name ∧ name ≠ "nil")
    (hrest : Stops isNameChar rest) :
    readKeywordRest ((name?.getD "").toList ++ rest) = (starNode .kwrestarg name?, rest) := by
  unfold readKeywordRest
  cases name? with
  | none =>
    rw [Option.getD_none, String.toList_empty, List.nil_append, scanName?_none hrest]
    rfl
  | some name =>
    obtain ⟨hname, hnil⟩ := h name rfl
    rw [Option.getD_some, scanName?_name hname hrest]
    exact if_neg hnil

theorem readKeywordRest_nil (hrest : Stops isNameChar rest) :
    readKeywordRest (['n', 'i', 'l'] ++ rest) = (.leaf .kwnilarg, rest) := by
  have hname : IsName "nil" := by decide
  have hscan := scanName?_name hname hrest
  unfold readKeywordRest
  rw [show ['n', 'i', 'l'] = "nil".toList from rfl, hscan]
  rfl

/-- after a name that no colon follows, the white space decides nothing -/
theorem readNamed_other (name : String) {s : List Char} (h : Stops (· == ':') s) :
    readNamed name s =
      match skipBlank s with
      | '=' :: rest =>
        (readDefault (skipBlank rest)).map fun (default, rest) =>
          (.node ⟨.optarg, [.symbol name, .ofNode default]⟩, rest)
      | rest => .ok (.bare name, rest) := by
  unfold readNamed
  split
  · rw [stops_cons] at h
    exact absurd h (by decide)
  · rfl

theorem readNamed_bare (name : String) (hrest : Closes rest) :
    readNamed name rest = .ok (.bare name, skipBlank rest) := by
  rw [readNamed_other name (hrest.stops (by decide) (by decide) (by decide) (by decide))]
  unfold Closes at hrest
  split
  · rename_i heq
    rw [heq] at hrest
    exact absurd hrest (by simp [atParamEnd])
  · rfl

theorem readNamed_equals (name : String) {before : List Char} (hbefore : Blanks before) (s : List Char) :
    readNamed name (before ++ '=' :: s) =
      (readDefault (skipBlank s)).map fun (default, rest) =>
        (.node ⟨.optarg, [.symbol name, .ofNode default]⟩, rest) := by
  have hequals : Stops (· == ':') ('=' :: s) := by
    rw [stops_cons]
    decide
  rw [readNamed_other name (stops_blanks (by decide) hbefore hequals), skipBlank_append hbefore,
    skipBlank_cons (by decide)]
  rfl

theorem readNamed_optional (name : String) {default : Node} {before after text : List Char} (hbefore : Blanks before)
    (hafter : Blanks after) (hdefault : DefaultText default text) (hrest : Closes rest) :
    readNamed name (before ++ '=' :: (after ++ (text ++ rest))) =
      .ok (.node ⟨.optarg, [.symbol name, .ofNode default]⟩, rest) := by
  have hread : readDefault (skipBlank (after ++ (text ++ rest))) = .ok (default, rest) := by
    rw [skipBlank_append hafter, (hdefault.begins.append rest).skipBlank_eq, readDefault_text hdefault hrest]
  rw [readNamed_equals name hbefore, hread]
  rfl

theorem readNamed_colon (name : String) (s : List Char) :
    readNamed name (':' :: s) =
      if atParamEnd (skipBlank s) then .ok (.node ⟨.kwarg, [.symbol name]⟩, skipBlank s)
      else (readDefault (skipBlank s)).map fun (default, rest) =>
        (.node ⟨.kwoptarg, [.symbol name, .ofNode default]⟩, rest) := rfl

theorem readNamed_keyword (name : String) (hrest : Closes rest) :
    readNamed name (':' :: rest) = .ok (.node ⟨.kwarg, [.symbol name]⟩, skipBlank rest) := by
  rw [readNamed_colon]
  exact if_pos hrest

theorem readNamed_keywordDefault (name : String) {default : Node} {after text : List Char} (hafter : Blanks after)
    (hdefault : DefaultText default text) (hrest : Closes rest) :
    readNamed name (':' :: (after ++ (text ++ rest))) =
      .ok (.node ⟨.kwoptarg, [.symbol name, .ofNode default]⟩, rest) := by
  have hbegins := hdefault.begins.append rest
  rw [readNamed_colon, skipBlank_append hafter, hbegins.skipBlank_eq, hbegins.not_atParamEnd, if_neg Bool.false_ne_true,
    readDefault_text hdefault hrest]
  rfl

theorem readFlat_star {s : List Char} (h : Stops (· == '*') s) :
    readFlat ('*' :: s) = .ok (.node (readOptionalName .restarg s).1, (readOptionalName .restarg s).2) := by
  cases s with
  | nil => rfl
  | cons c s =>
    rw [stops_cons] at h
    unfold readFlat
    split
    · rename_i heq
      cases heq
    · rename_i heq
      obtain ⟨rfl, -⟩ := List.cons.inj (List.cons.inj heq).2
      exact absurd h (by decide)
    · rename_i heq
      rw [(List.cons.inj heq).2]
    · rename_i heq
      cases heq
    · rename_i hstar _
      exact absurd rfl (hstar (c :: s))

/-- **A spelt parameter without parentheses is read**, up to white space before the text that follows it. -/
theorem readFlat_text {item : Item} {text : List Char} (h : FlatText item text) (hrest : Closes rest) :
    ∃ left, skipBlank left = skipBlank rest ∧ readFlat (text ++ rest) = .ok (item, left) := by
  have hname : Stops isNameChar rest := hrest.stops noBlank_isNameChar (by decide) (by decide) (by decide)
  have hcolon (s : List Char) : Stops isNameChar (':' :: s) := by
    rw [stops_cons]
    decide
  cases h with
  | bare h =>
    refine ⟨skipBlank rest, skipBlank_skipBlank rest, ?_⟩
    rw [readFlat_name h hname, readNamed_bare _ hrest]
  | @optional name default before after text h hbefore hafter hdefault =>
    have hequals : Stops isNameChar ('=' :: (after ++ (text ++ rest))) := by
      rw [stops_cons]
      decide
    refine ⟨rest, rfl, ?_⟩
    rw [List.append_assoc, List.append_assoc, List.cons_append, List.append_assoc,
      readFlat_name h (stops_blanks noBlank_isNameChar hbefore hequals),
      readNamed_optional name hbefore hafter hdefault hrest]
  | keyword h =>
    refine ⟨skipBlank rest, skipBlank_skipBlank rest, ?_⟩
    rw [List.append_assoc, List.singleton_append, readFlat_name h (hcolon _), readNamed_keyword _ hrest]
  | keywordDefault h hafter hdefault =>
    refine ⟨rest, rfl, ?_⟩
    rw [List.append_assoc, List.cons_append, List.append_assoc, readFlat_name h (hcolon _),
      readNamed_keywordDefault _ hafter hdefault hrest]
  | splat h =>
    refine ⟨rest, rfl, ?_⟩
    rw [List.cons_append, readFlat_star (stops_optionalName h hrest), readOptionalName_text .restarg h hname]
  | keywordSplat h =>
    refine ⟨rest, rfl, ?_⟩
    rw [List.cons_append, List.cons_append, readFlat, readKeywordRest_text h hname]
  | noKeywords =>
    refine ⟨rest, rfl, ?_⟩
    exact congrArg (fun found : Node × List Char => Except.ok (Item.node found.1, found.2)) (readKeywordRest_nil hname)
  | block h =>
    refine ⟨rest, rfl, ?_⟩
    rw [List.cons_append, readFlat, readOptionalName_text .blockarg h hname]
  | forward => exact ⟨rest, rfl, rfl⟩

/-! ## Patterns -/

theorem FlatText.begins {item : Item} {text : List Char} (h : FlatText item text) : Begins text := by
  cases h with
  | bare h => exact h.begins
  | optional h => exact h.begins.append _
  | keyword h => exact h.begins.append _
  | keywordDefault h => exact h.begins.append _
  | splat h => exact begins_cons (by decide) (by decide) _
  | keywordSplat h => exact begins_cons (by decide) (by decide) _
  | noKeywords => exact begins_cons (by decide) (by decide) _
  | block h => exact begins_cons (by decide) (by decide) _
  | forward => exact begins_cons (by decide) (by decide) _

theorem ItemText.begins {item : Item} {text : List Char} (h : ItemText item text) : Begins text := by
  cases h with
  | flat h => exact h.begins
  | group => exact begins_cons (by decide) (by decide) _

theorem FlatText.not_paren {item : Item} {text : List Char} (h : FlatText item text) (rest : List Char) :
    Stops (· == '(') (text ++ rest) := by
  cases h with
  | bare h => exact h.stops (by decide) _
  | optional h =>
    rw [List.append_assoc]
    exact h.stops (by decide) _
  | keyword h =>
    rw [List.append_assoc]
    exact h.stops (by decide) _
  | keywordDefault h =>
    rw [List.append_assoc]
    exact h.stops (by decide) _
  | splat h => exact (stops_cons _ _ _).2 (by decide)
  | keywordSplat h => exact (stops_cons _ _ _).2 (by decide)
  | noKeywords => exact (stops_cons _ _ _).2 (by decide)
  | block h => exact (stops_cons _ _ _).2 (by decide)
  | forward => exact (stops_cons _ _ _).2 (by decide)

/-- what is read after an item has been handed on -/
def resume : Except Fault Delivery → Except Fault (Item × List Char)
  | .error fault => .error fault
  | .ok (.complete item rest) => .ok (item, rest)
  | .ok (.more patterns rest) => readItem patterns rest

theorem readItem_paren (patterns : List OpenPattern) (s : List Char) :
    readItem patterns ('(' :: s) = readItem (⟨.leading, []⟩ :: patterns) (skipBlank s) := by
  rw [readItem]

theorem readItem_flat (patterns : List OpenPattern) {s left : List Char} {item : Item} (hparen : Stops (· == '(') s)
    (h : readFlat s = .ok (item, left)) : readItem patterns s = resume (item.deliver patterns left) := by
  rw [readItem]
  · split
    · rename_i heq
      rw [h] at heq
      cases heq
    · rename_i heq
      rw [h] at heq
      obtain ⟨rfl, rfl⟩ := Prod.mk.inj (Except.ok.inj heq)
      unfold resume
      split <;> simp_all
  · rintro rest rfl
    rw [stops_cons] at hparen
    exact absurd hparen (by decide)

/-- The item is read from the text wherever a parameter may end after it, and is handed on with what is left. -/
def Reads (item : Item) (text : List Char) : Prop :=
  ∀ (patterns : List OpenPattern) {rest : List Char}, Closes rest →
    ∃ left, skipBlank left = skipBlank rest ∧ readItem patterns (text ++ rest) = resume (item.deliver patterns left)

theorem FlatText.reads {item : Item} {text : List Char} (h : FlatText item text) : Reads item text := by
  intro patterns rest hrest
  obtain ⟨left, hleft, hread⟩ := readFlat_text h hrest
  exact ⟨left, hleft, readItem_flat patterns (h.not_paren rest) hread⟩

section

variable {item : Item} {slot next : Slot} {left rest : List Char}

/-- a closing parenthesis makes an item of the pattern, which is handed on in turn -/
theorem deliver_close (recent : List Node) (outer : List OpenPattern) (hpattern : item.isPattern = true)
    (hnext : slot.next? item.kind = some next) (hend : skipBlank left = ')' :: rest) :
    item.deliver (⟨slot, recent⟩ :: outer) left =
      Item.deliver (.group (item.toNode :: recent).reverse) outer rest := by
  rw [Item.deliver, if_pos hpattern]
  simp only [hnext, hend]

theorem deliver_comma (recent : List Node) (outer : List OpenPattern) (hpattern : item.isPattern = true)
    (hnext : slot.next? item.kind = some next) (hend : skipBlank left = ',' :: rest) :
    item.deliver (⟨slot, recent⟩ :: outer) left =
      .ok (.more (⟨next, item.toNode :: recent⟩ :: outer) (skipBlank rest)) := by
  rw [Item.deliver, if_pos hpattern]
  simp only [hnext, hend]

end

theorem skipBlank_part {part : Spelt Item} (hspaced : part.Spaced) (hbegins : Begins part.text) (rest : List Char) :
    skipBlank (part.chars ++ rest) = part.text ++ (part.after ++ rest) := by
  unfold Spelt.chars
  rw [List.append_assoc, List.append_assoc, skipBlank_append hspaced.1, (hbegins.append _).skipBlank_eq]

/-- **The parts of an open pattern are read up to its closing parenthesis**, which hands the pattern on. -/
theorem readItem_parts {parts : List (Spelt Item)} (hne : parts ≠ []) (hspaced : ∀ part ∈ parts, part.Spaced)
    (hbegins : ∀ part ∈ parts, Begins part.text) (hreads : ∀ part ∈ parts, Reads part.value part.text)
    (hpattern : ∀ part ∈ parts, part.value.isPattern = true) {slot last : Slot}
    (hslots : slot.run? ((values parts).map Item.kind) = some last) (recent : List Node) (patterns : List OpenPattern)
    (rest : List Char) :
    readItem (⟨slot, recent⟩ :: patterns) (skipBlank (joined parts ++ ')' :: rest)) =
      resume (Item.deliver (.group (recent.reverse ++ (values parts).map Item.toNode)) patterns rest) := by
  induction parts generalizing slot recent with
  | nil => exact absurd rfl hne
  | cons part later ih =>
    rw [List.forall_mem_cons] at hspaced hbegins hreads hpattern
    obtain ⟨next, hnext, hrun⟩ := Option.bind_eq_some_iff.1 hslots
    by_cases hlater : later = []
    · -- the last part: the parenthesis closes the pattern
      subst hlater
      have hend : skipBlank (part.after ++ ')' :: rest) = ')' :: rest :=
        skipBlank_append_cons hspaced.1.2 (by decide) rest
      obtain ⟨left, hleft, hread⟩ := hreads.1 (⟨slot, recent⟩ :: patterns) (closes_of_skipBlank hend rfl)
      calc readItem (⟨slot, recent⟩ :: patterns) (skipBlank (joined [part] ++ ')' :: rest))
          = readItem (⟨slot, recent⟩ :: patterns) (part.text ++ (part.after ++ ')' :: rest)) := by
            rw [joined, skipBlank_part hspaced.1 hbegins.1]
        _ = resume (part.value.deliver (⟨slot, recent⟩ :: patterns) left) := hread
        _ = resume (Item.deliver (.group (part.value.toNode :: recent).reverse) patterns rest) := by
            rw [deliver_close recent patterns hpattern.1 hnext (hleft.trans hend)]
        _ = resume (Item.deliver (.group (recent.reverse ++ [part.value.toNode])) patterns rest) := by
            rw [List.reverse_cons]
    · have hend : skipBlank (part.after ++ ',' :: (joined later ++ ')' :: rest)) =
          ',' :: (joined later ++ ')' :: rest) := skipBlank_append_cons hspaced.1.2 (by decide) _
      obtain ⟨left, hleft, hread⟩ := hreads.1 (⟨slot, recent⟩ :: patterns) (closes_of_skipBlank hend rfl)
      have hparts := ih hlater hspaced.2 hbegins.2 hreads.2 hpattern.2 hrun (part.value.toNode :: recent)
      rw [List.reverse_cons, List.append_assoc] at hparts
      calc readItem (⟨slot, recent⟩ :: patterns) (skipBlank (joined (part :: later) ++ ')' :: rest))
          = readItem (⟨slot, recent⟩ :: patterns)
              (part.text ++ (part.after ++ ',' :: (joined later ++ ')' :: rest))) := by
            rw [joined_cons part hlater, List.append_assoc, List.cons_append, skipBlank_part hspaced.1 hbegins.1]
        _ = resume (part.value.deliver (⟨slot, recent⟩ :: patterns) left) := hread
        _ = readItem (⟨next, part.value.toNode :: recent⟩ :: patterns) (skipBlank (joined later ++ ')' :: rest)) := by
            rw [deliver_comma recent patterns hpattern.1 hnext (hleft.trans hend)]
            rfl
        _ = resume (Item.deliver (.group (recent.reverse ++ (values (part :: later)).map Item.toNode)) patterns rest) :=
            hparts

theorem isPattern_of_kind {item : Item} (h : item.kind = .arg ∨ item.kind = .mlhs ∨ item.kind = .restarg) :
    item.isPattern = true := by
  simpa [Item.isPattern, or_assoc] using h

/-- **A spelt parameter is read.** -/
theorem ItemText.reads {item : Item} {text : List Char} (h : ItemText item text) : Reads item text := by
  induction h with
  | flat h => exact h.reads
  | @group parts hspaced htext hpattern ih =>
    intro patterns rest hrest
    have hne : parts ≠ [] := by
      rw [values, List.map_map] at hpattern
      exact hpattern.parts_ne_nil
    have hkind : ∀ part ∈ parts, part.value.isPattern = true := by
      intro part hpart
      exact isPattern_of_kind (hpattern.patterns _ (List.mem_map_of_mem (List.mem_map_of_mem hpart)))
    have hbegins : ∀ part ∈ parts, Begins part.text := by
      intro part hpart
      exact (htext part hpart).begins
    obtain ⟨last, hslots, _⟩ := Slot.passes_pattern hpattern
    refine ⟨rest, rfl, ?_⟩
    rw [List.append_assoc, List.cons_append, List.singleton_append, readItem_paren]
    exact readItem_parts hne hspaced hbegins ih hkind hslots [] patterns rest

end RubySignature.Signature
