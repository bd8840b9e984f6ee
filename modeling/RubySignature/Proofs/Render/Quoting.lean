/-
What stands between the quotes of a literal.

A reader of the literal goes from left to right, and a backslash takes the next character with it (`pieces?`). `Quotes`
says that this goes well and gives back the text: the reader comes to no quote before the closing one, no `#` opens an
interpolation, and the controls that are escaped occur nowhere as they are.

A text is written character by character, each of them in one of two ways (`WrittenAs`). Whether a `#` is escaped depends
on the character after it in the text. Since what opens an interpolation is written as it is, that is also the character
after it in the literal, so each character keeps what holds of the literal after it (`Quotes.cons`).

`quoting_faithful` is the result for strings and symbols, wherever in a tree they stand.
-/
import Mathlib.Data.List.Chain
import RubySignature.Proofs.Render.Writing
import RubySignature.Proofs.Text.Symbols

namespace RubySignature.Literal

/-! ## Reading a literal -/

/-- what a reader of a literal comes to next -/
inductive Piece where
  /-- a character without a backslash -/
  | raw (c : Char)
  /-- a backslash with the character after it -/
  | escaped (c : Char)
  deriving DecidableEq, Repr

/-- What the text between the quotes is read as, unless it ends in a backslash that takes nothing with it. -/
def pieces? : List Char → Option (List Piece)
  | [] => some []
  | ['\\'] => none
  | '\\' :: c :: rest => (pieces? rest).map (.escaped c :: ·)
  | c :: rest => (pieces? rest).map (.raw c :: ·)

theorem pieces?_raw {c : Char} (h : c ≠ '\\') (rest : List Char) :
    pieces? (c :: rest) = (pieces? rest).map (.raw c :: ·) := by
  rw [pieces?]
  · exact fun hc => absurd hc h
  · exact fun _ _ hc => absurd hc h

namespace Piece

def value : Piece → Char
  | .escaped 'n' => '\n'
  | .escaped 't' => '\t'
  | .escaped 'r' => '\r'
  | .escaped 'e' => '\x1b'
  | .escaped c => c
  | .raw c => c

/-- Next to each other the two pieces open no interpolation. -/
def Inert (first second : Piece) : Prop := first = .raw '#' → second ∉ [.raw '{', .raw '@', .raw '$']

end Piece

/-- the controls that are escaped in a literal -/
def controls : List Char := ['\n', '\t', '\r', '\x1b']

/-- What stands between the quotes is read as the pieces, and they are those of the text. -/
structure Quotes (written : List Char) (pieces : List Piece) (text : List Char) : Prop where
  read : pieces? written = some pieces
  closed : .raw '"' ∉ pieces
  inert : pieces.IsChain Piece.Inert
  visible : ∀ c ∈ written, c ∉ controls
  value : pieces.map Piece.value = text

/-- what stands between the quotes is read as one text only -/
theorem Quotes.unique {written text other : List Char} {pieces otherPieces : List Piece} (h : Quotes written pieces text)
    (hother : Quotes written otherPieces other) : text = other := by
  have hpieces := Option.some.inj (h.read.symm.trans hother.read)
  rw [← h.value, ← hother.value, hpieces]

/-! ## Writing a literal -/

/-- how a character is written where the given one comes after it, and the piece that it is read as -/
inductive WrittenAs (next? : Option Char) (c : Char) : List Char → Piece → Prop where
  | raw (hplain : c ∉ '"' :: '\\' :: controls) (hinert : c = '#' → ∀ d ∈ next?, opensInterpolation d = false) :
    WrittenAs next? c [c] (.raw c)
  | escaped {d : Char} (hvisible : d ∉ controls) (hvalue : (Piece.escaped d).value = c) :
    WrittenAs next? c ['\\', d] (.escaped d)

theorem WrittenAs.length_pos {next? : Option Char} {c : Char} {written : List Char} {piece : Piece}
    (h : WrittenAs next? c written piece) : 0 < written.length := by
  cases h with
  | raw => exact Nat.zero_lt_one
  | escaped => exact Nat.zero_lt_two

theorem writtenAs_escape (next? : Option Char) (c : Char) : ∃ piece, WrittenAs next? c (escape next? c) piece := by
  unfold escape
  split
  · exact ⟨_, .escaped (by decide) rfl⟩
  · exact ⟨_, .escaped (by decide) rfl⟩
  · exact ⟨_, .escaped (by decide) rfl⟩
  · exact ⟨_, .escaped (by decide) rfl⟩
  · exact ⟨_, .escaped (by decide) rfl⟩
  · exact ⟨_, .escaped (by decide) rfl⟩
  · split
    · exact ⟨_, .escaped (by decide) rfl⟩
    · rename_i hopens
      refine ⟨_, .raw (by decide) fun _ d hd => ?_⟩
      rw [hd] at hopens
      exact Bool.eq_false_iff.2 hopens
  · rename_i hquote hback hline htab hreturn hescape hhash
    refine ⟨_, .raw ?_ fun hc => absurd hc hhash⟩
    simp only [controls, List.mem_cons, List.not_mem_nil, or_false, not_or]
    exact ⟨hquote, hback, hline, htab, hreturn, hescape⟩

/-- **Step.** One more character before a text is read as this character, and changes nothing about the others. -/
theorem Quotes.cons {c : Char} {text later written : List Char} {piece : Piece} {pieces : List Piece}
    (hc : WrittenAs text.head? c written piece) (h : Quotes later pieces text) :
    Quotes (written ++ later) (piece :: pieces) (c :: text) := by
  cases hc with
  | raw hplain hinert =>
    simp only [List.mem_cons, not_or] at hplain
    obtain ⟨hquote, hback, hvisible⟩ := hplain
    have hnext : ∀ second ∈ pieces.head?, (Piece.raw c).Inert second := by
      rintro second hsecond hhash hopening
      -- a character that opens an interpolation is the next one of the text
      have htext : second.value ∈ text.head? := by
        rw [← h.value, List.head?_map, Option.mem_def.1 hsecond]
        rfl
      have hopens := hinert (Piece.raw.inj hhash) _ htext
      simp only [List.mem_cons, List.not_mem_nil, or_false] at hopening
      rcases hopening with rfl | rfl | rfl <;> cases hopens
    refine ⟨?_, ?_, List.isChain_cons.2 ⟨hnext, h.inert⟩, List.forall_mem_cons.2 ⟨hvisible, h.visible⟩, ?_⟩
    · rw [List.singleton_append, pieces?_raw hback, h.read]
      rfl
    · rw [List.mem_cons, not_or]
      exact ⟨fun heq => hquote (Piece.raw.inj heq).symm, h.closed⟩
    · rw [List.map_cons, h.value]
      rfl
  | @escaped d hvisible hvalue =>
    refine ⟨?_, ?_, List.isChain_cons.2 ⟨fun _ _ => nofun, h.inert⟩, ?_, ?_⟩
    · rw [List.cons_append, List.singleton_append, pieces?, h.read]
      rfl
    · rw [List.mem_cons, not_or]
      exact ⟨nofun, h.closed⟩
    · rw [List.cons_append, List.singleton_append, List.forall_mem_cons, List.forall_mem_cons]
      exact ⟨by decide, hvisible, h.visible⟩
    · rw [List.map_cons, h.value, hvalue]

/-- **Run.** What is written between the quotes of the literal of a text is read as the text. -/
theorem quotes_body (text : List Char) : ∃ pieces, Quotes (body text) pieces text := by
  induction text with
  | nil => exact ⟨[], rfl, List.not_mem_nil, .nil, List.forall_mem_nil _, rfl⟩
  | cons c text ih =>
    obtain ⟨pieces, hpieces⟩ := ih
    obtain ⟨piece, hpiece⟩ := writtenAs_escape text.head? c
    exact ⟨piece :: pieces, hpieces.cons hpiece⟩

theorem length_le_body (text : List Char) : text.length ≤ (body text).length := by
  induction text with
  | nil => exact Nat.zero_le _
  | cons c text ih =>
    obtain ⟨piece, hpiece⟩ := writtenAs_escape text.head? c
    have hpos := hpiece.length_pos
    rw [body, List.length_cons, List.length_append]
    omega

theorem strChars_inj {text other : List Char} (h : strChars text = strChars other) : text = other := by
  obtain ⟨pieces, htext⟩ := quotes_body text
  obtain ⟨otherPieces, hother⟩ := quotes_body other
  have hbody : body text = body other := List.append_cancel_right (List.cons.inj h).2
  rw [← hbody] at hother
  exact htext.unique hother

/-- a text is never written as it is -/
theorem strChars_ne (text : List Char) : strChars text ≠ text := by
  intro h
  have hlength := congrArg List.length h
  have hle := length_le_body text
  simp only [strChars, List.length_append, List.length_cons] at hlength
  omega

/-! ## Symbols -/

section

variable {name other : List Char}

theorem symChars_of_isPlain (h : Symbol.isPlainChars name = true) : symChars name = ':' :: name := by
  rw [symChars, if_pos h]

theorem symChars_of_not_isPlain (h : ¬ Symbol.isPlainChars name = true) : symChars name = ':' :: strChars name := by
  rw [symChars, if_neg h]

/-- a name that is written bare is not the literal of a text -/
theorem ne_strChars_of_isPlain (h : Symbol.isPlainChars name = true) (text : List Char) : name ≠ strChars text := by
  rintro rfl
  have hquote := (Symbol.isPlainChars_iff.1 h).sort_of_mem (List.mem_cons_self : '"' ∈ strChars text)
  exact absurd hquote (by decide)

theorem symChars_inj (h : symChars name = symChars other) : name = other := by
  by_cases hname : Symbol.isPlainChars name = true
  · by_cases hother : Symbol.isPlainChars other = true
    · rw [symChars_of_isPlain hname, symChars_of_isPlain hother] at h
      exact (List.cons.inj h).2
    · rw [symChars_of_isPlain hname, symChars_of_not_isPlain hother] at h
      exact absurd (List.cons.inj h).2 (ne_strChars_of_isPlain hname other)
  · by_cases hother : Symbol.isPlainChars other = true
    · rw [symChars_of_not_isPlain hname, symChars_of_isPlain hother] at h
      exact absurd (List.cons.inj h).2.symm (ne_strChars_of_isPlain hother name)
    · rw [symChars_of_not_isPlain hname, symChars_of_not_isPlain hother] at h
      exact strChars_inj (List.cons.inj h).2

end

/-- A symbol is written bare exactly if its name is that of a bare symbol, and in quotes otherwise. -/
theorem exists_spelling (name : List Char) : ∃ written, symChars name = ':' :: written ∧
    (written = name ↔ Symbol.isPlainChars name = true) ∧
    (Symbol.isPlainChars name = false → ∃ body pieces, Quotes body pieces name ∧ written = '"' :: body ++ ['"']) := by
  by_cases hplain : Symbol.isPlainChars name = true
  · refine ⟨name, symChars_of_isPlain hplain, iff_of_true rfl hplain, fun hquoted => ?_⟩
    rw [hplain] at hquoted
    cases hquoted
  · obtain ⟨pieces, hpieces⟩ := quotes_body name
    exact ⟨strChars name, symChars_of_not_isPlain hplain, iff_of_false (strChars_ne name) hplain,
      fun _ => ⟨body name, pieces, hpieces, rfl⟩⟩

/-! ## Literals in a tree -/

section

variable {levels : Nat} {written : String}

theorem renders_str (levels : Nat) (text : String) : Renders (levels + 1) ⟨.str, [.str text]⟩ (str text) :=
  renders_of_writes (writes_host rfl (RenderM.Writes.write (str text)))

theorem renders_sym (levels : Nat) (name : String) : Renders (levels + 1) ⟨.sym, [.symbol name]⟩ (sym name) :=
  renders_of_writes (writes_host rfl (RenderM.Writes.write (sym name)))

theorem eq_str_of_renders {text : String} (h : Renders (levels + 1) ⟨.str, [.str text]⟩ written) : written = str text :=
  h.unique (renders_str levels text)

theorem eq_sym_of_renders {name : String} (h : Renders (levels + 1) ⟨.sym, [.symbol name]⟩ written) :
    written = sym name :=
  h.unique (renders_sym levels name)

end

/-- **Quoting is faithful and never starts an interpolation.** A string is written as quotes around what is read as the
string. A symbol is written as a colon and its name exactly if that is the name of a bare symbol, and otherwise as a colon
and quotes around what is read as its name. So different strings are never written alike, nor are different symbols. -/
theorem quoting_faithful :
    (∀ text : String, ∃ body pieces, Quotes body pieces text.toList ∧
      ∀ levels, Renders (levels + 1) ⟨.str, [.str text]⟩ (String.ofList ('"' :: body ++ ['"']))) ∧
    (∀ name : String, (Symbol.isPlain name = true ↔ Symbol.PlainName name.toList) ∧
      ∃ written, (∀ levels, Renders (levels + 1) ⟨.sym, [.symbol name]⟩ (String.ofList (':' :: written))) ∧
        (written = name.toList ↔ Symbol.isPlain name = true) ∧
        (Symbol.isPlain name = false → ∃ body pieces, Quotes body pieces name.toList ∧ written = '"' :: body ++ ['"'])) ∧
    (∀ levels written text other, Renders (levels + 1) ⟨.str, [.str text]⟩ written →
      Renders (levels + 1) ⟨.str, [.str other]⟩ written → text = other) ∧
    ∀ levels written name other, Renders (levels + 1) ⟨.sym, [.symbol name]⟩ written →
      Renders (levels + 1) ⟨.sym, [.symbol other]⟩ written → name = other := by
  refine ⟨?_, ?_, ?_, ?_⟩
  · intro text
    obtain ⟨pieces, hpieces⟩ := quotes_body text.toList
    exact ⟨body text.toList, pieces, hpieces, fun levels => renders_str levels text⟩
  · intro name
    obtain ⟨written, hwritten, hspelling⟩ := exists_spelling name.toList
    refine ⟨Symbol.isPlainChars_iff, written, fun levels => ?_, hspelling⟩
    rw [← hwritten]
    exact renders_sym levels name
  · intro levels written text other htext hother
    have hsame : str text = str other := (eq_str_of_renders htext).symm.trans (eq_str_of_renders hother)
    exact String.toList_inj.1 (strChars_inj (String.ofList_inj.1 hsame))
  · intro levels written name other hname hother
    have hsame : sym name = sym other := (eq_sym_of_renders hname).symm.trans (eq_sym_of_renders hother)
    exact String.toList_inj.1 (symChars_inj (String.ofList_inj.1 hsame))

/-- of several `#` the one before the brace is escaped, and a backslash before it does not take its backslash away -/
example : body ['#', '#', '{'] = ['#', '\\', '#', '{'] ∧ body ['\\', '#', '{'] = ['\\', '\\', '\\', '#', '{'] :=
  ⟨rfl, rfl⟩

end RubySignature.Literal
