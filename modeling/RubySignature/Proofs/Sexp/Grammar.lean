/-
The grammar of s-expression notation.

Here the notation is described by itself, without a reader: the relations below say what a text spells, and choose
nothing. Layout may stand between any two tokens and is never needed. Where a token could go on, the relation says where
it ends: a name and a bare symbol take every character that they can have, a `nil` is not the start of a longer word, and
no longer part of the text that starts where a number starts is a number (`Longest`).

A text is spelt in two steps, as it is read: a `Form` keeps names and integers as they are written, and `Denotes` says
what tree a form stands for, if its names are kinds and its integers fit 64 bits. `Spells` is both together.
-/
import RubySignature.Double.Literal
import RubySignature.Proofs.Text.Runs
import RubySignature.Sexp.Form
import RubySignature.Tree.Node

namespace RubySignature.Sexp

/-! ## Layout -/

/-- the text after some blanks and comments, not necessarily all of them -/
inductive Layout : List Char → List Char → Prop where
  | none (rest : List Char) : Layout rest rest
  | blank {c : Char} {s rest : List Char} (hc : isSpace c = true) (hs : Layout s rest) : Layout (c :: s) rest
  /-- a comment goes on to the next line end or to the end of the text -/
  | comment {body s rest : List Char} (hbody : ∀ c ∈ body, isLineEnd c = false)
    (hend : ∀ c ∈ s.head?, isLineEnd c = true) (hs : Layout s rest) : Layout ('#' :: (body ++ s)) rest

/-! ## Leaves -/

/-- what is written between quotes, and the text it stands for -/
inductive QuotedText : List Char → List Char → Prop where
  | nil : QuotedText [] []
  | plain {c : Char} {written text : List Char} (hquote : c ≠ '"') (hback : c ≠ '\\') (h : QuotedText written text) :
    QuotedText (c :: written) (c :: text)
  | escaped (c : Char) {written text : List Char} (h : QuotedText written text) :
    QuotedText ('\\' :: c :: written) (Quoted.unescape c :: text)

def Digits (s : List Char) : Prop := s ≠ [] ∧ ∀ c ∈ s, c.isDigit = true

def minus (negative : Bool) : List Char := if negative then ['-'] else []

/-- an integer with or without a minus sign, and its value -/
inductive IntegerText : List Char → Int → Prop where
  | intro (negative : Bool) {digits : List Char} (h : Digits digits) :
    IntegerText (minus negative ++ digits) (if negative then -(digitsValue digits : Int) else digitsValue digits)

/-- an exponent: its mark, an optional sign of either sort, and digits -/
inductive ExponentText : List Char → Prop where
  | intro {mark : Char} {sign digits : List Char} (hmark : mark = 'e' ∨ mark = 'E')
    (hsign : sign = [] ∨ sign = ['-'] ∨ sign = ['+']) (hdigits : Digits digits) :
    ExponentText (mark :: (sign ++ digits))

/-- a number that is no integer: with a fraction, an exponent, or both -/
inductive FloatText : List Char → Prop where
  | fraction (negative : Bool) {whole digits : List Char} (hwhole : Digits whole) (hdigits : Digits digits) :
    FloatText (minus negative ++ (whole ++ '.' :: digits))
  | both (negative : Bool) {whole digits exponent : List Char} (hwhole : Digits whole) (hdigits : Digits digits)
    (hexponent : ExponentText exponent) : FloatText (minus negative ++ (whole ++ '.' :: (digits ++ exponent)))
  | exponent (negative : Bool) {whole exponent : List Char} (hwhole : Digits whole)
    (hexponent : ExponentText exponent) : FloatText (minus negative ++ (whole ++ exponent))

def NumberText (s : List Char) : Prop := (∃ value, IntegerText s value) ∨ FloatText s

/-- no longer number starts where this one does -/
def Longest (spelling rest : List Char) : Prop :=
  ∀ other, NumberText other → other <+: spelling ++ rest → other.length ≤ spelling.length

/-- a leaf at the front of a text, and the text after it -/
inductive LeafAt : Leaf → List Char → List Char → Prop where
  | quotedSymbol {written name : List Char} (h : QuotedText written name) (rest : List Char) :
    LeafAt (.symbol (String.ofList name)) (':' :: '"' :: (written ++ '"' :: rest)) rest
  | bareSymbol {name rest : List Char} (hne : name ≠ []) (hname : ∀ c ∈ name, isBareChar c = true)
    (hrest : Stops isBareChar rest) : LeafAt (.symbol (String.ofList name)) (':' :: (name ++ rest)) rest
  | integer {spelling rest : List Char} {value : Int} (h : IntegerText spelling value)
    (hlongest : Longest spelling rest) : LeafAt (.integer (String.ofList spelling)) (spelling ++ rest) rest
  | float {spelling rest : List Char} {value : Double} (h : FloatText spelling)
    (hvalue : Double.ofText? (String.ofList spelling) = some value) (hlongest : Longest spelling rest) :
    LeafAt (.float value) (spelling ++ rest) rest
  | str {written text : List Char} (h : QuotedText written text) (rest : List Char) :
    LeafAt (.str (String.ofList text)) ('"' :: (written ++ '"' :: rest)) rest
  | nil {rest : List Char} (hrest : Stops isKindChar rest) : LeafAt .nil ('n' :: 'i' :: 'l' :: rest) rest

/-! ## Nodes -/

/-- an opening parenthesis with the name after it, and the text after that -/
inductive OpeningAt : String → List Char → List Char → Prop where
  | intro {c : Char} {word s rest : List Char} (hlayout : Layout s (c :: (word ++ rest))) (hstart : isKindStart c = true)
    (hword : ∀ d ∈ word, isKindChar d = true) (hrest : Stops isKindChar rest) :
    OpeningAt (String.ofList (c :: word)) ('(' :: s) rest

mutual

/-- an item at the front of a text, and the text after it -/
inductive ItemAt : Form → List Char → List Char → Prop where
  | leaf {value : Leaf} {s rest : List Char} (h : LeafAt value s rest) : ItemAt (.leaf value) s rest
  | node {name : String} {items : List Form} {s inner rest : List Char} (hname : OpeningAt name s inner)
    (hitems : ItemsAt items inner rest) : ItemAt (.node name items) s rest

/-- the items of a node with its closing parenthesis, and the text after that -/
inductive ItemsAt : List Form → List Char → List Char → Prop where
  | closing {s rest : List Char} (hlayout : Layout s (')' :: rest)) : ItemsAt [] s rest
  | item {item : Form} {later : List Form} {s start next rest : List Char} (hlayout : Layout s start)
    (hitem : ItemAt item start next) (hlater : ItemsAt later next rest) : ItemsAt (item :: later) s rest

end

/-- a text that holds one node and nothing else but layout -/
def GroupText (group : Group) (text : List Char) : Prop :=
  ∃ start rest, Layout text start ∧ ItemAt group.toForm start rest ∧ Layout rest []

/-! ## Trees -/

/-- the child that a leaf stands for -/
inductive Leaf.Denotes : Leaf → Child → Prop where
  | symbol (name : String) : Denotes (.symbol name) (.symbol name)
  | integer {spelling : List Char} {value : Int64} (h : IntegerText spelling value.toInt) :
    Denotes (.integer (String.ofList spelling)) (.int value)
  | float (value : Double) : Denotes (.float value) (.float value)
  | str (text : String) : Denotes (.str text) (.str text)
  | nil : Denotes .nil .nil

mutual

inductive Form.Denotes : Form → Child → Prop where
  | leaf {value : Leaf} {child : Child} (h : value.Denotes child) : Form.Denotes (.leaf value) child
  | node (kind : Kind) {items : List Form} {children : List Child} (h : Form.AllDenote items children) :
    Form.Denotes (.node kind.name items) (.node kind children)

inductive Form.AllDenote : List Form → List Child → Prop where
  | nil : Form.AllDenote [] []
  | cons {item : Form} {later : List Form} {child : Child} {children : List Child} (h : Form.Denotes item child)
    (hlater : Form.AllDenote later children) : Form.AllDenote (item :: later) (child :: children)

end

/-- The text spells the node, with nothing but layout around it. -/
def Spells (node : Node) (text : List Char) : Prop :=
  ∃ group, GroupText group text ∧ Form.Denotes group.toForm (Child.ofNode node)

end RubySignature.Sexp
