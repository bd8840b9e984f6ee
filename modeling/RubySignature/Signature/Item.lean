/-
Parameters one by one.

An `Item` is a parameter before it is known whether it is the only one: a bare name and a parenthesized pattern become
different nodes alone between the bars of a block than among others. Patterns nest, so reading keeps the ones that are still
open on a stack. `Item.deliver` hands a finished item to the innermost of them, and each closing parenthesis makes a finished
item of the pattern it closes.
-/
import RubySignature.Signature.Default
import RubySignature.Signature.Slot

namespace RubySignature.Signature

/-- a parameter as it is written -/
inductive Item where
  /-- a name and nothing else -/
  | bare (name : String)
  /-- a pattern in parentheses -/
  | group (nodes : List Node)
  | node (single : Node)

namespace Item

/-- the kind of the parameter among others -/
def kind : Item → Kind
  | bare _ => .arg
  | group _ => .mlhs
  | node single => single.kind

/-- The parameter among others. -/
def toNode : Item → Node
  | bare name => ⟨.arg, [.symbol name]⟩
  | group nodes => .ofNodes .mlhs nodes
  | node single => single

/-- The parameter alone between the bars of a block. -/
def toSole : Item → Node
  | bare name => .ofNodes .procarg0 [⟨.arg, [.symbol name]⟩]
  | group nodes => .ofNodes .procarg0 nodes
  | node single => single

/-- Whether the parameter may stand in a pattern. -/
def isPattern (item : Item) : Bool := item.kind = .arg || item.kind = .mlhs || item.kind = .restarg

end Item

/-! ## Parameters without patterns -/

/-- Whether a keyword parameter without a default value ends here. -/
def atParamEnd : List Char → Bool
  | [] => true
  | c :: _ => c == ',' || c == ';' || c == ')'

/-- Reads a name that may be missing, as the only child of a node. -/
def readOptionalName (kind : Kind) (s : List Char) : Node × List Char :=
  match scanName? s with
  | some (name, rest) => (⟨kind, [.symbol name]⟩, rest)
  | none => (.leaf kind, s)

/-- Reads what follows the two stars of a keyword splat; the word `nil` refuses all keywords. -/
def readKeywordRest (s : List Char) : Node × List Char :=
  match scanName? s with
  | some (name, rest) => if name = "nil" then (.leaf .kwnilarg, rest) else (⟨.kwrestarg, [.symbol name]⟩, rest)
  | none => (.leaf .kwrestarg, s)

/-- Reads what follows the name of a parameter: a keyword's colon, an optional parameter's default value, or nothing. -/
def readNamed (name : String) : List Char → Except Fault (Item × List Char)
  | ':' :: rest =>
    if atParamEnd (skipBlank rest) then .ok (.node ⟨.kwarg, [.symbol name]⟩, skipBlank rest)
    else (readDefault (skipBlank rest)).map fun (default, rest) =>
      (.node ⟨.kwoptarg, [.symbol name, .ofNode default]⟩, rest)
  | s =>
    match skipBlank s with
    | '=' :: rest =>
      (readDefault (skipBlank rest)).map fun (default, rest) =>
        (.node ⟨.optarg, [.symbol name, .ofNode default]⟩, rest)
    | rest => .ok (.bare name, rest)

/-- Reads a parameter that is no parenthesized pattern. -/
def readFlat : List Char → Except Fault (Item × List Char)
  | '.' :: '.' :: '.' :: rest => .ok (.node (.leaf .forwardArg), rest)
  | '*' :: '*' :: rest =>
    let (node, rest) := readKeywordRest rest
    .ok (.node node, rest)
  | '*' :: rest =>
    let (node, rest) := readOptionalName .restarg rest
    .ok (.node node, rest)
  | '&' :: rest =>
    let (node, rest) := readOptionalName .blockarg rest
    .ok (.node node, rest)
  | s =>
    match readName s with
    | .ok (name, rest) => readNamed name rest
    | .error fault => .error fault

/-! ## Patterns -/

/-- a pattern whose closing parenthesis is still to come -/
structure OpenPattern where
  slot : Slot
  /-- the parts read so far, the latest first -/
  recent : List Node

/-- what a finished item leads to -/
inductive Delivery where
  /-- the whole parameter is read -/
  | complete (item : Item) (rest : List Char)
  /-- another part of the innermost open pattern has to follow -/
  | more (patterns : List OpenPattern) (rest : List Char)

def Delivery.rest : Delivery → List Char
  | complete _ rest => rest
  | more _ rest => rest

/-- Hands a finished item to the innermost open pattern; `rest` is the text after it. -/
def Item.deliver (item : Item) : List OpenPattern → List Char → Except Fault Delivery
  | [], rest => .ok (.complete item rest)
  | pattern :: outer, rest =>
    if item.isPattern then
      match pattern.slot.next? item.kind with
      | none => .error (.expected .soleSplat rest)
      | some slot =>
        match skipBlank rest with
        | ')' :: rest => Item.deliver (.group (item.toNode :: pattern.recent).reverse) outer rest
        | ',' :: rest => .ok (.more (⟨slot, item.toNode :: pattern.recent⟩ :: outer) (skipBlank rest))
        | rest => .error (.expected .patternEnd rest)
    else .error (.expected .pattern rest)

/-! ## Progress -/

theorem length_readOptionalName_le (kind : Kind) (s : List Char) : (readOptionalName kind s).2.length ≤ s.length := by
  unfold readOptionalName
  split
  · rename_i name left hscan
    exact Nat.le_of_lt (length_of_scanName? hscan)
  · exact Nat.le_refl _

theorem length_readKeywordRest_le (s : List Char) : (readKeywordRest s).2.length ≤ s.length := by
  unfold readKeywordRest
  split
  · rename_i name left hscan
    have hleft : left.length ≤ s.length := Nat.le_of_lt (length_of_scanName? hscan)
    split <;> exact hleft
  · exact Nat.le_refl _

theorem length_of_readNamed {name : String} {s rest : List Char} {item : Item}
    (h : readNamed name s = .ok (item, rest)) : rest.length ≤ s.length := by
  unfold readNamed at h
  split at h
  · rename_i tail
    have hskip := length_skipBlank_le tail
    split at h
    · obtain ⟨-, rfl⟩ := Prod.mk.inj (Except.ok.inj h)
      exact Nat.le_succ_of_le hskip
    · obtain ⟨default, hdefault⟩ := exists_of_map_eq_ok h fun _ => rfl
      have hshorter := length_of_readDefault hdefault
      rw [List.length_cons]
      omega
  · have hskip := length_skipBlank_le s
    split at h
    · rename_i tail hequals
      rw [hequals, List.length_cons] at hskip
      have htail := length_skipBlank_le tail
      obtain ⟨default, hdefault⟩ := exists_of_map_eq_ok h fun _ => rfl
      have hshorter := length_of_readDefault hdefault
      omega
    · obtain ⟨-, rfl⟩ := Prod.mk.inj (Except.ok.inj h)
      exact hskip

theorem length_of_readFlat {s rest : List Char} {item : Item} (h : readFlat s = .ok (item, rest)) :
    rest.length < s.length := by
  unfold readFlat at h
  -- forwarding, the two splats, a block parameter, or a name
  split at h
  · obtain ⟨-, rfl⟩ := Prod.mk.inj (Except.ok.inj h)
    rw [List.length_cons, List.length_cons, List.length_cons]
    omega
  · rename_i tail
    obtain ⟨-, rfl⟩ := Prod.mk.inj (Except.ok.inj h)
    exact Nat.lt_succ_of_lt (Nat.lt_succ_of_le (length_readKeywordRest_le tail))
  · obtain ⟨-, rfl⟩ := Prod.mk.inj (Except.ok.inj h)
    exact Nat.lt_succ_of_le (length_readOptionalName_le _ _)
  · obtain ⟨-, rfl⟩ := Prod.mk.inj (Except.ok.inj h)
    exact Nat.lt_succ_of_le (length_readOptionalName_le _ _)
  · split at h
    · rename_i name left hname
      exact Nat.lt_of_le_of_lt (length_of_readNamed h) (length_of_readName hname)
    · cases h

theorem length_of_deliver {item : Item} {patterns : List OpenPattern} {s : List Char} {delivery : Delivery}
    (h : item.deliver patterns s = .ok delivery) : delivery.rest.length ≤ s.length := by
  induction patterns generalizing item s with
  | nil =>
    obtain rfl := Except.ok.inj h
    exact Nat.le_refl _
  | cons pattern outer ih =>
    have hskip := length_skipBlank_le s
    unfold Item.deliver at h
    split at h
    · split at h
      · cases h
      · split at h
        · rename_i tail hclosing
          rw [hclosing, List.length_cons] at hskip
          have hdelivery := ih h
          omega
        · rename_i tail hcomma
          rw [hcomma, List.length_cons] at hskip
          have htail := length_skipBlank_le tail
          obtain rfl := Except.ok.inj h
          exact Nat.le_trans htail (Nat.le_of_succ_le hskip)
        · cases h
    · cases h

/-! ## Reading -/

/-- Reads a parameter inside the given open patterns, the innermost first, up to the end of the outermost. -/
def readItem (patterns : List OpenPattern) : List Char → Except Fault (Item × List Char)
  | '(' :: rest => readItem (⟨.leading, []⟩ :: patterns) (skipBlank rest)
  | s =>
    match _hf : readFlat s with
    | .error fault => .error fault
    | .ok (item, rest) =>
      match _hd : item.deliver patterns rest with
      | .error fault => .error fault
      | .ok (.complete item rest) => .ok (item, rest)
      | .ok (.more patterns rest) => readItem patterns rest
termination_by s => s.length
decreasing_by
  · exact Nat.lt_succ_of_le (length_skipBlank_le rest)
  · exact Nat.lt_of_le_of_lt (length_of_deliver _hd) (length_of_readFlat _hf)

end RubySignature.Signature
