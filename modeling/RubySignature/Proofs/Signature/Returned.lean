/-
What reading a parameter list gives.

Every list that is read has its parameters in signature order, with names that are names and patterns that are patterns,
and between the bars of a block it may have a sole parameter instead (`returned_of_read`). Reading keeps this from step to
step: the parts of an open pattern are parts of a pattern (`OpenPattern.Sound`), so an item that is handed on is sound
whether it completes the parameter or goes into a pattern (`sound_of_deliver`), and so is what the parameters of a list
are read as (`sound_of_readNormals`).
-/
import RubySignature.Proofs.Outcomes
import RubySignature.Proofs.Signature.Lists
import RubySignature.Proofs.Signature.Sections

namespace RubySignature.Signature

open Unicode

/-! ## What is read -/

/-- a default value as it is read; a string may hold any characters and a symbol be any name, but a call is of a name that
is read neither as a number nor as one of the four words -/
inductive ReadDefault : Node → Prop where
  | int (value : Int64) : ReadDefault ⟨.int, [.int value]⟩
  | str (text : String) : ReadDefault ⟨.str, [.str text]⟩
  | sym {name : String} (h : IsName name) : ReadDefault ⟨.sym, [.symbol name]⟩
  | word {kind : Kind} (h : kind ∈ [Kind.nilLiteral, .trueLiteral, .falseLiteral, .selfReference]) :
      ReadDefault (.leaf kind)
  | call {name : String} (h : IsName name) (hdigit : Stops Char.isDigit name.toList)
      (hword : name ∉ ["nil", "true", "false", "self"]) : ReadDefault ⟨.send, [.nil, .symbol name]⟩

inductive ReadParam : Node → Prop where
  | plain {node : Node} (h : IsParam node) : ReadParam node
  | defaulted {kind : Kind} {name : String} {default : Node} (hkind : kind = .optarg ∨ kind = .kwoptarg)
      (h : IsName name) (hdefault : ReadDefault default) : ReadParam ⟨kind, [.symbol name, .ofNode default]⟩

/-- a parameter list as it is read inside the given construct -/
inductive Returned (enclosing : Enclosing) : Node → Prop where
  | list {normals : List Node} {shadows : List String} (hnormals : ∀ node ∈ normals, ReadParam node)
      (horder : InOrder enclosing (normals.map Node.kind)) (hshadows : ∀ name ∈ shadows, IsName name) :
      Returned enclosing (.ofNodes .args (normals ++ shadows.map shadowNode))
  | sole {parts : List Node} {shadows : List String} (hblock : enclosing = .block)
      (hparts : ∀ node ∈ parts, IsParam node) (hpattern : IsPattern (parts.map Node.kind))
      (hshadows : ∀ name ∈ shadows, IsName name) :
      Returned enclosing (.ofNodes .args (.ofNodes .procarg0 parts :: shadows.map shadowNode))

/-- a parameter without a default value reads back -/
theorem ReadParam.isParam {node : Node} (h : ReadParam node) (hkind : node.kind ≠ .optarg ∧ node.kind ≠ .kwoptarg) :
    IsParam node := by
  cases h with
  | plain h => exact h
  | defaulted hdefaulted _ _ =>
    rcases hdefaulted with rfl | rfl
    · exact absurd rfl hkind.1
    · exact absurd rfl hkind.2

/-! ## Names and default values -/

variable {s rest : List Char} {name : String}

theorem isName_of_scanName? (h : scanName? s = some (name, rest)) : IsName name := by
  unfold scanName? at h
  split at h
  · cases h
  · rename_i hne
    obtain ⟨rfl, -⟩ := Prod.mk.inj (Option.some.inj h)
    unfold IsName
    rw [String.toList_ofList]
    exact ⟨by simpa using hne, List.all_eq_true.1 List.all_takeWhile⟩

theorem isName_of_readName (h : readName s = .ok (name, rest)) : IsName name := by
  unfold readName at h
  split at h
  · rename_i found hscan
    obtain rfl := Except.ok.inj h
    exact isName_of_scanName? hscan
  · cases h

/-- a name begins with what the text begins with -/
theorem stops_of_readName {p : Char → Bool} (h : readName s = .ok (name, rest)) (hs : Stops p s) :
    Stops p name.toList := by
  unfold readName scanName? at h
  split at h
  · rename_i found hscan
    obtain rfl := Except.ok.inj h
    split at hscan
    · cases hscan
    · obtain ⟨rfl, -⟩ := Prod.mk.inj (Option.some.inj hscan)
      rw [String.toList_ofList]
      cases s with
      | nil => exact stops_nil p
      | cons c s =>
        rw [stops_cons] at hs
        rw [List.takeWhile_cons]
        split
        · exact (stops_cons _ _ _).2 hs
        · exact stops_nil p
  · cases h

theorem readDefault_wordNode (h : IsName name) (hdigit : Stops Char.isDigit name.toList) :
    ReadDefault (wordNode name) := by
  unfold wordNode
  split
  · exact .word (by decide)
  · split
    · exact .word (by decide)
    · split
      · exact .word (by decide)
      · split
        · exact .word (by decide)
        · exact .call h hdigit (by simp [*])

theorem sound_of_readDefault {default : Node} (h : readDefault s = .ok (default, rest)) : ReadDefault default := by
  unfold readDefault at h
  split at h
  · split at h
    · obtain ⟨rfl, -⟩ := Prod.mk.inj (Except.ok.inj h)
      exact .str _
    · cases h
  · obtain ⟨⟨name, left⟩, hname, hfound⟩ := map_ok_iff.1 h
    obtain ⟨rfl, -⟩ := Prod.mk.inj hfound
    exact .sym (isName_of_readName hname)
  · split at h
    · split at h
      · obtain ⟨rfl, -⟩ := Prod.mk.inj (Except.ok.inj h)
        exact .int _
      · cases h
    · rename_i c later _ _ hnumber
      obtain ⟨⟨word, left⟩, hword, hfound⟩ := map_ok_iff.1 h
      obtain ⟨rfl, -⟩ := Prod.mk.inj hfound
      have hdigit : Stops Char.isDigit (c :: later) :=
        (stops_cons _ _ _).2 (Bool.or_eq_false_iff.1 (eq_false_of_ne_true hnumber)).2
      exact readDefault_wordNode (isName_of_readName hword) (stops_of_readName hword hdigit)
  · cases h

/-! ## Parameters without patterns -/

/-- an item that stands for what is read -/
inductive Item.Sound : Item → Prop where
  | bare {name : String} (h : IsName name) : Sound (.bare name)
  | group {parts : List Node} (hparts : ∀ node ∈ parts, IsParam node) (hpattern : IsPattern (parts.map Node.kind)) :
      Sound (.group parts)
  | node {kind : Kind} {children : List Child} (h : ReadParam ⟨kind, children⟩) (hkind : ¬ IsRequired kind) :
      Sound (.node ⟨kind, children⟩)

theorem Item.Sound.toNode {item : Item} (h : item.Sound) : ReadParam item.toNode := by
  cases h with
  | bare h => exact .plain (.arg h)
  | group hparts hpattern => exact .plain (.mlhs hparts hpattern)
  | node h _ => exact h

/-- what may stand in a pattern has no default value -/
theorem Item.Sound.part {item : Item} (h : item.Sound) (hpattern : item.isPattern = true) : IsParam item.toNode := by
  have hkind : (item.kind = .arg ∨ item.kind = .mlhs) ∨ item.kind = .restarg := by simpa [isPattern] using hpattern
  rw [← kind_toNode] at hkind
  apply h.toNode.isParam
  rcases hkind with (hkind | hkind) | hkind <;> rw [hkind] <;> exact ⟨Kind.noConfusion, Kind.noConfusion⟩

theorem sound_readOptionalName {kind : Kind} (s : List Char) (hkind : ¬ IsRequired kind)
    (hstar : ∀ name? : Option String, (∀ name ∈ name?, IsName name) → IsParam (starNode kind name?)) :
    Item.Sound (.node (readOptionalName kind s).1) := by
  unfold readOptionalName
  split
  · rename_i name rest hscan
    exact .node (.plain (hstar (some name) (by simpa using isName_of_scanName? hscan))) hkind
  · exact .node (.plain (hstar none (by simp))) hkind

theorem sound_readKeywordRest (s : List Char) : Item.Sound (.node (readKeywordRest s).1) := by
  unfold readKeywordRest
  split
  · rename_i name rest hscan
    split
    · exact .node (.plain .kwnilarg) (by decide)
    · rename_i hnil
      have hname : ∀ read ∈ some name, IsName read ∧ read ≠ "nil" := by simpa using ⟨isName_of_scanName? hscan, hnil⟩
      exact .node (.plain (.kwrestarg hname)) (by decide)
  · have hnone : ∀ read ∈ none, IsName read ∧ read ≠ "nil" := by simp
    exact .node (.plain (.kwrestarg hnone)) (by decide)

theorem sound_of_readNamed {item : Item} (hname : IsName name) (h : readNamed name s = .ok (item, rest)) :
    item.Sound := by
  unfold readNamed at h
  split at h
  · split at h
    · obtain ⟨rfl, -⟩ := Prod.mk.inj (Except.ok.inj h)
      exact .node (.plain (.kwarg hname)) (by decide)
    · obtain ⟨⟨default, left⟩, hdefault, hfound⟩ := map_ok_iff.1 h
      obtain ⟨rfl, -⟩ := Prod.mk.inj hfound
      exact .node (.defaulted (Or.inr rfl) hname (sound_of_readDefault hdefault)) (by decide)
  · split at h
    · obtain ⟨⟨default, left⟩, hdefault, hfound⟩ := map_ok_iff.1 h
      obtain ⟨rfl, -⟩ := Prod.mk.inj hfound
      exact .node (.defaulted (Or.inl rfl) hname (sound_of_readDefault hdefault)) (by decide)
    · obtain ⟨rfl, -⟩ := Prod.mk.inj (Except.ok.inj h)
      exact .bare hname

theorem sound_of_readFlat {item : Item} (h : readFlat s = .ok (item, rest)) : item.Sound := by
  unfold readFlat at h
  split at h
  · obtain ⟨rfl, -⟩ := Prod.mk.inj (Except.ok.inj h)
    exact .node (.plain .forwardArg) (by decide)
  · obtain ⟨rfl, -⟩ := Prod.mk.inj (Except.ok.inj h)
    exact sound_readKeywordRest _
  · obtain ⟨rfl, -⟩ := Prod.mk.inj (Except.ok.inj h)
    exact sound_readOptionalName _ (by decide) fun _ => .restarg
  · obtain ⟨rfl, -⟩ := Prod.mk.inj (Except.ok.inj h)
    exact sound_readOptionalName _ (by decide) fun _ => .blockarg
  · split at h
    · rename_i name left hread
      exact sound_of_readNamed (isName_of_readName hread) h
    · cases h

/-! ## Patterns -/

/-- the parts of an open pattern, which its slot has let through -/
structure OpenPattern.Sound (pattern : OpenPattern) : Prop where
  parts : ∀ node ∈ pattern.recent, IsParam node
  patterns : ∀ node ∈ pattern.recent, node.kind = .arg ∨ node.kind = .mlhs ∨ node.kind = .restarg
  ordered : Slot.leading.run? (pattern.recent.reverse.map Node.kind) = some pattern.slot

theorem OpenPattern.sound_nil : OpenPattern.Sound ⟨.leading, []⟩ :=
  ⟨by simp, by simp, rfl⟩

theorem OpenPattern.Sound.push {pattern : OpenPattern} {item : Item} {slot : Slot} (h : pattern.Sound)
    (hitem : item.Sound) (hpattern : item.isPattern = true) (hslot : pattern.slot.next? item.kind = some slot) :
    OpenPattern.Sound ⟨slot, item.toNode :: pattern.recent⟩ := by
  have hkind : item.toNode.kind = .arg ∨ item.toNode.kind = .mlhs ∨ item.toNode.kind = .restarg := by
    rw [kind_toNode]
    simpa [Item.isPattern, or_assoc] using hpattern
  refine ⟨List.forall_mem_cons.2 ⟨hitem.part hpattern, h.parts⟩, List.forall_mem_cons.2 ⟨hkind, h.patterns⟩, ?_⟩
  rw [List.reverse_cons, List.map_append, Slot.run?_append, h.ordered, List.map_singleton, kind_toNode]
  exact congrArg (Option.bind · some) hslot

/-- a row of parts that the slots let through is a pattern -/
theorem OpenPattern.Sound.close {slot : Slot} {part : Node} {recent : List Node}
    (h : OpenPattern.Sound ⟨slot, part :: recent⟩) : Item.Sound (.group (part :: recent).reverse) := by
  refine .group ?_ ⟨?_, ?_, ?_⟩
  · intro node hnode
    exact h.parts node (List.mem_reverse.1 hnode)
  · simp
  · rw [List.forall_mem_map]
    intro node hnode
    exact h.patterns node (List.mem_reverse.1 hnode)
  · have horder : InOrder .other _ := inOrder_of_run? h.ordered (Or.inl rfl)
    exact horder.count_restarg_le

def Delivery.Sound : Delivery → Prop
  | .complete item _ => item.Sound
  | .more patterns _ => ∀ pattern ∈ patterns, pattern.Sound

theorem sound_of_deliver {item : Item} {patterns : List OpenPattern} {delivery : Delivery} (hitem : item.Sound)
    (hpatterns : ∀ pattern ∈ patterns, pattern.Sound) (h : item.deliver patterns s = .ok delivery) :
    delivery.Sound := by
  induction patterns generalizing item s with
  | nil =>
    obtain rfl := Except.ok.inj h
    exact hitem
  | cons pattern outer ih =>
    obtain ⟨hpattern, houter⟩ := List.forall_mem_cons.1 hpatterns
    unfold Item.deliver at h
    split at h
    · rename_i hpart
      split at h
      · cases h
      · rename_i slot hslot
        have hpushed := hpattern.push hitem hpart hslot
        split at h
        · exact ih hpushed.close houter h
        · obtain rfl := Except.ok.inj h
          exact List.forall_mem_cons.2 ⟨hpushed, houter⟩
        · cases h
    · cases h

/-- **A parameter that is read is sound.** -/
theorem sound_of_readItem {patterns : List OpenPattern} {item : Item}
    (hpatterns : ∀ pattern ∈ patterns, pattern.Sound) (h : readItem patterns s = .ok (item, rest)) : item.Sound := by
  fun_induction readItem patterns s with
  | case1 patterns s ih => exact ih (List.forall_mem_cons.2 ⟨OpenPattern.sound_nil, hpatterns⟩) h
  | case2 => cases h
  | case3 => cases h
  | case4 patterns s _ flat left hflat found after hdelivery =>
    obtain ⟨rfl, -⟩ := Prod.mk.inj (Except.ok.inj h)
    exact sound_of_deliver (sound_of_readFlat hflat) hpatterns hdelivery
  | case5 patterns s _ flat left hflat patterns' after hdelivery ih =>
    exact ih (sound_of_deliver (sound_of_readFlat hflat) hpatterns hdelivery) h

/-! ## Lists -/

/-- ordinary parameters that moved the signature on from the slot -/
structure Normals.Sound (enclosing : Enclosing) (slot : Slot) (normals : Normals) : Prop where
  items : ∀ item ∈ normals.items, item.Sound
  ordered : slot.run? (normals.items.map Item.kind) = some normals.slot
  forwarding : enclosing = .other ∨ ∀ item ∈ normals.items, item.kind ≠ .forwardArg

theorem Normals.Sound.cons {enclosing : Enclosing} {slot next : Slot} {item : Item} {normals : Normals}
    (hitem : item.Sound) (hforward : ¬ (item.kind = .forwardArg ∧ enclosing ≠ .other))
    (hnext : slot.next? item.kind = some next) (h : normals.Sound enclosing next) :
    (normals.cons item).Sound enclosing slot := by
  refine ⟨List.forall_mem_cons.2 ⟨hitem, h.items⟩, ?_, ?_⟩
  · rw [Normals.cons, List.map_cons, Slot.run?_cons, hnext]
    exact h.ordered
  · rcases h.forwarding with hother | hlater
    · exact Or.inl hother
    · by_cases hother : enclosing = .other
      · exact Or.inl hother
      · exact Or.inr (List.forall_mem_cons.2 ⟨fun hkind => hforward ⟨hkind, hother⟩, hlater⟩)

theorem Normals.sound_nil (enclosing : Enclosing) (slot : Slot) (comma : Bool) (rest : List Char) :
    Normals.Sound enclosing slot ⟨[], slot, comma, rest⟩ :=
  ⟨by simp, rfl, Or.inr (by simp)⟩

/-- **Ordinary parameters that are read are sound and in signature order.** -/
theorem sound_of_readNormals {enclosing : Enclosing} {slot : Slot} {normals : Normals}
    (h : readNormals enclosing slot s = .ok normals) : normals.Sound enclosing slot := by
  fun_induction readNormals enclosing slot s generalizing normals with
  | case1 => cases h
  | case2 => cases h
  | case3 => cases h
  | case4 slot s item left hread hforward next hnext later hcomma hend =>
    obtain rfl := Except.ok.inj h
    exact .cons (sound_of_readItem (by simp) hread) hforward hnext (Normals.sound_nil enclosing next true _)
  | case5 slot s item left hread hforward next hnext later hcomma hend ih =>
    obtain ⟨found, hfound, rfl⟩ := map_ok_iff.1 h
    exact .cons (sound_of_readItem (by simp) hread) hforward hnext (ih hfound)
  | case6 slot s item left hread hforward next hnext =>
    obtain rfl := Except.ok.inj h
    exact .cons (sound_of_readItem (by simp) hread) hforward hnext (Normals.sound_nil enclosing next false _)

theorem isName_of_readShadows {names : List String} (h : readShadows s = .ok (names, rest)) :
    ∀ name ∈ names, IsName name := by
  fun_induction readShadows s generalizing names with
  | case1 => cases h
  | case2 s name left hread later hcomma ih =>
    obtain ⟨⟨found, after⟩, hfound, heq⟩ := map_ok_iff.1 h
    obtain ⟨rfl, rfl⟩ := Prod.mk.inj heq
    exact List.forall_mem_cons.2 ⟨isName_of_readName hread, ih hfound⟩
  | case3 s name left hread =>
    obtain ⟨rfl, -⟩ := Prod.mk.inj (Except.ok.inj h)
    exact List.forall_mem_singleton.2 (isName_of_readName hread)

/-! ## Whole lists -/

section

variable {enclosing : Enclosing} {normals : Normals} {shadows : List String}

theorem Normals.Sound.inOrder (h : normals.Sound enclosing .leading) :
    InOrder enclosing ((normals.items.map Item.toNode).map Node.kind) := by
  have hkinds : (normals.items.map Item.toNode).map Node.kind = normals.items.map Item.kind := by
    rw [List.map_map]
    exact List.map_congr_left fun item _ => kind_toNode item
  rw [hkinds]
  apply inOrder_of_run? h.ordered
  rw [List.forall_mem_map]
  exact h.forwarding

/-- parameters that stay in a list -/
theorem Normals.Sound.returned_list (h : normals.Sound enclosing .leading) (hshadows : ∀ name ∈ shadows, IsName name) :
    Returned enclosing (.ofNodes .args (normals.items.map Item.toNode ++ shadows.map shadowNode)) := by
  refine .list ?_ h.inOrder hshadows
  rw [List.forall_mem_map]
  exact fun item hitem => (h.items item hitem).toNode

/-- a single parameter between the bars of a block -/
theorem Normals.Sound.returned_sole {item : Item} (h : normals.Sound .block .leading) (hitems : normals.items = [item])
    (hshadows : ∀ name ∈ shadows, IsName name) :
    Returned .block (.ofNodes .args (item.toSole :: shadows.map shadowNode)) := by
  have hlist := h.returned_list hshadows
  have hitem : item.Sound := h.items item (hitems ▸ List.mem_singleton_self item)
  rw [hitems] at hlist
  cases hitem with
  | bare hname =>
    exact .sole rfl (List.forall_mem_singleton.2 (.arg hname)) ⟨List.cons_ne_nil _ _, by simp, by simp⟩ hshadows
  | group hparts hpattern => exact .sole rfl hparts hpattern hshadows
  | node => exact hlist

theorem Normals.Sound.returned (h : normals.Sound enclosing .leading) (hshadows : ∀ name ∈ shadows, IsName name) :
    Returned enclosing (.ofNodes .args (normals.nodes enclosing ++ shadows.map shadowNode)) := by
  have hlist := h.returned_list hshadows
  unfold Normals.nodes
  split
  · rename_i item hitems
    split
    · rename_i hsole
      obtain rfl := hsole.1
      exact h.returned_sole hitems hshadows
    · rw [hitems] at hlist
      exact hlist
  · exact hlist

theorem sound_of_startNormals {text : List Char} (h : startNormals enclosing text = .ok normals) :
    normals.Sound enclosing .leading := by
  unfold startNormals at h
  split at h
  · obtain rfl := Except.ok.inj h
    exact Normals.sound_nil enclosing .leading false _
  · exact sound_of_readNormals h

theorem isName_of_startShadows (h : startShadows s = .ok (shadows, rest)) : ∀ name ∈ shadows, IsName name := by
  unfold startShadows at h
  split at h
  · exact isName_of_readShadows h
  · obtain ⟨rfl, -⟩ := Prod.mk.inj (Except.ok.inj h)
    simp

theorem returned_of_finishNormals {list : Node} (hnormals : normals.Sound enclosing .leading)
    (h : finishNormals enclosing normals = .ok list) : Returned enclosing list := by
  unfold finishNormals at h
  split at h
  · cases h
  · obtain ⟨⟨shadows, left⟩, hshadows, hfinish⟩ := bind_ok_iff.1 h
    unfold finishList at hfinish
    split at hfinish
    · obtain rfl := Except.ok.inj hfinish
      exact hnormals.returned (isName_of_startShadows hshadows)
    · cases hfinish

/-- **Reading gives lists in signature order.** -/
theorem returned_of_readList {text : List Char} {list : Node} (h : readList text enclosing = .ok list) :
    Returned enclosing list := by
  rw [readList_eq] at h
  obtain ⟨normals, hnormals, hfinish⟩ := bind_ok_iff.1 h
  exact returned_of_finishNormals (sound_of_startNormals hnormals) hfinish

theorem returned_of_read {text : String} {list : Node} (h : read text enclosing = .ok list) :
    Returned enclosing list := by
  unfold read at h
  cases hread : readList text.toList enclosing with
  | error fault =>
    rw [hread] at h
    cases h
  | ok found =>
    rw [hread] at h
    obtain rfl := Except.ok.inj h
    exact returned_of_readList hread

end

end RubySignature.Signature
