import Mathlib.Data.List.Chain
import DiffScope.Scope.Name
import DiffScope.Proofs.Syntax.Lines

/-! # Options are those of the nearest object

The option that a unit is declared in is the member, on the way to the unit, of the nearest options
object above it. No object further up is asked, and none that is out of reach.
-/

namespace DiffScope.Syntax

mutual

/-- Above a node of a tree stands the node that has it as a child, up to the root. -/
theorem isChain_of_mem_inOrder {index : Nat} {above : List Tree} {t : Tree} {f : Focus}
    (chain : (t :: above).IsChain fun child parent => child ∈ parent.children)
    (member : f ∈ inOrder index above t) :
    (f.tree :: f.above).IsChain (fun child parent => child ∈ parent.children) ∧
      t :: above <:+ f.tree :: f.above := by
  match t with
  | .node face children =>
      rcases List.mem_cons.mp member with rfl | member
      · exact ⟨chain, List.suffix_rfl⟩
      · exact isChain_of_mem_inOrderAll chain (fun c among => among) member

theorem isChain_of_mem_inOrderAll {index : Nat} {parent : Tree} {above ts : List Tree} {f : Focus}
    (chain : (parent :: above).IsChain fun child parent => child ∈ parent.children)
    (children : ∀ t ∈ ts, t ∈ parent.children) (member : f ∈ inOrderAll index (parent :: above) ts) :
    (f.tree :: f.above).IsChain (fun child parent => child ∈ parent.children) ∧
      parent :: above <:+ f.tree :: f.above := by
  match ts with
  | [] => cases member
  | t :: ts =>
      obtain ⟨first, others⟩ := List.forall_mem_cons.mp children
      rcases List.mem_append.mp member with member | member
      · obtain ⟨up, behind⟩ := isChain_of_mem_inOrder (.cons_cons first chain) member
        exact ⟨up, (List.suffix_cons t _).trans behind⟩
      · exact isChain_of_mem_inOrderAll chain others member

end

end DiffScope.Syntax

namespace DiffScope.Scope

open DiffScope.Syntax

/-! ## Options objects -/

def ExportsByDefault (t : Tree) : Prop :=
  t.kind = "export_statement" ∧ ∃ c ∈ t.children, c.face.isNamed = false ∧ c.kind = "default"

/-- An object that is exported by default, or an argument of a call that is; with the nodes above. -/
inductive IsOptionsObject : Tree → List Tree → Prop
  | value {object exported : Tree} {above : List Tree} (kind : object.kind = "object")
      (byDefault : ExportsByDefault exported) : IsOptionsObject object (exported :: above)
  | argument {object arguments call exported : Tree} {above : List Tree}
      (kind : object.kind = "object") (passed : arguments.kind = "arguments")
      (called : call.kind = "call_expression") (byDefault : ExportsByDefault exported) :
      IsOptionsObject object (arguments :: call :: exported :: above)

theorem isDefaultExport_iff {t : Tree} : isDefaultExport t = true ↔ ExportsByDefault t := by
  simp [isDefaultExport, ExportsByDefault]

theorem isOptions_iff {t : Tree} {above : List Tree} :
    isOptions t above = true ↔ IsOptionsObject t above := by
  constructor
  · intro h
    obtain ⟨kind, h⟩ := Bool.and_eq_true_iff.mp h
    rw [decide_eq_true_iff] at kind
    split at h
    next parent rest =>
      split at h
      · exact .value kind (isDefaultExport_iff.mp h)
      · split at h
        next passed =>
          split at h
          next call exported _ =>
            rw [Bool.and_eq_true_iff, decide_eq_true_iff] at h
            exact .argument kind passed h.1 (isDefaultExport_iff.mp h.2)
          next => cases h
        next => cases h
    next => cases h
  · intro h
    cases h with
    | value kind byDefault =>
        have exported := byDefault.1
        simp [isOptions, kind, exported, isDefaultExport_iff.mpr byDefault]
    | argument kind passed called byDefault =>
        simp [isOptions, kind, passed, called, isDefaultExport_iff.mpr byDefault]

/-- Whether a node is an options object does not depend on what stands above an object that stands
above the node. -/
theorem isOptionsObject_congr {inner object : Tree} {after beyond beyond' : List Tree}
    (kind : object.kind = "object") (h : IsOptionsObject inner (after ++ object :: beyond)) :
    IsOptionsObject inner (after ++ object :: beyond') := by
  generalize whole : after ++ object :: beyond = above at h
  cases h with
  | value inner byDefault =>
      cases after with
      | nil =>
          obtain ⟨rfl, -⟩ := List.cons.inj whole
          exact absurd (kind.symm.trans byDefault.1) (by decide)
      | cons exported after =>
          obtain ⟨rfl, -⟩ := List.cons.inj whole
          exact .value inner byDefault
  | argument inner passed called byDefault =>
      -- The object can be none of the three nodes that are looked at, which are of other kinds.
      match after with
      | [] =>
          obtain ⟨rfl, -⟩ := List.cons.inj whole
          exact absurd (kind.symm.trans passed) (by decide)
      | [_] =>
          simp only [List.cons_append, List.nil_append, List.cons.injEq] at whole
          obtain ⟨-, rfl, -⟩ := whole
          exact absurd (kind.symm.trans called) (by decide)
      | [_, _] =>
          simp only [List.cons_append, List.nil_append, List.cons.injEq] at whole
          obtain ⟨-, -, rfl, -⟩ := whole
          exact absurd (kind.symm.trans byDefault.1) (by decide)
      | _ :: _ :: _ :: after =>
          simp only [List.cons_append, List.cons.injEq] at whole
          obtain ⟨rfl, rfl, rfl, -⟩ := whole
          exact .argument inner passed called byDefault

theorem IsOptionsObject.kind {t : Tree} {above : List Tree} (h : IsOptionsObject t above) :
    t.kind = "object" := by
  cases h with
  | value kind => exact kind
  | argument kind => exact kind

/-- An object is the nearest options object above a node, with the nodes between and those beyond. -/
structure Nearest (above between : List Tree) (object : Tree) (beyond : List Tree) : Prop where
  way : above = between ++ object :: beyond
  options : IsOptionsObject object beyond
  none_between : ∀ before inner after, between = before ++ inner :: after →
    ¬IsOptionsObject inner (after ++ object :: beyond)

namespace Nearest

variable {parent object : Tree} {above between beyond : List Tree}

theorem cons_iff_of_options (here : IsOptionsObject parent above) :
    Nearest (parent :: above) between object beyond ↔
      between = [] ∧ object = parent ∧ beyond = above := by
  constructor
  · intro h
    cases between with
    | nil =>
        obtain ⟨rfl, rfl⟩ := List.cons.inj h.way
        exact ⟨rfl, rfl, rfl⟩
    | cons first between =>
        obtain ⟨rfl, rfl⟩ := List.cons.inj h.way
        exact absurd here (h.none_between [] _ _ rfl)
  · rintro ⟨rfl, rfl, rfl⟩
    refine ⟨rfl, here, fun before inner after split => ?_⟩
    simp at split

theorem cons_iff_of_other (other : ¬IsOptionsObject parent above) :
    Nearest (parent :: above) between object beyond ↔
      ∃ rest, between = parent :: rest ∧ Nearest above rest object beyond := by
  constructor
  · intro h
    cases between with
    | nil =>
        obtain ⟨rfl, rfl⟩ := List.cons.inj h.way
        exact absurd h.options other
    | cons first rest =>
        obtain ⟨rfl, rfl⟩ := List.cons.inj h.way
        exact ⟨rest, rfl, rfl, h.options, fun before inner after split =>
          h.none_between (_ :: before) inner after (congrArg _ split)⟩
  · rintro ⟨rest, rfl, h⟩
    refine ⟨congrArg _ h.way, h.options, fun before inner after split => ?_⟩
    cases before with
    | nil =>
        obtain ⟨rfl, rfl⟩ := List.cons.inj split
        exact h.way ▸ other
    | cons first before => exact h.none_between before inner after (List.cons.inj split).2

theorem not_nil : ¬Nearest [] between object beyond := by
  intro h
  have way := h.way
  simp at way

/-- Only one options object is the nearest. -/
theorem unique {object' : Tree} {between' beyond' : List Tree}
    (h : Nearest above between object beyond) (k : Nearest above between' object' beyond') :
    between = between' ∧ object = object' ∧ beyond = beyond' := by
  induction above generalizing between between' with
  | nil => exact absurd h not_nil
  | cons parent above ih =>
      by_cases here : IsOptionsObject parent above
      · obtain ⟨rfl, rfl, rfl⟩ := (cons_iff_of_options here).mp h
        obtain ⟨rfl, rfl, rfl⟩ := (cons_iff_of_options here).mp k
        exact ⟨rfl, rfl, rfl⟩
      · obtain ⟨rest, rfl, above⟩ := (cons_iff_of_other here).mp h
        obtain ⟨rest', rfl, above'⟩ := (cons_iff_of_other here).mp k
        obtain ⟨rfl, rfl, rfl⟩ := ih above above'
        exact ⟨rfl, rfl, rfl⟩

/-- It stays the nearest whatever stands beyond it, as long as it is an options object. -/
theorem congr {beyond' : List Tree} (h : Nearest above between object beyond)
    (options : IsOptionsObject object beyond') :
    Nearest (between ++ object :: beyond') between object beyond' := by
  refine ⟨rfl, options, fun before inner after split inside => ?_⟩
  exact h.none_between before inner after split (isOptionsObject_congr h.options.kind inside)

end Nearest

/-! ## Options -/

/-- The key of a pair and the name of a method. -/
inductive IsKeyOf : Tree → Tree → Prop
  | pair {member key : Tree} (kind : member.kind = "pair")
      (found : member.child? "key" = some key) : IsKeyOf member key
  | method {member key : Tree} (kind : member.kind = "method_definition")
      (found : member.child? "name" = some key) : IsKeyOf member key

theorem memberKey?_eq_some_iff {member key : Tree} :
    memberKey? member = some key ↔ IsKeyOf member key := by
  constructor
  · intro h
    unfold memberKey? at h
    split at h
    next kind => exact .pair kind h
    next kind => exact .method kind h
    next => cases h
  · intro h
    cases h with
    | pair kind found => simp [memberKey?, kind, found]
    | method kind found => simp [memberKey?, kind, found]

/-- The node right below what stands above the nodes between, on the way to a node. -/
def lastOnWay (t : Tree) (between : List Tree) : Tree :=
  (t :: between).getLast (List.cons_ne_nil t between)

theorem optionKey?_eq_some_iff {reach : Nat} {t : Tree} {above : List Tree} {key : Tree} :
    optionKey? reach t above = some key ↔
      ∃ between object beyond, Nearest above between object beyond ∧ between.length + 1 ≤ reach ∧
        IsKeyOf (lastOnWay t between) key := by
  induction reach generalizing t above with
  | zero => simp [optionKey?]
  | succ reach ih =>
      cases above with
      | nil => simp [optionKey?, Nearest.not_nil]
      | cons parent above =>
          rw [optionKey?]
          by_cases here : IsOptionsObject parent above
          · rw [if_pos (isOptions_iff.mpr here), memberKey?_eq_some_iff]
            simp [Nearest.cons_iff_of_options here, lastOnWay]
          · rw [if_neg (mt isOptions_iff.mp here), ih]
            constructor
            · rintro ⟨rest, object, beyond, nearest, near, named⟩
              exact ⟨parent :: rest, object, beyond,
                (Nearest.cons_iff_of_other here).mpr ⟨rest, rfl, nearest⟩, Nat.succ_le_succ near,
                named⟩
            · rintro ⟨between, object, beyond, nearest, near, named⟩
              obtain ⟨rest, rfl, further⟩ := (Nearest.cons_iff_of_other here).mp nearest
              exact ⟨rest, object, beyond, further, Nat.le_of_succ_le_succ near, named⟩

theorem lastOnWay_mem_children {t object : Tree} {above between beyond : List Tree}
    (chain : (t :: above).IsChain fun child parent => child ∈ parent.children)
    (way : above = between ++ object :: beyond) : lastOnWay t between ∈ object.children := by
  rw [way, ← List.cons_append] at chain
  exact chain.rel_getLast_head_of_append (List.cons_ne_nil t between) (List.cons_ne_nil object beyond)

theorem keyText_eq_ok_iff {s : Source} {key : Tree} {name : String} :
    keyText s key = .ok name ↔ ∃ text, s.get? key.start key.stop = some text ∧
      String.ofList (if key.kind = "string" then trimQuotes text else text) = name := by
  unfold keyText
  cases s.get? key.start key.stop <;> simp

/-- The text of a key that lies in the source is what stands there, without its quotes if it is a
string. -/
theorem exists_keyText_eq (s : Source) {key : Tree} (ordered : key.start ≤ key.stop)
    (within : key.stop ≤ s.text.length) : ∃ front text back, s.text = front ++ text ++ back ∧
      front.length = key.start ∧ (front ++ text).length = key.stop ∧
      keyText s key = .ok (String.ofList (if key.kind = "string" then trimQuotes text else text)) := by
  refine ⟨_, _, _, s.text_eq_slice ordered, ?_, ?_, ?_⟩
  · rw [List.length_take]
    omega
  · rw [← s.take_eq_slice ordered, List.length_take]
    omega
  · exact keyText_eq_ok_iff.mpr ⟨_, if_pos ⟨ordered, within⟩, rfl⟩

section Lookup

variable {s : Source} {f : Focus}

theorem optionOf_eq_ok_some_iff {name : String} : optionOf s f = .ok (some name) ↔
    ∃ between object beyond, Nearest f.above between object beyond ∧ between.length + 1 ≤ 8 ∧
      ∃ key, IsKeyOf (lastOnWay f.tree between) key ∧ keyText s key = .ok name := by
  unfold optionOf
  cases found : optionKey? optionReach f.tree f.above with
  | none =>
      refine ⟨nofun, ?_⟩
      rintro ⟨between, object, beyond, nearest, near, key, keys, -⟩
      cases found.symm.trans (optionKey?_eq_some_iff.mpr ⟨between, object, beyond, nearest, near, keys⟩)
  | some key =>
      have text : (keyText s key).map some = .ok (some name) ↔ keyText s key = .ok name := by
        cases keyText s key <;> simp [Except.map]
      refine text.trans ⟨fun told => ?_, ?_⟩
      · obtain ⟨between, object, beyond, nearest, near, keys⟩ := optionKey?_eq_some_iff.mp found
        exact ⟨between, object, beyond, nearest, near, key, keys, told⟩
      · rintro ⟨between, object, beyond, nearest, near, key', keys, told⟩
        have same := optionKey?_eq_some_iff.mpr ⟨between, object, beyond, nearest, near, keys⟩
        obtain rfl := Option.some.inj (found.symm.trans same)
        exact told

theorem optionOf_eq_ok_none_iff : optionOf s f = .ok none ↔
    ∀ between object beyond, Nearest f.above between object beyond → between.length + 1 ≤ 8 →
      ∀ key, ¬IsKeyOf (lastOnWay f.tree between) key := by
  unfold optionOf
  cases found : optionKey? optionReach f.tree f.above with
  | none =>
      refine ⟨fun _ between object beyond nearest near key keys => ?_, fun _ => rfl⟩
      cases found.symm.trans (optionKey?_eq_some_iff.mpr ⟨between, object, beyond, nearest, near, keys⟩)
  | some key =>
      obtain ⟨between, object, beyond, nearest, near, keys⟩ := optionKey?_eq_some_iff.mp found
      have some : (keyText s key).map Option.some ≠ .ok none := by
        cases keyText s key <;> simp [Except.map]
      exact ⟨fun none => absurd none some,
        fun free => absurd keys (free between object beyond nearest near key)⟩

end Lookup

/-- The key of the nearest options object does not depend on what stands beyond the object. -/
theorem optionKey?_congr {reach : Nat} {t object : Tree} {above between beyond beyond' : List Tree}
    (nearest : Nearest above between object beyond) (options : IsOptionsObject object beyond') :
    optionKey? reach t (between ++ object :: beyond') = optionKey? reach t above := by
  have nearest' := nearest.congr options
  ext key
  rw [optionKey?_eq_some_iff, optionKey?_eq_some_iff]
  constructor
  · rintro ⟨_, _, _, found, near, keys⟩
    obtain ⟨rfl, rfl, rfl⟩ := nearest'.unique found
    exact ⟨between, object, beyond, nearest, near, keys⟩
  · rintro ⟨_, _, _, found, near, keys⟩
    obtain ⟨rfl, rfl, rfl⟩ := nearest.unique found
    exact ⟨between, object, beyond', nearest', near, keys⟩

/-- The option of a node of a tree is the key of the member, on the way to the node, of the nearest
options object above the node, if that is at most eight steps up and the member is a pair or a method;
otherwise there is none. What stands beyond the nearest options object does not matter. -/
theorem options_are_those_of_the_nearest_object (s : Source) (t : Tree) (f : Focus)
    (inside : f ∈ t.nodes) :
    ((f.tree :: f.above).IsChain (fun child parent => child ∈ parent.children) ∧
      [t] <:+ f.tree :: f.above) ∧
    (∀ name, optionOf s f = .ok (some name) ↔ ∃ between object beyond,
      Nearest f.above between object beyond ∧ between.length + 1 ≤ 8 ∧
        ∃ key, IsKeyOf (lastOnWay f.tree between) key ∧ keyText s key = .ok name) ∧
    (optionOf s f = .ok none ↔ ∀ between object beyond,
      Nearest f.above between object beyond → between.length + 1 ≤ 8 →
        ∀ key, ¬IsKeyOf (lastOnWay f.tree between) key) ∧
    (∀ between object beyond, Nearest f.above between object beyond →
      lastOnWay f.tree between ∈ object.children ∧
      (∀ between' object' beyond', Nearest f.above between' object' beyond' →
        between = between' ∧ object = object' ∧ beyond = beyond') ∧
      ∀ beyond', IsOptionsObject object beyond' →
        optionOf s ⟨f.tree, f.index, between ++ object :: beyond'⟩ = optionOf s f) ∧
    ∀ key : Tree, key.start ≤ key.stop → key.stop ≤ s.text.length →
      ∃ front text back, s.text = front ++ text ++ back ∧
        front.length = key.start ∧ (front ++ text).length = key.stop ∧
        keyText s key =
          .ok (String.ofList (if key.kind = "string" then trimQuotes text else text)) := by
  have chain := isChain_of_mem_inOrder (.singleton t) inside
  refine ⟨chain, fun name => optionOf_eq_ok_some_iff, optionOf_eq_ok_none_iff, ?_,
    fun key => exists_keyText_eq s⟩
  intro between object beyond nearest
  refine ⟨lastOnWay_mem_children chain.1 nearest.way, fun _ _ _ => nearest.unique, ?_⟩
  intro beyond' options
  rw [optionOf, optionOf, optionKey?_congr nearest options]

def methodsText : Source := .ofText "export default \x7b'methods': \x7bgo() \x7b\x7d\x7d\x7d".toList

/-- A component with one method. -/
def methodsTree : Syntax.Tree :=
  let node kind fields start stop := Syntax.Tree.node ⟨kind, true, false, false, fields, start, stop⟩
  node "program" [] 0 37 [
    node "export_statement" [] 0 37 [
      .node ⟨"default", false, false, false, [], 7, 14⟩ [],
      node "object" ["value"] 15 37 [
        node "pair" [] 16 36 [
          node "string" ["key"] 16 25 [],
          node "object" ["value"] 27 36 [
            node "method_definition" [] 28 35 [
              node "property_identifier" ["name"] 28 30 []]]]]]]

theorem option_of_methodsTree : ∃ f ∈ methodsTree.nodes, f.tree.kind = "method_definition" ∧
    optionOf methodsText f = .ok (some "methods") ∧
    (∃ between object beyond, Nearest f.above between object beyond ∧ between.length + 1 ≤ 8 ∧
      ∃ key, IsKeyOf (lastOnWay f.tree between) key ∧ keyText methodsText key = .ok "methods") ∧
    (f.tree :: f.above).IsChain fun child parent => child ∈ parent.children := by
  have inside : methodsTree.nodes[7]? = some methodsTree.nodes[7] := rfl
  have member := List.mem_of_getElem? inside
  obtain ⟨⟨chain, -⟩, lookup, -, -, -⟩ :=
    options_are_those_of_the_nearest_object methodsText methodsTree _ member
  have option : optionOf methodsText methodsTree.nodes[7] = .ok (some "methods") := by rfl
  exact ⟨_, member, by decide, option, (lookup "methods").mp option, chain⟩

end DiffScope.Scope
