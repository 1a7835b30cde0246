import ScreenPlan.Proofs.Markup.Untyped
import ScreenPlan.Proofs.Planner.Failures

/-!
# The outline of a tree

What the renderer writes for nodes side by side is their outline: a line for every node, in pre-order and indented by
its depth, and behind the lines of its children a line that closes it. If the tag of some node cannot be written, the
first such node decides what the renderer answers instead.
-/

namespace ScreenPlan.Markup

/-! ### Outlines -/

def obstacle? (n : Node) : Option Json.Obstacle :=
  match tag n with
  | .ok _ => none
  | .error o => some o

/-- The tag of a node, if it can be written. -/
def tagText (n : Node) : String :=
  match tag n with
  | .ok text => text
  | .error _ => ""

def spaces (n : Nat) : String := String.ofList (List.replicate n ' ')

mutual
def outline (depth : Nat) : Node → List String
  | ⟨kind, props, children⟩ =>
    if children.isEmpty then [spaces (2 * depth) ++ "<" ++ tagText ⟨kind, props, children⟩ ++ " />"]
    else (spaces (2 * depth) ++ "<" ++ tagText ⟨kind, props, children⟩ ++ ">") ::
      (outlines (depth + 1) children ++ [spaces (2 * depth) ++ "</" ++ kind.name ++ ">"])

def outlines (depth : Nat) : List Node → List String
  | [] => []
  | n :: ns => outline depth n ++ outlines depth ns
end

mutual
/-- A node and the nodes below it in pre-order, each with its depth. -/
def preorder (depth : Nat) : Node → List (Node × Nat)
  | ⟨kind, props, children⟩ => (⟨kind, props, children⟩, depth) :: preorders (depth + 1) children

def preorders (depth : Nat) : List Node → List (Node × Nat)
  | [] => []
  | n :: ns => preorder depth n ++ preorders depth ns
end

def firstObstacle? (nodes : List (Node × Nat)) : Option Json.Obstacle := nodes.findSome? fun e => obstacle? e.1

/-- These lines, unless something stands in the way. -/
def barring (obstacle : Option Json.Obstacle) (lines : List String) : Except Json.Obstacle (List String) :=
  match obstacle with
  | some o => .error o
  | none => .ok lines

mutual
theorem nodeLines_eq (depth : Nat) : ∀ n : Node,
    nodeLines depth n = barring (firstObstacle? (preorder depth n)) (outline depth n)
  | ⟨kind, props, children⟩ => by
    have below := forestLines_eq (depth + 1) children
    rw [nodeLines, preorder, outline, firstObstacle?, List.findSome?_cons, obstacle?, tagText]
    cases tag ⟨kind, props, children⟩ with
    | error o => rfl
    | ok t =>
      cases children with
      | nil => rfl
      | cons n ns =>
        simp only [Except.bind, List.isEmpty_cons, Bool.false_eq_true, if_false, below]
        rw [firstObstacle?]
        cases (preorders (depth + 1) (n :: ns)).findSome? _ <;> rfl

theorem forestLines_eq (depth : Nat) : ∀ ns : List Node,
    forestLines depth ns = barring (firstObstacle? (preorders depth ns)) (outlines depth ns)
  | [] => rfl
  | n :: ns => by
    rw [forestLines, preorders, outlines, nodeLines_eq, forestLines_eq, firstObstacle?, firstObstacle?, firstObstacle?,
      List.findSome?_append]
    cases (preorder depth n).findSome? _ with
    | some o => rfl
    | none => cases (preorders depth ns).findSome? _ <;> rfl
end

theorem lines_eq_outlines (depth : Nat) (ns : List Node) :
    lines (Job.openings depth ns) = barring (firstObstacle? (preorders depth ns)) (outlines depth ns) := by
  have all := lines_openings depth [] ns
  rw [List.append_nil, lines, forestLines_eq] at all
  rw [all]
  cases firstObstacle? (preorders depth ns) with
  | some o => rfl
  | none => exact congrArg Except.ok (List.append_nil _)

/-! ### Reading lines -/

/-- What a line is: a node without children, the start of one that has some, or the end of such a node. -/
inductive Mark where
  | leaf (name : String)
  | opening (name : String)
  | closing (name : String)
  deriving DecidableEq

def readMark : List Char → Option Mark
  | '<' :: '/' :: s =>
    if s.dropWhile Char.isAlpha = ['>'] then some (.closing (String.ofList (s.takeWhile Char.isAlpha))) else none
  | '<' :: s =>
    match s.reverse with
    | '>' :: '/' :: _ => some (.leaf (String.ofList (s.takeWhile Char.isAlpha)))
    | '>' :: _ => some (.opening (String.ofList (s.takeWhile Char.isAlpha)))
    | _ => none
  | _ => none

def margin (line : String) : Nat := (line.toList.takeWhile (· = ' ')).length

def mark? (line : String) : Option Mark := readMark (line.toList.dropWhile (· = ' '))

/-- The nodes that are open, the innermost first, are closed one by one; each line is indented by the number of nodes
around it, and a closing line names the node that it closes. -/
def nested (depth : Nat) : List String → List String → Bool
  | around, [] => around.isEmpty
  | around, line :: lines =>
    match mark? line, around with
    | some (.leaf _), _ => margin line = 2 * (depth + around.length) && nested depth around lines
    | some (.opening name), _ => margin line = 2 * (depth + around.length) && nested depth (name :: around) lines
    | some (.closing name), innermost :: around =>
      name = innermost && margin line = 2 * (depth + around.length) && nested depth around lines
    | _, _ => false

/-- The line stands for a node and does not just close one. -/
def isHead (line : String) : Bool :=
  match mark? line with
  | some (.leaf _) | some (.opening _) => true
  | _ => false

theorem margin_line {depth : Nat} {line : String} {s : List Char}
    (text : line.toList = List.replicate (2 * depth) ' ' ++ '<' :: s) : margin line = 2 * depth := by
  rw [margin, text, takeWhile_append_cons, List.length_replicate]
  · intro c member
    exact decide_eq_true (List.eq_of_mem_replicate member)
  · decide

theorem mark_line {depth : Nat} {line : String} {s : List Char}
    (text : line.toList = List.replicate (2 * depth) ' ' ++ '<' :: s) : mark? line = readMark ('<' :: s) := by
  rw [mark?, text, dropWhile_append_cons]
  · intro c member
    exact decide_eq_true (List.eq_of_mem_replicate member)
  · decide

/-- Behind the name of its kind a tag says nothing, or something between a blank and a brace. -/
inductive Behind : List Char → Prop
  | nothing : Behind []
  | settings (s : List Char) : Behind (' ' :: s ++ ['}'])

theorem settings_cons_ok {p : String × Value} {ps : Table Value} {as : List String}
    (set : settings (p :: ps) = .ok as) :
    ∃ a bs, setting p = .ok a ∧ settings ps = .ok bs ∧ as = a :: bs := by
  rw [settings] at set
  cases first : setting p with
  | error o =>
    rw [first] at set
    cases set
  | ok a =>
    rw [first] at set
    cases rest : settings ps with
    | error o =>
      rw [rest] at set
      cases set
    | ok bs =>
      rw [rest] at set
      exact ⟨a, bs, rfl, rfl, (Except.ok.inj set).symm⟩

/-- A setting ends with a brace. -/
theorem setting_closed {p : String × Value} {a : String} (set : setting p = .ok a) :
    ∃ s, a.toList = s ++ ['}'] := by
  rw [setting] at set
  cases text : p.2.compact with
  | error o =>
    rw [text] at set
    cases set
  | ok t =>
    rw [text] at set
    obtain rfl := Except.ok.inj set
    exact ⟨(p.1 ++ "=\x7b" ++ t).toList, String.toList_append⟩

theorem settings_behind {ps : Table Value} {as : List String} (set : settings ps = .ok as) :
    Behind (as.flatMap fun a => ' ' :: a.toList) := by
  induction ps generalizing as with
  | nil =>
    obtain rfl := Except.ok.inj set
    exact .nothing
  | cons p ps ih =>
    obtain ⟨a, bs, first, rest, rfl⟩ := settings_cons_ok set
    obtain ⟨s, closed⟩ := setting_closed first
    have behind := ih rest
    rw [List.flatMap_cons, closed]
    generalize bs.flatMap (fun a => ' ' :: a.toList) = t at behind
    cases behind with
    | nothing =>
      rw [List.append_nil]
      exact .settings s
    | settings t =>
      rw [← List.append_assoc, List.cons_append]
      exact .settings _

theorem tag_behind {n : Node} {t : String} (tagged : tag n = .ok t) :
    ∃ behind, Behind behind ∧ t.toList = n.kind.name.toList ++ behind := by
  rw [tag] at tagged
  cases set : settings (n.kind.spec.project n.props) with
  | error o =>
    rw [set] at tagged
    cases tagged
  | ok as =>
    rw [set] at tagged
    obtain rfl := Except.ok.inj tagged
    refine ⟨_, settings_behind set, ?_⟩
    rw [String.toList_intercalate, List.map_cons]
    show List.intercalate [' '] _ = _
    rw [Json.intercalate_cons, List.flatMap_map]

theorem readMark_head (kind : Kind) {d : Char} (apart : d.isAlpha = false) (after : List Char) :
    readMark ('<' :: (kind.name.toList ++ d :: after)) =
      match (kind.name.toList ++ d :: after).reverse with
      | '>' :: '/' :: _ => some (.leaf kind.name)
      | '>' :: _ => some (.opening kind.name)
      | _ => none := by
  have name : String.ofList ((kind.name.toList ++ d :: after).takeWhile Char.isAlpha) = kind.name := by
    rw [takeWhile_append_cons (kind_letters kind) apart, String.ofList_toList]
  obtain ⟨c, rest, head, slash⟩ := kind_head kind
  have text : kind.name.toList ++ d :: after = c :: (rest ++ d :: after) := by
    rw [head]
    rfl
  rw [text] at name ⊢
  rw [readMark.eq_2 _ fun s same => slash (List.cons.inj same).1, name]

/-- The line of a node is indented by its depth, and read as what it is. -/
structure Reads (line : String) (depth : Nat) (mark : Mark) : Prop where
  margin : margin line = 2 * depth
  mark : mark? line = some mark

variable {n : Node} {t : String}

theorem Reads.isHead_eq {line : String} {depth : Nat} {mark : Mark} (reads : Reads line depth mark) :
    isHead line = match mark with
      | .closing _ => false
      | _ => true := by
  rw [isHead, reads.mark]
  cases mark <;> rfl

theorem reads_leaf (tagged : tag n = .ok t) (depth : Nat) :
    Reads (spaces (2 * depth) ++ "<" ++ t ++ " />") depth (.leaf n.kind.name) := by
  obtain ⟨behind, shape, same⟩ := tag_behind tagged
  have text : (spaces (2 * depth) ++ "<" ++ t ++ " />").toList =
      List.replicate (2 * depth) ' ' ++ '<' :: (n.kind.name.toList ++ (behind ++ [' ', '/', '>'])) := by
    simp [spaces, same]
  refine ⟨margin_line text, ?_⟩
  rw [mark_line text]
  cases shape with
  | nothing =>
    rw [List.nil_append, readMark_head _ (by decide)]
    simp
  | settings s =>
    rw [List.cons_append, List.cons_append, readMark_head _ (by decide)]
    simp

theorem reads_opening (tagged : tag n = .ok t) (depth : Nat) :
    Reads (spaces (2 * depth) ++ "<" ++ t ++ ">") depth (.opening n.kind.name) := by
  obtain ⟨behind, shape, same⟩ := tag_behind tagged
  have text : (spaces (2 * depth) ++ "<" ++ t ++ ">").toList =
      List.replicate (2 * depth) ' ' ++ '<' :: (n.kind.name.toList ++ (behind ++ ['>'])) := by
    simp [spaces, same]
  refine ⟨margin_line text, ?_⟩
  rw [mark_line text]
  cases shape with
  | nothing =>
    rw [List.nil_append, readMark_head _ (by decide)]
    cases n.kind <;> decide
  | settings s =>
    rw [List.cons_append, List.cons_append, readMark_head _ (by decide)]
    simp

theorem reads_closing (kind : Kind) (depth : Nat) :
    Reads (spaces (2 * depth) ++ "</" ++ kind.name ++ ">") depth (.closing kind.name) := by
  have text : (spaces (2 * depth) ++ "</" ++ kind.name ++ ">").toList =
      List.replicate (2 * depth) ' ' ++ '<' :: ('/' :: (kind.name.toList ++ ['>'])) := by
    simp [spaces]
  refine ⟨margin_line text, ?_⟩
  rw [mark_line text, readMark, dropWhile_append_cons (kind_letters kind) (by decide),
    takeWhile_append_cons (kind_letters kind) (by decide), if_pos rfl, String.ofList_toList]

/-! ### Nesting -/

theorem nested_leaf {depth : Nat} {around : List String} {line name : String}
    (reads : Reads line (depth + around.length) (.leaf name)) (lines : List String) :
    nested depth around (line :: lines) = nested depth around lines := by
  rw [nested.eq_def]
  simp [reads.mark, reads.margin]

theorem nested_opening {depth : Nat} {around : List String} {line name : String}
    (reads : Reads line (depth + around.length) (.opening name)) (lines : List String) :
    nested depth around (line :: lines) = nested depth (name :: around) lines := by
  rw [nested.eq_def]
  simp [reads.mark, reads.margin]

theorem nested_closing {depth : Nat} {around : List String} {line name : String}
    (reads : Reads line (depth + around.length) (.closing name)) (lines : List String) :
    nested depth (name :: around) (line :: lines) = nested depth around lines := by
  rw [nested.eq_def]
  simp [reads.mark, reads.margin]

/-- Every tag can be written. -/
def Tagged (nodes : List (Node × Nat)) : Prop := ∀ e ∈ nodes, tag e.1 = .ok (tagText e.1)

/-- The line of a node in pre-order. -/
def headLine (e : Node × Nat) : String :=
  spaces (2 * e.2) ++ "<" ++ tagText e.1 ++ if e.1.children.isEmpty then " />" else ">"

mutual
theorem nested_outline (depth : Nat) (around lines : List String) : ∀ n : Node,
    Tagged (preorder (depth + around.length) n) →
    nested depth around (outline (depth + around.length) n ++ lines) = nested depth around lines
  | ⟨kind, props, children⟩, tagged => by
    rw [preorder] at tagged
    obtain ⟨first, below⟩ := List.forall_mem_cons.mp tagged
    rw [outline]
    cases children with
    | nil => exact nested_leaf (reads_leaf first _) lines
    | cons n ns =>
      -- Inside, the node itself is the innermost one; the closing line takes it off again.
      have inner := nested_outlines depth (kind.name :: around)
        ((spaces (2 * (depth + around.length)) ++ "</" ++ kind.name ++ ">") :: lines) (n :: ns) below
      rw [nested_closing (reads_closing kind _)] at inner
      simp only [List.isEmpty_cons, Bool.false_eq_true, if_false, List.cons_append, List.append_assoc]
      rw [nested_opening (reads_opening first _)]
      exact inner

theorem nested_outlines (depth : Nat) (around lines : List String) : ∀ ns : List Node,
    Tagged (preorders (depth + around.length) ns) →
    nested depth around (outlines (depth + around.length) ns ++ lines) = nested depth around lines
  | [], _ => rfl
  | n :: ns, tagged => by
    rw [preorders] at tagged
    obtain ⟨first, rest⟩ := List.forall_mem_append.mp tagged
    rw [outlines, List.append_assoc, nested_outline depth around _ n first, nested_outlines depth around lines ns rest]
end

mutual
theorem heads_outline (depth : Nat) : ∀ n : Node, Tagged (preorder depth n) →
    (outline depth n).filter isHead = (preorder depth n).map headLine
  | ⟨kind, props, children⟩, tagged => by
    rw [preorder] at tagged ⊢
    obtain ⟨first, below⟩ := List.forall_mem_cons.mp tagged
    rw [outline, List.map_cons]
    cases children with
    | nil => exact List.filter_cons_of_pos (reads_leaf first depth).isHead_eq
    | cons n ns =>
      have head := (reads_opening first depth).isHead_eq
      have last := (reads_closing kind depth).isHead_eq
      rw [if_neg (by simp), List.filter_cons_of_pos head, List.filter_append, List.filter_cons_of_neg (by simp [last]),
        heads_outlines (depth + 1) (n :: ns) below, List.filter_nil, List.append_nil]
      rfl

theorem heads_outlines (depth : Nat) : ∀ ns : List Node, Tagged (preorders depth ns) →
    (outlines depth ns).filter isHead = (preorders depth ns).map headLine
  | [], _ => rfl
  | n :: ns, tagged => by
    rw [preorders] at tagged ⊢
    obtain ⟨first, rest⟩ := List.forall_mem_append.mp tagged
    rw [outlines, List.filter_append, List.map_append, heads_outline depth n first, heads_outlines depth ns rest]
end

/-! ### What the renderer answers -/

theorem tag_of_no_obstacle {n : Node} (free : obstacle? n = none) : tag n = .ok (tagText n) := by
  rw [obstacle?] at free
  rw [tagText]
  cases made : tag n with
  | ok text => rfl
  | error o =>
    rw [made] at free
    cases free

theorem tag_of_obstacle {n : Node} {o : Json.Obstacle} (met : obstacle? n = some o) : tag n = .error o := by
  rw [obstacle?] at met
  cases made : tag n with
  | ok text =>
    rw [made] at met
    cases met
  | error o' =>
    rw [made] at met
    exact congrArg Except.error (Option.some.inj met)

theorem settings_error {ps : Table Value} {o : Json.Obstacle} (failed : settings ps = .error o) :
    ∃ p ∈ ps, p.2.compact = .error o := by
  induction ps with
  | nil => cases failed
  | cons p ps ih =>
    rw [settings, setting] at failed
    cases text : p.2.compact with
    | error o' =>
      rw [text] at failed
      cases failed
      exact ⟨p, List.mem_cons_self, text⟩
    | ok t =>
      rw [text] at failed
      cases rest : settings ps with
      | ok as =>
        rw [rest] at failed
        cases failed
      | error o' =>
        rw [rest] at failed
        cases failed
        obtain ⟨q, member, refused⟩ := ih rest
        exact ⟨q, List.mem_cons_of_mem _ member, refused⟩

/-- A tag cannot be written because of one of its values: one with something foreign in it, with an integer that is
too long, or deeper than the fast encoder goes. -/
theorem tag_error {n : Node} {o : Json.Obstacle} (failed : tag n = .error o) :
    ∃ p ∈ n.kind.spec.project n.props, p.2.compact = .error o ∧ ¬ Json.Fits Json.fast.room p.2 := by
  rw [tag] at failed
  cases set : settings (n.kind.spec.project n.props) with
  | ok as =>
    rw [set] at failed
    cases failed
  | error o' =>
    rw [set] at failed
    cases failed
    obtain ⟨p, member, refused⟩ := settings_error set
    refine ⟨p, member, refused, fun fits => ?_⟩
    obtain ⟨text, written⟩ := Json.compact_of_fits (Json.fits_mono Json.fast_room_le fits)
    rw [refused] at written
    cases written

/-- What the renderer answers for nodes at a depth: their outline, or what stands in the way of the first tag, in
pre-order, that cannot be written. -/
inductive Rendered (depth : Nat) (ns : List Node) : Except Json.Obstacle (List String) → Prop
  | written (tagged : Tagged (preorders depth ns)) (nested : nested depth [] (outlines depth ns) = true)
      (once : (outlines depth ns).filter isHead = (preorders depth ns).map headLine) :
      Rendered depth ns (.ok (outlines depth ns))
  | stuck {before after : List (Node × Nat)} {node : Node} {level : Nat} {o : Json.Obstacle}
      (split : preorders depth ns = before ++ (node, level) :: after) (tagged : Tagged before)
      (failed : tag node = .error o)
      (refused : ∃ p ∈ node.kind.spec.project node.props,
        p.2.compact = .error o ∧ ¬ Json.Fits Json.fast.room p.2) : Rendered depth ns (.error o)

theorem rendered_lines (depth : Nat) (ns : List Node) : Rendered depth ns (lines (Job.openings depth ns)) := by
  rw [lines_eq_outlines, firstObstacle?]
  cases first : (preorders depth ns).findSome? fun e => obstacle? e.1 with
  | none =>
    have tagged : Tagged (preorders depth ns) :=
      fun e member => tag_of_no_obstacle (List.findSome?_eq_none_iff.mp first e member)
    have closed := nested_outlines depth [] [] ns tagged
    rw [List.append_nil] at closed
    exact .written tagged closed (heads_outlines depth ns tagged)
  | some o =>
    obtain ⟨before, ⟨node, level⟩, after, split, met, free⟩ := List.findSome?_eq_some_iff.mp first
    have failed := tag_of_obstacle met
    exact .stuck split (fun e member => tag_of_no_obstacle (free e member)) failed (tag_error failed)

/-- Nodes that the audit accepts can be read, and rendering them as they are is rendering what is read. -/
theorem lines_of_accepted {vs : List Value} (accepted : ∀ v ∈ vs, Grammar.IsNode 1 v) (depth : Nat) :
    ∃ ns, Node.readAll 1 0 vs = .ok ns ∧
      Untyped.lines (Untyped.Entry.openings depth vs) = lines (Job.openings depth ns) := by
  obtain ⟨ns, read, forms⟩ := Node.readAll_ok (fun v member => Node.read_ok (accepted v member)) 0
  have form := forms Form.untouched
  rw [Node.arrangedAll_untouched, Form.nodes_eq_map] at form
  exact ⟨ns, read, Untyped.lines_eq (Untyped.forall₂_openings form)⟩

/-- Whatever nodes the audit accepts and at whatever depth they start, the renderer writes their outline, in which
every node has one line and is closed where it was opened; unless a value in some tag cannot be written. -/
theorem accepted_nodes_rendered {vs : List Value} (accepted : ∀ v ∈ vs, Grammar.IsNode 1 v) (depth : Nat) :
    ∃ ns, Node.readAll 1 0 vs = .ok ns ∧ Rendered depth ns (lines (Job.openings depth ns)) ∧
      Untyped.lines (Untyped.Entry.openings depth vs) = lines (Job.openings depth ns) := by
  obtain ⟨ns, read, same⟩ := lines_of_accepted accepted depth
  exact ⟨ns, read, rendered_lines depth ns, same⟩

def panel : Value :=
  .object [("type", .str "Card"),
    ("children", .list [.object [("type", .str "Button"), ("props", .object [("label", .str "Go")])],
      .object [("type", .str "Input")]])]

def panelNode : Node := ⟨.card, [], [⟨.button, [("label", .str "Go")], []⟩, ⟨.input, [], []⟩]⟩

theorem panel_isNode : Grammar.IsNode 1 panel := by
  have bare (kind : Kind) (other : kind ≠ .table) : Grammar.FitsKind kind [] :=
    ⟨nofun, fun _ _ _ _ => nofun, nofun, fun same => (other same).elim⟩
  have labelled : Grammar.FitsKind .button [("label", .str "Go")] := by
    refine ⟨by decide, ?_, ?_, nofun⟩
    · intro prop choices text offered value
      by_cases same : "label" = prop
      · obtain rfl := same
        simp [Kind.spec] at offered
      · rw [Table.get?_cons, if_neg same] at value
        cases value
    · intro key v member _
      obtain ⟨-, rfl⟩ := Prod.mk.inj (List.mem_singleton.mp member)
      exact ⟨"Go", rfl⟩
  refine .parent (by decide) rfl (.absent (bare .card (by decide))) rfl fun child member => ?_
  rcases List.mem_cons.mp member with rfl | member
  · exact .leaf (by decide) rfl (.table labelled) rfl
  · obtain rfl := List.mem_singleton.mp member
    exact .leaf (by decide) rfl (.absent (bare .input (by decide))) rfl

/-- A card is opened and closed around the two nodes in it. -/
theorem accepted_nodes_rendered_panel :
    (∀ v ∈ [panel], Grammar.IsNode 1 v) ∧
      ∃ ns, Node.readAll 1 0 [panel] = .ok ns ∧ Rendered 3 ns (lines (Job.openings 3 ns)) ∧
        lines (Job.openings 3 ns) =
          .ok ["      <Card>", "        <Button label=\x7b\"Go\"\x7d />", "        <Input />", "      </Card>"] := by
  have accepted : ∀ v ∈ [panel], Grammar.IsNode 1 v := List.forall_mem_singleton.mpr panel_isNode
  obtain ⟨ns, read, rendered, -⟩ := accepted_nodes_rendered accepted 3
  refine ⟨accepted, ns, read, rendered, ?_⟩
  have known : Node.readAll 1 0 [panel] = .ok [panelNode] := by
    with_unfolding_all rfl
  obtain rfl := Except.ok.inj (read.symm.trans known)
  rw [lines_eq_outlines]
  with_unfolding_all rfl

/-! ### A tag that cannot be written -/

section
open Planner (nest nested_isPlan)

theorem obstacle_nest (e : Json.Encoder) {room n : Nat} (deep : room ≤ n) :
    e.obstacle? room (nest n) = some .tooDeep := by
  induction n generalizing room with
  | zero =>
    obtain rfl := Nat.le_zero.mp deep
    rfl
  | succ n ih =>
    cases room with
    | zero => rfl
    | succ room =>
      rw [nest, Json.Encoder.obstacle?, Json.Encoder.obstacleItems?, ih (Nat.le_of_succ_le_succ deep)]
      rfl

theorem compact_nest {n : Nat} (deep : Json.stackRoom ≤ n) : (nest n).compact = .error .tooDeep := by
  have fast := obstacle_nest Json.fast (Nat.le_trans Json.fast_room_le deep)
  have portable : Json.portable.obstacle? Json.portable.room (nest n) = _ := obstacle_nest Json.portable deep
  rw [Value.compact, Json.Encoder.encode, fast, Json.Encoder.encode, portable]

def deepButton (n : Nat) : Value := .object [("type", .str "Button"), ("props", .object [("variant", nest n)])]

theorem deepButton_isNode (n : Nat) : Grammar.IsNode 1 (deepButton n) := by
  obtain ⟨-, -, listed, each⟩ := nested_isPlan n
  obtain rfl := Value.list.inj (Option.some.inj listed)
  exact each _ List.mem_cons_self

theorem tag_deepButton {n : Nat} (deep : Json.stackRoom ≤ n) : Untyped.tag (deepButton n) = .error .tooDeep := by
  show (settings [("variant", nest n)]).map _ = _
  rw [settings, setting, compact_nest deep]
  rfl

/-- The audit accepts a button whose variant is nested lists, and the renderer does not answer with lines. -/
theorem deep_variant_unrendered :
    (∀ v ∈ [deepButton 3000], Grammar.IsNode 1 v) ∧
      Untyped.lines (Untyped.Entry.openings 3 [deepButton 3000]) = .error .tooDeep ∧
      ∃ ns, Node.readAll 1 0 [deepButton 3000] = .ok ns ∧ lines (Job.openings 3 ns) = .error .tooDeep := by
  have accepted : ∀ v ∈ [deepButton 3000], Grammar.IsNode 1 v :=
    List.forall_mem_singleton.mpr (deepButton_isNode 3000)
  have failed : Untyped.lines (Untyped.Entry.openings 3 [deepButton 3000]) = .error .tooDeep := by
    show Untyped.lines [.opening (deepButton 3000) 3] = _
    rw [Untyped.lines, tag_deepButton (by decide)]
  obtain ⟨ns, read, same⟩ := lines_of_accepted accepted 3
  exact ⟨accepted, failed, ns, read, same.symm.trans failed⟩

end

end ScreenPlan.Markup
