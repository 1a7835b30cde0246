import ScreenPlan.Proofs.Catalog
import ScreenPlan.Proofs.Json.Encoders
import ScreenPlan.Proofs.Markup.Tree
import ScreenPlan.Proofs.Plan.Acceptance

/-!
# Markup read back

A reader for rendered modules, and what it finds in the text of a plan: the layout and the nodes,
each with its props in catalog order. So no value of a prop can pass for markup.
-/

namespace ScreenPlan.Markup

/-! ### The reader -/

/-- Reads props up to the end of an opening tag; a blank before that is dropped. -/
def readAttributes : Nat → List Char → Option (Table Value × List Char)
  | 0, _ => none
  | fuel + 1, s =>
    match s with
    | ' ' :: '/' :: s => some ([], '/' :: s)
    | ' ' :: s =>
      match s.dropWhile (· ≠ '=') with
      | '=' :: '{' :: t =>
        match Json.value (2 * t.length) Json.maxNesting t with
        | .ok (v, '}' :: rest) =>
          (readAttributes fuel rest).map fun (ps, rest) =>
            ((String.ofList (s.takeWhile (· ≠ '=')), v) :: ps, rest)
        | _ => none
      | _ => none
    | s => some ([], s)

mutual
def readElement : Nat → List Char → Option (Node × List Char)
  | 0, _ => none
  | fuel + 1, s =>
    match Kind.named? (String.ofList (s.takeWhile Char.isAlpha)),
        readAttributes s.length (s.dropWhile Char.isAlpha) with
    | some kind, some (props, '/' :: '>' :: rest) => some (⟨kind, props, []⟩, rest)
    | some kind, some (props, '>' :: rest) =>
      match readElements fuel rest with
      | some (children, rest) =>
        ((kind.name.toList ++ ['>']).isPrefixOf? rest).map fun rest => (⟨kind, props, children⟩, rest)
      | none => none
    | _, _ => none

/-- Reads elements up to the next closing tag and that tag's first two characters. -/
def readElements : Nat → List Char → Option (List Node × List Char)
  | 0, _ => none
  | fuel + 1, s =>
    match Json.skipBlank s with
    | '<' :: '/' :: rest => some ([], rest)
    | '<' :: s =>
      match readElement fuel s with
      | some (n, rest) => (readElements fuel rest).map fun (ns, rest) => (n :: ns, rest)
      | none => none
    | _ => none
end

def opening (importPath : String) : String :=
  String.intercalate "\n" ["import React from 'react';",
    "import \x7b " ++ kindNames ++ " \x7d from '" ++ importPath ++ "';",
    "",
    "export default function GeneratedUI() \x7b",
    "  return (",
    "    <Layout type=\""]

/-- What stands behind the first two characters of the last closing tag. -/
def closing : String := "Layout>\n  );\n\x7d"

/-- The plan that a module with the given import path renders. -/
def recover (importPath code : String) : Option Plan := do
  let s ← (opening importPath).toList.isPrefixOf? code.toList
  let inner ← ['"', '>'].isPrefixOf? (s.dropWhile (· ≠ '"'))
  let (components, rest) ← readElements inner.length inner
  if rest = closing.toList then some ⟨String.ofList (s.takeWhile (· ≠ '"')), components⟩ else none

/-! ### Props -/

theorem isPrefixOf?_append (s t : List Char) : s.isPrefixOf? (s ++ t) = some t := by
  induction s with
  | nil => rfl
  | cons c s ih => rw [List.cons_append, List.isPrefixOf?, if_pos (beq_self_eq_true c), ih]

def attributeText (prop : String × Value) : List Char :=
  ' ' :: (prop.1.toList ++ '=' :: '{' :: (Json.print Json.plain.spelling .compact 0 prop.2 ++ ['}']))

theorem settings_legible {ps : Table Value} (legible : ∀ p ∈ ps, Json.Legible Json.maxNesting p.2) :
    ∃ texts, settings ps = .ok texts ∧ texts.map String.toList = ps.map fun p => (attributeText p).tail := by
  induction ps with
  | nil => exact ⟨[], rfl, rfl⟩
  | cons p ps ih =>
    obtain ⟨texts, rest, same⟩ := ih fun q hq => legible q (List.mem_cons_of_mem _ hq)
    have first := Json.compact_legible (legible p List.mem_cons_self)
    refine ⟨_, by rw [settings, setting, first, rest]; rfl, ?_⟩
    rw [List.map_cons, List.map_cons, same]
    simp [attributeText]

theorem tag_legible {n : Node}
    (legible : ∀ p ∈ n.kind.spec.project n.props, Json.Legible Json.maxNesting p.2) :
    ∃ text, tag n = .ok text ∧
      text.toList = n.kind.name.toList ++ (n.kind.spec.project n.props).flatMap attributeText := by
  obtain ⟨texts, rest, same⟩ := settings_legible legible
  refine ⟨_, by rw [tag, rest]; rfl, ?_⟩
  rw [String.toList_intercalate, List.map_cons, same]
  show List.intercalate [' '] _ = _
  rw [Json.intercalate_cons, List.flatMap_map]
  rfl

/-- The names of props end at the sign behind them and do not look like the end of a tag. -/
theorem allowed_name (kind : Kind) : ∀ name ∈ kind.spec.allowed, '=' ∉ name.toList ∧ '/' ∉ name.toList := by
  cases kind <;> decide

theorem takeWhile_append_cons {p : Char → Bool} {s : List Char} (all : ∀ c ∈ s, p c = true) {c : Char}
    (stop : p c = false) (t : List Char) : (s ++ c :: t).takeWhile p = s := by
  rw [List.takeWhile_append_of_pos all, List.takeWhile_cons_of_neg (by simp [stop]), List.append_nil]

theorem dropWhile_append_cons {p : Char → Bool} {s : List Char} (all : ∀ c ∈ s, p c = true) {c : Char}
    (stop : p c = false) (t : List Char) : (s ++ c :: t).dropWhile p = c :: t := by
  rw [List.dropWhile_append_of_pos all, List.dropWhile_cons_of_neg (by simp [stop])]

theorem readAttributes_attributeText {name : String} {v : Value} (equals : '=' ∉ name.toList)
    (slash : '/' ∉ name.toList) (legible : Json.Legible Json.maxNesting v) (fuel : Nat) (s : List Char) :
    readAttributes (fuel + 1) (attributeText (name, v) ++ s) =
      (readAttributes fuel s).map fun (ps, rest) => ((name, v) :: ps, rest) := by
  generalize inside : Json.print Json.plain.spelling .compact 0 v ++ '}' :: s = t
  have text : attributeText (name, v) ++ s = ' ' :: (name.toList ++ '=' :: '{' :: t) := by
    simp [attributeText, ← inside]
  have letters : ∀ c ∈ name.toList, decide (c ≠ '=') = true := by
    intro c hc
    exact decide_eq_true fun same => equals (same ▸ hc)
  have read : Json.value (2 * t.length) Json.maxNesting t = .ok (v, '}' :: s) := by
    rw [← inside]
    refine Json.value_print (l := .compact) trivial legible.readable 0 _ _ ?_ ?_
    · rw [List.length_append]
      omega
    · exact Json.ends_cons (by decide) (by decide) (by decide) (by decide)
  have noEnd : ∀ r, name.toList ++ '=' :: '{' :: t = '/' :: r → False := by
    intro r same
    cases chars : name.toList with
    | nil =>
      rw [chars] at same
      cases same
    | cons c cs =>
      rw [chars] at same slash
      exact slash ((List.cons.inj same).1 ▸ List.mem_cons_self)
  rw [text, readAttributes.eq_3 _ _ noEnd, dropWhile_append_cons letters (by decide),
    takeWhile_append_cons letters (by decide)]
  simp only [read, String.ofList_toList]

theorem readAttributes_text {ps : Table Value}
    (named : ∀ p ∈ ps, '=' ∉ p.1.toList ∧ '/' ∉ p.1.toList)
    (legible : ∀ p ∈ ps, Json.Legible Json.maxNesting p.2) {rest after : List Char}
    (stop : ∀ fuel, readAttributes (fuel + 1) rest = some ([], after)) (fuel : Nat) (enough : ps.length < fuel) :
    readAttributes fuel (ps.flatMap attributeText ++ rest) = some (ps, after) := by
  obtain ⟨fuel, rfl⟩ : ∃ f, fuel = f + 1 := ⟨fuel - 1, by omega⟩
  induction ps generalizing fuel with
  | nil => exact stop fuel
  | cons p ps ih =>
    obtain ⟨equals, slash⟩ := named p List.mem_cons_self
    rw [List.length_cons] at enough
    obtain ⟨fuel, rfl⟩ : ∃ f, fuel = f + 1 := ⟨fuel - 1, by omega⟩
    rw [List.flatMap_cons, List.append_assoc,
      readAttributes_attributeText equals slash (legible p List.mem_cons_self),
      ih (fun q hq => named q (List.mem_cons_of_mem _ hq)) (fun q hq => legible q (List.mem_cons_of_mem _ hq))
        fuel (by omega)]
    rfl

theorem readAttributes_leaf (s : List Char) (fuel : Nat) :
    readAttributes (fuel + 1) (' ' :: '/' :: s) = some ([], '/' :: s) := rfl

theorem readAttributes_parent (s : List Char) (fuel : Nat) :
    readAttributes (fuel + 1) ('>' :: s) = some ([], '>' :: s) := rfl

/-! ### Elements -/

theorem length_le_flatMap (ps : Table Value) : ps.length ≤ (ps.flatMap attributeText).length := by
  induction ps with
  | nil => exact Nat.le_refl _
  | cons p ps ih =>
    rw [List.flatMap_cons, List.length_append, List.length_cons, attributeText, List.length_cons]
    omega

theorem kind_letters (kind : Kind) : ∀ c ∈ kind.name.toList, c.isAlpha = true := by
  have letters : kind.name.toList.all Char.isAlpha = true := by
    cases kind <;> decide
  exact List.all_eq_true.mp letters

theorem kind_head (kind : Kind) : ∃ c rest, kind.name.toList = c :: rest ∧ c ≠ '/' := by
  have head : kind.name.toList.head? ≠ none ∧ kind.name.toList.head? ≠ some '/' := by
    cases kind <;> decide
  cases same : kind.name.toList with
  | nil => exact (head.1 (same ▸ rfl)).elim
  | cons c rest => exact ⟨c, rest, rfl, fun slash => head.2 (by rw [same, slash]; rfl)⟩

theorem read_tag (kind : Kind) {ps : Table Value} (named : ∀ p ∈ ps, '=' ∉ p.1.toList ∧ '/' ∉ p.1.toList)
    (legible : ∀ p ∈ ps, Json.Legible Json.maxNesting p.2) {c : Char} {rest after : List Char}
    (noLetter : c.isAlpha = false)
    (stop : ∀ fuel, readAttributes (fuel + 1) (c :: rest) = some ([], after)) {s : List Char}
    (text : s = kind.name.toList ++ (ps.flatMap attributeText ++ c :: rest)) :
    Kind.named? (String.ofList (s.takeWhile Char.isAlpha)) = some kind ∧
      readAttributes s.length (s.dropWhile Char.isAlpha) = some (ps, after) := by
  -- A letter behind the name of the kind would be taken for a part of it.
  obtain ⟨d, t, cut, apart⟩ : ∃ d t, ps.flatMap attributeText ++ c :: rest = d :: t ∧ d.isAlpha = false := by
    cases ps with
    | nil => exact ⟨c, rest, rfl, noLetter⟩
    | cons p ps => exact ⟨' ', _, rfl, by decide⟩
  have enough : ps.length < s.length := by
    have := length_le_flatMap ps
    rw [text, List.length_append, List.length_append, List.length_cons]
    omega
  have read := readAttributes_text named legible stop s.length enough
  rw [cut] at text read
  generalize s.length = fuel at read ⊢
  rw [text, takeWhile_append_cons (kind_letters kind) apart, dropWhile_append_cons (kind_letters kind) apart,
    String.ofList_toList]
  exact ⟨Kind.named?_name kind, read⟩

/-- Lines as they stand in a text, each behind a line break. -/
def written (ls : List String) : List Char := ls.flatMap fun l => '\n' :: l.toList

theorem written_append (ls ms : List String) : written (ls ++ ms) = written ls ++ written ms :=
  List.flatMap_append

theorem blank_margin (level : Nat) : Json.Blank ('\n' :: (pad level).toList) := by
  intro c hc
  rcases List.mem_cons.mp hc with rfl | hc
  · exact .inr (.inr (.inl rfl))
  · rw [pad, String.toList_ofList] at hc
    exact .inl (List.eq_of_mem_replicate hc)

/-- A node is found again in what the renderer writes for it, at any level. -/
def ReadsBack (n : Node) : Prop :=
  ∀ level, ∃ ls c inside, nodeLines level n = .ok ls ∧
    written ls = '\n' :: (pad level).toList ++ '<' :: c :: inside ∧ c ≠ '/' ∧
    ∀ fuel rest, (c :: (inside ++ rest)).length ≤ fuel →
      readElement fuel (c :: (inside ++ rest)) = some (n.arranged Form.inCatalogOrder, rest)

theorem readElements_closing {margin : List Char} (blank : Json.Blank margin) (fuel : Nat)
    (rest : List Char) : readElements (fuel + 1) (margin ++ '<' :: '/' :: rest) = some ([], rest) := by
  rw [readElements, Json.skipBlank_append blank]
  rfl

theorem readElements_opening {margin s : List Char} {c : Char} (blank : Json.Blank margin) (slash : c ≠ '/')
    (fuel : Nat) : readElements (fuel + 1) (margin ++ '<' :: c :: s) =
      match readElement fuel (c :: s) with
      | some (n, rest) => (readElements fuel rest).map fun (ns, rest) => (n :: ns, rest)
      | none => none := by
  have opened : Json.skipBlank ('<' :: c :: s) = '<' :: c :: s := rfl
  rw [readElements, Json.skipBlank_append blank, opened]
  split
  · next same => exact (slash (List.cons.inj (List.cons.inj same).2).1).elim
  · next same =>
    obtain rfl := (List.cons.inj same).2
    rfl
  · next other => exact (other _ rfl).elim

theorem readElements_forest {ns : List Node} (each : ∀ n ∈ ns, ReadsBack n) (level : Nat) :
    ∃ ls, forestLines level ns = .ok ls ∧ ∀ fuel margin rest, Json.Blank margin →
      (written ls ++ (margin ++ '<' :: '/' :: rest)).length ≤ fuel →
      readElements fuel (written ls ++ (margin ++ '<' :: '/' :: rest)) =
        some (Node.arrangedAll Form.inCatalogOrder ns, rest) := by
  induction ns with
  | nil =>
    refine ⟨[], by rw [forestLines], fun fuel margin rest blank enough => ?_⟩
    rw [List.length_append, List.length_append, List.length_cons] at enough
    obtain ⟨fuel, rfl⟩ : ∃ f, fuel = f + 1 := ⟨fuel - 1, by omega⟩
    rw [Node.arrangedAll]
    exact readElements_closing blank fuel rest
  | cons n ns ih =>
    obtain ⟨ls, c, inside, made, text, slash, read⟩ := each n List.mem_cons_self level
    obtain ⟨ms, others, reads⟩ := ih fun m hm => each m (List.mem_cons_of_mem _ hm)
    refine ⟨ls ++ ms, by rw [forestLines, made, others]; rfl, fun fuel margin rest blank enough => ?_⟩
    generalize behind : written ms ++ (margin ++ '<' :: '/' :: rest) = s at reads
    have whole : written (ls ++ ms) ++ (margin ++ '<' :: '/' :: rest) =
        ('\n' :: (pad level).toList) ++ '<' :: c :: (inside ++ s) := by
      rw [written_append, text, ← behind]
      simp only [List.append_assoc, List.cons_append]
    rw [whole] at enough ⊢
    simp only [List.length_append, List.length_cons] at enough
    obtain ⟨fuel, rfl⟩ : ∃ f, fuel = f + 1 := ⟨fuel - 1, by omega⟩
    have first := read fuel s (by simp only [List.length_append, List.length_cons]; omega)
    have others := reads fuel margin rest blank (by rw [behind]; omega)
    rw [behind] at others
    rw [readElements_opening (blank_margin level) slash, first]
    dsimp only
    rw [others, Node.arrangedAll]
    rfl

theorem readElement_leaf {kind : Kind} {ps : Table Value} {s rest : List Char} {fuel : Nat}
    (read : Kind.named? (String.ofList (s.takeWhile Char.isAlpha)) = some kind ∧
      readAttributes s.length (s.dropWhile Char.isAlpha) = some (ps, '/' :: '>' :: rest)) :
    readElement (fuel + 1) s = some (⟨kind, ps, []⟩, rest) := by
  rw [readElement, read.1, read.2]
  rfl

theorem readElement_parent {kind : Kind} {ps : Table Value} {children : List Node}
    {s inside rest : List Char} {fuel : Nat}
    (read : Kind.named? (String.ofList (s.takeWhile Char.isAlpha)) = some kind ∧
      readAttributes s.length (s.dropWhile Char.isAlpha) = some (ps, '>' :: inside))
    (below : readElements fuel inside = some (children, kind.name.toList ++ '>' :: rest)) :
    readElement (fuel + 1) s = some (⟨kind, ps, children⟩, rest) := by
  have closed : kind.name.toList ++ '>' :: rest = (kind.name.toList ++ ['>']) ++ rest := by
    rw [List.append_assoc, List.singleton_append]
  rw [readElement, read.1, read.2]
  simp only [below, closed, isPrefixOf?_append, Option.map_some]

theorem readsBack_node {kind : Kind} {props : Table Value} {children : List Node}
    (legible : ∀ name v, props.get? name = some v → Json.Legible Json.maxNesting v)
    (each : ∀ n ∈ children, ReadsBack n) : ReadsBack ⟨kind, props, children⟩ := by
  intro level
  have values : ∀ p ∈ kind.spec.project props, Json.Legible Json.maxNesting p.2 :=
    fun p hp => legible p.1 p.2 (Spec.mem_project.mp hp).2
  have named : ∀ p ∈ kind.spec.project props, '=' ∉ p.1.toList ∧ '/' ∉ p.1.toList :=
    fun p hp => allowed_name kind p.1 (Spec.mem_project.mp hp).1
  obtain ⟨t, tagged, text⟩ := tag_legible (n := ⟨kind, props, children⟩) values
  obtain ⟨k, ks, first, slash⟩ := kind_head kind
  generalize arranged : kind.spec.project props = ps at values named text
  cases children with
  | nil =>
    have lines : written [openingLine t true level] = '\n' :: (pad level).toList ++ '<' :: k ::
        (ks ++ (ps.flatMap attributeText ++ [' ', '/', '>'])) := by
      simp [written, openingLine, text, first]
    refine ⟨_, k, _, by rw [nodeLines, tagged]; rfl, lines, slash, fun fuel rest enough => ?_⟩
    obtain ⟨fuel, rfl⟩ : ∃ f, fuel = f + 1 := ⟨fuel - 1, by rw [List.length_cons] at enough; omega⟩
    rw [Node.arranged, Node.arrangedAll, Form.inCatalogOrder, arranged]
    refine readElement_leaf (read_tag kind named values (by decide) (readAttributes_leaf ('>' :: rest)) ?_)
    rw [first]
    simp
  | cons n ns =>
    obtain ⟨ls, made, read⟩ := readElements_forest each (level + 1)
    have lines : written (openingLine t false level :: (ls ++ [closingLine kind level])) =
        '\n' :: (pad level).toList ++ '<' :: k :: (ks ++ (ps.flatMap attributeText ++ '>' :: (written ls ++
          (('\n' :: (pad level).toList) ++ '<' :: '/' :: (kind.name.toList ++ ['>']))))) := by
      simp [written, openingLine, closingLine, text, first]
    refine ⟨_, k, _, by rw [nodeLines, tagged]; exact congrArg (Except.map _) made, lines, slash,
      fun fuel rest enough => ?_⟩
    generalize behind : written ls ++ (('\n' :: (pad level).toList) ++ '<' :: '/' ::
      (kind.name.toList ++ '>' :: rest)) = s
    have whole : k :: (ks ++ (ps.flatMap attributeText ++ '>' :: (written ls ++ (('\n' :: (pad level).toList) ++
        '<' :: '/' :: (kind.name.toList ++ ['>'])))) ++ rest) =
        kind.name.toList ++ (ps.flatMap attributeText ++ '>' :: s) := by
      rw [← behind, first]
      simp only [List.append_assoc, List.cons_append, List.nil_append]
    rw [whole, List.length_append, List.length_append, List.length_cons] at enough
    obtain ⟨fuel, rfl⟩ : ∃ f, fuel = f + 1 := ⟨fuel - 1, by omega⟩
    have below := read fuel _ (kind.name.toList ++ '>' :: rest) (blank_margin level) (by rw [behind]; omega)
    rw [behind] at below
    rw [whole, Node.arranged, Form.inCatalogOrder, arranged]
    exact readElement_parent
      (read_tag kind named values (by decide) (readAttributes_parent s) rfl) below

inductive LegibleNode : Node → Prop
  | node {kind : Kind} {props : Table Value} {children : List Node}
      (values : ∀ name v, props.get? name = some v → Json.Legible Json.maxNesting v)
      (each : ∀ n ∈ children, LegibleNode n) : LegibleNode ⟨kind, props, children⟩

theorem readsBack_legible {n : Node} (legible : LegibleNode n) : ReadsBack n := by
  induction legible with
  | node values each ih => exact readsBack_node values ih

/-! ### Modules -/

theorem toList_intercalate_lines (l : String) (ls : List String) :
    (String.intercalate "\n" (l :: ls)).toList = l.toList ++ written ls := by
  rw [String.toList_intercalate, List.map_cons]
  show List.intercalate ['\n'] _ = _
  rw [Json.intercalate_cons, List.flatMap_map]
  rfl

theorem toList_moduleLines (importPath layout : String) (ls : List String) :
    (String.intercalate "\n" (moduleLines importPath layout ls)).toList =
      (opening importPath).toList ++ (layout.toList ++ '"' :: '>' ::
        (written ls ++ (('\n' :: (pad 2).toList) ++ '<' :: '/' :: closing.toList))) := by
  have last : written ["    </Layout>", "  );", "\x7d"] =
      ('\n' :: (pad 2).toList) ++ '<' :: '/' :: closing.toList := by
    with_unfolding_all rfl
  rw [← last, moduleLines, opening]
  generalize kindNames = names
  simp only [List.cons_append, toList_intercalate_lines]
  simp [written]

theorem recover_renderPlan {p : Plan} (unquoted : '"' ∉ p.layout.toList)
    (legible : ∀ n ∈ p.components, LegibleNode n) (importPath : String) :
    ∃ code, renderPlan importPath p = .ok code ∧
      recover importPath code = some (p.arranged Form.inCatalogOrder) := by
  obtain ⟨ls, made, read⟩ := readElements_forest (fun n hn => readsBack_legible (legible n hn)) 3
  refine ⟨_, by rw [renderPlan, body_eq, made]; rfl, ?_⟩
  have letters : ∀ c ∈ p.layout.toList, decide (c ≠ '"') = true := by
    intro c hc
    exact decide_eq_true fun same => unquoted (same ▸ hc)
  have quote : decide ('"' ≠ '"') = false := by decide
  generalize inside : written ls ++ (('\n' :: (pad 2).toList) ++ '<' :: '/' :: closing.toList) = s
  have found := read s.length _ closing.toList (blank_margin 2)
    (Nat.le_of_eq (congrArg List.length inside))
  rw [inside] at found
  have text := toList_moduleLines importPath p.layout ls
  rw [inside] at text
  have body : ['"', '>'].isPrefixOf? ('"' :: '>' :: s) = some s := isPrefixOf?_append ['"', '>'] s
  rw [recover, text, isPrefixOf?_append]
  simp only [Option.bind_eq_bind, Option.bind_some, dropWhile_append_cons letters quote,
    takeWhile_append_cons letters quote, body, found, if_true, String.ofList_toList]
  rfl

/-! ### Values of props -/

/-- A prop of the node or of a node below it has the value. -/
inductive Carries (w : Value) : Value → Prop
  | here {fields props : Table Value} {name : String}
      (table : fields.get? "props" = some (.object props)) (given : props.get? name = some w) :
      Carries w (.object fields)
  | under {fields : Table Value} {children : List Value} {child : Value}
      (listed : fields.get? "children" = some (.list children)) (member : child ∈ children)
      (carried : Carries w child) : Carries w (.object fields)

inductive CarriesProp (w : Value) : Value → Prop
  | root {fields : Table Value} {components : List Value} {node : Value}
      (listed : fields.get? "components" = some (.list components)) (member : node ∈ components)
      (carried : Carries w node) : CarriesProp w (.object fields)

theorem given_object {o : Option Value} {props : Table Value} (h : Form.given o = .object props) :
    o = some (.object props) ∨ props = [] := by
  cases o with
  | none => exact .inr (Value.object.inj h).symm
  | some v =>
    cases v with
    | null => exact .inr (Value.object.inj h).symm
    | _ => exact .inl (congrArg some h)

theorem listed_form {o : Option Value} {other : Value} {formed : List Value} {child : Value}
    (h : (o.map (Form.listed Form.untouched)).getD other = .list formed) (member : child ∈ formed)
    (empty : ∀ vs, other = .list vs → vs = []) :
    ∃ vs, o = some (.list vs) ∧ ∃ v ∈ vs, child = Form.node Form.untouched v := by
  cases o with
  | none =>
    obtain rfl := empty formed h
    cases member
  | some v =>
    cases v with
    | list vs =>
      rw [Option.map_some, Option.getD_some, Form.listed_list] at h
      obtain rfl := Value.list.inj h
      obtain ⟨v, hv, same⟩ := List.mem_map.mp member
      exact ⟨vs, rfl, v, hv, same.symm⟩
    | _ => simp only [Option.map_some, Option.getD_some, Form.listed, reduceCtorEq] at h

/-- The form of a node has no values that the node does not have. -/
theorem carries_of_form {w u : Value} (carried : Carries w u) :
    ∀ v, u = Form.node Form.untouched v → Carries w v := by
  induction carried with
  | @here formed props name table given =>
    intro v same
    cases v with
    | object fields =>
      rw [Form.node] at same
      obtain rfl := Value.object.inj same
      simp only [Table.get?_cons, String.reduceEq, if_true, if_false, Form.arrange_untouched] at table
      rcases given_object (Option.some.inj table) with found | rfl
      · exact .here found given
      · cases given
    | _ => cases same
  | @under formed children child listed member carried ih =>
    intro v same
    cases v with
    | object fields =>
      rw [Form.node] at same
      obtain rfl := Value.object.inj same
      simp only [Table.get?_cons, String.reduceEq, if_true, if_false, Form.children_eq] at listed
      obtain ⟨vs, found, v, hv, rfl⟩ := listed_form (Option.some.inj listed) member
        fun vs same => (Value.list.inj same).symm
      exact .under found hv (ih v rfl)
    | _ => cases same

theorem carriesProp_of_form {w c : Value} (carried : CarriesProp w (Form.plan Form.untouched c)) :
    CarriesProp w c := by
  cases c with
  | object fields =>
    rw [Form.plan] at carried
    obtain ⟨listed, member, carried⟩ := carried
    simp only [Table.get?_cons, String.reduceEq, if_true, if_false] at listed
    obtain ⟨vs, found, v, hv, rfl⟩ := listed_form (Option.some.inj listed) member fun _ same => by cases same
    exact .root found hv (carries_of_form carried v rfl)
  | _ => cases carried

mutual
theorem legibleNode_of_data : ∀ n : Node,
    (∀ w, Carries w n.data → Json.Legible Json.maxNesting w) → LegibleNode n
  | ⟨kind, props, children⟩, legible => by
    refine .node (fun name v given => legible v ?_) ?_
    · rw [Node.data]
      exact .here rfl given
    · apply legibleNodes_of_data children
      intro w child member carried
      apply legible w
      rw [Node.data]
      exact .under rfl member carried

theorem legibleNodes_of_data : ∀ ns : List Node,
    (∀ w, ∀ v ∈ Node.dataAll ns, Carries w v → Json.Legible Json.maxNesting w) → ∀ n ∈ ns, LegibleNode n
  | [], _ => fun n hn => nomatch hn
  | n :: ns, legible => by
    rw [Node.dataAll] at legible
    intro m hm
    rcases List.mem_cons.mp hm with same | hm
    · rw [same]
      exact legibleNode_of_data n fun w carried => legible w _ List.mem_cons_self carried
    · exact legibleNodes_of_data ns (fun w v hv => legible w v (List.mem_cons_of_mem _ hv)) m hm
end

theorem legible_of_read {c : Value} {p : Plan} (plan : Grammar.IsPlan c) (got : Plan.read c = .ok p)
    (legible : ∀ w, CarriesProp w c → Json.Legible Json.maxNesting w) :
    ∀ n ∈ p.components, LegibleNode n := by
  have form := Plan.data_of_read plan got Form.untouched
  rw [Plan.arranged_untouched] at form
  apply legibleNodes_of_data
  intro w v member carried
  apply legible w
  apply carriesProp_of_form
  rw [← form]
  exact .root rfl member carried

/-! ### Accepted candidates -/

/-- Nothing in a candidate's props is beyond reading back. -/
def LegibleProps (c : Value) : Prop := ∀ w, CarriesProp w c → Json.Legible Json.maxNesting w

theorem unquoted_variant : ∀ layout ∈ layoutVariants, '"' ∉ layout.toList := by
  decide

theorem unquoted_layout {p : Plan} (plan : Grammar.IsPlan p.data) : '"' ∉ p.layout.toList := by
  obtain ⟨fields, same⟩ : ∃ fields, p.data = .object fields := ⟨_, rfl⟩
  rw [same] at plan
  obtain ⟨variant, arranged⟩ := plan
  obtain rfl := Value.object.inj same
  obtain rfl := Value.str.inj (Option.some.inj arranged)
  exact unquoted_variant _ variant

theorem recover_of_accepted {c : Value} (accepted : audit c = []) (legible : LegibleProps c)
    (importPath : String) : ∃ code p, generate importPath c = .ok ⟨code, true⟩ ∧
      recover importPath code = some p ∧ p.data = Form.plan Form.inCatalogOrder c := by
  have plan := Grammar.audit_eq_nil.mp accepted
  obtain ⟨p, got, form⟩ := Plan.read_ok plan
  obtain ⟨code, rendered, found⟩ := recover_renderPlan (unquoted_layout (Plan.isPlan_data plan got))
    (legible_of_read plan got legible) importPath
  refine ⟨code, _, ?_, found, form _⟩
  rw [generate, accepted, got]
  dsimp only
  rw [rendered]
  rfl

/-! ### A card full of markup -/

def hostileButton : Value :=
  .object [("type", .str "Button"),
    ("props", .object [("size", .list [.int (-3), .object [("\x7d>", .null)]]), ("label", .str "a=\x7b1\x7d")])]

def hostileCard : Value :=
  .object [("type", .str "Card"), ("props", .object [("content", .str "\"\x7d />\n    </Card>")]),
    ("children", .list [hostileButton])]

def hostile : Value := .object [("layout", .str "flex"), ("components", .list [hostileCard])]

theorem legible_hostileButton : ∀ w, Carries w hostileButton → Json.Legible Json.maxNesting w := by
  rintro w (⟨table, given⟩ | ⟨listed, -⟩)
  · obtain rfl := Value.object.inj (Option.some.inj table)
    simp only [Table.get?_cons, Table.get?_nil] at given
    split at given
    · obtain rfl := Option.some.inj given
      refine .list fun x hx => ?_
      simp only [List.mem_cons, List.not_mem_nil, or_false] at hx
      rcases hx with rfl | rfl
      · have short : (-3 : Int).natAbs < 10 ^ 1 := by decide
        exact .int (Nat.lt_of_lt_of_le short (Nat.pow_le_pow_right (by decide) (by decide)))
      · refine .object (by decide) fun name v member => ?_
        obtain rfl := congrArg Prod.snd (List.mem_singleton.mp member)
        exact .null
    · split at given
      · obtain rfl := Option.some.inj given
        exact .str _
      · cases given
  · cases listed

theorem legible_hostile : LegibleProps hostile := by
  rintro w ⟨listed, member, carried⟩
  obtain rfl := Value.list.inj (Option.some.inj listed)
  obtain rfl := List.mem_singleton.mp member
  rcases carried with ⟨table, given⟩ | ⟨listed, member, carried⟩
  · obtain rfl := Value.object.inj (Option.some.inj table)
    simp only [Table.get?_cons, Table.get?_nil] at given
    split at given
    · obtain rfl := Option.some.inj given
      exact .str _
    · cases given
  · obtain rfl := Value.list.inj (Option.some.inj listed)
    obtain rfl := List.mem_singleton.mp member
    exact legible_hostileButton w carried

theorem audit_hostile : audit hostile = [] := by
  cbv

/-! ### Every accepted candidate -/

/-- The text rendered for an accepted candidate holds the form of the candidate and nothing else, so
candidates of different forms are never rendered alike, whatever their strings are. -/
theorem recover_generate (importPath : String) {c : Value} (accepted : audit c = [])
    (legible : LegibleProps c) :
    (∃ code p, generate importPath c = .ok ⟨code, true⟩ ∧ recover importPath code = some p ∧
      p.data = Form.plan Form.inCatalogOrder c) ∧
    ∀ d, audit d = [] → LegibleProps d → generate importPath d = generate importPath c →
      Form.plan Form.inCatalogOrder d = Form.plan Form.inCatalogOrder c := by
  have found := recover_of_accepted accepted legible importPath
  refine ⟨found, fun d accepted' legible' same => ?_⟩
  obtain ⟨code, p, made, read, form⟩ := found
  obtain ⟨code', p', made', read', form'⟩ := recover_of_accepted accepted' legible' importPath
  rw [made, made'] at same
  obtain ⟨rfl, -⟩ := Generated.mk.inj (Except.ok.inj same)
  obtain rfl := Option.some.inj (read.symm.trans read')
  rw [← form', form]

/-- The card's text is the end of a card and its props hold braces; it is read back all the same. -/
theorem recover_generate_hostile :
    audit hostile = [] ∧ LegibleProps hostile ∧
      (∃ code p, generate defaultImportPath hostile = .ok ⟨code, true⟩ ∧
        recover defaultImportPath code = some p ∧ p.data = Form.plan Form.inCatalogOrder hostile) ∧
      ∀ d, audit d = [] → LegibleProps d →
        generate defaultImportPath d = generate defaultImportPath hostile →
        Form.plan Form.inCatalogOrder d = Form.plan Form.inCatalogOrder hostile :=
  ⟨audit_hostile, legible_hostile, recover_generate defaultImportPath audit_hostile legible_hostile⟩

end ScreenPlan.Markup
