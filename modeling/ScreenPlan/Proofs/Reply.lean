import ScreenPlan.Proofs.Json.RoundTrip
import ScreenPlan.Proofs.Text.CodePoints
import ScreenPlan.Reply

/-!
# Objects in replies

A reply that is no JSON document may still hold one. The longest part of the text that begins with an opening and
ends with a closing brace decides: what it says is the answer, and if it says nothing or does not exist, there is
none. Prose around an object does no harm, as long as no opening brace comes before the object and no closing one
after it, and as long as there is no half of a character in it: a text with one of these cannot be encoded, and then
no part of it is looked at.
-/

namespace ScreenPlan.Reply

/-! ### Parts in braces -/

def Braced (t : List Char) : Prop := ∃ inner, t = '{' :: (inner ++ ['}'])

/-- The longest part of the text that stands in braces. -/
structure Longest (s body : List Char) : Prop where
  braced : Braced body
  part : body <:+: s
  longest : ∀ t, Braced t → t <:+: s → t.length ≤ body.length

/-- Somewhere an opening brace comes before a closing one. -/
def Paired (s : List Char) : Prop := ∃ front inner back, s = front ++ '{' :: (inner ++ '}' :: back)

variable {s t body front back : List Char}

theorem paired_iff : Paired s ↔ ∃ t, Braced t ∧ t <:+: s := by
  constructor
  · rintro ⟨front, inner, back, rfl⟩
    exact ⟨_, ⟨inner, rfl⟩, front, back, by simp⟩
  · rintro ⟨_, ⟨inner, rfl⟩, front, back, rfl⟩
    exact ⟨front, inner, back, by simp⟩

/-- The first opening and the last closing brace enclose the part. -/
structure Outermost (s front body back : List Char) : Prop where
  whole : s = front ++ body ++ back
  braced : Braced body
  opening : '{' ∉ front
  closing : '}' ∉ back

theorem length_le_of_not_mem {c : Char} {x y u v : List Char} (absent : c ∉ x) (same : x ++ u = y ++ c :: v) :
    x.length ≤ y.length := by
  rcases List.append_eq_append_iff.mp same with ⟨between, rfl, -⟩ | ⟨between, rfl, rest⟩
  · rw [List.length_append]
    exact Nat.le_add_right ..
  · cases between with
    | nil => rw [List.append_nil]
    | cons d between =>
      obtain rfl := (List.cons.inj rest).1
      exact (absent (List.mem_append_right _ List.mem_cons_self)).elim

/-- Whatever stands in braces stands between the outermost ones. -/
theorem Outermost.bounds (outermost : Outermost s front body back) {x y : List Char} (braced : Braced t)
    (same : s = x ++ t ++ y) : front.length ≤ x.length ∧ back.length ≤ y.length := by
  obtain ⟨whole, -, opening, closing⟩ := outermost
  obtain ⟨inner, rfl⟩ := braced
  constructor
  · refine length_le_of_not_mem opening (u := body ++ back) (v := inner ++ ['}'] ++ y) ?_
    rw [← List.append_assoc, ← whole, same]
    simp
  · -- The same, read from the end.
    have closing : '}' ∉ back.reverse := fun member => closing (List.mem_reverse.mp member)
    have same : back.reverse ++ (body.reverse ++ front.reverse) =
        y.reverse ++ '}' :: (inner.reverse ++ '{' :: x.reverse) := by
      rw [← List.reverse_append, ← List.reverse_append, ← whole, same]
      simp
    have bound := length_le_of_not_mem closing same
    rwa [List.length_reverse, List.length_reverse] at bound

theorem exists_outermost (paired : Paired s) : ∃ front body back, Outermost s front body back := by
  obtain ⟨x, inner, y, rfl⟩ := paired
  obtain ⟨front, rest, first, opening⟩ := List.eq_append_cons_of_mem
    (show '{' ∈ x ++ '{' :: (inner ++ '}' :: y) from List.mem_append_right _ List.mem_cons_self)
  -- The first opening brace may come before that of the pair, but the closing one of the pair stands behind it.
  have closes : '}' ∈ rest := by
    rcases List.append_eq_append_iff.mp first with ⟨between, rfl, after⟩ | ⟨between, rfl, after⟩
    · cases between with
      | nil => simp [← (List.cons.inj after).2]
      | cons d between =>
        obtain rfl := (List.cons.inj after).1
        exact (opening (List.mem_append_right _ List.mem_cons_self)).elim
    · cases between with
      | nil => simp [(List.cons.inj after).2]
      | cons d between => simp [(List.cons.inj after).2]
  obtain ⟨back, inside, last, closing⟩ := List.eq_append_cons_of_mem (List.mem_reverse.mpr closes)
  refine ⟨front, '{' :: (inside.reverse ++ ['}']), back.reverse, ?_, ⟨_, rfl⟩, opening, ?_⟩
  · have rest : rest = inside.reverse ++ '}' :: back.reverse := by
      rw [← List.reverse_reverse rest, last]
      simp
    rw [first, rest]
    simp
  · exact fun member => closing (List.mem_reverse.mp member)

theorem longest_of_outermost (outermost : Outermost s front body back) : Longest s body := by
  refine ⟨outermost.braced, ⟨front, back, outermost.whole.symm⟩, fun t braced part => ?_⟩
  obtain ⟨x, y, same⟩ := part
  obtain ⟨before, after⟩ := outermost.bounds braced same.symm
  have lengths := congrArg List.length (same.trans outermost.whole)
  simp only [List.length_append] at lengths
  omega

theorem Longest.eq_of_outermost (longest : Longest s t) (outermost : Outermost s front body back) : t = body := by
  obtain ⟨x, y, same⟩ := longest.part
  obtain ⟨before, after⟩ := outermost.bounds longest.braced same.symm
  have most := longest.longest body outermost.braced ⟨front, back, outermost.whole.symm⟩
  have same := same.trans outermost.whole
  have lengths := congrArg List.length same
  simp only [List.length_append] at lengths
  rw [List.append_assoc, List.append_assoc] at same
  -- Neither end can be any longer, so both are as long as those of the outermost part.
  have rest := (List.append_inj same (by omega)).2
  exact (List.append_inj rest (by omega)).1

/-! ### The span of a text -/

theorem braceSpan?_of_outermost (outermost : Outermost s front body back) :
    ∃ span, braceSpan? s = some span ∧ slice s span = body := by
  obtain ⟨rfl, ⟨inner, rfl⟩, opening, closing⟩ := outermost
  have start : (front ++ '{' :: (inner ++ ['}']) ++ back).takeWhile (· ≠ '{') = front := by
    rw [List.append_assoc, List.takeWhile_append_of_pos, List.cons_append, List.takeWhile_cons_of_neg (by decide),
      List.append_nil]
    exact fun c hc => decide_eq_true fun same => opening (same ▸ hc)
  have stop : (front ++ '{' :: (inner ++ ['}']) ++ back).reverse.takeWhile (· ≠ '}') = back.reverse := by
    rw [List.reverse_append, List.takeWhile_append_of_pos, List.reverse_append, List.reverse_cons,
      List.reverse_append, List.reverse_singleton, List.cons_append, List.cons_append, List.cons_append,
      List.takeWhile_cons_of_neg (by decide), List.append_nil]
    exact fun c hc => decide_eq_true fun same => closing (same ▸ List.mem_reverse.mp hc)
  have size : (front ++ '{' :: (inner ++ ['}']) ++ back).length - back.reverse.length =
      (front ++ '{' :: (inner ++ ['}'])).length := by
    rw [List.length_reverse, List.length_append]
    exact Nat.add_sub_cancel ..
  refine ⟨(front.length, (front ++ '{' :: (inner ++ ['}'])).length), ?_, ?_⟩
  · unfold braceSpan?
    simp only [start, stop, size]
    exact if_pos (by simp)
  · rw [slice, List.take_left, List.drop_left]

theorem braceSpan?_of_not_paired (alone : ¬ Paired s) : braceSpan? s = none := by
  unfold braceSpan?
  refine if_neg ?_
  by_cases opens : '{' ∈ s
  · obtain ⟨front, rest, rfl, opening⟩ := List.eq_append_cons_of_mem opens
    have closing : '}' ∉ rest := by
      intro member
      obtain ⟨inner, back, rfl⟩ := List.append_of_mem member
      exact alone ⟨front, inner, back, rfl⟩
    have start : (front ++ '{' :: rest).takeWhile (· ≠ '{') = front := by
      rw [List.takeWhile_append_of_pos, List.takeWhile_cons_of_neg (by decide), List.append_nil]
      exact fun c hc => decide_eq_true fun same => opening (same ▸ hc)
    have none : ∀ c ∈ ('{' :: rest).reverse, decide (c ≠ '}') = true := by
      intro c hc
      refine decide_eq_true fun same => ?_
      rcases List.mem_cons.mp (List.mem_reverse.mp hc) with rfl | member
      · cases same
      · exact closing (same ▸ member)
    rw [start, List.reverse_append, List.takeWhile_append_of_pos none]
    simp only [List.length_append, List.length_reverse, List.length_cons]
    omega
  · have start : s.takeWhile (· ≠ '{') = s :=
      List.takeWhile_eq_self_iff.mpr fun c hc => decide_eq_true fun same => opens (same ▸ hc)
    rw [start]
    omega

/-! ### Trimmed replies -/

theorem trimmed_braced (braced : Braced t) : Text.Trimmed Text.isBlank t := by
  obtain ⟨inner, rfl⟩ := braced
  refine ⟨fun c hc => ?_, fun c hc => ?_⟩
  · obtain rfl := Option.some.inj hc
    decide
  · rw [← List.cons_append, List.getLast?_concat] at hc
    obtain rfl := Option.some.inj hc
    decide

theorem ne_nil_of_braced (braced : Braced t) : t ≠ [] := by
  obtain ⟨inner, rfl⟩ := braced
  exact List.cons_ne_nil _ _

theorem outermost_trimChars (outermost : Outermost s front body back) : ∃ front' back',
    Outermost (Text.trimChars s) front' body back' := by
  obtain ⟨rfl, braced, opening, closing⟩ := outermost
  refine ⟨_, _, Text.trimWhere_append (trimmed_braced braced) (ne_nil_of_braced braced) front back, braced, ?_, ?_⟩
  · exact fun member => opening ((List.dropWhile_sublist _).subset member)
  · exact fun member => closing (List.mem_reverse.mp ((List.dropWhile_sublist _).subset (List.mem_reverse.mp member)))

theorem paired_of_trimChars (paired : Paired (Text.trimChars s)) : Paired s := by
  obtain ⟨t, braced, part⟩ := paired_iff.mp paired
  exact paired_iff.mpr ⟨t, braced, part.trans (Text.trimWhere_infix _ s)⟩

theorem read_text (text : String) : read (.str text) =
    match Text.trimChars text.toList with
    | [] => ⟨.error .empty, [emptyEvent]⟩
    | s => readTrimmed s := rfl

variable {text : String}

theorem read_strict {v : Value} (some : Text.trimChars text.toList ≠ [])
    (strict : Json.decode (Text.trim text) = .ok v) : (read (.str text)).result = .ok v := by
  rw [Text.trim] at strict
  rw [read_text]
  split
  · next none => exact (some none).elim
  · rw [readTrimmed, strict]

/-- The longest part in braces is what a reply that is no document is read from. -/
theorem read_lenient {e : Json.DecodeError} (strict : Json.decode (Text.trim text) = .error e)
    (outermost : Outermost text.toList front body back) : (read (.str text)).result =
      (Json.decode (String.ofList body)).mapError fun e => .noJson (some e) := by
  obtain ⟨front', back', outermost'⟩ := outermost_trimChars outermost
  obtain ⟨span, spanned, sliced⟩ := braceSpan?_of_outermost outermost'
  rw [Text.trim] at strict
  rw [read_text]
  split
  · next none =>
    rw [none] at spanned
    cases spanned
  · rw [readTrimmed, strict]
    dsimp only
    rw [spanned]
    dsimp only
    rw [sliced]
    cases Json.decode (String.ofList body) <;> rfl

theorem read_refused {e : Json.DecodeError} (strict : Json.decode (Text.trim text) = .error e)
    (alone : ¬ Paired text.toList) : ∃ defect, (read (.str text)).result = .error defect := by
  have none := braceSpan?_of_not_paired fun paired => alone (paired_of_trimChars paired)
  rw [Text.trim] at strict
  rw [read_text]
  split
  · exact ⟨_, rfl⟩
  · refine ⟨.noJson Option.none, ?_⟩
    rw [readTrimmed, strict]
    dsimp only
    rw [none]

/-! ### Objects in prose -/

/-- What becomes of a text that is no document. -/
structure Lenient (text : String) : Prop where
  /-- There is one longest part in braces, and the answer is what it says. -/
  found : Paired text.toList → ∃ body, Longest text.toList body ∧ (∀ other, Longest text.toList other → other = body) ∧
    (read (.str text)).result = (Json.decode (String.ofList body)).mapError fun e => .noJson (some e)
  refused : (∃ defect, (read (.str text)).result = .error defect) ↔
    ¬ Paired text.toList ∨ ∃ body e, Longest text.toList body ∧ Json.decode (String.ofList body) = .error e

theorem lenient_of_strict {e : Json.DecodeError} (strict : Json.decode (Text.trim text) = .error e) : Lenient text := by
  by_cases paired : Paired text.toList
  · obtain ⟨front, body, back, outermost⟩ := exists_outermost paired
    have one (other : List Char) (longest : Longest text.toList other) : other = body :=
      longest.eq_of_outermost outermost
    have longest := longest_of_outermost outermost
    have result := read_lenient strict outermost
    refine ⟨fun _ => ⟨body, longest, one, result⟩, ?_⟩
    rw [result]
    constructor
    · rintro ⟨defect, failed⟩
      cases decoded : Json.decode (String.ofList body) with
      | error e => exact .inr ⟨body, e, longest, decoded⟩
      | ok v =>
        rw [decoded] at failed
        cases failed
    · rintro (alone | ⟨other, e, longest, decoded⟩)
      · exact (alone paired).elim
      · rw [← one other longest, decoded]
        exact ⟨_, rfl⟩
  · exact ⟨fun paired' => (paired paired').elim, fun _ => .inl paired, fun _ => read_refused strict paired⟩

theorem braced_print (s : Spelling) (l : Json.Layout) (level : Nat) (fs : Table Value) :
    Braced (Json.print s l level (.object fs)) := by
  cases fs with
  | nil => exact ⟨[], by rw [Json.print]; rfl⟩
  | cons e fs =>
    rw [Json.print, Json.enclose]
    simp only [List.cons_append]
    exact ⟨_, rfl⟩

theorem read_around {before t after : String} {v : Value} (braced : Braced t.toList)
    (decoded : Json.decode t = .ok v) (opening : '{' ∉ before.toList) (closing : '}' ∉ after.toList)
    (clear : (∀ c ∈ before.toList ++ after.toList, Text.isBlank c = true) ∨
      ∃ e, Json.decode (Text.trim (before ++ t ++ after)) = .error e) :
    (read (.str (before ++ t ++ after))).result = .ok v := by
  have whole : (before ++ t ++ after).toList = before.toList ++ t.toList ++ after.toList := by
    rw [String.toList_append, String.toList_append]
  rcases clear with blank | ⟨e, strict⟩
  · obtain ⟨blankBefore, blankAfter⟩ := List.forall_mem_append.mp blank
    have trimmed : Text.trimChars (before ++ t ++ after).toList = t.toList := by
      have ends := Text.trimWhere_append (trimmed_braced braced) (ne_nil_of_braced braced) before.toList after.toList
      rw [List.dropWhile_eq_nil_iff.mpr blankBefore, List.dropWhile_eq_nil_iff.mpr
        fun c hc => blankAfter c (List.mem_reverse.mp hc), List.reverse_nil, List.append_nil, List.nil_append] at ends
      rw [Text.trimChars, whole, ends]
    refine read_strict (trimmed ▸ ne_nil_of_braced braced) ?_
    rw [Text.trim, trimmed, String.ofList_toList, decoded]
  · rw [read_lenient strict ⟨whole, braced, opening, closing⟩, String.ofList_toList, decoded]
    rfl

/-! ### Replies that need not consist of characters -/

section
open Text (Point Unencodable points)
variable {s : List Point}

theorem readPoints_points (text : String) : readPoints (points text) = .ok (read (.str text)) := by
  rw [readPoints, Text.trimWhere_points, read_text]
  cases Text.trimChars text.toList with
  | nil => rfl
  | cons c s =>
    have encoded : Text.characters ((c :: s).map .char) = .ok (c :: s) := Text.characters_eq_ok.mpr rfl
    rw [List.map_cons] at encoded ⊢
    dsimp only
    rw [encoded]
    rfl

theorem readPoints_of_half {q : Point} (member : q ∈ s) (half : q.isHalf = true) :
    ∃ e, readPoints s = .error e ∧ e.Tells (Text.trimWhere Point.isBlank s) := by
  have kept := Text.half_mem_trimWhere half member
  rw [readPoints]
  generalize Text.trimWhere Point.isBlank s = trimmed at kept
  cases encoded : Text.characters trimmed with
  | ok chars =>
    obtain rfl := Text.characters_eq_ok.mp encoded
    obtain ⟨c, -, rfl⟩ := List.mem_map.mp kept
    cases half
  | error e =>
    refine ⟨e, ?_, Text.tells_of_characters encoded⟩
    cases trimmed with
    | nil => cases kept
    | cons q trimmed =>
      dsimp only
      rw [encoded]
      rfl

/-- Without the blanks at its ends, the text cannot be encoded or is no JSON. -/
inductive NoDocument (s : List Point) : Prop
  | unencodable {e : Unencodable} (failed : Text.characters (Text.trimWhere Point.isBlank s) = .error e)
  | noJson {chars : List Char} {e : Json.DecodeError}
      (encoded : Text.characters (Text.trimWhere Point.isBlank s) = .ok chars)
      (failed : Json.decode (String.ofList chars) = .error e)

theorem noDocument_points {text : String} :
    NoDocument (points text) ↔ ∃ e, Json.decode (Text.trim text) = .error e := by
  have encoded : Text.characters (Text.trimWhere Point.isBlank (points text)) = .ok (Text.trimChars text.toList) := by
    rw [Text.trimWhere_points, Text.characters_eq_ok]
  constructor
  · rintro (⟨failed⟩ | ⟨encoded', failed⟩)
    · cases encoded.symm.trans failed
    · obtain rfl := Except.ok.inj (encoded.symm.trans encoded')
      exact ⟨_, failed⟩
  · rintro ⟨e, failed⟩
    exact .noJson encoded failed

/-- Texts around an object that do not keep it from being found: no braces that could be taken for its own, and
nothing but blanks or something that makes the whole no document. -/
structure Around (before : List Point) (t : String) (after : List Point) : Prop where
  opening : .char '{' ∉ before
  closing : .char '}' ∉ after
  clear : (∀ q ∈ before ++ after, q.isBlank = true) ∨ NoDocument (before ++ points t ++ after)

/-- The reply is read, and this is what it holds. -/
def Holds (s : List Point) (v : Value) : Prop := ∃ reading, readPoints s = .ok reading ∧ reading.result = .ok v

/-- What becomes of a text that is no document: it is read leniently, or it has halves in it and is not read at all. -/
inductive Handled (s : List Point) : Prop
  | lenient {text : String} (whole : s = points text) (result : readPoints s = .ok (read (.str text)))
      (lenient : Lenient text) : Handled s
  | unencodable {e : Unencodable} (half : ∃ q ∈ s, q.isHalf = true) (result : readPoints s = .error e)
      (tells : e.Tells (Text.trimWhere Point.isBlank s)) : Handled s

theorem holds_around {before after : List Point} {t : String} {v : Value} (braced : Braced t.toList)
    (decoded : Json.decode t = .ok v) (around : Around before t after) :
    Holds (before ++ points t ++ after) v ↔ ∀ q ∈ before ++ after, q.isHalf = false := by
  constructor
  · rintro ⟨reading, result, -⟩ q member
    by_contra half
    have among : q ∈ before ++ points t ++ after := by
      rcases List.mem_append.mp member with first | last
      · exact List.mem_append_left _ (List.mem_append_left _ first)
      · exact List.mem_append_right _ last
    obtain ⟨e, failed, -⟩ := readPoints_of_half among (Bool.not_eq_false _ ▸ half)
    cases result.symm.trans failed
  · intro whole
    obtain ⟨wholeBefore, wholeAfter⟩ := List.forall_mem_append.mp whole
    obtain ⟨front, rfl⟩ := Text.whole_iff.mp wholeBefore
    obtain ⟨back, rfl⟩ := Text.whole_iff.mp wholeAfter
    obtain ⟨opening, closing, clear⟩ := around
    have joined : points front ++ points t ++ points back = points (front ++ t ++ back) := by
      rw [Text.points_append, Text.points_append]
    rw [joined, noDocument_points] at clear
    rw [joined]
    refine ⟨_, readPoints_points _, read_around braced decoded ?_ ?_ (clear.imp_left fun blank c member => ?_)⟩
    · exact fun member => opening (List.mem_map_of_mem member)
    · exact fun member => closing (List.mem_map_of_mem member)
    · refine blank (.char c) ?_
      rw [points, points, ← List.map_append]
      exact List.mem_map_of_mem member

theorem handled_of_noDocument (none : NoDocument s) : Handled s := by
  by_cases torn : ∃ q ∈ s, q.isHalf = true
  · obtain ⟨q, member, half⟩ := torn
    obtain ⟨e, result, tells⟩ := readPoints_of_half member half
    exact .unencodable ⟨q, member, half⟩ result tells
  · have whole : ∀ q ∈ s, q.isHalf = false := fun q member => Bool.eq_false_iff.mpr fun half => torn ⟨q, member, half⟩
    obtain ⟨text, rfl⟩ := Text.whole_iff.mp whole
    obtain ⟨e, strict⟩ := noDocument_points.mp none
    exact .lenient rfl (readPoints_points text) (lenient_of_strict strict)

/-- An object is found in a reply, whatever blanks its layout has and whatever prose it comes in, exactly if the prose
has no half of a character in it. If a reply is no document, the longest part in braces decides; but if there is a half
anywhere in it, the reply is not read, and the failure is neither an answer nor a defect. -/
theorem objects_found {fs : Table Value} {l : Json.Layout} (readable : Json.Readable Json.maxNesting (.object fs))
    (blank : l.Blank) :
    (∃ t, (Value.object fs).written l = .ok t ∧ ∀ before after, Around before t after →
      (Holds (before ++ points t ++ after) (.object fs) ↔ ∀ q ∈ before ++ after, q.isHalf = false)) ∧
    ∀ s, NoDocument s → Handled s := by
  obtain ⟨s, written⟩ := Json.written_of_fits readable.fits l
  refine ⟨⟨_, written, fun before after => holds_around ?_ (Json.decode_readable blank readable)⟩,
    fun s => handled_of_noDocument⟩
  rw [String.toList_ofList]
  exact braced_print s l 0 fs

/-- An object with braces and a fence in its texts. -/
def fencedFields : Table Value := [("\x7d\x7b", .str "```"), ("n", .list [.int (2 ^ 70)])]

def fencedLayout : Json.Layout := .lines "  "

def fencedText : String := String.ofList (Json.print Json.plain.spelling fencedLayout 0 (.object fencedFields))

theorem readable_fencedFields : Json.Readable Json.maxNesting (.object fencedFields) := by
  refine .object (by decide) fun name v member => ?_
  rcases List.mem_cons.mp member with same | member
  · rw [(Prod.mk.inj same).2]
    exact .str _
  · rw [(Prod.mk.inj (List.mem_singleton.mp member)).2]
    exact .list (List.forall_mem_singleton.mpr (.int (by decide)))

theorem blank_fencedLayout : fencedLayout.Blank := fun _ hc => .inl (List.eq_of_mem_replicate (n := 2) hc)

theorem around_fencedText : Around (points "Here you are:\n```json\n") fencedText (points "\n```") := by
  refine ⟨by decide, by decide, .inr ?_⟩
  rw [← Text.points_append, ← Text.points_append]
  exact noDocument_points.mpr ⟨_, rfl⟩

theorem objects_found_fenced :
    Json.Readable Json.maxNesting (.object fencedFields) ∧ fencedLayout.Blank ∧
    (Value.object fencedFields).written fencedLayout = .ok fencedText ∧
    Around (points "Here you are:\n```json\n") fencedText (points "\n```") ∧
    Holds (points "Here you are:\n```json\n" ++ points fencedText ++ points "\n```") (.object fencedFields) ∧
    NoDocument (points "\x7b") ∧ Handled (points "\x7b") := by
  obtain ⟨⟨t, written, found⟩, handled⟩ := objects_found readable_fencedFields blank_fencedLayout
  have made : (Value.object fencedFields).written fencedLayout = .ok fencedText := rfl
  obtain rfl : fencedText = t := Except.ok.inj (made.symm.trans written)
  have opened : NoDocument (points "\x7b") := noDocument_points.mpr ⟨_, rfl⟩
  refine ⟨readable_fencedFields, blank_fencedLayout, made, around_fencedText, ?_, opened, handled _ opened⟩
  exact (found _ _ around_fencedText).mpr (by decide)

/-- Half of a character and a blank before an object. -/
def torn : List Point := [.half ⟨0xd800, by decide, by decide⟩, .char ' ']

/-- They are no opening brace, and the whole is no document, but the object is not found. -/
theorem torn_not_found : (Value.object []).written .compact = .ok "\x7b\x7d" ∧ Around torn "\x7b\x7d" [] ∧
    ¬ Holds (torn ++ points "\x7b\x7d" ++ []) (.object []) := by
  have failed : Text.characters (Text.trimWhere Point.isBlank (torn ++ points "\x7b\x7d" ++ [])) =
      .error ⟨⟨0xd800, by decide, by decide⟩, 0, 0⟩ := rfl
  refine ⟨rfl, ⟨by decide, nofun, .inr (.unencodable failed)⟩, ?_⟩
  rintro ⟨reading, result, -⟩
  cases result

end

end ScreenPlan.Reply
