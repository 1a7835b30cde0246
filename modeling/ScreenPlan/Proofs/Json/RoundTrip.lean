import ScreenPlan.Proofs.Json.Canonical
import ScreenPlan.Proofs.Text.ByteOrder

/-!
# The texts of a value

Every text that is made of a legible value says the value again: compact, with blanks, on lines of any width that there
is, and canonical, where the keys come back in order. The canonical text is one for all values that differ in the order
of keys alone, whichever encoder wrote it and whether that encoder compares keys by their characters or by their bytes.
-/

namespace ScreenPlan

namespace Value

mutual
/-- The same value with the keys of every object in the order of their UTF-8 bytes. -/
def byteSorted : Value → Value
  | .list xs => .list (byteSortedItems xs)
  | .object fs =>
    .object ((byteSortedMembers fs).mergeSort fun a b => decide (Text.bytes a.1 ≤ Text.bytes b.1))
  | v => v

def byteSortedItems : List Value → List Value
  | [] => []
  | x :: xs => byteSorted x :: byteSortedItems xs

def byteSortedMembers : List (String × Value) → List (String × Value)
  | [] => []
  | (k, v) :: fs => (k, byteSorted v) :: byteSortedMembers fs
end

mutual
/-- Bytes sort keys as characters do. -/
theorem byteSorted_eq_sorted : ∀ v : Value, v.byteSorted = v.sorted
  | .list xs => by rw [byteSorted, sorted, byteSortedItems_eq_sorted xs]
  | .object fs => by
    rw [byteSorted, sorted, byteSortedMembers_eq_sorted fs]
    simp only [Text.bytes_le_iff]
  | .null | .bool _ | .int _ | .float _ | .str _ | .foreign _ => by rw [byteSorted, sorted] <;> exact nofun

theorem byteSortedItems_eq_sorted : ∀ xs : List Value, byteSortedItems xs = sortedItems xs
  | [] => by rw [byteSortedItems, sortedItems]
  | x :: xs => by rw [byteSortedItems, sortedItems, byteSorted_eq_sorted x, byteSortedItems_eq_sorted xs]

theorem byteSortedMembers_eq_sorted : ∀ fs : List (String × Value), byteSortedMembers fs = sortedMembers fs
  | [] => by rw [byteSortedMembers, sortedMembers]
  | (k, v) :: fs => by
    rw [byteSortedMembers, sortedMembers, byteSorted_eq_sorted v, byteSortedMembers_eq_sorted fs]
end

/-- Sorting changes the order of keys and nothing else. -/
theorem alike_sorted {v : Value} (plain : v.Exact) : Alike v v.sorted := by
  induction plain with
  | @list xs each ih =>
    rw [sorted, sortedItems_eq_map]
    refine .list (List.length_map _).symm fun i hx hy => ?_
    rw [List.getElem_map]
    exact ih _ (List.getElem_mem hx)
  | @object fs distinct each ih =>
    rw [sorted]
    refine .object (fun name => ?_) fun name v w hv hw => ?_
    · rw [mem_names, mem_names]
      simp only [mem_sorted]
      exact ⟨fun ⟨v, hv⟩ => ⟨_, v, hv, rfl⟩, fun ⟨_, v, hv, _⟩ => ⟨v, hv⟩⟩
    · obtain ⟨u, hu, rfl⟩ := mem_sorted.mp hw
      obtain rfl := (Prod.mk.inj (List.inj_on_of_nodup_map distinct hv hu rfl)).2
      exact ih _ hv
  | null | bool | int | str => exact .same _

end Value

namespace Json
open Value (Alike Exact)

variable {room : Nat} {v : Value} {text : String}

theorem exact_of_legible (legible : Legible room v) : v.Exact := by
  induction legible with
  | null => exact .null
  | bool b => exact .bool b
  | @int _ n => exact .int n
  | str text => exact .str text
  | list _ ih => exact .list ih
  | object distinct _ ih => exact .object distinct fun e he => ih e.1 e.2 he

theorem legible_sorted (legible : Legible room v) : Legible room v.sorted := by
  induction legible with
  | null => exact .null
  | bool b => exact .bool b
  | int short => exact .int short
  | str text => exact .str text
  | list each ih =>
    rw [Value.sorted, Value.sortedItems_eq_map]
    exact .list (List.forall_mem_map.mpr ih)
  | @object _ fs distinct each ih =>
    rw [Value.sorted]
    refine .object (Value.nodup_sorted distinct) fun name u member => ?_
    obtain ⟨w, hw, rfl⟩ := Value.mem_sorted.mp member
    exact ih name w hw

/-! ### Reading back -/

theorem decode_print {l : Layout} (blank : l.Blank) (legible : Legible maxNesting v) (s : Spelling) :
    decode (String.ofList (print s l 0 v)) = .ok v :=
  decode_readable blank legible.readable

/-- The plain encoder takes every legible value in every layout. -/
theorem encode_plain (legible : Legible maxNesting v) (l : Layout) :
    plain.encode l v = .ok (String.ofList (print plain.spelling l 0 v)) :=
  encode_of_fits rfl legible.readable.fits l

theorem written_legible (legible : Legible maxNesting v) (l : Layout) :
    v.written l = .ok (String.ofList (print plain.spelling l 0 v)) := by
  unfold Value.written
  split
  · next compact => rw [compact, compact_legible legible]
  · exact encode_plain legible l

/-- The fast encoder writes what the plain one would write. -/
theorem canonical_legible (legible : Legible maxNesting v) :
    v.canonical = .ok (String.ofList (print plain.spelling .compact 0 v.sorted)) := by
  unfold Value.canonical
  split
  · next encoded => rw [text_of_encode encoded, print_spelling (legible_sorted legible) fast.spelling plain.spelling]
  · exact encode_plain (legible_sorted legible) .compact

theorem Layout.hasColumns_iff {n : Int} : Layout.hasColumns n = true ↔ -2 ^ 63 ≤ n ∧ n < 2 ^ 63 := by
  rw [Layout.hasColumns, Bool.and_eq_true, decide_eq_true_eq, decide_eq_true_eq]
  exact and_congr_right fun _ => Int.le_sub_one_iff

theorem Layout.exists_ofColumns? {columns : Option Int}
    (among : ∀ n, columns = some n → -2 ^ 63 ≤ n ∧ n < 2 ^ 63) :
    ∃ l, Layout.ofColumns? columns = some l ∧ l.Blank := by
  cases columns with
  | none => exact ⟨_, rfl, trivial⟩
  | some n =>
    rw [Layout.ofColumns?, if_pos (Layout.hasColumns_iff.mpr (among n rfl))]
    split
    · exact ⟨_, rfl, trivial⟩
    · refine ⟨_, rfl, fun c hc => ?_⟩
      rw [String.toList_ofList] at hc
      exact .inl (List.eq_of_mem_replicate hc)

theorem Layout.ofColumns?_eq_none {n : Int} (beyond : ¬ (-2 ^ 63 ≤ n ∧ n < 2 ^ 63)) :
    Layout.ofColumns? (some n) = none := by
  have some : n ≠ 0 := by
    rintro rfl
    exact beyond (by decide)
  rw [Layout.ofColumns?, if_neg some, if_neg (Layout.hasColumns_iff.not.mpr beyond)]

theorem writtenIn_of_layout {columns : Option Int} {l : Layout} (made : Layout.ofColumns? columns = some l) :
    v.writtenIn columns = v.written l := by
  unfold Value.writtenIn
  rw [made]

theorem writtenIn_str (t : String) (columns : Option Int) :
    (Value.str t).writtenIn columns = .ok (String.ofList (quote t)) := by
  cases made : Layout.ofColumns? columns with
  | none =>
    unfold Value.writtenIn
    rw [made]
  | some l =>
    obtain ⟨s, written⟩ := written_of_fits (.str t) l
    rw [writtenIn_of_layout made, written, print]

/-- A legible value is written in every layout, but the lines of a layout can only be indented by a number of columns
that fits a word, unless the value is a text. Each text says the value with the order of its keys. The canonical text
says the value with its keys in order. -/
theorem decode_written (legible : Legible maxNesting v) :
    (∃ text, v.compact = .ok text ∧ decode text = .ok v) ∧
    (∀ columns : Option Int, (∀ n, columns = some n → (-2 ^ 63 ≤ n ∧ n < 2 ^ 63) ∨ ∃ t, v = .str t) →
      ∃ text, v.writtenIn columns = .ok text ∧ decode text = .ok v) ∧
    (∀ n : Int, ¬ (-2 ^ 63 ≤ n ∧ n < 2 ^ 63) → (∀ t, v ≠ .str t) →
      v.writtenIn (some n) = .error .columnsOutOfRange) ∧
    ∃ text w, v.canonical = .ok text ∧ decode text = .ok w ∧ Alike v w := by
  refine ⟨⟨_, compact_legible legible, ?_⟩, fun columns among => ?_, fun n beyond other => ?_,
    ⟨_, v.sorted, canonical_legible legible, ?_, Value.alike_sorted (exact_of_legible legible)⟩⟩
  · exact decode_print (l := .compact) trivial legible _
  · by_cases text : ∃ t, v = .str t
    · obtain ⟨t, rfl⟩ := text
      exact ⟨_, writtenIn_str t columns, decode_print (l := .compact) trivial legible plain.spelling⟩
    · obtain ⟨l, made, blank⟩ :=
        Layout.exists_ofColumns? fun n same => (among n same).resolve_right text
      exact ⟨_, (writtenIn_of_layout made).trans (written_legible legible l), decode_print blank legible _⟩
  · unfold Value.writtenIn
    rw [Layout.ofColumns?_eq_none beyond]
    cases v with
    | str t => exact (other t rfl).elim
    | _ => rfl
  · exact decode_print (l := .compact) trivial (legible_sorted legible) _

/-- A number of columns that does not fit a word keeps even null from being written. -/
theorem null_not_written : Legible maxNesting .null ∧
    ¬ ∃ text, Value.null.writtenIn (some (2 ^ 100)) = .ok text ∧ decode text = .ok .null := by
  refine ⟨.null, ?_⟩
  rintro ⟨text, written, -⟩
  cases written

/-! ### A number out of range -/

/-- The integer is too large for the fast encoder, and one name comes after the other in bytes and characters alike. -/
def wide : Value :=
  .object [("é", .int (2 ^ 70)), ("z", .list [.bool true, .str "\n\"\\"])]

def wideTurned : Value :=
  .object [("z", .list [.bool true, .str "\n\"\\"]), ("é", .int (2 ^ 70))]

theorem legible_wideInt {room : Nat} : Legible room (.int (2 ^ 70)) := by
  have short : ((2 : Int) ^ 70).natAbs < 10 ^ 22 := by decide
  exact .int (Nat.lt_of_lt_of_le short (Nat.pow_le_pow_right (by decide) (by decide)))

theorem legible_wideList {room : Nat} : Legible (room + 1) (.list [.bool true, .str "\n\"\\"]) := by
  refine .list fun x hx => ?_
  rcases List.mem_cons.mp hx with rfl | hx
  · exact .bool true
  · rw [List.mem_singleton.mp hx]
    exact .str _

theorem legible_wide : Legible maxNesting wide := by
  refine .object (by decide) fun name v member => ?_
  rcases List.mem_cons.mp member with same | member
  · rw [(Prod.mk.inj same).2]
    exact legible_wideInt
  · rw [(Prod.mk.inj (List.mem_singleton.mp member)).2]
    exact legible_wideList

theorem legible_wideTurned : Legible maxNesting wideTurned := by
  refine .object (by decide) fun name v member => ?_
  rcases List.mem_cons.mp member with same | member
  · rw [(Prod.mk.inj same).2]
    exact legible_wideList
  · rw [(Prod.mk.inj (List.mem_singleton.mp member)).2]
    exact legible_wideInt

theorem decode_written_wide :
    Legible maxNesting wide ∧
    (∃ text, wide.compact = .ok text ∧ decode text = .ok wide) ∧
    (∃ text, wide.writtenIn (some (-2)) = .ok text ∧ decode text = .ok wide) ∧
    wide.writtenIn (some (2 ^ 63)) = .error .columnsOutOfRange ∧
    ∃ text w, wide.canonical = .ok text ∧ decode text = .ok w ∧ Alike wide w := by
  obtain ⟨compact, indented, refused, canonical⟩ := decode_written legible_wide
  refine ⟨legible_wide, compact, indented (some (-2)) ?_, refused (2 ^ 63) (by decide) nofun, canonical⟩
  rintro n same
  obtain rfl := Option.some.inj same
  exact .inl (by decide)

/-! ### One text for all orders of keys -/

/-- Every way to a canonical text ends in this one: the plain encoder sorts keys by their characters, the fast encoder
by their bytes, and neither writes a control character. -/
structure CanonicalText (v : Value) (text : String) : Prop where
  written : v.canonical = .ok text
  plain : plain.encode .compact v.sorted = .ok text
  fast : ∀ other, fast.encode .compact v.byteSorted = .ok other → other = text
  printed : Printed text.toList

theorem canonicalText_legible (legible : Legible maxNesting v) :
    CanonicalText v (String.ofList (print plain.spelling .compact 0 v.sorted)) := by
  have sorted := legible_sorted legible
  refine ⟨canonical_legible legible, encode_plain sorted .compact, fun other encoded => ?_, ?_⟩
  · rw [Value.byteSorted_eq_sorted] at encoded
    rw [text_of_encode encoded, print_spelling sorted fast.spelling plain.spelling]
  · exact (printed_canonical (exact_of_legible legible) (canonical_legible legible)).2

/-- Legible values have one canonical text if and only if they differ in the order of keys alone, whichever encoders
wrote the texts. -/
theorem canonical_eq_iff_alike {v w : Value} (hv : Legible maxNesting v) (hw : Legible maxNesting w) :
    ∃ s t, CanonicalText v s ∧ CanonicalText w t ∧ (s = t ↔ Alike v w) := by
  have writtenV := canonicalText_legible hv
  have writtenW := canonicalText_legible hw
  refine ⟨_, _, writtenV, writtenW, fun same => ?_, fun alike => ?_⟩
  · exact alike_of_canonical (exact_of_legible hv) (exact_of_legible hw) writtenV.written (same ▸ writtenW.written)
  · have same := canonical_of_alike (exact_of_legible hv) (exact_of_legible hw) alike
    rw [writtenV.written, writtenW.written] at same
    exact Except.ok.inj same

theorem canonical_eq_iff_alike_wide :
    Legible maxNesting wide ∧ Legible maxNesting wideTurned ∧
      ∃ s t, CanonicalText wide s ∧ CanonicalText wideTurned t ∧ (s = t ↔ Alike wide wideTurned) :=
  ⟨legible_wide, legible_wideTurned, canonical_eq_iff_alike legible_wide legible_wideTurned⟩

end Json
end ScreenPlan
