import ScreenPlan.Proofs.Json.RoundTrip

/-!
# One text, whoever wrote it

A compact text without floating-point numbers does not tell which encoder wrote it: it is the text that the
recursion on the value gives. So the text of a container is put together from the texts of its parts, although a
single integer or a single deep part may have kept the whole from the encoder that takes the other parts.
-/

namespace ScreenPlan.Json
open Value (Exact)

mutual
/-- The compact text of a value. Floating-point numbers and foreign values, which encoders spell differently or not
at all, have none. -/
def reference : Value → String
  | .null => "null"
  | .bool true => "true"
  | .bool false => "false"
  | .int n => toString n
  | .float _ => ""
  | .str text => String.ofList (quote text)
  | .list xs => "[" ++ ",".intercalate (referenceItems xs) ++ "]"
  | .object fs => "\x7b" ++ ",".intercalate (referenceMembers fs) ++ "\x7d"
  | .foreign _ => ""

def referenceItems : List Value → List String
  | [] => []
  | x :: xs => reference x :: referenceItems xs

def referenceMembers : List (String × Value) → List String
  | [] => []
  | (name, v) :: fs => (String.ofList (quote name) ++ ":" ++ reference v) :: referenceMembers fs
end

theorem referenceItems_eq_map (xs : List Value) : referenceItems xs = xs.map reference := by
  induction xs with
  | nil => rw [referenceItems]; rfl
  | cons x xs ih => rw [referenceItems, ih]; rfl

def referenceMember (e : String × Value) : String := String.ofList (quote e.1) ++ ":" ++ reference e.2

theorem referenceMembers_eq_map (fs : Table Value) : referenceMembers fs = fs.map referenceMember := by
  induction fs with
  | nil => rw [referenceMembers]; rfl
  | cons e fs ih => rw [referenceMembers, ih]; rfl

variable {v : Value} {text : String}

theorem toList_toString_int (n : Int) : (toString n).toList = printInt n := by
  rw [Int.toString_eq_repr, printInt]
  cases n with
  | ofNat n =>
    have positive : ¬ Int.ofNat n < 0 := Int.not_lt.mpr (Int.natCast_nonneg n)
    rw [if_neg positive]
    exact Nat.toList_repr
  | negSucc n =>
    rw [if_pos (Int.negSucc_lt_zero n), Int.repr, String.toList_append, Nat.toList_repr]
    rfl

/-- Neither the spelling of numbers nor the level of nesting shows. -/
theorem toList_reference (plain : v.Exact) (s : Spelling) (level : Nat) :
    (reference v).toList = print s .compact level v := by
  induction plain generalizing level with
  | null => rw [print]; rfl
  | bool b => cases b <;> rw [print] <;> rfl
  | int n => rw [print, reference, toList_toString_int]
  | str text => rw [print, reference, String.toList_ofList]
  | @list xs each ih =>
    have parts : (xs.map reference).map String.toList = xs.map (print s .compact (level + 1)) := by
      rw [List.map_map]
      exact List.map_congr_left fun x hx => ih x hx (level + 1)
    rw [print_list, reference, referenceItems_eq_map, String.toList_append, String.toList_append,
      String.toList_intercalate, parts]
    rfl
  | @object fs distinct each ih =>
    have parts : (fs.map referenceMember).map String.toList = fs.map (member s (level + 1)) := by
      rw [List.map_map]
      refine List.map_congr_left fun e he => ?_
      rw [Function.comp_apply, referenceMember, String.toList_append, String.toList_append, String.toList_ofList,
        ih e he (level + 1), List.append_assoc]
      rfl
    rw [print_object, reference, referenceMembers_eq_map, String.toList_append, String.toList_append,
      String.toList_intercalate, parts]
    rfl

theorem encode_reference (plain : v.Exact) {e : Encoder} (encoded : e.encode .compact v = .ok text) :
    text = reference v := by
  rw [text_of_encode encoded, ← toList_reference plain e.spelling 0, String.ofList_toList]

theorem compact_reference (plain : v.Exact) (written : v.compact = .ok text) : text = reference v := by
  obtain ⟨s, rfl⟩ := text_of_compact written
  rw [← toList_reference plain s 0, String.ofList_toList]

/-! ### Which values have a text -/

theorem fits_of_obstacle? (plain : v.Exact) {e : Encoder} (terse : Terse e) {room : Nat}
    (free : e.obstacle? room v = none) : Fits room v := by
  induction plain generalizing room with
  | null => exact .null
  | bool b => exact .bool b
  | int n =>
    cases brief_of_obstacle? terse free with | leaf _ _ short => exact .int (short n rfl)
  | str text => exact .str text
  | list each ih =>
    cases room with
    | zero => cases free
    | succ room =>
      rw [Encoder.obstacle?, obstacleItems?_eq_none] at free
      exact .list fun x hx => ih x hx (free x hx)
  | object distinct each ih =>
    cases room with
    | zero => cases free
    | succ room =>
      rw [Encoder.obstacle?, obstacleMembers?_eq_none] at free
      exact .object fun e he => ih e he (free e he)

theorem fits_of_encode (plain : v.Exact) {e : Encoder} (terse : Terse e) {l : Layout}
    (encoded : e.encode l v = .ok text) : Fits e.room v :=
  fits_of_obstacle? plain terse (obstacle?_of_encode encoded)

/-- No encoder takes more than the portable and the plain one. -/
theorem compact_iff_fits (plain : v.Exact) : (∃ text, v.compact = .ok text) ↔ Fits stackRoom v := by
  constructor
  · rintro ⟨text, written⟩
    unfold Value.compact at written
    split at written
    · next encoded =>
      exact fits_mono fast_room_le (fits_of_encode plain terse_fast encoded)
    · split at written
      · next encoded => exact fits_of_encode plain terse_portable encoded
      · cases written
      · exact fits_of_encode plain terse_plain written
  · exact compact_of_fits

theorem compact_of_exact (plain : v.Exact) (fits : Fits stackRoom v) : v.compact = .ok (reference v) := by
  obtain ⟨text, written⟩ := compact_of_fits fits
  rw [written, compact_reference plain written]

theorem compact_list {xs : List Value} (plain : Exact (.list xs)) (written : (Value.list xs).compact = .ok text) :
    ∀ x ∈ xs, x.compact = .ok (reference x) := by
  intro x hx
  cases plain with | list each =>
  exact compact_of_exact (each x hx) (((compact_iff_fits (.list each)).mp ⟨text, written⟩).item hx)

theorem compact_object {fs : Table Value} (plain : Exact (.object fs))
    (written : (Value.object fs).compact = .ok text) : ∀ e ∈ fs, e.2.compact = .ok (reference e.2) := by
  intro e he
  cases plain with | object distinct each =>
  exact compact_of_exact (each e he) (((compact_iff_fits (.object distinct each)).mp ⟨text, written⟩).member he)

/-! ### Texts of containers -/

/-- The text of a container consists of the texts that its parts have on their own. -/
def Assembled : Value → String → Prop
  | .list xs, text => ∃ parts, xs.Forall₂ (fun x part => x.compact = .ok part) parts ∧
      text = "[" ++ ",".intercalate parts ++ "]"
  | .object fs, text => ∃ parts, fs.Forall₂ (fun e part => ∃ name value,
        (Value.str e.1).compact = .ok name ∧ e.2.compact = .ok value ∧ part = name ++ ":" ++ value) parts ∧
      text = "\x7b" ++ ",".intercalate parts ++ "\x7d"
  | _, _ => True

theorem assembled_reference (plain : v.Exact) (written : v.compact = .ok text) : Assembled v (reference v) := by
  cases v with
  | list xs =>
    refine ⟨xs.map reference, ?_, by rw [reference, referenceItems_eq_map]⟩
    rw [List.forall₂_map_right_iff, List.forall₂_same]
    exact compact_list plain written
  | object fs =>
    refine ⟨fs.map referenceMember, ?_, by rw [reference, referenceMembers_eq_map]⟩
    rw [List.forall₂_map_right_iff, List.forall₂_same]
    exact fun e he => ⟨_, _, rfl, compact_object plain written e he, rfl⟩
  | _ => trivial

/-- A compact text without floating-point numbers is the reference text, whichever encoder wrote it, and the texts
of its parts stand in it as they are. -/
theorem compact_eq_reference (plain : v.Exact) (written : v.compact = .ok text) :
    text = reference v ∧ (∀ (e : Encoder) other, e.encode .compact v = .ok other → other = reference v) ∧
      Assembled v text := by
  have same := compact_reference plain written
  exact ⟨same, fun e other => encode_reference plain, same ▸ assembled_reference plain written⟩

/-- One integer is too large for the fast encoder, which takes the other member. -/
theorem compact_eq_reference_wide : wide.Exact ∧ ∃ text, wide.compact = .ok text ∧ text = reference wide ∧
    (∀ (e : Encoder) other, e.encode .compact wide = .ok other → other = reference wide) ∧ Assembled wide text :=
  ⟨exact_of_legible legible_wide, _, compact_legible legible_wide,
    compact_eq_reference (exact_of_legible legible_wide) (compact_legible legible_wide)⟩

example : reference (.list [.int (-7), .object [("a", .str "\x01\n")]]) = "[-7,\x7b\"a\":\"\\u0001\\n\"\x7d]" := by
  decide

end ScreenPlan.Json
