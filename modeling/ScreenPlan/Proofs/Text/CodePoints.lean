import Mathlib.Data.List.TakeWhile
import ScreenPlan.Proofs.Text.Blank
import ScreenPlan.Text.CodePoints

/-!
# Encoding code points

A text can be encoded exactly if it has no half of a character in it, and then nothing is lost. Otherwise the failure
tells where the first halves stand.
-/

namespace ScreenPlan.Text

variable {s : List Point} {chars : List Char} {position : Nat} {e : Unencodable}

theorem points_append (a b : String) : points (a ++ b) = points a ++ points b := by
  rw [points, String.toList_append, List.map_append]
  rfl

/-- Code points without halves among them are those of a string. -/
theorem whole_iff : (∀ q ∈ s, q.isHalf = false) ↔ ∃ text, s = points text := by
  constructor
  · intro whole
    induction s with
    | nil => exact ⟨"", rfl⟩
    | cons q s ih =>
      obtain ⟨first, later⟩ := List.forall_mem_cons.mp whole
      obtain ⟨text, rfl⟩ := ih later
      cases q with
      | char c => exact ⟨String.ofList (c :: text.toList), by rw [points, points, String.toList_ofList, List.map_cons]⟩
      | half h => cases first
  · rintro ⟨text, rfl⟩ q member
    obtain ⟨c, -, rfl⟩ := List.mem_map.mp member
    rfl

/-! ### Encoding -/

theorem charactersFrom_chars (position : Nat) (chars : List Char) :
    charactersFrom position (chars.map .char) = .ok chars := by
  induction chars generalizing position with
  | nil => rfl
  | cons c chars ih =>
    rw [List.map_cons, charactersFrom, ih]
    rfl

theorem chars_of_charactersFrom (encoded : charactersFrom position s = .ok chars) : s = chars.map .char := by
  induction s generalizing position chars with
  | nil => exact Except.ok.inj encoded ▸ rfl
  | cons q s ih =>
    cases q with
    | half h => cases encoded
    | char c =>
      rw [charactersFrom] at encoded
      cases later : charactersFrom (position + 1) s with
      | error e =>
        rw [later] at encoded
        cases encoded
      | ok chars' =>
        rw [later] at encoded
        rw [← Except.ok.inj encoded, List.map_cons, ← ih later]

theorem characters_eq_ok : characters s = .ok chars ↔ s = chars.map .char :=
  ⟨chars_of_charactersFrom, fun same => same ▸ charactersFrom_chars 0 chars⟩

/-- Characters stand before the halves that the failure tells of, and no further half right behind them. -/
def Unencodable.Tells (e : Unencodable) (s : List Point) : Prop :=
  ∃ (before : List Char) (halves rest : List Point), s = before.map .char ++ .half e.first :: (halves ++ rest) ∧
    e.position = before.length ∧ e.more = halves.length ∧ (∀ q ∈ halves, q.isHalf = true) ∧
      ∀ q ∈ rest.head?, q.isHalf = false

theorem tells_of_charactersFrom (failed : charactersFrom position s = .error e) :
    ∃ place, e.position = position + place ∧ { e with position := place }.Tells s := by
  induction s generalizing position with
  | nil => cases failed
  | cons q s ih =>
    cases q with
    | half h =>
      obtain rfl := Except.error.inj failed
      refine ⟨0, rfl, [], s.takeWhile Point.isHalf, s.dropWhile Point.isHalf, ?_, rfl, rfl,
        fun q member => List.mem_takeWhile_imp member, head?_dropWhile_false⟩
      rw [List.takeWhile_append_dropWhile]
      rfl
    | char c =>
      rw [charactersFrom] at failed
      cases later : charactersFrom (position + 1) s with
      | ok chars =>
        rw [later] at failed
        cases failed
      | error e' =>
        rw [later] at failed
        obtain rfl := Except.error.inj failed
        obtain ⟨place, position, before, halves, rest, rfl, length, more⟩ := ih later
        exact ⟨place + 1, by omega, c :: before, halves, rest, rfl, congrArg (· + 1) length, more⟩

theorem tells_of_characters (failed : characters s = .error e) : e.Tells s := by
  obtain ⟨place, position, tells⟩ := tells_of_charactersFrom failed
  obtain rfl : e.position = place := position.trans (Nat.zero_add place)
  exact tells

/-! ### Trimming -/

theorem trimWhere_points (text : String) :
    trimWhere Point.isBlank (points text) = (trimChars text.toList).map .char := by
  have blank : Point.isBlank ∘ Point.char = isBlank := rfl
  rw [points, trimWhere, List.dropWhile_map, ← List.map_reverse, List.dropWhile_map, ← List.map_reverse, blank]
  rfl

/-- Halves are not blank, so trimming takes none of them away. -/
theorem half_mem_trimWhere {q : Point} (half : q.isHalf = true) (member : q ∈ s) : q ∈ trimWhere Point.isBlank s := by
  have solid : Point.isBlank q = false := by
    cases q with
    | char c => cases half
    | half h => rfl
  have kept {t : List Point} (member : q ∈ t) : q ∈ t.dropWhile Point.isBlank := by
    rw [← List.takeWhile_append_dropWhile (p := Point.isBlank) (l := t)] at member
    refine (List.mem_append.mp member).resolve_left fun dropped => ?_
    cases solid.symm.trans (List.mem_takeWhile_imp dropped)
  exact List.mem_reverse.mpr (kept (List.mem_reverse.mpr (kept member)))

end ScreenPlan.Text
