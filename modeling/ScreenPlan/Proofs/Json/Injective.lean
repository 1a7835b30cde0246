import ScreenPlan.Proofs.Json.Data

/-!
# One print, one value

The compact print of a value without floating-point numbers says exactly which value it is: the first
character tells its kind, a number goes on to the end of its digits, a text to its closing quote and a container
to its bracket. No print holds a control character.
-/

namespace ScreenPlan

namespace Value

/-- Values whose print leaves no doubt: nothing foreign, integers only, no name twice in an object. -/
inductive Exact : Value → Prop
  | null : Exact .null
  | bool (b : Bool) : Exact (.bool b)
  | int (n : Int) : Exact (.int n)
  | str (text : String) : Exact (.str text)
  | list {xs : List Value} (each : ∀ x ∈ xs, Exact x) : Exact (.list xs)
  | object {fs : Table Value} (distinct : fs.names.Nodup) (each : ∀ e ∈ fs, Exact e.2) : Exact (.object fs)

end Value

namespace Json
open Value (Exact)

/-! ### The first character -/

/-- What the first character of a text announces. -/
inductive Mark where
  | null
  | bool
  | number
  | text
  | list
  | object
  | closing
  deriving DecidableEq

def mark : Value → Mark
  | .null => .null
  | .bool _ => .bool
  | .str _ => .text
  | .list _ => .list
  | .object _ => .object
  | _ => .number

def markOf (c : Char) : Mark :=
  if c = 'n' then .null else if c = 't' then .bool else if c = 'f' then .bool else if c = '"' then .text
  else if c = '[' then .list else if c = '{' then .object else if c = ']' then .closing
  else if c = '}' then .closing else .number

theorem markOf_digit {c : Char} (digit : c.isDigit = true) : markOf c = .number := by
  have other {d : Char} (wrong : d.isDigit = false) : c ≠ d := by
    rintro rfl
    rw [wrong] at digit
    cases digit
  simp only [markOf, if_neg (other (d := 'n') (by decide)), if_neg (other (d := 't') (by decide)),
    if_neg (other (d := 'f') (by decide)), if_neg (other (d := '"') (by decide)),
    if_neg (other (d := '[') (by decide)), if_neg (other (d := '{') (by decide)),
    if_neg (other (d := ']') (by decide)), if_neg (other (d := '}') (by decide))]

theorem head_printInt (n : Int) : ∃ c t, printInt n = c :: t ∧ markOf c = .number := by
  unfold printInt
  split
  · exact ⟨_, _, rfl, by decide⟩
  · cases same : Nat.toDigits 10 n.natAbs with
    | nil => exact (Nat.toDigits_ne_nil same).elim
    | cons d ds =>
      exact ⟨d, ds, rfl, markOf_digit
        (Nat.isDigit_of_mem_toDigits (by decide) (by decide) (same ▸ List.mem_cons_self))⟩

theorem print_list (s : Spelling) (level : Nat) (xs : List Value) : print s .compact level (.list xs) =
    '[' :: (List.intercalate [','] (xs.map (print s .compact (level + 1))) ++ [']']) := by
  cases xs with
  | nil => rw [print]; rfl
  | cons x xs =>
    rw [print, enclose, printItems_eq_map, List.map_cons]
    simp [Layout.lead, Layout.comma]

/-- A name, a colon and a value. -/
def member (s : Spelling) (level : Nat) (e : String × Value) : List Char :=
  quote e.1 ++ ':' :: print s .compact level e.2

theorem print_object (s : Spelling) (level : Nat) (fs : Table Value) : print s .compact level (.object fs) =
    '{' :: (List.intercalate [','] (fs.map (member s (level + 1))) ++ ['}']) := by
  cases fs with
  | nil => rw [print]; rfl
  | cons e fs =>
    rw [print, enclose, printMembers_eq_map, List.map_cons]
    simp [Layout.lead, Layout.comma, Layout.colon, member]
    rfl

/-- The first character of a print tells what it is a print of. -/
theorem head_print {v : Value} (plain : v.Exact) (s : Spelling) (level : Nat) :
    ∃ c t, print s .compact level v = c :: t ∧ markOf c = mark v := by
  cases plain with
  | null => exact ⟨_, _, by rw [print], by decide⟩
  | bool b => cases b <;> exact ⟨_, _, by rw [print], by decide⟩
  | int n =>
    rw [print]
    exact head_printInt n
  | str text => exact ⟨_, _, by rw [print, quote, List.cons_append], rfl⟩
  | list => exact ⟨_, _, print_list .., rfl⟩
  | object => exact ⟨_, _, print_object .., rfl⟩

/-! ### One print, one value -/

theorem printInt_inj {m n : Int} {r r' : List Char} (ends : Ends r) (ends' : Ends r')
    (same : printInt m ++ r = printInt n ++ r') : m = n ∧ r = r' := by
  have digits (k : Nat) : ∀ c ∈ Nat.toDigits 10 k, c.isDigit = true :=
    fun c hc => Nat.isDigit_of_mem_toDigits (by decide) (by decide) hc
  have numeral {j k : Nat} (same : Nat.toDigits 10 j ++ r = Nat.toDigits 10 k ++ r') : j = k ∧ r = r' := by
    have front := congrArg (List.takeWhile Char.isDigit) same
    have back := congrArg (List.dropWhile Char.isDigit) same
    rw [takeWhile_digits (digits j) ends, takeWhile_digits (digits k) ends'] at front
    rw [dropWhile_digits (digits j) ends, dropWhile_digits (digits k) ends'] at back
    refine ⟨?_, back⟩
    rw [← Nat.ofDigitChars_ten_toDigits (n := j), front, Nat.ofDigitChars_ten_toDigits]
  have unsigned {k : Nat} {t u : List Char} (same : '-' :: t = Nat.toDigits 10 k ++ u) : False := by
    cases form : Nat.toDigits 10 k with
    | nil => exact Nat.toDigits_ne_nil form
    | cons d ds =>
      rw [form] at same
      have digit := digits k d (form ▸ List.mem_cons_self)
      rw [← (List.cons.inj same).1] at digit
      revert digit
      decide
  unfold printInt at same
  split at same <;> split at same
  · obtain ⟨abs, rest⟩ := numeral (List.cons.inj same).2
    exact ⟨by omega, rest⟩
  · exact (unsigned same).elim
  · exact (unsigned same.symm).elim
  · obtain ⟨abs, rest⟩ := numeral same
    exact ⟨by omega, rest⟩

theorem quote_inj {a b : String} {r r' : List Char} (same : quote a ++ r = quote b ++ r') : a = b ∧ r = r' := by
  -- Both sides are read back.
  have read : unquote [] (a.toList.flatMap escapeChar ++ '"' :: r) =
      unquote [] (b.toList.flatMap escapeChar ++ '"' :: r') := by
    simp only [quote, List.cons_append, List.append_assoc, List.nil_append, List.cons.injEq, true_and] at same
    rw [same]
  rw [unquote_quote, unquote_quote] at read
  exact Prod.mk.inj (Except.ok.inj read)

section
variable {α : Type} {f g : α → List Char} {stop : Char} {r r' : List Char}

/-- What follows a part: further parts, each after a comma, and the closing bracket. -/
def further (f : α → List Char) (stop : Char) (xs : List α) (r : List Char) : List Char :=
  xs.flatMap (fun x => ',' :: f x) ++ stop :: r

theorem ends_further (ending : ∀ r, Ends (stop :: r)) (xs : List α) : Ends (further f stop xs r) := by
  cases xs with
  | nil => exact ending r
  | cons x xs => exact ends_cons (by decide) (by decide) (by decide) (by decide)

theorem further_inj (comma : stop ≠ ',') (ending : ∀ r, Ends (stop :: r)) {xs ys : List α}
    (each : ∀ x ∈ xs, ∀ y ∈ ys, ∀ r r', Ends r → Ends r' → f x ++ r = g y ++ r' → x = y ∧ r = r')
    (same : further f stop xs r = further g stop ys r') : xs = ys ∧ r = r' := by
  induction xs generalizing ys with
  | nil =>
    cases ys with
    | nil => exact ⟨rfl, (List.cons.inj same).2⟩
    | cons y ys => exact (comma (List.cons.inj same).1).elim
  | cons x xs ih =>
    cases ys with
    | nil => exact (comma (List.cons.inj same).1.symm).elim
    | cons y ys =>
      have parts : f x ++ further f stop xs r = g y ++ further g stop ys r' := by
        simpa [further] using same
      obtain ⟨rfl, others⟩ := each x List.mem_cons_self y List.mem_cons_self _ _ (ends_further ending xs)
        (ends_further ending ys) parts
      obtain ⟨rfl, rest⟩ := ih (fun a ha b hb => each a (List.mem_cons_of_mem _ ha) b (List.mem_cons_of_mem _ hb))
        others
      exact ⟨rfl, rest⟩

/-- Parts between commas, up to a closing bracket: if the parts tell where they end, so does the whole. -/
theorem joined_inj (comma : stop ≠ ',') (ending : ∀ r, Ends (stop :: r)) {xs ys : List α}
    (opens : ∀ x ∈ xs, ∃ d t, f x = d :: t ∧ d ≠ stop)
    (opens' : ∀ y ∈ ys, ∃ d t, g y = d :: t ∧ d ≠ stop)
    (each : ∀ x ∈ xs, ∀ y ∈ ys, ∀ r r', Ends r → Ends r' → f x ++ r = g y ++ r' → x = y ∧ r = r')
    (same : List.intercalate [','] (xs.map f) ++ stop :: r = List.intercalate [','] (ys.map g) ++ stop :: r') :
    xs = ys ∧ r = r' := by
  have unfolded (h : α → List Char) (z : α) (zs : List α) (r : List Char) :
      List.intercalate [','] ((z :: zs).map h) ++ stop :: r = h z ++ further h stop zs r := by
    rw [List.map_cons, intercalate_cons, List.flatMap_map, List.append_assoc]
    rfl
  cases xs with
  | nil =>
    cases ys with
    | nil => exact ⟨rfl, (List.cons.inj same).2⟩
    | cons y ys =>
      obtain ⟨d, t, first, other⟩ := opens' y List.mem_cons_self
      rw [unfolded g, first] at same
      exact (other (List.cons.inj same).1.symm).elim
  | cons x xs =>
    cases ys with
    | nil =>
      obtain ⟨d, t, first, other⟩ := opens x List.mem_cons_self
      rw [unfolded f, first] at same
      exact (other (List.cons.inj same).1).elim
    | cons y ys =>
      rw [unfolded f, unfolded g] at same
      obtain ⟨rfl, others⟩ := each x List.mem_cons_self y List.mem_cons_self _ _ (ends_further ending xs)
        (ends_further ending ys) same
      obtain ⟨rfl, rest⟩ := further_inj comma ending
        (fun a ha b hb => each a (List.mem_cons_of_mem _ ha) b (List.mem_cons_of_mem _ hb)) others
      exact ⟨rfl, rest⟩

end

/-- Prints with the same start are prints of values of one kind. -/
theorem mark_eq {v w : Value} (plain : v.Exact) (plain' : w.Exact) {s t : Spelling} {level : Nat}
    {r r' : List Char} (same : print s .compact level v ++ r = print t .compact level w ++ r') : mark v = mark w := by
  obtain ⟨c, cs, first, kind⟩ := head_print plain s level
  obtain ⟨d, ds, first', kind'⟩ := head_print plain' t level
  rw [first, first'] at same
  rw [← kind, ← kind', (List.cons.inj same).1]

/-- No print begins as a container ends. -/
theorem opens_print {v : Value} (plain : v.Exact) (s : Spelling) (level : Nat) {stop : Char}
    (closing : markOf stop = .closing) : ∃ c t, print s .compact level v = c :: t ∧ c ≠ stop := by
  obtain ⟨c, t, first, kind⟩ := head_print plain s level
  refine ⟨c, t, first, ?_⟩
  rintro rfl
  rw [closing] at kind
  cases plain <;> cases kind

section
variable {s t : Spelling} {level : Nat} {r r' : List Char}

theorem list_inj {xs ys : List Value} (plain : ∀ x ∈ xs, x.Exact) (plain' : ∀ y ∈ ys, y.Exact)
    (each : ∀ x ∈ xs, ∀ y ∈ ys, ∀ r r', Ends r → Ends r' →
      print s .compact (level + 1) x ++ r = print t .compact (level + 1) y ++ r' → x = y ∧ r = r')
    (same : print s .compact level (.list xs) ++ r = print t .compact level (.list ys) ++ r') :
    xs = ys ∧ r = r' := by
  rw [print_list, print_list, List.cons_append, List.cons_append, List.append_assoc, List.append_assoc] at same
  exact joined_inj (by decide) (fun _ => ends_cons (by decide) (by decide) (by decide) (by decide))
    (fun x hx => opens_print (plain x hx) s _ (by decide)) (fun y hy => opens_print (plain' y hy) t _ (by decide))
    each (List.cons.inj same).2

theorem object_inj {fs gs : Table Value}
    (each : ∀ e ∈ fs, ∀ d ∈ gs, ∀ r r', Ends r → Ends r' →
      print s .compact (level + 1) e.2 ++ r = print t .compact (level + 1) d.2 ++ r' → e.2 = d.2 ∧ r = r')
    (same : print s .compact level (.object fs) ++ r = print t .compact level (.object gs) ++ r') :
    fs = gs ∧ r = r' := by
  have quoted (s : Spelling) (e : String × Value) : ∃ d t, member s (level + 1) e = d :: t ∧ d ≠ '}' :=
    ⟨'"', _, rfl, by decide⟩
  have members : ∀ e ∈ fs, ∀ d ∈ gs, ∀ r r', Ends r → Ends r' →
      member s (level + 1) e ++ r = member t (level + 1) d ++ r' → e = d ∧ r = r' := by
    intro e he d hd r r' ends ends' same
    rw [member, member, List.append_assoc, List.append_assoc] at same
    obtain ⟨name, after⟩ := quote_inj same
    obtain ⟨value, rest⟩ := each e he d hd r r' ends ends' (List.cons.inj after).2
    exact ⟨Prod.ext name value, rest⟩
  rw [print_object, print_object, List.cons_append, List.cons_append, List.append_assoc, List.append_assoc] at same
  exact joined_inj (by decide) (fun _ => ends_cons (by decide) (by decide) (by decide) (by decide))
    (fun e _ => quoted s e) (fun e _ => quoted t e) members (List.cons.inj same).2

end

/-- A print goes with one value only, whatever comes after it and whoever spelled it. -/
theorem print_inj {v w : Value} (plain : v.Exact) (plain' : w.Exact) {s t : Spelling} {level : Nat}
    {r r' : List Char} (ends : Ends r) (ends' : Ends r')
    (same : print s .compact level v ++ r = print t .compact level w ++ r') : v = w ∧ r = r' := by
  -- Each case compares the first characters, which leaves one form for the other value.
  induction plain generalizing w level r r' with
  | null =>
    have kind := mark_eq .null plain' same
    cases plain' with
    | null =>
      rw [print, print] at same
      exact ⟨rfl, List.append_cancel_left same⟩
    | _ => cases kind
  | bool b =>
    have kind := mark_eq (.bool b) plain' same
    cases plain' with
    | bool b' =>
      cases b <;> cases b' <;> rw [print, print] at same
      · exact ⟨rfl, List.append_cancel_left same⟩
      · cases (List.cons.inj same).1
      · cases (List.cons.inj same).1
      · exact ⟨rfl, List.append_cancel_left same⟩
    | _ => cases kind
  | int n =>
    have kind := mark_eq (.int n) plain' same
    cases plain' with
    | int m =>
      rw [print, print] at same
      obtain ⟨rfl, rest⟩ := printInt_inj ends ends' same
      exact ⟨rfl, rest⟩
    | _ => cases kind
  | str text =>
    have kind := mark_eq (.str text) plain' same
    cases plain' with
    | str text' =>
      rw [print, print] at same
      obtain ⟨rfl, rest⟩ := quote_inj same
      exact ⟨rfl, rest⟩
    | _ => cases kind
  | list each ih =>
    have kind := mark_eq (.list each) plain' same
    cases plain' with
    | list each' =>
      obtain ⟨rfl, rest⟩ := list_inj each each' (fun x hx y hy r r' => ih x hx (each' y hy)) same
      exact ⟨rfl, rest⟩
    | _ => cases kind
  | object distinct each ih =>
    have kind := mark_eq (.object distinct each) plain' same
    cases plain' with
    | object distinct' each' =>
      obtain ⟨rfl, rest⟩ := object_inj (fun e he d hd r r' => ih e he (each' d hd)) same
      exact ⟨rfl, rest⟩
    | _ => cases kind

/-! ### No control characters -/

/-- No character comes before the blank. -/
def Printed (s : List Char) : Prop := ∀ c ∈ s, 0x20 ≤ c.toNat

theorem printed_append {s t : List Char} (hs : Printed s) (ht : Printed t) : Printed (s ++ t) :=
  List.forall_mem_append.mpr ⟨hs, ht⟩

theorem printed_cons {c : Char} {s : List Char} (hc : 0x20 ≤ c.toNat) (hs : Printed s) : Printed (c :: s) :=
  List.forall_mem_cons.mpr ⟨hc, hs⟩

theorem printed_flatMap {α : Type} {f : α → List Char} {xs : List α} (each : ∀ x ∈ xs, Printed (f x)) :
    Printed (xs.flatMap f) := by
  intro c hc
  obtain ⟨x, hx, hc⟩ := List.mem_flatMap.mp hc
  exact each x hx c hc

theorem printed_of_all {s : List Char} (all : (s.all fun c => decide (0x20 ≤ c.toNat)) = true) : Printed s :=
  fun c hc => of_decide_eq_true (List.all_eq_true.mp all c hc)

theorem printed_escapeChar (c : Char) : Printed (escapeChar c) := by
  have hex {d : Nat} (small : d < 16) : 0x20 ≤ (Nat.digitChar d).toNat := by
    revert d
    decide
  unfold escapeChar
  split
  iterate 7 exact printed_of_all (by decide)
  split
  · refine printed_append (s := ['\\', 'u', '0', '0']) (printed_of_all (by decide)) ?_
    exact printed_cons (hex (by omega)) (printed_cons (hex (by omega)) nofun)
  · next above => exact printed_cons (Nat.not_lt.mp above) nofun

theorem printed_quote (text : String) : Printed (quote text) :=
  printed_append (printed_cons (by decide) (printed_flatMap fun c _ => printed_escapeChar c))
    (printed_cons (by decide) nofun)

theorem printed_printInt (n : Int) : Printed (printInt n) := by
  have digits : Printed (Nat.toDigits 10 n.natAbs) := by
    intro c hc
    have digit := Nat.isDigit_of_mem_toDigits (by decide) (by decide) hc
    rw [Char.isDigit, Bool.and_eq_true, decide_eq_true_eq] at digit
    exact Nat.le_trans (by decide) (UInt32.le_iff_toNat_le.mp digit.1)
  unfold printInt
  split
  · exact printed_cons (by decide) digits
  · exact digits

theorem printed_joined {parts : List (List Char)} (each : ∀ part ∈ parts, Printed part) :
    Printed (List.intercalate [','] parts) := by
  cases parts with
  | nil => exact nofun
  | cons part parts =>
    rw [intercalate_cons]
    refine printed_append (each part List.mem_cons_self) (printed_flatMap fun other among => ?_)
    exact printed_cons (by decide) (each other (List.mem_cons_of_mem _ among))

theorem printed_print {v : Value} (plain : v.Exact) (s : Spelling) (level : Nat) :
    Printed (print s .compact level v) := by
  induction plain generalizing level with
  | null =>
    rw [print]
    exact printed_of_all (by decide)
  | bool b => cases b <;> rw [print] <;> exact printed_of_all (by decide)
  | int n =>
    rw [print]
    exact printed_printInt n
  | str text =>
    rw [print]
    exact printed_quote text
  | list each ih =>
    rw [print_list]
    refine printed_cons (by decide) (printed_append (printed_joined ?_) (printed_cons (by decide) (List.forall_mem_nil _)))
    exact List.forall_mem_map.mpr fun x hx => ih x hx (level + 1)
  | object distinct each ih =>
    rw [print_object]
    refine printed_cons (by decide) (printed_append (printed_joined ?_) (printed_cons (by decide) (List.forall_mem_nil _)))
    exact List.forall_mem_map.mpr fun e he =>
      printed_append (printed_quote e.1) (printed_cons (by decide) (ih e he (level + 1)))

end Json

end ScreenPlan
