import ScreenPlan.Proofs.Json.Scalars

/-!
# Values read back

What is printed can be read, whatever layout it was printed in and whatever follows it, as long as
that does not go on with a number. Numbers other than integers are left aside.
-/

namespace ScreenPlan.Json

/-- What printing gives away nothing of: no number but integers of at most 4000 digits, no name
twice in an object, and no more containers inside one another than there is room for. -/
inductive Legible : Nat → Value → Prop
  | null {room : Nat} : Legible room .null
  | bool {room : Nat} (b : Bool) : Legible room (.bool b)
  | int {room : Nat} {n : Int} (short : n.natAbs < 10 ^ exactDigits) : Legible room (.int n)
  | str {room : Nat} (text : String) : Legible room (.str text)
  | list {room : Nat} {xs : List Value} (each : ∀ x ∈ xs, Legible room x) :
      Legible (room + 1) (.list xs)
  | object {room : Nat} {fs : Table Value} (distinct : fs.names.Nodup)
      (each : ∀ name v, (name, v) ∈ fs → Legible room v) : Legible (room + 1) (.object fs)

/-- What the reader has no trouble with: no number but integers that are not too long for it, no name
twice in an object, and no more containers inside one another than there is room for. -/
inductive Readable : Nat → Value → Prop
  | null {room : Nat} : Readable room .null
  | bool {room : Nat} (b : Bool) : Readable room (.bool b)
  | int {room : Nat} {n : Int} (short : (printInt n).length ≤ maxIntegerLength) : Readable room (.int n)
  | str {room : Nat} (text : String) : Readable room (.str text)
  | list {room : Nat} {xs : List Value} (each : ∀ x ∈ xs, Readable room x) :
      Readable (room + 1) (.list xs)
  | object {room : Nat} {fs : Table Value} (distinct : fs.names.Nodup)
      (each : ∀ name v, (name, v) ∈ fs → Readable room v) : Readable (room + 1) (.object fs)

theorem length_printInt_le {n : Int} (short : n.natAbs < 10 ^ exactDigits) :
    (printInt n).length ≤ maxIntegerLength := by
  have digits : (Nat.toDigits 10 n.natAbs).length ≤ exactDigits :=
    (Nat.length_toDigits_le_iff (by decide) (by decide)).mpr short
  have : exactDigits = 4000 := rfl
  have : maxIntegerLength = 4300 := rfl
  unfold printInt
  split
  · rw [List.length_cons]
    omega
  · omega

theorem Legible.readable {room : Nat} {v : Value} (legible : Legible room v) : Readable room v := by
  induction legible with
  | null => exact .null
  | bool b => exact .bool b
  | int short => exact .int (length_printInt_le short)
  | str text => exact .str text
  | list _ ih => exact .list ih
  | object distinct _ ih => exact .object distinct ih

/-! ### Blanks -/

def Blank (s : List Char) : Prop := ∀ c ∈ s, c = ' ' ∨ c = '\t' ∨ c = '\n' ∨ c = '\r'

theorem blank_nil : Blank [] := nofun

def Layout.Blank : Layout → Prop
  | .lines unit => Json.Blank unit.toList
  | _ => True

/-- A text that begins with neither a blank nor the end of a container. -/
def Solid (s : List Char) : Prop :=
  ∃ c t, s = c :: t ∧ c ≠ ' ' ∧ c ≠ '\t' ∧ c ≠ '\n' ∧ c ≠ '\r' ∧ c ≠ ']' ∧ c ≠ '}'

theorem skipBlank_append {s : List Char} (blank : Blank s) (t : List Char) :
    skipBlank (s ++ t) = skipBlank t := by
  induction s with
  | nil => rfl
  | cons c s ih =>
    rw [List.cons_append, skipBlank, if_pos (blank c List.mem_cons_self)]
    exact ih fun d hd => blank d (List.mem_cons_of_mem _ hd)

theorem skipBlank_solid {s : List Char} (solid : Solid s) (t : List Char) :
    skipBlank (s ++ t) = s ++ t := by
  obtain ⟨c, r, rfl, space, tab, newline, carriage, -⟩ := solid
  rw [List.cons_append, skipBlank, if_neg (by simp [space, tab, newline, carriage])]

theorem Layout.blank_lead {l : Layout} (blank : l.Blank) (level : Nat) : Json.Blank (l.lead level) := by
  intro c hc
  cases l with
  | compact => cases hc
  | spaced => cases hc
  | lines unit =>
    rcases List.mem_cons.mp hc with rfl | hc
    · exact .inr (.inr (.inl rfl))
    · obtain ⟨part, member, hc⟩ := List.mem_flatten.mp hc
      obtain rfl := List.eq_of_mem_replicate member
      exact blank c hc

theorem Layout.comma_eq {l : Layout} (blank : l.Blank) (level : Nat) :
    ∃ gap, Json.Blank gap ∧ l.comma level = ',' :: gap := by
  cases l with
  | compact => exact ⟨[], blank_nil, rfl⟩
  | spaced => exact ⟨[' '], by simp [Json.Blank], rfl⟩
  | lines unit => exact ⟨_, blank_lead blank level, rfl⟩

theorem Layout.colon_eq (l : Layout) : ∃ gap, Json.Blank gap ∧ l.colon = ':' :: gap := by
  cases l with
  | compact => exact ⟨[], blank_nil, rfl⟩
  | _ => exact ⟨[' '], by simp [Json.Blank], rfl⟩

theorem ends_cons {c : Char} {rest : List Char} (digit : c.isDigit = false) (point : c ≠ '.')
    (lower : c ≠ 'e') (upper : c ≠ 'E') : Ends (c :: rest) := by
  intro d hd
  obtain rfl := Option.some.inj hd
  exact ⟨digit, point, lower, upper⟩

theorem ends_blank {s rest : List Char} (blank : Blank s) (ends : Ends rest) : Ends (s ++ rest) := by
  cases s with
  | nil => exact ends
  | cons c s =>
    rcases blank c List.mem_cons_self with rfl | rfl | rfl | rfl <;>
      exact ends_cons (by decide) (by decide) (by decide) (by decide)

/-! ### One step of the reader -/

theorem length_le_byteCount (s : List Char) : s.length ≤ byteCount s := by
  induction s with
  | nil => exact Nat.le_refl _
  | cons c s ih =>
    have := c.utf8Size_pos
    simp only [byteCount, List.foldr_cons, List.length_cons] at ih ⊢
    omega

theorem word_append (tail : List Char) (v : Value) (rest : List Char) :
    word tail v (tail ++ rest) = .ok (v, rest) := by
  have := length_le_byteCount (tail ++ rest)
  rw [List.length_append] at this
  rw [word, if_neg (by omega), if_pos (by simp), List.drop_left]

theorem value_blank {s : List Char} (blank : Blank s) (fuel room : Nat) (t : List Char) :
    value fuel room (s ++ t) = value fuel room t := by
  cases fuel with
  | zero => rw [value, value]
  | succ fuel => rw [value, value, skipBlank_append blank]

theorem value_digit {c : Char} (digit : c.isDigit = true) (fuel room : Nat) (s : List Char) :
    value (fuel + 1) room (c :: s) = number false (c :: s) := by
  have solid : Solid [c] := by
    refine ⟨c, [], rfl, ?_, ?_, ?_, ?_, ?_, ?_⟩ <;> rintro rfl <;> revert digit <;> decide
  have whole : skipBlank (c :: s) = c :: s := skipBlank_solid solid s
  have other {d : Char} {t : List Char} (wrong : d.isDigit = false) : c :: s ≠ d :: t := by
    intro same
    rw [(List.cons.inj same).1, wrong] at digit
    cases digit
  rw [value, whole]
  split
  · next same => cases same
  · next same => exact (other (by decide) same).elim
  · next same => exact (other (by decide) same).elim
  · next same => exact (other (by decide) same).elim
  · next same => exact (other (by decide) same).elim
  · next same => exact (other (by decide) same).elim
  · next same => exact (other (by decide) same).elim
  · next same => exact (other (by decide) same).elim
  · next same =>
    obtain ⟨rfl, rfl⟩ := List.cons.inj same
    rw [if_pos digit]

theorem value_quoted (fuel room : Nat) (s : List Char) :
    value (fuel + 1) room ('"' :: s) = (unquote [] s).map fun (t, s) => (.str t, s) := by
  rw [value]
  rfl

theorem value_bracket (fuel room : Nat) (s : List Char) :
    value (fuel + 1) (room + 1) ('[' :: s) =
      match skipBlank s with
      | ']' :: s => .ok (.list [], s)
      | s => items fuel room [] s := by
  rw [value]
  rfl

theorem value_brace (fuel room : Nat) (s : List Char) :
    value (fuel + 1) (room + 1) ('{' :: s) =
      match skipBlank s with
      | '}' :: s => .ok (.object [], s)
      | s => members fuel room [] s := by
  rw [value]
  rfl

theorem value_list {lead text : List Char} (blank : Blank lead) (solid : Solid text)
    (fuel room : Nat) (rest : List Char) :
    value (fuel + 1) (room + 1) ('[' :: (lead ++ (text ++ rest))) = items fuel room [] (text ++ rest) := by
  rw [value_bracket, skipBlank_append blank, skipBlank_solid solid]
  obtain ⟨c, t, rfl, -, -, -, -, closing, -⟩ := solid
  rw [List.cons_append]
  split
  · next same => exact (closing (List.cons.inj same).1).elim
  · rfl

theorem value_object {lead text : List Char} (blank : Blank lead) (solid : Solid text)
    (fuel room : Nat) (rest : List Char) :
    value (fuel + 1) (room + 1) ('{' :: (lead ++ (text ++ rest))) = members fuel room [] (text ++ rest) := by
  rw [value_brace, skipBlank_append blank, skipBlank_solid solid]
  obtain ⟨c, t, rfl, -, -, -, -, -, closing⟩ := solid
  rw [List.cons_append]
  split
  · next same => exact (closing (List.cons.inj same).1).elim
  · rfl

theorem items_last {fuel room : Nat} {done : List Value} {s lead rest : List Char} {v : Value}
    (read : value fuel room s = .ok (v, lead ++ ']' :: rest)) (blank : Blank lead) :
    items (fuel + 1) room done s = .ok (.list (v :: done).reverse, rest) := by
  rw [items, read]
  dsimp only
  rw [skipBlank_append blank]
  rfl

theorem items_comma {fuel room : Nat} {done : List Value} {s after : List Char} {v : Value}
    (read : value fuel room s = .ok (v, ',' :: after)) :
    items (fuel + 1) room done s =
      match skipBlank after with
      | ']' :: s => .error (.malformed .trailingCommaInArray (byteCount s + 1))
      | s => items fuel room (v :: done) s := by
  rw [items, read]
  rfl

theorem items_next {fuel room : Nat} {done : List Value} {s gap text rest : List Char} {v : Value}
    (read : value fuel room s = .ok (v, ',' :: (gap ++ (text ++ rest)))) (blank : Blank gap)
    (solid : Solid text) :
    items (fuel + 1) room done s = items fuel room (v :: done) (text ++ rest) := by
  rw [items_comma read, skipBlank_append blank, skipBlank_solid solid]
  obtain ⟨c, t, rfl, -, -, -, -, closing, -⟩ := solid
  rw [List.cons_append]
  split
  · next same => exact (closing (List.cons.inj same).1).elim
  · rfl

/-- A member is its quoted name, a colon and its value. -/
theorem members_quote {fuel room : Nat} {done : Table Value} {name : String} {gap s after : List Char}
    {v : Value} (colon : Blank gap) (read : value fuel room s = .ok (v, after)) :
    members (fuel + 1) room done (quote name ++ ':' :: (gap ++ s)) =
      match skipBlank after with
      | [] => .error .truncated
      | '}' :: s => .ok (.object (done.put name v), s)
      | ',' :: s =>
        match skipBlank s with
        | '}' :: s => .error (.malformed .trailingCommaInObject (byteCount s + 1))
        | s => members fuel room (done.put name v) s
      | s => .error (.malformed .expectedCommaOrBrace (byteCount s)) := by
  have opened : quote name ++ ':' :: (gap ++ s) =
      '"' :: (name.toList.flatMap escapeChar ++ '"' :: ':' :: (gap ++ s)) := by
    simp [quote]
  have skipped : skipBlank (':' :: (gap ++ s)) = ':' :: (gap ++ s) := rfl
  rw [opened, members, unquote_quote]
  dsimp only
  rw [skipped]
  split
  · next same => cases same
  · next same =>
    obtain rfl := (List.cons.inj same).2
    rewrite [value_blank colon, read]
    rfl
  · next other => exact (other _ rfl).elim

theorem members_last {fuel room : Nat} {done : Table Value} {name : String} {gap s lead rest : List Char}
    {v : Value} (colon : Blank gap) (read : value fuel room s = .ok (v, lead ++ '}' :: rest))
    (blank : Blank lead) :
    members (fuel + 1) room done (quote name ++ ':' :: (gap ++ s)) = .ok (.object (done.put name v), rest) := by
  rw [members_quote colon read, skipBlank_append blank]
  rfl

theorem members_comma {fuel room : Nat} {done : Table Value} {name : String} {gap s after : List Char}
    {v : Value} (colon : Blank gap) (read : value fuel room s = .ok (v, ',' :: after)) :
    members (fuel + 1) room done (quote name ++ ':' :: (gap ++ s)) =
      match skipBlank after with
      | '}' :: s => .error (.malformed .trailingCommaInObject (byteCount s + 1))
      | s => members fuel room (done.put name v) s := by
  rw [members_quote colon read]
  rfl

theorem members_next {fuel room : Nat} {done : Table Value} {name : String}
    {colonGap s gap text rest : List Char} {v : Value} (colon : Blank colonGap)
    (read : value fuel room s = .ok (v, ',' :: (gap ++ (text ++ rest)))) (blank : Blank gap)
    (solid : Solid text) :
    members (fuel + 1) room done (quote name ++ ':' :: (colonGap ++ s)) =
      members fuel room (done.put name v) (text ++ rest) := by
  rw [members_comma colon read, skipBlank_append blank, skipBlank_solid solid]
  obtain ⟨c, t, rfl, -, -, -, -, -, closing⟩ := solid
  rw [List.cons_append]
  split
  · next same => exact (closing (List.cons.inj same).1).elim
  · rfl

/-! ### What the printer wrote -/

theorem solid_cons {c : Char} {t : List Char}
    (solid : c ∉ [' ', '\t', '\n', '\r', ']', '}']) : Solid (c :: t) := by
  simp only [List.mem_cons, List.not_mem_nil, or_false, not_or] at solid
  exact ⟨c, t, rfl, solid⟩

theorem solid_append {s : List Char} (solid : Solid s) (t : List Char) : Solid (s ++ t) := by
  obtain ⟨c, r, rfl, rest⟩ := solid
  exact ⟨c, r ++ t, rfl, rest⟩

theorem solid_intercalate {part : List Char} (solid : Solid part) (separator : List Char)
    (parts : List (List Char)) : Solid (List.intercalate separator (part :: parts)) := by
  cases parts with
  | nil => rwa [List.intercalate_singleton]
  | cons next parts =>
    rw [List.intercalate_cons_cons, List.append_assoc]
    exact solid_append solid _

theorem intercalate_cons (c : Char) (part : List Char) (parts : List (List Char)) :
    List.intercalate [c] (part :: parts) = part ++ parts.flatMap (c :: ·) := by
  induction parts generalizing part with
  | nil => simp
  | cons next parts ih => rw [List.intercalate_cons_cons, ih]; simp

theorem solid_quote (text : String) : Solid (quote text) := solid_cons (by decide)

theorem solid_printInt (n : Int) : Solid (printInt n) := by
  unfold printInt
  split
  · exact solid_cons (by decide)
  · cases same : Nat.toDigits 10 n.natAbs with
    | nil => exact (Nat.toDigits_ne_nil same).elim
    | cons d ds =>
      have digit : d.isDigit = true :=
        Nat.isDigit_of_mem_toDigits (by decide) (by decide) (same ▸ List.mem_cons_self)
      apply solid_cons
      intro blank
      simp only [List.mem_cons, List.not_mem_nil, or_false] at blank
      rcases blank with rfl | rfl | rfl | rfl | rfl | rfl <;> revert digit <;> decide

theorem solid_print {room : Nat} {v : Value} (readable : Readable room v) (s : Spelling) (l : Layout)
    (level : Nat) : Solid (print s l level v) := by
  cases readable with
  | null => exact solid_cons (by decide)
  | bool b => cases b <;> exact solid_cons (by decide)
  | @int _ n => rw [print]; exact solid_printInt n
  | str text => rw [print]; exact solid_quote text
  | @list _ xs =>
    cases xs <;> rw [print] <;> exact solid_cons (by decide)
  | @object _ fs =>
    cases fs <;> rw [print] <;> exact solid_cons (by decide)

theorem value_printInt {n : Int} (short : (printInt n).length ≤ maxIntegerLength) {rest : List Char}
    (ends : Ends rest) (fuel room : Nat) :
    value (fuel + 1) room (printInt n ++ rest) = .ok (.int n, rest) := by
  unfold printInt at short ⊢
  split
  · next negative =>
    have signed : value (fuel + 1) room ('-' :: (Nat.toDigits 10 n.natAbs ++ rest)) =
        number true (Nat.toDigits 10 n.natAbs ++ rest) := by
      rw [value]
      rfl
    rw [if_pos negative, List.length_cons] at short
    rw [List.cons_append, signed, number_toDigits (by rwa [if_pos rfl]) ends]
    have : -(n.natAbs : Int) = n := by omega
    rw [if_pos rfl, this]
  · next positive =>
    have unsigned : value (fuel + 1) room (Nat.toDigits 10 n.natAbs ++ rest) =
        number false (Nat.toDigits 10 n.natAbs ++ rest) := by
      cases same : Nat.toDigits 10 n.natAbs with
      | nil => exact (Nat.toDigits_ne_nil same).elim
      | cons d ds =>
        exact value_digit (Nat.isDigit_of_mem_toDigits (by decide) (by decide) (same ▸ List.mem_cons_self)) _ _ _
    rw [if_neg positive] at short
    rw [unsigned, number_toDigits (by rwa [if_neg (by decide)]) ends]
    have : (n.natAbs : Int) = n := by omega
    rw [if_neg (by decide), this]

theorem put_of_fresh {α : Type} {t : Table α} {name : String} (fresh : name ∉ t.names) (v : α) :
    t.put name v = t ++ [(name, v)] := by
  induction t with
  | nil => rfl
  | cons e t ih =>
    obtain ⟨k, w⟩ := e
    simp only [Table.names, List.map_cons, List.mem_cons, not_or] at fresh
    rw [Table.put, if_neg (Ne.symm fresh.1), ih fresh.2]
    rfl

theorem fresh_of_nodup {α : Type} {done fs : Table α} {name : String} {v : α}
    (distinct : (Table.names (done ++ (name, v) :: fs)).Nodup) : name ∉ done.names := by
  rw [Table.names, List.map_append, List.nodup_append] at distinct
  exact fun known => distinct.2.2 name known name List.mem_cons_self rfl

section
variable {s : Spelling} {l : Layout} {room : Nat}

/-- What reading back means for a value on its own. -/
def ReadsBack (s : Spelling) (l : Layout) (room : Nat) (v : Value) : Prop :=
  ∀ (level fuel : Nat) (rest : List Char), 2 * (print s l level v).length ≤ fuel → Ends rest →
    value fuel room (print s l level v ++ rest) = .ok (v, rest)

-- Each item takes one step of the reader and at least one character, its comma or the bracket behind it,
-- and a value inside it takes one step more; so two steps for each character are enough.
theorem items_print (blank : l.Blank) {x : Value} {xs : List Value}
    (readable : ∀ y ∈ x :: xs, Readable room y) (each : ∀ y ∈ x :: xs, ReadsBack s l room y)
    (level : Nat) {lead : List Char} (closing : Blank lead) (rest : List Char) {text : List Char}
    (parts : List.intercalate (l.comma level) (print s l level x :: printItems s l level xs) = text)
    (done : List Value) (fuel : Nat) (enough : 2 * (text.length + lead.length + 1) ≤ fuel) :
    items fuel room done (text ++ (lead ++ ']' :: rest)) = .ok (.list (done.reverse ++ x :: xs), rest) := by
  obtain ⟨fuel, rfl⟩ : ∃ f, fuel = f + 1 := ⟨fuel - 1, by omega⟩
  induction xs generalizing x text done fuel with
  | nil =>
    rw [printItems, List.intercalate_singleton] at parts
    have read := each x List.mem_cons_self level fuel (lead ++ ']' :: rest) (by rw [parts]; omega)
      (ends_blank closing (ends_cons (by decide) (by decide) (by decide) (by decide)))
    rw [← parts, items_last read closing, List.reverse_cons]
  | cons y ys ih =>
    obtain ⟨gap, gapBlank, comma⟩ := l.comma_eq blank level
    rw [printItems, List.intercalate_cons_cons] at parts
    generalize others : List.intercalate (l.comma level) (print s l level y :: printItems s l level ys) =
      tail at parts
    have solid : Solid tail :=
      others ▸ solid_intercalate (solid_print (readable y (by simp)) s l level) _ _
    have size : text.length = (print s l level x).length + (gap.length + 1) + tail.length := by
      rw [← parts, comma, List.length_append, List.length_append, List.length_cons]
    have read := each x List.mem_cons_self level fuel (',' :: (gap ++ (tail ++ (lead ++ ']' :: rest))))
      (by omega) (ends_cons (by decide) (by decide) (by decide) (by decide))
    have whole : text ++ (lead ++ ']' :: rest) =
        print s l level x ++ ',' :: (gap ++ (tail ++ (lead ++ ']' :: rest))) := by
      rw [← parts, comma]
      simp only [List.append_assoc, List.cons_append]
    obtain ⟨fuel, rfl⟩ : ∃ f, fuel = f + 1 := ⟨fuel - 1, by omega⟩
    rw [whole, items_next read gapBlank solid,
      ih (fun z hz => readable z (List.mem_cons_of_mem _ hz)) (fun z hz => each z (List.mem_cons_of_mem _ hz))
        others (x :: done) fuel (by omega),
      List.reverse_cons, List.append_assoc, List.singleton_append]

theorem members_print (blank : l.Blank) {name : String} {v : Value} {fs : Table Value}
    (readable : ∀ e ∈ (name, v) :: fs, Readable room e.2)
    (each : ∀ e ∈ (name, v) :: fs, ReadsBack s l room e.2)
    (level : Nat) {lead : List Char} (closing : Blank lead) (rest : List Char) {text : List Char}
    (parts : List.intercalate (l.comma level)
      ((quote name ++ l.colon ++ print s l level v) :: printMembers s l level fs) = text)
    (done : Table Value) (distinct : (Table.names (done ++ (name, v) :: fs)).Nodup)
    (fuel : Nat) (enough : 2 * (text.length + lead.length + 1) ≤ fuel) :
    members fuel room done (text ++ (lead ++ '}' :: rest)) = .ok (.object (done ++ (name, v) :: fs), rest) := by
  obtain ⟨fuel, rfl⟩ : ∃ f, fuel = f + 1 := ⟨fuel - 1, by omega⟩
  obtain ⟨colonGap, colonBlank, colon⟩ := l.colon_eq
  induction fs generalizing name v text done fuel with
  | nil =>
    rw [printMembers, List.intercalate_singleton] at parts
    have size : text.length = (quote name).length + (colonGap.length + 1) + (print s l level v).length := by
      rw [← parts, colon, List.length_append, List.length_append, List.length_cons]
    have read := each (name, v) List.mem_cons_self level fuel (lead ++ '}' :: rest) (by dsimp only; omega)
      (ends_blank closing (ends_cons (by decide) (by decide) (by decide) (by decide)))
    have whole : text ++ (lead ++ '}' :: rest) =
        quote name ++ ':' :: (colonGap ++ (print s l level v ++ (lead ++ '}' :: rest))) := by
      rw [← parts, colon]
      simp only [List.append_assoc, List.cons_append]
    rw [whole, members_last colonBlank read closing, put_of_fresh (fresh_of_nodup distinct)]
  | cons e fs ih =>
    obtain ⟨next, w⟩ := e
    obtain ⟨gap, gapBlank, comma⟩ := l.comma_eq blank level
    rw [printMembers, List.intercalate_cons_cons] at parts
    generalize others : List.intercalate (l.comma level)
      ((quote next ++ l.colon ++ print s l level w) :: printMembers s l level fs) = tail at parts
    have solid : Solid tail := by
      rw [← others, List.append_assoc]
      exact solid_intercalate (solid_append (solid_quote next) _) _ _
    have size : text.length = (quote name).length + (colonGap.length + 1) + (print s l level v).length +
        (gap.length + 1) + tail.length := by
      rw [← parts, comma, colon]
      simp only [List.length_append, List.length_cons]
    have read := each (name, v) List.mem_cons_self level fuel (',' :: (gap ++ (tail ++ (lead ++ '}' :: rest))))
      (by dsimp only; omega) (ends_cons (by decide) (by decide) (by decide) (by decide))
    have whole : text ++ (lead ++ '}' :: rest) = quote name ++ ':' :: (colonGap ++
        (print s l level v ++ ',' :: (gap ++ (tail ++ (lead ++ '}' :: rest))))) := by
      rw [← parts, comma, colon]
      simp only [List.append_assoc, List.cons_append]
    have moved : done ++ (name, v) :: (next, w) :: fs = (done ++ [(name, v)]) ++ (next, w) :: fs := by
      rw [List.append_assoc, List.singleton_append]
    obtain ⟨fuel, rfl⟩ : ∃ f, fuel = f + 1 := ⟨fuel - 1, by omega⟩
    rw [whole, members_next colonBlank read gapBlank solid, put_of_fresh (fresh_of_nodup distinct), moved]
    exact ih (fun z hz => readable z (List.mem_cons_of_mem _ hz))
      (fun z hz => each z (List.mem_cons_of_mem _ hz)) others (done ++ [(name, v)]) (moved ▸ distinct)
      fuel (by omega)

end

/-- Whatever is readable is read back from its print, and nothing behind it is touched. -/
theorem value_print {s : Spelling} {l : Layout} (blank : l.Blank) {room : Nat} {v : Value}
    (readable : Readable room v) : ReadsBack s l room v := by
  induction readable with
  | null =>
    intro level fuel rest enough ends
    obtain ⟨fuel, rfl⟩ : ∃ f, fuel = f + 1 := ⟨fuel - 1, by simp [print] at enough; omega⟩
    rw [print, value]
    exact word_append _ _ _
  | bool b =>
    intro level fuel rest enough ends
    cases b <;>
    · obtain ⟨fuel, rfl⟩ : ∃ f, fuel = f + 1 := ⟨fuel - 1, by simp [print] at enough; omega⟩
      rw [print, value]
      exact word_append _ _ _
  | int short =>
    intro level fuel rest enough ends
    obtain ⟨c, t, same, -⟩ := solid_print (.int short : Readable 0 _) s l level
    obtain ⟨fuel, rfl⟩ : ∃ f, fuel = f + 1 := ⟨fuel - 1, by rw [same, List.length_cons] at enough; omega⟩
    rw [print, value_printInt short ends]
  | @str room text =>
    intro level fuel rest enough ends
    obtain ⟨fuel, rfl⟩ : ∃ f, fuel = f + 1 := ⟨fuel - 1, by simp [print, quote] at enough; omega⟩
    have opened : quote text ++ rest = '"' :: (text.toList.flatMap escapeChar ++ '"' :: rest) := by
      simp [quote]
    rw [print, opened, value_quoted, unquote_quote]
    rfl
  | @list room xs each ih =>
    intro level fuel rest enough ends
    cases xs with
    | nil =>
      obtain ⟨fuel, rfl⟩ : ∃ f, fuel = f + 1 := ⟨fuel - 1, by simp [print] at enough; omega⟩
      rw [print, value]
      rfl
    | cons x xs =>
      rw [print, enclose] at enough ⊢
      generalize parts : List.intercalate (l.comma (level + 1))
        (print s l (level + 1) x :: printItems s l (level + 1) xs) = text at enough ⊢
      have solid : Solid text :=
        parts ▸ solid_intercalate (solid_print (each x List.mem_cons_self) s l (level + 1)) _ _
      have whole : '[' :: l.lead (level + 1) ++ text ++ l.lead level ++ [']'] ++ rest =
          '[' :: (l.lead (level + 1) ++ (text ++ (l.lead level ++ ']' :: rest))) := by
        simp only [List.append_assoc, List.cons_append, List.nil_append]
      simp only [List.length_append, List.length_cons, List.length_nil] at enough
      obtain ⟨fuel, rfl⟩ : ∃ f, fuel = f + 1 := ⟨fuel - 1, by omega⟩
      rw [whole, value_list (l.blank_lead blank _) solid,
        items_print blank each ih (level + 1) (l.blank_lead blank level) rest parts [] fuel (by omega)]
      rfl
  | @object room fs distinct each ih =>
    intro level fuel rest enough ends
    cases fs with
    | nil =>
      obtain ⟨fuel, rfl⟩ : ∃ f, fuel = f + 1 := ⟨fuel - 1, by simp [print] at enough; omega⟩
      rw [print, value]
      rfl
    | cons e fs =>
      obtain ⟨name, v⟩ := e
      rw [print, enclose] at enough ⊢
      generalize parts : List.intercalate (l.comma (level + 1))
        ((quote name ++ l.colon ++ print s l (level + 1) v) :: printMembers s l (level + 1) fs) =
          text at enough ⊢
      have solid : Solid text := by
        rw [← parts, List.append_assoc]
        exact solid_intercalate (solid_append (solid_quote name) _) _ _
      have whole : '{' :: l.lead (level + 1) ++ text ++ l.lead level ++ ['}'] ++ rest =
          '{' :: (l.lead (level + 1) ++ (text ++ (l.lead level ++ '}' :: rest))) := by
        simp only [List.append_assoc, List.cons_append, List.nil_append]
      simp only [List.length_append, List.length_cons, List.length_nil] at enough
      obtain ⟨fuel, rfl⟩ : ∃ f, fuel = f + 1 := ⟨fuel - 1, by omega⟩
      rw [whole, value_object (l.blank_lead blank _) solid]
      exact members_print blank (fun e he => each e.1 e.2 he) (fun e he => ih e.1 e.2 he) (level + 1)
        (l.blank_lead blank level) rest parts [] distinct fuel (by omega)

/-- The print of a readable value is a document that says this value. -/
theorem document_print {s : Spelling} {l : Layout} (blank : l.Blank) {v : Value}
    (readable : Readable maxNesting v) (level : Nat) : document (print s l level v) = .ok v := by
  have ends : Ends [] := nofun
  have read := value_print blank readable level (2 * (print s l level v).length + 2) []
    (Nat.le_add_right ..) ends
  rw [List.append_nil] at read
  rw [document, read]
  rfl

theorem decode_readable {s : Spelling} {l : Layout} (blank : l.Blank) {v : Value}
    (readable : Readable maxNesting v) : decode (String.ofList (print s l 0 v)) = .ok v := by
  rw [decode, String.toList_ofList, document_print blank readable]
  rfl

/-! ### Spelling -/

theorem printItems_eq_map (s : Spelling) (l : Layout) (level : Nat) (xs : List Value) :
    printItems s l level xs = xs.map (print s l level) := by
  induction xs with
  | nil => rw [printItems]; rfl
  | cons x xs ih => rw [printItems, ih]; rfl

theorem printMembers_eq_map (s : Spelling) (l : Layout) (level : Nat) (fs : Table Value) :
    printMembers s l level fs = fs.map fun e => quote e.1 ++ l.colon ++ print s l level e.2 := by
  induction fs with
  | nil => rw [printMembers]; rfl
  | cons e fs ih => rw [printMembers, ih]; rfl

/-- Only numbers that are no integers are spelled in more than one way. -/
theorem print_spelling {room : Nat} {v : Value} (legible : Legible room v) (s t : Spelling) (l : Layout)
    (level : Nat) : print s l level v = print t l level v := by
  induction legible generalizing level with
  | bool b => cases b <;> rw [print, print]
  | @list room xs each ih =>
    cases xs with
    | nil => rw [print, print]
    | cons x xs =>
      have rest : xs.map (print s l (level + 1)) = xs.map (print t l (level + 1)) :=
        List.map_congr_left fun y hy => ih y (List.mem_cons_of_mem _ hy) (level + 1)
      rw [print, print, printItems_eq_map, printItems_eq_map, ih x List.mem_cons_self, rest]
  | @object room fs distinct each ih =>
    cases fs with
    | nil => rw [print, print]
    | cons e fs =>
      obtain ⟨name, v⟩ := e
      have rest : printMembers s l (level + 1) fs = printMembers t l (level + 1) fs := by
        rw [printMembers_eq_map, printMembers_eq_map]
        refine List.map_congr_left fun e he => ?_
        rw [ih e.1 e.2 (List.mem_cons_of_mem _ he)]
      rw [print, print, ih name v List.mem_cons_self, rest]
  | _ => rw [print, print]

end ScreenPlan.Json
