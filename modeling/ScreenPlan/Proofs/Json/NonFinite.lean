import ScreenPlan.Proofs.Json.Reference

/-!
# Numbers that are not finite

JSON has no words for numbers that are not finite. The fast and the portable encoder write null for them, and what
they write can be read; the plain encoder writes their names, and no reader takes a text with such a name in it. So
every compact text can be read, and a canonical text can if and only if the fast encoder takes the value or all
numbers in it are finite.
-/

namespace ScreenPlan.Json
open Value (IsJson parts_induction)

/-- What is readable but for numbers that are not finite. -/
inductive Loose : Nat → Value → Prop
  | null {room : Nat} : Loose room .null
  | bool {room : Nat} (b : Bool) : Loose room (.bool b)
  | int {room : Nat} {n : Int} (short : (printInt n).length ≤ maxIntegerLength) : Loose room (.int n)
  | float {room : Nat} {x : Float} (infinite : (x.isNaN || x.isInf) = true) : Loose room (.float x)
  | str {room : Nat} (text : String) : Loose room (.str text)
  | list {room : Nat} {xs : List Value} (each : ∀ x ∈ xs, Loose room x) : Loose (room + 1) (.list xs)
  | object {room : Nat} {fs : Table Value} (distinct : fs.names.Nodup)
      (each : ∀ name v, (name, v) ∈ fs → Loose room v) : Loose (room + 1) (.object fs)

variable {room : Nat} {v : Value}

theorem readable_settled (loose : Loose room v) : Readable room v.settled := by
  induction loose with
  | null => exact .null
  | bool b => exact .bool b
  | int short => exact .int short
  | float infinite =>
    rw [Value.settled, if_pos infinite]
    exact .null
  | str text => exact .str text
  | list each ih =>
    rw [Value.settled, Value.settledItems_eq_map]
    exact .list (List.forall_mem_map.mpr ih)
  | @object _ fs distinct each ih =>
    have names : (fs.map fun e => (e.1, e.2.settled)).map (·.1) = fs.names := by
      rw [List.map_map]
      rfl
    rw [Value.settled, Value.settledMembers_eq_map]
    refine .object (by rwa [Table.names, names]) fun name w member => ?_
    obtain ⟨e, he, same⟩ := List.mem_map.mp member
    obtain ⟨rfl, rfl⟩ := Prod.mk.inj same
    exact ih e.1 e.2 he

theorem readable_of_loose (loose : Loose room v) (json : v.IsJson) : Readable room v :=
  Value.settled_of_isJson json ▸ readable_settled loose

theorem fits_of_loose (loose : Loose room v) : Fits room v := by
  induction loose with
  | null => exact .null
  | bool b => exact .bool b
  | int short => exact .int (Nat.le_trans (digitCount_le_length _) short)
  | float => exact .float _
  | str text => exact .str text
  | list _ ih => exact .list ih
  | object _ _ ih => exact .object fun e he => ih e.1 e.2 he

theorem loose_sorted (loose : Loose room v) : Loose room v.sorted := by
  induction loose with
  | null => exact .null
  | bool b => exact .bool b
  | int short => exact .int short
  | float infinite => exact .float infinite
  | str text => exact .str text
  | list each ih =>
    rw [Value.sorted, Value.sortedItems_eq_map]
    exact .list (List.forall_mem_map.mpr ih)
  | object distinct each ih =>
    rw [Value.sorted]
    refine .object (Value.nodup_sorted distinct) fun name u member => ?_
    obtain ⟨w, hw, rfl⟩ := Value.mem_sorted.mp member
    exact ih name w hw

/-! ### Nulls in their place -/

theorem write_infinite (s : Spelling) {x : Float} (infinite : (x.isNaN || x.isInf) = true) :
    s.write x = s.nan.toList ∨ s.write x = s.infinity.toList ∨ s.write x = s.negativeInfinity.toList := by
  unfold Spelling.write
  split
  · exact .inl rfl
  · next number =>
    rw [Bool.not_eq_true] at number
    rw [number, Bool.false_or] at infinite
    rw [if_pos infinite]
    split
    · exact .inr (.inr rfl)
    · exact .inr (.inl rfl)

/-- Numbers that are not finite are written as null. -/
def WritesNull (s : Spelling) : Prop := s.nan = "null" ∧ s.infinity = "null" ∧ s.negativeInfinity = "null"

theorem print_settled {s : Spelling} (nulls : WritesNull s) (loose : Loose room v) (level : Nat) :
    print s .compact level v = print s .compact level v.settled := by
  induction loose generalizing level with
  | @float _ x infinite =>
    obtain ⟨nan, infinity, negativeInfinity⟩ := nulls
    rw [Value.settled, if_pos infinite, print, print]
    rcases write_infinite s infinite with name | name | name
    · rw [name, nan]; rfl
    · rw [name, infinity]; rfl
    · rw [name, negativeInfinity]; rfl
  | @list _ xs each ih =>
    have parts : xs.map (print s .compact (level + 1)) = (xs.map Value.settled).map (print s .compact (level + 1)) := by
      rw [List.map_map]
      exact List.map_congr_left fun x hx => ih x hx (level + 1)
    rw [Value.settled, Value.settledItems_eq_map, print_list, print_list, parts]
  | @object _ fs distinct each ih =>
    have parts : fs.map (member s (level + 1)) =
        (fs.map fun e => (e.1, e.2.settled)).map (member s (level + 1)) := by
      rw [List.map_map]
      refine List.map_congr_left fun e he => ?_
      rw [Function.comp_apply, member, member, ih e.1 e.2 he]
    rw [Value.settled, Value.settledMembers_eq_map, print_object, print_object, parts]
  | _ => rfl

theorem obstacle?_sorted {e : Encoder} : e.obstacle? room v.sorted = none ↔ e.obstacle? room v = none := by
  induction v using parts_induction generalizing room with
  | leaf v noItems noFields =>
    cases v with
    | list => cases noItems
    | object => cases noFields
    | _ => rfl
  | list xs ih =>
    rw [Value.sorted, Value.sortedItems_eq_map]
    cases room with
    | zero => rfl
    | succ room =>
      rw [Encoder.obstacle?, Encoder.obstacle?, obstacleItems?_eq_none, obstacleItems?_eq_none, List.forall_mem_map]
      exact forall₂_congr fun x hx => ih x hx
  | object fs ih =>
    rw [Value.sorted]
    cases room with
    | zero => rfl
    | succ room =>
      rw [Encoder.obstacle?, Encoder.obstacle?, obstacleMembers?_eq_none, obstacleMembers?_eq_none]
      simp only [List.mem_mergeSort, Value.sortedMembers_eq_map, List.forall_mem_map]
      exact forall₂_congr fun e he => ih e he

/-! ### Names in their place -/

/-- What the plain encoder writes, with names for numbers that are not finite. -/
abbrev named (level : Nat) (v : Value) : List Char := print plain.spelling .compact level v

abbrev namedMember (level : Nat) (e : String × Value) : List Char := member plain.spelling level e

/-- The reader does not take what the plain encoder writes. -/
def Refuses (room : Nat) (v : Value) : Prop :=
  ∀ (level fuel : Nat) (rest : List Char), 2 * (named level v).length ≤ fuel → Ends rest →
    ∃ f, value fuel room (named level v ++ rest) = .error f

theorem refuses_float {x : Float} (infinite : (x.isNaN || x.isInf) = true) : Refuses room (.float x) := by
  intro level fuel rest enough ends
  rw [named, print]
  cases fuel with
  | zero => exact ⟨_, by rw [value]⟩
  | succ fuel =>
    rcases write_infinite plain.spelling infinite with name | name | name
    · exact ⟨_, by rw [name, value]; rfl⟩
    · exact ⟨_, by rw [name, value]; rfl⟩
    · exact ⟨_, by rw [name, value]; rfl⟩

theorem solid_loose (loose : Loose room v) (level : Nat) : Solid (named level v) := by
  have leaf {w : Value} (readable : Readable 0 w) : Solid (named level w) := solid_print readable _ _ _
  cases loose with
  | null => exact leaf .null
  | bool b => exact leaf (.bool b)
  | int short => exact leaf (.int short)
  | float infinite =>
    rw [named, print]
    rcases write_infinite plain.spelling infinite with name | name | name <;> rw [name] <;> exact solid_cons (by decide)
  | str text => exact leaf (.str text)
  | list =>
    rw [named, print_list]
    exact solid_cons (by decide)
  | object =>
    rw [named, print_object]
    exact solid_cons (by decide)

theorem solid_namedMember (level : Nat) (e : String × Value) : Solid (namedMember level e) :=
  solid_append (solid_quote e.1) _

theorem ends_bracket (rest : List Char) : Ends (']' :: rest) :=
  ends_cons (by decide) (by decide) (by decide) (by decide)

theorem ends_brace (rest : List Char) : Ends ('}' :: rest) :=
  ends_cons (by decide) (by decide) (by decide) (by decide)

theorem further_cons {α : Type} (f : α → List Char) (close : Char) (x : α) (xs : List α) (rest : List Char) :
    further f close (x :: xs) rest = ',' :: ([] ++ (f x ++ further f close xs rest)) := by
  rw [further, List.flatMap_cons, List.append_assoc]
  rfl

section
variable {level fuel : Nat} {rest : List Char}

theorem items_first {x : Value} (refuses : Refuses room x) (xs done : List Value)
    (enough : 2 * (named level x).length < fuel) :
    ∃ f, items fuel room done (named level x ++ further (named level) ']' xs rest) = .error f := by
  obtain ⟨fuel, rfl⟩ : ∃ f, fuel = f + 1 := ⟨fuel - 1, by omega⟩
  obtain ⟨f, failed⟩ := refuses level fuel _ (by omega) (ends_further ends_bracket xs)
  exact ⟨_, by rw [items, failed]⟩

theorem items_refuse {x : Value} {xs : List Value} (loose : ∀ y ∈ x :: xs, Loose room y)
    (refuse : ∀ y ∈ x :: xs, ¬ y.IsJson → Refuses room y) (bad : ∃ y ∈ x :: xs, ¬ y.IsJson) (done : List Value)
    (enough : 2 * ((named level x).length + (xs.flatMap fun y => ',' :: named level y).length) < fuel) :
    ∃ f, items fuel room done (named level x ++ further (named level) ']' xs rest) = .error f := by
  obtain ⟨y, among, foreign⟩ := bad
  -- The reader goes on over items that are JSON, and cannot get past the first one that is not.
  induction xs generalizing x done fuel with
  | nil =>
    obtain rfl := List.mem_singleton.mp among
    exact items_first (refuse y among foreign) [] done (by omega)
  | cons z zs ih =>
    by_cases json : x.IsJson
    · have later : y ∈ z :: zs := (List.mem_cons.mp among).resolve_left fun same => foreign (same ▸ json)
      have readable := readable_of_loose (loose x List.mem_cons_self) json
      obtain ⟨fuel, rfl⟩ : ∃ f, fuel = f + 1 := ⟨fuel - 1, by omega⟩
      have short : 2 * (named level x).length ≤ fuel := by omega
      have read := value_print (l := .compact) trivial readable level fuel _ short
        (ends_further (f := named level) ends_bracket (z :: zs) (r := rest))
      rw [List.flatMap_cons, List.length_append, List.length_cons] at enough
      rw [further_cons] at read ⊢
      rw [items_next read blank_nil (solid_loose (loose z (List.mem_cons_of_mem _ List.mem_cons_self)) level)]
      exact ih (fun w hw => loose w (List.mem_cons_of_mem _ hw)) (fun w hw => refuse w (List.mem_cons_of_mem _ hw))
        (x :: done) (by omega) later
    · exact items_first (refuse x List.mem_cons_self json) (z :: zs) done (by omega)

theorem namedMember_append (level : Nat) (e : String × Value) (t : List Char) :
    namedMember level e ++ t = quote e.1 ++ ':' :: ([] ++ (named level e.2 ++ t)) := by
  rw [namedMember, member, List.append_assoc]
  rfl

theorem members_error {s : List Char} {f : Fault} (failed : value fuel room s = .error f) (done : Table Value)
    (name : String) : ∃ g, members (fuel + 1) room done (quote name ++ ':' :: s) = .error g := by
  have opened : quote name ++ ':' :: s = '"' :: (name.toList.flatMap escapeChar ++ '"' :: ':' :: s) := by
    simp [quote]
  have skipped : skipBlank (':' :: s) = ':' :: s := rfl
  refine ⟨f.within .member, ?_⟩
  rw [opened, members, unquote_quote]
  dsimp only
  rw [skipped]
  split
  · next same => cases same
  · next same =>
    obtain rfl := (List.cons.inj same).2
    rw [failed]
  · next other => exact (other _ rfl).elim

theorem members_first {e : String × Value} (refuses : Refuses room e.2) (fs done : Table Value)
    (enough : 2 * (named level e.2).length < fuel) :
    ∃ f, members fuel room done (namedMember level e ++ further (namedMember level) '}' fs rest) = .error f := by
  obtain ⟨fuel, rfl⟩ : ∃ f, fuel = f + 1 := ⟨fuel - 1, by omega⟩
  obtain ⟨f, failed⟩ := refuses level fuel _ (by omega) (ends_further ends_brace fs)
  rw [namedMember_append]
  exact members_error failed done e.1

theorem members_refuse {e : String × Value} {fs : Table Value} (loose : ∀ d ∈ e :: fs, Loose room d.2)
    (refuse : ∀ d ∈ e :: fs, ¬ d.2.IsJson → Refuses room d.2) (bad : ∃ d ∈ e :: fs, ¬ d.2.IsJson) (done : Table Value)
    (enough : 2 * ((namedMember level e).length + (fs.flatMap fun d => ',' :: namedMember level d).length) < fuel) :
    ∃ f, members fuel room done (namedMember level e ++ further (namedMember level) '}' fs rest) = .error f := by
  have size (e : String × Value) : (named level e.2).length < (namedMember level e).length := by
    rw [namedMember, member, List.length_append, List.length_cons]
    exact Nat.lt_of_lt_of_le (Nat.lt_succ_self _) (Nat.le_add_left ..)
  obtain ⟨d, among, foreign⟩ := bad
  induction fs generalizing e done fuel with
  | nil =>
    obtain rfl := List.mem_singleton.mp among
    exact members_first (refuse d among foreign) [] done (by have := size d; omega)
  | cons f fs ih =>
    have := size e
    by_cases json : e.2.IsJson
    · have later : d ∈ f :: fs := (List.mem_cons.mp among).resolve_left fun same => foreign (same ▸ json)
      have readable := readable_of_loose (loose e List.mem_cons_self) json
      obtain ⟨fuel, rfl⟩ : ∃ f, fuel = f + 1 := ⟨fuel - 1, by omega⟩
      have short : 2 * (named level e.2).length ≤ fuel := by omega
      have read := value_print (l := .compact) trivial readable level fuel _ short
        (ends_further (f := namedMember level) ends_brace (f :: fs) (r := rest))
      rw [List.flatMap_cons, List.length_append, List.length_cons] at enough
      rw [namedMember_append]
      rw [further_cons] at read ⊢
      rw [members_next blank_nil read blank_nil (solid_namedMember level f)]
      exact ih (fun w hw => loose w (List.mem_cons_of_mem _ hw)) (fun w hw => refuse w (List.mem_cons_of_mem _ hw))
        (done.put e.1 e.2) (by omega) later
    · exact members_first (refuse e List.mem_cons_self json) (f :: fs) done (by omega)

end

theorem named_list (level : Nat) (x : Value) (xs : List Value) (rest : List Char) :
    named level (.list (x :: xs)) ++ rest =
      '[' :: ([] ++ (named (level + 1) x ++ further (named (level + 1)) ']' xs rest)) := by
  rw [named, print_list, List.map_cons, intercalate_cons, List.flatMap_map]
  simp [further]

theorem named_object (level : Nat) (e : String × Value) (fs : Table Value) (rest : List Char) :
    named level (.object (e :: fs)) ++ rest =
      '{' :: ([] ++ (namedMember (level + 1) e ++ further (namedMember (level + 1)) '}' fs rest)) := by
  rw [named, print_object, List.map_cons, intercalate_cons, List.flatMap_map]
  simp [further]

/-- A value that holds a number that is not finite is not read back from its names. -/
theorem value_refuses (loose : Loose room v) (foreign : ¬ v.IsJson) : Refuses room v := by
  induction loose with
  | null => exact (foreign .null).elim
  | bool b => exact (foreign (.bool b)).elim
  | int => exact (foreign (.int _)).elim
  | float infinite => exact refuses_float infinite
  | str text => exact (foreign (.str text)).elim
  | @list room xs each ih =>
    intro level fuel rest enough ends
    cases xs with
    | nil => exact (foreign (.list (List.forall_mem_nil _))).elim
    | cons x xs =>
      have bad : ∃ y ∈ x :: xs, ¬ y.IsJson := by
        rw [Value.isJson_list] at foreign
        push Not at foreign
        exact foreign
      have size := congrArg List.length (named_list level x xs [])
      simp only [further, List.append_nil, List.nil_append, List.length_cons, List.length_append, List.length_nil] at size
      obtain ⟨fuel, rfl⟩ : ∃ f, fuel = f + 1 := ⟨fuel - 1, by omega⟩
      rw [named_list, value_list blank_nil (solid_loose (each x List.mem_cons_self) (level + 1))]
      exact items_refuse each ih bad [] (by omega)
  | @object room fs distinct each ih =>
    intro level fuel rest enough ends
    cases fs with
    | nil => exact (foreign (.object (List.forall_mem_nil _))).elim
    | cons e fs =>
      have bad : ∃ d ∈ e :: fs, ¬ d.2.IsJson := by
        rw [Value.isJson_object] at foreign
        push Not at foreign
        exact foreign
      have size := congrArg List.length (named_object level e fs [])
      simp only [further, List.append_nil, List.nil_append, List.length_cons, List.length_append, List.length_nil] at size
      obtain ⟨fuel, rfl⟩ : ∃ f, fuel = f + 1 := ⟨fuel - 1, by omega⟩
      rw [named_object, value_object blank_nil (solid_namedMember (level + 1) e)]
      exact members_refuse (fun d hd => each d.1 d.2 hd) (fun d hd => ih d.1 d.2 hd) bad [] (by omega)

/-! ### Texts -/

theorem decode_of_nulls {s : Spelling} (nulls : WritesNull s) (loose : Loose maxNesting v) :
    decode (String.ofList (print s .compact 0 v)) = .ok v.settled := by
  rw [print_settled nulls loose]
  exact decode_readable (l := .compact) trivial (readable_settled loose)

theorem decode_of_names (loose : Loose maxNesting v) :
    (∃ w, decode (String.ofList (named 0 v)) = .ok w) ↔ v.IsJson := by
  constructor
  · rintro ⟨w, decoded⟩
    by_contra foreign
    obtain ⟨f, failed⟩ := value_refuses loose foreign 0 (2 * (named 0 v).length + 2) [] (Nat.le_add_right ..) nofun
    rw [List.append_nil] at failed
    rw [decode, String.toList_ofList, document, failed] at decoded
    cases decoded
  · intro json
    exact ⟨v, decode_readable (l := .compact) trivial (readable_of_loose loose json)⟩

theorem writesNull_fast : WritesNull fast.spelling := ⟨rfl, rfl, rfl⟩

theorem writesNull_portable : WritesNull portable.spelling := ⟨rfl, rfl, rfl⟩

/-- A compact text never comes from the plain encoder. -/
theorem compact_loose (loose : Loose maxNesting v) :
    ∃ s, WritesNull s ∧ v.compact = .ok (String.ofList (print s .compact 0 v)) := by
  unfold Value.compact
  split
  · next text encoded => exact ⟨fast.spelling, writesNull_fast, congrArg Except.ok (text_of_encode encoded)⟩
  · exact ⟨portable.spelling, writesNull_portable, by rw [encode_of_fits (e := portable) rfl (fits_of_loose loose)]⟩

theorem encode_fast_iff {l : Layout} : (∃ text, fast.encode l v = .ok text) ↔ fast.obstacle? fast.room v = none := by
  constructor
  · rintro ⟨text, encoded⟩
    exact obstacle?_of_encode encoded
  · intro free
    exact ⟨_, by rw [Encoder.encode, free]⟩

/-- Every compact text can be read, and says the value with nulls in it. A canonical text can be read if and only if
the fast encoder takes the value or all numbers in it are finite. -/
theorem decode_iff_finite (loose : Loose maxNesting v) :
    (∃ text, v.compact = .ok text ∧ decode text = .ok v.settled) ∧
    ∃ text, v.canonical = .ok text ∧
      ((∃ w, decode text = .ok w) ↔ (∃ other, fast.encode .compact v = .ok other) ∨ v.IsJson) := by
  have sorted := loose_sorted loose
  constructor
  · obtain ⟨s, nulls, written⟩ := compact_loose loose
    exact ⟨_, written, decode_of_nulls nulls loose⟩
  · by_cases fits : fast.obstacle? fast.room v = none
    · have free := obstacle?_sorted.mpr fits
      refine ⟨String.ofList (print fast.spelling .compact 0 v.sorted), ?_, ?_⟩
      · rw [Value.canonical, Encoder.encode, free]
      · exact iff_of_true ⟨_, decode_of_nulls writesNull_fast sorted⟩ (.inl (encode_fast_iff.mpr fits))
    · have blocked : ¬ ∃ text, fast.encode .compact v.sorted = .ok text := by
        rwa [encode_fast_iff, obstacle?_sorted]
      refine ⟨String.ofList (named 0 v.sorted), ?_, ?_⟩
      · unfold Value.canonical
        split
        · next text encoded => exact (blocked ⟨text, encoded⟩).elim
        · exact encode_of_fits (e := plain) rfl (fits_of_loose sorted) _
      · rw [decode_of_names sorted, Value.isJson_sorted, encode_fast_iff]
        exact ⟨.inr, fun either => either.resolve_left fits⟩

/-- A large integer beside an infinite number. -/
def unbounded : Value := .object [("limit", .float (1.0 / 0.0)), ("count", .int (2 ^ 70))]

theorem loose_unbounded : Loose maxNesting unbounded := by
  refine .object (by decide) fun name v member => ?_
  rcases List.mem_cons.mp member with same | member
  · rw [(Prod.mk.inj same).2]
    exact .float (by decide)
  · rw [(Prod.mk.inj (List.mem_singleton.mp member)).2]
    exact .int (by decide)

theorem decode_iff_finite_unbounded : Loose maxNesting unbounded ∧
    (∃ text, unbounded.compact = .ok text ∧ decode text = .ok unbounded.settled) ∧
    ∃ text, unbounded.canonical = .ok text ∧
      ((∃ w, decode text = .ok w) ↔ (∃ other, fast.encode .compact unbounded = .ok other) ∨ unbounded.IsJson) :=
  ⟨loose_unbounded, decode_iff_finite loose_unbounded⟩

/-- A large integer beside something that is no number. -/
def countless : Value := .list [.int (2 ^ 70), .float (0.0 / 0.0)]

theorem loose_countless : Loose maxNesting countless :=
  .list (List.forall_mem_cons.mpr ⟨.int (by decide), List.forall_mem_singleton.mpr (.float (by decide))⟩)

theorem named_countless : String.ofList (named 0 countless) = "[1180591620717411303424,NaN]" := by decide +kernel

theorem canonical_countless : countless.canonical = .ok "[1180591620717411303424,NaN]" := by
  have sorted : countless.sorted = countless := rfl
  have blocked : fast.obstacle? fast.room countless = some .integerOutOfRange := by decide +kernel
  have free : plain.obstacle? plain.room countless = none := by decide +kernel
  rw [Value.canonical, sorted, Encoder.encode, blocked]
  dsimp only
  rw [Encoder.encode, free]
  exact congrArg Except.ok named_countless

/-- The plain encoder has a name for what is no number, and the reader does not know it. -/
theorem canonical_not_decoded : Loose maxNesting countless ∧
    countless.canonical = .ok "[1180591620717411303424,NaN]" ∧
    ∀ w, decode "[1180591620717411303424,NaN]" ≠ .ok w := by
  refine ⟨loose_countless, canonical_countless, fun w decoded => ?_⟩
  have foreign : ¬ countless.IsJson := by
    intro json
    cases Value.isJson_list.mp json _ (List.mem_cons_of_mem _ List.mem_cons_self) with
    | float finite => exact absurd finite (by decide)
  refine foreign ((decode_of_names loose_countless).mp ⟨w, ?_⟩)
  rw [named_countless, decoded]

end ScreenPlan.Json
