import ScreenPlan.Proofs.Plan.Payload
import ScreenPlan.Proofs.Planner.Provenance

/-!
# Failures

A planner refuses a request, finds no candidate in a reply or hands on what the service raised; the
one thing that can go wrong besides is a plan that cannot be written. Plans that come from replies
have no integers that are too long, but they may nest too deep for a payload: such plans pass the
audit, which does not look into the values of enumerated props.
-/

namespace ScreenPlan

/-! ### What can be done with a plan -/

namespace Plan
variable {p : Plan}

/-- Every stage that a plan can pass through takes it. -/
structure Usable (p : Plan) : Prop where
  answered : ∃ v, (Outcome.accepted p).response = .ok v
  screened : ∃ text, p.compact = .ok text
  prompted : ∀ request, ∃ text, Prompt.planner request (some p) = .ok text
  keyed : ∀ request, ∃ key, PlanStore.key request (some p) = .ok key
  rendered : ∀ importPath, ∃ g, Markup.generatePlan importPath p = .ok g

end Plan

theorem Outcome.response_ok {o : Outcome} :
    (∃ v, o.response = .ok v) ↔ ∀ p, o.plan = some p → p.Shallow := by
  obtain ⟨_ | p, errors⟩ := o
  · simp [response]
  · by_cases shallow : p.Shallow
    · simp [response, Plan.payload_of_shallow shallow, shallow, Except.map]
    · simp [response, Plan.payload_of_not_shallow shallow, shallow, Except.map]

theorem Plan.usable_iff {p : Plan} : p.Usable ↔ p.Writable := by
  constructor
  · intro usable
    exact usable.screened
  · intro writable
    obtain ⟨indented, written⟩ := indented_ok writable
    obtain ⟨canonical, sorted⟩ := canonical_ok writable
    refine ⟨Outcome.response_ok.mpr ?_, writable, fun request => ?_, fun request => ?_,
      Markup.generatePlan_ok writable⟩
    · intro q same
      exact Option.some.inj same ▸ writable.shallow
    · exact ⟨_, by rw [Prompt.planner, written]; rfl⟩
    · exact ⟨_, by rw [PlanStore.key, PlanStore.previousText, sorted]; rfl⟩

namespace Planner

/-! ### One call -/

/-- A failure that callers are told about. The service's exceptions are those of the one prompt that
was put to it since. -/
inductive Documented (service : Service) (before after : List String) : Failure → Prop
  | rejected (reason : String) : Documented service before after (.requestRejected reason)
  | malformed (defect : Reply.Defect) : Documented service before after (.malformed defect)
  | service {prompt : String} {raised : Raised} (asked : after = before ++ [prompt])
      (reply : (service prompt).reply = .error raised) : Documented service before after (.service raised)

/-- The failure comes from the plan to change, which cannot be written. -/
def FromPrevious (previous : Option Plan) (failure : Failure) : Prop :=
  (∃ e, failure = .unwritable e) ∧ ∃ p, previous = some p ∧ ¬ p.Writable

variable {settings : Settings} {service : Service} {request : Value} {message : String}
  {previous : Option Plan} {key : Option String} {s s' : Session} {ending : Ending} {failure : Failure}

theorem not_fromPrevious (writable : ∀ p, previous = some p → p.Writable) : ¬ FromPrevious previous failure :=
  fun ⟨_, p, same, unwritable⟩ => unwritable (writable p same)

theorem screen_failure (failed : (screen settings request previous).1 = .error failure) :
    (∃ reason, failure = .requestRejected reason) ∨ FromPrevious previous failure := by
  unfold screen at failed
  split at failed
  · exact .inl ⟨_, (Except.error.inj failed).symm⟩
  · split at failed
    · cases failed
    · next e written =>
      obtain ⟨p, rfl, compact⟩ := Option.map_eq_some_iff.mp written
      refine .inr ⟨⟨e, (Except.error.inj failed).symm⟩, p, rfl, ?_⟩
      rintro ⟨text, written⟩
      cases written.symm.trans compact
    · split at failed
      · exact .inl ⟨_, (Except.error.inj failed).symm⟩
      · cases failed

theorem key_failure {e : Unwritable} (failed : PlanStore.key message previous = .error e) :
    FromPrevious previous (.unwritable e) := by
  cases previous with
  | none => cases failed
  | some p =>
    refine ⟨⟨e, rfl⟩, p, rfl, fun writable => ?_⟩
    obtain ⟨text, canonical⟩ := Plan.canonical_ok writable
    rw [PlanStore.key, PlanStore.previousText, canonical] at failed
    cases failed

theorem prompt_failure {e : Unwritable} (failed : Prompt.planner message previous = .error e) :
    FromPrevious previous (.unwritable e) := by
  cases previous with
  | none => cases failed
  | some p =>
    refine ⟨⟨e, rfl⟩, p, rfl, fun writable => ?_⟩
    obtain ⟨text, indented⟩ := Plan.indented_ok writable
    rw [Prompt.planner, indented] at failed
    cases failed

theorem consulted_failure (course : Consulted settings service message previous key s ending s')
    (failed : ending.answer = .error failure) :
    Documented service s.prompts s'.prompts failure ∨ FromPrevious previous failure := by
  cases course with
  | unasked prompted =>
    obtain rfl := Except.error.inj failed
    exact .inr (prompt_failure prompted)
  | raised prompted reply =>
    obtain rfl := Except.error.inj failed
    exact .inl (.service rfl reply)
  | malformed =>
    obtain rfl := Except.error.inj failed
    exact .inl (.malformed _)
  | invalid | valid => cases failed

theorem attempted_failure (course : Attempted settings service request previous s ending s')
    (failed : ending.answer = .error failure) :
    Documented service s.prompts s'.prompts failure ∨ FromPrevious previous failure := by
  cases course with
  | screenedOut screened =>
    obtain rfl := Except.error.inj failed
    rcases screen_failure screened with ⟨reason, rfl⟩ | fromPrevious
    · exact .inl (.rejected reason)
    · exact .inr fromPrevious
  | keyless _ _ keyed =>
    obtain rfl := Except.error.inj failed
    exact .inr (key_failure keyed)
  | found => cases failed
  | missed _ _ _ _ consulted | storeless _ _ consulted =>
    have result := consulted_failure consulted failed
    exact result

/-- A planning request fails as documented unless the plan to change cannot be written. -/
theorem plan_failure (planned : plan settings service request previous s = (.error failure, s')) :
    Documented service s.prompts s'.prompts failure ∨ FromPrevious previous failure := by
  obtain ⟨ending, t, course, planned'⟩ := plan_course settings service request previous s
  obtain ⟨failed, rfl⟩ := Prod.mk.inj (planned'.symm.trans planned)
  have result := attempted_failure course failed
  exact result

/-- The plan among the outcome of a call that plans. -/
def planOf : Except Failure Outcome → Option Plan
  | .ok outcome => outcome.plan
  | .error _ => none

theorem render_of_unwritable {p : Plan} {errors : List String} {e : Unwritable}
    (failed : Markup.generatePlan settings.importPath p = .error e)
    (planned : plan settings service request previous s = (.ok ⟨some p, errors⟩, s')) :
    (render settings service request previous s).1 = .error (.unwritable e) := by
  rw [render, planned]
  dsimp only
  rw [failed]

theorem render_of_generated {p : Plan} {errors : List String} {g : Markup.Generated}
    (made : Markup.generatePlan settings.importPath p = .ok g)
    (planned : plan settings service request previous s = (.ok ⟨some p, errors⟩, s')) :
    (render settings service request previous s).1 = .ok g.code := by
  rw [render, planned]
  dsimp only
  rw [made]

/-! ### Calls that do as documented -/

/-- A planning or rendering call fails as documented if it fails, and a planning call that does not
fail has a response. -/
def Move.Sound (settings : Settings) (s : Session) : Move → Prop
  | .plan service request previous =>
    match Planner.plan settings service request previous s with
    | (.error failure, s') => Documented service s.prompts s'.prompts failure
    | (.ok outcome, _) => ∃ v, outcome.response = .ok v
  | .render service request previous =>
    match Planner.render settings service request previous s with
    | (.error failure, s') => Documented service s.prompts s'.prompts failure
    | (.ok _, _) => True
  | .explain .. | .wait _ => True

/-- The plan to change. -/
def Move.toChange : Move → Option Plan
  | .plan _ _ previous | .render _ _ previous => previous
  | .explain .. | .wait _ => none

/-- The plan that a call hands out or renders. -/
def Move.accepted (settings : Settings) (s : Session) : Move → Option Plan
  | .plan service request previous | .render service request previous =>
    planOf (Planner.plan settings service request previous s).1
  | .explain .. | .wait _ => none

theorem not_documented_unwritable {before after : List String} {e : Unwritable} :
    ¬ Documented service before after (.unwritable e) := nofun

/-- If the plan to change can be written and the new one has no integer that is too long, then only the depth of the
new one decides. -/
theorem sound_iff {move : Move} (kept : ∀ p, move.toChange = some p → p.Writable)
    (brief : ∀ p, move.accepted settings s = some p → p.Brief) :
    move.Sound settings s ↔ ∀ p, move.accepted settings s = some p → p.Shallow := by
  cases move with
  | plan service request previous =>
    rw [Move.Sound, Move.accepted]
    rcases planned : plan settings service request previous s with ⟨failure | outcome, s'⟩
    · simp only [planOf, reduceCtorEq, false_imp_iff, implies_true, iff_true]
      exact (plan_failure planned).resolve_right (not_fromPrevious kept)
    · exact Outcome.response_ok
  | render service request previous =>
    rw [Move.Sound, Move.accepted]
    rw [Move.accepted] at brief
    rcases planned : plan settings service request previous s with ⟨failure | ⟨_ | p, errors⟩, s'⟩
    · simp only [render_of_failed planned, planOf, reduceCtorEq, false_imp_iff, implies_true, iff_true]
      exact (plan_failure planned).resolve_right (not_fromPrevious kept)
    · simp [render_of_planless planned, planOf]
    · simp only [planOf, Option.some.injEq, forall_eq']
      rw [planned] at brief
      by_cases shallow : p.Shallow
      · have writable := Plan.writable_iff.mpr ⟨shallow, brief p rfl⟩
        obtain ⟨g, made⟩ := Markup.generatePlan_ok writable settings.importPath
        have rendered := render_of_generated made planned
        rcases whole : render settings service request previous s with ⟨_ | code', s''⟩
        · rw [whole] at rendered
          cases rendered
        · simp [shallow]
      · have rendered := render_of_unwritable (Markup.generatePlan_deep shallow _) planned
        rcases whole : render settings service request previous s with ⟨failure | code', s''⟩
        · rw [whole] at rendered
          obtain rfl := Except.error.inj rendered
          simp [shallow, not_documented_unwritable]
        · rw [whole] at rendered
          cases rendered
  | explain | wait => simp [Move.Sound, Move.accepted]

/-! ### Runs -/

def EachSound (settings : Settings) : List Move → Session → Prop
  | [], _ => True
  | move :: moves, s => move.Sound settings s ∧ EachSound settings moves (move.after settings s)

/-- All plans accepted in the course of a run. -/
def accepted (settings : Settings) : List Move → Session → List Plan
  | [], _ => []
  | move :: moves, s => (move.accepted settings s).toList ++ accepted settings moves (move.after settings s)

/-- Every plan to change is a known one or was accepted earlier in the run. -/
def Continues (settings : Settings) (known : List Plan) : List Move → Session → Prop
  | [], _ => True
  | move :: moves, s => (∀ p, move.toChange = some p → p ∈ known) ∧
    Continues settings (known ++ (move.accepted settings s).toList) moves (move.after settings s)

/-- A plan that comes from a reply has no integer that is too long. -/
theorem gives_brief : Built.Gives Plan.Brief :=
  fun _ _ _ _ built => Plan.brief_of_data (Json.brief_of_said (said_of_built built))

theorem accepted_brief {move : Move} (brief : Stores Plan.Brief s.store) {p : Plan}
    (accepted : move.accepted settings s = some p) : p.Brief := by
  have called {service : Service} {request : Value} {previous : Option Plan}
      (accepted : planOf (plan settings service request previous s).1 = some p) : p.Brief := by
    rcases planned : plan settings service request previous s with ⟨failure | outcome, s'⟩
    · rw [planned] at accepted
      cases accepted
    · rw [planned] at accepted
      exact plan_holds gives_brief brief planned accepted
  cases move with
  | plan | render => exact called accepted
  | explain | wait => cases accepted

theorem eachSound_iff {moves : List Move} {known : List Plan} (brief : Stores Plan.Brief s.store)
    (writable : ∀ p ∈ known, p.Writable) (continues : Continues settings known moves s) :
    EachSound settings moves s ↔ ∀ p ∈ accepted settings moves s, p.Shallow := by
  induction moves generalizing known s with
  | nil => simp [EachSound, accepted]
  | cons move moves ih =>
    obtain ⟨previous, continues⟩ := continues
    have first : move.Sound settings s ↔ ∀ p, move.accepted settings s = some p → p.Shallow :=
      sound_iff (fun p same => writable p (previous p same)) fun p accepted => accepted_brief brief accepted
    rw [EachSound, accepted, List.forall_mem_append, first]
    simp only [Option.mem_toList]
    refine and_congr_right fun good => ih (after_stores_holds gives_brief brief move) ?_ continues
    intro p hp
    rcases List.mem_append.mp hp with old | new
    · exact writable p old
    · have accepted := Option.mem_toList.mp new
      exact Plan.writable_iff.mpr ⟨good p accepted, accepted_brief brief accepted⟩

theorem brief_of_accepted {moves : List Move} (brief : Stores Plan.Brief s.store) {p : Plan}
    (member : p ∈ accepted settings moves s) : p.Brief := by
  induction moves generalizing s with
  | nil => cases member
  | cons move moves ih =>
    rcases List.mem_append.mp member with first | later
    · exact accepted_brief brief (Option.mem_toList.mp first)
    · exact ih (after_stores_holds gives_brief brief move) later

/-! ### A run that keeps to the documentation -/

/-- Where every plan to change comes from the run itself, and the plans that were stored before have no integer that is
too long, the depth of the accepted plans alone decides: while all of them have payloads, no call fails in a way that is
not documented, and those are the plans that every stage takes. Of all plans there are, every stage takes those that
have a payload and no integer that is too long. -/
theorem run_failures_documented {moves : List Move} (brief : Stores Plan.Brief s.store)
    (continues : Continues settings [] moves s) :
    (EachSound settings moves s ↔ ∀ p ∈ accepted settings moves s, p.Shallow) ∧
      (∀ p ∈ accepted settings moves s, p.Usable ↔ p.Shallow) ∧
      ∀ p : Plan, p.Usable ↔ p.Shallow ∧ p.Brief := by
  refine ⟨eachSound_iff brief (List.forall_mem_nil _) continues, fun p member => ?_, fun p => ?_⟩
  · rw [Plan.usable_iff, Plan.writable_iff]
    exact and_iff_left (brief_of_accepted brief member)
  · rw [Plan.usable_iff, Plan.writable_iff]

def cardMoves : List Move :=
  [.wait 1.0, .plan cardService (.str "a card") none, .render cardService (.str "a button") (some cardPlan)]

theorem cardMoves_continue : Continues {} [] cardMoves cardSession := by
  refine ⟨nofun, nofun, ?_, trivial⟩
  intro p same
  obtain rfl := Option.some.inj same
  have made : (Move.plan cardService (.str "a card") none).accepted {} (run {} [.wait 1.0] cardSession) =
      some cardPlan := by
    rw [Move.accepted, cardService_answers]
    rfl
  exact List.mem_append_right _ (Option.mem_toList.mpr made)

/-- A card is planned and then turned into something else. -/
theorem run_failures_documented_cards :
    Stores Plan.Brief cardSession.store ∧ Continues {} [] cardMoves cardSession ∧
      (EachSound {} cardMoves cardSession ↔ ∀ p ∈ accepted {} cardMoves cardSession, p.Shallow) ∧
      (∀ p ∈ accepted {} cardMoves cardSession, p.Usable ↔ p.Shallow) ∧
      ∀ p : Plan, p.Usable ↔ p.Shallow ∧ p.Brief :=
  ⟨stores_unfilled cardSession_unfilled, cardMoves_continue,
    run_failures_documented (stores_unfilled cardSession_unfilled) cardMoves_continue⟩

/-! ### A run that does not -/

/-- Lists inside one another, an empty one in the middle. -/
def nest : Nat → Value
  | 0 => .list []
  | n + 1 => .list [nest n]

theorem height_nest (n : Nat) : (nest n).height = n := by
  induction n with
  | zero => rfl
  | succ n ih => simp [nest, Value.height, Value.heightItems, ih]

theorem legible_nest {n room : Nat} (fits : n < room) : Json.Legible room (nest n) := by
  obtain ⟨room, rfl⟩ : ∃ r, room = r + 1 := ⟨room - 1, by omega⟩
  induction n generalizing room with
  | zero => exact .list nofun
  | succ n ih =>
    obtain ⟨room, rfl⟩ : ∃ r, room = r + 1 := ⟨room - 1, by omega⟩
    refine .list fun x hx => ?_
    rw [List.mem_singleton.mp hx]
    exact ih room (by omega)

theorem length_print_nest (spelling : Spelling) (level n : Nat) :
    (Json.print spelling .compact level (nest n)).length = 2 * n + 2 := by
  induction n generalizing level with
  | zero => rw [nest, Json.print]; rfl
  | succ n ih =>
    rw [nest, Json.print, Json.printItems, Json.enclose, List.intercalate_singleton]
    simp [Json.Layout.lead, ih]
    omega

/-- A button whose variant is no text but lists inside one another. -/
def nested (n : Nat) : Value :=
  .object [("layout", .str "grid"), ("components", .list [.object [("type", .str "Button"),
    ("props", .object [("variant", nest n)])]])]

def nestedPlan (n : Nat) : Plan := ⟨"grid", [⟨.button, [("variant", nest n)], []⟩]⟩

theorem nestedPlan_shallow {n : Nat} : (nestedPlan n).Shallow ↔ n ≤ 252 := by
  simp [Plan.Shallow, nestedPlan, Node.heights, Node.height, Value.height, Value.heightFields, height_nest,
    Node.maxLevel]
  omega

theorem nested_isPlan (n : Nat) : Grammar.IsPlan (nested n) := by
  have fits : Grammar.FitsKind .button [("variant", nest n)] := by
    refine ⟨?_, ?_, ?_, nofun⟩
    · intro key named
      rw [List.mem_singleton.mp named]
      exact List.mem_cons_of_mem _ List.mem_cons_self
    · intro prop choices text _ value
      by_cases same : "variant" = prop
      · rw [Table.get?_cons, if_pos same] at value
        cases n <;> cases value
      · rw [Table.get?_cons, if_neg same] at value
        cases value
    · intro key v member named
      obtain ⟨rfl, -⟩ := Prod.mk.inj (List.mem_singleton.mp member)
      exact absurd named (by decide)
  refine .root (by decide) rfl rfl fun node member => ?_
  rw [List.mem_singleton.mp member]
  exact .leaf (by decide) rfl (.table fits) rfl

def nestedChars (n : Nat) : List Char := Json.print Json.plain.spelling .compact 0 (nested n)

def nestedService (n : Nat) : Service := fun _ => ⟨0.5, .ok (.str (String.ofList (nestedChars n)))⟩

theorem legible_nested {n : Nat} (fits : n < 996) : Json.Legible Json.maxNesting (nested n) := by
  have props : Json.Legible 997 (.object [("variant", nest n)]) := by
    refine .object (List.nodup_singleton _) fun name v member => ?_
    obtain ⟨-, rfl⟩ := Prod.mk.inj (List.mem_singleton.mp member)
    exact legible_nest fits
  have node : Json.Legible 998 (.object [("type", .str "Button"), ("props", .object [("variant", nest n)])]) := by
    refine .object (by simp [Table.names]) fun name v member => ?_
    rcases List.mem_cons.mp member with same | member
    · obtain ⟨-, rfl⟩ := Prod.mk.inj same
      exact .str _
    · obtain ⟨-, rfl⟩ := Prod.mk.inj (List.mem_singleton.mp member)
      exact props
  refine .object (by simp [Table.names]) fun name v member => ?_
  rcases List.mem_cons.mp member with same | member
  · obtain ⟨-, rfl⟩ := Prod.mk.inj same
    exact .str _
  · obtain ⟨-, rfl⟩ := Prod.mk.inj (List.mem_singleton.mp member)
    refine .list fun x hx => ?_
    rw [List.mem_singleton.mp hx]
    exact node

theorem length_nestedChars (n : Nat) : (nestedChars n).length = 2 * n + 73 := by
  have names : (Json.quote "layout").length = 8 ∧ (Json.quote "grid").length = 6 ∧
      (Json.quote "components").length = 12 ∧ (Json.quote "type").length = 6 ∧
      (Json.quote "Button").length = 8 ∧ (Json.quote "props").length = 7 ∧
      (Json.quote "variant").length = 9 := by decide
  simp [nestedChars, nested, Json.print, Json.printItems, Json.printMembers, Json.enclose, Json.Layout.lead,
    Json.Layout.comma, Json.Layout.colon, length_print_nest, names]
  omega

theorem utf8ByteSize_ofList_le (s : List Char) : (String.ofList s).utf8ByteSize ≤ 4 * s.length := by
  induction s with
  | nil => exact Nat.le_refl _
  | cons c s ih =>
    have := c.utf8Size_le_four
    rw [String.ofList_cons]
    simp
    omega

theorem trimChars_nestedChars (n : Nat) : Text.trimChars (nestedChars n) = nestedChars n := by
  refine Text.trimWhere_of_trimmed ⟨?_, ?_⟩ <;> rw [nestedChars, nested, Json.print, Json.enclose]
  · intro c hc
    obtain rfl := Option.some.inj hc
    decide
  · intro c hc
    rw [List.getLast?_concat] at hc
    obtain rfl := Option.some.inj hc
    decide

theorem read_nested {n : Nat} (fits : n < 996) :
    (readReply {} (.str (String.ofList (nestedChars n)))).result = .ok (nested n) := by
  have small : Text.checkSize (String.ofList (nestedChars n)) (.ofNat 524288) "Planner response" = .ok () := by
    have size := utf8ByteSize_ofList_le (nestedChars n)
    rw [length_nestedChars] at size
    rw [Text.checkSize, Limit.exceededBy_ofNat, if_neg]
    simp only [decide_eq_true_eq]
    omega
  refine read_document small (String.toList_ofList) ?_ (trimChars_nestedChars n)
    (Json.document_print (l := .compact) trivial (legible_nested fits).readable 0)
  intro none
  have size := length_nestedChars n
  rw [none, List.length_nil] at size
  omega

theorem nestedService_answers {n : Nat} (fits : n < 996) :
    (plan {} (nestedService n) (.str "a card") none (run {} [.wait 1.0] cardSession)).1 =
      .ok (.accepted (nestedPlan n)) := by
  have right : audit (nested n) = [] := Grammar.audit_eq_nil.mpr (nested_isPlan n)
  have made : Plan.read (nested n) = .ok (nestedPlan n) := by with_unfolding_all rfl
  have replies : ∀ prompt, (nestedService n prompt).reply = .ok (.str (String.ofList (nestedChars n))) :=
    fun _ => rfl
  rcases first_judged replies (read_nested fits) with ⟨p, -, made', answered⟩ | ⟨wrong, -⟩
  · cases made.symm.trans made'
    exact answered
  · exact (wrong right).elim

def nestedMoves (n : Nat) : List Move := [.wait 1.0, .plan (nestedService n) (.str "a card") none]

/-- The only plan of the run is accepted, however deep it nests. -/
theorem nestedMoves_sound {n : Nat} (fits : n < 996) :
    EachSound {} (nestedMoves n) cardSession ↔ n ≤ 252 := by
  have continues : Continues {} [] (nestedMoves n) cardSession := ⟨nofun, nofun, trivial⟩
  have made : (Move.plan (nestedService n) (.str "a card") none).accepted {}
      (run {} [.wait 1.0] cardSession) = some (nestedPlan n) := by
    rw [Move.accepted, nestedService_answers fits]
    rfl
  have all : accepted {} (nestedMoves n) cardSession = [nestedPlan n] := by
    have waited : Move.after {} cardSession (.wait 1.0) = run {} [.wait 1.0] cardSession := rfl
    rw [nestedMoves, accepted, accepted, accepted, waited, made]
    rfl
  rw [eachSound_iff (stores_unfilled cardSession_unfilled) (List.forall_mem_nil _) continues, all,
    List.forall_mem_singleton, nestedPlan_shallow]

/-- Three hundred lists inside one another pass the audit, and then there is no response. -/
theorem deep_variant_not_sound :
    Continues {} [] (nestedMoves 300) cardSession ∧ ¬ EachSound {} (nestedMoves 300) cardSession := by
  refine ⟨⟨nofun, nofun, trivial⟩, ?_⟩
  rw [nestedMoves_sound (by decide)]
  decide

end Planner
end ScreenPlan
