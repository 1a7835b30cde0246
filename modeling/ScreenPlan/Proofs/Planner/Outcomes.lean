import ScreenPlan.Proofs.Planner.Run

/-!
# Outcomes

Nothing that has not passed the audit leaves a planner, whatever has happened before.
-/

namespace ScreenPlan.Planner

/-- The service was asked once more, and its reply holds the candidate. -/
def Extracted (service : Service) (s s' : Session) (candidate : Value) : Prop :=
  ∃ prompt reply, s'.prompts = s.prompts ++ [prompt] ∧ (service prompt).reply = .ok reply ∧
    (Reply.read reply).result = .ok candidate

/-- The plan is a stored one, and the service was not asked. -/
def Recalled (s s' : Session) (p : Plan) : Prop :=
  s'.prompts = s.prompts ∧ ∃ plans, s.store = some plans ∧ ∃ e ∈ plans.entries, e.value = p

/-- The plan has the form of the candidate in the reply. -/
def Built (service : Service) (s s' : Session) (p : Plan) : Prop :=
  ∃ candidate, Extracted service s s' candidate ∧ p.data = Form.plan Form.untouched candidate

/-- A plan of the grammar and no errors. -/
def Good (outcome : Outcome) (p : Plan) : Prop :=
  outcome.plan = some p ∧ outcome.errors = [] ∧ Grammar.IsPlan p.data

/-- No plan, but the errors of the candidate in the reply. -/
def Refused (service : Service) (s s' : Session) (outcome : Outcome) : Prop :=
  outcome.plan = none ∧ outcome.errors ≠ [] ∧
    ∃ candidate, Extracted service s s' candidate ∧ outcome.errors = errorTexts (audit candidate)

/-- The limit on the size of replies changes nothing about those it lets pass. -/
theorem read_of_readReply {settings : Settings} {raw candidate : Value}
    (h : (readReply settings raw).result = .ok candidate) :
    (Reply.read raw).result = .ok candidate := by
  unfold readReply at h
  split at h
  · split at h
    · cases h
    · exact h
  · exact h

theorem consulted_outcome {settings : Settings} {service : Service} {message : String}
    {previous : Option Plan} {key : Option String} {s s' : Session} {ending : Ending}
    {outcome : Outcome} (course : Consulted settings service message previous key s ending s')
    (answer : ending.answer = .ok outcome) :
    (∃ p, Good outcome p ∧ Built service s s' p) ∨ Refused service s s' outcome := by
  cases course with
  | invalid _ reply read wrong =>
    obtain rfl := Except.ok.inj answer
    refine .inr ⟨rfl, ?_, _, ⟨_, _, rfl, reply, read_of_readReply read⟩, rfl⟩
    simpa [Outcome.rejected, errorTexts] using wrong
  | valid _ reply read right made =>
    obtain rfl := Except.ok.inj answer
    have plan := Grammar.audit_eq_nil.mp right
    have form := Plan.data_of_read plan made Form.untouched
    rw [Plan.arranged_untouched] at form
    exact .inl ⟨_, ⟨rfl, rfl, Plan.isPlan_data plan made⟩,
      _, ⟨_, _, rfl, reply, read_of_readReply read⟩, form⟩
  | _ => cases answer

theorem attempted_outcome {settings : Settings} {service : Service} {request : Value}
    {previous : Option Plan} {s s' : Session} {ending : Ending} {outcome : Outcome}
    (sound : StoresPlans s.store)
    (course : Attempted settings service request previous s ending s')
    (answer : ending.answer = .ok outcome) :
    (∃ p, Good outcome p ∧ (Recalled s s' p ∨ Built service s s' p)) ∨
      Refused service s s' outcome := by
  cases course with
  | found _ stored _ hit =>
    obtain rfl := Except.ok.inj answer
    obtain ⟨e, he, same⟩ := Lru.mem_entries_of_get hit
    exact .inl ⟨_, ⟨rfl, rfl, same ▸ sound _ stored e he⟩, .inl ⟨rfl, _, stored, e, he, same⟩⟩
  | missed _ _ _ _ consulted | storeless _ _ consulted =>
    rcases consulted_outcome consulted answer with ⟨p, good, built⟩ | refused
    · exact .inl ⟨p, good, .inr built⟩
    · exact .inr refused
  | _ => cases answer

/-- What a request is answered once the reply to it holds a candidate. -/
def Judged (candidate : Value) (answer : Except Failure Outcome) : Prop :=
  (∃ p, audit candidate = [] ∧ Plan.read candidate = .ok p ∧ answer = .ok (.accepted p)) ∨
    (audit candidate ≠ [] ∧ answer = .ok (.rejected (errorTexts (audit candidate))))

/-- A reply that holds a candidate leaves two endings, and the audit decides between them. -/
theorem consulted_read {settings : Settings} {service : Service} {message prompt : String}
    {previous : Option Plan} {key : Option String} {raw candidate : Value} {s s' : Session}
    {ending : Ending} (prompted : Prompt.planner message previous = .ok prompt)
    (reply : (service prompt).reply = .ok raw)
    (read : (readReply settings raw).result = .ok candidate)
    (course : Consulted settings service message previous key s ending s') :
    (∃ p log, audit candidate = [] ∧ Plan.read candidate = .ok p ∧ ending = ⟨.valid, .ok (.accepted p)⟩ ∧
      s' = { (s.ask service prompt).2 with
        log := log
        store := filed s.store key p (s.ask service prompt).2.clock }) ∨
      audit candidate ≠ [] ∧ ending.answer = .ok (.rejected (errorTexts (audit candidate))) := by
  cases course with
  | unasked prompted' => cases prompted.symm.trans prompted'
  | raised prompted' reply' =>
    cases prompted.symm.trans prompted'
    cases reply.symm.trans reply'
  | malformed prompted' reply' read' =>
    cases prompted.symm.trans prompted'
    cases reply.symm.trans reply'
    cases read.symm.trans read'
  | invalid prompted' reply' read' wrong =>
    cases prompted.symm.trans prompted'
    cases reply.symm.trans reply'
    cases read.symm.trans read'
    exact .inr ⟨wrong, rfl⟩
  | valid prompted' reply' read' right made =>
    cases prompted.symm.trans prompted'
    cases reply.symm.trans reply'
    cases read.symm.trans read'
    exact .inl ⟨_, _, right, made, rfl, rfl⟩

theorem consulted_judged {settings : Settings} {service : Service} {message prompt : String}
    {previous : Option Plan} {key : Option String} {raw candidate : Value} {s s' : Session}
    {ending : Ending} (prompted : Prompt.planner message previous = .ok prompt)
    (reply : (service prompt).reply = .ok raw)
    (read : (readReply settings raw).result = .ok candidate)
    (course : Consulted settings service message previous key s ending s') :
    Judged candidate ending.answer := by
  rcases consulted_read prompted reply read course with ⟨p, log, right, made, rfl, -⟩ | ⟨wrong, answer⟩
  · exact .inl ⟨p, right, made, rfl⟩
  · exact .inr ⟨wrong, answer⟩

/-- Without a stored plan, a screened request is answered by what the service replies. -/
theorem plan_judged {settings : Settings} {service : Service} {request : Value} {message prompt key : String}
    {previous : Option Plan} {raw candidate : Value} {s : Session}
    (unfilled : ∀ plans, s.store = some plans → plans.entries = [])
    (screened : (screen settings request previous).1 = .ok message)
    (keyed : PlanStore.key message previous = .ok key)
    (prompted : Prompt.planner message previous = .ok prompt)
    (reply : (service prompt).reply = .ok raw)
    (read : (readReply settings raw).result = .ok candidate) :
    Judged candidate (plan settings service request previous s).1 := by
  obtain ⟨ending, s', course, planned⟩ := plan_course settings service request previous s
  rw [planned]
  cases course with
  | screenedOut screened' => cases screened.symm.trans screened'
  | keyless screened' _ keyed' =>
    cases screened.symm.trans screened'
    cases keyed.symm.trans keyed'
  | found _ stored _ hit =>
    obtain ⟨e, he, -⟩ := Lru.mem_entries_of_get hit
    rw [unfilled _ stored] at he
    cases he
  | missed screened' _ _ _ consulted | storeless screened' _ consulted =>
    cases screened.symm.trans screened'
    exact consulted_judged prompted reply read consulted

/-! ### A request for a card -/

/-- A reply that is a small document without blanks around it holds what the document says. -/
theorem read_document {text : String} {s : List Char} {v : Value}
    (small : Text.checkSize text (.ofNat 524288) "Planner response" = .ok ()) (chars : text.toList = s)
    (some : s ≠ []) (trimmed : Text.trimChars s = s) (document : Json.document s = .ok v) :
    (readReply {} (.str text)).result = .ok v := by
  have decoded : Json.decode (String.ofList s) = .ok v := by
    rw [Json.decode, String.toList_ofList, document]
    rfl
  unfold readReply
  dsimp only
  rw [small]
  dsimp only
  unfold Reply.read
  dsimp only
  rw [chars, trimmed]
  cases s with
  | nil => exact (some rfl).elim
  | cons c s =>
    simp only [Reply.readTrimmed]
    rw [decoded]

def cardText : String := "\x7b\"layout\":\"flex\",\"components\":[\x7b\"type\":\"Card\"\x7d]\x7d"

def card : Value :=
  .object [("layout", .str "flex"), ("components", .list [.object [("type", .str "Card")]])]

def cardPlan : Plan := ⟨"flex", [⟨.card, [], []⟩]⟩

def cardService : Service := fun _ => ⟨0.5, .ok (.str cardText)⟩

def cardSession : Session := start {} (some { capacity := 3, capacity_pos := by decide, ttl := none })

def cardChars : List Char :=
  ['{', '"', 'l', 'a', 'y', 'o', 'u', 't', '"', ':', '"', 'f', 'l', 'e', 'x', '"', ',', '"', 'c',
    'o', 'm', 'p', 'o', 'n', 'e', 'n', 't', 's', '"', ':', '[', '{', '"', 't', 'y', 'p', 'e', '"',
    ':', '"', 'C', 'a', 'r', 'd', '"', '}', ']', '}']

theorem read_cardText : (readReply {} (.str cardText)).result = .ok card := by
  have size : cardText.utf8ByteSize = 48 := by with_unfolding_all rfl
  have small : Text.checkSize cardText (.ofNat 524288) "Planner response" = .ok () := by
    rw [Text.checkSize, size]
    rfl
  exact read_document (s := cardChars) small (by with_unfolding_all rfl) (by decide)
    (by with_unfolding_all rfl) (by with_unfolding_all rfl)

theorem cardSession_unfilled : ∀ plans, cardSession.store = some plans → plans.entries = [] := by
  intro plans stored
  obtain rfl := Option.some.inj stored
  rfl

theorem first_judged {service : Service} {text : String} {candidate : Value}
    (reply : ∀ prompt, (service prompt).reply = .ok (.str text))
    (read : (readReply {} (.str text)).result = .ok candidate) :
    Judged candidate (plan {} service (.str "a card") none (run {} [.wait 1.0] cardSession)).1 := by
  have screened : screen {} (.str "a card") none = (.ok "a card", []) := by with_unfolding_all rfl
  exact plan_judged cardSession_unfilled (congrArg Prod.fst screened) rfl rfl (reply _) read

theorem cardService_answers :
    (plan {} cardService (.str "a card") none (run {} [.wait 1.0] cardSession)).1 =
      .ok (.accepted cardPlan) := by
  have right : audit card = [] := by cbv
  have made : Plan.read card = .ok cardPlan := by with_unfolding_all rfl
  have replies : ∀ prompt, (cardService prompt).reply = .ok (.str cardText) := fun _ => rfl
  rcases first_judged replies read_cardText with ⟨p, -, made', answered⟩ | ⟨wrong, -⟩
  · cases made.symm.trans made'
    exact answered
  · exact (wrong right).elim

/-! ### Every outcome of every run -/

/-- However a run went that began without stored plans: what a planning request answers is a plan
of the grammar, stored or just built, or the errors of the candidate it was put off with. -/
theorem plan_outcome_validated {settings : Settings} {start : Session} {outcome : Outcome}
    (unfilled : ∀ plans, start.store = some plans → plans.entries = []) (moves : List Move)
    (service : Service) (request : Value) (previous : Option Plan)
    (answered : (plan settings service request previous (run settings moves start)).1 = .ok outcome) :
    let s := run settings moves start
    let s' := (plan settings service request previous s).2
    (∃ p, Good outcome p ∧ (Recalled s s' p ∨ Built service s s' p)) ∨
      Refused service s s' outcome := by
  intro s s'
  have sound : StoresPlans s.store := run_storesPlans (storesPlans_unfilled unfilled) moves
  obtain ⟨ending, t, course, planned⟩ := plan_course settings service request previous s
  have answer : ending.answer = .ok outcome := by rw [← answered, planned]
  have result := attempted_outcome sound course answer
  simp only [s', planned]
  exact result

/-- The first request of a run finds nothing stored and is answered from the reply. -/
theorem plan_outcome_validated_card :
    let s := run {} [.wait 1.0] cardSession
    let s' := (plan {} cardService (.str "a card") none s).2
    (∀ plans, cardSession.store = some plans → plans.entries = []) ∧
      (plan {} cardService (.str "a card") none s).1 = .ok (.accepted cardPlan) ∧
      ((∃ p, Good (.accepted cardPlan) p ∧ (Recalled s s' p ∨ Built cardService s s' p)) ∨
        Refused cardService s s' (.accepted cardPlan)) :=
  ⟨cardSession_unfilled, cardService_answers,
    plan_outcome_validated cardSession_unfilled [.wait 1.0] cardService (.str "a card") none
      cardService_answers⟩

end ScreenPlan.Planner
