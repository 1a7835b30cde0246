import ScreenPlan.Proofs.Json.Decoded
import ScreenPlan.Proofs.Plan.Gate
import ScreenPlan.Proofs.Planner.History

/-!
# Where plans come from

A plan that a planner hands out was stored before or is built from a reply. What holds of all plans that are built from
replies therefore stays true of the stored ones, however a run goes, and replies are JSON texts: their plans hold what
such a text can say.
-/

namespace ScreenPlan

theorem Reply.said_read {raw v : Value} (found : (Reply.read raw).result = .ok v) : v.Throughout Json.Said := by
  unfold Reply.read at found
  split at found
  · split at found
    · cases found
    · unfold Reply.readTrimmed at found
      split at found
      · next decoded =>
        obtain rfl := Except.ok.inj found
        exact Json.said_decode decoded
      · split at found
        · cases found
        · split at found
          · next decoded =>
            obtain rfl := Except.ok.inj found
            exact Json.said_decode decoded
          · cases found
  · cases found

namespace Planner

variable {settings : Settings} {service : Service} {request : Value} {previous : Option Plan} {s s' : Session}
  {p : Plan} {outcome : Outcome} {move : Move} {P : Plan → Prop}

theorem said_of_built (built : Built service s s' p) : p.data.Throughout Json.Said := by
  obtain ⟨candidate, ⟨prompt, reply, -, -, read⟩, form⟩ := built
  rw [form]
  exact Form.throughout_plan ⟨.null, nofun⟩ (Reply.said_read read)

/-! ### One call -/

theorem attempted_source {ending : Ending} (course : Attempted settings service request previous s ending s')
    (answer : ending.answer = .ok outcome) (made : outcome.plan = some p) :
    Recalled s s' p ∨ Built service s s' p := by
  cases course with
  | found _ stored _ hit =>
    obtain rfl := Except.ok.inj answer
    obtain rfl := Option.some.inj made
    obtain ⟨e, member, same⟩ := Lru.mem_entries_of_get hit
    exact .inl ⟨rfl, _, stored, e, member, same⟩
  | missed _ _ _ _ consulted | storeless _ _ consulted =>
    rcases consulted_outcome consulted answer with ⟨q, ⟨made', -, -⟩, built⟩ | ⟨none, -, -⟩
    · obtain rfl := Option.some.inj (made.symm.trans made')
      exact .inr built
    · cases made.symm.trans none
  | _ => cases answer

theorem plan_source (answered : plan settings service request previous s = (.ok outcome, s'))
    (made : outcome.plan = some p) : Recalled s s' p ∨ Built service s s' p := by
  obtain ⟨ending, t, course, planned⟩ := plan_course settings service request previous s
  obtain ⟨answer, rfl⟩ := Prod.mk.inj (planned.symm.trans answered)
  have source := attempted_source course answer made
  exact source

/-- Every stored plan has the property. -/
def Stores (P : Plan → Prop) (store : Option PlanStore) : Prop :=
  ∀ plans, store = some plans → ∀ e ∈ plans.entries, P e.value

theorem stores_unfilled {store : Option PlanStore} (unfilled : ∀ plans, store = some plans → plans.entries = []) :
    Stores P store := by
  intro plans stored
  rw [unfilled plans stored]
  exact List.forall_mem_nil _

/-- The property belongs to every plan that is built from a reply. -/
def Built.Gives (P : Plan → Prop) : Prop := ∀ service s s' p, Built service s s' p → P p

theorem plan_holds (gives : Built.Gives P) (held : Stores P s.store)
    (answered : plan settings service request previous s = (.ok outcome, s')) (made : outcome.plan = some p) : P p := by
  rcases plan_source answered made with ⟨-, plans, stored, e, member, rfl⟩ | built
  · exact held plans stored e member
  · exact gives _ _ _ _ built

/-! ### Runs -/

theorem planned?_holds {c : Planned} (gives : Built.Gives P) (held : Stores P s.store)
    (planned : move.planned? settings s = some c) : P c.plan := by
  have called {service : Service} {request : Value} {previous : Option Plan}
      (planned : planned? settings service request previous s = some c) : P c.plan := by
    unfold planned? at planned
    split at planned
    · next answered =>
      obtain rfl := Option.some.inj planned
      exact plan_holds gives held answered rfl
    · cases planned
  cases move with
  | plan | render => exact called planned
  | explain | wait => cases planned

theorem after_stores_holds (gives : Built.Gives P) (held : Stores P s.store) (move : Move) :
    Stores P (move.after settings s).store := by
  refine after_stores move (fun plans plans' stored turn held => ?_) held
  generalize planned : move.planned? settings s = c? at turn
  intro e member
  cases turn with
  | idle => exact held e member
  | missed | recalled => exact held e (Lru.mem_entries_get member)
  | stored =>
    rcases Lru.mem_entries_set member with old | new
    · exact held e (Lru.mem_entries_get old)
    · rw [new]
      exact planned?_holds gives ‹_› planned

theorem run_stores_holds (gives : Built.Gives P) (held : Stores P s.store) (moves : List Move) :
    Stores P (run settings moves s).store := by
  apply run_invariant (P := fun s => Stores P s.store) _ held moves
  intro s move held
  exact after_stores_holds gives held move

end Planner
end ScreenPlan
