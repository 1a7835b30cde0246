import ScreenPlan.Markup

/-!
# The renderer as a recursion

`nodeLines` writes the lines of a node around those of its children. `lines_openings` shows that the
renderer, which works off a stack, writes the same lines.
-/

namespace ScreenPlan.Markup

mutual
/-- The lines of a node and of the nodes below it. -/
def nodeLines (level : Nat) : Node → Except Json.Obstacle (List String)
  | ⟨kind, props, children⟩ =>
    (tag ⟨kind, props, children⟩).bind fun t =>
      if children.isEmpty then .ok [openingLine t true level]
      else (forestLines (level + 1) children).map fun inner =>
        openingLine t false level :: (inner ++ [closingLine kind level])

def forestLines (level : Nat) : List Node → Except Json.Obstacle (List String)
  | [] => .ok []
  | n :: ns => (nodeLines level n).bind fun ls => (forestLines level ns).map (ls ++ ·)
end

mutual
theorem lines_opening (level : Nat) (rest : List Job) : ∀ n : Node,
    lines (.opening n level :: rest) = (nodeLines level n).bind fun ls => (lines rest).map (ls ++ ·)
  | ⟨kind, props, children⟩ => by
    rw [lines, nodeLines]
    cases tag ⟨kind, props, children⟩ with
    | error o => rfl
    | ok t =>
      cases children with
      | nil => rfl
      | cons n ns =>
        have inner := lines_openings (level + 1) (.closing kind level :: rest) (n :: ns)
        rw [lines] at inner
        simp only [List.isEmpty_cons, Bool.false_eq_true, if_false, List.append_assoc, List.singleton_append,
          inner, Except.bind]
        cases forestLines (level + 1) (n :: ns) with
        | error o => rfl
        | ok ls => cases lines rest <;> simp [Except.map]

/-- The nodes on top of the stack come first, and what is below them does not matter to them. -/
theorem lines_openings (level : Nat) (rest : List Job) : ∀ ns : List Node,
    lines (Job.openings level ns ++ rest) = (forestLines level ns).bind fun ls => (lines rest).map (ls ++ ·)
  | [] => by
    rw [forestLines]
    show lines rest = (lines rest).map ([] ++ ·)
    cases lines rest <;> rfl
  | n :: ns => by
    have first := lines_opening level (Job.openings level ns ++ rest) n
    rw [lines_openings level rest ns] at first
    rw [forestLines]
    show lines (.opening n level :: (Job.openings level ns ++ rest)) = _
    rw [first]
    cases nodeLines level n with
    | error o => rfl
    | ok ls =>
      cases forestLines level ns with
      | error o => rfl
      | ok ms => cases lines rest <;> simp [Except.map, Except.bind]
end

theorem body_eq (components : List Node) : body components = forestLines 3 components := by
  have := lines_openings 3 [] components
  rw [List.append_nil, lines] at this
  rw [body, this]
  cases forestLines 3 components <;> simp [Except.map, Except.bind]

end ScreenPlan.Markup
