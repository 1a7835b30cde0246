import ScreenPlan.Telemetry.Log

/-!
# Scopes

What is bound while scopes are open: the fields of the inner ones go over those of the outer ones. A scope that is left
has saved the outer value of each of its fields, so that it takes nothing away and leaves nothing behind, however
many scopes have been using the same keys. Tables are compared by what is found under their keys.
-/

namespace ScreenPlan

namespace Table
variable {α : Type} {t u : Table α} {entries : List (String × α)} {key : String}

theorem get?_append (t u : Table α) (key : String) : get? (t ++ u) key = (t.get? key).or (u.get? key) := by
  induction t with
  | nil => rfl
  | cons e t ih =>
    rw [List.cons_append, get?_cons, get?_cons, ih]
    split <;> rfl

/-- Of entries with the same name the last one counts. -/
theorem get?_putAll (t : Table α) (entries : List (String × α)) (key : String) :
    (t.putAll entries).get? key = (get? entries.reverse key).or (t.get? key) := by
  induction entries generalizing t with
  | nil => rfl
  | cons e entries ih =>
    rw [List.reverse_cons, get?_append, Option.or_assoc, putAll, List.foldl_cons]
    refine (ih (t.put e.1 e.2)).trans ?_
    rw [get?_put, get?_cons]
    split <;> rfl

theorem get?_putAll_of_not_mem (fresh : key ∉ names entries) : (t.putAll entries).get? key = t.get? key := by
  rw [get?_putAll]
  cases found : get? entries.reverse key with
  | none => rfl
  | some v => exact absurd (List.mem_map_of_mem (List.mem_reverse.mp (mem_of_get? found))) fresh

end Table

namespace Log
variable {start l l' l'' : Log} {active : List (Table Value)} {context outer fields : Table Value} {key : String}

/-! ### One scope -/

def shadowed (fields outer : Table Value) : Scope := fields.map fun f => (f.1, outer.get? f.1)

theorem get?_restore (context : Table Value) (key : String) (value : Option Value) (other : String) :
    (restore context (key, value)).get? other = if key = other then value else context.get? other := by
  cases value with
  | none => exact Table.get?_erase context key other
  | some v => exact Table.get?_put context key other v

/-- A table that differs from the outer one under the names of fields alone is set back to it. -/
theorem get?_restored (elsewhere : key ∉ fields.names → context.get? key = outer.get? key) :
    ((shadowed fields outer).foldl restore context).get? key = outer.get? key := by
  induction fields generalizing context with
  | nil => exact elsewhere List.not_mem_nil
  | cons f fields ih =>
    apply ih
    intro fresh
    -- Where a name comes twice, both saved values are the outer one.
    rw [get?_restore]
    by_cases same : f.1 = key
    · rw [if_pos same, same]
    · rw [if_neg same]
      exact elsewhere fun among => (List.mem_cons.mp among).elim (same ·.symm) fresh

/-- A single field leaves the table as it was, with its keys in the same order. -/
theorem restore_put (context : Table Value) (key : String) (v : Value) :
    restore (context.put key v) (key, context.get? key) = context := by
  induction context with
  | nil => simp [Table.put, restore, Table.erase]
  | cons e context ih =>
    obtain ⟨k, w⟩ := e
    rw [Table.get?_cons, Table.put]
    by_cases same : k = key
    · rw [if_pos same, if_pos same, restore, Table.put, if_pos same]
    · rw [if_neg same, if_neg same]
      cases found : Table.get? context key with
      | none =>
        rw [found, restore, Table.erase] at ih
        rw [restore, Table.erase, List.filter_cons, if_pos (decide_eq_true same), ih]
      | some u =>
        rw [found, restore] at ih
        rw [restore, Table.put, if_neg same, ih]

/-! ### Reports -/

/-- Nothing has changed but the records. -/
def Reported (l l' : Log) : Prop := ∃ records, l' = { l with records := records }

theorem Reported.refl (l : Log) : Reported l l := ⟨l.records, rfl⟩

theorem Reported.trans (first : Reported l l') (second : Reported l' l'') : Reported l l'' := by
  obtain ⟨_, rfl⟩ := first
  obtain ⟨records, rfl⟩ := second
  exact ⟨records, rfl⟩

theorem reported_report (l : Log) (e : Event) : Reported l (l.report e) := by
  unfold report
  split
  · exact ⟨_, rfl⟩
  · exact .refl l

theorem reported_reportAll (l : Log) (events : List Event) : Reported l (l.reportAll events) := by
  induction events generalizing l with
  | nil => exact .refl l
  | cons e events ih => exact (reported_report l e).trans (ih _)

/-- A scope with one field around anything that reports is itself a mere report. -/
theorem Reported.exit {v : Value} (inside : Reported (l.enter [(key, v)]) l') : Reported l l'.exit := by
  obtain ⟨records, rfl⟩ := inside
  exact ⟨records, congrArg (fun context => { l with context := context, records := records }) (restore_put ..)⟩

/-! ### Open scopes -/

/-- What is bound while scopes are open, the innermost one first. -/
def bound (start : Table Value) : List (Table Value) → Table Value
  | [] => start
  | fields :: outer => (bound start outer).putAll fields

/-- The innermost scope that has a key decides what it is bound to. -/
theorem get?_bound (start : Table Value) (active : List (Table Value)) (key : String) :
    (bound start active).get? key =
      (active.findSome? fun fields => Table.get? fields.reverse key).or (start.get? key) := by
  induction active with
  | nil => rfl
  | cons fields active ih =>
    rw [bound, Table.get?_putAll, ih, List.findSome?_cons]
    split <;> next found => rw [found]; rfl

def saved (start : Table Value) : List (Table Value) → List Scope
  | [] => []
  | fields :: outer => shadowed fields (bound start outer) :: saved start outer

/-- The context is what the open scopes make of the one at the start, and each of them has saved what it needs to be
left. -/
structure Follows (start l : Log) (active : List (Table Value)) : Prop where
  context : ∀ key, l.context.get? key = (bound start.context active).get? key
  scopes : l.scopes = saved start.context active ++ start.scopes

theorem follows_start (start : Log) : Follows start start [] := ⟨fun _ => rfl, rfl⟩

theorem Follows.reported (follows : Follows start l active) (reported : Reported l l') : Follows start l' active := by
  obtain ⟨records, rfl⟩ := reported
  exact ⟨follows.context, follows.scopes⟩

theorem Follows.enter (follows : Follows start l active) (fields : Table Value) :
    Follows start (l.enter fields) (fields :: active) where
  context key := by
    show (l.context.putAll fields).get? key = _
    rw [bound, Table.get?_putAll, Table.get?_putAll, follows.context]
  scopes := by
    have outer : shadowed fields l.context = shadowed fields (bound start.context active) :=
      List.map_congr_left fun f _ => by rw [follows.context]
    show shadowed fields l.context :: l.scopes = _
    rw [outer, follows.scopes]
    rfl

theorem Follows.exit (follows : Follows start l (fields :: active)) : Follows start l.exit active := by
  obtain ⟨inner, scopes⟩ := follows
  rw [saved, List.cons_append] at scopes
  unfold Log.exit
  rw [scopes]
  refine ⟨fun key => get?_restored fun fresh => ?_, rfl⟩
  rw [inner, bound, Table.get?_putAll_of_not_mem fresh]

end Log
end ScreenPlan
