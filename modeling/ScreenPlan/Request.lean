import ScreenPlan.Plan.Written
import ScreenPlan.Schema.Issue
import ScreenPlan.Text.Blank
import ScreenPlan.Text.Phrase
import ScreenPlan.Text.Size

/-!
# Requests

A request is trimmed, must not be empty or too long and must not contain a phrase that tries to
steer the completion service. A plan to be changed is searched for the same phrases.
-/

namespace ScreenPlan.Request

/-- Phrases that no request may contain, in any case. -/
def signals : List String :=
  ["ignore previous", "disregard previous", "system prompt", "developer message", "override",
    "jailbreak", "act as", "bypass"]

def isInjection (text : String) : Bool :=
  let lowered := (Text.lower text).toList
  signals.any fun s => Text.occursIn s.toList lowered

/-- The limit that a message exceeds. -/
def exceeded? (limit : Option Limit) (message : String) : Option Limit :=
  limit.filter fun l => l.exceededBy message.length

/-- The trimmed message, at most `limit` characters long. -/
def readMessage (limit : Option Limit) (v : Value) : Checked String :=
  match v with
  | .str raw =>
    if raw.isEmpty then Checked.refuse .emptyText
    else
      let message := Text.trim raw
      if message.isEmpty then Checked.refuse (.refused "Message cannot be empty")
      else
        match exceeded? limit message with
        | some l => Checked.refuse (.refused ("Message exceeds " ++ l.text ++ " characters"))
        | none =>
          if isInjection message then Checked.refuse (.refused "Unsafe prompt detected")
          else .ok message
  | _ => Checked.refuse .notText

/-- Issues for the fields that a request does not have. -/
def unexpected (fields : Table Value) : List Issue :=
  fields.filterMap fun (key, _) =>
    if key = "message" then none else some ⟨[.field key], .unexpected⟩

/-- Reads a request object, which holds a message and nothing else. -/
def read (limit : Option Limit) (v : Value) : Checked String :=
  match v with
  | .object fields =>
    match Checked.required fields "message" (readMessage limit), unexpected fields with
    | .ok message, [] => .ok message
    | message, extra => .error (Checked.issues message ++ extra)
  | _ => Checked.refuse (.notModel "PlanRequest")

end ScreenPlan.Request
