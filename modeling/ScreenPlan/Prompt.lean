import ScreenPlan.Plan.Written

/-!
# Prompts

The texts handed to the completion service. Sections follow each other under heading lines; the
request comes last when a plan is asked for and before the plan when one is to be explained.
-/

namespace ScreenPlan.Prompt

def plannerRole : String :=
  String.intercalate "\n"
    ["You plan user interfaces for a deterministic UI generator.",
      "Use ONLY the components and props listed below. Do not invent components,",
      "props, CSS classes or inline styles. Return a single JSON object and nothing",
      "else: no markdown, no code fences, no explanations."]

def explainerRole : String :=
  String.intercalate "\n"
    ["Review the UI plan against the user's request.",
      "In two or three sentences, explain why these components and this layout",
      "were chosen, naming the components explicitly."]

def inQuotes (s : String) : String := "\"" ++ s ++ "\""

/-- Shapes of props that are neither text nor a choice. -/
def shapeOf (prop : String) : String :=
  if prop = "headers" then "array of strings"
  else if prop = "rows" then "array of arrays of strings"
  else "JSON value"

def propLine (spec : Spec) (prop : String) : String :=
  "- " ++ prop ++ ": " ++
    match spec.choices.get? prop with
    | some (c :: cs) => "one of " ++ String.intercalate ", " ((c :: cs).map inQuotes)
    | _ => if prop ∈ textProps then "string" else shapeOf prop

def kindBlock (kind : Kind) : String :=
  String.intercalate "\n"
    ((kind.name ++ ":") :: kind.spec.allowed.map (propLine kind.spec) ++
      if kind = .table then ["- headers and rows are required"] else [])

/-- One block for each kind of component. -/
def catalog : String := String.intercalate "\n\n" (Kind.all.map kindBlock)

def outputFormat : String :=
  "\x7b\n  \"layout\": " ++ String.intercalate " | " (layoutVariants.map inQuotes) ++
    ",\n  \"components\": [\x7b\"type\": \"<Component>\", \"props\": \x7b...\x7d, \"children\": [...]\x7d]\n\x7d"

def part (title content : String) : String := "\n=== " ++ title ++ " ===\n" ++ content

def requestSection (request : String) : String := part "REQUEST" request

def currentSection (current : Option String) : String :=
  match current with
  | some text => part "CURRENT UI PLAN (modify instead of rewrite)" text
  | none => part "CURRENT UI PLAN" "None. Create a new plan."

/-- Asks for a plan, or for a change of the one whose text is given. -/
def plannerText (request : String) (current : Option String) : String :=
  String.intercalate "\n" [plannerRole, part "COMPONENTS" catalog,
    part "OUTPUT FORMAT" outputFormat, currentSection current, requestSection request]

def explainerText (request plan : String) : String :=
  String.intercalate "\n" [explainerRole, requestSection request, part "UI PLAN" plan]

def planner (request : String) (current : Option Plan) : Except Unwritable String :=
  match current with
  | none => .ok (plannerText request none)
  | some p => p.indented.map fun text => plannerText request (some text)

def explainer (request : String) (plan : Plan) : Except Unwritable String :=
  plan.indented.map (explainerText request)

end ScreenPlan.Prompt
