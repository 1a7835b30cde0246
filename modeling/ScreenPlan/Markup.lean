import ScreenPlan.Plan.Admission
import ScreenPlan.Plan.Written

/-!
# Markup

Renders an admitted plan as the source of a component module. Props come out in catalog order,
children in their own; the tags still to write are kept on a stack. A candidate that is not
admitted is answered by a fixed module whose header comment lists the errors.
-/

namespace ScreenPlan.Markup

def defaultImportPath : String := "@/components/lib"

def pad (level : Nat) : String := String.ofList (List.replicate (2 * level) ' ')

def setting (prop : String × Value) : Except Json.Obstacle String :=
  prop.2.compact.map fun text => prop.1 ++ "=\x7b" ++ text ++ "\x7d"

def settings : List (String × Value) → Except Json.Obstacle (List String)
  | [] => .ok []
  | p :: ps =>
    match setting p with
    | .error o => .error o
    | .ok a => (settings ps).map (a :: ·)

/-- What stands between the brackets of a node's opening tag. -/
def tag (n : Node) : Except Json.Obstacle String :=
  (settings (n.kind.spec.project n.props)).map fun as => String.intercalate " " (n.kind.name :: as)

inductive Job where
  | opening (node : Node) (level : Nat)
  | closing (kind : Kind) (level : Nat)

def Job.openings (level : Nat) (nodes : List Node) : List Job := nodes.map fun n => .opening n level

def closingLine (kind : Kind) (level : Nat) : String := pad level ++ "</" ++ kind.name ++ ">"

def openingLine (tag : String) (leaf : Bool) (level : Nat) : String :=
  pad level ++ "<" ++ tag ++ if leaf then " />" else ">"

def Job.weight : Job → Nat
  | .opening n _ => 2 * n.count
  | .closing _ _ => 1

def Job.weights : List Job → Nat
  | [] => 0
  | j :: rest => j.weight + weights rest

theorem weights_append (js rest : List Job) :
    Job.weights (js ++ rest) = Job.weights js + Job.weights rest := by
  induction js with
  | nil => simp [Job.weights]
  | cons j js ih =>
    rw [List.cons_append, Job.weights, ih, Job.weights]
    omega

theorem weights_openings (level : Nat) (nodes : List Node) :
    Job.weights (Job.openings level nodes) = 2 * Node.counts nodes := by
  induction nodes with
  | nil => rfl
  | cons n ns ih =>
    simp only [Job.openings, List.map_cons, Job.weights, Job.weight, Node.counts] at ih ⊢
    omega

/-- Works off a stack of jobs; a node's children and its closing tag come before what is left. -/
def lines : List Job → Except Json.Obstacle (List String)
  | [] => .ok []
  | .closing kind level :: rest => (lines rest).map (closingLine kind level :: ·)
  | .opening ⟨kind, props, children⟩ level :: rest =>
    match tag ⟨kind, props, children⟩ with
    | .error o => .error o
    | .ok t =>
      let line := openingLine t children.isEmpty level
      let inner := if children.isEmpty then [] else Job.openings (level + 1) children ++ [.closing kind level]
      (lines (inner ++ rest)).map (line :: ·)
termination_by stack => Job.weights stack
decreasing_by
  · simp only [Job.weights, Job.weight]
    omega
  · have := weights_openings (level + 1) children
    split <;> simp only [List.nil_append, weights_append, Job.weights, Job.weight, Node.count] <;> omega

/-- The components stand three levels deep in the module. -/
def body (components : List Node) : Except Json.Obstacle (List String) :=
  lines (Job.openings 3 components)

def kindNames : String := String.intercalate ", " (Kind.all.map Kind.name)

def moduleLines (importPath layout : String) (body : List String) : List String :=
  ["import React from 'react';",
    "import \x7b " ++ kindNames ++ " \x7d from '" ++ importPath ++ "';",
    "",
    "export default function GeneratedUI() \x7b",
    "  return (",
    "    <Layout type=\"" ++ layout ++ "\">"] ++
  body ++
  ["    </Layout>",
    "  );",
    "\x7d"]

def renderPlan (importPath : String) (p : Plan) : Except Json.Obstacle String :=
  (body p.components).map fun body =>
    String.intercalate "\n" (moduleLines importPath p.layout body)

/-- The module that stands in for a plan that is not admitted. -/
def standIn : String :=
  "export default function GeneratedUI() \x7b\n  return <div>Invalid UI plan.</div>;\n\x7d"

def diagnostic (errors : List String) : String :=
  "/* Invalid UI plan:\n" ++ String.intercalate "\n" errors ++ " */\n\n" ++ standIn

/-- Generated code, and whether it renders the candidate. -/
structure Generated where
  code : String
  rendered : Bool
  deriving DecidableEq, Repr

def Generated.outcome (g : Generated) : String := if g.rendered then "rendered" else "diagnostic"

/-- Whatever passes the audit can be read, so only violations lead to a stand-in. -/
def generate (importPath : String) (candidate : Value) : Except Json.Obstacle Generated :=
  match audit candidate, Plan.read candidate with
  | [], .ok p => (renderPlan importPath p).map fun code => ⟨code, true⟩
  | violations, _ => .ok ⟨diagnostic (errorTexts violations), false⟩

/-- A plan is audited once more, through its payload. -/
def generatePlan (importPath : String) (p : Plan) : Except Unwritable Generated :=
  match p.payload with
  | .error e => .error (.payload e)
  | .ok v => (generate importPath v).mapError .text

def logger : String := "uiplanner.agents.generator"

def invalidEvent (violations : List Violation) : Event :=
  ⟨logger, .warning, "generate_invalid_plan", [("errors", .int violations.length)]⟩

/-- What is reported on the way from a candidate to its code, whether or not there is any. -/
def events (candidate : Value) : List Event :=
  match audit candidate with
  | [] => [auditEvent []]
  | violations => [auditEvent violations, invalidEvent violations]

/-- Nothing is reported about a plan without a payload. -/
def planEvents (p : Plan) : List Event :=
  match p.payload with
  | .error _ => []
  | .ok v => events v

end ScreenPlan.Markup
