import DaxPlan.Layout.Engine

/-!
# Layout controller

A controller owns a plan together with its engine, and applies what a user does to it, one action at a time.
-/

namespace DaxPlan.Layout

/-- What a user does to a plan. -/
inductive Action where
  | toggleCollapse (id : NodeId)
  | expandAll
  | collapseAll
  | expandPathTo (id : NodeId)
  deriving DecidableEq, Repr

/-- A plan and the engine that lays it out. -/
structure Controller (α : Type) where
  plan : Plan α
  engine : Engine α

namespace Controller

variable {α : Type} [Quantity α]

/-- A controller from what an engine gives back, with the answer to the action. -/
def ofRun {β : Type} (run : Engine α × Plan α × β) : Controller α × β := (⟨run.2.1, run.1⟩, run.2.2)

/-- Takes over a plan and makes its first layout. -/
def new (plan : Plan α) (config : LayoutConfig α) : Controller α × Diff α :=
  ofRun ((Engine.new config).initialLayout plan)

/-- Applies an action, and answers with the changes. An action on a node that is not there is refused. -/
def apply (c : Controller α) : Action → Controller α × Except (Error α) (Diff α)
  | .toggleCollapse id => ofRun (c.engine.toggleCollapse c.plan id)
  | .expandAll => (ofRun (c.engine.expandAll c.plan)).map id .ok
  | .collapseAll => (ofRun (c.engine.collapseAll c.plan)).map id .ok
  | .expandPathTo id => ofRun (c.engine.expandPathTo c.plan id)

/-- Puts another plan in the place of the old one. Every visible node of the new plan enters and every one of the old exits. -/
def replacePlan (c : Controller α) (plan : Plan α) : Controller α × Diff α :=
  let (next, diff) := new plan c.engine.config
  (next, { diff with exited := c.engine.visible })

end Controller

end DaxPlan.Layout
