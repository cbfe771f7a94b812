import Argent.Base.Fallible

/-!
# Entry bodies

The authored control flow of an entry (`compiler/syntax/mod.rs`) and the analysis of its routes
(`compiler/syntax/body/routes.rs`).  Ordinary statements and expressions keep only their source site.

* `AuthoredEntryStatement`       blocks, branches and `become` statements;
* `analyzeAuthoredEntryRoutes`   the routes of every terminal path; every `become` is terminal.
-/

set_option linter.unusedSectionVars false

namespace Argent.Model

/-! ## statements -/

/-- an authored expression, by its source site -/
structure AuthoredExpr where
  site : Nat
deriving DecidableEq, Repr

/-- whether a constructed successor represents one actor or an actor array -/
inductive RouteArity where
  | one
  | many
deriving DecidableEq, Repr

/-- the bound actor of a constructed successor -/
inductive BoundRouteActor where
  /-- an actor of the app, or a variant named through its enum -/
  | fixed (id : String)
  | linked (app actor : String)
  /-- an indexed actor enum -/
  | selector (enumeration : String)
  /-- a local actor handle -/
  | local (name : String)
  | expression (source : AuthoredExpr)
deriving DecidableEq, Repr

inductive ResolvedSuccessor where
  | exactSelf
  | constructed (actor : BoundRouteActor) (arity : RouteArity) (state : AuthoredExpr)
deriving DecidableEq, Repr

/-- one route in a `become` statement -/
structure EntryRoute where
  id : Nat
  output : String
  successor : ResolvedSuccessor
deriving DecidableEq, Repr

inductive AuthoredEntryStatement where
  | block (statements : List AuthoredEntryStatement)
  | ifElse (condition : AuthoredExpr) (thenBranch : AuthoredEntryStatement)
    (elseBranch : Option AuthoredEntryStatement)
  | become (routes : List EntryRoute)
  /-- successors of an observed or spawned group -/
  | foreignBecome (group : String) (routes : List EntryRoute)
  | sil (site : Nat)
deriving Repr

/-! ## terminal routes -/

/-- what control flow through a statement does: whether it meets a `become`, whether every path ends
in one, and the routes of the paths that do -/
structure TerminalResult where
  containsBecome : Bool
  allPathsTerminal : Bool
  terminalRouteSets : List (List EntryRoute)
deriving DecidableEq, Repr

def TerminalResult.empty : TerminalResult := ⟨false, false, []⟩

def TerminalResult.terminal (routes : List EntryRoute) : TerminalResult := ⟨true, true, [routes]⟩

/-- what is known before a statement that does not end every path, and the statement -/
def TerminalResult.extend (result statement : TerminalResult) : TerminalResult where
  containsBecome := result.containsBecome || statement.containsBecome
  allPathsTerminal := statement.allPathsTerminal
  terminalRouteSets := result.terminalRouteSets ++ statement.terminalRouteSets

mutual

def terminalResult : AuthoredEntryStatement → Except String TerminalResult
  | .ifElse _ thenBranch elseBranch => do
    let thenResult ← terminalResult thenBranch
    let elseResult ← optionalResult elseBranch
    return {
      containsBecome := thenResult.containsBecome || elseResult.containsBecome
      allPathsTerminal := thenResult.allPathsTerminal && elseResult.allPathsTerminal
      terminalRouteSets := thenResult.terminalRouteSets ++ elseResult.terminalRouteSets }
  | .become routes => .ok (.terminal routes)
  | .block statements => analyzeAuthoredSequence .empty statements
  | .foreignBecome _ _ | .sil _ => .ok .empty

def optionalResult : Option AuthoredEntryStatement → Except String TerminalResult
  | none => .ok .empty
  | some statement => terminalResult statement

/-- the statements of a sequence after those that gave `result` -/
def analyzeAuthoredSequence (result : TerminalResult) :
    List AuthoredEntryStatement → Except String TerminalResult
  | [] => .ok result
  | statement :: statements => do
    let next ← terminalResult statement
    if next.allPathsTerminal then
      if statements.isEmpty then return result.extend next
      else .error "`become` must be terminal; move following code into an explicit `else` branch"
    else if next.containsBecome then
      .error "conditional `become` must be terminal on every branch; add an explicit `else` branch"
    else analyzeAuthoredSequence (result.extend next) statements

end

/-- the routes of an entry body, path by path -/
structure RouteAnalysis where
  routes : List EntryRoute
  terminalRouteSets : List (List EntryRoute)
deriving DecidableEq, Repr

def analyzeAuthoredEntryRoutes (statements : List AuthoredEntryStatement) :
    Except String RouteAnalysis := do
  let result ← analyzeAuthoredSequence .empty statements
  return { routes := result.terminalRouteSets.flatten, terminalRouteSets := result.terminalRouteSets }

end Argent.Model
