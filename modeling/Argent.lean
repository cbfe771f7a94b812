import Argent.Base.BTree
import Argent.Base.Cuts
import Argent.Base.Fallible
import Argent.Routing.Transition
import Argent.Routing.GraphSound
import Argent.Routing.CutNodes
import Argent.Routing.ComponentsOrder
import Argent.Routing.RoutePlanSound
import Argent.Model.BodySound
import Argent.Model.LayoutSound
import Argent.Model.Witnesses
import Argent.Codegen.GroupClosed
import Argent.Codegen.TemplateSources
import Argent.Codegen.SuccessorSound
import Argent.Routing.RouteTables
import Argent.Artifacts.Handles
import Argent.Artifacts.SpawnSources
import Argent.Runtime.FamilyTables
import Argent.Runtime.HiddenTemplates
import Argent.Runtime.SpawnsSound
import Argent.Codegen.RecipesSound
import Argent.Genesis.Binding
import Argent.Genesis.Export
import Argent.Resolve.Ranges
import Argent.Resolve.ConstsLeftmost
import Argent.Resolve.Loading
import Argent.Artifacts.PanicFree
import Argent.Codegen.InputCounts
import Argent.Runtime.StatesSound
import Argent.Runtime.BuildPanics
import Argent.Codegen.IndexesSound
import Argent.Syntax.LexerSound
import Argent.Model.ForeignRoutesSound
import Argent.Codegen.RangeAccessRuns
import Argent.Syntax.NumbersSound
import Argent.Codegen.StateBoundary
import Argent.Model.PackedWidthSound
import Argent.Codegen.SilNamesSound
import Argent.Codegen.AbiMergeSound
import Argent.Model.ActorValuesSound
import Argent.Codegen.StateBoundarySound
import Argent.Codegen.StateExpansionSound
import Argent.Syntax.ExpressionComplete
import Argent.Codegen.SpawnPreludeRuns
