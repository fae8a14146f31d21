import ScriptBridge.Config.Load
import ScriptBridge.Dispatch
import ScriptBridge.Engine.Embedded
import ScriptBridge.Engine.Scripted
import ScriptBridge.Probe
import ScriptBridge.Wire.Json
import ScriptBridge.World
import ScriptBridge.Proofs.Outcome
import ScriptBridge.Proofs.Gating
import ScriptBridge.Proofs.RenderedCalls
import ScriptBridge.Proofs.Capturing
import ScriptBridge.Proofs.Registration
import ScriptBridge.Proofs.TokenPolicies
import ScriptBridge.Proofs.RoundTrip
import ScriptBridge.Proofs.Templates
import ScriptBridge.Proofs.RootPaths
import ScriptBridge.Proofs.InstallScripts
import ScriptBridge.Proofs.Installing
import ScriptBridge.Proofs.OrderlyTables
import ScriptBridge.Proofs.NestedValues
import ScriptBridge.Proofs.Enlisting
import ScriptBridge.Proofs.Contexts
import ScriptBridge.Proofs.Ensuring
import ScriptBridge.Proofs.Courses
import ScriptBridge.Proofs.Histories
import ScriptBridge.Proofs.TypedResults
import ScriptBridge.Proofs.TypedRoundTrips
import ScriptBridge.Proofs.Substitutions
import ScriptBridge.Proofs.ReachableTables
import ScriptBridge.Proofs.FaithfulConversion
import ScriptBridge.Proofs.GuardedConversion
import ScriptBridge.Proofs.RepeatedConversions
import ScriptBridge.Proofs.NeighbouringTables
import ScriptBridge.Proofs.Reinstalling
import ScriptBridge.Proofs.EscapedTexts
import ScriptBridge.Proofs.JsonTexts
import ScriptBridge.Proofs.ConfigFiles
import ScriptBridge.Proofs.ValidScripts
import ScriptBridge.Proofs.WireTexts
import ScriptBridge.Proofs.NormalForms
import ScriptBridge.Proofs.Erasure
import ScriptBridge.Proofs.CapturedExpressions
import ScriptBridge.Proofs.RegisteredValues
import ScriptBridge.Proofs.ReturnedValues
import ScriptBridge.Proofs.Probing
import ScriptBridge.Proofs.ExpressionPaths
import ScriptBridge.Proofs.Identities
import ScriptBridge.Proofs.NullCharacters
import ScriptBridge.Proofs.Scopes
import ScriptBridge.Proofs.CallStatements
import ScriptBridge.Proofs.StandingTables
import ScriptBridge.Proofs.Routing
import ScriptBridge.Proofs.VoidModes
import ScriptBridge.Proofs.HandleTokens
import ScriptBridge.Proofs.NarrowedNumbers
