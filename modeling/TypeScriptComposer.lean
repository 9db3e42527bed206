import TypeScriptComposer.Declaration.Interface
import TypeScriptComposer.Page
import TypeScriptComposer.Proofs.Constraint.Meaning
import TypeScriptComposer.Proofs.Declaration.Layout
import TypeScriptComposer.Proofs.Declaration.Modifiers
import TypeScriptComposer.Proofs.ImportBlock.Loading
import TypeScriptComposer.Proofs.ImportBlock.OwnModule
import TypeScriptComposer.Proofs.ImportBlock.ReadBack
import TypeScriptComposer.Proofs.Layout.LineByLine
import TypeScriptComposer.Proofs.Render.Agreement
import TypeScriptComposer.Proofs.Render.Halting
import TypeScriptComposer.Proofs.Render.Hygiene
import TypeScriptComposer.Proofs.Render.Levels
import TypeScriptComposer.Proofs.Render.Order
import TypeScriptComposer.Proofs.Render.PlainText
import TypeScriptComposer.Proofs.Render.Silent
import TypeScriptComposer.Proofs.Render.Types
import TypeScriptComposer.Proofs.Session.Failures
import TypeScriptComposer.Proofs.Session.Runs
import TypeScriptComposer.Proofs.SourceFile.Members
import TypeScriptComposer.Proofs.Survey.Cycles
import TypeScriptComposer.Proofs.Symbol.Grammar
import TypeScriptComposer.Proofs.Tracker.Search
import TypeScriptComposer.Proofs.Tracker.Stability
import TypeScriptComposer.Proofs.TypeExpr.Specs
import TypeScriptComposer.Proofs.TypeExpr.Structure
import TypeScriptComposer.Session
import TypeScriptComposer.Settings.Read
import TypeScriptComposer.SourceFile
import TypeScriptComposer.Template.Literal
