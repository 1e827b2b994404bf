import DesignTokens.Source.Format
import DesignTokens.Source.VariableExport
import DesignTokens.Theme.References
import DesignTokens.Theme.Codec
import DesignTokens.Theme.Tree
import DesignTokens.Number.Layout
import DesignTokens.Registry.Basic
import DesignTokens.Value.Basic
import DesignTokens.Value.Shadow
import DesignTokens.Problem
import DesignTokens.Value.Dimension
import DesignTokens.Value.Timing
import DesignTokens.Color.Formats
import DesignTokens.Wire.Reader
import DesignTokens.Wire.Writer
import DesignTokens.Wire.Display
import DesignTokens.Wire.Equal
import DesignTokens.Number.Literal
import DesignTokens.Text.Casing
import DesignTokens.Text.Printable
import DesignTokens.Text.Word
import DesignTokens.Text.Split
import DesignTokens.Lint.Message
import DesignTokens.Lint.Naming
import DesignTokens.Lint.Pattern
import DesignTokens.Lint.Validity
import DesignTokens.Lint.Rule
import DesignTokens.Lint.Rules.Modes
import DesignTokens.Lint.Rules.Relations
import DesignTokens.Lint.Rules.Structure
import DesignTokens.Lint.Rules.Values
import DesignTokens.Lint.Standard
import DesignTokens.Lint.Linter
import DesignTokens.Lint.ConfigFile
import DesignTokens.Console
import DesignTokens.Log.Record
import DesignTokens.Log.Setup
import DesignTokens.CommandLine.Grammar
import DesignTokens.CommandLine.Command
import DesignTokens.Lint.Summary
import DesignTokens.Source.File
import DesignTokens.CommandLine.Run
import DesignTokens.CommandLine.Wanted
import DesignTokens.Main
import DesignTokens.Proofs.Theme.ReferenceCycles
import DesignTokens.Proofs.Theme.NormalForm
import DesignTokens.Proofs.Theme.Paths
import DesignTokens.Proofs.Color.Reading
import DesignTokens.Proofs.Registry.Detection
import DesignTokens.Proofs.Source.CompactExport
import DesignTokens.Proofs.Source.Stylesheet
import DesignTokens.Proofs.Source.Stylesheet.Composition
import DesignTokens.Proofs.Source.Stylesheet.Schemes
import DesignTokens.Proofs.Lint.Messages
import DesignTokens.Proofs.Lint.Resolution
import DesignTokens.Proofs.Source.Validation
import DesignTokens.Proofs.Theme.BrokenReferences
import DesignTokens.Proofs.Theme.DefaultModes
import DesignTokens.Proofs.Registry.Shapes
import DesignTokens.Proofs.Theme.Building
import DesignTokens.Proofs.Lint.Shapes
import DesignTokens.Proofs.Source.CompactExport.Contents
import DesignTokens.Proofs.Source.Stylesheet.Contents
import DesignTokens.Proofs.Source.Shapes
import DesignTokens.Proofs.Source.VariableExport.Cycles
import DesignTokens.Proofs.Source.Documents
import DesignTokens.Proofs.Source.Stylesheet.Documents
import DesignTokens.Proofs.Source.CompactExport.Documents
import DesignTokens.Proofs.Graph.Sweep
import DesignTokens.Proofs.Graph.ReportedOnce
import DesignTokens.Proofs.Registry.NativeDetection
import DesignTokens.Proofs.Theme.Merging
import DesignTokens.Proofs.Theme.RequestedMode
import DesignTokens.Proofs.Source.VariableExport
import DesignTokens.Proofs.Source.Stylesheet.Printing
import DesignTokens.Proofs.Source.Stylesheet.Nesting
import DesignTokens.Proofs.Source.Stylesheet.ReferenceTypes
import DesignTokens.Proofs.Source.CompactExport.Scalars
import DesignTokens.Proofs.Lint.NamingConventions
import DesignTokens.Proofs.Lint.ModeGaps
import DesignTokens.Proofs.Lint.IgnoredCollections
import DesignTokens.Proofs.Lint.Duplicates
import DesignTokens.Proofs.Registry.Fallbacks
import DesignTokens.Proofs.Value.Effects
import DesignTokens.Proofs.Value.Vocabularies
import DesignTokens.Proofs.Registry.ScalarTexts
import DesignTokens.Proofs.Value.Animations
import DesignTokens.Proofs.CommandLine.ThemeFiles
import DesignTokens.Proofs.Value.Gradients
import DesignTokens.Proofs.Color.Hue
import DesignTokens.Proofs.Lint.FontWeights
import DesignTokens.Proofs.Source.CompactExport.Segments
import DesignTokens.Proofs.Source.VariableExport.ModeEntries
import DesignTokens.Proofs.Registry.Priorities
import DesignTokens.Proofs.Source.Stylesheet.Places
import DesignTokens.Proofs.Source.CompactExport.Splitting
