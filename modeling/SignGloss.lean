import SignGloss.Text.CharClass
import SignGloss.Text.Blank
import SignGloss.Text.Casing
import SignGloss.Text.Distance
import SignGloss.Text.Pieces
import SignGloss.Text.Place
import SignGloss.Text.Quoted
import SignGloss.Number.Power
import SignGloss.Number.Binary
import SignGloss.Number.Decimal
import SignGloss.Number.Layout
import SignGloss.Distinct
import SignGloss.Table
import SignGloss.Tag
import SignGloss.Priority
import SignGloss.Rule
import SignGloss.Lexicon
import SignGloss.Gloss
import SignGloss.Pattern
import SignGloss.Template
import SignGloss.Template.Scan
import SignGloss.Locale.Subtag
import SignGloss.Locale
import SignGloss.Choice
import SignGloss.Request
import SignGloss.Conjugation
import SignGloss.Consultation
import SignGloss.Render
import SignGloss.Interpretation
import SignGloss.Catalog
import SignGloss.Lint.Suggestion
import SignGloss.Lint
import SignGloss.Json.Fault
import SignGloss.Json.Lexical
import SignGloss.Json.Number
import SignGloss.Json.Skip
import SignGloss.Json.Reader
import SignGloss.Json.Value
import SignGloss.Json.Codec
import SignGloss.Json.Record
import SignGloss.Exchange
import SignGloss.Folder
import SignGloss.Loading
import SignGloss.Command.Arguments
import SignGloss.Command.Invocation
import SignGloss.Command.RuledTable
import SignGloss.Command.Paint
import SignGloss.Command.Diagnostic
import SignGloss.Command.Run
import SignGloss.Main
import SignGloss.Proofs.Runs
import SignGloss.Proofs.PriorityOrder
import SignGloss.Proofs.Selection
import SignGloss.Proofs.VerbatimLocale
import SignGloss.Proofs.Shadowing
import SignGloss.Proofs.Redundancy
import SignGloss.Proofs.FirstWords
import SignGloss.Proofs.RawText
import SignGloss.Proofs.Plan
import SignGloss.Proofs.Protocol
import SignGloss.Proofs.CatalogAnswer
import SignGloss.Proofs.OrderIndependence
import SignGloss.Proofs.CatalogIntegrity
import SignGloss.Proofs.PatternGrammar
import SignGloss.Proofs.PlaceholderGrammar
import SignGloss.Proofs.TemplateGrammar
import SignGloss.Proofs.TemplateText
import SignGloss.Proofs.Seams
import SignGloss.Proofs.RuleFindings
import SignGloss.Proofs.MissingWords
import SignGloss.Proofs.Places
import SignGloss.Proofs.PatternErrors
import SignGloss.Proofs.UnitInterval
import SignGloss.Proofs.Outcomes
import SignGloss.Proofs.NeutralRules
import SignGloss.Proofs.Refusals
import SignGloss.Proofs.CommandStages
import SignGloss.Proofs.CommandLine
import SignGloss.Proofs.ExitStatus
import SignGloss.Proofs.CatalogAvailability
import SignGloss.Proofs.Words
import SignGloss.Proofs.Spacing
import SignGloss.Proofs.VisibleText
import SignGloss.Proofs.BlankAnswers
import SignGloss.Proofs.WrittenIntegers
import SignGloss.Proofs.WrittenValues
import SignGloss.Proofs.WrittenRecords
import SignGloss.Proofs.DocumentExchange
import SignGloss.Proofs.RequestExchange
import SignGloss.Proofs.RequestOrigins
import SignGloss.Proofs.ValuelessParameters
import SignGloss.Proofs.EditDistance
import SignGloss.Proofs.BestSuggestions
import SignGloss.Proofs.CanonicalLocale
import SignGloss.Proofs.CanonicalTag
import SignGloss.Proofs.LocaleComparison
import SignGloss.Proofs.RequestCheck
import SignGloss.Proofs.LastRows
import SignGloss.Proofs.TokenTrees
import SignGloss.Proofs.SkippedValues
import SignGloss.Proofs.SettledScalars
import SignGloss.Proofs.SteadyReaders
import SignGloss.Proofs.GatheredMembers
import SignGloss.Proofs.FieldValues
import SignGloss.Proofs.SkippedTexts
import SignGloss.Proofs.ReadTexts
import SignGloss.Proofs.Revisions
import SignGloss.Proofs.WireTolerance
