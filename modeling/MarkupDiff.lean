import MarkupDiff.Text.Blank
import MarkupDiff.Text.Case
import MarkupDiff.Text.Quoted
import MarkupDiff.Number.Text
import MarkupDiff.Value.Basic
import MarkupDiff.Fault
import MarkupDiff.Value.Access
import MarkupDiff.Difference.Entry
import MarkupDiff.Place.Description
import MarkupDiff.Json.Reader
import MarkupDiff.Options
import MarkupDiff.Markup.Marker
import MarkupDiff.Markup.Reference.Table
import MarkupDiff.Markup.Reference
import MarkupDiff.Markup.Tag
import MarkupDiff.Markup.Scan
import MarkupDiff.Markup.Printed
import MarkupDiff.Node.Normal
import MarkupDiff.Tree.Normalize
import MarkupDiff.Tree.Parse
import MarkupDiff.Comparison
import MarkupDiff.Source
import MarkupDiff.Place.Edit
import MarkupDiff.Proofs.Node.AttributeOrder
import MarkupDiff.Proofs.Node.Sameness
import MarkupDiff.Proofs.Difference.TreeChanges
import MarkupDiff.Proofs.Sameness
import MarkupDiff.Proofs.Difference.Membership
import MarkupDiff.Proofs.Difference.Objects
import MarkupDiff.Proofs.Reports
import MarkupDiff.Proofs.Difference.Agreement
import MarkupDiff.Proofs.Difference.Patch
import MarkupDiff.Proofs.Patches
import MarkupDiff.Proofs.Renderings
import MarkupDiff.Proofs.Node.NormalForm
import MarkupDiff.Proofs.Tree.Attributes
import MarkupDiff.Proofs.Tree.Siblings
import MarkupDiff.Proofs.Tree.NormalForm
import MarkupDiff.Proofs.NormalForms
import MarkupDiff.Proofs.Difference.Remainder
import MarkupDiff.Proofs.Difference.First
import MarkupDiff.Proofs.FirstChanges
import MarkupDiff.Proofs.Interruptions
import MarkupDiff.Proofs.Markup.Interruption
import MarkupDiff.Proofs.Node.Runs
import MarkupDiff.Proofs.Node.Widening
import MarkupDiff.Proofs.Difference.BlankEdits
import MarkupDiff.Proofs.IgnoringMore
import MarkupDiff.Proofs.Difference.Mirrored
import MarkupDiff.Proofs.MirroredReports
import MarkupDiff.Proofs.Place.Standing
import MarkupDiff.Proofs.Place.Wandering
import MarkupDiff.Proofs.Tree.Parsing
import MarkupDiff.Proofs.Locations
import MarkupDiff.Proofs.Node.SelectorText
import MarkupDiff.Proofs.Place.ChildPath
import MarkupDiff.Proofs.Selectors
import MarkupDiff.Proofs.Rendering.Safe
import MarkupDiff.Proofs.PlainValues
import MarkupDiff.Proofs.Text.Pieces
import MarkupDiff.Proofs.Tree.SortedInPlace
import MarkupDiff.Proofs.AttributeForms
import MarkupDiff.Proofs.BareTexts
import MarkupDiff.Proofs.AttributeValues
import MarkupDiff.Proofs.Node.Outline
import MarkupDiff.Proofs.ParsedTrees
import MarkupDiff.Proofs.Sanitizing
import MarkupDiff.Proofs.Difference.Meeting
import MarkupDiff.Proofs.Difference.Apart
import MarkupDiff.Proofs.ChangePaths
import MarkupDiff.Proofs.Value.Equality
import MarkupDiff.Proofs.Value.Reordered
import MarkupDiff.Proofs.Difference.Corresponding
import MarkupDiff.Proofs.Difference.Reordered
import MarkupDiff.Proofs.Difference.Reversed
import MarkupDiff.Proofs.MirroredChanges
import MarkupDiff.Proofs.Difference.Store
import MarkupDiff.Proofs.Difference.Shown
import MarkupDiff.Proofs.Difference.Ending
import MarkupDiff.Proofs.Difference.Walk
import MarkupDiff.Proofs.IgnoredKeys
import MarkupDiff.Proofs.AgreeingWalks
import MarkupDiff.Proofs.ResolvedWalks
import MarkupDiff.Proofs.EditMessages
import MarkupDiff.Proofs.Configurations
import MarkupDiff.Proofs.Arrangements
