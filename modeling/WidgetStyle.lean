import WidgetStyle.Main
import WidgetStyle.Proofs.Cascade.Activity
import WidgetStyle.Proofs.Cascade.Agreement
import WidgetStyle.Proofs.Cascade.Changes
import WidgetStyle.Proofs.Cascade.Enumeration
import WidgetStyle.Proofs.Cascade.Footprint
import WidgetStyle.Proofs.Cascade.FromRoot
import WidgetStyle.Proofs.Cascade.Oversize
import WidgetStyle.Proofs.Cascade.Overtaking
import WidgetStyle.Proofs.Cascade.Precedence
import WidgetStyle.Proofs.Cascade.Pruning
import WidgetStyle.Proofs.Cascade.Regrouping
import WidgetStyle.Proofs.Cascade.Retention
import WidgetStyle.Proofs.History.Basic
import WidgetStyle.Proofs.History.Excision
import WidgetStyle.Proofs.History.Holding
import WidgetStyle.Proofs.History.Invalidation
import WidgetStyle.Proofs.History.Naming
import WidgetStyle.Proofs.History.Ownership
import WidgetStyle.Proofs.History.Queries
import WidgetStyle.Proofs.History.Registration
import WidgetStyle.Proofs.History.Reordering
import WidgetStyle.Proofs.History.RootPlace
import WidgetStyle.Proofs.History.Shape
import WidgetStyle.Proofs.History.Traversal
import WidgetStyle.Proofs.Matching.Hiding
import WidgetStyle.Proofs.Matching.Joined
import WidgetStyle.Proofs.Matching.Likeness
import WidgetStyle.Proofs.Matching.Meaning
import WidgetStyle.Proofs.Matching.Narrowing
import WidgetStyle.Proofs.Matching.Single
import WidgetStyle.Proofs.Selector.Cutting
import WidgetStyle.Proofs.Selector.Leading
import WidgetStyle.Proofs.Selector.Level
import WidgetStyle.Proofs.Selector.Refusal
import WidgetStyle.Proofs.Sheet.Concatenation
import WidgetStyle.Proofs.Sheet.Loading
import WidgetStyle.Proofs.StyledTree.Alignment
import WidgetStyle.Proofs.StyledTree.Building
import WidgetStyle.Proofs.StyledTree.Coherence
import WidgetStyle.Proofs.StyledTree.Completeness
import WidgetStyle.Proofs.StyledTree.Correspondence
import WidgetStyle.Proofs.StyledTree.Interference
import WidgetStyle.Proofs.StyledTree.Mirroring
import WidgetStyle.Proofs.StyledTree.Passes
import WidgetStyle.Proofs.StyledTree.Refinding
import WidgetStyle.Proofs.StyledTree.Rendering
import WidgetStyle.Proofs.StyledTree.Retention
import WidgetStyle.Proofs.StyledTree.Reuse
import WidgetStyle.Proofs.StyledTree.Runs
import WidgetStyle.Proofs.StyledTree.Steps
import WidgetStyle.Proofs.StyledTree.Tracking
import WidgetStyle.Proofs.StyledTree.Unchanged
import WidgetStyle.Proofs.StyledTree.Upkeep
import WidgetStyle.Proofs.Tree.Core
import WidgetStyle.Proofs.Tree.Entries
import WidgetStyle.Proofs.Tree.Growth
import WidgetStyle.Proofs.Tree.Marking
import WidgetStyle.Proofs.Tree.Outline
import WidgetStyle.Proofs.Tree.Region
import WidgetStyle.Proofs.Tree.Removal
import WidgetStyle.StyledTree.Compute
import WidgetStyle.StyledTree.Rebuild
import WidgetStyle.Proofs.Style.Substitution
import WidgetStyle.Proofs.Style.Known
import WidgetStyle.Proofs.Tree.Attire
import WidgetStyle.Proofs.StyledTree.InStep
import WidgetStyle.Proofs.Number.Value
import WidgetStyle.Proofs.Style.Range
import WidgetStyle.Proofs.StyledTree.Range
import WidgetStyle.Proofs.Sheet.Refusal
import WidgetStyle.Proofs.Matching.IgnoringCase
import WidgetStyle.Proofs.Cascade.Partition
