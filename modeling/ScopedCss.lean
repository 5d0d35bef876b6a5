import ScopedCss.Files.Listing
import ScopedCss.Main
import ScopedCss.Rule.Pattern
import ScopedCss.Run.Directory
import ScopedCss.Proofs.CommandLine
import ScopedCss.Proofs.FlatSheet.EmptyRules
import ScopedCss.Proofs.FlatSheet.Scoping
import ScopedCss.Proofs.Log
import ScopedCss.Proofs.Parentheses
import ScopedCss.Proofs.Rule.Gaps
import ScopedCss.Proofs.Rule.Spacing
import ScopedCss.Proofs.Run.Directory
import ScopedCss.Proofs.Run.Repetition
import ScopedCss.Proofs.Run.Series
import ScopedCss.Proofs.Settings.Truncation
import ScopedCss.Proofs.Stylesheet.Append
import ScopedCss.Proofs.Stylesheet.Containment
import ScopedCss.Proofs.Stylesheet.Fusion
import ScopedCss.Proofs.Stylesheet.Importance
import ScopedCss.Proofs.Stylesheet.RuleCount
