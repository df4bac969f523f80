import WorkItems.Journal
import WorkItems.Main
import WorkItems.Proofs.CommandLine.Verdicts
import WorkItems.Proofs.Item.Kept
import WorkItems.Proofs.Item.Kind
import WorkItems.Proofs.Item.Readable
import WorkItems.Proofs.Item.Version
import WorkItems.Proofs.Item.Written
import WorkItems.Proofs.Lifecycle.Composition
import WorkItems.Proofs.Lifecycle.Copy
import WorkItems.Proofs.Lifecycle.Identity
import WorkItems.Proofs.Pattern.Closing
import WorkItems.Proofs.Project.Removal
import WorkItems.Proofs.Schema.Congruence
import WorkItems.Proofs.Schema.Conservative
import WorkItems.Proofs.Schema.Correctness
import WorkItems.Proofs.Schema.Extension
import WorkItems.Proofs.Schema.Nesting
import WorkItems.Proofs.Schema.Nullable
import WorkItems.Proofs.Schema.Relabelled
import WorkItems.Proofs.Schema.Uniqueness
import WorkItems.Proofs.Strictness
