import EntityScaffold.Main
import EntityScaffold.Store.Memory
import EntityScaffold.Proofs.Artifact.Mapping
import EntityScaffold.Proofs.Artifact.OwnName
import EntityScaffold.Proofs.Artifact.SimpleName
import EntityScaffold.Proofs.Entity.Check
import EntityScaffold.Proofs.Generation.Commute
import EntityScaffold.Proofs.Generation.Fault
import EntityScaffold.Proofs.Generation.Sibling
import EntityScaffold.Proofs.Generation.Stop
import EntityScaffold.Proofs.Source.Load
import EntityScaffold.Proofs.Source.Order
import EntityScaffold.Proofs.Source.Origin
import EntityScaffold.Proofs.Source.StyledUnit
import EntityScaffold.Proofs.Store.Directory
import EntityScaffold.Proofs.Text.Unreplaced
import EntityScaffold.Proofs.Artifact.SiblingImport
import EntityScaffold.Proofs.Command.Preview
import EntityScaffold.Proofs.Generation.DryRun
import EntityScaffold.Proofs.Generation.Mirror
import EntityScaffold.Proofs.Source.Eligible
import EntityScaffold.Proofs.Command.ExitCode
import EntityScaffold.Proofs.Entity.Excluded
import EntityScaffold.Proofs.Entity.Namespace
import EntityScaffold.Proofs.Build.Required
import EntityScaffold.Proofs.Build.Snippet
import EntityScaffold.Proofs.Conflict.Target
import EntityScaffold.Proofs.Conflict.NewName
import EntityScaffold.Proofs.Command.Settings
import EntityScaffold.Proofs.Artifact.ReadBack
import EntityScaffold.Proofs.Artifact.FirstMember
import EntityScaffold.Proofs.Artifact.Identity
import EntityScaffold.Proofs.Files.JavaFile
import EntityScaffold.Proofs.Types.Collection
import EntityScaffold.Proofs.Text.Runs
import EntityScaffold.Proofs.Types.Termination
