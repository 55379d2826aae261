import MplServer.Main
import MplServer.Proofs.Build.Output
import MplServer.Proofs.Definition.Candidates
import MplServer.Proofs.Definition.Coverage
import MplServer.Proofs.Definition.Lists
import MplServer.Proofs.Definition.Picks
import MplServer.Proofs.Definition.Segments
import MplServer.Proofs.FileSystem.Walk
import MplServer.Proofs.Path.Joining
import MplServer.Proofs.Project.Configuration
import MplServer.Proofs.Project.Display
import MplServer.Proofs.Server.Definitions
import MplServer.Proofs.Server.Documents
import MplServer.Proofs.Server.Separation
import MplServer.Proofs.Server.Settings
import MplServer.Proofs.Text.Identifier
import MplServer.Server.Session
