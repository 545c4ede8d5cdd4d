import ContainerBuild.Files.Directory
import ContainerBuild.Main
import ContainerBuild.Params.Request
import ContainerBuild.Proofs.Json.Exactness
import ContainerBuild.Proofs.Json.Payload
import ContainerBuild.Proofs.Params.Reloading
import ContainerBuild.Proofs.Plugin.Directory
import ContainerBuild.Proofs.Plugin.Frame
import ContainerBuild.Proofs.Record.ClientText
import ContainerBuild.Proofs.Record.Edits
import ContainerBuild.Proofs.Record.Ending
import ContainerBuild.Proofs.Record.Extension
import ContainerBuild.Proofs.Store.Refinement
import ContainerBuild.Proofs.Record.Timing
import ContainerBuild.Proofs.Params.Settling
import ContainerBuild.Proofs.Record.Reasons
import ContainerBuild.Proofs.Record.Rewriting
import ContainerBuild.Proofs.Plugin.Customizing
import ContainerBuild.Proofs.Plugin.Refusal
import ContainerBuild.Proofs.Params.Making
import ContainerBuild.Proofs.Plugin.Workers
import ContainerBuild.Proofs.Naming.Sharing
import ContainerBuild.Proofs.Naming.Coordinate
import ContainerBuild.Proofs.Record.Respelling
import ContainerBuild.Proofs.Params.Tags
import ContainerBuild.Proofs.Plugin.Calls
import ContainerBuild.Proofs.Plugin.Rerendering
import ContainerBuild.Proofs.Plugin.Suffixes
import ContainerBuild.Proofs.Record.Annotations
import ContainerBuild.Proofs.Record.Reports
import ContainerBuild.Proofs.Command.Summary
import ContainerBuild.Proofs.Time.Recording
import ContainerBuild.Proofs.Params.BuildIds
