import LaunchTrace.Main
import LaunchTrace.Proofs.Command.Agreement
import LaunchTrace.Proofs.Command.Report
import LaunchTrace.Proofs.Component.Order
import LaunchTrace.Proofs.Context.Failure
import LaunchTrace.Proofs.Context.Independence
import LaunchTrace.Proofs.Context.Names
import LaunchTrace.Proofs.Context.RefreshEvents
import LaunchTrace.Proofs.Context.Resource
import LaunchTrace.Proofs.Context.Scanning
import LaunchTrace.Proofs.Context.WebRefresh
import LaunchTrace.Proofs.Environment.Inheritance
import LaunchTrace.Proofs.Recording.Entries
import LaunchTrace.Proofs.Recording.Fanout
import LaunchTrace.Proofs.Recording.Truncation
import LaunchTrace.Proofs.Recording.Window
import LaunchTrace.Proofs.Startup.Noninterference
import LaunchTrace.Proofs.Startup.StartOrder
import LaunchTrace.Proofs.Startup.Switch
import LaunchTrace.Proofs.Startup.Turns
import LaunchTrace.Proofs.Step.Open
import LaunchTrace.Proofs.Step.Tags
import LaunchTrace.Proofs.Tree.Ancestry
import LaunchTrace.Proofs.Tree.Conservation
import LaunchTrace.Proofs.Tree.Order
import LaunchTrace.Proofs.Tree.Reordering
import LaunchTrace.Proofs.Component.CatalogText
import LaunchTrace.Proofs.Recording.Backlog
import LaunchTrace.Proofs.Time.Millis
import LaunchTrace.Proofs.Tree.Listing
import LaunchTrace.Proofs.Tree.Rendering
