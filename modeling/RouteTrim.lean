import RouteTrim.Json.Writer
import RouteTrim.Main
import RouteTrim.Proofs.Graph.Catalogue
import RouteTrim.Proofs.Pass.DeepLinking
import RouteTrim.Proofs.Route.Meaning
import RouteTrim.Proofs.Purge.Again
import RouteTrim.Proofs.Command.Writing
import RouteTrim.Proofs.Command.Targets
import RouteTrim.Proofs.Route.Lines
import RouteTrim.Proofs.Route.Modes
import RouteTrim.Proofs.Graph.Confluence
import RouteTrim.Proofs.Route.Unparsed
import RouteTrim.Proofs.Purge.Accessor
import RouteTrim.Proofs.Purge.Barrel
import RouteTrim.Proofs.Purge.ClassList
import RouteTrim.Proofs.Purge.ComponentFactory
import RouteTrim.Proofs.Purge.Controller
import RouteTrim.Proofs.Purge.Remains
import RouteTrim.Proofs.Command.Status
import RouteTrim.Proofs.Graph.Report
import RouteTrim.Proofs.Route.Field
import RouteTrim.Proofs.Route.Restyled
import RouteTrim.Proofs.Path.Relative
import RouteTrim.Proofs.Settings.History
import RouteTrim.Proofs.Command.Root
import RouteTrim.Proofs.Path.Within
import RouteTrim.Proofs.Settings.Paths
import RouteTrim.Proofs.Graph.Formats
import RouteTrim.Proofs.Store.Keys
import RouteTrim.Proofs.Route.Names
import RouteTrim.Proofs.Tree.Order
