import DocRoutes.Controller.Stock
import DocRoutes.Files.Tree
import DocRoutes.Handler.Stock
import DocRoutes.Main
import DocRoutes.Proofs.Registration
import DocRoutes.Proofs.Replay
import DocRoutes.Proofs.Captures
import DocRoutes.Proofs.PathArguments
import DocRoutes.Proofs.Declarations
import DocRoutes.Proofs.ReadBack
import DocRoutes.Proofs.Middleware
import DocRoutes.Proofs.LocalFields
import DocRoutes.Proofs.Mounting
import DocRoutes.Proofs.LoadFailures
import DocRoutes.Proofs.Remounting
import DocRoutes.Proofs.ItemNames
import DocRoutes.Proofs.Isolation
import DocRoutes.Proofs.Inspection
import DocRoutes.Proofs.QuietListing
import DocRoutes.Proofs.Partition
import DocRoutes.Proofs.Waiters
import DocRoutes.Proofs.JsonGrammar
import DocRoutes.Proofs.JsonTexts
import DocRoutes.Proofs.JsonLayout
import DocRoutes.Proofs.JsonListing
import DocRoutes.Proofs.Locality
import DocRoutes.Proofs.Wrapping
import DocRoutes.Proofs.ParamFields
import DocRoutes.Proofs.RouteGrammar
import DocRoutes.Proofs.ReturnsGrammar
import DocRoutes.Proofs.Classification
import DocRoutes.Proofs.RoutableRecords
import DocRoutes.Proofs.Merging
import DocRoutes.Proofs.Statuses
import DocRoutes.Proofs.Locating
import DocRoutes.Proofs.Dispatching
import DocRoutes.Proofs.Utf8
import DocRoutes.Proofs.Forms
import DocRoutes.Proofs.Bodies
