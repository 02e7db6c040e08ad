import Brunomnia.Cancellation.Kept
import Brunomnia.Codegen.Encoding
import Brunomnia.Codegen.Headers
import Brunomnia.Codegen.LiteralsDenote
import Brunomnia.Codegen.PathParameters
import Brunomnia.Collaboration.Frame
import Brunomnia.Collaboration.MergeBase
import Brunomnia.Collaboration.MergedAgain
import Brunomnia.Collaboration.ReadBack
import Brunomnia.Collaboration.Session
import Brunomnia.Cookies.Safety
import Brunomnia.Documents.ReopenedTabs
import Brunomnia.Documents.RequestTabRuns
import Brunomnia.Editors.BulkKeyValues
import Brunomnia.Evidence.Reports
import Brunomnia.Governance.Authority
import Brunomnia.Governance.InvitationRuns
import Brunomnia.Governance.WriteBack
import Brunomnia.Interchange.Curl
import Brunomnia.Interchange.CurlReading
import Brunomnia.Interchange.CurlResend
import Brunomnia.Interchange.CurlRoundTrip
import Brunomnia.Interchange.McpCommand
import Brunomnia.Konnect.CatalogSafety
import Brunomnia.Library.OrderedMaps
import Brunomnia.Library.Splitting
import Brunomnia.McpHttp.StreamsSafety
import Brunomnia.McpStdio.TransportFailure
import Brunomnia.McpStdio.RegistryRuns
import Brunomnia.McpStdio.ServerRequests
import Brunomnia.MockServer.Routes
import Brunomnia.Multipart.RoundTrip
import Brunomnia.NativeStore.EnvironmentBranches
import Brunomnia.Netrc.Lookup
import Brunomnia.OAuthCallback.Delivery
import Brunomnia.ProjectFolder.Rewrites
import Brunomnia.ProjectFolder.RoundTrip
import Brunomnia.Previews.CsvTables
import Brunomnia.Projects.Ancestry
import Brunomnia.Projects.DevicePrivate
import Brunomnia.Projects.PublishingReadBack
import Brunomnia.Projects.StoredMoves
import Brunomnia.Resources.KeyboardEdits
import Brunomnia.Runner.DataRowsRoundTrip
import Brunomnia.Runner.Flow
import Brunomnia.Runner.HeaderLayers
import Brunomnia.RunnerCli.RoundTrip
import Brunomnia.Scim.Runs
import Brunomnia.ScimServer.LifecycleRuns
import Brunomnia.SerdeJson
import Brunomnia.Streaming.ForwardProxy
import Brunomnia.Streaming.Lossy
import Brunomnia.Streaming.RedirectSafety
import Brunomnia.Streaming.SessionRaces
import Brunomnia.Streaming.SseBlocks
import Brunomnia.Streaming.SseChunks
import Brunomnia.Streaming.SseReference
import Brunomnia.Templates.RendererAgreement
import Brunomnia.Templates.RoundTrip
import Brunomnia.Sync.PushRuns
import Brunomnia.OpenApi.Requests
import Brunomnia.Postman.Imports
import Brunomnia.Zip.Safety
