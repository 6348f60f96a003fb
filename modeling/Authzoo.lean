import Authzoo.ConfigGrammar
import Authzoo.DiscoveryFailures
import Authzoo.DiscoveryRuns
import Authzoo.ErrorTexts
import Authzoo.Matching
import Authzoo.Oauth.AddressFilter
import Authzoo.Oauth.BodyLimit
import Authzoo.Oauth.CacheControl
import Authzoo.Oauth.DocumentEdits
import Authzoo.Oauth.Logs
import Authzoo.Oauth.MetadataLifetimes
import Authzoo.Oauth.Pending
import Authzoo.Oauth.Pkce
import Authzoo.Oauth.RedirectPorts
import Authzoo.Provider
import Authzoo.Roles
import Authzoo.Selection
import Authzoo.Server.Shutdown
import Authzoo.Server.Telemetry
