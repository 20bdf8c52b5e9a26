import Proconsul.Program
import Proconsul.Interleaving
import Proconsul.RelyGuarantee
import Proconsul.Triples
import Proconsul.Text
import Proconsul.Schema
import Proconsul.Surroundings
import Proconsul.Access
import Proconsul.Hosts
import Proconsul.Accounts
import Proconsul.Sessions
import Proconsul.Handlers
import Proconsul.Confinement
import Proconsul.Starting
import Proconsul.AllOrNothing
import Proconsul.HostAuthorization
import Proconsul.Cleanup
import Proconsul.Lifecycle
import Proconsul.PortSafety
import Proconsul.LiveSessions
import Proconsul.Checkout
import Proconsul.CheckoutEffects
import Proconsul.Reconnection
import Proconsul.Rejection
import Proconsul.MainPage
import Proconsul.SessionStorage
import Proconsul.ReconnectForms
import Proconsul.AdminConsole
import Proconsul.Delegation
import Proconsul.CheckoutDesk
import Proconsul.SweptAccounts
import Proconsul.SweptRows
import Proconsul.DeskSimulation
import Proconsul.AuditTrail
import Proconsul.AuditCompleteness
import Proconsul.SessionRows
import Proconsul.PortAllocator
import Proconsul.CreatedOnce
import Proconsul.DelegatedHosts
import Proconsul.GroupRules
import Proconsul.HostRestriction
import Proconsul.AccessRules
import Proconsul.HostForms
import Proconsul.CsrfTokens
import Proconsul.HeldPasswords
import Proconsul.HonestAccounts
import Proconsul.WorkstationList
import Proconsul.NearestOu
import Proconsul.OriginCheck
import Proconsul.LdapConnections
import Proconsul.SiteControllers
import Proconsul.DisplayedLifetime
import Proconsul.Delivery
import Proconsul.Availability
import Proconsul.Application
import Proconsul.Permanence
import Proconsul.ForeignAccounts
import Proconsul.Listings
import Proconsul.GroupForms
import Proconsul.ConsoleWrites
import Proconsul.TwoRuns
import Proconsul.Authority
import Proconsul.PosixUsers
import Proconsul.OwnAccounts
import Proconsul.DockerGen
import Proconsul.GivenBack
