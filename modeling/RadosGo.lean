import RadosGo.Maps.Applied
import RadosGo.Maps.Placed
import RadosGo.Library.Chain
import RadosGo.Object.Listing
import RadosGo.Objecter.EnumerationListing
import RadosGo.Objecter.MutationHistory
import RadosGo.Mgr.CommandHistory
import RadosGo.Client.Shutdown
import RadosGo.Client.WatchErrors
import RadosGo.Config.Keyring
import RadosGo.Objecter.RetryHistory
import RadosGo.Msgr.LedgerReplay
import RadosGo.Msgr.SessionHistory
import RadosGo.Msgr.Admission
import RadosGo.Msgr.SecureRoundTrip
import RadosGo.Wire.Tree
import RadosGo.Objecter.OsdSessionHistory
import RadosGo.Objecter.OsdCommandHistory
import RadosGo.Maps.ReducedSeed
import RadosGo.Objecter.SessionCustody
import RadosGo.Mgr.SessionCustody
import RadosGo.Objecter.RouteAgreement
import RadosGo.Mon.Published
import RadosGo.Mon.Divisions
import RadosGo.Maps.CrushCache
import RadosGo.Objecter.OsdTablesAccount
import RadosGo.Objecter.BackoffWakeups
import RadosGo.Objecter.PlacementBlocks
import RadosGo.Crush.Straw2
import RadosGo.Maps.Varint
import RadosGo.Objecter.MutationBuffers
import RadosGo.Cephx.Envelope
