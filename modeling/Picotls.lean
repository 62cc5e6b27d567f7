import Picotls.Properties.PartialLoads
import Picotls.Properties.PskAuthentication
import Picotls.Properties.PskBinders
import Picotls.Properties.PskDhe
import Picotls.Properties.CipherSelection
import Picotls.Properties.CipherPreference
import Picotls.Properties.EarlyDataAcceptance
import Picotls.Properties.EarlyDataSkip
import Picotls.Properties.EchConfigs
import Picotls.Properties.EchRejection
import Picotls.Properties.RetryLimit
import Picotls.Properties.TicketNonces
import Picotls.Properties.VectoredSend
import Picotls.Properties.RecordChunks
import Picotls.Properties.Reassembly
import Picotls.Properties.KeyChange
import Picotls.Properties.RetryAgreement
import Picotls.Properties.SignatureReports
import Picotls.Properties.SessionIdentifiers
import Picotls.Properties.TicketsWithoutKeyShare
import Picotls.Properties.PaddingGarbage
import Picotls.Properties.KeyDerivation
import Picotls.Properties.HpkeContexts
import Picotls.Properties.FormatPreserving
import Picotls.Properties.ConnectionIdentifiers
import Picotls.Properties.KeyParserBounds
import Picotls.Properties.AeadComposition
import Picotls.Properties.CounterMode
import Picotls.Properties.BlockTransforms
import Picotls.Properties.SignatureEncoding
import Picotls.Properties.LogSampling
import Picotls.Properties.LogStrings
import Picotls.Properties.ExtensionRefusals
import Picotls.Properties.HandshakeCompletion
