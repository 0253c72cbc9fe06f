import TlsFixtures.Main
import TlsFixtures.Proofs.ArgumentLists
import TlsFixtures.Proofs.Collisions
import TlsFixtures.Proofs.EkEncoding
import TlsFixtures.Proofs.FrameStream
import TlsFixtures.Proofs.Independence
import TlsFixtures.Proofs.Provenance
import TlsFixtures.Proofs.Harvesting
import TlsFixtures.Proofs.EventLog
import TlsFixtures.Proofs.Conclusion
import TlsFixtures.Proofs.Fragments
import TlsFixtures.Proofs.FieldAliases
import TlsFixtures.Proofs.Framing
import TlsFixtures.Proofs.Pairing
import TlsFixtures.Proofs.Changes
import TlsFixtures.Proofs.Positions
import TlsFixtures.Proofs.Requests
import TlsFixtures.Proofs.Numerals
import TlsFixtures.Proofs.ReadBack
import TlsFixtures.Proofs.JsonText
import TlsFixtures.Proofs.Documents
import TlsFixtures.Proofs.Noise
