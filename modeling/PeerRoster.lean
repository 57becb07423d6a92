import PeerRoster.Proofs.Listing
import PeerRoster.Session
import PeerRoster.Proofs.Form
import PeerRoster.Proofs.NextToken
import PeerRoster.Proofs.Page
import PeerRoster.Proofs.Walk
import PeerRoster.Proofs.Write
import PeerRoster.Proofs.Interleaving
import PeerRoster.Proofs.History
import PeerRoster.Proofs.Mirror
import PeerRoster.Proofs.QueryString
import PeerRoster.Proofs.Gate
import PeerRoster.Proofs.Disclosure
import PeerRoster.Proofs.Refusal
import PeerRoster.Proofs.Asking
import PeerRoster.Proofs.Lifetime
import PeerRoster.Proofs.Literal
import PeerRoster.Proofs.Scalar
import PeerRoster.Proofs.Reading
import PeerRoster.Proofs.Signature
import PeerRoster.Proofs.Canonical
import PeerRoster.Proofs.Statement
import PeerRoster.Proofs.Inert
import PeerRoster.Proofs.Availability
import PeerRoster.Proofs.Commuting
import PeerRoster.Proofs.Spelling
import PeerRoster.Proofs.Writing
import PeerRoster.Proofs.Layout
import PeerRoster.Proofs.Record
import PeerRoster.Proofs.RowText
import PeerRoster.Proofs.ConfigText
import PeerRoster.Proofs.PageText
import PeerRoster.Proofs.Frame
import PeerRoster.Proofs.FormGrammar
import PeerRoster.Proofs.FirstFault
import PeerRoster.Proofs.Search
import PeerRoster.Proofs.NameOrder
import PeerRoster.Proofs.Quotation
import PeerRoster.Proofs.Naming
