import DomainFactory.Main
import DomainFactory.Proofs.Crossing
import DomainFactory.Proofs.Identities
import DomainFactory.Proofs.Lifecycle
import DomainFactory.Proofs.Locality
import DomainFactory.Proofs.Marking
import DomainFactory.Proofs.Parity
import DomainFactory.Proofs.Probing
import DomainFactory.Proofs.Rendering
import DomainFactory.Proofs.Reporting
import DomainFactory.Proofs.Requests
import DomainFactory.Proofs.Resolution
import DomainFactory.Proofs.Routing
import DomainFactory.Rehearsal.Session
import DomainFactory.Proofs.Correspondence
import DomainFactory.Proofs.Archiving
import DomainFactory.Proofs.Pairing
import DomainFactory.Proofs.Asking
import DomainFactory.Proofs.Overloads
import DomainFactory.Proofs.Partition
import DomainFactory.Proofs.Referents
import DomainFactory.Proofs.Shapes
import DomainFactory.Proofs.Ancestry
import DomainFactory.Proofs.Building
import DomainFactory.Proofs.Isolation
import DomainFactory.Proofs.Contract
import DomainFactory.Proofs.Denial
import DomainFactory.Proofs.Correlation
import DomainFactory.Proofs.Functions
import DomainFactory.Proofs.Registration
import DomainFactory.Proofs.Lookups
import DomainFactory.Proofs.Items
import DomainFactory.Proofs.Parameters
import DomainFactory.Proofs.Canonical
