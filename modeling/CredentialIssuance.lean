import CredentialIssuance.Agent.Command
import CredentialIssuance.Agent.Response
import CredentialIssuance.Broadcast
import CredentialIssuance.Locks
import CredentialIssuance.Proofs.Forward
import CredentialIssuance.Proofs.History
import CredentialIssuance.Proofs.Agreement
import CredentialIssuance.Proofs.Isolation
import CredentialIssuance.Proofs.Backing
import CredentialIssuance.Proofs.Delivery
import CredentialIssuance.Proofs.Issuance
import CredentialIssuance.Proofs.Script
import CredentialIssuance.Proofs.Shape
import CredentialIssuance.Proofs.Completion
import CredentialIssuance.Proofs.Commute
import CredentialIssuance.Proofs.Response
import CredentialIssuance.Proofs.Admission
import CredentialIssuance.Proofs.Acknowledgement
import CredentialIssuance.Proofs.Attempt
import CredentialIssuance.Proofs.Retry
import CredentialIssuance.Proofs.Reception
import CredentialIssuance.Proofs.Persistence
import CredentialIssuance.Proofs.Spelling
import CredentialIssuance.Proofs.Eviction
import CredentialIssuance.Proofs.Transparency
import CredentialIssuance.Proofs.Exclusion
import CredentialIssuance.Proofs.Listing
