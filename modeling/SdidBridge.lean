import SdidBridge.Concurrent.Prog
import SdidBridge.Concurrent.System
import SdidBridge.Concurrent.Object
import SdidBridge.Concurrent.Table
import SdidBridge.Concurrent.Ticket
import SdidBridge.Concurrent.Paired
import SdidBridge.Concurrent.Alone
import SdidBridge.Concurrent.Rounds
import SdidBridge.Concurrent.Cost
import SdidBridge.Concurrent.Serial
import SdidBridge.Concurrent.InTurn
import SdidBridge.Concurrent.Cleanup
import SdidBridge.Concurrent.Alike
import SdidBridge.Concurrent.Lockstep
import SdidBridge.Concurrent.References
import SdidBridge.Concurrent.Ensures
import SdidBridge.Shared.Uuid
import SdidBridge.Shared.Protocol
import SdidBridge.Shared.Json
import SdidBridge.Shared.JsonText
import SdidBridge.Shared.JsText
import SdidBridge.Shared.IsoDate
import SdidBridge.Audit.Canonical
import SdidBridge.Audit.Service
import SdidBridge.Audit.Evidence
import SdidBridge.Audit.Completeness
import SdidBridge.Audit.Linear
import SdidBridge.Broker.Schema
import SdidBridge.Broker.Store
import SdidBridge.Broker.Trust
import SdidBridge.Broker.Signals
import SdidBridge.Broker.Enrolment
import SdidBridge.Broker.Devices
import SdidBridge.Broker.Ciba
import SdidBridge.Broker.Oidc
import SdidBridge.Broker.Admin
import SdidBridge.Broker.Machine
import SdidBridge.Broker.Paths
import SdidBridge.Broker.Handlers
import SdidBridge.Broker.Footprint
import SdidBridge.Broker.Objects
import SdidBridge.Broker.Keys
import SdidBridge.Broker.Tables
import SdidBridge.Broker.Transactions
import SdidBridge.Broker.Approval
import SdidBridge.Broker.SingleMint
import SdidBridge.Broker.Decisions
import SdidBridge.Broker.Revocation
import SdidBridge.Broker.PushAddresses
import SdidBridge.Broker.Suspension
import SdidBridge.Broker.DeviceCap
import SdidBridge.Broker.Challenges
import SdidBridge.Broker.Replay
import SdidBridge.Broker.Origins
import SdidBridge.Broker.Flows
import SdidBridge.Broker.Clients
import SdidBridge.Broker.Consents
import SdidBridge.Broker.Denylist
import SdidBridge.Broker.Disclosure
import SdidBridge.Broker.Sweep
import SdidBridge.Broker.Lockout
import SdidBridge.Broker.Pairwise
import SdidBridge.Broker.RateLimits
import SdidBridge.Broker.Detections
import SdidBridge.Broker.Windows
import SdidBridge.Broker.Freshness
import SdidBridge.Broker.TokenKinds
import SdidBridge.Broker.Audited
import SdidBridge.Broker.Confinement
import SdidBridge.Broker.References
import SdidBridge.Broker.Holders
import SdidBridge.Codec.Reader
import SdidBridge.Codec.Digits
import SdidBridge.Codec.View
import SdidBridge.Codec.Layout
import SdidBridge.Codec.Base64
import SdidBridge.Attestation.Cbor
import SdidBridge.Attestation.CborHeads
import SdidBridge.Attestation.CborExact
import SdidBridge.Attestation.CborCanonical
import SdidBridge.Attestation.Der
import SdidBridge.Attestation.DerExact
import SdidBridge.Attestation.DerValues
import SdidBridge.Attestation.KeyAttestation
import SdidBridge.Attestation.Chain
import SdidBridge.Attestation.Oids
import SdidBridge.Attestation.Verifiers
import SdidBridge.Attestation.AuthenticatorData
import SdidBridge.Attestation.Texts
import SdidBridge.Attestation.KeyDescription
import SdidBridge.Attestation.Containers
import SdidBridge.Attestation.AttestationObject
import SdidBridge.Attestation.Node
import SdidBridge.Attestation.AttestedKeys
import SdidBridge.Attestation.IntegrityPolicy
import SdidBridge.Attestation.AppAttest
import SdidBridge.Attestation.Outage
import SdidBridge.Broker.Biometrics
import SdidBridge.Broker.Assurance
import SdidBridge.Broker.ClientCalls
import SdidBridge.Broker.Isolation
import SdidBridge.Sdid.Resilience
import SdidBridge.Sdid.Attempts
import SdidBridge.Sdid.Probes
import SdidBridge.Sdid.Contract
import SdidBridge.Broker.Probing
import SdidBridge.Mobile.Errors
import SdidBridge.Mobile.Wire
import SdidBridge.Mobile.Client
import SdidBridge.Mobile.Seams
import SdidBridge.Mobile.Phone
import SdidBridge.Mobile.Signing
import SdidBridge.Mobile.Sends
import SdidBridge.Mobile.Turns
import SdidBridge.Mobile.Sessions
import SdidBridge.Mobile.Reenrolment
import SdidBridge.Mobile.Wipe
import SdidBridge.Mobile.KeyStores
import SdidBridge.Keys.Custody
import SdidBridge.Keys.Service
import SdidBridge.Keys.Paths
import SdidBridge.Keys.ActiveKey
import SdidBridge.Keys.Published
import SdidBridge.Keys.Usage
import SdidBridge.Keys.Signatures
import SdidBridge.Shared.JsMap
import SdidBridge.Keys.Remote
import SdidBridge.Keys.RemotePaths
import SdidBridge.Keys.RemoteContract
import SdidBridge.Codec.Runs
import SdidBridge.Shared.Tree
import SdidBridge.Shared.Capped
import SdidBridge.Shared.Stringify
import SdidBridge.Logging.Redact
import SdidBridge.Logging.Walk
import SdidBridge.Logging.Denied
import SdidBridge.Logging.Total
import SdidBridge.Logging.JsonLogger
import SdidBridge.Logging.Digits
import SdidBridge.Logging.Lines
import SdidBridge.Observability.Labels
import SdidBridge.Observability.Registry
import SdidBridge.Observability.Families
