import AppPort.ApiKeys.Breeding
import AppPort.ApiKeys.Listing
import AppPort.ApiKeys.LocalCopies
import AppPort.ApiKeys.Normalization
import AppPort.ApiKeys.Revocation
import AppPort.ApiKeys.Rotation
import AppPort.ApiKeys.Secrets
import AppPort.Authority.Destination
import AppPort.Authority.Evidence
import AppPort.Authority.ResourceUri
import AppPort.Configuration.DryRun
import AppPort.Configuration.Mediation
import AppPort.Configuration.ScriptJson
import AppPort.Configuration.StableJson
import AppPort.Configuration.Versions
import AppPort.Contract.Migrate
import AppPort.Extensions.Registration
import AppPort.Intelligence.Binding
import AppPort.Jobs.Audited
import AppPort.Jobs.Cancellation
import AppPort.Jobs.Conditional
import AppPort.Jobs.Recurring
import AppPort.Jobs.Worker
import AppPort.Lib.Decimal
import AppPort.Notifications.Creation
import AppPort.Notifications.Leases
import AppPort.Notifications.Listing
import AppPort.Notifications.Logical
import AppPort.Notifications.ObjectGraph
import AppPort.Notifications.Summary
import AppPort.Runtime.Accounting
import AppPort.Runtime.Attestation
import AppPort.Runtime.Confinement
import AppPort.Runtime.Events
import AppPort.Runtime.Health
import AppPort.Runtime.RawAccess
import AppPort.Runtime.SingleUse
import AppPort.Webhooks.Inbound
import AppPort.Webhooks.Reading
import AppPort.Webhooks.RunIds
