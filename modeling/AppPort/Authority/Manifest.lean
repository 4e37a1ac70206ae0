import AppPort.Authority.Basic

/-!
# The service capability manifest

Every protected operation has exactly one capability, and the table is static:
services never invent names. A capability applies to one resource type; the ones
that are not invocable are reached by the runtime only.
-/

namespace AppPort

/-- Whether an operation changes anything. -/
inductive ServiceEffect where
  | consequential
  | observation
  deriving DecidableEq, Repr

/-- One capability. `authorization.required` is `true` throughout. -/
structure ServiceCapability where
  name : String
  service : String
  operation : String
  effect : ServiceEffect
  /-- `authorization.resource`. -/
  resource : String
  invocable : Bool
  version : Nat := 1
  deriving DecidableEq, Repr

/-- The table, in the source's order. -/
def ENTRIES : List ServiceCapability := [
  ⟨"apikeys.read", "api-keys", "listApiKeys", .observation, "api_key", true, 1⟩,
  ⟨"apikeys.create", "api-keys", "createApiKey", .consequential, "api_key", true, 1⟩,
  ⟨"apikeys.revoke", "api-keys", "revokeApiKey", .consequential, "api_key", true, 1⟩,
  ⟨"apikeys.update", "api-keys", "updateApiKey", .consequential, "api_key", true, 1⟩,
  ⟨"apikeys.rotate", "api-keys", "rotateApiKey", .consequential, "api_key", true, 1⟩,
  ⟨"apikeys.audit", "api-keys", "listApiKeyAuditEvents", .observation, "api_key", true, 1⟩,
  ⟨"webhooks.read", "webhooks", "listWebhookEndpoints", .observation, "webhook_endpoint", true, 1⟩,
  ⟨"webhooks.deliveries.read", "webhooks", "readWebhookDeliveries", .observation, "webhook_delivery", true, 1⟩,
  ⟨"webhooks.register", "webhooks", "createWebhookEndpoint", .consequential, "webhook_endpoint", true, 1⟩,
  ⟨"webhooks.remove", "webhooks", "disableWebhookEndpoint", .consequential, "webhook_endpoint", true, 1⟩,
  ⟨"webhooks.emit", "webhooks", "emitWebhookEvent", .consequential, "webhook_event", true, 1⟩,
  ⟨"webhooks.replay", "webhooks", "replayWebhookDelivery", .consequential, "webhook_delivery", true, 1⟩,
  ⟨"webhooks.deliver", "webhooks", "deliverWebhook", .consequential, "webhook_delivery", false, 1⟩,
  ⟨"webhooks.integrations.register", "webhooks", "registerIntegration", .consequential, "webhook_integration", true, 1⟩,
  ⟨"webhooks.receive", "webhooks", "receiveWebhook", .consequential, "webhook_integration", false, 1⟩,
  ⟨"jobs.read", "jobs", "listJobs", .observation, "job", true, 1⟩,
  ⟨"jobs.create", "jobs", "enqueue", .consequential, "job", true, 1⟩,
  ⟨"jobs.retry", "jobs", "retry", .consequential, "job", true, 1⟩,
  ⟨"jobs.execute", "jobs", "executeJob", .consequential, "job", false, 1⟩,
  ⟨"schedules.read", "schedules", "list", .observation, "schedule", true, 1⟩,
  ⟨"schedules.create", "schedules", "create", .consequential, "schedule", true, 1⟩,
  ⟨"schedules.cancel", "schedules", "disable", .consequential, "schedule", true, 1⟩,
  ⟨"notifications.read", "notifications", "list", .observation, "notification", true, 1⟩,
  ⟨"notifications.send", "notifications", "create", .consequential, "notification", true, 1⟩,
  ⟨"notifications.update", "notifications", "markRead", .consequential, "notification", true, 1⟩,
  ⟨"notifications.delete", "notifications", "delete", .consequential, "notification", true, 1⟩,
  ⟨"files.read", "files", "list", .observation, "file", true, 1⟩,
  ⟨"files.write", "files", "create", .consequential, "file", true, 1⟩,
  ⟨"files.delete", "files", "delete", .consequential, "file", true, 1⟩,
  ⟨"configuration.read", "configuration", "list", .observation, "configuration", true, 1⟩,
  ⟨"configuration.write", "configuration", "createVariable", .consequential, "configuration", true, 1⟩,
  ⟨"configuration.delete", "configuration", "delete", .consequential, "configuration", true, 1⟩,
  ⟨"credential.attach", "configuration", "createSecret", .consequential, "credential", true, 1⟩,
  ⟨"credential.rotate", "configuration", "rotateSecret", .consequential, "credential", true, 1⟩,
  ⟨"credential.detach", "configuration", "delete", .consequential, "credential", true, 1⟩,
  ⟨"credential.store", "configuration", "storeCredential", .consequential, "credential", true, 1⟩,
  ⟨"credential.status", "configuration", "credentialStatus", .observation, "credential", true, 1⟩,
  ⟨"intelligence.catalog", "intelligence", "catalog", .observation, "intelligence", true, 1⟩,
  ⟨"intelligence.read", "intelligence", "get", .observation, "intelligence", true, 1⟩,
  ⟨"intelligence.write", "intelligence", "set", .consequential, "intelligence", true, 1⟩,
  ⟨"intelligence.credential.set", "intelligence", "setCredential", .consequential, "credential", true, 1⟩,
  ⟨"intelligence.credential.remove", "intelligence", "removeCredential", .consequential, "credential", true, 1⟩,
  ⟨"intelligence.resolve", "intelligence", "resolveRuntime", .observation, "intelligence", false, 1⟩]

/-- `getServiceCapability`. -/
def getServiceCapability (name : String) : Option ServiceCapability :=
  ENTRIES.find? (fun c => c.name == name)

theorem getServiceCapability_name {name : String} {c : ServiceCapability}
    (h : getServiceCapability name = some c) : c.name = name := by
  have := List.find?_some h
  simpa using this

end AppPort
