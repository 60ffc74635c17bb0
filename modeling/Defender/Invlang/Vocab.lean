import Defender.Python.Text
import Defender.Library.OrderedDict

/-!
# Closed vocabularies

The values a cell may draw from, and which of them closes a class slot or an
attribute of a vertex type.
-/

namespace Defender.Invlang.Vocab

open Defender.Python Defender.Library.OrderedDict

def disposition : List Str :=
  ["benign", "false-positive", "inconclusive", "malicious", "unresolved"]

def hostOnlyDisposition : Str := "unresolved"

def weightBuckets : List Str := ["++", "+", "-", "--"]

def strongWeights : List Str := ["++", "--"]

def confirmedWeight : Str := "++"

def nullWeight : Str := "null"

def weightCellValues : List Str := weightBuckets ++ [nullWeight, "∅"]

def types : List Str :=
  ["compute", "process", "thread", "memory-region", "module", "session", "identity", "storage",
    "database", "network-device", "file", "socket", "configuration", "application",
    "app-object", "credential"]

def relations : List Str :=
  ["spawned", "executed", "loaded_by", "opened", "connected_to", "read", "wrote", "created",
    "deleted", "modified", "listed", "runs_on", "contained_in", "authenticated_as",
    "authenticated_via", "initiated_by", "triggered_by", "escalated_privilege", "assumed_role",
    "granted_consent", "issued", "member_of", "identified_as", "component_of",
    "attempted_auth", "governs"]

def anchorKinds : List Str :=
  ["iam-policy", "gpo", "cap-rule", "change-mgmt", "data-classification-policy", "k8s-policy",
    "federation-policy", "endpoint-policy", "approved-source-list", "runtime-evidence",
    "tacit-knowledge", "other"]

def authzIndetBasis : List Str := ["retry", "exhausted"]

def consultationGrounding : List Str := ["org-authority", "telemetry-baseline"]

def tacitLookupOutcomes : List Str := ["hit", "miss"]

def anchorKindSystems : List (Str × Str) :=
  [("iam-policy", "identity"), ("change-mgmt", "change-mgmt"),
    ("tacit-knowledge", "tacit-knowledge")]

def authKinds : List Str :=
  ["siem-event", "runtime-audit", "authoritative-source", "client-asserted",
    "inferred-structural"]

def strongAuthKinds : List Str := ["siem-event", "runtime-audit", "authoritative-source"]

def impactDimension : List Str := ["confidentiality", "integrity", "availability", "scope"]

def impactVerdict : List Str := ["within", "exceeds", "indeterminate"]

def concludeImpactVerdict : List Str := "none" :: impactVerdict

def impactGrounding : List Str :=
  ["telemetry-baseline", "business-owner-attestation", "dlp-policy"]

def impactSeverity : List Str := ["null", "low", "moderate", "high"]

def computeRole : List Str :=
  ["monitoring-agent", "web-server", "app-server", "database-server", "mail-server",
    "dns-server", "dns-resolver", "domain-controller", "directory-server", "file-server",
    "bastion", "egress-host", "workstation", "byod", "mobile-device", "build-runner",
    "dev-tools", "kiosk", "iot", "container-host", "function-runtime", "ip-only", "unknown"]

def computeZone : List Str :=
  ["internal", "dmz", "partner", "regulated", "internet", "cloud-managed", "unknown"]

def provenance : List Str := ["known-corp", "known-partner", "novel", "anonymous"]

def computeKind : List Str := ["physical", "vm", "container", "function", "pod", "mobile"]

def identityKind : List Str :=
  ["user", "group", "role", "service-account", "application-principal", "federated-user",
    "unknown"]

def applicationVendor : List Str :=
  ["salesforce", "slack", "github", "gitlab", "bitbucket", "m365", "gsuite", "jira",
    "confluence", "servicenow", "workday", "okta", "entra", "auth0", "ping", "aws-account",
    "azure-tenant", "gcp-project", "datadog", "splunk", "snowflake", "databricks", "other"]

def applicationTrust : List Str :=
  ["corp-tenant", "partner-tenant", "external-tenant", "unknown"]

def sessionClass : List Str :=
  ["interactive", "api", "federated", "service", "scheduled", "unknown"]

def storageKind : List Str := ["object-store", "block", "file", "secrets", "nfs", "archive"]

def databaseKind : List Str :=
  ["relational", "nosql", "graph", "columnar", "cache", "search-index"]

def networkDeviceKind : List Str :=
  ["firewall", "router", "switch", "load-balancer", "waf", "proxy", "vpn-gateway"]

def socketProtocol : List Str :=
  ["tcp", "udp", "tls", "dns", "http", "https", "smtp", "ldap", "smb", "rdp", "ssh", "unix"]

def configurationKind : List Str :=
  ["registry-key", "gpo", "iam-policy", "cap-rule", "sysctl", "systemd-unit", "cron-entry",
    "k8s-config", "app-config", "env-var", "firewall-rule"]

def appObjectKind : List Str :=
  ["email", "chat-message", "ticket", "channel", "repo", "record", "document",
    "secret-stored", "pipeline", "api-resource", "calendar-event", "dashboard"]

def credentialKind : List Str :=
  ["access-key", "password-hash", "kerberos-ticket", "oauth-token", "jwt", "api-token",
    "ssh-key", "client-cert", "saml-assertion", "session-cookie", "refresh-token"]

def attrPredTargets : List Str := ["proposed_parent", "attached_vertex", "proposed_edge"]

/-- The lookup registry, in its order. -/
def slots : List (Str × List Str) :=
  [("disposition", disposition), ("types", types), ("relations", relations),
    ("anchor-kinds", anchorKinds), ("auth-kinds", authKinds),
    ("authz.basis", authzIndetBasis), ("consultation.grounding", consultationGrounding),
    ("consultation.lookup_outcome", tacitLookupOutcomes),
    ("impact.dimension", impactDimension), ("impact.verdict", impactVerdict),
    ("impact.grounding", impactGrounding),
    ("conclude.impact_verdict", concludeImpactVerdict),
    ("conclude.impact_severity", impactSeverity), ("compute.role", computeRole),
    ("compute.zone", computeZone), ("compute.provenance", provenance),
    ("compute.kind", computeKind), ("identity.kind", identityKind),
    ("identity.provenance", provenance), ("application.vendor", applicationVendor),
    ("application.trust", applicationTrust), ("session.class", sessionClass),
    ("storage.kind", storageKind), ("database.kind", databaseKind),
    ("network-device.kind", networkDeviceKind), ("socket.protocol", socketProtocol),
    ("configuration.kind", configurationKind), ("app-object.kind", appObjectKind),
    ("credential.kind", credentialKind), ("attr-pred.target", attrPredTargets)]

def isSlot (key : Str) : Bool := (Dict.lookup key slots).isSome

/-- The enum behind a slot; the source raises on a key outside the registry. -/
def getEnum (slot : Str) : List Str := (Dict.lookup slot slots).getD []

/-- The enums of a class cell's positions, for the types with more than one. -/
def classGrammar : List (Str × List Str) :=
  [("compute", ["compute.role", "compute.zone", "compute.provenance"]),
    ("identity", ["identity.kind", "identity.provenance"]),
    ("application", ["application.vendor", "application.trust"])]

def defaultClassArity : Nat := 1

/-- How many slots a class cell of a vertex type carries. -/
def classArity (vertexType : Str) : Nat :=
  match Dict.lookup vertexType classGrammar with
  | none => defaultClassArity
  | some grammar => grammar.length

def singleSlotSuffixes : List Str := ["class", "kind"]

def slotKey (vertexType name : Str) : Str := vertexType ++ ['.'] ++ name

/-- Which enum judges each position of a class cell. -/
def classSlotKeys (vertexType : Str) : List Str :=
  match Dict.lookup vertexType classGrammar with
  | some grammar => grammar
  | none => ((singleSlotSuffixes.map (slotKey vertexType)).filter isSlot).take 1

/-- The enum that closes an attribute of a vertex type, where one does. -/
def attrSlotKey (vertexType name : Str) : Option Str :=
  let key := slotKey vertexType name
  if vertexType ∉ types then none
  else if !isSlot key || ((Dict.lookup vertexType classGrammar).getD []).contains key then none
  else some key

def slotHead (key : Str) : Str := (splitOn '.' key).headD []

def vertexSlotsHolding (value otherThan : Str) : List Str :=
  let hits := (slots.filter fun slot =>
    slot.1 ≠ otherThan && types.contains (slotHead slot.1) && slot.2.contains value).map Prod.fst
  let head := slotHead otherThan ++ ['.']
  hits.filter (startsWith head) ++ hits.filter fun key => !startsWith head key

end Defender.Invlang.Vocab
