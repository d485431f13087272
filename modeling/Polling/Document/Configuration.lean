import Polling.Config.Basic
import Polling.Document.Parts
import Polling.Json.Printer
import Polling.Json.Reader

namespace Polling

open Json

namespace DistributionContext

def name : DistributionContext → String
  | daemon => "daemon"
  | remotePoller => "remote_poller"
  | all => "all"

def ofName? (s : String) : Option DistributionContext :=
  [daemon, remotePoller, all].find? (·.name = s)

def toJson (c : DistributionContext) : Json := text c.name

def ofJson? (v : Json) : Option DistributionContext := do ofName? (← v.choice?)

end DistributionContext

namespace Service

def toJson (s : Service) : Json :=
  record ([("name", text s.name)] ++ optionalField "status" (s.status.map text) ++
    [("interval", .int s.interval.toNat)] ++
    listField "parameters" (s.parameters.map Parameter.toJson))

def ofJson? (v : Json) : Option Service := do
  let fields ← v.fields? ["name", "status", "interval", "parameters"]
  return {
    name := ← fields.required "name" text?
    status := ← fields.withDefault "status" none (nullable? text?)
    interval := ← fields.withDefault "interval" 300000 fun v => do
      return (← v.natBelow? UInt64.size).toUInt64
    parameters := ← fields.withDefault "parameters" [] (list? Parameter.ofJson?) }

end Service

namespace Archive

def toJson (a : Archive) : Json :=
  record [("step", .int a.step.toNat), ("rra", .array (a.definitions.map text))]

def ofJson? (v : Json) : Option Archive := do
  let fields ← v.fields? ["step", "rra"]
  return {
    step := (← fields.required "step" (natBelow? UInt32.size)).toUInt32
    -- A new archive starts with definitions; one that is read without any has none.
    definitions := ← fields.withDefault "rra" [] (list? text?) }

end Archive

namespace Package

def toJson (p : Package) : Json :=
  record [
    ("name", text p.name),
    ("filter", text p.filter),
    ("specifics", .array (p.specifics.map Address.toJson)),
    ("include_ranges", .array (p.includeRanges.map AddressRange.toJson)),
    ("exclude_ranges", .array (p.excludeRanges.map AddressRange.toJson)),
    ("include_urls", .array (p.includeUrls.map text)),
    ("remote", .bool p.remote),
    ("rrd", p.archive.toJson),
    ("services", .array (p.services.map Service.toJson))]

def ofJson? (v : Json) : Option Package := do
  let fields ← v.fields? ["name", "filter", "specifics", "include_ranges", "exclude_ranges",
    "include_urls", "remote", "rrd", "services"]
  return {
    name := ← fields.required "name" text?
    filter := ← fields.required "filter" text?
    specifics := ← fields.withDefault "specifics" [] (list? Address.ofJson?)
    includeRanges := ← fields.withDefault "include_ranges" [] (list? AddressRange.ofJson?)
    excludeRanges := ← fields.withDefault "exclude_ranges" [] (list? AddressRange.ofJson?)
    includeUrls := ← fields.withDefault "include_urls" [] (list? text?)
    remote := ← fields.withDefault "remote" false bool?
    archive := ← fields.withDefault "rrd" {} Archive.ofJson?
    services := ← fields.withDefault "services" [] (list? Service.ofJson?) }

end Package

namespace Monitor

def toJson (m : Monitor) : Json :=
  record [("service", text m.service), ("implementation", text m.implementation)]

def ofJson? (v : Json) : Option Monitor := do
  let fields ← v.fields? ["service", "implementation"]
  return {
    service := ← fields.required "service" text?
    implementation := ← fields.required "implementation" text? }

end Monitor

namespace NodeOutage

def toJson (o : NodeOutage) : Json :=
  record ([("status", text o.status)] ++
    optionalField "critical_service" (o.criticalService.map text) ++
    [("poll_all_if_no_critical_service_defined", .bool o.pollAllIfNoCriticalService)])

def ofJson? (v : Json) : Option NodeOutage := do
  let fields ← v.fields? ["status", "critical_service", "poll_all_if_no_critical_service_defined"]
  return {
    status := ← fields.required "status" text?
    criticalService := ← fields.withDefault "critical_service" none (nullable? text?)
    pollAllIfNoCriticalService :=
      ← fields.withDefault "poll_all_if_no_critical_service_defined" false bool? }

end NodeOutage

namespace Configuration

def toJson (c : Configuration) : Json :=
  record [
    ("threads", .int c.threads.toNat),
    ("service_unresponsive_enabled", .bool c.serviceUnresponsiveEnabled),
    ("path_outage_enabled", .bool c.pathOutageEnabled),
    ("node_outage", c.nodeOutage.toJson),
    ("packages", .array (c.packages.map Package.toJson)),
    ("monitors", .array (c.monitors.map Monitor.toJson))]

def ofJson? (v : Json) : Option Configuration := do
  let fields ← v.fields? ["threads", "service_unresponsive_enabled", "path_outage_enabled",
    "node_outage", "packages", "monitors"]
  return {
    threads := ← fields.withDefault "threads" 30 fun v => do
      return (← v.natBelow? UInt32.size).toUInt32
    serviceUnresponsiveEnabled := ← fields.withDefault "service_unresponsive_enabled" false bool?
    pathOutageEnabled := ← fields.withDefault "path_outage_enabled" false bool?
    nodeOutage := ← fields.withDefault "node_outage"
      { status := "on", criticalService := some "ICMP" } NodeOutage.ofJson?
    packages := ← fields.withDefault "packages" [] (list? Package.ofJson?)
    monitors := ← fields.withDefault "monitors" [] (list? Monitor.ofJson?) }

def render (c : Configuration) : String := c.toJson.pretty

def parse? (document : String) : Option Configuration := do ofJson? (← Json.ofString? document)

end Configuration

end Polling
