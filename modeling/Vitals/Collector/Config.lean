import Vitals.Duration.Basic
import Vitals.Registry.Basic

/-!
# How a collector works

The times between scrapes and refreshes, the time a node has to answer, and how many scrapes
are retained and read back.
-/

namespace Vitals

/-- Why a collector cannot work so. -/
inductive ConfigFault where
  | scrapeInterval | refreshInterval | callTimeout | window | maxWindow
deriving Repr, DecidableEq, Inhabited

/-- The wording of the fault. -/
def ConfigFault.detail : ConfigFault → String
  | scrapeInterval => "scrape interval must be non-zero"
  | refreshInterval => "refresh interval must be non-zero"
  | callTimeout => "call timeout must be non-zero"
  | window => "history window must hold at least one tick"
  | maxWindow => "max window must be at least one tick"

/-- How a collector works. -/
structure CollectorConfig where
  /-- The time between scrapes. -/
  scrapeInterval : Duration := .ofSecs 1
  /-- The time between refreshes of the directory. -/
  refreshInterval : Duration := .ofSecs 10
  /-- The time a node has to answer. -/
  callTimeout : Duration := .ofSecs 2
  /-- The number of scrapes retained. -/
  window : Nat := 3600
  /-- The number of scrapes that a reader of the history gets; one hour of them unless it is
  said. -/
  maxWindow : Option Nat := none
deriving Repr, DecidableEq, Inhabited

namespace CollectorConfig

/-- The first thing that is wrong, if any. -/
def fault? (config : CollectorConfig) : Option ConfigFault :=
  if config.scrapeInterval.isZero then some .scrapeInterval
  else if config.refreshInterval.isZero then some .refreshInterval
  else if config.callTimeout.isZero then some .callTimeout
  else if config.window = 0 then some .window
  else if config.maxWindow = some 0 then some .maxWindow
  else none

/-- The time that a reader of the history gets, in milliseconds. -/
def historySpan : Nat := 3600000

/-- The number of scrapes that a reader of the history gets: what is said, or as many as make
up an hour at so many whole milliseconds each, the last one counting in full. -/
def effectiveMaxWindow (config : CollectorConfig) : Nat :=
  match config.maxWindow with
  | some window => window
  | none =>
    let each := max config.scrapeInterval.millis 1
    max ((historySpan + (each - 1)) / each) 1

end CollectorConfig

/-- Why a collector cannot be built. -/
inductive CollectorFault where
  /-- The first scan of the registry failed. -/
  | initialScan (fault : RegistryFault)
  /-- Something it needs was not given. -/
  | missing (what : String)
  | config (fault : ConfigFault)
deriving Repr, DecidableEq, Inhabited

/-- The wording of the fault. -/
def CollectorFault.message : CollectorFault → String
  | initialScan fault => s!"initial directory scan failed: {fault.message}"
  | missing what => s!"missing {what}"
  | config fault => s!"invalid configuration: {fault.detail}"

end Vitals
