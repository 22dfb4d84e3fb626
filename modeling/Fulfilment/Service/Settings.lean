import Fulfilment.Limits
import Fulfilment.Service.Seed
import Fulfilment.Text.Keyword

/-!
# Settings

What the services run with. Each setting is looked up under a name; one that is missing, or that
says nothing sensible, keeps its default.
-/
namespace Fulfilment

/-- How the log is written. -/
inductive LogFormat where
  | pretty
  | json
deriving DecidableEq, Repr

/-- The format of this name, in any case and between blanks. -/
def LogFormat.parse? (s : String) : Option LogFormat :=
  if Text.sameName (Text.trim s) "pretty" then some pretty
  else if Text.sameName (Text.trim s) "json" then some json
  else none

/-- What the services run with. -/
structure Settings where
  reservationSeconds : Nat := 900
  stockAttempts : Nat := 10
  sweepSeconds : Nat := 30
  sweepBatch : Nat := 100
  scanSeconds : Nat := 60
  conflictRetries : Nat := 3
  metricsAddress : String := "0.0.0.0:9000"
  logFormat : LogFormat := .pretty
  logLevel : String := "info"
  seed : Option Seed := none
deriving DecidableEq, Repr

namespace Settings

/-- The number that a setting says, if it is at most `most`. -/
def readNumber (most : Nat) (s : String) : Option Nat := do
  let n ← Numeral.natural? (Text.trimChars s.toList)
  if n ≤ most then some n else none

/-- The same for a number that must not be zero. -/
def readPositive (most : Nat) (s : String) : Option Nat := do
  let n ← readNumber most s
  if 0 < n then some n else none

/-- The store to open at the start, which must not be blank. -/
def readSeed (lookup : String → Option String) : Option Seed := do
  let store := Text.trim (← lookup "SEED_STORE")
  if store.isEmpty then none
  else some ⟨⟨store⟩, Seed.readStock ((lookup "SEED_STOCK").getD "")⟩

def most32 : Nat := 4294967295

def most64 : Nat := 18446744073709551615

/-- The settings found under their names. -/
def ofLookup (lookup : String → Option String) : Settings :=
  let default : Settings := {}
  let number (name : String) (read : String → Option Nat) (otherwise : Nat) : Nat :=
    ((lookup name).bind read).getD otherwise
  { reservationSeconds :=
      number "RESERVATION_TTL_SECS" (readPositive most64) default.reservationSeconds
    stockAttempts :=
      number "RESERVATION_CAS_MAX_ATTEMPTS" (readPositive most32) default.stockAttempts
    sweepSeconds := number "EXPIRY_SWEEP_INTERVAL_SECS" (readPositive most64) default.sweepSeconds
    sweepBatch := number "EXPIRY_SWEEP_BATCH_SIZE" (readPositive most64) default.sweepBatch
    scanSeconds :=
      number "PAYMENT_TIMEOUT_SCAN_INTERVAL_SECS" (readPositive most64) default.scanSeconds
    conflictRetries := number "SAGA_CONFLICT_RETRIES" (readNumber most32) default.conflictRetries
    metricsAddress := (lookup "METRICS_ADDR").getD default.metricsAddress
    logFormat := ((lookup "LOG_FORMAT").bind LogFormat.parse?).getD default.logFormat
    logLevel := (lookup "RUST_LOG").getD default.logLevel
    seed := readSeed lookup }

/-- The most seconds that a span of signed 64-bit milliseconds holds. -/
def mostSpanSeconds : Nat := 9223372036854775

/-- The lifetime of a hold. One that no span holds is a quarter of an hour. -/
def reservationTime (s : Settings) : Span :=
  if s.reservationSeconds ≤ mostSpanSeconds then .ofSeconds s.reservationSeconds else .ofMinutes 15

end Settings
end Fulfilment
