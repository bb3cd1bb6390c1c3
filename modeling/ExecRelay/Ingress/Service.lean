/-
**Ingress as a service.**

The state that the handlers share: the license store that a reload replaces, the kill switch, the
daily counter, the buckets of the rate limiter and the clock. Requests to the two webhook routes and
to the kill switch run concurrently; every operation on the shared state is atomic, as the locks of
the source make it.

The publisher is a `Broker`: what a call of `Publish` may return and what it leaves behind is up to
it. The database and the predictor answer as they like. The limiter computes with doubles
(`Lib.Doubles`), so that nothing depends on how they round.
-/

import ExecRelay.Ingress.Handler
import ExecRelay.Lib.Double
import ExecRelay.Lib.Machine

namespace ExecRelay.Ingress

open Lib

/-! ### The license store -/

/-- `Lookup` in the map of the records, in which a later record of a license replaces an earlier
one. -/
def lookupRecord (records : List LicenseRecord) (licenseID : Bytes) :
    Except LookupError LicenseRecord :=
  match records.reverse.find? fun record => record.licenseID = licenseID with
  | none => .error .notFound
  | some record => if record.active then .ok record else .error .inactive

theorem lookupRecord_eq_ok {records : List LicenseRecord} {licenseID : Bytes} {record : LicenseRecord}
    (found : lookupRecord records licenseID = .ok record) :
    record ∈ records ∧ record.licenseID = licenseID ∧ record.active = true := by
  unfold lookupRecord at found
  split at found
  · cases found
  · rename_i other here
    split at found
    · rename_i active
      cases found
      exact ⟨List.mem_reverse.mp (List.mem_of_find?_eq_some here),
        by simpa using List.find?_some here, active⟩
    · cases found

/-! ### The daily counter -/

/-- The date of a day since the epoch: year, month and day of the Gregorian calendar. -/
def civilDate (day : Int) : Int × Int × Int :=
  -- days are counted from the first of March of the year 0, in eras of 400 years
  let shifted := day + 719468
  let era := shifted / 146097
  let dayOfEra := shifted % 146097
  let yearOfEra := (dayOfEra - dayOfEra / 1460 + dayOfEra / 36524 - dayOfEra / 146096) / 365
  let dayOfYear := dayOfEra - (365 * yearOfEra + yearOfEra / 4 - yearOfEra / 100)
  let monthFromMarch := (5 * dayOfYear + 2) / 153
  let month := if monthFromMarch < 10 then monthFromMarch + 3 else monthFromMarch - 9
  let year := yearOfEra + era * 400 + if month ≤ 2 then 1 else 0
  (year, month, dayOfYear - (153 * monthFromMarch + 2) / 5 + 1)

def padded (width : Nat) (value : Int) : Bytes :=
  let digits := lit (toString value.natAbs)
  List.replicate (width - digits.length) 48 ++ digits

/-- `now.UTC().Format("2006-01-02")`. -/
def formatDate (now : Time) : Bytes :=
  let (year, month, day) := civilDate (now / 86400000000000)
  padded 4 year ++ lit "-" ++ padded 2 month ++ lit "-" ++ padded 2 day

def counterKey (licenseID : Bytes) (now : Time) : Bytes :=
  licenseID ++ lit ":" ++ formatDate now

example : counterKey (lit "60123456789") 1700000000000000000 = lit "60123456789:2023-11-14" := by
  decide +kernel

abbrev Hits := Bytes → Nat

def Hits.increment (hits : Hits) (licenseID : Bytes) (now : Time) : Hits :=
  fun key => if key = counterKey licenseID now then hits key + 1 else hits key

def Hits.cleanup (hits : Hits) (now : Time) : Hits :=
  fun key => if 10 ≤ key.length ∧ key.drop (key.length - 10) ≠ formatDate now then 0 else hits key

/-! ### The rate limiter -/

structure TokenBucket (Number : Type) where
  tokens : Number
  last : Time

def bucketIdleExpiry : Int := 600000000000

/-- The limiter: tokens per second and their largest number, and the seconds of a duration. -/
structure Limiter (Number : Type) where
  doubles : Doubles Number
  seconds : Int → Number
  rate : Number
  burst : Nat

namespace Limiter

variable {Number : Type} (limiter : Limiter Number)

/-- The bucket of a client after a call of `allow`, and its result. -/
def allow (bucket : Option (TokenBucket Number)) (now : Time) : Bool × TokenBucket Number :=
  let burst := limiter.doubles.ofNat limiter.burst
  let bucket := bucket.getD ⟨burst, now⟩
  let elapsed := limiter.seconds (timeSub now bucket.last)
  let refilled := limiter.doubles.add bucket.tokens (limiter.doubles.mul elapsed limiter.rate)
  let tokens := if limiter.doubles.lt refilled burst then refilled else burst
  let one := limiter.doubles.ofNat 1
  if limiter.doubles.le one tokens then (true, ⟨limiter.doubles.sub tokens one, now⟩)
  else (false, ⟨tokens, now⟩)

end Limiter

/-! ### The world -/

/-- What is published: the bytes of a signal or an event. -/
inductive Payload
  | signal (data : Bytes)
  | event (event : AuditEvent)

/-- A publisher. `publish` says whether a call of the given thread may return the given error. -/
structure Broker (Network NetworkChange : Type) where
  publish : Network → Nat → Bytes → Payload → Option Bytes → Option Network
  change : Network → NetworkChange → Option Network

structure World (Number Network : Type) where
  records : List LicenseRecord
  halted : Bool
  hits : Hits := fun _ => 0
  buckets : Bytes → Option (TokenBucket Number) := fun _ => none
  clock : Time
  network : Network

/-- A request, by the route it came in on. -/
inductive Input
  | webhook (request : Request)
  | webhookML (request : Request)
  | killSwitch (request : Request)

inductive Change (NetworkChange : Type)
  | reload (records : List LicenseRecord)
  | tick (clock : Time)
  | cleanupHits
  | cleanupBuckets
  | network (change : NetworkChange)

def start (config : Config) : Input → Program Op Answer Empty Unit
  | .webhook request => webhook config request
  | .webhookML request => webhookML config request
  | .killSwitch request => killSwitch config request

section Machine

variable {Number Network NetworkChange : Type} (limiter : Limiter Number)
  (broker : Broker Network NetworkChange)

def exactly {Value : Type} [DecidableEq Value] (value answer : Value)
    (world : World Number Network) : Option (World Number Network) :=
  if answer = value then some world else none

theorem exactly_eq_some {Value : Type} [DecidableEq Value] {value answer : Value}
    {given next : World Number Network} (same : exactly value answer given = some next) :
    answer = value ∧ given = next := by
  rw [exactly] at same
  split at same
  · rename_i equal
    exact ⟨equal, Option.some.inj same⟩
  · cases same

def serve (world : World Number Network) (thread : Nat) :
    (op : Op) → Answer op → Option (World Number Network)
  | .now, answer => exactly world.clock answer world
  | .loadHalted, answer => exactly world.halted answer world
  | .swapHalted halted, answer => exactly world.halted answer { world with halted := halted }
  | .allow ip, answer =>
    let (allowed, bucket) := limiter.allow (world.buckets ip) world.clock
    exactly allowed answer
      { world with buckets := fun key => if key = ip then some bucket else world.buckets key }
  | .lookup licenseID, answer => exactly (lookupRecord world.records licenseID) answer world
  | .increment licenseID now, answer =>
    let hits := world.hits.increment licenseID now
    exactly (hits (counterKey licenseID now)) answer { world with hits := hits }
  | .publish subject payload, answer =>
    (broker.publish world.network thread subject (.signal payload) answer).map fun network =>
      { world with network := network }
  | .publishEvent subject event, answer =>
    (broker.publish world.network thread subject (.event event) answer).map fun network =>
      { world with network := network }
  | .newID, _ => some world
  | .newTraceID, _ => some world
  | .queryNotional _ _, _ => some world
  | .queryLimit _ _, _ => some world
  | .queryPosition _ _ _, _ => some world
  | .predict _, _ => some world
  | .insertDecision _, _ => some world
  | .insertSystemEvent _, _ => some world
  | .respond _, _ => some world

def change (world : World Number Network) : Change NetworkChange → Option (World Number Network)
  | .reload records => some { world with records := records }
  | .tick clock => some { world with clock := clock }
  | .cleanupHits => some { world with hits := world.hits.cleanup world.clock }
  | .cleanupBuckets =>
    some { world with
      buckets := fun ip =>
        (world.buckets ip).filter fun bucket => world.clock - bucketIdleExpiry ≤ bucket.last }
  | .network change =>
    (broker.change world.network change).map fun network => { world with network := network }

/-- **What a call can do to the network.** -/
theorem serve_network {world next : World Number Network} {thread : Nat} {op : Op} {answer : Answer op}
    (served : serve limiter broker world thread op answer = some next) :
    (∃ subject payload error, (⟨op, answer⟩ : Event Op Answer) = ⟨.publish subject payload, error⟩ ∧
      broker.publish world.network thread subject (.signal payload) error = some next.network) ∨
    (∃ subject event error, (⟨op, answer⟩ : Event Op Answer) = ⟨.publishEvent subject event, error⟩ ∧
      broker.publish world.network thread subject (.event event) error = some next.network) ∨
    ((∀ subject payload, op ≠ .publish subject payload) ∧ next.network = world.network) := by
  cases op with
  | publish subject payload =>
    obtain ⟨network, published, rfl⟩ := Option.map_eq_some_iff.mp served
    exact Or.inl ⟨subject, payload, answer, rfl, published⟩
  | publishEvent subject event =>
    obtain ⟨network, published, rfl⟩ := Option.map_eq_some_iff.mp served
    exact Or.inr (Or.inl ⟨subject, event, answer, rfl, published⟩)
  | now | loadHalted | swapHalted _ | allow _ | lookup _ | increment _ _ =>
    obtain ⟨-, rfl⟩ := exactly_eq_some served
    exact Or.inr (Or.inr ⟨fun _ _ same => (by cases same), rfl⟩)
  | _ =>
    cases served
    exact Or.inr (Or.inr ⟨fun _ _ same => (by cases same), rfl⟩)

def machine (config : Config) :
    Machine (World Number Network) Input (Change NetworkChange) Op Answer Empty where
  start := start config
  arrive := fun world _ => some world
  serve := serve limiter broker
  change := change broker

end Machine

/-! ### A service with one license and none of the optional gates -/

def plainConfig : Config where
  region := lit "eu-west-1"
  parseIP := fun _ => none
  decodeML := fun _ => .error (lit "unexpected end of JSON input")
  formatFloat := fun _ => []
  formatFixed := fun _ => []

def plainLimiter : Limiter ℚ where
  doubles := Doubles.exact
  seconds := fun duration => duration / 1000000000
  rate := 1
  burst := 1

def plainRecord : LicenseRecord where
  licenseID := lit "60123456789"
  instanceID := lit "main"
  platform := lit "mt5"

def oneLicense {Network : Type} (network : Network) : World ℚ Network where
  records := [plainRecord]
  halted := false
  clock := 1700000000000000000
  network := network

def plainRequest : Request where
  method := lit "POST"
  path := lit "/webhook"
  body := lit "60123456789,buy,EURUSD,vol_lots=0.1"

def reliable : Broker Unit Empty where
  publish := fun _ _ _ _ error => if error = none then some () else none
  change := fun _ change => change.elim

def obliging : (op : Op) → Answer op
  | .now => 1700000000000000000
  | .newID => lit "6f9619ff-8b86-4011-b42d-00c04fc964ff"
  | .newTraceID => lit "01hf6tqg9rmqk7v3xw0ybcd8ef"
  | .loadHalted => false
  | .swapHalted _ => false
  | .allow _ => true
  | .lookup licenseID => lookupRecord [plainRecord] licenseID
  | .increment _ _ => 1
  | .queryNotional _ _ => .error .failed
  | .queryLimit _ _ => .error .failed
  | .queryPosition _ _ _ => .error .failed
  | .predict _ => .error []
  | .publish _ _ => none
  | .publishEvent _ _ => none
  | .insertDecision _ => none
  | .insertSystemEvent _ => none
  | .respond _ => ()

end ExecRelay.Ingress
