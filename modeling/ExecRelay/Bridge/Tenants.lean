/-
**Signals and the licenses of terminals.**

An instance key is unique within its license only, while the hub of the bridge knows nothing but the
instance id that a terminal registers with. A signal therefore stays with the terminals of its license
(`Isolated`) in the runs whose steps are `Tidy`: the portal gives a key to no second license, a terminal
registers under a key of its own license, and a signal names an instance of its license.
-/

import ExecRelay.Bridge.Hub
import ExecRelay.Portal.Instances

namespace ExecRelay.Bridge

open Lib
open Nats (Delivery)
open Portal (Tables CreateInstanceIn)
open Proto (canonicalSignal)

/-! ### The portal and the bridge -/

structure Tenants where
  portal : Tables
  bridge : BridgeState := { world := {} }

inductive TenantsLabel
  | create (userID : Nat) (licenseID : Option Nat) (body : CreateInstanceIn)
  | bridge (label : BridgeLabel)

def Tenants.step (config : Config) (state : Tenants) : TenantsLabel → Option Tenants
  | .create userID licenseID body =>
    match state.portal.createInstance userID licenseID body with
    | .ok portal => some { state with portal := portal }
    | .error _ => some state
  | .bridge label =>
    ((machine config).step state.bridge label).map fun bridge => { state with bridge := bridge }

def owner (state : BridgeState) (conn : Nat) : Option Bytes :=
  match state.input conn with
  | some (.connect owner _) => some owner
  | _ => none

/-- **A signal stays with the terminals of its license.** -/
structure Isolated (config : Config) (state : BridgeState) : Prop where
  /-- It is written to a connection of its license only. -/
  written : ∀ (index : Nat) (msg : Delivery) (conn : Nat) (out : OutMsg)
    (rest : Option Bytes → Running) (signal : Proto.Signal),
    state.threads[index]? = some ⟨.deliver msg, .call (.write conn out) rest⟩ →
    config.codec.unmarshal msg.data = some signal → owner state conn = some signal.licenseId
  /-- A terminal takes the place of a connection of its own license only. -/
  kept : ∀ (index : Nat) (license : Bytes) (frames : List Bytes) (instanceID : Bytes)
    (rest : Unit → Running) (conn : Nat),
    state.threads[index]? = some ⟨.connect license frames, .call (.register instanceID) rest⟩ →
    state.world.conns instanceID = some conn → owner state conn = some license

/-! ### Tidy runs -/

section Tidy

variable (config : Config)

/-- **The steps of a tidy run.** -/
def isTidy (state : Tenants) : TenantsLabel → Bool
  | .create _ licenseID body => state.portal.isUnshared licenseID body.instanceKey
  | .bridge (.begin (.connect license frames)) =>
    match frames.head?.bind (registration config) with
    | some reg => state.portal.owns license reg.instanceID
    | none => true
  | .bridge (.begin (.deliver msg)) =>
    match config.codec.unmarshal msg.data with
    | some signal => state.portal.owns signal.licenseId signal.instanceId
    | none => true
  | _ => true

def Tidy (state : Tenants) (label : TenantsLabel) : Prop :=
  isTidy config state label = true

instance (state : Tenants) (label : TenantsLabel) : Decidable (Tidy config state label) :=
  inferInstanceAs (Decidable (_ = true))

end Tidy

/-! ### Connections and their licenses -/

section Tenanted

variable {config : Config} {portal : Tables} {state next : BridgeState} {label : BridgeLabel}

def Rightful (config : Config) (portal : Tables) : Input → Prop
  | .connect license frames => ∀ reg, frames.head?.bind (registration config) = some reg →
      portal.owns license reg.instanceID = true
  | .deliver msg => ∀ signal, config.codec.unmarshal msg.data = some signal →
      portal.owns signal.licenseId signal.instanceId = true

def Held (portal : Tables) (state : BridgeState) (instanceID : Bytes) (conn : Nat) : Prop :=
  ∃ license, owner state conn = some license ∧ portal.owns license instanceID = true

/-- **The hub and what was read from it** agree with the tables of the portal. -/
structure Tenanted (config : Config) (state : Tenants) : Prop where
  unshared : ∀ first second key, state.portal.owns first key = true →
    state.portal.owns second key = true → first = second
  rightful : ∀ index input, state.bridge.input index = some input →
    Rightful config state.portal input
  hub : ∀ instanceID conn, state.bridge.world.conns instanceID = some conn →
    Held state.portal state.bridge instanceID conn
  got : ∀ index instanceID conn,
    ⟨.get instanceID, some conn⟩ ∈ state.bridge.log index →
    Held state.portal state.bridge instanceID conn

theorem rightful_of_tidy {state : Tenants} {input : Input}
    (tidy : Tidy config state (.bridge (.begin input))) : Rightful config state.portal input := by
  cases input with
  | connect license frames =>
    intro reg accepted
    simpa [Tidy, isTidy, accepted] using tidy
  | deliver msg =>
    intro signal decodes
    simpa [Tidy, isTidy, decodes] using tidy

theorem held_of_named
    (rightful : ∀ index input, state.input index = some input → Rightful config portal input)
    {instanceID : Bytes} {conn : Nat} (named : Named config state instanceID conn) :
    Held portal state instanceID conn := by
  obtain ⟨license, frames, reg, given, accepted, rfl⟩ := named
  refine ⟨license, ?_, rightful conn _ given reg accepted⟩
  rw [owner, given]

namespace Tenanted

theorem of_rightful {state : Tenants}
    (reached : (machine config).Reached (fun _ _ => True) {} state.bridge)
    (unshared : ∀ first second key, state.portal.owns first key = true →
      state.portal.owns second key = true → first = second)
    (rightful : ∀ index input, state.bridge.input index = some input →
      Rightful config state.portal input) : Tenanted config state := by
  have registered := registered_of_reaches reached
  refine ⟨unshared, rightful, fun instanceID conn found => ?_, fun index instanceID conn member => ?_⟩
  · exact held_of_named rightful (registered.hub instanceID conn found)
  · exact held_of_named rightful (registered.got index instanceID conn member)

theorem create {state : Tenants} {userID : Nat} {licenseID : Option Nat} {body : CreateInstanceIn}
    {next : Tables} (tenanted : Tenanted config state)
    (reached : (machine config).Reached (fun _ _ => True) {} state.bridge)
    (free : state.portal.isUnshared licenseID body.instanceKey = true)
    (created : state.portal.createInstance userID licenseID body = .ok next) :
    Tenanted config { state with portal := next } := by
  refine of_rightful reached (fun _ _ _ first second => ?_) fun index input known => ?_
  · exact Tables.unshared_createInstance created tenanted.unshared free first second
  · have before := tenanted.rightful index input known
    cases input with
    | connect license frames =>
      exact fun reg accepted => Tables.owns_of_createInstance created (before reg accepted)
    | deliver msg =>
      exact fun signal decodes => Tables.owns_of_createInstance created (before signal decodes)

/-- **A step of the bridge.** -/
theorem bridge {state : Tenants} {next : BridgeState} (tenanted : Tenanted config state)
    (reached : (machine config).Reached (fun _ _ => True) {} state.bridge)
    (tidy : Tidy config state (.bridge label))
    (stepped : (machine config).step state.bridge label = some next) :
    Tenanted config { state with bridge := next } := by
  refine of_rightful (Reaches.step reached trivial stepped) tenanted.unshared fun index input known => ?_
  rcases Machine.input_of_step stepped known with old | ⟨rfl, _⟩
  · exact tenanted.rightful index input old
  · exact rightful_of_tidy tidy

end Tenanted

theorem bridge_reached {allowed : Tenants → TenantsLabel → Prop} {state : Tenants}
    (reached : Reaches (Tenants.step config) allowed { portal := portal } state) :
    (machine config).Reached (fun _ _ => True) {} state.bridge := by
  refine reached.invariant Reaches.start ?_
  intro state label next _ before _ stepped
  cases label with
  | create userID licenseID body =>
    simp only [Tenants.step] at stepped
    split at stepped <;> cases stepped <;> exact before
  | bridge label =>
    obtain ⟨bridge, bridgeStepped, rfl⟩ := Option.map_eq_some_iff.mp stepped
    exact Reaches.step before trivial bridgeStepped

/-- **In a tidy run the hub agrees with the portal.** -/
theorem tenanted_of_tidy {state : Tenants} (noInstances : portal.instances = [])
    (reached : Reaches (Tenants.step config) (Tidy config) { portal := portal } state) :
    Tenanted config state := by
  refine reached.invariant ⟨fun first second key owned => ?_, fun index input known => ?_,
    fun _ _ found => ?_, fun _ _ _ member => absurd member List.not_mem_nil⟩ ?_
  · obtain ⟨_, _, _, taken⟩ := Tables.owns_iff.mp owned
    obtain ⟨row, member, _⟩ := Tables.isTaken_iff.mp taken
    rw [noInstances] at member
    exact absurd member List.not_mem_nil
  · cases known
  · cases found
  · intro state label next reached tenanted tidy stepped
    cases label with
    | create userID licenseID body =>
      simp only [Tenants.step] at stepped
      split at stepped
      · rename_i portal created
        cases stepped
        exact tenanted.create (bridge_reached reached) tidy created
      · cases stepped
        exact tenanted
    | bridge label =>
      obtain ⟨bridge, bridgeStepped, rfl⟩ := Option.map_eq_some_iff.mp stepped
      exact tenanted.bridge (bridge_reached reached) tidy bridgeStepped

/-- **In a tidy run signals stay with the terminals of their license.** -/
theorem isolated_of_tidy {state : Tenants} (noInstances : portal.instances = [])
    (reached : Reaches (Tenants.step config) (Tidy config) { portal := portal } state) :
    Isolated config state.bridge := by
  have tenanted := tenanted_of_tidy noInstances reached
  have permitted {index : Nat} {input : Input} {op : Op} {rest : Answer op → Running}
      (running : state.bridge.threads[index]? = some ⟨input, .call op rest⟩) :
      Permitted config input op (state.bridge.log index) ∧ Rightful config state.portal input := by
    refine ⟨((spec_start config input).of_path
      (Machine.path_of_reaches (bridge_reached reached) index _ running)).1,
      tenanted.rightful index input ?_⟩
    rw [Machine.State.input, running]
    rfl
  refine ⟨fun index msg conn out rest signal running decodes => ?_,
    fun index license frames instanceID rest conn running found => ?_⟩
  · obtain ⟨⟨_, same, alsoDecodes, _, got⟩, rightful⟩ := permitted running
    cases decodes.symm.trans alsoDecodes
    obtain ⟨license, owned, owns⟩ := tenanted.got index _ conn got
    rw [owned, tenanted.unshared _ _ _ owns (rightful signal decodes)]
  · obtain ⟨⟨reg, accepted, rfl⟩, rightful⟩ := permitted running
    obtain ⟨other, owned, owns⟩ := tenanted.hub _ conn found
    rw [owned, tenanted.unshared _ _ _ owns (rightful reg accepted)]

end Tenanted

/-! ### Two licenses -/

def twoLicenses : Tables where
  licenses := [⟨1, 1, canonicalSignal.licenseId⟩, ⟨2, 2, lit "60987654321"⟩]
  ids := by decide
  instanceKeys := List.Pairwise.nil

/-- The decoder of the first messages, at the two frames that are sent. -/
def twoTerminals : Config where
  authToken := lit "t0k3n"
  codec := Proto.Codec.standard
  decodeRegister := fun raw =>
    [(registerFrame "mt5-a", lit "mt5-a"), (registerFrame "mt5-b", lit "mt5-b")].lookup raw |>.map
      fun instanceID => { type := lit "register", instanceID := instanceID, token := lit "t0k3n" }
  decodeType := fun _ => none
  decodeFill := fun _ => none

/-- Both licenses get an instance, both terminals register, and a signal of the first license is
delivered, up to the point where it is written to the given connection. -/
def twoTenants (secondKey : String) (conn : Nat) : List TenantsLabel :=
  [.create 1 (some 1) ⟨lit "mt5-a", lit "mt5"⟩, .create 2 (some 2) ⟨lit secondKey, lit "mt5"⟩,
    .bridge (.begin (.connect canonicalSignal.licenseId [registerFrame "mt5-a"]))] ++
  List.replicate 4 (.bridge (.advance 0 (answering conn))) ++
  [.bridge (.begin (.connect (lit "60987654321") [registerFrame secondKey]))] ++
  List.replicate 4 (.bridge (.advance 1 (answering conn))) ++
  [.bridge (.begin (.deliver ⟨1, canonicalSignal.encode, some 1⟩)),
    .bridge (.advance 2 (answering conn))]

/-- With keys of their own both terminals get along. -/
theorem isolated_of_tidy_twoTenants :
    ∃ state, run (restrict (Tenants.step twoTerminals) (Tidy twoTerminals)) { portal := twoLicenses }
        (twoTenants "mt5-b" 0) = some state ∧
      state.bridge.threads.length = 3 ∧ Isolated twoTerminals state.bridge := by
  have ran : (run (restrict (Tenants.step twoTerminals) (Tidy twoTerminals)) { portal := twoLicenses }
      (twoTenants "mt5-b" 0)).any (fun state => state.bridge.threads.length = 3) = true := by
    decide +kernel
  obtain ⟨state, same, three⟩ := (Option.any_eq_true _ _).mp ran
  exact ⟨state, same, of_decide_eq_true three,
    isolated_of_tidy rfl (Reaches.of_restrict _ same)⟩

/-- A signal is about to be written to a terminal of another license. -/
def leaks (config : Config) (state : BridgeState) (index : Nat) : Bool :=
  match state.threads[index]? with
  | some ⟨.deliver msg, .call (.write conn _) _⟩ =>
    match config.codec.unmarshal msg.data with
    | some signal => owner state conn ≠ some signal.licenseId
    | none => false
  | _ => false

theorem not_isolated_of_leaks {config : Config} {state : BridgeState} {index : Nat}
    (leaking : leaks config state index = true) : ¬ Isolated config state := by
  intro isolated
  rw [leaks] at leaking
  split at leaking
  · rename_i msg conn out rest found
    split at leaking
    · rename_i signal decodes
      exact of_decide_eq_true leaking (isolated.written index msg conn out rest signal found decodes)
    · cases leaking
  · cases leaking

/-- **Two licenses with the same instance key.** The portal creates both instances, the terminal of the
second license takes the place of the first one's, whose connection is closed, and the signal of the
first license is written to it. -/
theorem not_isolated_sharedKey :
    ∃ state, run (Tenants.step twoTerminals) { portal := twoLicenses } (twoTenants "mt5-a" 1) =
        some state ∧
      ¬ Isolated twoTerminals state.bridge ∧ state.portal.instances.length = 2 ∧
      owner state.bridge 0 = some canonicalSignal.licenseId ∧ state.bridge.world.closed 0 = true ∧
      owner state.bridge 1 = some (lit "60987654321") ∧
      state.bridge.world.conns canonicalSignal.instanceId = some 1 := by
  have ran : (run (Tenants.step twoTerminals) { portal := twoLicenses } (twoTenants "mt5-a" 1)).any
      (fun state => leaks twoTerminals state.bridge 2 && state.portal.instances.length = 2 &&
        owner state.bridge 0 = some canonicalSignal.licenseId && state.bridge.world.closed 0 &&
        owner state.bridge 1 = some (lit "60987654321") &&
        state.bridge.world.conns canonicalSignal.instanceId = some 1) = true := by decide +kernel
  obtain ⟨state, same, facts⟩ := (Option.any_eq_true _ _).mp ran
  simp only [Bool.and_eq_true, decide_eq_true_eq] at facts
  obtain ⟨⟨⟨⟨⟨leaking, two⟩, first⟩, closed⟩, second⟩, found⟩ := facts
  exact ⟨state, same, not_isolated_of_leaks leaking, two, first, closed, second, found⟩

end ExecRelay.Bridge
