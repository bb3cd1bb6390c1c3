/-
**The relay.**

Ingress publishes to NATS, and what the server has received on the subjects of signals is the stream
that persist and the bridge consume. The three services take their steps in any order. A consumer gets
only what is in the stream, but it may get it at any time and again: the stream delivers at least once.
-/

import ExecRelay.Bridge.Service
import ExecRelay.Ingress.Outage
import ExecRelay.Persist.Service

namespace ExecRelay.Relay

open Lib
open Ingress (NatsState NatsLabel Payload natsBroker signalsStream)
open Bridge (BridgeState BridgeLabel)
open Nats (Delivery Message Outgoing)
open Persist (PersistState PersistLabel)

structure System (Number : Type) where
  ingress : NatsState Number
  persist : PersistState
  bridge : BridgeState

inductive Label
  | ingress (label : NatsLabel)
  | persist (label : PersistLabel)
  | bridge (label : BridgeLabel)

/-- How the three services are set up. -/
structure Setup (Number : Type) where
  limiter : Ingress.Limiter Number
  isFull : List (Outgoing Payload) → Bool
  ingress : Ingress.Config
  hasPool : Bool
  bridge : Bridge.Config

namespace System

variable {Number : Type} (state : System Number)

def stream : List Message :=
  (signalsStream state.ingress.world.network).filterMap fun message =>
    match message.body with
    | .signal data => some ⟨message.subject, data⟩
    | .event _ => none

def isBridgeSubject (subject : Bytes) : Bool :=
  (lit "signals.mt5.").isPrefixOf subject || (lit "signals.mt4.").isPrefixOf subject

def holds (delivery : Delivery) : Bool :=
  match state.stream[delivery.sequence]? with
  | some message => message.data = delivery.data && isBridgeSubject message.subject
  | none => false

def isAvailable : Label → Bool
  | .persist (.begin message) => state.stream.contains message
  | .bridge (.begin (.deliver delivery)) => state.holds delivery
  | _ => true

variable (setup : Setup Number)

def step (label : Label) : Option (System Number) :=
  if state.isAvailable label then
    match label with
    | .ingress label =>
      ((Ingress.machine setup.limiter (natsBroker setup.isFull) setup.ingress).step state.ingress
        label).map fun ingress => { state with ingress := ingress }
    | .persist label =>
      ((Persist.machine setup.hasPool).step state.persist label).map fun persist =>
        { state with persist := persist }
    | .bridge label =>
      ((Bridge.machine setup.bridge).step state.bridge label).map fun bridge =>
        { state with bridge := bridge }
  else none

variable {state setup}

/-- **What a step does to the bridge**: nothing, or a step of the bridge. -/
theorem bridge_step {label : Label} {next : System Number}
    (stepped : state.step setup label = some next) :
    next.bridge = state.bridge ∨
      ∃ own, label = .bridge own ∧ (Bridge.machine setup.bridge).step state.bridge own =
        some next.bridge := by
  unfold step at stepped
  split at stepped
  · cases label with
    | ingress label =>
      obtain ⟨_, _, rfl⟩ := Option.map_eq_some_iff.mp stepped
      exact Or.inl rfl
    | persist label =>
      obtain ⟨_, _, rfl⟩ := Option.map_eq_some_iff.mp stepped
      exact Or.inl rfl
    | bridge label =>
      obtain ⟨_, bridgeStepped, rfl⟩ := Option.map_eq_some_iff.mp stepped
      exact Or.inr ⟨label, rfl, bridgeStepped⟩
  · cases stepped

theorem bridge_reached {allowed : System Number → Label → Prop} {first : System Number}
    {hub : Bridge.Hub}
    (begins : first.bridge = { world := hub })
    (reached : Reaches (fun state => state.step setup) allowed first state) :
    (Bridge.machine setup.bridge).Reached (fun _ _ => True) hub state.bridge := by
  refine reached.invariant (by rw [begins]; exact Reaches.start) ?_
  intro state label next _ before _ stepped
  rcases bridge_step stepped with same | ⟨own, _, bridgeStepped⟩
  · rw [same]
    exact before
  · exact Reaches.step before trivial bridgeStepped

end System

end ExecRelay.Relay
