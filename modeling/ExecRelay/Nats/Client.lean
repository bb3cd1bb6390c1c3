/-
**A client of NATS that reconnects.**

The client of the publisher puts a message into its outgoing buffer and returns no error, also while it
reconnects; it returns an error only if it has no connection at all or its buffer is full. The server
receives what is sent in order, while it can be reached. A connection can break at any time, before or
after the client has noticed it, and what was on the way may be lost then.

A message keeps the number of its sender, so that it can be told from another with the same bytes, and
`attempts` says of every call whether NATS could be reached when it was made. Neither is seen by the
client.
-/

import ExecRelay.Lib.Bytes

namespace ExecRelay.Nats

open Lib

/-- A message in the buffer of the client or at the server. -/
structure Outgoing (Body : Type) where
  sender : Nat
  subject : Bytes
  body : Body

/-- A call of `Publish`. -/
structure Attempt where
  sender : Nat
  subject : Bytes
  /-- NATS could be reached. -/
  up : Bool

/-- The connection of the publisher, as the client sees it. -/
inductive Status
  /-- The publisher was made without a connection. -/
  | missing
  | connected
  | reconnecting
deriving DecidableEq, Repr

structure Network (Body : Type) where
  status : Status := .connected
  /-- The server can be reached, whether or not the client knows. -/
  reachable : Bool := true
  /-- In the buffer of the client, or on the way. -/
  outgoing : List (Outgoing Body) := []
  /-- What the server has received and stored, in the streams of the subjects. -/
  received : List (Outgoing Body) := []
  attempts : List Attempt := []

inductive NetworkChange
  /-- The server can no longer be reached. -/
  | cut
  | restore
  /-- The client notices that the connection is broken. The messages at the given places of the buffer
  are kept; the others are lost. -/
  | lose (keep : Nat → Bool)
  | reconnect
  /-- The server receives the first message. -/
  | receive

namespace Network

variable {Body : Type} (network : Network Body)

def isUp : Bool :=
  network.reachable && network.status = .connected

def kept (keep : Nat → Bool) : List (Outgoing Body) :=
  (network.outgoing.zipIdx.filter fun indexed => keep indexed.2).map Prod.fst

variable (isFull : List (Outgoing Body) → Bool)

/-- The error of `NatsPublisher.Publish`. -/
def publishError : Option Bytes :=
  match network.status with
  | .missing => some (lit "nats publisher is not initialized")
  | .connected => none
  | .reconnecting =>
    if isFull network.outgoing then some (lit "nats: outbound buffer limit exceeded") else none

/-- A message that is taken is in the buffer; one that is refused leaves nothing behind. -/
def publish (sender : Nat) (subject : Bytes) (body : Body) : Network Body :=
  { network with
    outgoing := network.outgoing ++
      if network.publishError isFull = none then [⟨sender, subject, body⟩] else []
    attempts := network.attempts ++ [⟨sender, subject, network.isUp⟩] }

def change : NetworkChange → Option (Network Body)
  | .cut => some { network with reachable := false }
  | .restore => some { network with reachable := true }
  | .lose keep =>
    if network.status = .connected ∧ network.reachable = false then
      some { network with status := .reconnecting, outgoing := network.kept keep }
    else none
  | .reconnect =>
    if network.status = .reconnecting ∧ network.reachable = true then
      some { network with status := .connected }
    else none
  | .receive =>
    match network.outgoing with
    | message :: rest =>
      if network.isUp then
        some { network with outgoing := rest, received := network.received ++ [message] }
      else none
    | [] => none

variable {network isFull}

variable {message : Outgoing Body} {subject : Bytes} {sender : Nat} {body : Body}

theorem mem_publish_outgoing :
    message ∈ (network.publish isFull sender subject body).outgoing ↔
      message ∈ network.outgoing ∨
        (network.publishError isFull = none ∧ message = ⟨sender, subject, body⟩) := by
  rw [publish, List.mem_append]
  split
  · rename_i taken
    simp [taken]
  · rename_i refused
    simp [refused]

theorem mem_publish_attempts {attempt : Attempt} :
    attempt ∈ (network.publish isFull sender subject body).attempts ↔
      attempt ∈ network.attempts ∨ attempt = ⟨sender, subject, network.isUp⟩ := by
  rw [publish, List.mem_append, List.mem_singleton]

variable {keep : Nat → Bool}

theorem mem_kept :
    message ∈ network.kept keep ↔
      ∃ index, (message, index) ∈ network.outgoing.zipIdx ∧ keep index = true := by
  rw [kept, List.mem_map]
  constructor
  · rintro ⟨⟨same, index⟩, inside, rfl⟩
    exact ⟨index, List.mem_filter.mp inside⟩
  · rintro ⟨index, inside, isKept⟩
    exact ⟨(message, index), List.mem_filter.mpr ⟨inside, isKept⟩, rfl⟩

theorem mem_of_mem_kept (member : message ∈ network.kept keep) : message ∈ network.outgoing := by
  obtain ⟨index, inside, _⟩ := mem_kept.mp member
  exact List.fst_mem_of_mem_zipIdx inside

variable {change : NetworkChange} {next : Network Body}

/-- **What a change of the network can do** to its messages: it drops some, or the server receives the
first. -/
theorem change_cases (changed : network.change change = some next) :
    next.attempts = network.attempts ∧
    ((next.received = network.received ∧
        (next.outgoing = network.outgoing ∨
          ∃ keep, change = .lose keep ∧ next.outgoing = network.kept keep)) ∨
      ∃ message, network.outgoing = message :: next.outgoing ∧
        next.received = network.received ++ [message]) := by
  cases change with
  | cut =>
    cases changed
    exact ⟨rfl, Or.inl ⟨rfl, Or.inl rfl⟩⟩
  | restore =>
    cases changed
    exact ⟨rfl, Or.inl ⟨rfl, Or.inl rfl⟩⟩
  | lose keep =>
    simp only [Network.change] at changed
    split at changed
    · cases changed
      exact ⟨rfl, Or.inl ⟨rfl, Or.inr ⟨keep, rfl, rfl⟩⟩⟩
    · cases changed
  | reconnect =>
    simp only [Network.change] at changed
    split at changed
    · cases changed
      exact ⟨rfl, Or.inl ⟨rfl, Or.inl rfl⟩⟩
    · cases changed
  | receive =>
    simp only [Network.change] at changed
    split at changed
    · rename_i message rest first
      split at changed
      · cases changed
        exact ⟨rfl, Or.inr ⟨message, first, rfl⟩⟩
      · cases changed
    · cases changed

theorem mem_of_change (changed : network.change change = some next) (message : Outgoing Body) :
    (message ∈ next.outgoing ++ next.received → message ∈ network.outgoing ++ network.received) ∧
    (message ∈ network.received → message ∈ next.received) := by
  obtain ⟨_, ⟨received, outgoing | ⟨keep, _, outgoing⟩⟩ | ⟨first, outgoing, received⟩⟩ :=
    change_cases changed
  · rw [received, outgoing]
    exact ⟨id, id⟩
  · rw [received, outgoing, List.mem_append, List.mem_append]
    exact ⟨fun member => member.imp_left mem_of_mem_kept, id⟩
  · rw [outgoing, received]
    simp only [List.mem_append, List.mem_cons, List.not_mem_nil, or_false]
    exact ⟨by tauto, Or.inl⟩

theorem mem_change (changed : network.change change = some next)
    (notLost : ∀ keep, change = .lose keep → message ∈ network.outgoing →
      message ∈ network.kept keep) (member : message ∈ network.outgoing ++ network.received) :
    message ∈ next.outgoing ++ next.received := by
  obtain ⟨_, ⟨received, outgoing | ⟨keep, lost, outgoing⟩⟩ | ⟨first, outgoing, received⟩⟩ :=
    change_cases changed
  · rwa [received, outgoing]
  · rw [received, outgoing, List.mem_append]
    exact (List.mem_append.mp member).imp_left (notLost keep lost)
  · rw [outgoing] at member
    rw [received]
    simp only [List.mem_append, List.mem_cons, List.not_mem_nil, or_false] at member ⊢
    tauto

end Network

end ExecRelay.Nats
