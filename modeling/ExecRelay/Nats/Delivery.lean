/-
**Messages of JetStream.**

A consumer gets a stored message with the number of times it was delivered, and disposes of it.
-/

import ExecRelay.Lib.Bytes

namespace ExecRelay.Nats

open Lib

/-- A published message. -/
structure Message where
  subject : Bytes
  data : Bytes
deriving DecidableEq, Repr

/-- A message as a consumer gets it: the place of the message in the stream, its data and, if the
metadata can be read, the number of deliveries. -/
structure Delivery where
  sequence : Nat
  data : Bytes
  numDelivered : Option Nat
deriving DecidableEq, Repr

/-- How a consumer disposes of a delivery. -/
inductive Disposal
  | ack
  | nak
  | term
deriving DecidableEq, Repr

/-- The number of deliveries after which both dispatchers give a message up. -/
def maxDeliverBeforeTerm : Nat := 10

/-- The message is given up. -/
def Delivery.isWornOut (delivery : Delivery) : Bool :=
  match delivery.numDelivered with
  | some count => maxDeliverBeforeTerm < count
  | none => false

end ExecRelay.Nats
