/-
**The event of a request.**

Both routes publish one event about every request, whichever way it ends: `recordRequestEvent` is
deferred in front of the body. The body keeps the id of the request, publishes no such event and ends
with the status it has responded with (`Settled`). Then the one event of the request has its id, the
address of the client and the status of the response (`Recorded`).
-/

import ExecRelay.Ingress.Service

namespace ExecRelay.Ingress

open Lib
open Lib.Program (Spec)

abbrev Log := List (Event Op Answer)

/-! ### Events and responses of a log -/

def requestEvent : Event Op Answer → Option RequestEvent
  | ⟨.publishEvent _ (.request event), _⟩ => some event
  | _ => none

def requestEvents (log : Log) : List RequestEvent :=
  log.filterMap requestEvent

def Responded (status : Nat) (log : Log) : Prop :=
  ∃ response, ⟨.respond response, ()⟩ ∈ log ∧ response.status = status

/-- The request has kept its id, was responded to with the status of the recorder, and has no event
yet. -/
structure Settled (requestID : Bytes) (wctx : WebhookCtx) (log : Log) : Prop where
  kept : wctx.requestID = requestID
  responded : Responded wctx.status log
  unrecorded : requestEvents log = []

theorem Responded.append {status : Nat} {log : Log} (responded : Responded status log) (more : Log) :
    Responded status (log ++ more) := by
  obtain ⟨response, member, same⟩ := responded
  exact ⟨response, List.mem_append_left _ member, same⟩

def isSilent : Op → Bool
  | .publishEvent _ (.request _) => false
  | _ => true

theorem requestEvents_snoc {log : Log} {op : Op} (silent : isSilent op = true) (answer : Answer op)
    (none : requestEvents log = []) : requestEvents (log ++ [⟨op, answer⟩]) = [] := by
  have nothing : requestEvent ⟨op, answer⟩ = Option.none := by
    cases op with
    | publishEvent subject event =>
      cases event with
      | request event => cases silent
      | rejection event => rfl
    | _ => rfl
  rw [requestEvents, List.filterMap_append, ← requestEvents, none, List.nil_append,
    List.filterMap_cons_none nothing]
  rfl

theorem Settled.snoc {requestID : Bytes} {wctx : WebhookCtx} {log : Log}
    (settled : Settled requestID wctx log) {op : Op} (silent : isSilent op = true)
    (answer : Answer op) : Settled requestID wctx (log ++ [⟨op, answer⟩]) :=
  ⟨settled.kept, settled.responded.append _, requestEvents_snoc silent answer settled.unrecorded⟩

/-! ### One event -/

def Identified (r : Request) (requestID : Bytes) (log : Log) : Prop :=
  if r.contextRequestID = [] then ⟨.newID, requestID⟩ ∈ log
  else requestID = r.contextRequestID

/-- What the event of a request says. -/
structure Records (r : Request) (log : Log) (event : RequestEvent) : Prop where
  requestID : Identified r event.ctx.requestID log
  clientIP : event.clientIP = clientIP r
  method : event.method = r.method
  path : event.path = r.path
  userAgent : event.userAgent = (r.header.get "User-Agent").take 240
  status : Responded event.ctx.status log
  outcome : event.outcome = outcomeOf event.ctx.status

/-- **A request with one event.** -/
def Recorded (r : Request) (log : Log) : Prop :=
  ∃ event, requestEvents log = [event] ∧ Records r log event

theorem Identified.append {r : Request} {requestID : Bytes} {log : Log}
    (identified : Identified r requestID log) (more : Log) :
    Identified r requestID (log ++ more) := by
  unfold Identified at *
  split
  · rename_i absent
    rw [if_pos absent] at identified
    exact List.mem_append_left _ identified
  · rename_i given
    rw [if_neg given] at identified
    exact identified

/-- **The event of a request that is settled.** -/
theorem recorded_snoc {r : Request} {log : Log} {wctx : WebhookCtx} {requestID subject : Bytes}
    {now : Answer .now} {error : Option Bytes} {event : RequestEvent} (settled : Settled requestID wctx log)
    (identified : Identified r requestID log)
    (about : event.ctx.requestID = wctx.requestID ∧ event.ctx.status = wctx.status ∧
      event.outcome = outcomeOf wctx.status)
    (given : event.clientIP = clientIP r ∧ event.method = r.method ∧ event.path = r.path ∧
      event.userAgent = (r.header.get "User-Agent").take 240) :
    Recorded r (log ++ [⟨.now, now⟩] ++ [⟨.publishEvent subject (.request event), error⟩]) := by
  have silent : requestEvents (log ++ [⟨.now, now⟩]) = [] :=
    requestEvents_snoc rfl now settled.unrecorded
  refine ⟨event, ?_, ?_, given.1, given.2.1, given.2.2.1, given.2.2.2, ?_, ?_⟩
  · rw [requestEvents, List.filterMap_append, ← requestEvents, silent]
    rfl
  · rw [about.1, settled.kept]
    exact (identified.append _).append _
  · rw [about.2.1]
    exact (settled.responded.append _).append _
  · rw [about.2.1, about.2.2]

/-- `obs.Middleware`: the ids of a request are those of its headers; `NewID` makes one that is
missing. -/
def middleware (newID : Bytes) (r : Request) : Request :=
  let rid := trimSpace (r.header.get "X-Request-ID")
  { r with
    contextRequestID := if rid = [] then newID else rid
    contextTraceID := traceIDFromRequest r.header }

def Input.webhookRequest : Input → Option Request
  | .webhook r | .webhookML r => some r
  | .killSwitch _ => none

end ExecRelay.Ingress
