/-
**Reading from the bridge.**

`WsRead` gathers what the socket gives in a buffer of 64 KiB and returns the payload of the first text or
binary frame in it; pings are answered and pongs dropped on the way. A call goes round a loop: it drains
the buffer (`drain`), looks at the clock, and asks the socket for more. What the peer has sent and the
socket has not given yet is `unread`, and a `Turn` says what clock and socket do in one round, so that
every way to cut the stream is a list of turns.
-/

import ExecRelay.MT4.Frames

namespace ExecRelay.MT4

open Lib Lib.WebSocket

def ibufSize : Nat := 65536
def pbufSize : Nat := 65536

/-- A connection: whether its socket is open, the bytes stored in its buffer, and what it has sent. -/
structure Conn where
  isOpen : Bool
  ibuf : Bytes
  sent : List Bytes

def Conn.close (conn : Conn) : Conn := { conn with isOpen := false }

/-- What a call of `WsRead` comes to: the payload in the buffer of the caller, 0 or -1. Behind a write
outside of an array nothing is known. -/
inductive Outcome
  | payload (bytes : Bytes)
  | nothing
  | dead
  | undefined
deriving DecidableEq

def Outcome.isPayload : Outcome → Bool
  | .payload _ => true
  | _ => false

inductive Drained
  | returned (outcome : Outcome) (conn : Conn)
  | starving (conn : Conn)

/-- The inner loop: it takes frames from the buffer until one is for the caller. Every frame takes a
byte at least, so that the fuel of the length of the buffer lasts. -/
def drain (beyond : Nat → UInt8) (key : Nat → Key) (bufLen : Nat) : Nat → Conn → Drained
  | 0, conn => .starving conn
  | fuel + 1, conn =>
    if conn.ibuf.length < 2 then .starving conn
    else
      match parseFrame (memory conn.ibuf beyond) conn.ibuf.length pbufSize with
      | .overflow => .returned .undefined conn
      | .error => .returned .dead conn.close
      | .more => .starving conn
      | .frame parsed =>
        if parsed.frameLen < 1 ∨ conn.ibuf.length < parsed.frameLen ∨
            parsed.reads.any (fun span => ibufSize < span.start + span.count) then
          .returned .undefined conn
        else
          let conn := { conn with ibuf := conn.ibuf.drop parsed.frameLen.toNat }
          if parsed.opcode = 8 then .returned .dead conn.close
          else if parsed.opcode = 9 then
            let pong := pongBytes (key conn.sent.length) parsed.payload
            if pong.length ≤ pongArray then
              drain beyond key bufLen fuel { conn with sent := conn.sent ++ [pong] }
            else
              .returned .undefined conn
          else if parsed.opcode = 10 then drain beyond key bufLen fuel conn
          else .returned (.payload (parsed.payload.take bufLen)) conn

inductive Recv
  | data (bytes : Bytes)
  | closed
  | reset
  | timeout

/-- What the socket does when it is asked: it has some bytes, waits in vain, or is reset. -/
inductive Ready
  | bytes (more : Nat)
  | timeout
  | reset
deriving DecidableEq

/-- `recv`: at most `avail` of the bytes that there are, one at least; and the end of the stream. -/
def receive (unread : Bytes) (avail : Nat) : Ready → Recv × Bytes
  | .bytes more =>
    if unread = [] then (.closed, [])
    else (.data (unread.take (min (more + 1) avail)), unread.drop (min (more + 1) avail))
  | .timeout => (.timeout, unread)
  | .reset => (.reset, unread)

/-- One round of the loop: the reading of the clock, and what the socket does. -/
structure Turn where
  now : Nat
  ready : Ready

structure Call where
  bufLen : Nat
  timeoutMs : Int
  start : Nat

/-- `timeoutMs >= 0 && (int)(deadline - now) <= 0`. -/
def Call.expired (call : Call) (now : Nat) : Bool :=
  0 ≤ call.timeoutMs && toInt ((call.start + call.timeoutMs - now) % 2 ^ 32).toNat ≤ 0

/-- The connection, and what the peer has sent and the socket has not given. -/
structure Link where
  conn : Conn
  unread : Bytes

inductive Round
  | returned (outcome : Outcome) (link : Link)
  | again (link : Link)

section Model

variable (beyond : Nat → UInt8) (key : Nat → Key)

/-- The socket is asked for more. -/
def ask (call : Call) (ready : Ready) (link : Link) : Round :=
  let avail := ibufSize - link.conn.ibuf.length
  if avail = 0 then .returned .dead { link with conn := link.conn.close }
  else
    match receive link.unread avail ready with
    | (.data bytes, unread) =>
      .again ⟨{ link.conn with ibuf := link.conn.ibuf ++ bytes }, unread⟩
    | (.closed, unread) => .returned .dead ⟨link.conn.close, unread⟩
    | (.reset, unread) => .returned .dead ⟨link.conn.close, unread⟩
    | (.timeout, unread) =>
      if call.timeoutMs = 0 then .returned .nothing ⟨link.conn, unread⟩
      else .again ⟨link.conn, unread⟩

/-- One round of the outer loop. -/
def round (call : Call) (turn : Turn) (link : Link) : Round :=
  match drain beyond key call.bufLen (link.conn.ibuf.length + 1) link.conn with
  | .returned outcome conn => .returned outcome ⟨conn, link.unread⟩
  | .starving conn =>
    if call.expired turn.now then .returned .nothing ⟨conn, link.unread⟩
    else ask call turn.ready ⟨conn, link.unread⟩

/-- The outer loop, as long as there are turns. -/
def loop (call : Call) : List Turn → Link → Option (Outcome × Link × List Turn)
  | [], _ => none
  | turn :: turns, link =>
    match round beyond key call turn link with
    | .returned outcome link => some (outcome, link, turns)
    | .again link => loop call turns link

def wsRead (call : Call) (turns : List Turn) (link : Link) : Option (Outcome × Link × List Turn) :=
  if link.conn.isOpen then loop beyond key call turns link
  else some (.dead, link, turns)

/-- Calls one after the other, until one does not return. -/
def wsReads : List Call → List Turn → Link → List Outcome × Link × List Turn
  | [], turns, link => ([], link, turns)
  | call :: calls, turns, link =>
    match wsRead beyond key call turns link with
    | none => ([], link, turns)
    | some (outcome, link, turns) =>
      let (outcomes, rest) := wsReads calls turns link
      (outcome :: outcomes, rest)

end Model

/-! ### The stream -/

/-- The frame is for the caller: text, binary, or the continuation of one. -/
def isData (frame : Frame) : Bool := frame.opcode = 0 || frame.opcode = 1 || frame.opcode = 2

/-- A frame that the library can take: no close frame, and no longer than the buffer of the connection;
a ping that it can answer. Of data the caller is shown what fits the buffer. -/
structure Readable (shown : Frame → Bytes) (bufLen : Nat) (frame : Frame) : Prop where
  kind : isData frame = true ∨ frame.opcode = 9 ∨ frame.opcode = 10
  length : frame.encode.length ≤ ibufSize
  data : isData frame = true → frame.payload.take bufLen = shown frame
  ping : frame.opcode = 9 → frame.payload.length ≤ 14

def stream (frames : List Frame) : Bytes := frames.flatMap Frame.encode

/-- A text of some bytes. -/
def nonempty (bytes : Bytes) : Option Bytes := if bytes = [] then none else some bytes

/-- What the caller is shown of frames. -/
def payloads (shown : Frame → Bytes) (frames : List Frame) : List Bytes :=
  (frames.filter isData).filterMap fun frame => nonempty (shown frame)

/-- The positive results. -/
def positives (outcomes : List Outcome) : List Bytes :=
  outcomes.filterMap fun
    | .payload bytes => nonempty bytes
    | _ => none

/-- **The link holds the frames**: what is stored and what is to come are their bytes, and the socket is
closed only behind them. -/
structure Holds (link : Link) (frames : List Frame) : Prop where
  bytes : link.conn.ibuf ++ link.unread = stream frames
  room : link.conn.ibuf.length ≤ ibufSize
  closed : link.conn.isOpen = false → frames = []

/-- What some calls come to, of the frames that the link held: the positive results are the payloads of
those that it does not hold any more. -/
structure Results (shown : Frame → Bytes) (frames : List Frame) (outcomes : List Outcome) (link : Link)
    (done rest : List Frame) : Prop where
  split : frames = done ++ rest
  holds : Holds link rest
  positive : positives outcomes = payloads shown done
  /-- Every payload that is returned is that of a frame. -/
  counted : outcomes.countP Outcome.isPayload ≤ (done.filter isData).length
  defined : .undefined ∉ outcomes
  dead : .dead ∈ outcomes → rest = []
  waits : outcomes.getLast? = some .nothing → link.unread = [] → rest = []

theorem payloads_append (shown : Frame → Bytes) (front back : List Frame) :
    payloads shown (front ++ back) = payloads shown front ++ payloads shown back := by
  rw [payloads, List.filter_append, List.filterMap_append]
  rfl

theorem positives_cons (outcome : Outcome) (outcomes : List Outcome) :
    positives (outcome :: outcomes) = positives [outcome] ++ positives outcomes := by
  rw [← List.singleton_append, positives, List.filterMap_append]
  rfl

theorem Results.followed {shown : Frame → Bytes} {frames done rest done' rest' : List Frame} {outcome : Outcome}
    {outcomes : List Outcome} {link link' : Link} (first : Results shown frames [outcome] link done rest)
    (others : Results shown rest outcomes link' done' rest') (idle : outcomes = [] → link' = link) :
    Results shown frames (outcome :: outcomes) link' (done ++ done') rest' := by
  have nothingLeft (none : rest = []) : rest' = [] := by
    have split := others.split
    rw [none] at split
    exact (List.append_eq_nil_iff.mp split.symm).2
  refine ⟨?_, others.holds, ?_, ?_, ?_, ?_, fun last => ?_⟩
  · rw [first.split, others.split, List.append_assoc]
  · rw [positives_cons, first.positive, others.positive, payloads_append]
  · rw [← List.singleton_append, List.countP_append, List.filter_append, List.length_append]
    exact Nat.add_le_add first.counted others.counted
  · rw [List.mem_cons]
    rintro (here | later)
    · exact first.defined (here ▸ List.mem_singleton_self _)
    · exact others.defined later
  · rw [List.mem_cons]
    rintro (here | later)
    · exact nothingLeft (first.dead (here ▸ List.mem_singleton_self _))
    · exact others.dead later
  · cases outcomes with
    | nil =>
      rw [idle rfl]
      exact fun ended => nothingLeft (first.waits last ended)
    | cons next later => exact others.waits (by rwa [List.getLast?_cons_cons] at last)

section Reading

variable (beyond : Nat → UInt8) (key : Nat → Key) {shown : Frame → Bytes} {bufLen : Nat}

/-! ### Draining the buffer -/

theorem split_stream {ibuf unread : Bytes} {frame : Frame} {later : List Frame}
    (holds : ibuf ++ unread = stream (frame :: later)) :
    (∃ rest, ibuf = frame.encode ++ rest ∧ rest ++ unread = stream later) ∨
      ∃ back, frame.encode = ibuf ++ back ∧ back ≠ [] := by
  rw [stream, List.flatMap_cons, List.append_eq_append_iff] at holds
  rcases holds with ⟨back, whole, _⟩ | ⟨rest, whole, others⟩
  · by_cases none : back = []
    · subst none
      exact .inl ⟨[], by simpa using whole.symm, by simpa [stream] using by assumption⟩
    · exact .inr ⟨back, whole, none⟩
  · exact .inl ⟨rest, whole, others.symm⟩

theorem two_le_length_encode (frame : Frame) : 2 ≤ frame.encode.length := by
  rw [frame.length_encode, WebSocket.Header.size]
  omega

theorem parseFrame_front {frame : Frame} (allowed : Readable shown bufLen frame) (rest : Bytes) :
    ∃ parsed, parseFrame (memory (frame.encode ++ rest) beyond) (frame.encode ++ rest).length pbufSize =
      .frame parsed ∧ parsed.Of frame := by
  have length := allowed.length
  have payload := frame.length_encode
  rw [ibufSize] at length
  exact parseFrame_of_decode (decode_iff.mpr rfl) (by omega) (by rw [pbufSize]; omega)

theorem drain_front {frame : Frame} (allowed : Readable shown bufLen frame) (rest : Bytes) (fuel : Nat)
    (isOpen : Bool) (sent : List Bytes) :
    (isData frame = true ∧ drain beyond key bufLen (fuel + 1) ⟨isOpen, frame.encode ++ rest, sent⟩ =
      .returned (.payload (shown frame)) ⟨isOpen, rest, sent⟩) ∨
    (isData frame = false ∧ ∃ pongs,
      drain beyond key bufLen (fuel + 1) ⟨isOpen, frame.encode ++ rest, sent⟩ =
        drain beyond key bufLen fuel ⟨isOpen, rest, sent ++ pongs⟩) := by
  obtain ⟨parsed, parses, of_⟩ := parseFrame_front beyond allowed rest
  have two := two_le_length_encode frame
  have most := allowed.length
  have sane : ¬ (parsed.frameLen < 1 ∨ (frame.encode ++ rest).length < parsed.frameLen ∨
      parsed.reads.any (fun span => ibufSize < span.start + span.count) = true) := by
    rw [of_.frameLen, List.length_append, List.any_eq_true]
    rintro (less | more | ⟨span, member, outside⟩)
    · omega
    · omega
    · have inside := of_.reads span member
      rw [decide_eq_true_eq] at outside
      omega
  have taken : (frame.encode ++ rest).drop parsed.frameLen.toNat = rest := by
    rw [of_.frameLen, Int.toNat_natCast]
    exact List.drop_left
  rw [drain, if_neg (by simp only [List.length_append]; omega)]
  simp only [parses]
  rw [if_neg sane, taken, of_.opcode, of_.payload_eq]
  rcases allowed.kind with data | ping | pong
  · refine .inl ⟨data, ?_⟩
    rw [allowed.data data]
    simp only [isData, Bool.or_eq_true, decide_eq_true_eq] at data
    rcases data with (same | same) | same <;> rw [same] <;> rfl
  · have few := allowed.ping ping
    refine .inr ⟨by simp [isData, ping], [pongBytes (key sent.length) frame.payload], ?_⟩
    rw [ping, if_neg (by decide), if_pos rfl, if_pos]
    rw [length_pongBytes _ (by omega), pongArray]
    omega
  · refine .inr ⟨by simp [isData, pong], [], ?_⟩
    rw [pong, if_neg (by decide), if_neg (by decide), if_pos rfl, List.append_nil]

theorem drain_prefix {frame : Frame} (allowed : Readable shown bufLen frame) {conn : Conn} {back : Bytes}
    (split : frame.encode = conn.ibuf ++ back) (proper : back ≠ []) (fuel : Nat) :
    drain beyond key bufLen fuel conn = .starving conn := by
  cases fuel with
  | zero => rfl
  | succ fuel =>
    have small : frame.encode.length < 2 ^ 31 := by
      have length := allowed.length
      rw [ibufSize] at length
      omega
    rw [drain, parseFrame_of_proper split proper small]
    split_ifs <;> rfl

/-- **What the buffer gives**: the frames of its stream up to the first for the caller, as far as they
are whole. -/
theorem drain_spec {unread : Bytes} {todo : List Frame} (allowed : ∀ frame ∈ todo, Readable shown bufLen frame)
    {conn : Conn} (holds : conn.ibuf ++ unread = stream todo) {fuel : Nat}
    (enough : conn.ibuf.length < fuel) :
    ∃ conn' done rest, todo = done ++ rest ∧ conn'.isOpen = conn.isOpen ∧
      conn'.ibuf.length ≤ conn.ibuf.length ∧ conn'.ibuf ++ unread = stream rest ∧
      ((drain beyond key bufLen fuel conn = .starving conn' ∧ payloads shown done = [] ∧
          ∀ frame later, rest = frame :: later → conn'.ibuf.length < frame.encode.length) ∨
        ∃ payload, drain beyond key bufLen fuel conn = .returned (.payload payload) conn' ∧
          payloads shown done = (nonempty payload).toList ∧ 1 ≤ (done.filter isData).length) := by
  induction todo generalizing conn fuel with
  | nil =>
    have empty : conn.ibuf = [] := (List.append_eq_nil_iff.mp holds).1
    refine ⟨conn, [], [], rfl, rfl, Nat.le_refl _, holds, .inl ⟨?_, rfl, fun _ _ impossible => ?_⟩⟩
    · obtain ⟨fuel, rfl⟩ := Nat.exists_eq_succ_of_ne_zero (by omega : fuel ≠ 0)
      rw [drain, if_pos (by rw [empty]; decide)]
    · cases impossible
  | cons frame later ih =>
    have allowedHere := allowed frame List.mem_cons_self
    obtain ⟨fuel, rfl⟩ := Nat.exists_eq_succ_of_ne_zero (by omega : fuel ≠ 0)
    rcases split_stream holds with ⟨behind, whole, others⟩ | ⟨back, whole, proper⟩
    · obtain ⟨isOpen, ibuf, sent⟩ := conn
      obtain rfl : ibuf = frame.encode ++ behind := whole
      have shorter : behind.length < (frame.encode ++ behind).length := by
        have := two_le_length_encode frame
        rw [List.length_append]
        omega
      rcases drain_front beyond key allowedHere behind fuel isOpen sent with
        ⟨data, returns⟩ | ⟨control, pongs, goesOn⟩
      · refine ⟨⟨isOpen, behind, sent⟩, [frame], later, rfl, rfl, Nat.le_of_lt shorter, others,
          .inr ⟨_, returns, ?_, by simp [data]⟩⟩
        cases shows : nonempty (shown frame) <;> simp [payloads, data, shows]
      · obtain ⟨conn', done, rest, split, open_, less, stays, ends⟩ :=
          @ih (fun other member => allowed other (List.mem_cons_of_mem _ member))
            ⟨isOpen, behind, sent ++ pongs⟩ others fuel (Nat.lt_of_lt_of_le shorter (Nat.le_of_lt_succ enough))
        have skipped : payloads shown (frame :: done) = payloads shown done := by simp [payloads, control]
        have uncounted : (frame :: done).filter isData = done.filter isData :=
          List.filter_cons_of_neg (by simp [control])
        refine ⟨conn', frame :: done, rest, by rw [split]; rfl, open_, Nat.le_trans less (Nat.le_of_lt shorter), stays, ?_⟩
        rw [goesOn, skipped, uncounted]
        exact ends
    · refine ⟨conn, [], frame :: later, rfl, rfl, Nat.le_refl _, holds, .inl ⟨?_, rfl, ?_⟩⟩
      · exact drain_prefix beyond key allowedHere whole proper _
      · rintro _ _ ⟨⟩
        have more := List.length_pos_iff.mpr proper
        rw [whole, List.length_append]
        omega

/-! ### One round -/

/-- A buffer with no whole frame, and nothing to come: then there is no frame. -/
theorem eq_nil_of_starving {ibuf unread : Bytes} {rest : List Frame} (bytes : ibuf ++ unread = stream rest)
    (starving : ∀ frame later, rest = frame :: later → ibuf.length < frame.encode.length)
    (ended : unread = []) : rest = [] := by
  cases rest with
  | nil => rfl
  | cons frame later =>
    have less := starving frame later rfl
    rw [ended, List.append_nil] at bytes
    rw [bytes, stream, List.flatMap_cons, List.length_append] at less
    omega

/-- **The socket is asked** where the buffer has no whole frame: more of the stream is stored, or all of
it has come. -/
theorem ask_keeps {call : Call} (positive : 0 < call.timeoutMs) {ready : Ready} (live : ready ≠ .reset)
    {link : Link} {rest : List Frame} (holds : Holds link rest) (isOpen : link.conn.isOpen = true)
    (allowed : ∀ frame ∈ rest, Readable shown bufLen frame)
    (starving : ∀ frame later, rest = frame :: later → link.conn.ibuf.length < frame.encode.length) :
    (∃ link', ask call ready link = .again link' ∧ Holds link' rest ∧ link'.conn.isOpen = true) ∨
      ∃ link', ask call ready link = .returned .dead link' ∧ Holds link' rest ∧ rest = [] := by
  have avail : ibufSize - link.conn.ibuf.length ≠ 0 := by
    cases rest with
    | nil =>
      have empty : link.conn.ibuf = [] := (List.append_eq_nil_iff.mp holds.bytes).1
      rw [empty]
      decide
    | cons frame later =>
      have less := starving frame later rfl
      have most := (allowed frame List.mem_cons_self).length
      omega
  rw [ask]
  simp only [avail, if_false]
  cases ready with
  | bytes more =>
    rw [receive]
    by_cases ended : link.unread = []
    · have none := eq_nil_of_starving holds.bytes starving ended
      rw [if_pos ended]
      exact .inr ⟨_, rfl, ⟨ended ▸ holds.bytes, holds.room, fun _ => none⟩, none⟩
    · rw [if_neg ended]
      refine .inl ⟨_, rfl, ⟨?_, ?_, fun closed => ?_⟩, isOpen⟩
      · simpa [List.append_assoc] using holds.bytes
      · simp only [List.length_append, List.length_take]
        omega
      · rw [show link.conn.isOpen = false from closed] at isOpen
        cases isOpen
  | timeout =>
    rw [receive]
    simp only [show call.timeoutMs ≠ 0 by omega, if_false]
    exact .inl ⟨_, rfl, holds, isOpen⟩
  | reset => exact absurd rfl live

/-- **One round** stores more of the stream, or it returns what the stream has next. -/
theorem round_keeps {call : Call} (positive : 0 < call.timeoutMs) {turn : Turn}
    (live : turn.ready ≠ .reset) {link : Link} {todo : List Frame} (holds : Holds link todo)
    (isOpen : link.conn.isOpen = true) (allowed : ∀ frame ∈ todo, Readable shown call.bufLen frame) :
    ∃ done rest, todo = done ++ rest ∧
      ((∃ link', round beyond key call turn link = .again link' ∧ Holds link' rest ∧
          link'.conn.isOpen = true ∧ payloads shown done = []) ∨
        ∃ outcome link', round beyond key call turn link = .returned outcome link' ∧
          Results shown todo [outcome] link' done rest) := by
  obtain ⟨conn', done, rest, split, open_, less, bytes, ends⟩ := drain_spec beyond key allowed holds.bytes
    (Nat.lt_succ_self _)
  have stays : Holds ⟨conn', link.unread⟩ rest := by
    refine ⟨bytes, Nat.le_trans less holds.room, fun closed => ?_⟩
    rw [show conn'.isOpen = true from open_.trans isOpen] at closed
    cases closed
  have others : ∀ frame ∈ rest, Readable shown call.bufLen frame := fun frame member =>
    allowed frame (split ▸ List.mem_append_right _ member)
  refine ⟨done, rest, split, ?_⟩
  rw [round]
  rcases ends with ⟨starves, none, proper⟩ | ⟨payload, returns, one, taken⟩
  · simp only [starves]
    split_ifs with late
    · exact .inr ⟨_, _, rfl, split, stays, none.symm, Nat.zero_le _, by simp, by simp,
        fun _ => eq_nil_of_starving bytes proper⟩
    · rcases ask_keeps positive live stays (open_.trans isOpen) others proper with
        ⟨link', asks, holds', isOpen'⟩ | ⟨link', asks, holds', ended⟩
      · exact .inl ⟨link', asks, holds', isOpen', none⟩
      · exact .inr ⟨_, link', asks, split, holds', none.symm, Nat.zero_le _, by simp, fun _ => ended, by simp⟩
  · simp only [returns]
    refine .inr ⟨_, _, rfl, split, stays, ?_, taken, by simp, by simp, by simp⟩
    cases shows : nonempty payload <;> simp [positives, one, shows]

/-! ### Calls -/

/-- **One call** returns what the stream has next. -/
theorem loop_keeps {call : Call} (positive : 0 < call.timeoutMs) {turns left : List Turn}
    (live : ∀ turn ∈ turns, turn.ready ≠ .reset) {link link' : Link} {todo : List Frame}
    (holds : Holds link todo) (isOpen : link.conn.isOpen = true)
    (allowed : ∀ frame ∈ todo, Readable shown call.bufLen frame) {outcome : Outcome}
    (returns : loop beyond key call turns link = some (outcome, link', left)) :
    (∃ done rest, Results shown todo [outcome] link' done rest) ∧ left ⊆ turns := by
  induction turns generalizing link todo with
  | nil => cases returns
  | cons turn turns ih =>
    obtain ⟨done, rest, split, ⟨next, goesOn, holds', isOpen', none⟩ | ⟨other, last, ends, results⟩⟩ :=
      round_keeps beyond key positive (live turn List.mem_cons_self) holds isOpen allowed
    · rw [loop, goesOn] at returns
      have others : ∀ frame ∈ rest, Readable shown call.bufLen frame := fun frame member =>
        allowed frame (split ▸ List.mem_append_right _ member)
      obtain ⟨⟨done', rest', results⟩, inside⟩ :=
        ih (fun turn member => live turn (List.mem_cons_of_mem _ member)) holds' isOpen' others returns
      refine ⟨⟨done ++ done', rest', ?_, results.holds, ?_, ?_, results.defined, results.dead,
        results.waits⟩, fun turn member => List.mem_cons_of_mem _ (inside member)⟩
      · rw [split, results.split, List.append_assoc]
      · rw [payloads_append, none, List.nil_append, results.positive]
      · rw [List.filter_append, List.length_append]
        exact Nat.le_add_left_of_le results.counted
    · rw [loop, ends] at returns
      cases returns
      exact ⟨⟨done, rest, results⟩, fun turn member => List.mem_cons_of_mem _ member⟩

theorem wsRead_keeps {call : Call} (positive : 0 < call.timeoutMs) {turns left : List Turn}
    (live : ∀ turn ∈ turns, turn.ready ≠ .reset) {link link' : Link} {todo : List Frame}
    (holds : Holds link todo) (allowed : ∀ frame ∈ todo, Readable shown call.bufLen frame) {outcome : Outcome}
    (returns : wsRead beyond key call turns link = some (outcome, link', left)) :
    (∃ done rest, Results shown todo [outcome] link' done rest) ∧ left ⊆ turns := by
  rw [wsRead] at returns
  split_ifs at returns with isOpen
  · exact loop_keeps beyond key positive live holds isOpen allowed returns
  · cases returns
    have none := holds.closed (Bool.not_eq_true _ ▸ isOpen)
    exact ⟨⟨[], todo, rfl, holds, rfl, Nat.zero_le _, by simp, fun _ => none, by simp⟩, List.Subset.refl _⟩

theorem wsReads_idle {calls : List Call} {turns : List Turn} {link : Link}
    (none : (wsReads beyond key calls turns link).1 = []) :
    (wsReads beyond key calls turns link).2.1 = link := by
  cases calls with
  | nil => rfl
  | cons call calls =>
    rw [wsReads] at none ⊢
    cases returns : wsRead beyond key call turns link with
    | none => rfl
    | some result =>
      rw [returns] at none
      cases none

/-- **Calls one after the other** return what the stream has, in order. -/
theorem wsReads_keeps {calls : List Call} (positive : ∀ call ∈ calls, 0 < call.timeoutMs)
    {turns : List Turn} (live : ∀ turn ∈ turns, turn.ready ≠ .reset) {link : Link} {todo : List Frame}
    (holds : Holds link todo) (allowed : ∀ call ∈ calls, ∀ frame ∈ todo, Readable shown call.bufLen frame) :
    ∃ done rest, Results shown todo (wsReads beyond key calls turns link).1
      (wsReads beyond key calls turns link).2.1 done rest := by
  induction calls generalizing turns link todo with
  | nil =>
    exact ⟨[], todo, rfl, holds, rfl, Nat.zero_le _, by simp [wsReads], by simp [wsReads], by simp [wsReads]⟩
  | cons call calls ih =>
    rw [wsReads]
    cases returns : wsRead beyond key call turns link with
    | none => exact ⟨[], todo, rfl, holds, rfl, Nat.zero_le _, by simp, by simp, by simp⟩
    | some result =>
      obtain ⟨outcome, link', left⟩ := result
      obtain ⟨⟨done, rest, first⟩, inside⟩ := wsRead_keeps beyond key
        (positive call List.mem_cons_self) live holds (allowed call List.mem_cons_self) returns
      obtain ⟨done', rest', others⟩ := @ih
        (fun call member => positive call (List.mem_cons_of_mem _ member)) left
        (fun turn member => live turn (inside member)) link' rest first.holds
        (fun call member frame inRest => allowed call (List.mem_cons_of_mem _ member) frame
          (first.split ▸ List.mem_append_right _ inRest))
      exact ⟨done ++ done', rest', first.followed others (wsReads_idle beyond key)⟩

/-! ### Calls return -/

/-- The socket has something to say. -/
def Ready.speaks : Ready → Bool
  | .bytes _ => true
  | _ => false

def Turn.speaks (turn : Turn) : Bool := turn.ready.speaks

theorem ask_takes {call : Call} {ready : Ready} {link link' : Link}
    (asks : ask call ready link = .again link') :
    link'.unread.length + (if ready.speaks then 1 else 0) ≤ link.unread.length := by
  rw [ask] at asks
  by_cases full : ibufSize - link.conn.ibuf.length = 0
  · simp only [full, if_true] at asks
    cases asks
  · simp only [full, if_false] at asks
    cases ready with
    | bytes more =>
      by_cases ended : link.unread = []
      · simp only [receive, ended, if_true] at asks
        cases asks
      · simp only [receive, ended, if_false, Round.again.injEq] at asks
        have some_ := List.length_pos_iff.mpr ended
        rw [← asks]
        simp only [List.length_drop, Ready.speaks, if_true]
        omega
    | timeout =>
      simp only [receive] at asks
      split_ifs at asks
      cases asks
      exact Nat.le_refl _
    | reset =>
      cases asks

theorem round_takes {call : Call} {turn : Turn} {link link' : Link}
    (goesOn : round beyond key call turn link = .again link') :
    link'.unread.length + (if turn.speaks then 1 else 0) ≤ link.unread.length := by
  rw [round] at goesOn
  cases drained : drain beyond key call.bufLen (link.conn.ibuf.length + 1) link.conn with
  | returned outcome conn =>
    rw [drained] at goesOn
    cases goesOn
  | starving conn =>
    rw [drained] at goesOn
    split_ifs at goesOn
    have takes := ask_takes goesOn
    exact takes

/-- **A call returns** once the socket has spoken more often than there are bytes, if the clock does not
run out before. -/
theorem loop_returns (call : Call) {turns : List Turn} {link : Link}
    (enough : link.unread.length < turns.countP Turn.speaks) :
    (loop beyond key call turns link).isSome := by
  induction turns generalizing link with
  | nil => simp at enough
  | cons turn turns ih =>
    rw [loop]
    cases rounds : round beyond key call turn link with
    | returned outcome link' => rfl
    | again link' =>
      have takes := round_takes beyond key rounds
      rw [List.countP_cons] at enough
      exact ih (by omega)

theorem wsRead_returns (call : Call) {turns : List Turn} {link : Link}
    (enough : link.unread.length < turns.countP Turn.speaks) :
    (wsRead beyond key call turns link).isSome := by
  rw [wsRead]
  split_ifs
  · exact loop_returns beyond key call enough
  · rfl

/-! ### Nothing is left behind -/

theorem drain_ne_nothing (fuel : Nat) (conn conn' : Conn) :
    drain beyond key bufLen fuel conn ≠ .returned .nothing conn' := by
  induction fuel generalizing conn with
  | zero => exact Drained.noConfusion
  | succ fuel ih =>
    rw [drain]
    split_ifs
    · exact Drained.noConfusion
    · cases parseFrame (memory conn.ibuf beyond) conn.ibuf.length pbufSize with
      | frame parsed =>
        dsimp only
        split_ifs <;> first | exact ih _ | simp
      | _ => simp

/-- **A round that returns** takes nothing from the socket, and returns 0 only behind the deadline. -/
theorem round_returned {call : Call} (positive : 0 < call.timeoutMs) {turn : Turn} {link link' : Link}
    {outcome : Outcome} (ends : round beyond key call turn link = .returned outcome link') :
    link'.unread.length ≤ link.unread.length ∧
      (outcome = .nothing → call.expired turn.now = true) := by
  rw [round] at ends
  cases drained : drain beyond key call.bufLen (link.conn.ibuf.length + 1) link.conn with
  | returned other conn =>
    rw [drained] at ends
    cases ends
    exact ⟨Nat.le_refl _, fun none => absurd (none ▸ drained) (drain_ne_nothing beyond key _ _ _)⟩
  | starving conn =>
    rw [drained] at ends
    dsimp only at ends
    split_ifs at ends with late
    · cases ends
      exact ⟨Nat.le_refl _, fun _ => late⟩
    · rw [ask] at ends
      dsimp only at ends
      by_cases full : ibufSize - conn.ibuf.length = 0
      · rw [if_pos full] at ends
        cases ends
        exact ⟨Nat.le_refl _, fun none => by cases none⟩
      · rw [if_neg full] at ends
        cases ready : turn.ready with
        | bytes more =>
          rw [ready, receive] at ends
          by_cases ended : link.unread = []
          · rw [if_pos ended] at ends
            cases ends
            exact ⟨Nat.zero_le _, fun none => by cases none⟩
          · rw [if_neg ended] at ends
            cases ends
        | timeout =>
          rw [ready, receive] at ends
          dsimp only at ends
          rw [if_neg (by omega)] at ends
          cases ends
        | reset =>
          rw [ready, receive] at ends
          cases ends
          exact ⟨Nat.le_refl _, fun none => by cases none⟩

/-- **The rounds of a call**: the socket speaks in them once more at most than there are bytes that it
gives, and a call that returns 0 has met its deadline in one of them. -/
theorem loop_used {call : Call} (positive : 0 < call.timeoutMs) {turns left : List Turn}
    {link link' : Link} {outcome : Outcome}
    (returns : loop beyond key call turns link = some (outcome, link', left)) :
    ∃ used, turns = used ++ left ∧
      link'.unread.length + used.countP Turn.speaks ≤ link.unread.length + 1 ∧
      (outcome = .nothing → 0 < used.countP fun turn => call.expired turn.now) := by
  induction turns generalizing link with
  | nil => cases returns
  | cons turn turns ih =>
    rw [loop] at returns
    cases rounds : round beyond key call turn link with
    | returned other last =>
      rw [rounds] at returns
      cases returns
      obtain ⟨less, late⟩ := round_returned beyond key positive rounds
      refine ⟨[turn], rfl, ?_, fun none => ?_⟩
      · rw [List.countP_singleton]
        split_ifs <;> omega
      · simp [late none]
    | again next =>
      rw [rounds] at returns
      obtain ⟨used, rfl, few, late⟩ := ih returns
      have takes := round_takes beyond key rounds
      refine ⟨turn :: used, rfl, ?_, fun none => ?_⟩
      · rw [List.countP_cons]
        omega
      · rw [List.countP_cons]
        exact Nat.lt_of_lt_of_le (late none) (Nat.le_add_right ..)

/-- **Enough rounds**: if the socket speaks once for every byte and every call, all calls return, and no
more of them return 0 than there are rounds behind a deadline. -/
theorem wsReads_returns {calls : List Call} (positive : ∀ call ∈ calls, 0 < call.timeoutMs)
    {turns : List Turn} {link : Link}
    (enough : link.unread.length + calls.length ≤ turns.countP Turn.speaks) :
    (wsReads beyond key calls turns link).1.length = calls.length ∧
      (wsReads beyond key calls turns link).1.count .nothing ≤
        turns.countP fun turn => calls.any fun call => call.expired turn.now := by
  induction calls generalizing turns link with
  | nil => exact ⟨rfl, Nat.zero_le _⟩
  | cons call calls ih =>
    rw [List.length_cons] at enough
    obtain ⟨⟨outcome, link', left⟩, returns⟩ := Option.isSome_iff_exists.mp
      (wsRead_returns beyond key call (by omega : link.unread.length < turns.countP Turn.speaks))
    obtain ⟨used, rfl, few, late⟩ : ∃ used, turns = used ++ left ∧
        link'.unread.length + used.countP Turn.speaks ≤ link.unread.length + 1 ∧
        (outcome = .nothing → 0 < used.countP fun turn => call.expired turn.now) := by
      rw [wsRead] at returns
      split_ifs at returns
      · exact loop_used beyond key (positive call List.mem_cons_self) returns
      · cases returns
        exact ⟨[], rfl, Nat.le_succ _, fun none => by cases none⟩
    rw [List.countP_append] at enough
    obtain ⟨all, others⟩ := @ih (fun call member => positive call (List.mem_cons_of_mem _ member))
      left link' (by omega)
    rw [wsReads, returns]
    refine ⟨congrArg Nat.succ all, ?_⟩
    have here : [outcome].count .nothing ≤
        used.countP fun turn => (call :: calls).any fun call => call.expired turn.now := by
      by_cases none : outcome = .nothing
      · rw [none, List.count_singleton_self]
        refine Nat.le_trans (late none) ?_
        exact List.countP_mono_left fun turn _ expired => by simp [expired]
      · simp [none]
    have behind : left.countP (fun turn => calls.any fun call => call.expired turn.now) ≤
        left.countP fun turn => (call :: calls).any fun call => call.expired turn.now :=
      List.countP_mono_left fun turn _ expired => by
        rw [List.any_cons, expired, Bool.or_true]
    show ([outcome] ++ (wsReads beyond key calls left link').1).count .nothing ≤ _
    rw [List.count_append, List.countP_append]
    exact Nat.add_le_add here (Nat.le_trans others behind)

end Reading

/-- Without the two ends, an outcome is a payload or nothing. -/
theorem length_outcomes {outcomes : List Outcome} (defined : .undefined ∉ outcomes)
    (alive : .dead ∉ outcomes) :
    outcomes.length = outcomes.countP Outcome.isPayload + outcomes.count .nothing := by
  induction outcomes with
  | nil => rfl
  | cons outcome outcomes ih =>
    rw [List.mem_cons, not_or] at defined alive
    have others := ih defined.2 alive.2
    cases outcome with
    | payload bytes =>
      rw [List.countP_cons_of_pos rfl, List.count_cons_of_ne (by simp), List.length_cons, others]
      omega
    | nothing =>
      rw [List.countP_cons_of_neg (by decide), List.count_cons_self, List.length_cons, others]
      omega
    | dead => exact absurd rfl alive.1
    | undefined => exact absurd rfl defined.1

/-! ### What the caller reads -/

/-- A text or binary frame. -/
def isMessage (frame : Frame) : Bool := frame.opcode = 1 || frame.opcode = 2

/-- The text and binary payloads. -/
def messages (frames : List Frame) : List Bytes := (frames.filter isMessage).map (·.payload)

/-- A frame that a call may meet: text, binary, ping or pong, no longer than the buffer of the
connection; data that fits the buffer of the caller, and a ping that the library can answer. -/
structure Allowed (bufLen : Nat) (frame : Frame) : Prop where
  kind : frame.opcode = 1 ∨ frame.opcode = 2 ∨ frame.opcode = 9 ∨ frame.opcode = 10
  length : frame.encode.length ≤ ibufSize
  data : isMessage frame = true → 1 ≤ frame.payload.length ∧ frame.payload.length ≤ bufLen
  ping : frame.opcode = 9 → frame.payload.length ≤ 14

namespace Allowed

variable {bufLen : Nat} {frame : Frame} (allowed : Allowed bufLen frame)

include allowed

theorem isData_eq : isData frame = isMessage frame := by
  rcases allowed.kind with same | same | same | same <;> simp [isData, isMessage, same]

theorem readable {room : Nat} (enough : bufLen ≤ room) : Readable (·.payload) room frame := by
  refine ⟨?_, allowed.length, fun data => ?_, allowed.ping⟩
  · rcases allowed.kind with same | same | same | same <;> simp [isData, same]
  · have most := (allowed.data (allowed.isData_eq ▸ data)).2
    exact List.take_of_length_le (Nat.le_trans most enough)

end Allowed

theorem payloads_of_allowed {bufLen : Nat} {frames : List Frame}
    (allowed : ∀ frame ∈ frames, Allowed bufLen frame) : payloads (·.payload) frames = messages frames := by
  rw [payloads, messages, List.filter_congr fun frame member => (allowed frame member).isData_eq,
    ← List.filterMap_eq_map]
  refine List.filterMap_congr fun frame member => ?_
  obtain ⟨inFrames, isMessage_⟩ := List.mem_filter.mp member
  exact if_neg (List.length_pos_iff.mp ((allowed frame inFrames).data isMessage_).1)

end ExecRelay.MT4
