/-
**The gate of the networks.**

Without headers of a proxy, the address of the client is what stands before the last colon of
`RemoteAddr`, and `net.ParseIP` reads it. For a peer of IPv4 that is its address again
(`parseIP_string4`). The host of a peer of IPv6 stands in square brackets, which stay with it, and no
address starts with one (`parseIP_bracket`): the gate is closed to IPv6, whatever the networks are
(`admits_iff_isIn`).

`net.ParseIP`, `IP.String` and `net.JoinHostPort` are those of the standard library.
-/

import ExecRelay.Ingress.Handler

namespace ExecRelay.Ingress

open Lib

/-! ### Addresses as texts -/

def appendDecimal (x : UInt8) : Bytes :=
  (if 100 ≤ x then [48 + x / 100] else []) ++ (if 10 ≤ x then [48 + x / 10 % 10] else []) ++ [48 + x % 10]

/-- The text of an address of IPv4. -/
def string4 (a b c d : UInt8) : Bytes :=
  appendDecimal a ++ 46 :: (appendDecimal b ++ 46 :: (appendDecimal c ++ 46 :: appendDecimal d))

def groupsOf : Bytes → List Nat
  | high :: low :: rest => (high.toNat * 256 + low.toNat) :: groupsOf rest
  | _ => []

/-- A group in hexadecimal, without zeros in front. -/
def appendHex (x : Nat) : Bytes :=
  (if 4096 ≤ x then [hexDigit (UInt8.ofNat (x / 4096))] else []) ++
    (if 256 ≤ x then [hexDigit (UInt8.ofNat (x / 256 % 16))] else []) ++
    (if 16 ≤ x then [hexDigit (UInt8.ofNat (x / 16 % 16))] else []) ++ [hexDigit (UInt8.ofNat (x % 16))]

/-- Where the first of the longest runs of at least two zero groups starts, and how long it is. -/
def zeroRun (groups : List Nat) : Option (Nat × Nat) :=
  (List.range groups.length).foldl (fun best start =>
    let run := ((groups.drop start).takeWhile (· = 0)).length
    if 2 ≤ run ∧ (best.map Prod.snd).getD 0 < run then some (start, run) else best) none

/-- The text of an address of IPv6. -/
def string6 (ip : Bytes) : Bytes :=
  let groups := groupsOf ip
  let joined (part : List Nat) : Bytes := [58].intercalate (part.map appendHex)
  match zeroRun groups with
  | none => joined groups
  | some (start, run) => joined (groups.take start) ++ [58, 58] ++ joined (groups.drop (start + run))

/-- The address of a peer. One of IPv6 may have a zone, and is not a form of one of IPv4. -/
inductive Peer
  | ipv4 (a b c d : UInt8)
  | ipv6 (ip zone : Bytes) (sized : ip.length = 16) (proper : to4 ip = none)

namespace Peer

def address : Peer → Bytes
  | ipv4 a b c d => [a, b, c, d]
  | ipv6 ip _ _ _ => ip

def isIPv4 : Peer → Bool
  | ipv4 .. => true
  | ipv6 .. => false

/-- `TCPAddr.String`: the host and the port, with a host that has colons in brackets. -/
def remoteAddr (port : Bytes) : Peer → Bytes
  | ipv4 a b c d => string4 a b c d ++ 58 :: port
  | ipv6 ip zone _ _ =>
    [91] ++ (string6 ip ++ if zone = [] then [] else 37 :: zone) ++ [93] ++ 58 :: port

/-- The peer is in one of the networks. -/
def IsIn (networks : List IPNet) (peer : Peer) : Prop :=
  ∃ network ∈ networks, network.contains peer.address = true

end Peer

/-! ### Texts as addresses -/

/-- The fields of an address of IPv4: the number so far, its digits, and the fields before it. -/
def parseIPv4Fields : Bytes → Nat → Nat → Bytes → Option Bytes
  | [], val, _, fields => if fields.length < 3 then none else some (fields ++ [UInt8.ofNat val])
  | c :: rest, val, digLen, fields =>
    if 48 ≤ c ∧ c ≤ 57 then
      if digLen = 1 ∧ val = 0 then none
      else
        let val := val * 10 + (c - 48).toNat
        if 255 < val then none else parseIPv4Fields rest val (digLen + 1) fields
    else if c = 46 then
      -- a dot in front, behind another or at the end
      if digLen = 0 ∨ rest = [] then none
      else if fields.length = 3 then none
      else parseIPv4Fields rest 0 0 (fields ++ [UInt8.ofNat val])
    else none

/-- A group of one to four hexadecimal digits, and what follows. -/
def hexGroup (s : Bytes) : Option (Nat × Bytes) :=
  let digits := s.takeWhile fun c => (hexValue c).isSome
  if digits.length = 0 ∨ 4 < digits.length then none
  else some (digits.foldl (fun acc c => acc * 16 + ((hexValue c).getD 0).toNat) 0, s.drop digits.length)

/-- The groups of an address of IPv6, so many at most: the bytes so far, and where the ellipsis is. -/
def parseGroups : Nat → Bytes → Option Nat → Bytes → Option (Bytes × Option Nat × Bytes)
  | 0, ip, ellipsis, s => some (ip, ellipsis, s)
  | left + 1, ip, ellipsis, s =>
    match hexGroup s with
    | none => none
    | some (acc, rest) =>
      if rest.head? = some 46 then
        if (ellipsis = none ∧ ip.length ≠ 12) ∨ 16 < ip.length + 4 then none
        else (parseIPv4Fields s 0 0 []).map fun fields => (ip ++ fields, ellipsis, [])
      else
        let ip := ip ++ [UInt8.ofNat (acc / 256), UInt8.ofNat acc]
        match rest with
        | [] => some (ip, ellipsis, [])
        | [58, 58] => if ellipsis.isSome then none else some (ip, some ip.length, [])
        | 58 :: 58 :: more => if ellipsis.isSome then none else parseGroups left ip (some ip.length) more
        | 58 :: c :: more => parseGroups left ip ellipsis (c :: more)
        | _ => none

def parseIPv6 (s : Bytes) : Option Bytes :=
  if s = [58, 58] then some (List.replicate 16 0)
  else
    let parsed := match s with
      | 58 :: 58 :: more => parseGroups 8 [] (some 0) more
      | _ => parseGroups 8 [] none s
    match parsed with
    | some (ip, some place, []) =>
      if ip.length < 16 then some (ip.take place ++ List.replicate (16 - ip.length) 0 ++ ip.drop place)
      else none
    | some (ip, none, []) => if ip.length < 16 then none else some ip
    | _ => none

/-- `net.ParseIP`, in sixteen bytes; an address with a zone is refused. -/
def parseIP (s : Bytes) : Option Bytes :=
  if s.contains 37 then none
  else match s.find? fun c => c = 46 || c = 58 with
    | none => none
    | some c =>
      if c = 46 then (parseIPv4Fields s 0 0 []).map (List.replicate 10 0 ++ [255, 255] ++ ·)
      else parseIPv6 s

example : parseIP (string6 [0x20, 1, 0xd, 0xb8, 0, 0, 0, 0, 0, 0, 0, 0, 0, 0, 0, 1]) =
    some [0x20, 1, 0xd, 0xb8, 0, 0, 0, 0, 0, 0, 0, 0, 0, 0, 0, 1] := by
  decide +kernel

/-! ### What is read back -/

theorem parseIPv4Fields_digit {digit : UInt8} (isDigit : 48 ≤ digit ∧ digit ≤ 57) {val digLen : Nat}
    (lead : ¬(digLen = 1 ∧ val = 0)) (fits : val * 10 + (digit - 48).toNat ≤ 255) (rest fields : Bytes) :
    parseIPv4Fields (digit :: rest) val digLen fields =
      parseIPv4Fields rest (val * 10 + (digit - 48).toNat) (digLen + 1) fields := by
  rw [parseIPv4Fields, if_pos isDigit, if_neg lead]
  exact if_neg (not_lt.mpr fits)

theorem parseIPv4Fields_dot {digLen : Nat} (digits : digLen ≠ 0) {rest : Bytes} (more : rest ≠ [])
    (val : Nat) {fields : Bytes} (few : fields.length ≠ 3) :
    parseIPv4Fields (46 :: rest) val digLen fields =
      parseIPv4Fields rest 0 0 (fields ++ [UInt8.ofNat val]) := by
  rw [parseIPv4Fields, if_neg (by decide), if_pos rfl, if_neg (not_or.mpr ⟨digits, more⟩), if_neg few]

/-- The three digits of a byte, and the byte from them. -/
theorem digits_byte (x : UInt8) :
    (48 ≤ 48 + x / 100 ∧ 48 + x / 100 ≤ 57) ∧ (48 ≤ 48 + x / 10 % 10 ∧ 48 + x / 10 % 10 ≤ 57) ∧
      (48 ≤ 48 + x % 10 ∧ 48 + x % 10 ≤ 57) ∧
      (48 + x / 100 - 48).toNat = x.toNat / 100 ∧ (48 + x / 10 % 10 - 48).toNat = x.toNat / 10 % 10 ∧
      (48 + x % 10 - 48).toNat = x.toNat % 10 :=
  forall_byte x (by decide +kernel)

/-- A byte is read back from its digits, before whatever follows. -/
theorem parseIPv4Fields_appendDecimal (x : UInt8) (rest fields : Bytes) :
    ∃ digLen, digLen ≠ 0 ∧ parseIPv4Fields (appendDecimal x ++ rest) 0 0 fields =
      parseIPv4Fields rest x.toNat digLen fields := by
  obtain ⟨hundreds, tens, ones, first, second, third⟩ := digits_byte x
  have bounded := x.toNat_lt
  have asHundred : 100 ≤ x ↔ 100 ≤ x.toNat := UInt8.le_iff_toNat_le
  have asTen : 10 ≤ x ↔ 10 ≤ x.toNat := UInt8.le_iff_toNat_le
  unfold appendDecimal
  by_cases large : 100 ≤ x
  · have large' := asHundred.mp large
    refine ⟨3, by decide, ?_⟩
    rw [if_pos large, if_pos (asTen.mpr (by omega))]
    simp only [List.cons_append, List.nil_append]
    rw [parseIPv4Fields_digit hundreds (by omega) (by omega),
      parseIPv4Fields_digit tens (by omega) (by omega),
      parseIPv4Fields_digit ones (by omega) (by omega), first, second, third]
    congr 1
    omega
  · have small : x.toNat < 100 := not_le.mp (mt asHundred.mpr large)
    by_cases middle : 10 ≤ x
    · have middle' := asTen.mp middle
      refine ⟨2, by decide, ?_⟩
      rw [if_neg large, if_pos middle]
      simp only [List.cons_append, List.nil_append]
      rw [parseIPv4Fields_digit tens (by omega) (by omega),
        parseIPv4Fields_digit ones (by omega) (by omega), second, third]
      congr 1
      omega
    · have single : x.toNat < 10 := not_le.mp (mt asTen.mpr middle)
      refine ⟨1, by decide, ?_⟩
      rw [if_neg large, if_neg middle]
      simp only [List.cons_append, List.nil_append]
      rw [parseIPv4Fields_digit ones (by omega) (by omega), third]
      congr 1
      omega

/-- A field and the dot behind it. -/
theorem parseIPv4Fields_field (x : UInt8) {rest fields : Bytes} (more : rest ≠ [])
    (few : fields.length ≠ 3) :
    parseIPv4Fields (appendDecimal x ++ 46 :: rest) 0 0 fields =
      parseIPv4Fields rest 0 0 (fields ++ [x]) := by
  obtain ⟨digLen, digits, read⟩ := parseIPv4Fields_appendDecimal x (46 :: rest) fields
  rw [read, parseIPv4Fields_dot digits more _ few, UInt8.ofNat_toNat]

theorem parseIPv4Fields_string4 (a b c d : UInt8) :
    parseIPv4Fields (string4 a b c d) 0 0 [] = some [a, b, c, d] := by
  obtain ⟨digLen, _, read⟩ := parseIPv4Fields_appendDecimal d [] [a, b, c]
  rw [List.append_nil] at read
  rw [string4, parseIPv4Fields_field a (by simp) (by simp), parseIPv4Fields_field b (by simp) (by simp),
    parseIPv4Fields_field c (by simp [appendDecimal]) (by simp)]
  exact read.trans (by simp [parseIPv4Fields])

/-- Digits hold no sign of a zone and no mark of an address. -/
theorem appendDecimal_plain (x : UInt8) :
    37 ∉ appendDecimal x ∧ (appendDecimal x).find? (fun c => c = 46 || c = 58) = none :=
  forall_byte x (by decide +kernel)

/-- **The text of an address of IPv4 is read back.** -/
theorem parseIP_string4 (a b c d : UInt8) :
    parseIP (string4 a b c d) = some (List.replicate 10 0 ++ [255, 255] ++ [a, b, c, d]) := by
  have noZone : (string4 a b c d).contains 37 = false := by
    simp [string4, (appendDecimal_plain _).1]
  have dotted : (string4 a b c d).find? (fun c => c = 46 || c = 58) = some 46 := by
    rw [string4, List.find?_append, (appendDecimal_plain a).2]
    rfl
  rw [parseIP, noZone, dotted, parseIPv4Fields_string4]
  rfl

/-- **No address starts with a bracket.** -/
theorem parseIP_bracket (text : Bytes) : parseIP (91 :: text) = none := by
  have noFields : parseIPv4Fields (91 :: text) 0 0 [] = none := by
    rw [parseIPv4Fields, if_neg (by decide), if_neg (by decide)]
  have noGroup : hexGroup (91 :: text) = none := rfl
  have noGroups : parseIPv6 (91 :: text) = none := by
    simp [parseIPv6, parseGroups, noGroup]
  unfold parseIP
  split
  · rfl
  · split
    · rfl
    · simp [noFields, noGroups]

theorem beforeLast_colon {host port : Bytes} (hosted : host ≠ []) (plain : 58 ∉ port) :
    beforeLast 58 (host ++ 58 :: port) = some host := by
  have skipped : (host ++ 58 :: port).reverse.dropWhile (· ≠ 58) = 58 :: host.reverse := by
    rw [List.reverse_append, List.reverse_cons, List.append_assoc,
      List.dropWhile_append_of_pos fun c held => decide_eq_true ?_]
    · rfl
    · exact fun same : c = 58 => plain (same ▸ List.mem_reverse.mp held)
  unfold beforeLast
  rw [skipped]
  simp [hosted]

/-! ### The gate -/

/-- The step of `gatingPreamble` that looks at the networks. -/
def gateNetworks (config : Config) (wctx : WebhookCtx) (clientAddr : Bytes) : Handling Unit :=
  refuseIf (config.allowedCIDRs ≠ [] && !inNetworks config clientAddr)
    (rejectCode wctx 403 "ip_not_allowed")

theorem gatingPreamble_gateNetworks (config : Config) (r : Request) (wctx : WebhookCtx)
    (clientAddr : Bytes) :
    gatingPreamble config r wctx clientAddr = (do
      refuseIf (r.method ≠ lit "POST") (reject wctx 405 "method_not_allowed"
        (errorFields "method_not_allowed") [(lit "Allow", lit "POST")])
      refuseIf (r.broken || config.maxBodyBytes < r.body.length) (rejectCode wctx 413 "body_too_large")
      refuseIf (config.perimeterToken ≠ [] && r.token ≠ config.perimeterToken)
        (rejectCode (withBody r wctx) 401 "perimeter_rejected")
      let halted ← invoke .loadHalted
      refuseIf halted (rejectCode (withBody r wctx) 503 "trading_halted")
      limitRate config (withBody r wctx) clientAddr
      gateNetworks config (withBody r wctx) clientAddr
      gateTimestamp config r (withBody r wctx)
      return withBody r wctx) :=
  rfl

/-- The gate lets a request through: nothing is answered. -/
def Admits (config : Config) (wctx : WebhookCtx) (r : Request) : Prop :=
  gateNetworks config wctx (clientIP r) = pure ()

theorem admits_iff_inNetworks {config : Config} (gated : config.allowedCIDRs ≠ []) (wctx : WebhookCtx)
    (r : Request) : Admits config wctx r ↔ inNetworks config (clientIP r) = true := by
  unfold Admits gateNetworks refuseIf
  cases inside : inNetworks config (clientIP r) with
  | true => simp
  | false => simp [gated, rejectCode, reject, invoke, Program.perform, bind, Program.bind, pure]

/-- A network has an address of IPv4 in its long form exactly when it has it in its short one. -/
theorem contains_mapped (network : IPNet) (a b c d : UInt8) :
    network.contains (List.replicate 10 0 ++ [255, 255] ++ [a, b, c, d]) =
      network.contains [a, b, c, d] :=
  rfl

section Gate

variable {config : Config} {r : Request} {port : Bytes}

/-- What `clientIP` leaves of the address of the peer. -/
theorem clientIP_remoteAddr (noForward : r.header.get "X-Forwarded-For" = [])
    (noReal : r.header.get "X-Real-IP" = []) {host : Bytes} (hosted : host ≠ []) (plain : 58 ∉ port)
    (addressed : r.remoteAddr = host ++ 58 :: port) : clientIP r = host := by
  simp [clientIP, noForward, noReal, addressed, beforeLast_colon hosted plain]

/-- **The gate and the networks agree on a peer exactly when it is one of IPv4, or in no network.** -/
theorem admits_iff_isIn (parses : config.parseIP = parseIP) (gated : config.allowedCIDRs ≠ [])
    (noForward : r.header.get "X-Forwarded-For" = []) (noReal : r.header.get "X-Real-IP" = [])
    (plain : 58 ∉ port) (peer : Peer) (addressed : r.remoteAddr = peer.remoteAddr port)
    (wctx : WebhookCtx) :
    (Admits config wctx r ↔ peer.IsIn config.allowedCIDRs) ↔
      peer.isIPv4 = true ∨ ¬peer.IsIn config.allowedCIDRs := by
  rw [admits_iff_inNetworks gated]
  cases peer with
  | ipv4 a b c d =>
    have client := clientIP_remoteAddr noForward noReal (by simp [string4, appendDecimal]) plain addressed
    refine iff_of_true ?_ (.inl rfl)
    simp only [inNetworks, client, parses, parseIP_string4, List.any_eq_true, contains_mapped]
    rfl
  | ipv6 ip zone sized proper =>
    have client := clientIP_remoteAddr noForward noReal (by simp) plain addressed
    have outside : inNetworks config (clientIP r) = false := by
      simp [inNetworks, client, parses, parseIP_bracket]
    simp [outside, Peer.isIPv4]

/-- One network, and a peer on its port. -/
def networkConfig (network : IPNet) : Config :=
  { region := lit "eu-west-1", allowedCIDRs := [network], parseIP := parseIP,
    decodeML := fun _ => .error [], formatFloat := fun _ => [], formatFixed := fun _ => [] }

def requestOf (peer : Peer) : Request :=
  { method := lit "POST", path := lit "/hook", remoteAddr := peer.remoteAddr (lit "5555") }

theorem admits_iff_isIn_private :
    (Admits (networkConfig ⟨[10, 0, 0, 0], [255, 0, 0, 0]⟩) ⟨[], [], [], [], [], 200⟩ (requestOf (.ipv4 10 0 0 7)) ↔
      (Peer.ipv4 10 0 0 7).IsIn [⟨[10, 0, 0, 0], [255, 0, 0, 0]⟩]) ↔
    (Peer.ipv4 10 0 0 7).isIPv4 = true ∨ ¬(Peer.ipv4 10 0 0 7).IsIn [⟨[10, 0, 0, 0], [255, 0, 0, 0]⟩] :=
  admits_iff_isIn rfl (by decide) rfl rfl (by decide : 58 ∉ lit "5555") _ rfl _

/-- The loopback of IPv6. -/
def loopback : Peer := .ipv6 (List.replicate 15 0 ++ [1]) [] rfl rfl

/-- A peer on the loopback is refused by a gate that has the loopback alone. -/
theorem not_admits_loopback :
    (requestOf loopback).remoteAddr = lit "[::1]:5555" ∧
      loopback.IsIn [⟨List.replicate 15 0 ++ [1], List.replicate 16 255⟩] ∧
      ¬Admits (networkConfig ⟨List.replicate 15 0 ++ [1], List.replicate 16 255⟩) ⟨[], [], [], [], [], 200⟩
        (requestOf loopback) := by
  refine ⟨by decide +kernel, ⟨_, List.mem_singleton_self _, by decide +kernel⟩, ?_⟩
  rw [admits_iff_inNetworks (by decide)]
  decide +kernel

end Gate

end ExecRelay.Ingress
