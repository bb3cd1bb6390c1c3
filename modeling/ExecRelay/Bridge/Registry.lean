/-
**The hub with its map, its gauge and the connections it closes** (`apps/bridge/internal/bridge/hub.go`).

`Register` and `Unregister` hold the lock from their first to their last line, so that the calls of all
connections are one sequence. In every sequence in which a connection is registered once and
unregistered at most once afterwards (`Proper`), the registry is described by the sequence alone:

* `get_run`: an id is mapped to the connection that registered last under it (`current`), until that
  one is unregistered;
* `closed_of_replaced`: a connection that was replaced has been closed;
* `registry_described`: all of it together.

`toHub_run` connects it with the hub of the service: behind any sequence of calls the hub is what the
other calls see of the registry.
-/

import ExecRelay.Bridge.Hub

namespace ExecRelay.Bridge

open Lib

/-! ### The calls -/

/-- The map, the connections that `Close` was called on, and the gauge of active connections. -/
structure Registry where
  conns : AList fun _ : Bytes => Nat := ∅
  closed : List Nat := []
  eaConnectionsActive : Int := 0

namespace Registry

variable (instanceID : Nat → Bytes) (registry : Registry)

def get (key : Bytes) : Option Nat :=
  registry.conns.lookup key

def register (conn : Nat) : Registry :=
  match registry.get (instanceID conn) with
  | some old =>
    { registry with
      conns := registry.conns.insert (instanceID conn) conn
      closed := registry.closed ++ [old] }
  | none =>
    { registry with
      conns := registry.conns.insert (instanceID conn) conn
      eaConnectionsActive := registry.eaConnectionsActive + 1 }

def unregister (conn : Nat) : Registry :=
  if registry.get (instanceID conn) = some conn then
    { registry with
      conns := registry.conns.erase (instanceID conn)
      eaConnectionsActive := registry.eaConnectionsActive - 1 }
  else registry

end Registry

inductive Call
  | register (conn : Nat)
  | unregister (conn : Nat)
deriving DecidableEq, Repr

section Run

variable (instanceID : Nat → Bytes)

def Registry.step (registry : Registry) : Call → Registry
  | .register conn => registry.register instanceID conn
  | .unregister conn => registry.unregister instanceID conn

def Registry.run (calls : List Call) : Registry :=
  calls.foldl (Registry.step instanceID) {}

/-- A connection is registered once, and unregistered at most once afterwards. -/
structure Proper (calls : List Call) : Prop where
  once : calls.Nodup
  ordered : ∀ front conn back, calls = front ++ .unregister conn :: back → .register conn ∈ front

/-- The connection that registered last under a key. -/
def latest (calls : List Call) (key : Bytes) : Option Nat :=
  calls.reverse.findSome? fun call =>
    match call with
    | .register conn => if instanceID conn = key then some conn else none
    | .unregister _ => none

/-- The connection that should be active under a key. -/
def current (calls : List Call) (key : Bytes) : Option Nat :=
  (latest instanceID calls key).filter fun conn => .unregister conn ∉ calls

/-- A later connection has taken the place of one that was not unregistered before. -/
def Replaced (calls : List Call) (conn : Nat) : Prop :=
  ∃ front middle other back,
    calls = front ++ .register conn :: (middle ++ .register other :: back) ∧
      instanceID other = instanceID conn ∧ .unregister conn ∉ middle

end Run

/-! ### Sequences of calls -/

section Calls

variable {instanceID : Nat → Bytes} {calls : List Call} {call : Call} {conn : Nat} {key : Bytes}

theorem Proper.init (proper : Proper (calls ++ [call])) : Proper calls where
  once := proper.once.sublist (List.sublist_append_left calls [call])
  ordered front conn back same := by
    refine proper.ordered front conn (back ++ [call]) ?_
    rw [same, List.append_assoc, List.cons_append]

theorem Proper.registered_before (proper : Proper calls) (inside : .unregister conn ∈ calls) :
    .register conn ∈ calls := by
  obtain ⟨front, back, same⟩ := List.append_of_mem inside
  rw [same]
  exact List.mem_append_left _ (proper.ordered front conn back same)

/-- A connection that is not unregistered behind its registration is not unregistered at all. -/
theorem Proper.not_unregistered {front middle : List Call}
    (proper : Proper (front ++ .register conn :: middle)) (kept : .unregister conn ∉ middle) :
    Call.unregister conn ∉ front ++ .register conn :: middle := by
  intro inside
  rcases List.mem_append.mp inside with early | late
  · -- it would have been registered twice
    have before : Call.register conn ∈ front := by
      obtain ⟨start, rest, rfl⟩ := List.append_of_mem early
      refine List.mem_append_left _
        (proper.ordered start conn (rest ++ .register conn :: middle) ?_)
      rw [List.append_assoc, List.cons_append]
    exact (List.nodup_append.mp proper.once).2.2 _ before _ (List.mem_cons_self ..) rfl
  · rcases List.mem_cons.mp late with impossible | later
    · cases impossible
    · exact kept later

theorem Proper.last_not_mem (proper : Proper (calls ++ [call])) : call ∉ calls := by
  intro inside
  exact (List.nodup_append.mp proper.once).2.2 _ inside _ (List.mem_singleton_self _) rfl

theorem latest_register : latest instanceID (calls ++ [.register conn]) key =
    if instanceID conn = key then some conn else latest instanceID calls key := by
  unfold latest
  by_cases same : instanceID conn = key <;> simp [same]

theorem latest_unregister :
    latest instanceID (calls ++ [.unregister conn]) key = latest instanceID calls key := by
  unfold latest
  rw [List.reverse_append, List.reverse_singleton, List.singleton_append, List.findSome?_cons]

theorem latest_eq_some (found : latest instanceID calls key = some conn) :
    .register conn ∈ calls ∧ instanceID conn = key := by
  obtain ⟨call, inside, matched⟩ := List.exists_of_findSome?_eq_some found
  cases call with
  | register other =>
    dsimp only at matched
    split at matched
    · cases matched
      exact ⟨List.mem_reverse.mp inside, by assumption⟩
    · cases matched
  | unregister other => cases matched

end Calls

/-! ### The map -/

section Map

variable {instanceID : Nat → Bytes} {calls : List Call} {registry : Registry} {conn : Nat}

theorem run_snoc (call : Call) : Registry.run instanceID (calls ++ [call]) =
    (Registry.run instanceID calls).step instanceID call := by
  rw [Registry.run, List.foldl_append]
  rfl

theorem get_register (key : Bytes) : (registry.register instanceID conn).get key =
    if instanceID conn = key then some conn else registry.get key := by
  have inserted : (registry.register instanceID conn).conns =
      registry.conns.insert (instanceID conn) conn := by
    unfold Registry.register
    split <;> rfl
  rw [Registry.get, inserted]
  by_cases same : instanceID conn = key
  · rw [if_pos same, ← same, AList.lookup_insert]
  · rw [if_neg same, AList.lookup_insert_ne (Ne.symm same), Registry.get]

theorem get_unregister (key : Bytes) : (registry.unregister instanceID conn).get key =
    if instanceID conn = key ∧ registry.get key = some conn then none else registry.get key := by
  unfold Registry.unregister
  split
  · rename_i active
    by_cases same : instanceID conn = key
    · subst same
      rw [if_pos ⟨rfl, active⟩, Registry.get, AList.lookup_erase]
    · rw [if_neg fun both => same both.1, Registry.get, AList.lookup_erase_ne (Ne.symm same),
        Registry.get]
  · rename_i other
    rw [if_neg]
    rintro ⟨rfl, active⟩
    exact other active

/-- **`Get`** returns the connection that registered last, until that one is unregistered. -/
theorem get_run (proper : Proper calls) (key : Bytes) :
    (Registry.run instanceID calls).get key = current instanceID calls key := by
  induction calls using List.reverseRecOn with
  | nil => rfl
  | append_singleton calls call ih =>
    have before := ih proper.init
    rw [run_snoc]
    cases call with
    | register conn =>
      show ((Registry.run instanceID calls).register instanceID conn).get key = _
      rw [get_register, current, latest_register, before, current]
      have first := proper.last_not_mem
      by_cases same : instanceID conn = key
      · -- the connection is new, so it is not unregistered
        have kept : Call.unregister conn ∉ calls := fun inside =>
          first (proper.init.registered_before inside)
        simp [same, kept, Option.filter_some]
      · simp [same]
    | unregister conn =>
      show ((Registry.run instanceID calls).unregister instanceID conn).get key = _
      rw [get_unregister, current, latest_unregister, before, current]
      cases found : latest instanceID calls key with
      | none => simp
      | some last =>
        have ofKey := (latest_eq_some found).2
        by_cases same : last = conn
        · subst same
          have kept := proper.last_not_mem
          simp [ofKey, kept, Option.filter_some]
        · by_cases gone : Call.unregister last ∈ calls <;> simp [same, gone, Option.filter_some]

theorem instanceID_of_get (proper : Proper calls) {key : Bytes}
    (found : (Registry.run instanceID calls).get key = some conn) : instanceID conn = key := by
  rw [get_run proper, current, Option.filter_eq_some_iff] at found
  exact (latest_eq_some found.1).2

/-- **A connection that is not the last one** is unregistered without an effect. -/
theorem unregister_of_superseded (proper : Proper calls)
    (superseded : latest instanceID calls (instanceID conn) ≠ some conn) :
    (Registry.run instanceID calls).unregister instanceID conn = Registry.run instanceID calls := by
  unfold Registry.unregister
  rw [if_neg]
  intro found
  rw [get_run proper, current, Option.filter_eq_some_iff] at found
  exact superseded found.1

/-! ### The gauge -/

section Entries

variable {Key Value : Type} [DecidableEq Key] (entries : AList fun _ : Key => Value)

theorem length_keys_insert_of_some {key : Key} {old : Value} (found : entries.lookup key = some old)
    (value : Value) : (entries.insert key value).keys.length = entries.keys.length := by
  have present : key ∈ entries.keys := AList.lookup_isSome.mp (by rw [found]; rfl)
  have positive := List.length_pos_of_mem present
  rw [AList.keys_insert, List.length_cons, List.length_erase_of_mem present]
  omega

theorem length_keys_insert_of_none {key : Key} (missing : entries.lookup key = none)
    (value : Value) : (entries.insert key value).keys.length = entries.keys.length + 1 := by
  rw [AList.keys_insert, List.length_cons, List.erase_of_not_mem (AList.lookup_eq_none.mp missing)]

theorem length_keys_erase_of_some {key : Key} {old : Value} (found : entries.lookup key = some old) :
    (entries.erase key).keys.length + 1 = entries.keys.length := by
  have present : key ∈ entries.keys := AList.lookup_isSome.mp (by rw [found]; rfl)
  have positive := List.length_pos_of_mem present
  rw [AList.keys_erase, List.length_erase_of_mem present]
  omega

end Entries

/-- **The gauge** is the number of entries, whatever is called. -/
theorem eaConnectionsActive_run (instanceID : Nat → Bytes) (calls : List Call) :
    (Registry.run instanceID calls).eaConnectionsActive =
      (Registry.run instanceID calls).conns.keys.length := by
  induction calls using List.reverseRecOn with
  | nil => rfl
  | append_singleton calls call ih =>
    rw [run_snoc]
    generalize Registry.run instanceID calls = registry at ih
    cases call with
    | register conn =>
      show (registry.register instanceID conn).eaConnectionsActive =
        ((registry.register instanceID conn).conns.keys.length : Int)
      unfold Registry.register
      split
      · rename_i old found
        rw [length_keys_insert_of_some registry.conns found]
        exact ih
      · rename_i found
        rw [length_keys_insert_of_none registry.conns found, Nat.cast_succ]
        exact congrArg (· + 1) ih
    | unregister conn =>
      show (registry.unregister instanceID conn).eaConnectionsActive =
        ((registry.unregister instanceID conn).conns.keys.length : Int)
      unfold Registry.unregister
      split
      · rename_i found
        have fewer := length_keys_erase_of_some registry.conns found
        dsimp only
        omega
      · exact ih

/-! ### Closed connections -/

theorem closed_step (call : Call) {conn : Nat} (closed : conn ∈ registry.closed) :
    conn ∈ (registry.step instanceID call).closed := by
  cases call with
  | register other =>
    show conn ∈ (registry.register instanceID other).closed
    unfold Registry.register
    split
    · exact List.mem_append_left _ closed
    · exact closed
  | unregister other =>
    show conn ∈ (registry.unregister instanceID other).closed
    unfold Registry.unregister
    split <;> exact closed

theorem closed_register {other : Nat} (active : registry.get (instanceID other) = some conn) :
    conn ∈ (registry.register instanceID other).closed := by
  unfold Registry.register
  rw [active]
  exact List.mem_append_right _ (List.mem_singleton_self _)

/-- What comes behind a registration leaves it the last one, or another one has come. -/
theorem latest_or_replaced (instanceID : Nat → Bytes) (conn : Nat) (front middle : List Call) :
    latest instanceID (front ++ .register conn :: middle) (instanceID conn) = some conn ∨
      ∃ other before after, middle = before ++ .register other :: after ∧
        instanceID other = instanceID conn := by
  induction middle using List.reverseRecOn with
  | nil =>
    left
    rw [latest_register, if_pos rfl]
  | append_singleton middle call ih =>
    rcases ih with last | ⟨other, before, after, rfl, same⟩
    · cases call with
      | register other =>
        by_cases same : instanceID other = instanceID conn
        · exact .inr ⟨other, middle, [], rfl, same⟩
        · left
          rw [← List.cons_append, ← List.append_assoc, latest_register, if_neg same]
          exact last
      | unregister other =>
        left
        rw [← List.cons_append, ← List.append_assoc, latest_unregister]
        exact last
    · exact .inr ⟨other, before, after ++ [call], by simp, same⟩

/-- **A connection that was replaced has been closed.** -/
theorem closed_of_replaced (proper : Proper calls) (replaced : Replaced instanceID calls conn) :
    conn ∈ (Registry.run instanceID calls).closed := by
  induction calls using List.reverseRecOn with
  | nil =>
    obtain ⟨front, middle, other, back, same, -⟩ := replaced
    simp at same
  | append_singleton calls call ih =>
    rw [run_snoc]
    obtain ⟨front, middle, other, back, same, sameID, kept⟩ := replaced
    rw [← List.cons_append, ← List.append_assoc] at same
    rcases snoc_eq_append_cons same with ⟨rfl, rfl, rfl⟩ | ⟨rest, rfl, rfl⟩
    · -- the last call is the one that comes later
      rcases latest_or_replaced instanceID conn front middle with isLast | earlier
      · refine closed_register ?_
        rw [sameID, get_run proper.init, current, isLast]
        exact Option.filter_eq_some_iff.mpr
          ⟨rfl, decide_eq_true (proper.init.not_unregistered kept)⟩
      · obtain ⟨first, before, after, rfl, firstID⟩ := earlier
        refine closed_step _ (ih proper.init ⟨front, before, first, after, rfl, firstID, ?_⟩)
        exact fun inside => kept (List.mem_append_left _ inside)
    · refine closed_step _ (ih proper.init ⟨front, middle, other, rest, ?_, sameID, kept⟩)
      rw [List.append_assoc, List.cons_append]

end Map

/-! ### The hub of the service -/

section Service

variable {instanceID : Nat → Bytes} {registry : Registry} {conn : Nat}

/-- What the other calls of the service see of the registry. -/
def Registry.toHub (registry : Registry) : Hub where
  conns := registry.get
  closed := fun conn => conn ∈ registry.closed

theorem toHub_register : (registry.register instanceID conn).toHub =
    registry.toHub.register conn (instanceID conn) := by
  have conns : (registry.register instanceID conn).get = fun key =>
      if key = instanceID conn then some conn else registry.get key := by
    funext key
    rw [get_register]
    exact if_congr eq_comm rfl rfl
  unfold Registry.toHub Hub.register
  rw [conns]
  dsimp only
  cases found : registry.get (instanceID conn) with
  | none => simp [Registry.register, found]
  | some old => simp [Registry.register, found, Hub.close, or_comm]

theorem toHub_unregister : (registry.unregister instanceID conn).toHub =
    registry.toHub.unregister conn (instanceID conn) := by
  unfold Registry.toHub Hub.unregister
  dsimp only
  by_cases found : registry.get (instanceID conn) = some conn
  · have closed : (registry.unregister instanceID conn).closed = registry.closed := by
      rw [Registry.unregister, if_pos found]
    rw [if_pos found, closed]
    congr 1
    funext key
    rw [get_unregister]
    by_cases same : key = instanceID conn
    · rw [if_pos ⟨same.symm, same ▸ found⟩, if_pos same]
    · rw [if_neg fun both => same both.1.symm, if_neg same]
  · rw [if_neg found, Registry.unregister, if_neg found]

def Hub.step (instanceID : Nat → Bytes) (hub : Hub) : Call → Hub
  | .register conn => hub.register conn (instanceID conn)
  | .unregister conn => hub.unregister conn (instanceID conn)

/-- **The hub of the service is the registry**, behind any sequence of calls. -/
theorem toHub_run (instanceID : Nat → Bytes) (calls : List Call) :
    (Registry.run instanceID calls).toHub = calls.foldl (Hub.step instanceID) {} := by
  induction calls using List.reverseRecOn with
  | nil => rfl
  | append_singleton calls call ih =>
    rw [run_snoc, List.foldl_append, ← ih]
    cases call with
    | register conn => exact toHub_register
    | unregister conn => exact toHub_unregister

end Service

/-! ### The description -/

/-- **The registry is described by the calls.** -/
theorem registry_described (instanceID : Nat → Bytes) (calls : List Call) (proper : Proper calls) :
    (Registry.run instanceID calls).eaConnectionsActive =
        (Registry.run instanceID calls).conns.keys.length ∧
      (∀ key conn, (Registry.run instanceID calls).get key = some conn → instanceID conn = key) ∧
      (∀ key, (Registry.run instanceID calls).get key = current instanceID calls key) ∧
      (∀ conn, latest instanceID calls (instanceID conn) ≠ some conn →
        (Registry.run instanceID calls).unregister instanceID conn = Registry.run instanceID calls) ∧
      ∀ conn, Replaced instanceID calls conn → conn ∈ (Registry.run instanceID calls).closed :=
  ⟨eaConnectionsActive_run instanceID calls, fun _ _ found => instanceID_of_get proper found,
    get_run proper, fun _ superseded => unregister_of_superseded proper superseded,
    fun _ replaced => closed_of_replaced proper replaced⟩

/-- A terminal connects again, and its first connection ends: the second one stays. -/
theorem registry_described_reconnect :
    (Registry.run (fun _ => lit "mt5-a") [.register 0, .register 1, .unregister 0]).get (lit "mt5-a") =
        some 1 ∧
      0 ∈ (Registry.run (fun _ => lit "mt5-a") [.register 0, .register 1, .unregister 0]).closed := by
  have proper : Proper [.register 0, .register 1, .unregister 0] := by
    refine ⟨by decide, fun front conn back same => ?_⟩
    rcases front with _ | ⟨first, _ | ⟨second, _ | ⟨third, rest⟩⟩⟩ <;> simp at same
    obtain ⟨rfl, rfl, rfl, rfl⟩ := same
    exact List.mem_cons_self ..
  obtain ⟨-, -, got, -, closed⟩ := registry_described (fun _ => lit "mt5-a") _ proper
  constructor
  · rw [got]
    decide +kernel
  · exact closed 0 ⟨[], [], 1, [.unregister 0], rfl, rfl, List.not_mem_nil⟩

end ExecRelay.Bridge
