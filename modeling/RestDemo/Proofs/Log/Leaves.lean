import RestDemo.Proofs.Limits
import RestDemo.Proofs.Log.Logger

/-!
# The leaves of a logger

An event comes to the leaves of a logger from left to right, until one cannot take it
(`serve_boundLeaves`). So of many events a leaf receives those that it takes and every leaf to its
left does, each once and in their order (`received_flatMap`). What has been taken makes no
difference to what can be taken (`Sink.admits_congr_of_take`).
-/

namespace RestDemo

theorem LogStore.room_append {run : String} {e : Event} {s s' : LogStore}
    (h : s.append run e = .ok s') (other : String) :
    s'.has other ∨ s'.limit ≠ 0 ↔ s.has other ∨ s.limit ≠ 0 := by
  by_cases hlimit : s.limit = 0
  · unfold append at h
    by_cases hrun : s.has run
    · rw [if_pos hrun] at h
      cases h
      have hmem : run ∈ s.runs.names := Table.has_iff_mem_names.1 hrun
      simp only [has, Table.has_iff_mem_names, Table.names_set, if_pos hmem]
    · rw [if_neg hrun, if_pos hlimit] at h
      cases h
  · rw [append_eq_extend (Nat.pos_of_ne_zero hlimit)] at h
    cases h
    simp [hlimit]

namespace Sink

variable {sink : Sink} {e : Event} {o o' : Outputs}

/-- The sink takes the event. -/
def admits (sink : Sink) (e : Event) (o : Outputs) : Bool :=
  (sink.take e o).isOk

theorem admits_of_take (h : sink.take e o = .ok o') : sink.admits e o := by
  rw [admits, h]
  rfl

theorem not_admits_of_take {f : Fault} (h : sink.take e o = .error f) : ¬ sink.admits e o := by
  rw [admits, h]
  exact Bool.false_ne_true

/-- The console takes what has a text. -/
theorem admits_console_iff : console.admits e o ↔ Json.Writable (.object e.fields) := by
  rw [← Event.unwritable_eq_none_iff, admits, take]
  cases h : e.unwritable with
  | none =>
    obtain ⟨c, hc⟩ := Console.tell_of_writable h o.console
    rw [hc]
    exact iff_of_true rfl rfl
  | some f =>
    rw [Console.tell_of_unwritable h]
    exact iff_of_false Bool.false_ne_true (Option.some_ne_none f)

/-- The log of a run takes an event if the run is there or there is room for it. -/
theorem admits_run_iff {store : Nat} {id : String} :
    (run store id).admits e o ↔ (o.logs store).has id ∨ (o.logs store).limit ≠ 0 := by
  rw [admits, take, LogStore.append]
  by_cases hrun : (o.logs store).has id
  · rw [if_pos hrun]
    exact iff_of_true rfl (.inl hrun)
  · by_cases hlimit : (o.logs store).limit = 0
    · rw [if_neg hrun, if_pos hlimit]
      exact iff_of_false Bool.false_ne_true (by simp [hrun, hlimit])
    · rw [if_neg hrun, if_neg hlimit]
      exact iff_of_true rfl (.inr hlimit)

/-- What was taken makes no difference to what is taken later. -/
theorem admits_congr_of_take (h : sink.take e o = .ok o') (sink' : Sink) (e' : Event) :
    sink'.admits e' o' = sink'.admits e' o := by
  rw [Bool.eq_iff_iff]
  cases sink' with
  | console => rw [admits_console_iff, admits_console_iff]
  | record name => exact Iff.rfl
  | run store id =>
    rw [admits_run_iff, admits_run_iff]
    cases sink with
    | console =>
      obtain ⟨c, -, rfl⟩ := ok_of_map h
      rfl
    | record name =>
      cases h
      rfl
    | run store' id' =>
      obtain ⟨logs, hlogs, rfl⟩ := ok_of_map h
      by_cases hstore : store = store'
      · subst hstore
        rw [Outputs.setLogs_logs_self]
        exact LogStore.room_append hlogs id
      · rw [Outputs.setLogs_logs_of_ne _ _ _ hstore]

end Sink

namespace Logger

variable {o : Outputs} {leaves : List (Sink × Table Value)} {sink : Sink} {bound : Table Value}

/-! ## Binding -/

mutual

theorem leaves_bindFields (fields : Table Value) : ∀ l : Logger,
    (l.bindFields fields).leaves = l.leaves.map fun (sink, bound) => (sink, bound.overlay fields)
  | single sink bound => rfl
  | several parts => by
    rw [bindFields, Logger.leaves, Logger.leaves, leavesOfAll_bindAll fields parts]

theorem leavesOfAll_bindAll (fields : Table Value) : ∀ parts : List Logger,
    leavesOfAll (bindAll fields parts) =
      (leavesOfAll parts).map fun (sink, bound) => (sink, bound.overlay fields)
  | [] => rfl
  | l :: ls => by
    rw [bindAll, leavesOfAll, leavesOfAll, leaves_bindFields fields l,
      leavesOfAll_bindAll fields ls, List.map_append]

end

/-- The logger after fields were bound to it, one table after another. -/
def boundBy (binds : List (Table Value)) (l : Logger) : Logger :=
  binds.foldl (fun l fields => l.bindFields fields) l

theorem boundBy_append_singleton (binds : List (Table Value)) (fields : Table Value) (l : Logger) :
    l.boundBy (binds ++ [fields]) = (l.boundBy binds).bindFields fields := by
  rw [boundBy, List.foldl_append]
  rfl

theorem leaves_boundBy (binds : List (Table Value)) (l : Logger) :
    (l.boundBy binds).leaves =
      l.leaves.map fun (sink, bound) => (sink, binds.foldl Table.overlay bound) := by
  induction binds generalizing l with
  | nil => exact (List.map_id' _).symm
  | cons fields binds ih =>
    rw [boundBy, List.foldl_cons, ← boundBy, ih, leaves_bindFields, List.map_map]
    rfl

/-! ## What comes to the leaves -/

/-- An event, and what was bound on the way to the logger that it is told by. -/
structure Message where
  binds : List (Table Value)
  event : Event

/-- A leaf is handed an event. -/
structure Delivery where
  leaf : Nat
  sink : Sink
  event : Event

/-- What there is after a delivery; what cannot be taken changes nothing. -/
def Delivery.give (d : Delivery) (o : Outputs) : Outputs :=
  match d.sink.take d.event o with
  | .ok o => o
  | .error _ => o

namespace Message

/-- The event at a leaf: under what the leaf has from the beginning and what was bound later. -/
def under (m : Message) (bound : Table Value) : Event :=
  { m.event with fields := (m.binds.foldl Table.overlay bound).overlay m.event.fields }

/-- Every one of the leaves takes the event. -/
def passes (m : Message) (leaves : List (Sink × Table Value)) (o : Outputs) : Bool :=
  leaves.all fun (sink, bound) => sink.admits (m.under bound) o

/-- What comes to leaves that are numbered from `n` on, until one cannot take it. -/
def deliveries (m : Message) (o : Outputs) : Nat → List (Sink × Table Value) → List Delivery
  | _, [] => []
  | n, (sink, bound) :: rest =>
    if sink.admits (m.under bound) o then ⟨n, sink, m.under bound⟩ :: m.deliveries o (n + 1) rest
    else []

variable {m : Message}

theorem deliveries_congr {o' : Outputs} (h : ∀ (sink : Sink) e, sink.admits e o' = sink.admits e o)
    (n : Nat) (leaves : List (Sink × Table Value)) :
    m.deliveries o' n leaves = m.deliveries o n leaves := by
  induction leaves generalizing n with
  | nil => rfl
  | cons leaf rest ih => rw [deliveries, deliveries, h, ih]

theorem passes_cons (m : Message) (sink : Sink) (bound : Table Value)
    (rest : List (Sink × Table Value)) (o : Outputs) : m.passes ((sink, bound) :: rest) o =
      (sink.admits (m.under bound) o && m.passes rest o) := rfl

theorem passes_congr {o' : Outputs} (h : ∀ (sink : Sink) e, sink.admits e o' = sink.admits e o)
    (leaves : List (Sink × Table Value)) : m.passes leaves o' = m.passes leaves o := by
  simp only [passes, h]

theorem passes_take_succ {i : Nat} (hleaf : leaves[i]? = some (sink, bound)) :
    m.passes (leaves.take (i + 1)) o = (m.passes (leaves.take i) o && sink.admits (m.under bound) o) := by
  rw [passes, List.take_add_one, hleaf, List.all_append]
  simp [passes]

theorem le_leaf_of_mem_deliveries {n : Nat} {d : Delivery} (h : d ∈ m.deliveries o n leaves) :
    n ≤ d.leaf := by
  induction leaves generalizing n with
  | nil => cases h
  | cons leaf rest ih =>
    rw [deliveries] at h
    split at h
    · rcases List.mem_cons.1 h with rfl | h
      · exact Nat.le_refl n
      · exact Nat.le_of_succ_le (ih h)
    · cases h

/-- Within one event the leaves are served from left to right. -/
theorem pairwise_deliveries (m : Message) (o : Outputs) (n : Nat)
    (leaves : List (Sink × Table Value)) :
    (m.deliveries o n leaves).Pairwise fun d d' => d.leaf < d'.leaf := by
  induction leaves generalizing n with
  | nil => exact .nil
  | cons leaf rest ih =>
    rw [deliveries]
    split
    · exact .cons (fun d hd => le_leaf_of_mem_deliveries hd) (ih (n + 1))
    · exact .nil

end Message

/-- The leaves of a logger under what was bound to it. -/
def boundLeaves (binds : List (Table Value)) (leaves : List (Sink × Table Value)) :
    List (Sink × Table Value) :=
  leaves.map fun (sink, bound) => (sink, binds.foldl Table.overlay bound)

theorem serve_boundLeaves_cons (m : Message) (sink : Sink) (bound : Table Value)
    (rest : List (Sink × Table Value)) (o : Outputs) :
    serve m.event (boundLeaves m.binds ((sink, bound) :: rest)) o =
      match sink.take (m.under bound) o with
      | .ok o => serve m.event (boundLeaves m.binds rest) o
      | .error f => (.error f, o) := rfl

/-- Serving leaves with an event is handing it to them until one cannot take it. -/
theorem serve_boundLeaves (m : Message) (n : Nat) (leaves : List (Sink × Table Value))
    (o : Outputs) : (serve m.event (boundLeaves m.binds leaves) o).2 =
      (m.deliveries o n leaves).foldl (fun o d => d.give o) o := by
  induction leaves generalizing n o with
  | nil => rfl
  | cons leaf rest ih =>
    obtain ⟨sink, bound⟩ := leaf
    rw [serve_boundLeaves_cons, Message.deliveries]
    cases htake : sink.take (m.under bound) o with
    | ok o' =>
      rw [if_pos (Sink.admits_of_take htake), List.foldl_cons, Delivery.give, htake]
      dsimp only
      rw [ih (n + 1) o', Message.deliveries_congr (Sink.admits_congr_of_take htake)]
    | error f =>
      rw [if_neg (Sink.not_admits_of_take htake)]
      rfl

/-- An event has been told just if every leaf takes it. -/
theorem serve_ok_iff (m : Message) (leaves : List (Sink × Table Value)) (o : Outputs) :
    (serve m.event (boundLeaves m.binds leaves) o).1 = .ok () ↔ m.passes leaves o := by
  induction leaves generalizing o with
  | nil => exact iff_of_true rfl rfl
  | cons leaf rest ih =>
    obtain ⟨sink, bound⟩ := leaf
    rw [serve_boundLeaves_cons, Message.passes_cons, Bool.and_eq_true]
    cases htake : sink.take (m.under bound) o with
    | ok o' =>
      dsimp only
      rw [ih o', Message.passes_congr (Sink.admits_congr_of_take htake)]
      exact (and_iff_right (Sink.admits_of_take htake)).symm
    | error f =>
      exact iff_of_false nofun fun h => Sink.not_admits_of_take htake h.1

/-! ## What one leaf receives -/

/-- The events that one leaf is handed. -/
def received (i : Nat) (ds : List Delivery) : List Event :=
  (ds.filter fun d => d.leaf == i).map (·.event)

theorem received_cons (i : Nat) (d : Delivery) (ds : List Delivery) :
    received i (d :: ds) = (if d.leaf = i then [d.event] else []) ++ received i ds := by
  rw [received, received, List.filter_cons]
  by_cases h : d.leaf = i <;> simp [h]

theorem received_append (i : Nat) (ds ds' : List Delivery) :
    received i (ds ++ ds') = received i ds ++ received i ds' := by
  rw [received, List.filter_append, List.map_append]
  rfl

theorem received_eq_nil {i : Nat} {ds : List Delivery} (h : ∀ d ∈ ds, d.leaf ≠ i) :
    received i ds = [] := by
  rw [received, List.filter_eq_nil_iff.2 (by simpa using h), List.map_nil]

/-- A leaf is handed a message once, if it takes it and every leaf to its left does. -/
theorem received_deliveries (m : Message) (o : Outputs) {j : Nat}
    (hleaf : leaves[j]? = some (sink, bound)) (n : Nat) :
    received (n + j) (m.deliveries o n leaves) =
      if m.passes (leaves.take (j + 1)) o then [m.under bound] else [] := by
  induction leaves generalizing n j with
  | nil => cases hleaf
  | cons leaf rest ih =>
    obtain ⟨first, bound'⟩ := leaf
    rw [Message.deliveries, List.take_succ_cons, Message.passes_cons]
    by_cases hadmits : first.admits (m.under bound') o
    · rw [if_pos hadmits, received_cons, hadmits, Bool.true_and]
      cases j with
      | zero =>
        cases hleaf
        have hnone : received n (m.deliveries o (n + 1) rest) = [] :=
          received_eq_nil fun d hd => Nat.ne_of_gt (Message.le_leaf_of_mem_deliveries hd)
        simp [hnone, Message.passes]
      | succ j =>
        have hrest := ih hleaf (n + 1)
        rw [Nat.add_right_comm] at hrest
        rw [if_neg (by simp), List.nil_append]
        exact hrest
    · rw [if_neg hadmits, Bool.eq_false_iff.2 hadmits]
      rfl

/-- So it is handed the messages that it takes and every leaf to its left does, in their order. -/
theorem received_flatMap {i : Nat} (hleaf : leaves[i]? = some (sink, bound)) (ms : List Message)
    (o : Outputs) : received i (ms.flatMap fun m => m.deliveries o 0 leaves) =
      (ms.filter fun m => m.passes (leaves.take (i + 1)) o).map fun m => m.under bound := by
  induction ms with
  | nil => rfl
  | cons m ms ih =>
    have hfirst := received_deliveries m o hleaf 0
    rw [Nat.zero_add] at hfirst
    rw [List.flatMap_cons, received_append, ih, hfirst, List.filter_cons]
    by_cases hpasses : m.passes (leaves.take (i + 1)) o <;> simp [hpasses]

end Logger

end RestDemo
