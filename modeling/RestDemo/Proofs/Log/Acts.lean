import RestDemo.Proofs.Log.Leaves
import RestDemo.Proofs.Log.Line

/-!
# Loggers with parts

A logger that hands events on is the product of its sinks. What is told by it, and by the loggers
that are bound from it, comes to its leaves event by event (`runActs_eq`). So a leaf receives what
it would receive if everything was done with it alone, less the events that a leaf to its left
cannot take (`received_handed`), such as a number that is too long for the console
(`runActs_count`).
-/

namespace RestDemo

namespace Logger

variable {o : Outputs} {sink : Sink} {bound : Table Value}

/-! ## Acts -/

/-- Something that is done with one of the loggers there are: to bind fields to it, which makes one
logger more, or to tell an event by it, through the method of a level or at a level that is given as
a word. -/
inductive Act where
  | bind (target : Nat) (fields : Table Value)
  | tell (target : Nat) (level : Level) (name : String) (fields : Table Value)
  | log (target : Nat) (level name : String) (fields : Table Value)

namespace Act

def target : Act → Nat
  | bind target _ | tell target _ _ _ | log target _ _ _ => target

def fields : Act → Table Value
  | bind _ fields | tell _ _ _ fields | log _ _ _ fields => fields

/-- The loggers there are after an act. -/
def loggers (act : Act) (ls : List Logger) : List Logger :=
  match act with
  | bind target fields =>
    match ls[target]? with
    | none => ls
    | some l =>
      match l.bind fields with
      | .ok l => ls ++ [l]
      | .error _ => ls
  | _ => ls

/-- What an act comes to, and what there is after it. Where there is no such logger nothing is
done. -/
def perform (act : Act) (ls : List Logger) (o : Outputs) : Except Fault Unit × Outputs :=
  match ls[act.target]? with
  | none => (.ok (), o)
  | some l =>
    match act with
    | bind _ fields => ((l.bind fields).map fun _ => (), o)
    | tell _ level name fields => l.perform level.word name fields o
    | log _ level name fields => l.log level name fields o

/-- What is bound to each of the loggers there are after an act. -/
def chains (act : Act) (chains : List (List (Table Value))) : List (List (Table Value)) :=
  match act with
  | bind target fields =>
    match chains[target]? with
    | some binds => chains ++ [binds ++ [fields]]
    | none => chains
  | _ => chains

/-- The message that an act sends. -/
def message? (act : Act) (chains : List (List (Table Value))) : Option Message :=
  chains[act.target]?.bind fun binds =>
    match act with
    | bind _ _ => none
    | tell _ level name fields => some ⟨binds, ⟨level, name, fields⟩⟩
    | log _ word name fields =>
      (Level.ofWord? word).map fun level => ⟨binds, ⟨level, name, fields⟩⟩

/-- No field is called as a part of a call is, and the method is that of a level. -/
structure Plain (act : Act) : Prop where
  self : "self" ∉ act.fields.names
  level : "level" ∉ act.fields.names
  event : "event" ∉ act.fields.names
  told : ∀ target level name fields, act = tell target level name fields → level ∈ Level.told

end Act

/-- What there is after acts one after another, whatever they come to. -/
def runActs : List Act → List Logger → Outputs → Outputs
  | [], _, o => o
  | act :: acts, ls, o => runActs acts (act.loggers ls) (act.perform ls o).2

/-- The messages that acts send, from what is bound to the loggers at first. -/
def messages : List Act → List (List (Table Value)) → List Message
  | [], _ => []
  | act :: acts, chains => (act.message? chains).toList ++ messages acts (act.chains chains)

/-- What comes to the leaves of a logger through acts with it and with those bound from it. -/
def handed (tree : Logger) (acts : List Act) (o : Outputs) : List Delivery :=
  (messages acts [[]]).flatMap fun m => m.deliveries o 0 tree.leaves

/-! ## What the acts come to -/

variable {tree : Logger} {act : Act} {chains : List (List (Table Value))}

/-- The loggers that are bound from one logger. -/
def allBoundBy (chains : List (List (Table Value))) (tree : Logger) : List Logger :=
  chains.map fun binds => tree.boundBy binds

theorem getElem?_allBoundBy (i : Nat) :
    (tree.allBoundBy chains)[i]? = chains[i]?.map fun binds => tree.boundBy binds :=
  List.getElem?_map

theorem bind_eq {fields : Table Value} (h : "self" ∉ fields.names) (l : Logger) :
    l.bind fields = .ok (l.bindFields fields) := by
  rw [bind, if_neg (mt Table.has_iff_mem_names.1 h)]

theorem Act.Plain.loggers_eq (h : act.Plain) :
    act.loggers (tree.allBoundBy chains) = tree.allBoundBy (act.chains chains) := by
  cases act with
  | bind target fields =>
    rw [loggers, Act.chains, getElem?_allBoundBy]
    cases chains[target]? with
    | none => rfl
    | some binds =>
      rw [Option.map_some]
      dsimp only
      have hself : "self" ∉ fields.names := h.self
      rw [bind_eq hself, ← boundBy_append_singleton]
      simp [allBoundBy]
  | _ => rfl

theorem emit_boundBy (m : Message) (tree : Logger) (o : Outputs) :
    (tree.boundBy m.binds).emit m.event o = serve m.event (boundLeaves m.binds tree.leaves) o := by
  rw [emit, leaves_boundBy]
  rfl

theorem Act.Plain.perform_tell {target : Nat} {level : Level} {name : String} {fields : Table Value}
    (h : (tell target level name fields).Plain) (l : Logger) (o : Outputs) :
    l.perform level.word name fields o = l.emit ⟨level, name, fields⟩ o := by
  have hself : fields.has "self" = false := Table.has_eq_false h.self
  have hlevel : fields.has "level" = false := Table.has_eq_false h.level
  have hevent : fields.has "event" = false := Table.has_eq_false h.event
  rw [Logger.perform, Level.ofWord?_word (h.told _ _ _ _ rfl)]
  simp [hself, hlevel, hevent]

theorem Act.Plain.log_eq {target : Nat} {word name : String} {fields : Table Value}
    (h : (log target word name fields).Plain) (l : Logger) (o : Outputs) :
    l.log word name fields o = match Level.ofWord? word with
      | some level => l.emit ⟨level, name, fields⟩ o
      | none => (if l.leaves.isEmpty then .ok () else .error (.unknownLevel word), o) := by
  have hself : fields.has "self" = false := Table.has_eq_false h.self
  have hlevel : fields.has "level" = false := Table.has_eq_false h.level
  have hevent : fields.has "event" = false := Table.has_eq_false h.event
  unfold Logger.log
  exact if_neg (by simp [hself, hlevel, hevent])

/-- An act sends its message to the leaves, or else changes nothing. -/
theorem Act.Plain.perform_eq (h : act.Plain) (o : Outputs) :
    (act.perform (tree.allBoundBy chains) o).2 =
      ((act.message? chains).toList.flatMap fun m => m.deliveries o 0 tree.leaves).foldl
        (fun o d => d.give o) o := by
  rw [perform, message?, getElem?_allBoundBy]
  cases hchain : chains[act.target]? with
  | none => rfl
  | some binds =>
    rw [Option.map_some, Option.bind_some]
    have hemit (e : Event) : ((tree.boundBy binds).emit e o).2 =
        ([(⟨binds, e⟩ : Message)].flatMap fun m => m.deliveries o 0 tree.leaves).foldl
          (fun o d => d.give o) o := by
      rw [List.flatMap_singleton]
      exact (congrArg Prod.snd (emit_boundBy ⟨binds, e⟩ tree o)).trans
        (serve_boundLeaves ⟨binds, e⟩ 0 tree.leaves o)
    cases act with
    | bind target fields => rfl
    | tell target level name fields =>
      dsimp only
      rw [h.perform_tell]
      exact hemit _
    | log target word name fields =>
      dsimp only
      rw [h.log_eq]
      cases Level.ofWord? word with
      | none => rfl
      | some level => exact hemit _

theorem admits_give (d : Delivery) (o : Outputs) (sink : Sink) (e : Event) :
    sink.admits e (d.give o) = sink.admits e o := by
  rw [Delivery.give]
  cases h : d.sink.take d.event o with
  | ok o' => exact Sink.admits_congr_of_take h sink e
  | error f => rfl

theorem admits_foldl_give (ds : List Delivery) (o : Outputs) (sink : Sink) (e : Event) :
    sink.admits e (ds.foldl (fun o d => d.give o) o) = sink.admits e o := by
  induction ds generalizing o with
  | nil => rfl
  | cons d ds ih => rw [List.foldl_cons, ih, admits_give]

theorem runActs_allBoundBy {acts : List Act} (h : ∀ act ∈ acts, act.Plain) (o : Outputs) :
    runActs acts (tree.allBoundBy chains) o =
      ((messages acts chains).flatMap fun m => m.deliveries o 0 tree.leaves).foldl
        (fun o d => d.give o) o := by
  induction acts generalizing chains o with
  | nil => rfl
  | cons act acts ih =>
    obtain ⟨hact, hrest⟩ := List.forall_mem_cons.1 h
    rw [runActs, hact.loggers_eq, ih hrest, hact.perform_eq, messages, List.flatMap_append,
      List.foldl_append]
    simp only [Message.deliveries_congr (admits_foldl_give _ o)]

/-- What there is after acts is what is handed to the leaves, one delivery after another. -/
theorem runActs_eq (tree : Logger) {acts : List Act} (h : ∀ act ∈ acts, act.Plain) (o : Outputs) :
    runActs acts [tree] o = (tree.handed acts o).foldl (fun o d => d.give o) o := by
  have hone : tree.allBoundBy [[]] = [tree] := rfl
  rw [← hone, runActs_allBoundBy h, handed]

/-- An event is told without a fault just if every leaf takes it. -/
theorem Act.Plain.perform_ok_iff (h : act.Plain) {m : Message} (hm : act.message? chains = some m)
    (o : Outputs) : (act.perform (tree.allBoundBy chains) o).1 = .ok () ↔
      m.passes tree.leaves o := by
  obtain ⟨binds, hchain, hact⟩ := Option.bind_eq_some_iff.1 hm
  rw [perform, getElem?_allBoundBy, hchain, Option.map_some]
  have hemit : m.binds = binds →
      (((tree.boundBy binds).emit m.event o).1 = .ok () ↔ m.passes tree.leaves o) := by
    rintro rfl
    rw [emit_boundBy, serve_ok_iff]
  cases act with
  | bind target fields => cases hact
  | tell target level name fields =>
    cases hact
    dsimp only
    rw [h.perform_tell]
    exact hemit rfl
  | log target word name fields =>
    obtain ⟨level, hword, rfl⟩ := Option.map_eq_some_iff.1 hact
    dsimp only
    rw [h.log_eq, hword]
    exact hemit rfl

/-- A word that is no level is a fault where there is a leaf, and changes nothing. -/
theorem Act.Plain.perform_unknown {target : Nat} {word name : String} {fields : Table Value}
    (h : (log target word name fields).Plain) {ls : List Logger} {l : Logger}
    (hl : ls[target]? = some l) (hleaves : l.leaves ≠ [])
    (hword : word ∉ Level.told.map Level.word) (o : Outputs) :
    (log target word name fields).perform ls o = (.error (.unknownLevel word), o) := by
  have hnone : Level.ofWord? word = none := by
    rw [Level.ofWord?, List.find?_eq_none]
    intro level hlevel heq
    exact hword (List.mem_map.2 ⟨level, hlevel, by simpa using heq⟩)
  have hat : ls[(log target word name fields).target]? = some l := hl
  rw [perform, hat]
  dsimp only
  rw [h.log_eq, hnone]
  simp [hleaves]

/-- The loggers that there are stay as they are. -/
theorem Act.prefix_loggers (act : Act) (ls : List Logger) : ls <+: act.loggers ls := by
  unfold loggers
  split
  · split
    · exact List.prefix_rfl
    · split
      · exact List.prefix_append ls _
      · exact List.prefix_rfl
  · exact List.prefix_rfl

/-- Whatever is done, what a logger emits later is what it would have emitted. -/
theorem Act.perform_later {ls : List Logger} (h : act.target < ls.length) (acts : List Act)
    (o : Outputs) : act.perform (acts.foldl (fun ls act => act.loggers ls) ls) o =
      act.perform ls o := by
  induction acts generalizing ls with
  | nil => rfl
  | cons first acts ih =>
    obtain ⟨more, hmore⟩ := first.prefix_loggers ls
    have hlength : act.target < (first.loggers ls).length := by
      rw [← hmore, List.length_append]
      exact Nat.lt_add_right _ h
    rw [List.foldl_cons, ih hlength, perform, perform, ← hmore, List.getElem?_append_left h]

/-- What a leaf receives is what it takes of the messages that no leaf to its left keeps from it. -/
theorem received_handed {i : Nat} (hleaf : tree.leaves[i]? = some (sink, bound)) (acts : List Act)
    (o : Outputs) : received i (tree.handed acts o) =
      ((messages acts [[]]).filter fun m => m.passes (tree.leaves.take (i + 1)) o).map
        fun m => m.under bound :=
  received_flatMap hleaf (messages acts [[]]) o

/-- Where no leaf to its left keeps a message from it, a leaf receives what it would alone. -/
theorem received_handed_eq_alone {i : Nat} (hleaf : tree.leaves[i]? = some (sink, bound))
    {acts : List Act} (h : ∀ m ∈ messages acts [[]], m.passes (tree.leaves.take i) o) :
    received i (tree.handed acts o) = received 0 ((single sink bound).handed acts o) := by
  have halone : (single sink bound).leaves[0]? = some (sink, bound) := rfl
  rw [received_handed hleaf, received_handed halone]
  congr 1
  refine List.filter_congr fun m hm => ?_
  rw [Message.passes_take_succ hleaf, Message.passes_take_succ halone, h m hm]
  rfl

/-- What is done with a logger, and with those bound from it, comes to each of its leaves as if it
was done with the leaf alone, up to a leaf that cannot take an event. -/
structure ComesToLeaves (tree : Logger) (acts : List Act) (o : Outputs) : Prop where
  /-- What there is afterwards is what the leaves were handed, one delivery after another. -/
  outputs : runActs acts [tree] o = (tree.handed acts o).foldl (fun o d => d.give o) o
  /-- Within one event the leaves are served from left to right. -/
  inOrder : ∀ m ∈ messages acts [[]],
    (m.deliveries o 0 tree.leaves).Pairwise fun d d' => d.leaf < d'.leaf
  /-- A leaf receives what it takes of the messages that no leaf to its left keeps from it. -/
  receives : ∀ i sink bound, tree.leaves[i]? = some (sink, bound) →
    received i (tree.handed acts o) =
      ((messages acts [[]]).filter fun m => m.passes (tree.leaves.take (i + 1)) o).map
        fun m => m.under bound
  /-- That is what it receives alone, if no leaf to its left keeps anything from it. -/
  alone : ∀ i sink bound, tree.leaves[i]? = some (sink, bound) →
    (∀ m ∈ messages acts [[]], m.passes (tree.leaves.take i) o) →
      received i (tree.handed acts o) = received 0 ((single sink bound).handed acts o)
  /-- An event is told without a fault just if every leaf takes it. -/
  told : ∀ act ∈ acts, ∀ chains m, act.message? chains = some m →
    ((act.perform (tree.allBoundBy chains) o).1 = .ok () ↔ m.passes tree.leaves o)

theorem comesToLeaves (tree : Logger) {acts : List Act} (h : ∀ act ∈ acts, act.Plain)
    (o : Outputs) : ComesToLeaves tree acts o where
  outputs := runActs_eq tree h o
  inOrder m _ := m.pairwise_deliveries o 0 tree.leaves
  receives _ _ _ hleaf := received_handed hleaf acts o
  alone _ _ _ hleaf := received_handed_eq_alone hleaf
  told act hact _ _ hm := (h act hact).perform_ok_iff hm o

/-- A logger with parts is the product of its leaves, up to a leaf that cannot take an event: a
console where the event has no text, and the log of a run for which there is no room. -/
theorem leaves_receive (tree : Logger) {acts : List Act} (h : ∀ act ∈ acts, act.Plain)
    (o : Outputs) :
    ComesToLeaves tree acts o ∧
    (∀ sink bound, (sink, bound) ∈ tree.leaves → ComesToLeaves (single sink bound) acts o) ∧
    (∀ e, (Sink.console.admits e o ↔ Json.Writable (.object e.fields)) ∧
      ∀ store id, (Sink.run store id).admits e o ↔
        (o.logs store).has id ∨ (o.logs store).limit ≠ 0) ∧
    (∀ (act : Act) (ls : List Logger) (later : List Act), act.target < ls.length →
      act.perform (later.foldl (fun ls act => act.loggers ls) ls) o = act.perform ls o) ∧
    ∀ target word name fields ls l, (Act.log target word name fields).Plain →
      ls[target]? = some l → l.leaves ≠ [] → word ∉ Level.told.map Level.word →
      (Act.log target word name fields).perform ls o = (.error (.unknownLevel word), o) := by
  refine ⟨comesToLeaves tree h o, fun _ _ _ => comesToLeaves _ h o, fun e => ⟨?_, fun store id => ?_⟩,
    fun act ls later hact => ?_, fun target word name fields ls l hact hl hleaves hword => ?_⟩
  · exact Sink.admits_console_iff
  · exact Sink.admits_run_iff
  · exact Act.perform_later hact later o
  · exact hact.perform_unknown hl hleaves hword o

/-- A console that shows events, and room for the log of one run. -/
def fresh : Outputs := .start ⟨some 20, ""⟩ 1

/-- A console before the log of a run. -/
def pair : Logger := .several [.single .console [], .several [.single (.run 0 "r") []]]

/-- A field is bound, and an event is told under it. -/
def boundCount : List Act :=
  [.bind 0 [("step", .text "s1")], .tell 1 .info "count" [("n", .int 1)]]

theorem plain_boundCount : ∀ act ∈ boundCount, act.Plain := by
  intro act hact
  simp only [boundCount, List.mem_cons, List.not_mem_nil, or_false] at hact
  rcases hact with rfl | rfl
  · exact ⟨by decide, by decide, by decide, nofun⟩
  · refine ⟨by decide, by decide, by decide, ?_⟩
    rintro _ _ _ _ ⟨⟩
    decide

theorem leaves_receive_pair :
    received 1 (pair.handed boundCount fresh) =
        received 0 ((single (.run 0 "r") []).handed boundCount fresh) ∧
      (Act.log 0 "loud" "count" []).perform [pair] fresh = (.error (.unknownLevel "loud"), fresh) := by
  have hpasses : ∀ m ∈ messages boundCount [[]], m.passes (pair.leaves.take 1) fresh := by
    have hmessages : messages boundCount [[]] =
        [⟨[[("step", .text "s1")]], .info, "count", [("n", .int 1)]⟩] := rfl
    rw [hmessages, List.forall_mem_singleton]
    have hwritable : Json.Writable (.object [("step", .text "s1"), ("n", .int 1)]) := ⟨_, rfl⟩
    have hadmits : Sink.console.admits
        ⟨.info, "count", [("step", .text "s1"), ("n", .int 1)]⟩ fresh :=
      Sink.admits_console_iff.2 hwritable
    exact Bool.and_eq_true_iff.2 ⟨hadmits, rfl⟩
  obtain ⟨htree, -, -, -, hunknown⟩ := leaves_receive pair plain_boundCount fresh
  refine ⟨htree.alone 1 (.run 0 "r") [] rfl hpasses, ?_⟩
  exact hunknown 0 "loud" "count" [] [pair] pair ⟨by decide, by decide, by decide, nofun⟩ rfl
    nofun (by decide)

/-- An event that is told with a number. -/
def count (n : Int) : Act := .tell 0 .info "count" [("n", .int n)]

theorem plain_count (n : Int) : (count n).Plain where
  self := (by decide : "self" ∉ ["n"])
  level := (by decide : "level" ∉ ["n"])
  event := (by decide : "event" ∉ ["n"])
  told := by
    rintro _ _ _ _ ⟨⟩
    decide

/-- The console cannot take a number that is too long, and keeps it from the log of the run, which
alone takes it. -/
theorem runActs_count :
    ((runActs [count (10 ^ Number.maxDigits)] [pair] fresh).logs 0).events "r" = [] ∧
      ((runActs [count (10 ^ Number.maxDigits)] [.single (.run 0 "r") []] fresh).logs 0).events "r" =
        [⟨.info, "count", [("n", .int (10 ^ Number.maxDigits))]⟩] := by
  have hpow : ∀ digits : Nat, 10 ^ digits ≤ (10 ^ digits : Int).natAbs :=
    fun digits => Nat.le_of_eq (Int.natAbs_pow 10 digits).symm
  have hlong := hpow Number.maxDigits
  -- The number is put aside so that its digits are not looked at.
  generalize (10 ^ Number.maxDigits : Int) = n at hlong ⊢
  have hplain : ∀ act ∈ [count n], act.Plain := List.forall_mem_singleton.2 (plain_count n)
  have hunwritable : ¬ Sink.console.admits ⟨.info, "count", [("n", .int n)]⟩ fresh := by
    rw [Sink.admits_console_iff, Json.writable_object, List.forall_mem_singleton,
      Json.writable_int_iff]
    exact Nat.not_lt.2 hlong
  have hnone : pair.handed [count n] fresh = [] := by
    have hdeliveries : (⟨[], .info, "count", [("n", .int n)]⟩ : Message).deliveries fresh 0
        pair.leaves = [] := if_neg hunwritable
    exact (List.flatMap_singleton _ _).trans hdeliveries
  have hpair := runActs_eq pair hplain fresh
  have hrun := runActs_eq (.single (.run 0 "r") []) hplain fresh
  constructor
  · exact congrArg (fun o => (o.logs 0).events "r") (hpair.trans (congrArg _ hnone))
  · exact congrArg (fun o => (o.logs 0).events "r") hrun

end Logger

end RestDemo
