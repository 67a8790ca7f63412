import RestDemo.Proofs.Run.Sound
import RestDemo.Server.Execution

/-!
# The log of a run on the server

`runLog` is all that there is to tell of a run: its start, what its steps tell, and its end if no
fault ended it before. If its start can be written, this is what the run adds to the log of its name,
and the answer is what came of the steps (`runUnder_eq`).
-/

namespace RestDemo.Server

open Engine

variable {id : String} {demo : Demo} {store : Store} {service : Service} {s : State} {o : Outputs}
  {e : Event} {es : List Event}

/-! ## The logger of a run -/

/-- What there is when the console has changed, and events have been appended to the log of a run in
the server's own store. -/
def extended (console : Console) (id : String) (es : List Event) (o : Outputs) : Outputs :=
  { o with console }.setLogs State.ownLogs ((o.logs State.ownLogs).extend id es)

@[simp] theorem extended_logs (console : Console) (id : String) (es : List Event) (o : Outputs) :
    (extended console id es o).logs State.ownLogs = (o.logs State.ownLogs).extend id es :=
  Outputs.setLogs_logs_self _ _ _

theorem extended_extended (hlimit : 0 < (o.logs State.ownLogs).limit) (console console' : Console)
    (id : String) (es fs : List Event) :
    extended console' id fs (extended console id es o) = extended console' id (es ++ fs) o := by
  rw [extended, extended_logs, LogStore.extend_extend hlimit]
  exact Outputs.setLogs_setLogs { o with console := console' } _ _ _

theorem emit_runLogger (id : String) (he : e.Sound) (hlimit : 0 < (o.logs State.ownLogs).limit) :
    ∃ console, (runLogger id).emit e o = (.ok (), extended console id [e] o) := by
  obtain ⟨console, hconsole⟩ := Console.tell_of_writable he.writable o.console
  refine ⟨console, ?_⟩
  have hleaves : (runLogger id).leaves = [(.console, []), (.run State.ownLogs id, [])] := rfl
  rw [Logger.emit, hleaves, Logger.serve, he.under_nil]
  simp only [Sink.take, hconsole, Except.map, Logger.serve, he.under_nil]
  rw [LogStore.append_eq_extend hlimit]
  rfl

/-- Sound events in a row are all in the log of their run afterwards, in their order. -/
theorem emitAll_runLogger (id : String) (he : e.Sound) (hes : ∀ e ∈ es, e.Sound)
    (hlimit : 0 < (o.logs State.ownLogs).limit) :
    ∃ console, (runLogger id).emitAll (e :: es) o = (.ok (), extended console id (e :: es) o) := by
  induction es generalizing e o with
  | nil =>
    obtain ⟨console, hemit⟩ := emit_runLogger id he hlimit
    exact ⟨console, by rw [Logger.emitAll, hemit]; rfl⟩
  | cons e' es ih =>
    obtain ⟨console, hemit⟩ := emit_runLogger id he hlimit
    have hrest : ∀ e ∈ es, e.Sound := fun e hmem => hes e (List.mem_cons_of_mem _ hmem)
    obtain ⟨console', hemitAll⟩ := ih (o := extended console id [e] o)
      (hes e' List.mem_cons_self) hrest (by simpa using hlimit)
    refine ⟨console', ?_⟩
    rw [Logger.emitAll, hemit]
    dsimp only
    rw [hemitAll, extended_extended hlimit]
    rfl

/-! ## What a run tells -/

/-- What becomes of a demo that is run under a name, and the world that it leaves. -/
def runOf (id : String) (demo : Demo) (store : Store) (service : Service) (issued : Nat) :
    Except Failure RunOutcome × World :=
  Run.run RestLine.bodyMethods demo [] (State.surroundings service)
    (World.start none ⟨id, store, []⟩ issued)

/-- All that there is to tell of a run of which so much came. -/
def runLog (id : String) (demo : Demo) : Except Failure RunOutcome × World → List Event
  | (.ok outcome, w) => startEvent id demo :: (w.events ++ [endEvent id outcome.isOk])
  | (.error _, w) => startEvent id demo :: w.events

/-- The answer to a run of which so much came. -/
def runAnswer (id : String) :
    Except Failure RunOutcome × World → Except Problem DemoAnswer
  | (.ok outcome, w) => .ok (.ofOutcome id outcome w.context.store)
  | (.error e, _) => .error (.ofFailure e)

theorem sound_events_runOf (hid : id ≠ "") (demo : Demo) (store : Store) (service : Service)
    (issued : Nat) :
    ∀ e ∈ (runOf id demo store service issued).2.events, e.Sound := by
  have hbound : (Table.set "run_id" (Value.text id) []).names.Nodup := by simp [Table.set]
  have hrun : runOf id demo store service issued =
      Run.runSteps RestLine.bodyMethods demo.settings (Table.set "run_id" (.text id) []) 1 demo.steps
        (State.surroundings service) (World.start none ⟨id, store, []⟩ issued) :=
    Run.run_eq_runSteps demo hid
  obtain ⟨es, hes, hsound⟩ := Run.adds_runSteps (s := State.surroundings service) rfl hbound 1
    demo.steps (World.start none ⟨id, store, []⟩ issued)
  rw [hrun, hes]
  exact hsound

theorem sound_startEvent (htitle : Json.Writable demo.title)
    (hsteps : demo.steps.length < 10 ^ Number.maxDigits) (id : String) :
    (startEvent id demo).Sound where
  nodup := by simp [startEvent]
  writable := by
    rw [Event.unwritable_eq_none_iff, Json.writable_object]
    simp only [startEvent, List.forall_mem_cons]
    exact ⟨Json.writable_text id, htitle, Json.writable_int_iff.2 hsteps, fun _ h => nomatch h⟩

theorem sound_endEvent (id : String) (ok : Bool) : (endEvent id ok).Sound where
  nodup := by simp [endEvent]
  writable := by
    rw [Event.unwritable_eq_none_iff, Json.writable_object]
    simp only [endEvent, List.forall_mem_cons]
    exact ⟨Json.writable_text id, Json.writable_bool ok, fun _ h => nomatch h⟩

/-- A run whose start can be written adds all that there is to tell of it to the log of its name. -/
theorem runUnder_eq (hid : id ≠ "") (hstart : (startEvent id demo).Sound) (store : Store)
    (service : Service) (hlimit : 0 < s.logs.limit) :
    ∃ console, ∀ out, out = runOf id demo store service s.issued →
      runUnder id demo store service s =
        ⟨runAnswer id out,
          { s with
            outputs := extended console id (runLog id demo out) s.outputs
            issued := out.2.issued },
          out.2.sent⟩ := by
  have hsound := sound_events_runOf hid demo store service s.issued
  obtain ⟨console, hemit⟩ := emit_runLogger id hstart hlimit
  obtain ⟨console', hemitAll⟩ := emitAll_runLogger id hstart hsound hlimit
  rw [Logger.emitAll, hemit] at hemitAll
  dsimp only at hemitAll
  unfold runUnder
  simp only [State.emit, hemit]
  have hrun (s' : State) (hissued : s'.issued = s.issued) :
      s'.run (Run.run RestLine.bodyMethods demo []) (runLogger id) service ⟨id, store, []⟩ =
        ((runOf id demo store service s.issued).1, (runOf id demo store service s.issued).2,
          s'.after (runLogger id) (runOf id demo store service s.issued).2) := by
    rw [State.run, hissued]
    rfl
  rw [hrun { s with outputs := extended console id _ s.outputs } rfl]
  rcases hout : runOf id demo store service s.issued with ⟨e | outcome, w⟩
  · rw [hout] at hemitAll
    refine ⟨console', ?_⟩
    rintro _ rfl
    simp only [State.after, hemitAll, runLog, runAnswer]
  · rw [hout] at hemitAll
    have hroom : 0 < ((extended console' id (startEvent id demo :: w.events) s.outputs).logs
        State.ownLogs).limit := by
      rw [extended_logs, LogStore.limit_extend]
      exact hlimit
    obtain ⟨console'', hend⟩ := emit_runLogger id (sound_endEvent id outcome.isOk) hroom
    refine ⟨console'', ?_⟩
    rintro _ rfl
    simp only [State.after, hemitAll, hend, runLog, runAnswer]
    rw [extended_extended hlimit]
    rfl

end RestDemo.Server
