import RestDemo.Proofs.Run.Later
import RestDemo.Proofs.Step.Effect

/-!
# Runs one after another

A run of two rows of steps is the run of the first row and, if every step of it succeeded, a run of
the second one in the context that the first one leaves, with the replies that it has not used up
(`run_append`). A run that failed is the run of its steps up to the one that failed.
-/

namespace RestDemo.Run

open Engine

variable {s : Surroundings} {w u : World} {bodyMethods : List String} {settings : Settings}
  {bound : Table Value}

/-- What comes of a run and, only if every step of it succeeded, of a second one in the world that
it leaves: the results of both, and the failure of the second one if there is any. -/
def thenRun (first : Except Failure RunOutcome × World)
    (second : World → Except Failure RunOutcome × World) : Except Failure RunOutcome × World :=
  match first with
  | (.ok ⟨none, results⟩, u) =>
    match second u with
    | (r, v) => (r.map fun o => { o with results := results ++ o.results }, v)
  | (.ok ⟨some failed, results⟩, u) => (.ok ⟨some failed, results⟩, u)
  | (.error e, u) => (.error e, u)

theorem thenRun_nil (w : World) (second : World → Except Failure RunOutcome × World) :
    thenRun (.ok ⟨none, []⟩, w) second = second w := by
  dsimp only [thenRun]
  match second w with
  | (.ok o, v) => rfl
  | (.error e, v) => rfl

theorem thenRun_assoc (first : Except Failure RunOutcome × World)
    (second third : World → Except Failure RunOutcome × World) :
    thenRun (thenRun first second) third = thenRun first fun u => thenRun (second u) third := by
  match first with
  | (.error e, u) => rfl
  | (.ok ⟨some failed, results⟩, u) => rfl
  | (.ok ⟨none, results⟩, u) =>
    dsimp only [thenRun]
    match second u with
    | (.error e, v) => rfl
    | (.ok ⟨some failed, results'⟩, v) => rfl
    | (.ok ⟨none, results'⟩, v) =>
      dsimp only [Except.map]
      match third v with
      | (.error e, t) => rfl
      | (.ok o, t) => simp

theorem thenRun_congr {first : Except Failure RunOutcome × World}
    {second second' : World → Except Failure RunOutcome × World}
    (h : ∀ results u, first = (.ok ⟨none, results⟩, u) → second u = second' u) :
    thenRun first second = thenRun first second' := by
  match first with
  | (.error e, u) => rfl
  | (.ok ⟨some failed, results⟩, u) => rfl
  | (.ok ⟨none, results⟩, u) =>
    dsimp only [thenRun]
    rw [h results u rfl]

/-! ## Rows of steps -/

theorem runSteps_cons (place : Nat) (step : Step) (steps : List Step) :
    runSteps bodyMethods settings bound place (step :: steps) s w =
      match runStep bodyMethods settings bound place step s w with
      | (.ok (.error e), u) => (.ok ⟨some (stepName step place, e), []⟩, u)
      | (.ok (.ok result), u) =>
        thenRun (.ok ⟨none, [result]⟩, u) fun u =>
          runSteps bodyMethods settings bound (place + 1) steps s u
      | (.error e, u) => (.error e, u) := by
  rw [runSteps_cons_eq, bind_run]
  match runStep bodyMethods settings bound place step s w with
  | (.ok (.error e), u) => rfl
  | (.ok (.ok result), u) =>
    dsimp only [thenRun]
    rw [bind_run]
    match runSteps bodyMethods settings bound (place + 1) steps s u with
    | (.ok o, v) => rfl
    | (.error e, v) => rfl
  | (.error e, u) => rfl

theorem runSteps_append (place : Nat) (xs ys : List Step) :
    runSteps bodyMethods settings bound place (xs ++ ys) s w =
      thenRun (runSteps bodyMethods settings bound place xs s w) fun u =>
        runSteps bodyMethods settings bound (place + xs.length) ys s u := by
  induction xs generalizing place w with
  | nil =>
    have hnil : runSteps bodyMethods settings bound place [] s w = (.ok ⟨none, []⟩, w) := rfl
    rw [List.nil_append, hnil, thenRun_nil]
    rfl
  | cons x xs ih =>
    have hplace : place + (x :: xs).length = place + 1 + xs.length := by
      rw [List.length_cons]
      omega
    rw [List.cons_append, runSteps_cons, runSteps_cons, hplace]
    match runStep bodyMethods settings bound place x s w with
    | (.error e, u) => rfl
    | (.ok (.error e), u) => rfl
    | (.ok (.ok result), u) =>
      dsimp only
      rw [thenRun_assoc]
      simp only [ih]

/-- Steps with names of their own run alike at every place. -/
theorem runSteps_place {steps : List Step} (h : ∀ step ∈ steps, step.id ≠ "") (place place' : Nat) :
    runSteps bodyMethods settings bound place steps =
      runSteps bodyMethods settings bound place' steps := by
  induction steps generalizing place place' with
  | nil => rfl
  | cons step steps ih =>
    have hid : step.id ≠ "" := h step List.mem_cons_self
    have hname : stepName step place = stepName step place' := by
      rw [stepName, stepName, nameAt, nameAt, if_neg hid, if_neg hid]
    have hrest := ih (fun step hmem => h step (List.mem_cons_of_mem _ hmem)) (place + 1) (place' + 1)
    have hfirst : runStep bodyMethods settings bound place step =
        runStep bodyMethods settings bound place' step := by
      have hat : nameAt (step.task bodyMethods settings).id place =
          nameAt (step.task bodyMethods settings).id place' := hname
      rw [runStep, runStep, runTask, runTask, hat]
    rw [runSteps_cons_eq, runSteps_cons_eq, hname, hrest, hfirst]

/-- A row comes to an outcome if its first step fails, or if it succeeds and the steps after it come
to one. -/
theorem runSteps_cons_ok {place : Nat} {step : Step} {steps : List Step} {o : RunOutcome}
    (h : runSteps bodyMethods settings bound place (step :: steps) s w = (.ok o, u)) :
    (∃ e, runStep bodyMethods settings bound place step s w = (.ok (.error e), u) ∧
        o = ⟨some (stepName step place, e), []⟩) ∨
      ∃ result v rest, runStep bodyMethods settings bound place step s w = (.ok (.ok result), v) ∧
        runSteps bodyMethods settings bound (place + 1) steps s v = (.ok rest, u) ∧
        o = ⟨rest.failed, result :: rest.results⟩ := by
  rw [runSteps_cons] at h
  rcases hstep : runStep bodyMethods settings bound place step s w with ⟨e | e | result, v⟩
  · rw [hstep] at h
    cases h
  · rw [hstep] at h
    cases h
    exact .inl ⟨e, rfl, rfl⟩
  · rw [hstep] at h
    dsimp only [thenRun] at h
    rcases hsteps : runSteps bodyMethods settings bound (place + 1) steps s v with ⟨e | rest, t⟩
    · rw [hsteps] at h
      cases h
    · rw [hsteps] at h
      cases h
      exact .inr ⟨result, v, rest, rfl, hsteps, rfl⟩

theorem runSteps_cons_of_ok {place : Nat} {step : Step} {result : StepResult} (steps : List Step)
    (h : runStep bodyMethods settings bound place step s w = (.ok (.ok result), u)) :
    runSteps bodyMethods settings bound place (step :: steps) s w =
      thenRun (.ok ⟨none, [result]⟩, u) fun u =>
        runSteps bodyMethods settings bound (place + 1) steps s u := by
  rw [runSteps_cons, h]

theorem length_of_runSteps {place : Nat} {steps : List Step} {results : List StepResult}
    (h : runSteps bodyMethods settings bound place steps s w = (.ok ⟨none, results⟩, u)) :
    results.length = steps.length := by
  induction steps generalizing place w results with
  | nil =>
    cases h
    rfl
  | cons step steps ih =>
    rcases runSteps_cons_ok h with ⟨e, -, ho⟩ | ⟨result, v, rest, -, hsteps, ho⟩
    · cases ho
    · obtain ⟨failed, results'⟩ := rest
      cases ho
      rw [List.length_cons, List.length_cons, ih hsteps]

/-- A row that failed did so at one of its steps, after those before it and with their results. -/
theorem exists_of_runSteps_failed {place : Nat} {steps : List Step} {id : String} {e : StepError}
    {results : List StepResult}
    (h : runSteps bodyMethods settings bound place steps s w = (.ok ⟨some (id, e), results⟩, u)) :
    ∃ before step after v, steps = before ++ step :: after ∧
      id = stepName step (place + before.length) ∧
      runSteps bodyMethods settings bound place before s w = (.ok ⟨none, results⟩, v) ∧
      runSteps bodyMethods settings bound place (before ++ [step]) s w =
        (.ok ⟨some (id, e), results⟩, u) := by
  induction steps generalizing place w results with
  | nil => cases h
  | cons step steps ih =>
    rcases runSteps_cons_ok h with ⟨e, hstep, ho⟩ | ⟨result, v, rest, hstep, hsteps, ho⟩
    · cases ho
      refine ⟨[], step, steps, w, rfl, rfl, rfl, ?_⟩
      rw [List.nil_append, runSteps_cons, hstep]
    · obtain ⟨failed, results'⟩ := rest
      cases ho
      obtain ⟨before, step', after, t, rfl, rfl, hbefore, hfailed⟩ := ih hsteps
      refine ⟨step :: before, step', after, t, rfl, ?_, ?_, ?_⟩
      · rw [List.length_cons, Nat.add_right_comm]
        rfl
      · rw [runSteps_cons_of_ok before hstep]
        dsimp only [thenRun]
        rw [hbefore]
        rfl
      · rw [List.cons_append, runSteps_cons_of_ok (before ++ [step']) hstep]
        dsimp only [thenRun]
        rw [hfailed]
        rfl

/-! ## The name of a run -/

theorem ensureId_of_empty (h : w.context.runId = "") :
    ensureId s w =
      (.ok (s.names.name (w.issued + 1)),
        { w with
          context := { w.context with runId := s.names.name (w.issued + 1) }
          issued := w.issued + 1 }) := by
  rw [ensureId, bind_run]
  simp only [world, h, ↓reduceIte]
  rfl

theorem ensureId_of_ne_empty (h : w.context.runId ≠ "") :
    ensureId s w = (.ok w.context.runId, w) := by
  rw [ensureId, bind_run]
  simp only [world, h, ↓reduceIte]
  rfl

/-- A run has a name from its start on, which is given out only if it had none. -/
theorem ensureId_run (s : Surroundings) (w : World) :
    ∃ id u, ensureId s w = (.ok id, u) ∧ u.context.runId = id ∧ id ≠ "" ∧ u.sent = w.sent := by
  by_cases hid : w.context.runId = ""
  · exact ⟨_, _, ensureId_of_empty hid, rfl, s.names.ne_empty _, rfl⟩
  · exact ⟨_, _, ensureId_of_ne_empty hid, rfl, hid, rfl⟩

theorem runId_of_runSteps {place : Nat} {steps : List Step} {r : Except Failure RunOutcome}
    (h : runSteps bodyMethods settings bound place steps s w = (r, u)) :
    u.context.runId = w.context.runId := by
  have hpausing : Closed.Pausing (fun _ => True) (fun _ => True)
      (Keeps s fun w => w.context.runId) :=
    Keeps.pausing (Keeps.closed (fun _ _ => rfl) fun _ _ => rfl) (fun _ _ => rfl) (fun _ _ => rfl)
      fun _ _ => rfl
  have hkeeps : Keeps s (fun w => w.context.runId) RunOutcome
      (runSteps bodyMethods settings bound place steps) :=
    closed_runSteps_of_all (Keeps.running hpausing fun _ _ => rfl) place steps
  have hw := hkeeps w
  rwa [h] at hw

theorem alike_ensureId (s : Surroundings) (past : World) :
    Alike (s.later past.sent.length) s (World.After past) String ensureId := by
  rintro w _ ⟨rfl, hpast⟩
  by_cases hempty : w.context.runId = ""
  · have hissued : (past.followedBy w).issued = w.issued := rfl
    rw [ensureId_of_empty hempty, ensureId_of_empty (w := past.followedBy w) hempty, hissued]
    exact ⟨rfl, rfl, hpast⟩
  · rw [ensureId_of_ne_empty hempty, ensureId_of_ne_empty (w := past.followedBy w) hempty]
    exact ⟨rfl, rfl, hpast⟩

/-! ## Runs -/

theorem run_eq_runSteps (demo : Demo) (h : w.context.runId ≠ "") :
    run bodyMethods demo bound s w =
      runSteps bodyMethods demo.settings (bound.set "run_id" (.text w.context.runId)) 1 demo.steps
        s w := by
  rw [run_eq, bind_run_of_ok (ensureId_of_ne_empty h)]

/-- A run in a world is the run without its past, among the surroundings as they are from then
on. -/
theorem run_afresh (demo : Demo) (s : Surroundings) (u : World) :
    run bodyMethods demo bound s u =
      match run bodyMethods demo bound (s.later u.sent.length) u.afresh with
      | (r, v) => (r, u.followedBy v) := by
  have hafter : World.After u u.afresh u := by
    refine ⟨u.followedBy_afresh.symm, ?_⟩
    intro hcancelled
    rw [World.cancelled, World.afresh, Option.isSome_map]
    exact hcancelled
  have halike : Alike (s.later u.sent.length) s (World.After u) RunOutcome
      (run bodyMethods demo bound) :=
    closed_run (alike_after s u) (alike_ensureId s u) demo
  obtain ⟨hresult, hworld, -⟩ := halike u.afresh u hafter
  exact Prod.ext hresult hworld

/-- The run of two rows of steps is the run of the first one and then, if that was ok, the run of
the second one in its context. What has failed has failed at a step: no step after it matters, and
the results are those of the steps before it. -/
theorem run_append (bodyMethods : List String) (demo : Demo) (bound : Table Value)
    (s : Surroundings) (w : World) {xs ys : List Step} (hxs : ∀ step ∈ xs, step.id ≠ "")
    (hys : ∀ step ∈ ys, step.id ≠ "") :
    (run bodyMethods { demo with steps := xs ++ ys } bound s w =
      thenRun (run bodyMethods { demo with steps := xs } bound s w) fun u =>
        match run bodyMethods { demo with steps := ys } bound (s.later u.sent.length) u.afresh with
        | (r, v) => (r, u.followedBy v)) ∧
    ∀ id e results u,
      run bodyMethods { demo with steps := xs } bound s w = (.ok ⟨some (id, e), results⟩, u) →
      ∃ before step after v, xs = before ++ step :: after ∧ id = step.id ∧
        run bodyMethods { demo with steps := before } bound s w = (.ok ⟨none, results⟩, v) ∧
        results.length = before.length ∧
        run bodyMethods { demo with steps := before ++ [step] } bound s w =
          (.ok ⟨some (id, e), results⟩, u) := by
  obtain ⟨id, w', hx, hid, hne, -⟩ := ensureId_run s w
  have hrun : ∀ steps, run bodyMethods { demo with steps } bound s w =
      runSteps bodyMethods demo.settings (bound.set "run_id" (.text id)) 1 steps s w' :=
    fun steps => by rw [run_eq, bind_run_of_ok hx]
  refine ⟨?_, ?_⟩
  · rw [hrun, hrun, runSteps_append, runSteps_place hys (1 + xs.length) 1]
    refine thenRun_congr fun results u hfirst => ?_
    obtain rfl : u.context.runId = id := (runId_of_runSteps hfirst).trans hid
    exact (run_eq_runSteps { demo with steps := ys } hne).symm.trans (run_afresh _ s u)
  · intro id' e results u h
    rw [hrun] at h
    obtain ⟨before, step, after, v, rfl, hname, hbefore, hfailed⟩ := exists_of_runSteps_failed h
    have hstep : step.id ≠ "" := hxs step (by simp)
    refine ⟨before, step, after, v, rfl, ?_, ?_, length_of_runSteps hbefore, ?_⟩
    · rw [hname, stepName, nameAt, if_neg hstep]
    · rw [hrun, hbefore]
    · rw [hrun, hfailed]

/-- Looks at a job that was created. -/
def lookStep : Step :=
  { Step.jobStep with id := "look", title := .text "Look at it", rest := "GET /jobs/$id", poll := none }

/-- A demo that creates a job and then looks at it. -/
def jobDemo : Demo := ⟨.text "Jobs", [Step.jobStep, lookStep], Step.jobSettings⟩

/-- The job is looked at in the context in which it was created, with the replies that are left. -/
theorem run_append_job :
    (∀ step ∈ [Step.jobStep], step.id ≠ "") ∧ (∀ step ∈ [lookStep], step.id ≠ "") ∧
      run RestLine.bodyMethods jobDemo [] Step.jobSurroundings (.start none .empty 0) =
        thenRun (run RestLine.bodyMethods { jobDemo with steps := [Step.jobStep] } []
          Step.jobSurroundings (.start none .empty 0)) fun u =>
          match run RestLine.bodyMethods { jobDemo with steps := [lookStep] } []
            (Step.jobSurroundings.later u.sent.length) u.afresh with
          | (r, v) => (r, u.followedBy v) := by
  have hcreate : ∀ step ∈ [Step.jobStep], step.id ≠ "" := by
    intro step hmem
    rw [List.mem_singleton.1 hmem]
    decide
  have hlook : ∀ step ∈ [lookStep], step.id ≠ "" := by
    intro step hmem
    rw [List.mem_singleton.1 hmem]
    decide
  exact ⟨hcreate, hlook, (run_append RestLine.bodyMethods jobDemo [] Step.jobSurroundings
    (.start none .empty 0) hcreate hlook).1⟩

end RestDemo.Run
