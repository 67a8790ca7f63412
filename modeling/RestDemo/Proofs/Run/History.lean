import RestDemo.Proofs.Run.Attribution
import RestDemo.Proofs.Run.Sound

/-!
# A context over many runs

A context is reset, its variables change, and demos are run in it, in any order and each among
surroundings of its own (`Turn`). Whatever came before, the context holds the results of the runs since
the last reset, those of failed runs with them; these runs have one name, which all their events
carry, and which is none of those given out before that reset (`history_since_reset`). The names are
any of which none comes twice (`Distinct`), as those that count are (`distinct_counted`).
-/

namespace RestDemo

namespace Text

theorem digitChar_injective : ∀ m < 16, ∀ n < 16, Nat.digitChar m = Nat.digitChar n → m = n := by
  decide

/-- Numbers with the same digits differ at most in what the digits leave out. -/
theorem mod_eq_of_hexDigits {width m n : Nat} (h : hexDigits width m = hexDigits width n) :
    m % 16 ^ width = n % 16 ^ width := by
  induction width generalizing m n with
  | zero => rw [pow_zero, Nat.mod_one, Nat.mod_one]
  | succ width ih =>
    rw [hexDigits, hexDigits] at h
    obtain ⟨hfirst, hlast⟩ := List.append_inj' h rfl
    have hrest : m / 16 % 16 ^ width = n / 16 % 16 ^ width := ih hfirst
    have hdigit : m % 16 = n % 16 := digitChar_injective _ (Nat.mod_lt _ (by decide)) _
      (Nat.mod_lt _ (by decide)) (List.singleton_inj.1 hlast)
    rw [pow_succ', Nat.mod_mul, Nat.mod_mul, hrest, hdigit]

end Text

namespace Run

open Engine

variable {names : Names} {bodyMethods : List String} {settings : Settings}
  {bound : Table Value} {place : Nat} {step : Step} {steps : List Step} {s : Surroundings}
  {w u : World}

/-! ## What a row of steps leaves of its context -/

theorem results_of_execute (bodyMethods : List String) (settings : Settings) (bound : Table Value)
    (step : Step) (s : Surroundings) (w : World) :
    (step.execute bodyMethods settings bound s w).2.context.results = w.context.results := by
  have hpausing : Closed.Pausing (fun _ => True) (fun _ => True)
      (Keeps s fun w => w.context.results) :=
    Keeps.pausing (Keeps.closed (fun _ _ => rfl) fun _ _ => rfl) (fun _ _ => rfl) (fun _ _ => rfl)
      fun _ _ => rfl
  exact Step.closed_execute hpausing (step.admits_all ..) w

/-- The result of a step is kept if it has one. -/
theorem results_of_runStep {r : Except StepError StepResult}
    (h : runStep bodyMethods settings bound place step s w = (.ok r, u)) :
    u.context.results = w.context.results ++ r.toOption.toList := by
  obtain ⟨v, hx, rfl⟩ := exists_execute_of_runStep h
  have hresults := results_of_execute bodyMethods settings bound step s
    (w.telling [startEntry bound place step])
  rw [hx] at hresults
  cases r with
  | error e => exact hresults.trans (List.append_nil _).symm
  | ok result => exact congrArg (· ++ [result]) hresults

theorem results_of_runSteps {o : RunOutcome}
    (h : runSteps bodyMethods settings bound place steps s w = (.ok o, u)) :
    u.context.results = w.context.results ++ o.results := by
  induction steps generalizing place w o with
  | nil =>
    cases h
    exact (List.append_nil _).symm
  | cons step steps ih =>
    rcases runSteps_cons_ok h with ⟨e, hstep, rfl⟩ | ⟨result, v, rest, hstep, hsteps, rfl⟩
    · exact results_of_runStep hstep
    · rw [ih hsteps, results_of_runStep hstep, List.append_assoc]
      rfl

theorem issued_of_runSteps {r : Except Failure RunOutcome}
    (h : runSteps bodyMethods settings bound place steps s w = (r, u)) : u.issued = w.issued := by
  have hpausing : Closed.Pausing (fun _ => True) (fun _ => True) (Keeps s World.issued) :=
    Keeps.pausing (Keeps.closed (fun _ _ => rfl) fun _ _ => rfl) (fun _ _ => rfl) (fun _ _ => rfl)
      fun _ _ => rfl
  have hkeeps : Keeps s World.issued RunOutcome
      (runSteps bodyMethods settings bound place steps) :=
    closed_runSteps_of_all (Keeps.running hpausing fun _ _ => rfl) place steps
  have hw := hkeeps w
  rwa [h] at hw

/-! ## The name on the events of a run -/

/-- An event that belongs to the run of a name. -/
def OfRun (id : String) (e : Event) : Prop :=
  Value.field "run_id" e.fields = .text id

theorem binds_ofRun {id : String} (h : Value.field "run_id" bound = .text id) :
    Binds (OfRun id) bound :=
  fun _ _ _ hfields => (field_overlay_of_not_mem hfields).trans h

theorem field_boundTo {id : String} (h : Value.field "run_id" bound = .text id) (step : Step) :
    Value.field "run_id" (Step.boundTo bound step) = .text id := by
  unfold Step.boundTo
  by_cases hid : step.id = ""
  · rwa [if_pos hid]
  · rw [if_neg hid, Value.field, Table.get?_set, if_neg (by decide)]
    exact h

/-- All events that the steps of a run tell carry the name bound to their log, whatever becomes of
the run. -/
theorem adds_ofRun {id : String} {r : Except Failure RunOutcome}
    (hbound : Value.field "run_id" bound = .text id)
    (h : runSteps bodyMethods settings bound place steps s w = (r, u)) :
    World.Adds (OfRun id) w u := by
  have hleads : Leads s (World.Adds (OfRun id)) RunOutcome
      (runSteps bodyMethods settings bound place steps) :=
    closed_runSteps (adds_running fun _ _ htells => htells) (binds_ofRun hbound) place
      fun step _ => Step.admits_of_binds (binds_ofRun (field_boundTo hbound step))
  have hw := hleads w
  rwa [h] at hw

/-! ## Names -/

/-- Of the first so many names that are given out, none comes twice. -/
def Distinct (names : Names) (last : Nat) : Prop :=
  ∀ m n, 0 < m → m < n → n ≤ last → names.name m ≠ names.name n

/-- The names that count come twice only when there are too many for 32 digits. -/
theorem distinct_counted {last : Nat} (h : last < 16 ^ 32) : Distinct .counted last := by
  intro m n _ hmn hn heq
  have hmod := Text.mod_eq_of_hexDigits (String.ofList_injective heq)
  rw [Nat.mod_eq_of_lt (by omega), Nat.mod_eq_of_lt (by omega)] at hmod
  omega

/-! ## Histories -/

/-- A context, and how many names have been given out. -/
structure Holding where
  context : RunContext
  issued : Nat

/-- What a world leaves to the next turn. -/
def Holding.ofWorld (w : World) : Holding := ⟨w.context, w.issued⟩

/-- What is done with a context: it is reset, its variables change, or a demo is run in it. -/
inductive Act where
  | reset
  | update (change : Store → Store)
  | run (bodyMethods : List String) (demo : Demo) (bound : Table Value)

/-- What is done, and what it is done among. -/
structure Turn where
  surroundings : Surroundings
  act : Act

/-- The same turn, with names given out from others. -/
def Turn.naming (names : Names) (turn : Turn) : Surroundings :=
  { turn.surroundings with names }

/-- A run that was made: the name of its context then, what came of it, and what it told. -/
structure Made where
  id : String
  result : Except Failure RunOutcome
  events : List Event

/-- The results of the steps that succeeded. -/
def Made.results (made : Made) : List StepResult :=
  match made.result with
  | .ok o => o.results
  | .error _ => []

/-- Does one thing with a context; there is a run if it is one. -/
def perform (names : Names) (turn : Turn) (x : Holding) : Holding × List Made :=
  let s := turn.naming names
  let start := World.start s.cancellation x.context x.issued
  match turn.act with
  | .reset => (.ofWorld (reset s start).2, [])
  | .update change => (.ofWorld (update change s start).2, [])
  | .run bodyMethods demo bound =>
    match run bodyMethods demo bound s start with
    | (r, w) => (.ofWorld w, [⟨w.context.runId, r, w.events⟩])

/-- Does one thing after the other: what becomes of the context, and the runs that were made. -/
def history (names : Names) : List Turn → Holding → Holding × List Made
  | [], x => (x, [])
  | turn :: turns, x =>
    match perform names turn x with
    | (y, made) =>
      match history names turns y with
      | (z, rest) => (z, made ++ rest)

variable {turn : Turn} {turns : List Turn} {x y z : Holding} {made : Made}

theorem perform_reset (names : Names) (h : turn.act = .reset) (x : Holding) :
    perform names turn x = (⟨.empty, x.issued⟩, []) := by
  unfold perform
  rw [h]
  rfl

theorem perform_update (names : Names) {change : Store → Store} (h : turn.act = .update change)
    (x : Holding) :
    perform names turn x =
      (⟨{ x.context with store := change x.context.store }, x.issued⟩, []) := by
  unfold perform
  rw [h]
  rfl

namespace Holding

/-- The name of a run that is made now. -/
def name (names : Names) (x : Holding) : String :=
  if x.context.runId = "" then names.name (x.issued + 1) else x.context.runId

/-- How many names have been given out once a run is made. -/
def count (x : Holding) : Nat :=
  if x.context.runId = "" then x.issued + 1 else x.issued

theorem name_ne_empty (names : Names) (x : Holding) : x.name names ≠ "" := by
  unfold name
  by_cases hid : x.context.runId = ""
  · rw [if_pos hid]
    exact names.ne_empty _
  · rwa [if_neg hid]

end Holding

/-- What a run makes of a context: it has the name of the run from then on, and with the results that
it had those of the run. All that is told carries the name. -/
structure Makes (names : Names) (x y : Holding) (made : Made) : Prop where
  runId : y.context.runId = x.name names
  issued : y.issued = x.count
  id : made.id = x.name names
  results : ∀ o, made.result = .ok o → y.context.results = x.context.results ++ made.results
  events : ∀ e ∈ made.events, OfRun (x.name names) e

theorem ensureId_start (s : Surroundings) (x : Holding) :
    ensureId s (.start s.cancellation x.context x.issued) =
      (.ok (x.name s.names),
        .start s.cancellation { x.context with runId := x.name s.names } x.count) := by
  by_cases hid : x.context.runId = ""
  · rw [ensureId_of_empty hid, Holding.name, Holding.count, if_pos hid, if_pos hid]
    rfl
  · rw [ensureId_of_ne_empty hid, Holding.name, Holding.count, if_neg hid, if_neg hid]
    rfl

/-- One run in a context. -/
theorem perform_run (names : Names) {demo : Demo} (h : turn.act = .run bodyMethods demo bound)
    (x : Holding) :
    ∃ y made, perform names turn x = (y, [made]) ∧ Makes names x y made := by
  have hbound : Value.field "run_id" (bound.set "run_id" (.text (x.name names))) =
      .text (x.name names) := by
    rw [Value.field, Table.get?_set, if_pos rfl]
    rfl
  rcases hsteps : runSteps bodyMethods demo.settings (bound.set "run_id" (.text (x.name names))) 1
    demo.steps (turn.naming names)
    (.start (turn.naming names).cancellation { x.context with runId := x.name names } x.count)
    with ⟨r, u⟩
  have hrun : run bodyMethods demo bound (turn.naming names)
      (.start (turn.naming names).cancellation x.context x.issued) = (r, u) := by
    rw [run_eq, bind_run_of_ok (ensureId_start (turn.naming names) x)]
    exact hsteps
  have hrunId : u.context.runId = x.name names := runId_of_runSteps hsteps
  refine ⟨.ofWorld u, ⟨u.context.runId, r, u.events⟩, ?_, ?_⟩
  · unfold perform
    rw [h]
    simp only [hrun]
  · refine ⟨hrunId, issued_of_runSteps hsteps, hrunId, ?_, ?_⟩
    · rintro o rfl
      exact results_of_runSteps hsteps
    · obtain ⟨es, hes, htold⟩ := adds_ofRun hbound hsteps
      obtain rfl : u.events = es := hes
      exact htold

theorem history_cons (names : Names) (turn : Turn) (turns : List Turn) (x : Holding) :
    history names (turn :: turns) x =
      ((history names turns (perform names turn x).1).1,
        (perform names turn x).2 ++ (history names turns (perform names turn x).1).2) := rfl

/-- What histories one after the other make is what they make together. -/
theorem history_append (names : Names) (xs ys : List Turn) (x : Holding) :
    history names (xs ++ ys) x =
      ((history names ys (history names xs x).1).1,
        (history names xs x).2 ++ (history names ys (history names xs x).1).2) := by
  induction xs generalizing x with
  | nil => rfl
  | cons turn turns ih =>
    rw [List.cons_append, history_cons, history_cons, ih, List.append_assoc]

/-- Names are only ever given out, never taken back. -/
theorem issued_le_perform (names : Names) (turn : Turn) (x : Holding) :
    x.issued ≤ (perform names turn x).1.issued := by
  cases hact : turn.act with
  | reset => exact Nat.le_of_eq (by rw [perform_reset names hact])
  | update change => exact Nat.le_of_eq (by rw [perform_update names hact])
  | run bodyMethods demo bound =>
    obtain ⟨y, made, hperform, hmakes⟩ := perform_run names hact x
    rw [hperform, hmakes.issued, Holding.count]
    split <;> omega

theorem issued_le_history (names : Names) (turns : List Turn) (x : Holding) :
    x.issued ≤ (history names turns x).1.issued := by
  induction turns generalizing x with
  | nil => exact Nat.le_refl _
  | cons turn turns ih => exact Nat.le_trans (issued_le_perform names turn x) (ih _)

theorem Makes.name_eq (h : Makes names x y made) :
    y.name names = x.name names ∧ y.count = x.count := by
  have hne : y.context.runId ≠ "" := by
    rw [h.runId]
    exact x.name_ne_empty names
  rw [Holding.name, Holding.count, if_neg hne, if_neg hne]
  exact ⟨h.runId, h.issued⟩

/-- What is made of a context where it is not reset: its results grow by those of the runs, and all
runs have one name, which stays. -/
structure Goes (names : Names) (x y : Holding) (runs : List Made) : Prop where
  results : y.context.results = x.context.results ++ runs.flatMap Made.results
  idle : runs = [] → y.context.runId = x.context.runId ∧ y.issued = x.issued
  named : runs ≠ [] → y.context.runId = x.name names ∧ y.issued = x.count
  runs : ∀ made ∈ runs, made.id = x.name names ∧ ∀ e ∈ made.events, OfRun (x.name names) e

/-- One more run before what goes on without a reset. -/
theorem Goes.cons {rest : List Made} (h : Makes names x y made)
    (hresult : ∃ o, made.result = .ok o) (hrest : Goes names y z rest) :
    Goes names x z (made :: rest) := by
  obtain ⟨o, ho⟩ := hresult
  obtain ⟨hnames, hcount⟩ := h.name_eq
  refine ⟨?_, nofun, fun _ => ?_, ?_⟩
  · rw [hrest.results, h.results o ho, List.flatMap_cons, List.append_assoc]
  · by_cases hidle : rest = []
    · obtain ⟨hrunId, hissued⟩ := hrest.idle hidle
      exact ⟨hrunId.trans h.runId, hissued.trans h.issued⟩
    · obtain ⟨hrunId, hissued⟩ := hrest.named hidle
      exact ⟨hrunId.trans hnames, hissued.trans hcount⟩
  · refine List.forall_mem_cons.2 ⟨⟨h.id, h.events⟩, fun made hmem => ?_⟩
    rw [← hnames]
    exact hrest.runs made hmem

theorem goes_history (hreset : ∀ turn ∈ turns, turn.act ≠ .reset)
    (hresults : ∀ made ∈ (history names turns x).2, ∃ o, made.result = .ok o) :
    Goes names x (history names turns x).1 (history names turns x).2 := by
  induction turns generalizing x with
  | nil => exact ⟨(List.append_nil _).symm, fun _ => ⟨rfl, rfl⟩, fun h => absurd rfl h, nofun⟩
  | cons turn turns ih =>
    obtain ⟨hfirst, hothers⟩ := List.forall_mem_cons.1 hreset
    rw [history_cons] at hresults ⊢
    cases hact : turn.act with
    | reset => exact absurd hact hfirst
    | update change =>
      -- Variables are no part of what is claimed, so this is the claim for what comes after.
      rw [perform_update names hact] at hresults ⊢
      obtain ⟨results, idle, named, runs⟩ := ih hothers hresults
      exact ⟨results, idle, named, runs⟩
    | run bodyMethods demo bound =>
      obtain ⟨y, made, hperform, hmakes⟩ := perform_run names hact x
      rw [hperform] at hresults ⊢
      have hrest := ih (x := y) hothers fun made hmem => hresults made (List.mem_cons_of_mem _ hmem)
      exact .cons hmakes (hresults made List.mem_cons_self) hrest

/-- The name is one of those given out after the first so many. -/
def GivenOut (names : Names) (before after : Nat) (id : String) : Prop :=
  ∃ n, before < n ∧ n ≤ after ∧ id = names.name n

theorem GivenOut.mono {before before' after : Nat} {id : String}
    (h : GivenOut names before' after id) (hle : before ≤ before') :
    GivenOut names before after id := by
  obtain ⟨n, hn, hlast, hid⟩ := h
  exact ⟨n, by omega, hlast, hid⟩

/-- A run has the name that the context came with or one that was given out since. -/
theorem givenOut_of_history (names : Names) (turns : List Turn) (x : Holding) :
    ∀ made ∈ (history names turns x).2, made.id ≠ "" ∧ (made.id = x.context.runId ∨
      GivenOut names x.issued (history names turns x).1.issued made.id) := by
  induction turns generalizing x with
  | nil => exact nofun
  | cons turn turns ih =>
    rw [history_cons]
    cases hact : turn.act with
    | reset =>
      rw [perform_reset names hact]
      intro made hmem
      obtain ⟨hne, hid⟩ := ih _ made hmem
      exact ⟨hne, .inr (hid.resolve_left hne)⟩
    | update change =>
      rw [perform_update names hact]
      exact ih _
    | run bodyMethods demo bound =>
      obtain ⟨y, made, hperform, hmakes⟩ := perform_run names hact x
      rw [hperform]
      have hlast : x.count ≤ (history names turns y).1.issued := by
        rw [← hmakes.issued]
        exact issued_le_history names turns y
      have hname : x.name names = x.context.runId ∨
          GivenOut names x.issued (history names turns y).1.issued (x.name names) := by
        rw [Holding.count] at hlast
        rw [Holding.name]
        by_cases hid : x.context.runId = ""
        · rw [if_pos hid] at hlast ⊢
          exact .inr ⟨x.issued + 1, by omega, hlast, rfl⟩
        · rw [if_neg hid]
          exact .inl rfl
      have hle : x.issued ≤ y.issued := by
        have hstep := issued_le_perform names turn x
        rwa [hperform] at hstep
      refine List.forall_mem_cons.2 ⟨?_, fun rest hmem => ?_⟩
      · rw [hmakes.id]
        exact ⟨x.name_ne_empty names, hname⟩
      · obtain ⟨hne, hid | hid⟩ := ih y rest hmem
        · refine ⟨hne, ?_⟩
          rw [hid, hmakes.runId]
          exact hname
        · exact ⟨hne, .inr (hid.mono hle)⟩

theorem exists_last_reset (turns : List Turn) :
    ∃ before since, turns = before ++ since ∧ (∀ turn ∈ since, turn.act ≠ .reset) ∧
      (before = [] ∨ ∃ earlier last, before = earlier ++ [last] ∧ last.act = .reset) := by
  induction turns with
  | nil => exact ⟨[], [], rfl, nofun, .inl rfl⟩
  | cons turn turns ih =>
    obtain ⟨before, since, rfl, hreset, hbefore⟩ := ih
    obtain rfl | ⟨earlier, last, rfl, hlast⟩ := hbefore
    · by_cases hact : turn.act = .reset
      · exact ⟨[turn], since, rfl, hreset, .inr ⟨[], turn, rfl, hact⟩⟩
      · exact ⟨[], turn :: since, rfl, List.forall_mem_cons.2 ⟨hact, hreset⟩, .inl rfl⟩
    · exact ⟨turn :: (earlier ++ [last]), since, rfl, hreset,
        .inr ⟨turn :: earlier, last, rfl, hlast⟩⟩

theorem context_of_reset (names : Names) (turns : List Turn) (h : turn.act = .reset) (x : Holding) :
    (history names (turns ++ [turn]) x).1.context = RunContext.empty := by
  rw [history_append, history_cons, perform_reset names h]
  rfl

/-- The name of the first run after a reset, or the one that a context came with, is none of those
given out before the reset. -/
theorem not_givenOut_name {last : Nat} (h : Distinct names last) (hcount : y.count ≤ last)
    (hy : y = x ∨ y.context = RunContext.empty) :
    ¬ GivenOut names x.issued y.issued (y.name names) := by
  rintro ⟨n, hn, hlast, hid⟩
  obtain rfl | hempty := hy
  · omega
  · rw [Holding.count, hempty] at hcount
    rw [Holding.name, hempty] at hid
    exact h n (y.issued + 1) (by omega) (by omega) hcount hid.symm

/-- After any history of a context that had no results at first, let `since` be what was done since
the last reset. The results of the context are those of the runs since then, one after the other.
If there was such a run, the context has a name, which is the name of all these runs and on all
their events, and which is none of the names that were given out before; the runs before had these,
or the name that the context came with. What came since then went as from a context without name,
variables and results. A change of the variables changes nothing else. -/
theorem history_since_reset (names : Names) (turns : List Turn) (x : Holding)
    (hstart : x.context.results = []) (hnames : Distinct names (history names turns x).1.issued)
    (hresults : ∀ made ∈ (history names turns x).2, ∃ o, made.result = .ok o) :
    (∃ before since, turns = before ++ since ∧ (∀ turn ∈ since, turn.act ≠ .reset) ∧
      (before = [] ∨ ∃ earlier last, before = earlier ++ [last] ∧ last.act = .reset) ∧
      ∃ y z made runs, history names before x = (y, made) ∧ history names since y = (z, runs) ∧
        history names turns x = (z, made ++ runs) ∧
        z.context.results = runs.flatMap Made.results ∧
        (runs ≠ [] → z.context.runId ≠ "" ∧
          (∀ run ∈ runs, run.id = z.context.runId ∧ ∀ e ∈ run.events, OfRun z.context.runId e) ∧
          (∀ run ∈ made, run.id = x.context.runId ∨ GivenOut names x.issued y.issued run.id) ∧
          ¬ GivenOut names x.issued y.issued z.context.runId) ∧
        (before ≠ [] →
          y.context.runId = "" ∧ y.context.store = [] ∧ y.context.results = [])) ∧
    ∀ s change y, perform names ⟨s, .update change⟩ y =
      (⟨{ y.context with store := change y.context.store }, y.issued⟩, []) := by
  refine ⟨?_, fun s change y => perform_update names rfl y⟩
  obtain ⟨before, since, rfl, hreset, hbefore⟩ := exists_last_reset turns
  refine ⟨before, since, rfl, hreset, hbefore, ?_⟩
  rcases hmade : history names before x with ⟨y, made⟩
  rcases hruns : history names since y with ⟨z, runs⟩
  have hturns := history_append names before since x
  rw [hmade, hruns] at hturns
  rw [hturns] at hnames hresults ⊢
  have hgoes : Goes names y z runs := by
    have hsince : Goes names y (history names since y).1 (history names since y).2 :=
      goes_history hreset fun made hmem => hresults made (by rw [hruns] at hmem; simp [hmem])
    rwa [hruns] at hsince
  have hgiven := givenOut_of_history names before x
  rw [hmade] at hgiven
  have hy : y = x ∨ y.context = RunContext.empty := by
    obtain rfl | ⟨earlier, last, rfl, hlast⟩ := hbefore
    · cases hmade
      exact .inl rfl
    · have hempty := context_of_reset names earlier hlast x
      rw [hmade] at hempty
      exact .inr hempty
  have hnone : y.context.results = [] := by
    obtain rfl | hempty := hy
    · exact hstart
    · rw [hempty]
      rfl
  refine ⟨y, z, made, runs, rfl, hruns, rfl, ?_, fun hne => ?_, fun hne => ?_⟩
  · rw [hgoes.results, hnone, List.nil_append]
  · obtain ⟨hrunId, hissued⟩ := hgoes.named hne
    have hcount : y.count ≤ z.issued := Nat.le_of_eq hissued.symm
    rw [hrunId]
    exact ⟨y.name_ne_empty names, hgoes.runs, fun run hmem => (hgiven run hmem).2,
      not_givenOut_name hnames hcount hy⟩
  · obtain ⟨earlier, last, rfl, hlast⟩ := hbefore.resolve_left hne
    have hempty := context_of_reset names earlier hlast x
    rw [hmade] at hempty
    rw [hempty]
    exact ⟨rfl, rfl, rfl⟩

/-- Jobs are created and looked at twice, then the context is reset and is told of another job, at
which a service that cannot be reached is asked to look. -/
def jobTurns : List Turn :=
  [⟨Step.jobSurroundings, .run RestLine.bodyMethods jobDemo []⟩,
    ⟨Step.jobSurroundings, .run RestLine.bodyMethods jobDemo []⟩,
    ⟨Step.jobSurroundings, .reset⟩,
    ⟨Step.jobSurroundings, .update (·.set "id" (.int 6))⟩,
    ⟨.plain (.ofList [.unreachable "refused"]),
      .run RestLine.bodyMethods { jobDemo with steps := [lookStep] } []⟩]

theorem history_since_reset_jobs :
    ∃ before since, jobTurns = before ++ since ∧ (∀ turn ∈ since, turn.act ≠ .reset) ∧
      ∃ y z made runs, history .counted before ⟨RunContext.empty, 0⟩ = (y, made) ∧
        history .counted since y = (z, runs) ∧ z.context.results = runs.flatMap Made.results := by
  have hissued : (history .counted jobTurns ⟨RunContext.empty, 0⟩).1.issued = 2 := by
    decide +kernel
  have hresults : ∀ made ∈ (history .counted jobTurns ⟨RunContext.empty, 0⟩).2,
      made.result.isOk := by
    decide +kernel
  have hnames : Distinct .counted (history .counted jobTurns ⟨RunContext.empty, 0⟩).1.issued := by
    rw [hissued]
    exact distinct_counted (by decide)
  obtain ⟨⟨before, since, hturns, hreset, -, y, z, made, runs, hmade, hruns, -, hall, -, -⟩, -⟩ :=
    history_since_reset .counted jobTurns ⟨RunContext.empty, 0⟩ rfl hnames fun made hmem => by
      have hok := hresults made hmem
      rcases made with ⟨id, e | o, events⟩
      · cases hok
      · exact ⟨o, rfl⟩
  exact ⟨before, since, hturns, hreset, y, z, made, runs, hmade, hruns, hall⟩

end Run

end RestDemo
