import RestDemo.CommandLine.Session
import RestDemo.Proofs.Json.Indented
import RestDemo.Proofs.Run.Success
import RestDemo.Proofs.Value.Spelling
import Mathlib.Algebra.Group.Int.Defs

/-!
# How the program ends

A script is run if it loads, it can be announced, and the variables are a mapping (`Ready`). Neither
how it is loaded nor what its tasks do is known here. The status is zero exactly if, besides, every
task succeeds and what came of them can be printed, and whatever becomes of the run, its client is
closed once, after the last request. Of the demos in files, what is printed is there if the title
has a text, however documents are read (`exit_and_client`).
-/

namespace RestDemo.CommandLine

open Engine

variable {environment : Environment} {load : String → String → Demo.Loading Script}
  {arguments : Arguments} {script : Script} {store : Store} {console : Console} {w : World}
  {texts : List (Except Fault String)}

/-! ## What is run -/

/-- The console can be set to the level that is set around. -/
def Environment.LevelKnown (environment : Environment) : Prop :=
  Console.thresholds.has (Text.upper (environment.logLevel.getD Console.defaultThreshold))

theorem exists_setUp (h : environment.LevelKnown) :
    ∃ console, Console.blank.setUp (environment.logLevel.getD Console.defaultThreshold) =
      (.ok (), console) := by
  unfold Environment.LevelKnown Table.has at h
  obtain ⟨weight, hweight⟩ := Option.isSome_iff_exists.1 h
  refine ⟨{ Console.blank with threshold := some weight }, ?_⟩
  rw [Console.setUp, hweight]

/-- The variables that the arguments give: none where they say nothing, or those of a mapping. -/
inductive Arguments.Gives (arguments : Arguments) : Store → Prop
  | nothing (unsaid : arguments.assignments = none ∨ arguments.assignments = some "") :
    Gives arguments []
  | mapping {raw : String} {store : Store} (said : arguments.assignments = some raw)
      (nonempty : raw ≠ "") (reads : Json.read raw.toList = .ok (.object store)) :
    Gives arguments store

theorem variablesOf_ok_iff {raw : String} :
    variablesOf raw = .ok store ↔ Json.read raw.toList = .ok (.object store) := by
  unfold variablesOf
  split <;> simp_all

theorem givenVariables_of_said {raw : String} (said : arguments.assignments = some raw)
    (nonempty : raw ≠ "") : givenVariables arguments = variablesOf raw := by
  unfold givenVariables
  rw [said]
  split
  · contradiction
  · next h => exact absurd (Option.some.inj h) nonempty
  · next h => rw [Option.some.inj h]

theorem givenVariables_ok_iff : givenVariables arguments = .ok store ↔ arguments.Gives store := by
  constructor
  · intro h
    unfold givenVariables at h
    split at h
    · next hnone =>
      cases h
      exact .nothing (.inl hnone)
    · next hempty =>
      cases h
      exact .nothing (.inr hempty)
    · next raw hne hraw => exact .mapping hraw hne (variablesOf_ok_iff.1 h)
  · rintro ((hnone | hempty) | ⟨said, nonempty, reads⟩)
    · simp [givenVariables, hnone]
    · simp [givenVariables, hempty]
    · rw [givenVariables_of_said said nonempty]
      exact variablesOf_ok_iff.2 reads

theorem Arguments.Gives.writable (h : arguments.Gives store) : store.Writable := by
  cases h with
  | nothing => exact fun _ hp => nomatch hp
  | mapping _ _ reads => exact Json.writable_object.1 (Json.writable_of_read reads)

/-! ## Printing -/

/-- The texts are there, and all of them can be printed. -/
def Environment.Prints (environment : Environment) (texts : List (Except Fault String)) : Prop :=
  ∀ text ∈ texts, ∃ shown, text = .ok shown ∧ environment.refuses shown = none

/-- Of the texts, those that are there can be printed. -/
def Environment.Accepts (environment : Environment) (texts : List (Except Fault String)) : Prop :=
  ∀ shown, .ok shown ∈ texts → environment.refuses shown = none

namespace Environment

theorem print_ok_iff : (environment.print texts console).1 = .ok () ↔ environment.Prints texts := by
  induction texts generalizing console with
  | nil => exact iff_of_true rfl nofun
  | cons text texts ih =>
    rw [Prints, List.forall_mem_cons, ← Prints]
    rcases text with f | shown
    · exact iff_of_false nofun (by simp)
    · rw [print]
      cases hrefuses : environment.refuses shown with
      | none => simp [hrefuses, ih]
      | some f => simp [hrefuses]

/-- Either all texts are printed, or one of them keeps the others from it. -/
theorem print_cases (environment : Environment) (texts : List (Except Fault String))
    (console : Console) :
    (environment.Prints texts ∧ ∃ console', environment.print texts console = (.ok (), console')) ∨
      (¬ environment.Prints texts ∧
        ∃ f console', environment.print texts console = (.error f, console')) := by
  have hprints : (environment.print texts console).1 = .ok () ↔ environment.Prints texts :=
    print_ok_iff
  rcases hprint : environment.print texts console with ⟨f | _, console'⟩ <;> rw [hprint] at hprints
  · exact .inr ⟨mt hprints.2 nofun, f, console', rfl⟩
  · exact .inl ⟨hprints.1 rfl, console', rfl⟩

theorem prints_iff : environment.Prints texts ↔
    (∀ text ∈ texts, ∃ shown, text = .ok shown) ∧ environment.Accepts texts := by
  constructor
  · intro h
    refine ⟨fun text htext => ?_, fun shown hshown => ?_⟩
    · obtain ⟨shown, rfl, -⟩ := h text htext
      exact ⟨shown, rfl⟩
    · obtain ⟨_, heq, hrefuses⟩ := h _ hshown
      rwa [← Except.ok.inj heq] at hrefuses
  · rintro ⟨hthere, haccepts⟩ text htext
    obtain ⟨shown, rfl⟩ := hthere text htext
    exact ⟨shown, rfl, haccepts shown htext⟩

theorem accepts_append {others : List (Except Fault String)} :
    environment.Accepts (texts ++ others) ↔
      environment.Accepts texts ∧ environment.Accepts others := by
  simp only [Accepts, List.mem_append, or_imp, forall_and]

theorem refusal_spec (environment : Environment) (message : String) (console : Console)
    (client : List ClientAct) :
    (environment.refusal message console client).ending ≠ .ok 0 ∧
      (environment.refusal message console client).client = client := by
  unfold refusal
  split <;> simp

/-- A fault does not end well, and leaves the client as it is. -/
theorem faulty_spec (environment : Environment) (f : Fault) (console : Console)
    (client : List ClientAct) :
    (environment.faulty f console client).ending ≠ .ok 0 ∧
      (environment.faulty f console client).client = client := by
  unfold faulty
  split
  · exact environment.refusal_spec _ console client
  · simp

end Environment

/-- What cannot be run does not end well, and has no client. -/
theorem Obstacle.outcome_spec (o : Obstacle) (environment : Environment) (console : Console) :
    (o.outcome environment console).ending ≠ .ok 0 ∧
      (o.outcome environment console).client = [] := by
  cases o with
  | fault f => exact environment.faulty_spec f console []
  | _ => exact environment.refusal_spec _ console []

/-! ## Before the run -/

/-- What is to be run is there: the script, which can be announced, and the variables at the
start. -/
structure Ready (environment : Environment) (load : String → String → Demo.Loading Script)
    (arguments : Arguments) (script : Script) (store : Store) : Prop where
  loads : load arguments.file (givenBaseUrl arguments environment) = .ok script
  gives : arguments.Gives store
  announced : environment.Prints (announcement script)

theorem prepare_ok_iff : prepare load arguments environment = .ok (script, store) ↔
    load arguments.file (givenBaseUrl arguments environment) = .ok script ∧
      arguments.Gives store := by
  rw [← givenVariables_ok_iff]
  unfold prepare
  rcases load arguments.file (givenBaseUrl arguments environment) with e | script'
  · exact iff_of_false nofun nofun
  · rcases givenVariables arguments with obstacle | store'
    · exact iff_of_false nofun nofun
    · change Except.ok (script', store') = .ok (script, store) ↔ _
      rw [Except.ok.injEq, Except.ok.injEq, Except.ok.injEq, Prod.mk.injEq]

/-! ## The run -/

/-- The world in which the first task begins: the run has the first name that is given out. -/
def startWith (store : Store) : World := .start none ⟨issuedId 1, store, []⟩ 1

/-- What is bound to the log of the run. -/
def boundToRun : Table Value := [("run_id", .text (issuedId 1))]

theorem runAll_eq_runTasks (tasks : List Task) (store : Store) (service : Service) :
    Run.runAll tasks [] (.plain service) (.start none ⟨"", store, []⟩ 0) =
      Run.runTasks boundToRun 1 tasks (.plain service) (startWith store) := by
  rw [Run.runAll, bind_run_of_ok (Run.ensureId_of_empty rfl)]
  rfl

theorem finish_client (r : Except Failure RunOutcome) :
    (finish environment script w console r).client = clientOf w := by
  match r with
  | .error (.fault f) => exact (environment.faulty_spec f console _).2
  | .error (.step e) => exact (environment.faulty_spec _ console _).2
  | .ok outcome =>
    unfold finish
    dsimp only
    split
    · exact (environment.faulty_spec _ _ _).2
    · rfl

/-- A run ends well exactly if no task failed and what came of it can be printed. -/
theorem finish_ending_iff {r : Except Failure RunOutcome} :
    (finish environment script w console r).ending = .ok 0 ↔ ∃ results,
      r = .ok ⟨none, results⟩ ∧ environment.Prints (report script w.context ⟨none, results⟩) := by
  match r with
  | .error (.fault f) => exact iff_of_false (environment.faulty_spec f _ _).1 (by simp)
  | .error (.step e) => exact iff_of_false (environment.faulty_spec _ _ _).1 (by simp)
  | .ok ⟨failed, results⟩ =>
    unfold finish
    dsimp only
    obtain ⟨hshown, console', hprint⟩ | ⟨hnot, f, console', hprint⟩ :=
      environment.print_cases (report script w.context ⟨failed, results⟩) console
    · rw [hprint]
      cases failed with
      | none => exact iff_of_true rfl ⟨results, rfl, hshown⟩
      | some failed => exact iff_of_false (by simp [RunOutcome.isOk]) (by simp)
    · rw [hprint]
      refine iff_of_false (environment.faulty_spec f _ _).1 ?_
      rintro ⟨others, heq, hothers⟩
      cases heq
      exact hnot hothers

/-- How a script that is run ends, and what is done with its client. -/
theorem execute_spec (environment : Environment) (script : Script) (store : Store)
    (service : Service) (console : Console) :
    ((execute environment script store service console).ending = .ok 0 ↔
      environment.Prints (announcement script) ∧ ∃ results w,
        Run.Succeed boundToRun (.plain service) 1 script.tasks (startWith store) results w ∧
        environment.Prints (report script w.context ⟨none, results⟩)) ∧
    ((execute environment script store service console).client = [] ∨
      environment.Prints (announcement script) ∧
        (execute environment script store service console).client =
          clientOf (Run.runTasks boundToRun 1 script.tasks (.plain service) (startWith store)).2) := by
  unfold execute
  obtain ⟨hannounced, console', hprint⟩ | ⟨hnot, f, console', hprint⟩ :=
    environment.print_cases (announcement script) console
  · rw [hprint]
    dsimp only
    rw [runAll_eq_runTasks]
    simp only [Run.succeed_iff]
    rcases Run.runTasks boundToRun 1 script.tasks (.plain service) (startWith store) with ⟨r, u⟩
    refine ⟨?_, .inr ⟨hannounced, finish_client r⟩⟩
    rw [finish_ending_iff]
    constructor
    · rintro ⟨results, rfl, hreport⟩
      exact ⟨hannounced, results, u, rfl, hreport⟩
    · rintro ⟨-, results, _, heq, hreport⟩
      cases heq
      exact ⟨results, rfl, hreport⟩
  · rw [hprint]
    obtain ⟨hending, hclient⟩ := environment.faulty_spec f console' []
    exact ⟨iff_of_false hending fun h => hnot h.1, .inl hclient⟩

/-! ## The demo of a file -/

/-- The script of a demo, run under the address that is given instead of its own if there is one. -/
def scriptOf (arguments : Arguments) (environment : Environment) (demo : RestDemo.Demo) : Script :=
  .ofDemo arguments.file (withBaseUrl (givenBaseUrl arguments environment) demo)

/-- The title of a demo has a text if none of its integers has too many digits; without a title there
is the path. -/
theorem title_ok_iff {path : String} {demo : RestDemo.Demo} :
    (∃ title, (Script.ofDemo path demo).title = .ok title) ↔ Json.Writable demo.title := by
  unfold Script.ofDemo Value.orElse
  by_cases h : demo.title.isTruthy
  · simp only [h, ↓reduceIte]
    exact Value.shown_ok_iff
  · simp only [h, Bool.false_eq_true, ↓reduceIte]
    exact iff_of_true ⟨path, rfl⟩ (Json.writable_of_not_isTruthy h)

theorem title_withBaseUrl (baseUrl : String) (demo : RestDemo.Demo) :
    (withBaseUrl baseUrl demo).title = demo.title := by
  unfold withBaseUrl
  split <;> rfl

/-- The announcement of a demo is there if its title has a text. -/
theorem prints_announcement_iff {demo : RestDemo.Demo} :
    environment.Prints (announcement (scriptOf arguments environment demo)) ↔
      Json.Writable demo.title ∧
        environment.Accepts (announcement (scriptOf arguments environment demo)) := by
  have htitle : (∃ title, (scriptOf arguments environment demo).title = .ok title) ↔
      Json.Writable demo.title := by
    rw [scriptOf, title_ok_iff, title_withBaseUrl]
  rw [Environment.prints_iff, ← htitle]
  refine and_congr_left fun _ => ?_
  rw [announcement, List.forall_mem_cons]
  constructor
  · rintro ⟨⟨shown, hshown⟩, -⟩
    obtain ⟨title, htitle, -⟩ := ok_of_map hshown
    exact ⟨title, htitle⟩
  · rintro ⟨title, htitle⟩
    rw [htitle]
    exact ⟨⟨_, rfl⟩, by simp⟩

/-- The variables at the end have a text, if they can be written. -/
theorem exists_variablesText (h : store.Writable) : ∃ text, variablesText store = .ok text := by
  obtain ⟨text, htext⟩ := Json.indentedText_ok_iff.2 (Json.writable_object.2 h)
  exact ⟨_, by rw [variablesText, htext]; rfl⟩

/-- What came of a run that leaves variables that can be written is there. -/
theorem prints_report_iff {outcome : RunOutcome} (h : w.context.store.Writable) :
    environment.Prints (report script w.context outcome) ↔
      environment.Accepts (report script w.context outcome) := by
  rw [Environment.prints_iff, and_iff_right]
  refine List.forall_mem_append.2 ⟨fun text htext => ?_, List.forall_mem_singleton.2 ?_⟩
  · obtain ⟨shown, -, rfl⟩ := List.mem_map.1 htext
    exact ⟨shown, rfl⟩
  · exact exists_variablesText h

theorem load_ok_iff {read : List UInt8 → Except DocumentError Value}
    {entryAt : String → Demo.Entry} :
    Script.load read entryAt arguments.file (givenBaseUrl arguments environment) = .ok script ↔
      ∃ demo, Demo.loadFile read arguments.file (entryAt arguments.file) = .ok demo ∧
        script = scriptOf arguments environment demo := by
  unfold Script.load
  rcases Demo.loadFile read arguments.file (entryAt arguments.file) with e | demo
  · exact iff_of_false nofun (by simp)
  · simp only [bind, Except.bind, pure, Except.pure, Except.ok.injEq, exists_eq_left']
    exact eq_comm

/-! ## The program -/

theorem run_eq_of_level (program : String) (load : String → String → Demo.Loading Script)
    (service : Service) {words : List String} (hlevel : environment.LevelKnown)
    (hwords : Intent.ofArguments words = .run arguments) :
    ∃ console, run program environment load service words =
      match prepare load arguments environment with
      | .error obstacle => obstacle.outcome environment console
      | .ok (script, store) => execute environment script store service console := by
  obtain ⟨console, hconsole⟩ := exists_setUp hlevel
  refine ⟨console, ?_⟩
  rcases hprepare : prepare load arguments environment with obstacle | ⟨script, store⟩ <;>
  simp only [run, hconsole, hwords, hprepare]

/-- What a script that is run comes to, and what is not ready. -/
theorem run_spec (program : String) (load : String → String → Demo.Loading Script)
    (service : Service) {words : List String} (hlevel : environment.LevelKnown)
    (hwords : Intent.ofArguments words = .run arguments) :
    let out := run program environment load service words
    (out.ending = .ok 0 ↔ ∃ script store results w, Ready environment load arguments script store ∧
      Run.Succeed boundToRun (.plain service) 1 script.tasks (startWith store) results w ∧
      environment.Prints (report script w.context ⟨none, results⟩)) ∧
    (out.client = [] ∨ ∃ script store, Ready environment load arguments script store ∧
      out.client =
        clientOf (Run.runTasks boundToRun 1 script.tasks (.plain service) (startWith store)).2) := by
  intro out
  obtain ⟨console, hrun⟩ := run_eq_of_level program load service hlevel hwords
  rcases hprepare : prepare load arguments environment with obstacle | ⟨script, store⟩
  · have hout : out = obstacle.outcome environment console := by
      rw [show out = _ from hrun, hprepare]
    rw [hout]
    obtain ⟨hending, hclient⟩ := obstacle.outcome_spec environment console
    refine ⟨iff_of_false hending ?_, .inl hclient⟩
    rintro ⟨script, store, -, -, hready, -⟩
    cases hprepare.symm.trans (prepare_ok_iff.2 ⟨hready.loads, hready.gives⟩)
  · obtain ⟨hloads, hgives⟩ := prepare_ok_iff.1 hprepare
    have hout : out = execute environment script store service console := by
      rw [show out = _ from hrun, hprepare]
    rw [hout]
    obtain ⟨hending, hclient⟩ := execute_spec environment script store service console
    refine ⟨hending.trans ⟨?_, ?_⟩, hclient.imp_right fun h =>
      ⟨script, store, ⟨hloads, hgives, h.1⟩, h.2⟩⟩
    · rintro ⟨hannounced, results, w, hsucceed⟩
      exact ⟨script, store, results, w, ⟨hloads, hgives, hannounced⟩, hsucceed⟩
    · rintro ⟨script', store', results, w, hready, hsucceed⟩
      cases hprepare.symm.trans (prepare_ok_iff.2 ⟨hready.loads, hready.gives⟩)
      exact ⟨hready.announced, results, w, hsucceed⟩

/-- The status is zero exactly if the script loads, the variables are a mapping if they are given,
every task succeeds, and what is printed can be printed. What does not load, or is given variables
that are no mapping, has no client; and whatever becomes of a run, its client sends the requests of
the run and is then closed. Of a demo in a file, however that is read, what is printed is there if
its title has a text. -/
theorem exit_and_client (program : String) (load : String → String → Demo.Loading Script)
    (service : Service) {words : List String} (hlevel : environment.LevelKnown)
    (hwords : Intent.ofArguments words = .run arguments) :
    let out := run program environment load service words
    (out.ending = .ok 0 ↔ ∃ script store results w, Ready environment load arguments script store ∧
      Run.Succeed boundToRun (.plain service) 1 script.tasks (startWith store) results w ∧
      environment.Prints (report script w.context ⟨none, results⟩)) ∧
    ((∀ script, load arguments.file (givenBaseUrl arguments environment) ≠ .ok script) ∨
      (∀ store, ¬ arguments.Gives store) → out.client = []) ∧
    (out.client = [] ∨ ∃ script store, Ready environment load arguments script store ∧
      out.client = (Run.runTasks boundToRun 1 script.tasks (.plain service)
        (startWith store)).2.sent.map .send ++ [.close]) ∧
    ∀ read entryAt, load = Script.load read entryAt →
      (out.ending = .ok 0 ↔ ∃ demo store results w,
        Demo.loadFile read arguments.file (entryAt arguments.file) = .ok demo ∧
        Json.Writable demo.title ∧ arguments.Gives store ∧
        Run.Succeed boundToRun (.plain service) 1 (scriptOf arguments environment demo).tasks
          (startWith store) results w ∧
        environment.Accepts (announcement (scriptOf arguments environment demo) ++
          report (scriptOf arguments environment demo) w.context ⟨none, results⟩)) := by
  intro out
  obtain ⟨hending, hclient⟩ := run_spec program load service hlevel hwords
  refine ⟨hending, ?_, hclient, ?_⟩
  · intro hrejected
    refine hclient.resolve_right ?_
    rintro ⟨script, store, hready, -⟩
    rcases hrejected with hfile | hvariables
    · exact hfile script hready.loads
    · exact hvariables store hready.gives
  · rintro read entryAt rfl
    refine hending.trans ⟨?_, ?_⟩
    · rintro ⟨script, store, results, w, ⟨hloads, hgives, hannounced⟩, hsucceed, hreport⟩
      obtain ⟨demo, hdemo, rfl⟩ := load_ok_iff.1 hloads
      have hstored := hsucceed.stored rfl rfl hgives.writable
      obtain ⟨htitle, hannounced⟩ := prints_announcement_iff.1 hannounced
      exact ⟨demo, store, results, w, hdemo, htitle, hgives, hsucceed,
        Environment.accepts_append.2 ⟨hannounced, (prints_report_iff hstored).1 hreport⟩⟩
    · rintro ⟨demo, store, results, w, hdemo, htitle, hgives, hsucceed, haccepts⟩
      obtain ⟨hannounced, hreport⟩ := Environment.accepts_append.1 haccepts
      have hstored := hsucceed.stored rfl rfl hgives.writable
      exact ⟨_, store, results, w, ⟨load_ok_iff.2 ⟨demo, hdemo, rfl⟩, hgives,
        prints_announcement_iff.2 ⟨htitle, hannounced⟩⟩, hsucceed,
        (prints_report_iff hstored).2 hreport⟩

/-! ## A title with too many digits -/

theorem shown_of_overlong {n : Int} (h : 10 ^ Number.maxDigits ≤ n.natAbs) :
    (Value.int n).shown = .error .tooLong := by
  have hlong : ¬ (Nat.toDigits 10 n.natAbs).length ≤ Number.maxDigits := by
    rw [Nat.length_toDigits_le_iff (by decide) (by decide)]
    exact Nat.not_lt.2 h
  have htext : Number.intText n = .error .tooLong := by
    rw [Number.intText, Number.intText?, if_neg hlong]
  rw [Value.shown_eq_map (by simp), Value.spell, htext]
  rfl

/-- A title with too many digits has no text. -/
theorem title_of_overlong {path : String} {demo : RestDemo.Demo} {n : Int}
    (htitle : demo.title = .int n) (hlong : 10 ^ Number.maxDigits ≤ n.natAbs) :
    (Script.ofDemo path demo).title = .error .tooLong := by
  have hpos : 0 < n.natAbs := Nat.lt_of_lt_of_le (Nat.pow_pos (by decide)) hlong
  have hgiven : (Value.int n).isTruthy = true := by
    simp only [Value.isTruthy, bne_iff_ne]
    omega
  unfold Script.ofDemo
  rw [htitle, Value.orElse, if_pos hgiven, shown_of_overlong hlong]

/-- A script whose title has too many digits ends with status one where everything can be printed. -/
theorem run_of_overlong (program : String) (service : Service) {words : List String}
    (hlevel : environment.LevelKnown) (hwords : Intent.ofArguments words = .run arguments)
    (hrefuses : ∀ text, environment.refuses text = none)
    (hloads : load arguments.file (givenBaseUrl arguments environment) = .ok script)
    (hgives : arguments.Gives store) (htitle : script.title = .error .tooLong) :
    (run program environment load service words).ending = .ok 1 := by
  obtain ⟨console, hrun⟩ := run_eq_of_level program load service hlevel hwords
  have hprint : environment.print (announcement script) console = (.error .tooLong, console) := by
    rw [announcement, htitle]
    rfl
  rw [hrun, prepare_ok_iff.2 ⟨hloads, hgives⟩]
  dsimp only
  rw [execute, hprint]
  simp only [Environment.faulty, Fault.message?, Environment.refusal, Environment.print, hrefuses]

/-- Nothing is set around the program, and everything can be printed. -/
def unset : Environment := ⟨none, none, fun _ => none⟩

theorem unset_levelKnown : unset.LevelKnown := by
  unfold Environment.LevelKnown
  decide +kernel

/-- Only the file is named. -/
def fileOnly (file : String) : Arguments := ⟨file, none, none⟩

theorem ofArguments_demo : Intent.ofArguments ["demo.yaml"] = .run (fileOnly "demo.yaml") := by
  decide +kernel

theorem fileOnly_gives (file : String) : (fileOnly file).Gives [] := .nothing (.inl rfl)

/-- The title as one and then so many zeros in hexadecimal digits, and nothing else. -/
def hexTitle (zeros : Nat) : List UInt8 :=
  "title: 0x1".toUTF8.toList ++ List.replicate zeros '0'.toUInt8

/-- The number whose digits in base sixteen are bytes, after those of the number that is given. -/
def hexNumber (n : Int) : List UInt8 → Option Int
  | [] => some n
  | b :: bytes => (Text.hexValue? (Char.ofNat b.toNat)).bind fun d => hexNumber (16 * n + d) bytes

/-- Reads documents that are a title in hexadecimal digits of which the first is one, and no others. -/
def readHexTitle (bytes : List UInt8) : Except DocumentError Value :=
  let start := "title: 0x1".toUTF8.toList
  if start.isPrefixOf bytes then
    match hexNumber 1 (bytes.drop start.length) with
    | some n => .ok (.object [("title", .int n)])
    | none => .error .malformed
  else .error .malformed

theorem hexNumber_zeros (n : Int) (zeros : Nat) :
    hexNumber n (List.replicate zeros '0'.toUInt8) = some (n * 16 ^ zeros) := by
  induction zeros generalizing n with
  | zero => simp [hexNumber]
  | succ zeros ih =>
    have hzero : Text.hexValue? (Char.ofNat '0'.toUInt8.toNat) = some 0 := by decide
    rw [List.replicate_succ, hexNumber, hzero, Option.bind_some, ih, Int.natCast_zero, Int.add_zero,
      Int.pow_succ', Int.mul_assoc, Int.mul_left_comm]

theorem readHexTitle_hexTitle (zeros : Nat) :
    readHexTitle (hexTitle zeros) = .ok (.object [("title", .int (16 ^ zeros))]) := by
  have hprefix : "title: 0x1".toUTF8.toList.isPrefixOf (hexTitle zeros) :=
    List.isPrefixOf_iff_prefix.2 (List.prefix_append _ _)
  unfold readHexTitle
  rw [if_pos hprefix, hexTitle, List.drop_left, hexNumber_zeros, Int.one_mul]

theorem loadFile_hexTitle (zeros : Nat) (path : String) :
    Demo.loadFile readHexTitle path (.file (hexTitle zeros)) =
      .ok ⟨.int (16 ^ zeros), [], Settings.none⟩ := by
  unfold Demo.loadFile
  dsimp only
  rw [readHexTitle_hexTitle]
  rfl

/-- Loads the script of a file that has a title and nothing else. -/
def loadHexTitle (zeros : Nat) : String → String → Demo.Loading Script :=
  Script.load readHexTitle fun _ => .file (hexTitle zeros)

/-- A demo without steps whose title is one is run, and ends well. -/
theorem exit_and_client_one : unset.LevelKnown ∧
    Intent.ofArguments ["demo.yaml"] = .run (fileOnly "demo.yaml") ∧
    (run "run_demo" unset (loadHexTitle 0) (Service.ofList []) ["demo.yaml"]).ending = .ok 0 := by
  refine ⟨unset_levelKnown, ofArguments_demo, ?_⟩
  have hwritable : Json.Writable (.int (16 ^ 0)) := ⟨_, rfl⟩
  exact ((exit_and_client "run_demo" (loadHexTitle 0) (Service.ofList []) unset_levelKnown
    ofArguments_demo).2.2.2 _ _ rfl).2
    ⟨_, [], [], startWith [], loadFile_hexTitle 0 _, hwritable, fileOnly_gives _, .done,
      fun _ _ => rfl⟩

/-- A demo without steps that loads, without variables, does not end well if its title has too many
digits. -/
theorem exit_of_overlong_title :
    (∃ demo results w, Demo.loadFile readHexTitle "demo.yaml" (.file (hexTitle 3600)) = .ok demo ∧
      (fileOnly "demo.yaml").Gives [] ∧
      Run.Succeed boundToRun (.plain (.ofList [])) 1 (scriptOf (fileOnly "demo.yaml") unset demo).tasks
        (startWith []) results w) ∧
    (run "run_demo" unset (loadHexTitle 3600) (Service.ofList []) ["demo.yaml"]).ending = .ok 1 := by
  refine ⟨⟨_, [], startWith [], loadFile_hexTitle 3600 _, fileOnly_gives _, .done⟩, ?_⟩
  have hlong : 10 ^ Number.maxDigits ≤ (16 ^ 3600 : Int).natAbs := by
    rw [Int.natAbs_pow]
    decide +kernel
  exact run_of_overlong "run_demo" (Service.ofList []) unset_levelKnown ofArguments_demo
    (fun _ => rfl) (load_ok_iff.2 ⟨_, loadFile_hexTitle 3600 _, rfl⟩) (fileOnly_gives _)
    (title_of_overlong rfl hlong)

end RestDemo.CommandLine
