import RestDemo.Json.Reader
import RestDemo.Proofs.Json.Line
import RestDemo.Proofs.Log.Logger

/-!
# Lines read back

The console prints one line for an event: its name, a blank, and its fields, in which nothing can
break the line (`Console.Call.exists_line`). So what was printed splits at the line feeds into one
line for each event, and from its line each event is read back (`Console.readLog_makeAll`).
-/

namespace RestDemo

namespace Level

theorem ofWord?_word {level : Level} (h : level ∈ told) : ofWord? level.word = some level := by
  simp only [told, List.mem_cons, List.not_mem_nil, or_false] at h
  rcases h with rfl | rfl | rfl | rfl <;> rfl

end Level

namespace Event

variable {e : Event}

theorem nodup_typedFields (h : e.fields.names.Nodup) : e.typedFields.names.Nodup := by
  unfold typedFields
  by_cases htype : e.fields.has "type"
  · rwa [if_pos htype]
  · rw [if_neg htype, Table.names_append, List.nodup_append]
    rw [Table.has_iff_mem_names] at htype
    refine ⟨h, by simp, fun a ha b hb => ?_⟩
    obtain rfl : b = "type" := by simpa using hb
    exact fun heq => htype (heq ▸ ha)

/-- The fields are typed by the name of the event where they have no type. -/
theorem get?_typedFields (e : Event) (field : String) : e.typedFields.get? field =
    (e.fields.get? field).or (if field = "type" then some (.text e.name) else none) := by
  unfold typedFields
  by_cases h : e.fields.has "type"
  · rw [if_pos h]
    by_cases hfield : field = "type"
    · obtain ⟨v, hv⟩ := Option.isSome_iff_exists.1 h
      rw [hfield, hv, Option.some_or]
    · rw [if_neg hfield, Option.or_none]
  · rw [if_neg h, Table.get?_append]
    simp only [Table.get?, eq_comm]

theorem forall_mem_typedFields {P : Value → Prop} (h : ∀ p ∈ e.fields, P p.2)
    (htext : ∀ s, P (.text s)) : ∀ p ∈ e.typedFields, P p.2 := by
  unfold typedFields
  by_cases htype : e.fields.has "type"
  · rwa [if_pos htype]
  · rw [if_neg htype, List.forall_mem_append, List.forall_mem_singleton]
    exact ⟨h, htext e.name⟩

end Event

namespace Console

/-! ## What is read in a line -/

/-- What is before the first blank of a line, and what the text after it decodes to. -/
def readLine (line : List Char) : String × Value :=
  (String.ofList (line.takeWhile (· != ' ')),
    Json.bodyValue (String.ofList ((line.dropWhile (· != ' ')).drop 1)))

/-- The lines of a text, each up to its line feed. -/
def lines (text : String) : List (List Char) :=
  (text.toList.splitOn '\n').dropLast

theorem readLine_eq {name cs : List Char} (h : ' ' ∉ name) : readLine (name ++ ' ' :: cs) =
    (String.ofList name, Json.bodyValue (String.ofList cs)) := by
  have hname : ∀ c ∈ name, c != ' ' := by
    intro c hc
    simpa using ne_of_mem_of_not_mem hc h
  rw [readLine, List.takeWhile_append_of_pos hname, List.dropWhile_append_of_pos hname]
  simp

theorem lines_append {line : List Char} (h : '\n' ∉ line) (text : String) :
    lines (String.ofList (line ++ ['\n']) ++ text) = line :: lines text := by
  have hline : ∀ c ∈ line, (c == '\n') = false := by
    intro c hc
    simpa using ne_of_mem_of_not_mem hc h
  rw [lines, String.toList_append, String.toList_ofList, List.append_assoc, List.singleton_append,
    List.splitOn, List.splitOnP_append_cons_of_forall_mem hline _ (by simp),
    List.dropLast_cons_of_ne_nil (List.splitOnP_ne_nil _ _)]
  rfl

/-! ## Calls of loggers -/

/-- An event is told by a logger of the console, to which fields are bound. -/
structure Call where
  bound : Table Value
  level : Level
  name : String
  fields : Table Value

namespace Call

def event (call : Call) : Event :=
  ⟨call.level, call.name, call.bound.overlay call.fields⟩

/-- What is told: the name of the event, and the fields under their type. -/
def told (call : Call) : String × Value :=
  (call.name, .object call.event.typedFields)

def make (call : Call) (o : Outputs) : Except Fault Unit × Outputs :=
  (Logger.single .console call.bound).perform call.level.word call.name call.fields o

/-- Makes calls one after another, until one fails. -/
def makeAll : List Call → Outputs → Except Fault Unit × Outputs
  | [], o => (.ok (), o)
  | call :: calls, o =>
    match call.make o with
    | (.ok _, o) => makeAll calls o
    | (.error f, o) => (.error f, o)

/-- How deep fields may be nested. -/
def nesting : Nat := 200

/-- There is no blank and no line feed in the name, no field is called as a part of the call is, and
what is told holds no floating-point number and is not nested too deep. -/
structure Plain (call : Call) : Prop where
  level : call.level ∈ Level.told
  blank : ' ' ∉ call.name.toList
  newline : '\n' ∉ call.name.toList
  reserved : "self" ∉ call.fields.names ∧ "event" ∉ call.fields.names
  once : call.bound.names.Nodup
  exact : ∀ p ∈ call.bound ++ call.fields, Json.Exact p.2
  depth : ∀ p ∈ call.bound ++ call.fields, p.2.depth ≤ nesting

variable {call : Call} {o : Outputs}

theorem mem_of_mem_event {p : String × Value} (h : p ∈ call.event.fields) :
    p ∈ call.bound ++ call.fields :=
  List.mem_append.2 (Table.mem_of_mem_overlay h)

theorem Plain.exact_told (h : call.Plain) : Json.Exact (.object call.event.typedFields) :=
  .object _ (Event.nodup_typedFields (Table.nodup_overlay h.once call.fields))
    (Event.forall_mem_typedFields (fun p hp => h.exact p (mem_of_mem_event hp)) .text)

theorem Plain.depth_told (h : call.Plain) :
    (Value.object call.event.typedFields).depth ≤ nesting + 1 := by
  refine Value.depth_object_le (Event.forall_mem_typedFields (P := fun v => v.depth ≤ nesting) ?_ ?_)
  · exact fun p hp => h.depth p (mem_of_mem_event hp)
  · exact fun _ => Nat.zero_le _

/-- The call of a level's method comes to the event under what is bound. -/
theorem Plain.make_eq (h : call.Plain) (o : Outputs) :
    call.make o = Logger.serve ⟨call.level, call.name, call.fields⟩ [(.console, call.bound)] o := by
  have hreserved : (["self", "event"].any fun part => call.fields.has part) = false := by
    simp [Table.has_eq_false h.reserved.1, Table.has_eq_false h.reserved.2]
  rw [make, Logger.perform, Level.ofWord?_word h.level]
  dsimp only
  rw [hreserved]
  rfl

/-- The line of an event, up to its line feed. -/
structure IsLine (call : Call) (line : List Char) : Prop where
  written : call.event.line = .ok (String.ofList (line ++ ['\n']))
  newline : '\n' ∉ line
  read : readLine line = call.told
  readWhole : readLine (line ++ ['\n']) = call.told

theorem Plain.exists_line (h : call.Plain) : ∃ line, call.IsLine line := by
  have hdepth : (Value.object call.event.typedFields).depth ≤ Json.maxDepth :=
    Nat.le_trans h.depth_told (by decide)
  obtain ⟨cs, hwritten, hread⟩ := Json.read_write_object Json.plain_spaced h.exact_told hdepth
  have hnewline := Json.newline_not_mem_write Json.oneLine_spaced _ h.exact_told hwritten
  have htold (gaps : List Char) (hgaps : ∀ c ∈ gaps, Json.isGap c) :
      readLine (call.name.toList ++ ' ' :: (cs ++ gaps)) = call.told := by
    rw [readLine_eq h.blank, String.ofList_toList, Json.bodyValue, String.toList_ofList,
      hread gaps hgaps]
    rfl
  refine ⟨call.name.toList ++ ' ' :: cs, ?_, ?_, ?_, ?_⟩
  · rw [Event.line, Json.text, hwritten]
    refine congrArg Except.ok (String.toList_inj.1 ?_)
    simp [event]
  · simpa using ⟨h.newline, hnewline⟩
  · simpa using htold [] (List.forall_mem_nil _)
  · simpa using htold ['\n'] (by simp [Json.isGap])

/-- An event at a level that is shown prints its line. -/
theorem IsLine.make_eq {line : List Char} (hline : call.IsLine line) (h : call.Plain)
    (hshows : o.console.shows call.level) : call.make o =
      (.ok (), { o with console := o.console.print (String.ofList (line ++ ['\n'])) }) := by
  have htell : o.console.tell call.event =
      .ok (o.console.print (String.ofList (line ++ ['\n']))) := by
    rw [tell, hline.written]
    exact congrArg Except.ok (if_pos hshows)
  have hunder : { (⟨call.level, call.name, call.fields⟩ : Event) with
      fields := call.bound.overlay call.fields } = call.event := rfl
  rw [h.make_eq, Logger.serve, Sink.take, hunder, htell]
  rfl

end Call

/-- What calls print. -/
theorem exists_makeAll {calls : List Call} {o : Outputs}
    (h : ∀ call ∈ calls, call.Plain ∧ o.console.shows call.level) :
    ∃ text, Call.makeAll calls o = (.ok (), { o with console := o.console.print text }) ∧
      (lines text).map readLine = calls.map Call.told := by
  induction calls generalizing o with
  | nil => exact ⟨"", by simp [Call.makeAll, print], rfl⟩
  | cons call calls ih =>
    obtain ⟨⟨hplain, hshows⟩, hrest⟩ := List.forall_mem_cons.1 h
    obtain ⟨line, hline⟩ := hplain.exists_line
    have hmake := hline.make_eq hplain hshows
    obtain ⟨text, htext, hread⟩ := ih (o := (call.make o).2) (by rw [hmake]; exact hrest)
    refine ⟨String.ofList (line ++ ['\n']) ++ text, ?_, ?_⟩
    · rw [hmake] at htext
      rw [Call.makeAll, hmake]
      dsimp only
      rw [htext]
      simp [print, String.append_assoc]
    · rw [lines_append hline.newline, List.map_cons, hread, hline.read, List.map_cons]

/-- What a field is told as: as it was given, else as it is bound, and the type else as the name. -/
theorem Call.get?_told (call : Call) (h : call.fields.names.Nodup) (field : String) :
    call.event.typedFields.get? field = (call.fields.get? field).or
      ((call.bound.get? field).or (if field = "type" then some (.text call.name) else none)) := by
  rw [Event.get?_typedFields, event, Table.get?_overlay, Table.get?_reverse h, Option.or_assoc]

/-- The event of a call is one line, from which it is read back; so are the events of many calls. -/
theorem events_read_back :
    (∀ (call : Call) (o : Outputs), call.Plain → o.console.shows call.level →
      ∃ line, call.make o = (.ok (), { o with console := o.console.print line }) ∧
        line.toList.count '\n' = 1 ∧ line.toList.getLast? = some '\n' ∧
        readLine line.toList = call.told) ∧
    (∀ (call : Call) (field : String), call.fields.names.Nodup →
      call.event.typedFields.get? field = (call.fields.get? field).or
        ((call.bound.get? field).or (if field = "type" then some (.text call.name) else none))) ∧
    ∀ (calls : List Call) (o : Outputs),
      (∀ call ∈ calls, call.Plain ∧ o.console.shows call.level) →
      ∃ text, Call.makeAll calls o = (.ok (), { o with console := o.console.print text }) ∧
        (lines text).map readLine = calls.map Call.told := by
  refine ⟨fun call o h hshows => ?_, fun call field h => call.get?_told h field,
    fun calls o => exists_makeAll⟩
  obtain ⟨line, hline⟩ := h.exists_line
  refine ⟨_, hline.make_eq h hshows, ?_, ?_, ?_⟩
  · simp [List.count_eq_zero.2 hline.newline]
  · simp
  · simpa using hline.readWhole

/-- A second try, answered by a body with quotes and a line feed. -/
def answered : Call :=
  ⟨[("run", .text "r-1")], .info, "http.response",
    [("try", .int 2), ("body", .text "\"one\"\ntwo")]⟩

theorem plain_answered : answered.Plain where
  level := by decide
  blank := by decide
  newline := by decide
  reserved := by decide
  once := by decide
  exact := by simpa [answered] using ⟨.text "r-1", .digit (by decide), .text _⟩
  depth := by simp [answered, Value.depth]

theorem events_read_back_answered :
    ∃ text, Call.makeAll [answered, answered] (.start ⟨some 20, ""⟩ 1) =
        (.ok (), .start ⟨some 20, text⟩ 1) ∧
      (lines text).map readLine = [answered.told, answered.told] ∧
      answered.event.typedFields.get? "type" = some (.text "http.response") := by
  have hall : ∀ call ∈ [answered, answered],
      call.Plain ∧ (⟨some 20, ""⟩ : Console).shows call.level := by
    simpa using ⟨plain_answered, by decide⟩
  obtain ⟨text, htext, hread⟩ := events_read_back.2.2 _ (.start ⟨some 20, ""⟩ 1) hall
  refine ⟨text, ?_, hread, events_read_back.2.1 answered "type" (by decide)⟩
  simpa [Outputs.start, print] using htext

end Console

end RestDemo
