import FluentSql.Proofs.Builder.History

/-! The log of a run. A statement that a builder hands over is logged once, and once more if it
fails; nothing else is logged. A run without the log is the same run. -/
namespace FluentSql

variable {ε α β : Type}

/-- Failures are logged as warnings. -/
def Trace.Event.level : Trace.Event → Trace.Level
  | .statement level _ _ _ => level
  | .failed _ _ _ _ => .warn

namespace Command

def tracer? : Command ε α → Option Trace.Tracer
  | .trace tracer => some tracer
  | _ => none

/-- The same command, but for what it would set the log to. -/
def mute : Command ε α → Command ε α
  | .trace _ => .trace .disabled
  | c => c

end Command

/-- The tracer set by now, given the one at the start. -/
def History.tracer (tracer : Trace.Tracer) (h : History ε α) : Trace.Tracer :=
  (h.filterMap (·.command.tracer?)).getLast?.getD tracer

theorem History.tracer_concat (tracer : Trace.Tracer) (h : History ε α) (step : Step ε α) :
    History.tracer tracer (h ++ [step]) = step.command.tracer?.getD (History.tracer tracer h) :=
  latest_concat (·.command.tracer?) tracer h step

/-- What a step logs under a tracer. -/
structure Step.Logged (tracer : Trace.Tracer) (step : Step ε α) : Prop where
  single : step.handed.length ≤ 1
  idle : step.handed = [] → step.turn.events = []
  disabled : tracer.level = none → step.turn.events = []
  accepted : ∀ level e s, tracer.level = some level → (e,s) ∈ step.handed →
    step.answers.accepts e s = true →
    step.turn.events = [.statement level s.kind s.parameters.length (tracer.shorten s.sql)]
  refused : ∀ level e s, tracer.level = some level → (e,s) ∈ step.handed →
    step.answers.accepts e s = false → ∃ f, step.turn.result = .error f ∧ step.turn.events =
      [.statement level s.kind s.parameters.length (tracer.shorten s.sql),
        .failed s.kind (tracer.shorten s.sql) (f.code.getD "-") f.message]
  levels : ∀ level, tracer.level = some level →
    step.turn.events.map Trace.Event.level <+: [level,.warn]

namespace Step

variable {tracer : Trace.Tracer} {answers : Answers ε} {command : Command ε α}
variable {turn : Turn ε (Outcome α)}

theorem logged_of_idle (none : Step.handed ⟨answers,command,turn⟩ = [])
    (silent : turn.events = []) : Step.Logged tracer ⟨answers,command,turn⟩ where
  single := by
    rw [none]
    exact Nat.zero_le 1
  idle _ := silent
  disabled _ := silent
  accepted level e s _ member := by
    rw [none] at member
    cases member
  refused level e s _ member := by
    rw [none] at member
    cases member
  levels level _ := by
    rw [silent]
    exact List.nil_prefix

theorem logged_of_handed {e : ε} {s : Statement} (failure : Option Failure)
    (handed : Step.handed ⟨answers,command,turn⟩ = [(e,s)])
    (accepts : answers.accepts e s = failure.isNone)
    (returned : ∀ f ∈ failure, turn.result = .error f)
    (events : turn.events = tracer.before s ++ failure.toList.flatMap (tracer.onFailure s)) :
    Step.Logged tracer ⟨answers,command,turn⟩ where
  single := by rw [handed,List.length_singleton]
  idle none := by
    rw [handed] at none
    cases none
  disabled off := by
    rw [events,Trace.Tracer.before,off]
    cases failure <;> simp [Trace.Tracer.onFailure,off]
  accepted level d t on member accepted := by
    rw [handed,List.mem_singleton] at member
    cases member
    rw [accepts,Option.isNone_iff_eq_none] at accepted
    rw [events,Trace.Tracer.before,on,accepted]
    rfl
  refused level d t on member refused := by
    rw [handed,List.mem_singleton] at member
    cases member
    rw [accepts,Option.isNone_eq_false_iff,Option.isSome_iff_exists] at refused
    obtain ⟨f,rfl⟩ := refused
    refine ⟨f,returned f rfl,?_⟩
    simp [events,Trace.Tracer.before,Trace.Tracer.onFailure,on]
  levels level on := by
    rw [events,Trace.Tracer.before,on]
    cases failure <;> simp [Trace.Tracer.onFailure,on,Trace.Event.level]

/-- The step: what a command logs, it logs under the tracer of the builder. -/
theorem logged_run (answers : Answers ε) (b : Builder ε) (command : Command ε α) :
    Step.Logged b.tracer ⟨answers,command,command.run answers b⟩ := by
  cases command with
  | terminal t =>
    have ending := t.run_ending answers b
    rw [Command.run]
    generalize t.run answers b = turn at ending
    cases ending with
    | unconnected none => exact logged_of_idle rfl rfl
    | unrendered connected error => exact logged_of_idle rfl rfl
    | @refused e s f connected rendered refused =>
      have kept := Answers.accepts_of_refused refused
      refine logged_of_handed (some f) rfl kept (fun g same => ?_) (by simp)
      cases same
      rfl
    | answered connected rendered answer fits =>
      have accepted := Answers.accepts_of_fits answer fits
      refine logged_of_handed none rfl accepted (fun f failed => ?_) (by simp)
      cases failed
  | transact t =>
    refine logged_of_idle rfl ?_
    change (b.transact answers t).events = []
    unfold Builder.transact
    split <;> rfl
  | execute s =>
    refine logged_of_idle rfl ?_
    change (b.execute answers s).events = []
    unfold Builder.execute
    split <;> rfl
  | _ => exact logged_of_idle rfl rfl

end Step

namespace Builder

theorem tracer_run (answers : Answers ε) (b : Builder ε) (command : Command ε α) :
    (command.run answers b).builder.tracer = command.tracer?.getD b.tracer := by
  cases command with
  | terminal t =>
    have ending := t.run_ending answers b
    rw [Command.run]
    generalize t.run answers b = turn at ending
    cases ending <;> rfl
  | transact t => exact congrArg Builder.tracer (transact_builder answers b t)
  | execute s => exact congrArg Builder.tracer (execute_builder answers b s)
  | _ => rfl

def mute (b : Builder ε) : Builder ε := b.trace .disabled

theorem executor_mute (b : Builder ε) : b.mute.executor = b.executor := rfl

theorem pending_mute (b : Builder ε) : b.mute.pending = b.pending := rfl

end Builder

/-- What is left of a turn without the log. -/
def Turn.mute (turn : Turn ε α) : Turn ε α :=
  { turn with builder := turn.builder.mute, events := [] }

namespace Builder

theorem send_mute (answers : Answers ε) (b : Builder ε) (e : ε) (s : Statement) :
    b.mute.send answers e s = (b.send answers e s).mute := by
  rw [send,send]
  cases answers.execute e s >>= Reply.dueTo s.kind <;> rfl

theorem run_mute (answers : Answers ε) (b : Builder ε)
    (render : Pending → Except RenderError Statement) :
    b.mute.run answers render = (b.run answers render).mute := by
  rw [run,run,executor_mute,pending_mute]
  split
  · rfl
  · split
    · rfl
    · exact send_mute answers b _ _

theorem transact_mute (answers : Answers ε) (b : Builder ε) (t : Transaction) :
    b.mute.transact answers t = (b.transact answers t).mute := by
  rw [transact,transact,executor_mute]
  split <;> rfl

theorem execute_mute (answers : Answers ε) (b : Builder ε) (s : Statement) :
    b.mute.execute answers s = (b.execute answers s).mute := by
  rw [execute,execute,executor_mute]
  split <;> rfl

end Builder

theorem Terminal.run_mute (answers : Answers ε) (b : Builder ε) (t : Terminal α) :
    t.run answers b.mute = (t.run answers b).mute := by
  rw [run_eq,run_eq,Builder.run_mute]
  rfl

theorem Command.run_mute (answers : Answers ε) (b : Builder ε) (command : Command ε α) :
    command.mute.run answers b.mute = (command.run answers b).mute := by
  cases command with
  | terminal t => exact t.run_mute answers b
  | transact t =>
    exact congrArg (Turn.map fun () => (.done : Outcome α)) (Builder.transact_mute answers b t)
  | execute s =>
    exact congrArg (Turn.map (.reply : Reply → Outcome α)) (Builder.execute_mute answers b s)
  | _ => rfl

namespace Builder

/-- The run without the log. -/
theorem runAll_mute (b : Builder ε) (script : List (Answers ε × Command ε α)) :
    b.mute.runAll (script.map fun (answers,command) => (answers,command.mute)) =
      (b.runAll script).map Turn.mute := by
  induction script generalizing b with
  | nil => rfl
  | cons asked script ih =>
    obtain ⟨answers,command⟩ := asked
    rw [List.map_cons,runAll,runAll,List.map_cons,Command.run_mute]
    exact congrArg _ (ih _)

/-- The log of a run tells of its statements one by one, and leaves the run as it is. -/
theorem steps_logged (b : Builder ε) (script : List (Answers ε × Command ε α)) :
    (∀ history step later, b.steps script = history ++ step :: later →
      step.Logged (History.tracer b.tracer history)) ∧
    b.mute.runAll (script.map fun (answers,command) => (answers,command.mute)) =
      (b.runAll script).map Turn.mute := by
  refine ⟨fun history step later taken => ?_,b.runAll_mute script⟩
  have keeps (c : Builder ε) (h : History ε α) (answers : Answers ε) (command : Command ε α)
      (set : c.tracer = History.tracer b.tracer h) : (command.run answers c).builder.tracer =
        History.tracer b.tracer (h ++ [⟨answers,command,command.run answers c⟩]) := by
    rw [tracer_run,History.tracer_concat,set]
  obtain ⟨before,set,turn⟩ := keeps_at_step
    (P := fun c h => c.tracer = History.tracer b.tracer h) (h := []) keeps rfl taken
  obtain ⟨answers,command,made⟩ := step
  change made = command.run answers before at turn
  subst turn
  rw [List.nil_append] at set
  rw [← set]
  exact Step.logged_run answers before command

/-- A look that fails while the log is off leaves no event, the next one two, and one whose rows
cannot be read a single event. -/
theorem steps_logged_switched :
    let b : Builder Nat := { executor := some 1 }
    let down : Answers Nat := ⟨fun _ _ => .error (.connection "down"),fun _ _ => .ok ()⟩
    let up : Answers Nat := ⟨fun _ _ => .ok (.rows [⟨[],[],rfl⟩]),fun _ _ => .ok ()⟩
    let read (_ : Row) : Except Failure Unit := .error (.decode "id" "no such column")
    let script : List (Answers Nat × Command Nat Unit) := [
      (up,.clause (.table "users")),(up,.trace .disabled),(down,.terminal .get),
      (up,.trace ⟨some .info,some 8⟩),(down,.terminal .get),(up,.terminal (.getAs read))]
    let steps := b.steps script
    (∃ step ∈ steps[2]?, step.turn.events = []) ∧
    (∃ step ∈ steps[4]?, step.turn.events = [.statement .info .select 0 "SELECT *...",
      .failed .select "SELECT *..." "-" "Connection error: down"]) ∧
    ∃ step ∈ steps[5]?, step.turn.events = [.statement .info .select 0 "SELECT *..."] := by
  intro b down up read script steps
  let users : Statement := ⟨.select,"SELECT * FROM users",[]⟩
  have short : Trace.Tracer.shorten ⟨some .info,some 8⟩ users.sql = "SELECT *..." := by
    decide +kernel
  have off : Step.Logged .disabled _ :=
    (steps_logged b script).1 (steps.take 2) _ (steps.drop 3) rfl
  have on : Step.Logged ⟨some .info,some 8⟩ _ :=
    (steps_logged b script).1 (steps.take 4) _ (steps.drop 5) rfl
  have unread : Step.Logged ⟨some .info,some 8⟩ _ :=
    (steps_logged b script).1 (steps.take 5) _ (steps.drop 6) rfl
  refine ⟨⟨_,rfl,off.disabled rfl⟩,⟨_,rfl,?_⟩,⟨_,rfl,?_⟩⟩
  · obtain ⟨f,failed,events⟩ := on.refused .info 1 users rfl (List.mem_singleton.mpr rfl) rfl
    cases failed
    rw [events,short]
    rfl
  · rw [unread.accepted .info 1 users rfl (List.mem_singleton.mpr rfl) rfl,short]
    rfl

end Builder
end FluentSql
