import FluentSql.Proofs.Builder.Atomicity
import FluentSql.Proofs.Statement.Draft
import Mathlib.Data.List.DropRight

/-! Histories of a builder. Which calls count for the next statement, which executor gets it and
which statement was handed over last are read off the steps taken so far, without a look at the
builder. Every statement of a run holds what was asked for since the state was last cleared, and
nothing from before. -/
namespace FluentSql

variable {ε α : Type}

namespace Command

def clause? : Command ε α → Option Clause
  | .clause c => some c
  | _ => none

/-- What a command leaves attached, where it changes that. -/
def attachment? : Command ε α → Option (Option ε)
  | .connect e => some (some e)
  | .disconnect => some none
  | _ => none

end Command

def Call.statement? : Call ε → Option (ε × Statement)
  | .statement e s => some (e,s)
  | .transaction _ _ => none

def Turn.statements (turn : Turn ε α) : List (ε × Statement) :=
  turn.calls.filterMap Call.statement?

/-- The reply is no failure and has the shape that the statement asks for. -/
def Answers.accepts (answers : Answers ε) (e : ε) (s : Statement) : Bool :=
  match answers.execute e s with
  | .ok reply => reply.isRows == s.kind.returnsRows
  | .error _ => false

theorem Answers.accepts_of_fits {answers : Answers ε} {e : ε} {s : Statement} {reply : Reply}
    (answer : answers.execute e s = .ok reply) (fits : reply.isRows = s.kind.returnsRows) :
    answers.accepts e s = true := by
  rw [accepts,answer]
  exact beq_iff_eq.mpr fits

theorem Answers.accepts_of_refused {answers : Answers ε} {e : ε} {s : Statement} {f : Failure}
    (refused : answers.execute e s >>= Reply.dueTo s.kind = .error f) :
    answers.accepts e s = false := by
  unfold accepts
  split
  · rename_i reply answer
    by_contra fits
    have fits : reply.isRows = s.kind.returnsRows := by simpa using fits
    rw [answer] at refused
    cases (Reply.dueTo_of_fits fits).symm.trans refused
  · rfl

/-- A command, the answers that executors have for it, and what it does. -/
structure Step (ε α : Type) where
  answers : Answers ε
  command : Command ε α
  turn : Turn ε (Outcome α)

namespace Step

/-- The statements that a builder hands over for its pending state. One that the caller hands to
the executor directly is not among them. -/
def handed (step : Step ε α) : List (ε × Statement) :=
  match step.command with
  | .terminal _ => step.turn.statements
  | _ => []

/-- A reset clears the state, and so does a statement that gets a reply of the shape due. -/
def clears (step : Step ε α) : Bool :=
  match step.command with
  | .reset => true
  | _ => step.handed.any fun (e,s) => step.answers.accepts e s

end Step

/-- What is known of a run after some steps, the oldest first. -/
abbrev History (ε α : Type) := List (Step ε α)

namespace History

/-- The chain calls made since the state was last cleared. -/
def calls (h : History ε α) : List Clause :=
  (h.rtakeWhile (!·.clears)).filterMap (·.command.clause?)

/-- The executor attached by now, given the one at the start. -/
def attached (executor : Option ε) (h : History ε α) : Option ε :=
  (h.filterMap (·.command.attachment?)).getLast?.getD executor

def lastHanded (h : History ε α) : Option Statement :=
  (h.flatMap Step.handed).getLast?.map (·.2)

theorem calls_concat (h : History ε α) (step : Step ε α) :
    calls (h ++ [step]) = if step.clears then [] else calls h ++ step.command.clause?.toList := by
  rw [calls,List.rtakeWhile_concat]
  cases step.clears with
  | true => rfl
  | false =>
    cases asked : step.command.clause? <;> simp [calls,List.filterMap_append,asked]

theorem latest_concat {β : Type} (f : Step ε α → Option β) (start : β) (h : History ε α)
    (step : Step ε α) : ((h ++ [step]).filterMap f).getLast?.getD start =
      (f step).getD ((h.filterMap f).getLast?.getD start) := by
  cases changed : f step <;> simp [List.filterMap_append,changed]

theorem attached_concat (executor : Option ε) (h : History ε α) (step : Step ε α) :
    attached executor (h ++ [step]) = step.command.attachment?.getD (attached executor h) :=
  latest_concat (·.command.attachment?) executor h step

theorem lastHanded_concat (h : History ε α) (step : Step ε α) :
    lastHanded (h ++ [step]) = (step.handed.getLast?.map (·.2)).or (lastHanded h) := by
  rw [lastHanded,List.flatMap_append,List.flatMap_singleton,List.getLast?_append]
  cases step.handed.getLast? <;> rfl

end History

namespace Builder

def steps (b : Builder ε) (script : List (Answers ε × Command ε α)) : History ε α :=
  List.zipWith (fun (answers,command) turn => ⟨answers,command,turn⟩) script (b.runAll script)

theorem map_turn_steps (b : Builder ε) (script : List (Answers ε × Command ε α)) :
    (b.steps script).map (·.turn) = b.runAll script := by
  induction script generalizing b with
  | nil => rfl
  | cons asked script ih =>
    obtain ⟨answers,command⟩ := asked
    exact congrArg (command.run answers b :: ·) (ih _)

def after (b : Builder ε) (script : List (Answers ε × Command ε α)) : Builder ε :=
  (b.runAll script).getLast?.elim b (·.builder)

theorem after_cons (b : Builder ε) (answers : Answers ε) (command : Command ε α)
    (script : List (Answers ε × Command ε α)) :
    b.after ((answers,command) :: script) = (command.run answers b).builder.after script := by
  rw [after,runAll,List.getLast?_cons,after]
  cases ((command.run answers b).builder.runAll script).getLast? <;> rfl

/-- What every step keeps, of a builder and the history so far, holds where a step is taken. -/
theorem keeps_at_step {P : Builder ε → History ε α → Prop}
    (keeps : ∀ b h answers command, P b h →
      P (command.run answers b).builder (h ++ [⟨answers,command,command.run answers b⟩]))
    {b : Builder ε} {h : History ε α} (now : P b h) {script : List (Answers ε × Command ε α)}
    {history later : History ε α} {step : Step ε α}
    (taken : b.steps script = history ++ step :: later) :
    ∃ before : Builder ε, P before (h ++ history) ∧
      step.turn = step.command.run step.answers before := by
  -- The first step moves from the script into the history and takes the builder along.
  induction history generalizing b h script with
  | nil =>
    cases script with
    | nil => cases taken
    | cons asked script =>
      obtain ⟨answers,command⟩ := asked
      cases taken
      refine ⟨b,?_,rfl⟩
      rw [List.append_nil]
      exact now
  | cons first history ih =>
    cases script with
    | nil => cases taken
    | cons asked script =>
      obtain ⟨answers,command⟩ := asked
      obtain ⟨rfl,rest⟩ := List.cons.inj taken
      have next := ih (keeps b h answers command now) rest
      rwa [List.append_assoc] at next

/-- A builder holds what its history tells. -/
structure Reflects (b : Builder ε) (executor : Option ε) (h : History ε α) : Prop where
  attached : b.executor = History.attached executor h
  pending : b.pending = Pending.ofClauses (History.calls h)
  lastQuery : b.lastQuery = (History.lastHanded h).map (·.sql)

theorem transact_builder (answers : Answers ε) (b : Builder ε) (t : Transaction) :
    (b.transact answers t).builder = b := by
  unfold transact
  split <;> rfl

theorem execute_builder (answers : Answers ε) (b : Builder ε) (s : Statement) :
    (b.execute answers s).builder = b := by
  unfold execute
  split <;> rfl

theorem statement_not_mem_transact (answers : Answers ε) (b : Builder ε) (t : Transaction) (e : ε)
    (s : Statement) : Call.statement e s ∉ (b.transact answers t).calls := by
  unfold transact
  split <;> simp

theorem handed_of_execute {answers : Answers ε} {b : Builder ε} {direct s : Statement} {e : ε}
    (member : Call.statement e s ∈ (b.execute answers direct).calls) :
    b.executor = some e ∧ direct = s := by
  unfold execute at member
  split at member
  · cases member
  · rename_i attached connected
    cases List.mem_singleton.mp member
    exact ⟨connected,rfl⟩

namespace Reflects

variable {b : Builder ε} {executor : Option ε} {h : History ε α}

theorem fresh (executor : Option ε) (tracer : Trace.Tracer) :
    Reflects { executor, tracer } executor ([] : History ε α) := ⟨rfl,rfl,rfl⟩

/-- What a step has to do to the builder so that the longer history tells of it. -/
theorem extend (now : b.Reflects executor h) {after : Builder ε} {step : Step ε α}
    (attached : after.executor = step.command.attachment?.getD b.executor)
    (pending : after.pending =
      if step.clears then .empty else step.command.clause?.elim b.pending b.pending.apply)
    (lastQuery : after.lastQuery = (step.handed.getLast?.map (·.2.sql)).or b.lastQuery) :
    after.Reflects executor (h ++ [step]) := by
  constructor
  · rw [attached,History.attached_concat,now.attached]
  · rw [pending,History.calls_concat,now.pending]
    cases step.clears <;> cases step.command.clause? <;> simp [Pending.ofClauses]
  · rw [lastQuery,History.lastHanded_concat,now.lastQuery]
    cases step.handed.getLast? <;> rfl

/-- The step: what a command does to the builder, its record does to the history. -/
theorem step (now : b.Reflects executor h) (answers : Answers ε) (command : Command ε α) :
    (command.run answers b).builder.Reflects executor
      (h ++ [⟨answers,command,command.run answers b⟩]) := by
  -- Commands other than those that run a statement have the change in their definition.
  cases command with
  | clause c => exact now.extend rfl rfl rfl
  | reset => exact now.extend rfl rfl rfl
  | connect e => exact now.extend rfl rfl rfl
  | disconnect => exact now.extend rfl rfl rfl
  | trace tracer => exact now.extend rfl rfl rfl
  | toSelect => exact now.extend rfl rfl rfl
  | terminal t =>
    have ending := t.run_ending answers b
    rw [Command.run]
    generalize t.run answers b = turn at ending
    cases ending with
    | unconnected none => exact now.extend rfl rfl rfl
    | unrendered connected error => exact now.extend rfl rfl rfl
    | refused connected rendered refused =>
      have kept := Answers.accepts_of_refused refused
      refine now.extend rfl ?_ rfl
      simp [Step.clears,Step.handed,Turn.statements,Call.statement?,kept,Command.clause?]
    | answered connected rendered answer fits =>
      have cleared := Answers.accepts_of_fits answer fits
      refine now.extend rfl ?_ rfl
      simp [Step.clears,Step.handed,Turn.statements,Call.statement?,cleared]
  | transact t =>
    have same : (b.transact answers t).builder = b := transact_builder answers b t
    exact now.extend (congrArg Builder.executor same) (congrArg Builder.pending same)
      (congrArg Builder.lastQuery same)
  | execute s =>
    have same : (b.execute answers s).builder = b := execute_builder answers b s
    exact now.extend (congrArg Builder.executor same) (congrArg Builder.pending same)
      (congrArg Builder.lastQuery same)

/-- The run: in the end a builder holds what all the steps tell. -/
theorem at_end (now : b.Reflects executor h) (script : List (Answers ε × Command ε α)) :
    (b.after script).Reflects executor (h ++ b.steps script) := by
  induction script generalizing b h with
  | nil =>
    rw [show b.steps ([] : List (Answers ε × Command ε α)) = [] from rfl,List.append_nil]
    exact now
  | cons asked script ih =>
    obtain ⟨answers,command⟩ := asked
    have rest := ih (now.step answers command)
    rw [List.append_assoc] at rest
    rw [after_cons]
    exact rest

/-- Within the run, every step is taken by a builder that holds what the steps before it tell. -/
theorem at_step (now : b.Reflects executor h) {script : List (Answers ε × Command ε α)}
    {history later : History ε α} {step : Step ε α}
    (taken : b.steps script = history ++ step :: later) :
    ∃ before : Builder ε, before.Reflects executor (h ++ history) ∧
      step.turn = step.command.run step.answers before :=
  keeps_at_step (fun _ _ answers command now => now.step answers command) now taken

end Reflects

/-- What a step hands over and leaves behind, given the steps before it. -/
structure Follows (executor : Option ε) (history : History ε α) (step : Step ε α) : Prop where
  /-- Apart from a statement that the caller hands over directly, only the one asked for. -/
  handed : ∀ e s, Call.statement e s ∈ step.turn.calls →
    History.attached executor history = some e ∧
      (step.command = .execute s ∨ ∃ t, step.command = .terminal t ∧
        t.statement (Pending.ofClauses (History.calls history)) = .ok s)
  sent : ∀ t e s, step.command = .terminal t → History.attached executor history = some e →
    t.statement (Pending.ofClauses (History.calls history)) = .ok s →
    step.turn.calls = [.statement e s]
  pending : step.turn.builder.pending = Pending.ofClauses (History.calls (history ++ [step]))
  lastQuery : step.turn.builder.lastQuery =
    (History.lastHanded (history ++ [step])).map (·.sql)

/-- No state leaks from one statement into the next: in a run that starts with nothing asked for,
a statement is the one of the calls since the last clearing and goes to the executor attached. -/
theorem steps_follow (executor : Option ε) (tracer : Trace.Tracer)
    (script : List (Answers ε × Command ε α)) (history later : History ε α) (step : Step ε α)
    (taken : ({ executor, tracer } : Builder ε).steps script = history ++ step :: later) :
    Follows executor history step := by
  obtain ⟨before,now,turn⟩ := (Reflects.fresh executor tracer).at_step taken
  rw [List.nil_append] at now
  have next := now.step step.answers step.command
  rw [← turn] at next
  refine ⟨?_,?_,next.pending,next.lastQuery⟩
  · intro e s member
    rw [turn] at member
    rw [← now.attached,← now.pending]
    cases asked : step.command with
    | terminal t =>
      rw [asked] at member
      obtain ⟨connected,rendered⟩ := (t.run_ending step.answers before).rendered_of_mem member
      exact ⟨connected,.inr ⟨t,rfl,rendered⟩⟩
    | transact t =>
      rw [asked] at member
      exact absurd member (statement_not_mem_transact step.answers before t e s)
    | execute direct =>
      rw [asked] at member
      obtain ⟨connected,same⟩ := handed_of_execute member
      exact ⟨connected,.inl (congrArg Command.execute same)⟩
    | _ =>
      rw [asked] at member
      cases member
  · intro t e s asked connected rendered
    rw [← now.attached] at connected
    rw [← now.pending] at rendered
    rw [turn,asked]
    exact (t.run_ending step.answers before).calls_eq connected rendered

/-- A deletion after a failed look for the first row, sent to the executor attached meanwhile,
has the conditions of that look but not its limit; the statement after the deletion starts anew. -/
theorem steps_follow_delete :
    let b : Builder Nat := { executor := some 1 }
    let down : Answers Nat := ⟨fun _ _ => .error (.connection "down"),fun _ _ => .ok ()⟩
    let reply (kind : Statement.Kind) : Reply :=
      if kind.returnsRows then .rows [] else .counts none 2
    let up : Answers Nat := ⟨fun _ s => .ok (reply s.kind),fun _ _ => .ok ()⟩
    let script : List (Answers Nat × Command Nat Unit) := [
      (up,.clause (.table "users")),(up,.clause (.condition "age" ">" (.int 90))),
      (down,.terminal .first),(up,.disconnect),(up,.connect 2),
      (up,.terminal .delete),(up,.clause (.table "logs")),(down,.terminal .get)]
    let steps := b.steps script
    (∃ step ∈ steps[5]?, step.turn.calls =
      [.statement 2 ⟨.delete,"DELETE FROM users WHERE age > ?",[.int 90]⟩]) ∧
    ∃ step ∈ steps[7]?, step.turn.calls = [.statement 2 ⟨.select,"SELECT * FROM logs",[]⟩] ∧
      step.turn.builder.lastQuery = some "SELECT * FROM logs" := by
  intro b down reply up script steps
  have deletion : Follows (some 1) (steps.take 5) _ :=
    steps_follow (some 1) {} script _ (steps.drop 6) _ rfl
  have look : Follows (some 1) (steps.take 7) _ :=
    steps_follow (some 1) {} script _ (steps.drop 8) _ rfl
  have asked : History.calls (steps.take 5) = [.table "users",.condition "age" ">" (.int 90)] := by
    decide +kernel
  have anew : History.calls (steps.take 7) = [.table "logs"] := by decide +kernel
  have last : (History.lastHanded (steps.take 8)).map (·.sql) = some "SELECT * FROM logs" := by
    decide +kernel
  refine ⟨⟨_,rfl,deletion.sent .delete 2 _ rfl rfl ?_⟩,_,rfl,look.sent .get 2 _ rfl rfl ?_,?_⟩
  · rw [asked]
    rfl
  · rw [anew]
    rfl
  · rw [look.lastQuery]
    exact last

end Builder
end FluentSql
