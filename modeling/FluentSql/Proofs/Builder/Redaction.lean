import FluentSql.Postgres.Prepare
import FluentSql.Proofs.Builder.History
import FluentSql.Proofs.Statement.Redaction

/-! Runs without their values. Two runs that ask for the same with other values, and get the same
replies, show the same to executors, to the log and to whoever looks at the builder: the values
are bound and appear nowhere else. -/
namespace FluentSql

variable {ε α β : Type}

theorem Postgres.Config.prepare_congr (config : Config) {s t : Statement}
    (same : s.outline = t.outline) : config.prepare s = config.prepare t := by
  obtain ⟨kind,sql,count⟩ := Statement.outline_eq_outline_iff.mp same
  rw [prepare,prepare,number,number,kind,sql,count]

namespace Trace.Tracer

variable (tracer : Tracer) {s t : Statement}

theorem before_congr (same : s.outline = t.outline) : tracer.before s = tracer.before t := by
  obtain ⟨kind,sql,count⟩ := Statement.outline_eq_outline_iff.mp same
  rw [before,before,kind,sql,count]

theorem onFailure_congr (same : s.outline = t.outline) (f : Failure) :
    tracer.onFailure s f = tracer.onFailure t f := by
  obtain ⟨kind,sql,_⟩ := Statement.outline_eq_outline_iff.mp same
  rw [onFailure,onFailure,kind,sql]

end Trace.Tracer

namespace Terminal

def redacted : Terminal α → Terminal α
  | .insert row => .insert row.redacted
  | .insertMany rows => .insertMany (rows.map Record.redacted)
  | .update row => .update row.redacted
  | t => t

theorem statement_redacted (t : Terminal α) (q : Pending) :
    t.redacted.statement q.redacted = (t.statement q).map Statement.redacted := by
  have request : t.redacted.request = t.request.redacted := by cases t <;> rfl
  have prepare : t.redacted.prepare q.redacted = (t.prepare q).redacted := by cases t <;> rfl
  rw [statement,statement,request,prepare,Request.render_redacted]

theorem unpack_redacted (t : Terminal α) : t.redacted.unpack = t.unpack := by
  funext reply
  cases t <;> rfl

end Terminal

def Command.redacted : Command ε α → Command ε α
  | .clause c => .clause c.redacted
  | .terminal t => .terminal t.redacted
  | .execute s => .execute s.redacted
  | c => c

def Outcome.redacted : Outcome α → Outcome α
  | .statement s => .statement s.redacted
  | o => o

def Call.redacted : Call ε → Call ε
  | .statement e s => .statement e s.redacted
  | c => c

def Builder.redacted (b : Builder ε) : Builder ε := { b with pending := b.pending.redacted }

/-- What a turn shows to a witness who is told no values. -/
def Turn.redacted (turn : Turn ε α) : Turn ε α :=
  { turn with builder := turn.builder.redacted, calls := turn.calls.map Call.redacted }

theorem Turn.andThen_redacted (turn : Turn ε α) (f : α → Except Failure β) :
    (turn.andThen f).redacted = turn.redacted.andThen f := rfl

/-- The executors give both sets of calls the same replies. -/
structure Answers.Agree (answers others : Answers ε) (first second : List (Call ε)) : Prop where
  execute : ∀ e s d t, Call.statement e s ∈ first → Call.statement d t ∈ second →
    answers.execute e s = others.execute d t
  transact : ∀ e t d u, Call.transaction e t ∈ first → Call.transaction d u ∈ second →
    answers.transact e t = others.transact d u

private theorem map_eq_map {e r s : Type} {x y : Except e r} {f : r → s}
    (same : x.map f = y.map f) :
    (∃ error, x = .error error ∧ y = .error error) ∨
      ∃ a b, x = .ok a ∧ y = .ok b ∧ f a = f b := by
  cases x with
  | error error =>
    cases y with
    | error other =>
      cases same
      exact .inl ⟨error,rfl,rfl⟩
    | ok b => cases same
  | ok a =>
    cases y with
    | error other => cases same
    | ok b => exact .inr ⟨a,b,rfl,rfl,Except.ok.inj same⟩

namespace Builder

variable {b c : Builder ε} {answers others : Answers ε}

theorem redacted_eq_redacted_iff :
    b.redacted = c.redacted ↔ b.executor = c.executor ∧
      b.pending.redacted = c.pending.redacted ∧ b.lastQuery = c.lastQuery ∧
      b.tracer = c.tracer := by
  rw [redacted,redacted,mk.injEq]

theorem calls_send (answers : Answers ε) (b : Builder ε) (e : ε) (s : Statement) :
    (b.send answers e s).calls = [.statement e s] := by
  unfold send
  split <;> rfl

/-- Handing over a statement shows its text, the number of its values and the reply. -/
theorem send_redacted (same : b.redacted = c.redacted) {e : ε} {s t : Statement}
    (alike : s.redacted = t.redacted)
    (agree : answers.Agree others (b.send answers e s).calls (c.send others e t).calls) :
    (b.send answers e s).redacted = (c.send others e t).redacted := by
  obtain ⟨executor,pending,_,tracer⟩ := redacted_eq_redacted_iff.mp same
  have outline := Statement.redacted_eq_redacted_iff.mp alike
  obtain ⟨kind,sql,_⟩ := Statement.outline_eq_outline_iff.mp outline
  rw [calls_send,calls_send] at agree
  have replied : answers.execute e s = others.execute e t :=
    agree.execute e s e t List.mem_cons_self List.mem_cons_self
  rw [send,send,replied,kind]
  cases others.execute e t >>= Reply.dueTo t.kind with
  | ok reply =>
    simp [Turn.redacted,redacted,Call.redacted,executor,sql,tracer,alike,
      Trace.Tracer.before_congr _ outline]
  | error f =>
    simp [Turn.redacted,redacted,Call.redacted,executor,pending,sql,tracer,alike,
      Trace.Tracer.before_congr _ outline,Trace.Tracer.onFailure_congr _ outline]

theorem run_redacted (same : b.redacted = c.redacted)
    {render other : Pending → Except RenderError Statement}
    (rendered : (render b.pending).map Statement.redacted =
      (other c.pending).map Statement.redacted)
    (agree : answers.Agree others (b.run answers render).calls (c.run others other).calls) :
    (b.run answers render).redacted = (c.run others other).redacted := by
  obtain ⟨executor,_⟩ := redacted_eq_redacted_iff.mp same
  rw [run,run,executor] at agree
  rw [run,run,executor]
  cases connected : c.executor with
  | none => simp [Turn.redacted,same]
  | some e =>
    obtain ⟨error,first,second⟩ | ⟨s,t,first,second,alike⟩ := map_eq_map rendered
    · simp [first,second,Turn.redacted,same]
    · simp only [connected,first,second] at agree ⊢
      exact send_redacted same alike agree

end Builder

theorem Terminal.run_redacted {b c : Builder ε} {answers others : Answers ε}
    (same : b.redacted = c.redacted) {t u : Terminal α} (asked : t.redacted = u.redacted)
    (agree : answers.Agree others (t.run answers b).calls (u.run others c).calls) :
    (t.run answers b).redacted = (u.run others c).redacted := by
  obtain ⟨_,pending,_,_⟩ := Builder.redacted_eq_redacted_iff.mp same
  have rendered : (t.statement b.pending).map Statement.redacted =
      (u.statement c.pending).map Statement.redacted := by
    rw [← statement_redacted,← statement_redacted,asked,pending]
  have unpack : t.unpack = u.unpack := by rw [← unpack_redacted,asked,unpack_redacted]
  rw [run_eq,run_eq] at agree
  rw [run_eq,run_eq,Turn.andThen_redacted,Turn.andThen_redacted,
    Builder.run_redacted same rendered agree,unpack]

namespace Builder

variable {b c : Builder ε} {answers others : Answers ε}

theorem render_redacted (same : b.redacted = c.redacted) {r q : Request}
    (asked : r.redacted = q.redacted) :
    (r.render b.pending).map Statement.redacted = (q.render c.pending).map Statement.redacted := by
  obtain ⟨_,pending,_,_⟩ := redacted_eq_redacted_iff.mp same
  rw [← Request.render_redacted,← Request.render_redacted,asked,pending]

theorem toSelect_redacted (same : b.redacted = c.redacted) :
    b.toSelect.map Statement.redacted = c.toSelect.map Statement.redacted := by
  have rendered := render_redacted same (rfl : Request.select.redacted = Request.select.redacted)
  rw [toSelect,toSelect]
  obtain ⟨r,first,second⟩ | ⟨s,t,first,second,alike⟩ := map_eq_map rendered
  · rw [show b.pending.toSelect = _ from first,show c.pending.toSelect = _ from second]
  · rw [show b.pending.toSelect = _ from first,show c.pending.toSelect = _ from second]
    exact congrArg Except.ok alike

theorem transact_redacted (same : b.redacted = c.redacted) {t : Transaction}
    (agree : answers.Agree others (b.transact answers t).calls (c.transact others t).calls) :
    (b.transact answers t).redacted = (c.transact others t).redacted := by
  obtain ⟨executor,_⟩ := redacted_eq_redacted_iff.mp same
  rw [transact,transact,executor] at agree
  rw [transact,transact,executor]
  cases connected : c.executor with
  | none => simp [Turn.redacted,same]
  | some e =>
    rw [connected] at agree
    have replied : answers.transact e t = others.transact e t :=
      agree.transact e t e t List.mem_cons_self List.mem_cons_self
    simp [Turn.redacted,same,replied]

theorem execute_redacted (same : b.redacted = c.redacted) {s t : Statement}
    (alike : s.redacted = t.redacted)
    (agree : answers.Agree others (b.execute answers s).calls (c.execute others t).calls) :
    (b.execute answers s).redacted = (c.execute others t).redacted := by
  obtain ⟨executor,_⟩ := redacted_eq_redacted_iff.mp same
  rw [execute,execute,executor] at agree
  rw [execute,execute,executor]
  cases connected : c.executor with
  | none => simp [Turn.redacted,same]
  | some e =>
    rw [connected] at agree
    have replied : answers.execute e s = others.execute e t :=
      agree.execute e s e t List.mem_cons_self List.mem_cons_self
    simp [Turn.redacted,Call.redacted,same,alike,replied]

end Builder

/-- The step: commands that differ in values only do the same, but for the values. -/
theorem Command.run_redacted {b c : Builder ε} {answers others : Answers ε}
    (same : b.redacted = c.redacted) {x y : Command ε α} (asked : x.redacted = y.redacted)
    (agree : answers.Agree others (x.run answers b).calls (y.run others c).calls) :
    ((x.run answers b).map Outcome.redacted).redacted =
      ((y.run others c).map Outcome.redacted).redacted := by
  obtain ⟨executor,pending,lastQuery,tracer⟩ := Builder.redacted_eq_redacted_iff.mp same
  cases x with
  | clause first =>
    cases y with
    | clause second =>
      have asked : first.redacted = second.redacted := Command.clause.inj asked
      have next : (b.apply first).redacted = (c.apply second).redacted := by
        rw [Builder.redacted_eq_redacted_iff]
        refine ⟨executor,?_,lastQuery,tracer⟩
        rw [Builder.apply,Builder.apply,← Pending.apply_redacted,← Pending.apply_redacted,
          pending,asked]
      simp [run,Turn.map,Turn.redacted,next]
    | _ => cases asked
  | terminal t =>
    cases y with
    | terminal u =>
      have turns := Terminal.run_redacted same (Command.terminal.inj asked) agree
      exact congrArg (Turn.map Outcome.redacted) turns
    | _ => cases asked
  | execute s =>
    cases y with
    | execute t =>
      have turns := Builder.execute_redacted same (Command.execute.inj asked) agree
      exact congrArg (fun turn => (turn.map Outcome.reply).map Outcome.redacted) turns
    | _ => cases asked
  | reset =>
    cases y with
    | reset =>
      simp [run,Turn.map,Turn.redacted,Builder.reset,Builder.redacted,executor,lastQuery,tracer]
    | _ => cases asked
  | connect e =>
    cases y with
    | connect other =>
      cases asked
      simp [run,Turn.map,Turn.redacted,Builder.connect,Builder.redacted,pending,lastQuery,tracer]
    | _ => cases asked
  | disconnect =>
    cases y with
    | disconnect =>
      simp [run,Turn.map,Turn.redacted,Builder.disconnect,Builder.redacted,executor,pending,
        lastQuery,tracer]
    | _ => cases asked
  | trace chosen =>
    cases y with
    | trace other =>
      cases asked
      simp [run,Turn.map,Turn.redacted,Builder.trace,Builder.redacted,executor,pending,lastQuery]
    | _ => cases asked
  | toSelect =>
    cases y with
    | toSelect =>
      have shown (d : Builder ε) :
          (d.toSelect.map (Outcome.statement : _ → Outcome α)).map Outcome.redacted =
            (d.toSelect.map Statement.redacted).map Outcome.statement := by
        cases d.toSelect <;> rfl
      simp only [run,Turn.map,Turn.redacted,same,shown,Builder.toSelect_redacted same]
    | _ => cases asked
  | transact t =>
    cases y with
    | transact u =>
      cases asked
      have turns := Builder.transact_redacted same agree
      exact congrArg (fun turn => (turn.map fun () => Outcome.done).map Outcome.redacted) turns
    | _ => cases asked

/-- Two steps show the same: to the executor, which gets the same texts for as many values, to the
server behind it, to the log, and to whoever asks the builder or gets the result. -/
structure Step.Indistinct (x y : Step ε α) : Prop where
  handed : x.turn.statements.map (fun (e,s) => (e,s.outline)) =
    y.turn.statements.map (fun (e,s) => (e,s.outline))
  prepared : ∀ config : Postgres.Config,
    x.turn.statements.map (fun (e,s) => (e,config.prepare s)) =
      y.turn.statements.map (fun (e,s) => (e,config.prepare s))
  events : x.turn.events = y.turn.events
  lastQuery : x.turn.builder.lastQuery = y.turn.builder.lastQuery
  conditions : x.turn.builder.pending.conditions = y.turn.builder.pending.conditions
  alternatives : x.turn.builder.pending.alternatives = y.turn.builder.pending.alternatives
  rendered : ∀ r q : Request, r.redacted = q.redacted →
    (r.render x.turn.builder.pending).map Statement.outline =
      (q.render y.turn.builder.pending).map Statement.outline
  result : x.turn.result.map Outcome.redacted = y.turn.result.map Outcome.redacted

/-- A function that does not look at the values gives the same for statements that differ in
nothing else. -/
theorem Turn.statements_congr {x y : Turn ε α} {γ : Type}
    (same : x.calls.map Call.redacted = y.calls.map Call.redacted) (f : Statement → γ)
    (blind : ∀ s, f s.redacted = f s) :
    x.statements.map (fun (e,s) => (e,f s)) = y.statements.map (fun (e,s) => (e,f s)) := by
  have seen (calls : List (Call ε)) :
      ((calls.map Call.redacted).filterMap Call.statement?).map (fun (e,s) => (e,f s)) =
        (calls.filterMap Call.statement?).map (fun (e,s) => (e,f s)) := by
    induction calls with
    | nil => rfl
    | cons call rest ih =>
      cases call with
      | statement e s => simpa [Call.redacted,Call.statement?,blind] using ih
      | transaction e t => exact ih
  rw [statements,statements,← seen x.calls,same,seen y.calls]

theorem Step.indistinct_of_redacted {x y : Step ε α}
    (same : (x.turn.map Outcome.redacted).redacted = (y.turn.map Outcome.redacted).redacted) :
    x.Indistinct y := by
  obtain ⟨result,builder,calls,events⟩ := Turn.mk.inj same
  have builder : x.turn.builder.redacted = y.turn.builder.redacted := builder
  obtain ⟨_,pending,lastQuery,_⟩ := Builder.redacted_eq_redacted_iff.mp builder
  obtain ⟨_,_,_,conditions,alternatives,_⟩ := Pending.mk.inj pending
  refine ⟨?_,?_,events,lastQuery,conditions,alternatives,?_,result⟩
  · exact Turn.statements_congr calls Statement.outline Statement.outline_redacted
  · intro config
    refine Turn.statements_congr calls config.prepare fun s => ?_
    exact config.prepare_congr s.outline_redacted
  · intro r q asked
    obtain ⟨e,first,second⟩ | ⟨s,t,first,second,alike⟩ :=
      map_eq_map (Builder.render_redacted builder asked)
    · rw [first,second]
    · rw [first,second]
      exact congrArg Except.ok (Statement.redacted_eq_redacted_iff.mp alike)

/-- Two runs that ask for the same with other values, and get the same replies, cannot be told
apart except by the values bound. -/
theorem Builder.steps_indistinct (b c : Builder ε) (same : b.redacted = c.redacted)
    (first second : List (Answers ε × Command ε α))
    (alike : List.Forall₂ (fun x y : Step ε α => x.command.redacted = y.command.redacted ∧
      x.answers.Agree y.answers x.turn.calls y.turn.calls) (b.steps first) (c.steps second)) :
    List.Forall₂ Step.Indistinct (b.steps first) (c.steps second) := by
  induction first generalizing b c second with
  | nil =>
    cases second with
    | nil => exact .nil
    | cons asked second => cases alike
  | cons asked first ih =>
    cases second with
    | nil => cases alike
    | cons asked second =>
      obtain ⟨⟨asked,agree⟩,rest⟩ := List.forall₂_cons.mp alike
      have turns := Command.run_redacted same asked agree
      have next := congrArg Turn.builder turns
      exact .cons (Step.indistinct_of_redacted turns) (ih _ _ next _ rest)

theorem Builder.steps_indistinct_secrets :
    let b : Builder Unit := { executor := some () }
    let answers : Answers Unit := ⟨fun _ _ => .error (.executionFailed (some "23505") "taken"),
      fun _ _ => .ok ()⟩
    let script (name : String) (n : Int64) : List (Answers Unit × Command Unit Unit) := [
      (answers,.clause (.table "users")),(answers,.clause (.membership "id" [.int n,.null])),
      (answers,.terminal (.update (Record.empty.set "name" (.text name))))]
    let first := b.steps (script "hunter2" 1)
    let second := b.steps (script "it's" 99)
    first.flatMap (·.turn.statements) ≠ second.flatMap (·.turn.statements) ∧
    List.Forall₂ Step.Indistinct first second ∧
    second.flatMap (·.turn.events) = [
      .statement .debug .update 3 "UPDATE users SET name = ? WHERE id IN (?, ?)",
      .failed .update "UPDATE users SET name = ? WHERE id IN (?, ?)" "23505"
        "Execution failed [23505]: taken"] := by
  intro b answers script first second
  have agree (some others : List (Call Unit)) : answers.Agree answers some others :=
    ⟨fun _ _ _ _ _ _ => rfl,fun _ _ _ _ _ _ => rfl⟩
  refine ⟨by decide +kernel,?_,by decide +kernel⟩
  exact steps_indistinct b b rfl _ _
    (.cons ⟨rfl,agree _ _⟩ (.cons ⟨rfl,agree _ _⟩ (.cons ⟨rfl,agree _ _⟩ .nil)))

end FluentSql
