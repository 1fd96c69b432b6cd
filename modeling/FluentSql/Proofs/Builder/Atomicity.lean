import FluentSql.Proofs.Builder.Terminal
import FluentSql.Proofs.Traversal
import FluentSql.Row.User

/-! Operations that run a statement do so once and in full, or leave the pending state as it
was. Only reading rows as another type can fail after the statement has cleared the state. -/
namespace FluentSql.Terminal

variable {ε α : Type} {answers : Answers ε} {b : Builder ε} {t : Terminal α}
variable {e : ε} {s : Statement}

theorem kind_of_statement {q : Pending} (ok : t.statement q = .ok s) :
    s.kind = t.request.kind := (Request.render_inv ok).2

theorem statement_error_iff (t : Terminal α) (q : Pending) (r : RenderError) :
    t.statement q = .error r ↔ t.request.render q = .error r := by
  cases t with
  | first => exact Request.render_setLimit_error_iff .select q 1 r
  | firstAs read => exact Request.render_setLimit_error_iff .select q 1 r
  | _ => rfl

theorem statement_of_render {q : Pending} (ok : t.request.render q = .ok s) :
    ∃ sent, t.statement q = .ok sent := by
  cases made : t.statement q with
  | error r =>
    rw [(statement_error_iff t q r).mp made] at ok
    cases ok
  | ok sent => exact ⟨sent,rfl⟩

theorem run_unconnected (answers : Answers ε) (t : Terminal α) (none : b.executor = none) :
    t.run answers b = ⟨.error .notConnected,b,[],[]⟩ := by
  rw [run_eq,Builder.run_unconnected none]
  rfl

theorem run_unrendered {r : RenderError} (connected : b.executor = some e)
    (error : t.statement b.pending = .error r) :
    t.run answers b = ⟨.error r.toFailure,b,[],[]⟩ := by
  rw [run_eq,Builder.run_unrendered connected error]
  rfl

theorem run_refused {f : Failure} (connected : b.executor = some e)
    (rendered : t.statement b.pending = .ok s)
    (refused : answers.execute e s >>= Reply.dueTo s.kind = .error f) :
    t.run answers b =
      ⟨.error f,{ b with lastQuery := some s.sql },[.statement e s],
        b.tracer.before s ++ b.tracer.onFailure s f⟩ := by
  rw [run_eq,Builder.run_failed connected rendered refused]
  rfl

theorem run_answered {reply : Reply} (connected : b.executor = some e)
    (rendered : t.statement b.pending = .ok s) (answer : answers.execute e s = .ok reply)
    (fits : reply.isRows = t.request.kind.returnsRows) :
    t.run answers b =
      ⟨t.unpack reply,{ b with lastQuery := some s.sql, pending := .empty },[.statement e s],
        b.tracer.before s⟩ := by
  rw [← kind_of_statement rendered] at fits
  have accepted : answers.execute e s >>= Reply.dueTo s.kind = .ok reply := by
    rw [answer]
    exact Reply.dueTo_of_fits fits
  rw [run_eq,Builder.run_answered connected rendered accepted]
  rfl

/-- The ways an operation can end, each with all that it does. -/
inductive Ending (answers : Answers ε) (b : Builder ε) (t : Terminal α) :
    Turn ε (Outcome α) → Prop
  | unconnected (none : b.executor = none) :
    Ending answers b t ⟨.error .notConnected,b,[],[]⟩
  | unrendered {e : ε} {r : RenderError} (connected : b.executor = some e)
    (error : t.statement b.pending = .error r) :
    Ending answers b t ⟨.error r.toFailure,b,[],[]⟩
  | refused {e : ε} {s : Statement} {f : Failure} (connected : b.executor = some e)
    (rendered : t.statement b.pending = .ok s)
    (refused : answers.execute e s >>= Reply.dueTo s.kind = .error f) :
    Ending answers b t ⟨.error f,{ b with lastQuery := some s.sql },[.statement e s],
      b.tracer.before s ++ b.tracer.onFailure s f⟩
  | answered {e : ε} {s : Statement} {reply : Reply} (connected : b.executor = some e)
    (rendered : t.statement b.pending = .ok s) (answer : answers.execute e s = .ok reply)
    (fits : reply.isRows = s.kind.returnsRows) :
    Ending answers b t ⟨t.unpack reply,{ b with lastQuery := some s.sql, pending := .empty },
      [.statement e s],b.tracer.before s⟩

namespace Ending

variable {turn : Turn ε (Outcome α)}

theorem calls_eq (ending : t.Ending answers b turn)
    (connected : b.executor = some e) (rendered : t.statement b.pending = .ok s) :
    turn.calls = [.statement e s] := by
  cases ending with
  | unconnected none =>
    rw [none] at connected
    cases connected
  | unrendered _ error =>
    rw [error] at rendered
    cases rendered
  | refused connected' rendered' _ =>
    cases connected.symm.trans connected'
    cases rendered.symm.trans rendered'
    rfl
  | answered connected' rendered' _ _ =>
    cases connected.symm.trans connected'
    cases rendered.symm.trans rendered'
    rfl

theorem rendered_of_mem (ending : t.Ending answers b turn)
    (member : Call.statement e s ∈ turn.calls) :
    b.executor = some e ∧ t.statement b.pending = .ok s := by
  cases ending with
  | unconnected none => cases member
  | unrendered connected error => cases member
  | refused connected rendered _ =>
    cases List.mem_singleton.mp member
    exact ⟨connected,rendered⟩
  | answered connected rendered _ _ =>
    cases List.mem_singleton.mp member
    exact ⟨connected,rendered⟩

end Ending

theorem run_ending (answers : Answers ε) (b : Builder ε) (t : Terminal α) :
    t.Ending answers b (t.run answers b) := by
  cases connected : b.executor with
  | none =>
    rw [run_unconnected answers t connected]
    exact .unconnected connected
  | some e =>
    cases rendered : t.statement b.pending with
    | error r =>
      rw [run_unrendered connected rendered]
      exact .unrendered connected rendered
    | ok s =>
      cases accepted : answers.execute e s >>= Reply.dueTo s.kind with
      | error f =>
        rw [run_refused connected rendered accepted]
        exact .refused connected rendered accepted
      | ok reply =>
        obtain ⟨answer,fits⟩ := Answers.execute_of_accepted accepted
        have due := fits
        rw [kind_of_statement rendered] at due
        rw [run_answered connected rendered answer due]
        exact .answered connected rendered answer fits

theorem unpack_of_fits (untyped : t.isTyped = false) {reply : Reply}
    (fits : reply.isRows = t.request.kind.returnsRows) :
    ∃ outcome, t.unpack reply = .ok outcome := by
  cases t with
  | getAs read => cases untyped
  | firstAs read => cases untyped
  | _ =>
    cases reply with
    | rows found => first | exact ⟨_,rfl⟩ | cases fits
    | counts id affected => first | exact ⟨_,rfl⟩ | cases fits

/-- A reply of the sort due clears the state; whatever else happens is a failure that keeps it. -/
theorem run_kept_or_cleared (answers : Answers ε) (b : Builder ε) (t : Terminal α) :
    (∃ f, (t.run answers b).result = .error f ∧ (t.run answers b).builder.pending = b.pending) ∨
    ∃ e s reply, b.executor = some e ∧ t.statement b.pending = .ok s ∧
      answers.execute e s = .ok reply ∧ reply.isRows = t.request.kind.returnsRows ∧
      (t.run answers b).result = t.unpack reply ∧
      (t.run answers b).builder.pending = .empty := by
  have ending := run_ending answers b t
  generalize t.run answers b = turn at ending
  cases ending with
  | unconnected none => exact .inl ⟨_,rfl,rfl⟩
  | unrendered connected error => exact .inl ⟨_,rfl,rfl⟩
  | refused connected rendered refused => exact .inl ⟨_,rfl,rfl⟩
  | answered connected rendered answer fits =>
    rw [kind_of_statement rendered] at fits
    exact .inr ⟨_,_,_,connected,rendered,answer,fits,rfl,rfl⟩

/-- What happens to a builder when an operation runs, in terms of the state, the executor and
its reply. -/
structure Atomic (answers : Answers ε) (b : Builder ε) (t : Terminal α) : Prop where
  called : ∀ e s, b.executor = some e → t.request.render b.pending = .ok s →
    ∃ sent, t.statement b.pending = .ok sent ∧
      (t.run answers b).calls = [.statement e sent]
  uncalled : b.executor = none ∨ (∃ r, t.request.render b.pending = .error r) →
    (t.run answers b).calls = []
  unconnected : b.executor = none → (t.run answers b).result = .error .notConnected
  unrendered : ∀ e r, b.executor = some e → t.request.render b.pending = .error r →
    (t.run answers b).result = .error r.toFailure
  refused : ∀ e s f, b.executor = some e → t.statement b.pending = .ok s →
    answers.execute e s = .error f → (t.run answers b).result = .error f
  misfit : ∀ e s reply, b.executor = some e → t.statement b.pending = .ok s →
    answers.execute e s = .ok reply → reply.isRows ≠ t.request.kind.returnsRows →
    ∃ message, reply.dueTo t.request.kind = .error (.unexpectedResult message) ∧
      (t.run answers b).result = .error (.unexpectedResult message)
  answered : ∀ e s reply, b.executor = some e → t.statement b.pending = .ok s →
    answers.execute e s = .ok reply → reply.isRows = t.request.kind.returnsRows →
    ∃ outcome, t.unpack reply = .ok outcome ∧ (t.run answers b).result = .ok outcome
  succeeded : ∀ outcome, (t.run answers b).result = .ok outcome →
    (t.run answers b).builder.pending = .empty ∧
    ∃ e s reply, b.executor = some e ∧ t.statement b.pending = .ok s ∧
      answers.execute e s = .ok reply ∧ reply.isRows = t.request.kind.returnsRows
  failed : ∀ f, (t.run answers b).result = .error f →
    (t.run answers b).builder.pending = b.pending

theorem run_atomic (answers : Answers ε) (b : Builder ε) (t : Terminal α)
    (untyped : t.isTyped = false) : t.Atomic answers b where
  called := by
    intro e s connected rendered
    obtain ⟨sent,rendered⟩ := statement_of_render rendered
    refine ⟨sent,rendered,?_⟩
    cases accepted : answers.execute e sent >>= Reply.dueTo sent.kind with
    | error f => rw [run_refused connected rendered accepted]
    | ok reply =>
      obtain ⟨answer,fits⟩ := Answers.execute_of_accepted accepted
      rw [kind_of_statement rendered] at fits
      rw [run_answered connected rendered answer fits]
  uncalled := by
    intro cause
    cases connected : b.executor with
    | none => rw [run_unconnected answers t connected]
    | some e =>
      obtain none | ⟨r,error⟩ := cause
      · rw [none] at connected
        cases connected
      · rw [run_unrendered connected ((statement_error_iff t _ r).mpr error)]
  unconnected := by
    intro none
    rw [run_unconnected answers t none]
  unrendered := by
    intro e r connected error
    rw [run_unrendered connected ((statement_error_iff t _ r).mpr error)]
  refused := by
    intro e s f connected rendered refused
    rw [run_refused connected rendered (by rw [refused]; rfl)]
  misfit := by
    intro e s reply connected rendered answer misfits
    obtain ⟨message,error⟩ := Reply.dueTo_of_misfits misfits
    refine ⟨message,error,?_⟩
    rw [← kind_of_statement rendered] at error
    rw [run_refused connected rendered (by rw [answer]; exact error)]
  answered := by
    intro e s reply connected rendered answer fits
    obtain ⟨outcome,unpacked⟩ := unpack_of_fits untyped fits
    refine ⟨outcome,unpacked,?_⟩
    rw [run_answered connected rendered answer fits]
    exact unpacked
  succeeded := by
    intro outcome ok
    obtain ⟨f,error,_⟩ | ⟨e,s,reply,connected,rendered,answer,fits,_,cleared⟩ :=
      run_kept_or_cleared answers b t
    · rw [error] at ok
      cases ok
    · exact ⟨cleared,e,s,reply,connected,rendered,answer,fits⟩
  failed := by
    intro f error
    obtain ⟨_,_,kept⟩ | ⟨e,s,reply,_,_,_,fits,result,_⟩ := run_kept_or_cleared answers b t
    · exact kept
    · obtain ⟨outcome,unpacked⟩ := unpack_of_fits untyped fits
      rw [result,unpacked] at error
      cases error

theorem run_atomic_first :
    let b : Builder Unit := { executor := some (), pending := { table := some "t", limit := some 9 } }
    let answers : Answers Unit := ⟨fun _ _ => .ok (.counts none 1),fun _ _ => .ok ()⟩
    let turn := (Terminal.first : Terminal Unit).run answers b
    (∃ message, turn.result = .error (.unexpectedResult message)) ∧
      turn.calls = [.statement () ⟨.select,"SELECT * FROM t LIMIT 1",[]⟩] ∧
      turn.builder.pending.limit = some 9 := by
  intro b answers turn
  have atomic : (Terminal.first : Terminal Unit).Atomic answers b :=
    run_atomic answers b .first rfl
  obtain ⟨message,_,error⟩ := atomic.misfit () _ _ rfl rfl rfl (by decide)
  refine ⟨⟨message,error⟩,?_,?_⟩
  · obtain ⟨sent,rendered,calls⟩ := atomic.called () _ rfl rfl
    cases rendered
    rw [calls]
    rfl
  · rw [atomic.failed _ error]

/-- The rows cannot be read as the type asked for, and the failure is that of the first row
that cannot. -/
def Unreadable (rows : List Row) (f : Failure) : Terminal α → Prop
  | .getAs read => ∃ before row after, rows = before ++ row :: after ∧
    (∀ r ∈ before, ∃ a, read r = .ok a) ∧ read row = .error f
  | .firstAs read => ∃ row, rows.head? = some row ∧ read row = .error f
  | _ => False

theorem unpack_error_iff {reply : Reply} (f : Failure)
    (fits : reply.isRows = t.request.kind.returnsRows) :
    t.unpack reply = .error f ↔ ∃ rows, reply = .rows rows ∧ t.Unreadable rows f := by
  cases t with
  | getAs read =>
    cases reply with
    | counts id affected => cases fits
    | rows found =>
      have unpacked : (getAs read).unpack (.rows found) = .error f ↔
          found.mapM read = .error f := Traversal.bind_error_iff _ Outcome.items f
      rw [unpacked,Traversal.mapM_error_iff]
      simp [Unreadable,Traversal.FailsFirst]
  | firstAs read =>
    cases reply with
    | counts id affected => cases fits
    | rows found =>
      cases found with
      | nil => simp [unpack,Reply.toRows,bind,Except.bind,pure,Except.pure,Unreadable]
      | cons row rest =>
        have unpacked : (firstAs read).unpack (.rows (row :: rest)) = .error f ↔
            read row = .error f := Traversal.bind_error_iff _ (fun a => Outcome.item (some a)) f
        rw [unpacked]
        simp [Unreadable]
  | _ =>
    obtain ⟨outcome,unpacked⟩ := unpack_of_fits rfl fits
    simp [unpacked,Unreadable]

theorem pending_ne_empty (rendered : t.statement b.pending = .ok s) : b.pending ≠ .empty := by
  intro empty
  have named : (t.prepare b.pending).table.isSome = true := (Request.render_inv rendered).1
  rw [empty] at named
  cases t <;> cases named

private theorem returnsRows_of_unreadable {rows : List Row} {f : Failure}
    (unreadable : t.Unreadable rows f) : t.request.kind.returnsRows = true := by
  cases t with
  | getAs read => rfl
  | firstAs read => rfl
  | _ => cases unreadable

/-- A failure keeps the pending state, unless it is one of reading the rows that the executor
returned: then the statement has run and the state is cleared. -/
theorem run_error_changes_iff (answers : Answers ε) (b : Builder ε) (t : Terminal α) :
    (∀ outcome, (t.run answers b).result = .ok outcome →
      (t.run answers b).builder.pending = .empty) ∧
    (∀ f, (t.run answers b).result = .error f →
      (t.run answers b).builder.pending = b.pending ∨
      (t.run answers b).builder.pending = .empty) ∧
    ∀ f, (t.run answers b).result = .error f ∧ (t.run answers b).builder.pending ≠ b.pending ↔
      ∃ e s rows, b.executor = some e ∧ t.statement b.pending = .ok s ∧
        answers.execute e s = .ok (.rows rows) ∧ t.Unreadable rows f := by
  have ends := run_kept_or_cleared answers b t
  refine ⟨?_,?_,fun f => ⟨?_,?_⟩⟩
  · intro outcome ok
    obtain ⟨f,error,_⟩ | ⟨_,_,_,_,_,_,_,_,cleared⟩ := ends
    · rw [error] at ok
      cases ok
    · exact cleared
  · intro f _
    obtain ⟨_,_,kept⟩ | ⟨_,_,_,_,_,_,_,_,cleared⟩ := ends
    · exact .inl kept
    · exact .inr cleared
  · rintro ⟨error,changed⟩
    obtain ⟨_,_,kept⟩ | ⟨e,s,reply,connected,rendered,answer,fits,result,_⟩ := ends
    · exact absurd kept changed
    · rw [result,unpack_error_iff f fits] at error
      obtain ⟨rows,rfl,unreadable⟩ := error
      exact ⟨e,s,rows,connected,rendered,answer,unreadable⟩
  · rintro ⟨e,s,rows,connected,rendered,answer,unreadable⟩
    have fits : (Reply.rows rows).isRows = t.request.kind.returnsRows :=
      (returnsRows_of_unreadable unreadable).symm
    rw [run_answered connected rendered answer fits]
    exact ⟨(unpack_error_iff f fits).mpr ⟨rows,rfl,unreadable⟩,
      (pending_ne_empty rendered).symm⟩

theorem run_error_changes_getAs :
    let b : Builder Unit := { executor := some (), pending := { table := some "users" } }
    let users : List Row := [
      .ofFields [("id",.int 1),("name",.text "ada"),("email",.null)],
      .ofFields [("id",.text "x"),("name",.text "bob"),("email",.null)]]
    let answers : Answers Unit := ⟨fun _ _ => .ok (.rows users),fun _ _ => .ok ()⟩
    let turn := (Terminal.getAs User.ofRow).run answers b
    turn.result = .error (.decode "id" "expected int, got text") ∧
      turn.builder.pending ≠ b.pending ∧ turn.builder.pending = .empty := by
  intro b users answers turn
  obtain ⟨_,keptOrCleared,changes⟩ := run_error_changes_iff answers b (.getAs User.ofRow)
  have unreadable : (Terminal.getAs User.ofRow).Unreadable users
      (.decode "id" "expected int, got text") :=
    ⟨[_],_,[],rfl,fun r member => ⟨⟨1,"ada",none⟩,by
      cases List.mem_singleton.mp member
      rfl⟩,rfl⟩
  obtain ⟨error,changed⟩ := (changes _).mpr ⟨(),_,users,rfl,rfl,rfl,unreadable⟩
  refine ⟨error,changed,?_⟩
  obtain kept | cleared := keptOrCleared _ error
  · exact absurd kept changed
  · exact cleared

end FluentSql.Terminal
