import Mathlib.Data.List.Forall2

/-! Steps that can fail, taken one after another along a list. Either all of them succeed, or the
first that does not says how the whole fails. -/
namespace FluentSql.Traversal

variable {α β γ δ ε : Type}

theorem bind_ok_iff (x : Except ε α) (g : α → Except ε β) (b : β) :
    (x >>= g) = .ok b ↔ ∃ a, x = .ok a ∧ g a = .ok b := by
  cases x <;> simp [bind,Except.bind]

theorem bind_error_iff (x : Except ε α) (g : α → β) (f : ε) :
    (x >>= fun a => .ok (g a)) = .error f ↔ x = .error f := by
  cases x <;> simp [bind,Except.bind]

theorem map_ok_iff (x : Except ε α) (g : α → β) (b : β) :
    x.map g = .ok b ↔ ∃ a, x = .ok a ∧ g a = b := by
  cases x <;> simp [Except.map]

theorem map_error_iff (x : Except ε α) (g : α → β) (f : ε) :
    x.map g = .error f ↔ x = .error f := by
  cases x <;> simp [Except.map]

theorem map_some_ok_iff (x : Except ε α) (a : α) : x.map some = .ok (some a) ↔ x = .ok a := by
  cases x <;> simp [Except.map]

theorem mapError_bind_ok_iff (x : Except δ α) (f : δ → ε) (g : α → Except ε β) (b : β) :
    (x.mapError f >>= g) = .ok b ↔ ∃ a, x = .ok a ∧ g a = .ok b := by
  cases x <;> simp [Except.mapError,bind,Except.bind]

theorem mapM_ok_iff (step : α → Except ε β) (items : List α) (results : List β) :
    items.mapM step = .ok results ↔ List.Forall₂ (fun a b => step a = .ok b) items results := by
  induction items generalizing results with
  | nil => cases results <;> simp [pure,Except.pure]
  | cons a items ih =>
    rw [List.mapM_cons]
    cases head : step a with
    | error f => cases results <;> simp [bind,Except.bind,head]
    | ok b =>
      cases tail : items.mapM step with
      | error f => cases results <;> simp [bind,Except.bind,← ih,tail]
      | ok bs => cases results <;> simp [bind,Except.bind,pure,Except.pure,← ih,tail,head]

/-- The step fails for an item of the list, and for none before it. -/
def FailsFirst (step : α → Except ε β) (items : List α) (f : ε) : Prop :=
  ∃ before a after, items = before ++ a :: after ∧
    (∀ b ∈ before, ∃ result, step b = .ok result) ∧ step a = .error f

theorem exists_failsFirst {step : α → Except ε β} {items : List α}
    (fails : ∃ a ∈ items, ∃ f, step a = .error f) : ∃ f, FailsFirst step items f := by
  induction items with
  | nil =>
    obtain ⟨a,member,_⟩ := fails
    cases member
  | cons first rest ih =>
    cases head : step first with
    | error f => exact ⟨f,[],first,rest,rfl,by simp,head⟩
    | ok b =>
      obtain ⟨a,_ | ⟨_,member⟩,f,error⟩ := fails
      · cases head.symm.trans error
      · obtain ⟨g,before,c,after,rfl,passes,failed⟩ := ih ⟨a,member,f,error⟩
        refine ⟨g,first :: before,c,after,rfl,?_,failed⟩
        rintro d (_ | ⟨_,earlier⟩)
        · exact ⟨b,head⟩
        · exact passes d earlier

theorem mapM_error_iff (step : α → Except ε β) (items : List α) (f : ε) :
    items.mapM step = .error f ↔ FailsFirst step items f := by
  rw [FailsFirst]
  induction items with
  | nil => simp [pure,Except.pure]
  | cons first rest ih =>
    rw [List.mapM_cons]
    cases head : step first with
    | error g =>
      constructor
      · intro error
        cases error
        exact ⟨[],first,rest,rfl,by simp,head⟩
      · rintro ⟨before,a,after,items,passes,error⟩
        cases before with
        | nil =>
          cases items
          cases head.symm.trans error
          rfl
        | cons b before =>
          cases items
          obtain ⟨result,ok⟩ := passes first List.mem_cons_self
          cases head.symm.trans ok
    | ok result =>
      have tail : (Except.ok result >>= fun b => rest.mapM step >>= fun bs => pure (b :: bs)) =
          .error f ↔ rest.mapM step = .error f := bind_error_iff _ (result :: ·) f
      rw [tail,ih]
      constructor
      · rintro ⟨before,a,after,rfl,passes,error⟩
        refine ⟨first :: before,a,after,rfl,?_,error⟩
        rintro b (_ | ⟨_,member⟩)
        · exact ⟨result,head⟩
        · exact passes b member
      · rintro ⟨before,a,after,items,passes,error⟩
        cases before with
        | nil =>
          cases items
          cases head.symm.trans error
        | cons b before =>
          cases items
          exact ⟨before,a,after,rfl,fun b member =>
            passes b (List.mem_cons_of_mem _ member),error⟩

/-- Where every item takes its parts in turn, the list takes all parts in turn. -/
theorem mapM_error_iff_flatMap (parts : γ → List α) (step : α → Except ε β)
    (whole : γ → Except ε δ) (items : List γ)
    (inTurn : ∀ c ∈ items, ∀ f, whole c = .error f ↔ (parts c).mapM step = .error f) (f : ε) :
    items.mapM whole = .error f ↔ (items.flatMap parts).mapM step = .error f := by
  induction items with
  | nil => simp [pure,Except.pure]
  | cons c rest ih =>
    have first := inTurn c List.mem_cons_self
    have later := ih fun c member => inTurn c (List.mem_cons_of_mem _ member)
    rw [List.mapM_cons,List.flatMap_cons,List.mapM_append]
    cases head : whole c with
    | error g =>
      rw [(first g).mp head]
      simp [bind,Except.bind]
    | ok d =>
      cases taken : (parts c).mapM step with
      | error g =>
        have failed := (first g).mpr taken
        cases head.symm.trans failed
      | ok results =>
        have left := bind_error_iff (rest.mapM whole) (d :: ·) f
        have right := bind_error_iff ((rest.flatMap parts).mapM step) (results ++ ·) f
        exact left.trans (later.trans right.symm)

end FluentSql.Traversal
