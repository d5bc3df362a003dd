import Mathlib.Data.List.Forall2

/-!
# Steps that can fail

What is known when a row of steps has gone well: each of them has.  And when it has
failed, one of them has, so if each step fails in certain ways only, the row does.
-/

namespace ArtifactAtlas

variable {ε α β γ : Type}

theorem bind_eq_ok_iff {step : Except ε α} {next : α → Except ε β} {result : β} :
    step >>= next = .ok result ↔ ∃ value, step = .ok value ∧ next value = .ok result := by
  cases step with
  | error failure => exact ⟨fun h => (nomatch h), fun ⟨_, h, _⟩ => (nomatch h)⟩
  | ok value =>
      refine ⟨fun h => ⟨value, rfl, h⟩, ?_⟩
      rintro ⟨_, hvalue, h⟩
      cases hvalue
      exact h

theorem bind_eq_error_iff {step : Except ε α} {next : α → Except ε β} {failure : ε} :
    step >>= next = .error failure ↔
      step = .error failure ∨ ∃ value, step = .ok value ∧ next value = .error failure := by
  cases step with
  | error other =>
      refine ⟨fun h => .inl (by cases h; rfl), ?_⟩
      rintro (h | ⟨_, h, _⟩)
      · cases h
        rfl
      · cases h
  | ok value =>
      refine ⟨fun h => .inr ⟨value, rfl, h⟩, ?_⟩
      rintro (h | ⟨_, hvalue, h⟩)
      · cases h
      · cases hvalue
        exact h

theorem map_eq_ok_iff {step : Except ε α} {f : α → β} {result : β} :
    step.map f = .ok result ↔ ∃ value, step = .ok value ∧ f value = result := by
  cases step with
  | error failure => exact ⟨fun h => (nomatch h), fun ⟨_, h, _⟩ => (nomatch h)⟩
  | ok value => simp [Except.map]

theorem pure_eq_ok_iff {value result : α} :
    (pure value : Except ε α) = .ok result ↔ value = result :=
  ⟨fun h => by cases h; rfl, fun h => by rw [h]; rfl⟩

theorem toOption_eq_some_iff {step : Except ε α} {result : α} :
    step.toOption = some result ↔ step = .ok result := by
  cases step <;> simp [Except.toOption]

theorem isSome_toOption_iff {step : Except ε α} :
    step.toOption.isSome ↔ ∃ value, step = .ok value := by
  cases step <;> simp [Except.toOption]

theorem toOption_map_eq_some_iff {step : Except ε α} {f : α → β} {result : β} :
    step.toOption.map f = some result ↔ ∃ value, step = .ok value ∧ f value = result := by
  cases step <;> simp [Except.toOption]

theorem mapM_eq_ok_iff {step : α → Except ε β} {items : List α} {results : List β} :
    items.mapM step = .ok results ↔
      List.Forall₂ (fun item result => step item = .ok result) items results := by
  induction items generalizing results with
  | nil =>
      rw [List.mapM_nil, pure_eq_ok_iff, List.forall₂_nil_left_iff, eq_comm]
  | cons item rest ih =>
      rw [List.mapM_cons, bind_eq_ok_iff, List.forall₂_cons_left_iff]
      constructor
      · rintro ⟨result, hresult, h⟩
        obtain ⟨others, hothers, h⟩ := bind_eq_ok_iff.mp h
        exact ⟨result, others, hresult, ih.mp hothers, (pure_eq_ok_iff.mp h).symm⟩
      · rintro ⟨result, others, hresult, hothers, rfl⟩
        exact ⟨result, hresult, bind_eq_ok_iff.mpr ⟨others, ih.mpr hothers, rfl⟩⟩

/-- A row of steps fails as the first step in it that fails. -/
theorem mapM_eq_error_iff {step : α → Except ε β} {items : List α} {failure : ε} :
    items.mapM step = .error failure ↔ ∃ front item back, items = front ++ item :: back ∧
      (∀ earlier ∈ front, ∃ value, step earlier = .ok value) ∧ step item = .error failure := by
  induction items with
  | nil =>
      refine ⟨fun h => (nomatch h), ?_⟩
      rintro ⟨front, item, back, heq, -⟩
      simp at heq
  | cons item rest ih =>
      rw [List.mapM_cons, bind_eq_error_iff]
      constructor
      · rintro (h | ⟨value, hvalue, h⟩)
        · exact ⟨[], item, rest, rfl, by simp, h⟩
        · obtain h | ⟨_, -, h⟩ := bind_eq_error_iff.mp h
          · obtain ⟨front, other, back, rfl, hfront, hother⟩ := ih.mp h
            exact ⟨item :: front, other, back, rfl,
              List.forall_mem_cons.mpr ⟨⟨value, hvalue⟩, hfront⟩, hother⟩
          · cases h
      · rintro ⟨front, other, back, heq, hfront, hother⟩
        cases front with
        | nil =>
            obtain ⟨rfl, rfl⟩ := List.cons.inj heq
            exact .inl hother
        | cons first front =>
            obtain ⟨rfl, rfl⟩ := List.cons.inj heq
            obtain ⟨⟨value, hvalue⟩, hfront⟩ := List.forall_mem_cons.mp hfront
            exact .inr ⟨value, hvalue,
              bind_eq_error_iff.mpr (.inl (ih.mpr ⟨front, other, back, rfl, hfront, hother⟩))⟩

theorem exists_of_mem_of_forall₂ {related : α → β → Prop} {items : List α} {results : List β}
    (h : List.Forall₂ related items results) {result : β} (hmem : result ∈ results) :
    ∃ item ∈ items, related item result := by
  induction h with
  | nil => cases hmem
  | cons hhead _ ih =>
      rcases List.mem_cons.mp hmem with rfl | hmem
      · exact ⟨_, List.mem_cons_self, hhead⟩
      · obtain ⟨item, hitem, hrelated⟩ := ih hmem
        exact ⟨item, List.mem_cons_of_mem _ hitem, hrelated⟩

theorem exists_of_mem_left_of_forall₂ {related : α → β → Prop} {items : List α}
    {results : List β} (h : List.Forall₂ related items results) {item : α}
    (hmem : item ∈ items) : ∃ result ∈ results, related item result :=
  exists_of_mem_of_forall₂ h.flip hmem

theorem map_eq_map_of_forall₂ {f : α → γ} {g : β → γ} {items : List α} {results : List β}
    (h : List.Forall₂ (fun item result => f item = g result) items results) :
    items.map f = results.map g := by
  induction h with
  | nil => rfl
  | cons hhead _ ih => rw [List.map_cons, List.map_cons, hhead, ih]

/-- Where each step goes well, so does another row of steps that goes well with it. -/
theorem exists_mapM_eq_ok (other : α → Except ε γ) {step : α → Except ε β}
    {related : γ → β → Prop} {items : List α} {results : List β}
    (h : List.Forall₂ (fun item result => step item = .ok result) items results)
    (hother : ∀ item result, step item = .ok result →
      ∃ value, other item = .ok value ∧ related value result) :
    ∃ values, items.mapM other = .ok values ∧ List.Forall₂ related values results := by
  simp only [mapM_eq_ok_iff]
  induction h with
  | nil => exact ⟨[], .nil, .nil⟩
  | cons hstep _ ih =>
      obtain ⟨value, hvalue, hrelated⟩ := hother _ _ hstep
      obtain ⟨values, hvalues, hrest⟩ := ih
      exact ⟨value :: values, .cons hvalue hvalues, .cons hrelated hrest⟩

/-- To take only some of the steps is to keep only their results. -/
theorem mapM_filter_eq_ok {step : α → Except ε β} {items : List α} {results : List β}
    (h : items.mapM step = .ok results) {keep : α → Bool} {keep' : β → Bool}
    (hkeep : ∀ item result, step item = .ok result → keep' result = keep item) :
    (items.filter keep).mapM step = .ok (results.filter keep') := by
  rw [mapM_eq_ok_iff] at h ⊢
  induction h with
  | nil => exact .nil
  | cons hstep _ ih =>
      rw [List.filter_cons, List.filter_cons, hkeep _ _ hstep]
      split
      case isTrue => exact .cons hstep ih
      case isFalse => exact ih

/-- Steps that are taken group by group are taken one after the other. -/
theorem forall₂_of_mapM_groups (step : α → β → Except ε γ) {groups : List (α × List β)}
    {results : List (List γ)}
    (h : groups.mapM (fun group => group.2.mapM (step group.1)) = .ok results) :
    List.Forall₂ (fun item result => step item.1 item.2 = .ok result)
      (groups.flatMap fun group => group.2.map (group.1, ·)) results.flatten := by
  rw [mapM_eq_ok_iff] at h
  induction h with
  | nil => exact .nil
  | cons hgroup _ ih =>
      rw [List.flatMap_cons, List.flatten_cons]
      refine List.rel_append ?_ ih
      rw [List.forall₂_map_left_iff]
      exact mapM_eq_ok_iff.mp hgroup

/-! ## Ways to fail -/

/-- Whether a step, if it fails, fails in one of certain ways. -/
def FailsOnly (allowed : ε → Prop) (step : Except ε α) : Prop :=
  ∀ failure, step = .error failure → allowed failure

namespace FailsOnly

variable {allowed : ε → Prop}

theorem ok (value : α) : FailsOnly allowed (.ok value) :=
  fun _ h => (nomatch h)

theorem pure (value : α) : FailsOnly allowed (Pure.pure value) :=
  ok value

theorem error {failure : ε} (h : allowed failure) :
    FailsOnly allowed (.error failure : Except ε α) := by
  rintro _ ⟨⟩
  exact h

/-- Behind a failure nothing can fail any more. -/
theorem throw_bind {failure : ε} (h : allowed failure) (next : α → Except ε β) :
    FailsOnly allowed (throw failure >>= next) :=
  error h

theorem bind {step : Except ε α} (h : FailsOnly allowed step) {next : α → Except ε β}
    (hnext : ∀ value, step = .ok value → FailsOnly allowed (next value)) :
    FailsOnly allowed (step >>= next) := by
  cases step with
  | error failure => exact error (h failure rfl)
  | ok value => exact hnext value rfl

theorem map {step : Except ε α} (h : FailsOnly allowed step) (f : α → β) :
    FailsOnly allowed (step.map f) := by
  cases step with
  | error failure => exact error (h failure rfl)
  | ok value => exact ok (f value)

theorem mapM {step : α → Except ε β} {items : List α}
    (h : ∀ item ∈ items, FailsOnly allowed (step item)) :
    FailsOnly allowed (items.mapM step) := by
  induction items with
  | nil => exact pure []
  | cons item rest ih =>
      rw [List.forall_mem_cons] at h
      rw [List.mapM_cons]
      exact h.1.bind fun _ _ => (ih h.2).bind fun _ _ => pure _

theorem foldlM {step : β → α → Except ε β} (items : List α)
    (h : ∀ state item, FailsOnly allowed (step state item)) (state : β) :
    FailsOnly allowed (items.foldlM step state) := by
  induction items generalizing state with
  | nil => exact pure state
  | cons item rest ih =>
      rw [List.foldlM_cons]
      exact (h state item).bind fun next _ => ih next

end FailsOnly

end ArtifactAtlas
