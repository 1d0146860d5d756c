/-!
What the success or the failure of a sequence of steps says about its parts.
-/

namespace TemplateFill

theorem bind_eq_ok {ε α β : Type} {first : Except ε α} {next : α → Except ε β} {result : β} :
    (first >>= next) = .ok result ↔ ∃ value, first = .ok value ∧ next value = .ok result := by
  cases first with
  | error failure => exact ⟨nofun, fun ⟨_, impossible, _⟩ => nomatch impossible⟩
  | ok value =>
      constructor
      · exact fun done => ⟨value, rfl, done⟩
      · rintro ⟨_, ⟨⟩, done⟩
        exact done

theorem bind_eq_error {ε α β : Type} {first : Except ε α} {next : α → Except ε β} {failure : ε} :
    (first >>= next) = .error failure ↔
      first = .error failure ∨ ∃ value, first = .ok value ∧ next value = .error failure := by
  cases first with
  | error other =>
      have same : ((Except.error other : Except ε α) >>= next) = .error other := rfl
      rw [same]
      simp
  | ok value =>
      constructor
      · exact fun failed => Or.inr ⟨value, rfl, failed⟩
      · rintro (impossible | ⟨_, ⟨⟩, failed⟩)
        · cases impossible
        · exact failed

theorem map_eq_ok {ε α β : Type} {result : Except ε α} {read : α → β} {value : β} :
    result.map read = .ok value ↔ ∃ whole, result = .ok whole ∧ read whole = value := by
  cases result with
  | error failure => exact ⟨nofun, fun ⟨_, impossible, _⟩ => nomatch impossible⟩
  | ok whole =>
      constructor
      · exact fun done => ⟨whole, rfl, Except.ok.inj done⟩
      · rintro ⟨_, ⟨⟩, rfl⟩
        rfl

theorem exists_of_toOption {ε α β : Type} {result : Except ε α} {use : α → Option β} {found : β}
    (used : result.toOption.bind use = some found) :
    ∃ value, result = .ok value ∧ use value = some found := by
  cases result with
  | error failure => cases used
  | ok value => exact ⟨value, rfl, used⟩

theorem eq_ok_of_toOption_join {ε α : Type} {result : Except ε (Option α)} {value : α}
    (given : result.toOption.join = some value) : result = .ok (some value) := by
  cases result with
  | error failure => cases given
  | ok value? => exact congrArg Except.ok given

theorem mapM_eq_ok {ε α β : Type} {items : List α} {step : α → Except ε β} {value : α → β}
    (each : ∀ item ∈ items, step item = .ok (value item)) :
    items.mapM step = .ok (items.map value) := by
  induction items with
  | nil => rfl
  | cons item rest ih =>
      rw [List.mapM_cons, each item (List.mem_cons_self ..),
        ih fun other later => each other (List.mem_cons_of_mem _ later)]
      rfl

end TemplateFill
