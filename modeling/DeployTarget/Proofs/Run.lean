import DeployTarget.Program

/-!
# Runs of composed programs

A program that goes on with the result of another one logs, asks and ends as its two
parts do, one after the other, and the second part begins with the calls of the first
one behind it.  A run that cannot be cancelled does not depend on the calls that were
begun before it, and a run that can be cancelled either is cancelled or ends in the
same way.
-/

namespace DeployTarget

namespace Run

variable {α β : Type}

/-- The run that goes on with the result of a run, unless that is a failure. -/
def andThen (first : Run α) (next : α → Run β) : Run β :=
  match first.result with
  | .ok value =>
      ⟨first.events ++ (next value).events, first.calls ++ (next value).calls,
        (next value).result⟩
  | .error error => ⟨first.events, first.calls, .error error⟩

@[simp]
theorem logged_andThen (event : Event) (first : Run α) (next : α → Run β) :
    (first.logged event).andThen next = (first.andThen next).logged event := by
  cases ended : first.result <;> simp [andThen, logged, ended]

@[simp]
theorem called_andThen (call : Call) (first : Run α) (next : α → Run β) :
    (first.called call).andThen next = (first.andThen next).called call := by
  cases ended : first.result <;> simp [andThen, called, ended]

theorem length_calls_called (call : Call) (run : Run α) :
    (run.called call).calls.length = run.calls.length + 1 :=
  rfl

theorem andThen_of_ok {first : Run α} {value : α} (ended : first.result = .ok value)
    (next : α → Run β) :
    first.andThen next =
      ⟨first.events ++ (next value).events, first.calls ++ (next value).calls,
        (next value).result⟩ := by
  simp [andThen, ended]

theorem andThen_of_error {first : Run α} {error : Error}
    (ended : first.result = .error error) (next : α → Run β) :
    first.andThen next = ⟨first.events, first.calls, .error error⟩ := by
  simp [andThen, ended]

theorem result_andThen (first : Run α) (next : α → Run β) :
    (first.andThen next).result = first.result >>= fun value => (next value).result := by
  cases ended : first.result with
  | ok value => rw [andThen_of_ok ended]; rfl
  | error error => rw [andThen_of_error ended]; rfl

end Run

namespace Program

variable {α β : Type} {world : World} {cancelAfter : Option Nat} {begun : Nat}

/-! ## Programs one after the other -/

/-- The second of two programs begins where the calls of the first one end. -/
theorem runFrom_bind (program : Program α) (next : α → Program β) :
    (program >>= next).runFrom world cancelAfter begun =
      (program.runFrom world cancelAfter begun).andThen fun value =>
        (next value).runFrom world cancelAfter
          (begun + (program.runFrom world cancelAfter begun).calls.length) := by
  change (program.bind next).runFrom world cancelAfter begun = _
  induction program generalizing begun with
  | done value => rfl
  | fail error => rfl
  | log event rest ih => simp only [Program.bind, runFrom, ih, Run.logged_andThen]; rfl
  | checkpoint rest ih =>
      simp only [Program.bind, runFrom]
      split
      · rfl
      · exact ih
  | lookup expression answer ih =>
      simp only [Program.bind, runFrom]
      cases world.lookup expression with
      | error error => rfl
      | ok value =>
          simp only [ih, Run.called_andThen, Run.length_calls_called, Nat.add_assoc,
            Nat.add_comm 1]
  | connector request answer ih =>
      simp only [Program.bind, runFrom, ih, Run.called_andThen, Run.length_calls_called,
        Nat.add_assoc, Nat.add_comm 1]

/-! ## Runs that cannot be cancelled -/

/-- The number of calls that were begun matters for cancelling alone. -/
theorem runFrom_none (program : Program α) (begun : Nat) :
    program.runFrom world none begun = program.run world none := by
  change _ = program.runFrom world none 0
  induction program generalizing begun with
  | done value => rfl
  | fail error => rfl
  | log event rest ih => simp only [runFrom, ih begun]
  | checkpoint rest ih => simpa [runFrom, isCancelled] using ih begun
  | lookup expression answer ih =>
      simp only [runFrom]
      cases world.lookup expression with
      | error error => rfl
      | ok value => simp only [ih value (begun + 1), ih value (0 + 1)]
  | connector request answer ih =>
      simp only [runFrom, ih _ (begun + 1), ih _ (0 + 1)]

theorem run_bind (program : Program α) (next : α → Program β) :
    (program >>= next).run world none =
      (program.run world none).andThen fun value => (next value).run world none := by
  change (program >>= next).runFrom world none 0 = (program.runFrom world none 0).andThen _
  rw [runFrom_bind]
  simp only [runFrom_none]

theorem result_run_bind (program : Program α) (next : α → Program β) :
    ((program >>= next).run world none).result =
      (program.run world none).result >>= fun value =>
        ((next value).run world none).result := by
  rw [run_bind, Run.result_andThen]

/-- A composed program succeeds if and only if both of its parts do. -/
theorem result_run_bind_eq_ok {program : Program α} {next : α → Program β} {result : β} :
    ((program >>= next).run world none).result = .ok result ↔
      ∃ value, (program.run world none).result = .ok value ∧
        ((next value).run world none).result = .ok result := by
  rw [result_run_bind]
  cases (program.run world none).result with
  | ok value => simp [bind, Except.bind]
  | error error => simp [bind, Except.bind]

@[simp]
theorem run_pure (value : α) :
    (pure value : Program α).run world cancelAfter = ⟨[], [], .ok value⟩ :=
  rfl

@[simp]
theorem run_ofExcept (attempt : Except Error α) :
    (ofExcept attempt).run world cancelAfter = ⟨[], [], attempt⟩ := by
  cases attempt <;> rfl

@[simp]
theorem run_tell (level : Level) (message : String) (fields : List (String × String)) :
    (tell level message fields).run world cancelAfter =
      ⟨[⟨level, message, fields⟩], [], .ok ()⟩ :=
  rfl

theorem run_ask (expression : String) :
    (ask expression).run world none =
      ⟨[], [.lookup expression], world.lookup expression⟩ := by
  simp only [ask, run, runFrom]
  cases world.lookup expression <;> rfl

/-! ## Programs that ask nothing -/

/-- A program that asks nothing of any world and ends as an attempt does. -/
structure EndsAs (program : Program α) (attempt : Except Error α) : Prop where
  calls (world : World) : (program.run world none).calls = []
  result (world : World) : (program.run world none).result = attempt

theorem endsAs_ofExcept (attempt : Except Error α) : (ofExcept attempt).EndsAs attempt where
  calls _ := by rw [run_ofExcept]
  result _ := by rw [run_ofExcept]

theorem endsAs_pure (value : α) : (pure value : Program α).EndsAs (.ok value) :=
  endsAs_ofExcept (.ok value)

theorem endsAs_tell (level : Level) (message : String) (fields : List (String × String)) :
    (tell level message fields).EndsAs (.ok ()) :=
  ⟨fun _ => rfl, fun _ => rfl⟩

theorem EndsAs.bind {program : Program α} {attempt : Except Error α} {next : α → Program β}
    {nextAttempt : α → Except Error β} (first : program.EndsAs attempt)
    (second : ∀ value, (next value).EndsAs (nextAttempt value)) :
    (program >>= next).EndsAs (attempt >>= nextAttempt) where
  calls world := by
    rw [run_bind]
    cases ended : (program.run world none).result with
    | ok value =>
        rw [Run.andThen_of_ok ended, first.calls world, (second value).calls world]
        rfl
    | error error => rw [Run.andThen_of_error ended, first.calls world]
  result world := by
    rw [result_run_bind, first.result world]
    exact bind_congr fun value => (second value).result world

/-! ## Runs that can be cancelled -/

/-- A run that can be cancelled is cancelled, or it ends as if it could not be. -/
theorem result_runFrom_some (program : Program α) (limit begun : Nat) :
    (program.runFrom world (some limit) begun).result = .error .cancelled ∨
      (program.runFrom world (some limit) begun).result =
        (program.run world none).result := by
  rw [← runFrom_none program begun]
  induction program generalizing begun with
  | done value => exact Or.inr rfl
  | fail error => exact Or.inr rfl
  | log event rest ih => exact ih begun
  | checkpoint rest ih =>
      by_cases reached : limit ≤ begun
      · left
        simp [runFrom, isCancelled, reached]
      · simpa [runFrom, isCancelled, reached] using ih begun
  | lookup expression answer ih =>
      simp only [runFrom]
      cases world.lookup expression with
      | error error => exact Or.inr rfl
      | ok value => exact ih value (begun + 1)
  | connector request answer ih => exact ih _ (begun + 1)

/-- A run that succeeds although it can be cancelled is the run that cannot be. -/
theorem runFrom_eq_of_ok {program : Program α} {begun : Nat} {result : α}
    (succeeds : (program.runFrom world cancelAfter begun).result = .ok result) :
    program.runFrom world cancelAfter begun = program.run world none := by
  rw [← runFrom_none program begun]
  induction program generalizing begun with
  | done value => rfl
  | fail error => rfl
  | log event rest ih => exact congrArg (Run.logged event) (ih succeeds)
  | checkpoint rest ih =>
      simp only [runFrom] at succeeds ⊢
      split at succeeds
      · cases succeeds
      · rw [if_neg ‹_›, ih succeeds]
        rfl
  | lookup expression answer ih =>
      simp only [runFrom] at succeeds ⊢
      cases found : world.lookup expression with
      | error error => rfl
      | ok value =>
          simp only [found] at succeeds
          exact congrArg (Run.called (.lookup expression)) (ih value succeeds)
  | connector request answer ih =>
      exact congrArg (Run.called (.connector request)) (ih _ succeeds)

/-- What a run yields although it can be cancelled, it yields if it cannot be. -/
theorem result_run_none_of_ok {program : Program α} {result : α}
    (succeeds : (program.run world cancelAfter).result = .ok result) :
    (program.run world none).result = .ok result := by
  rw [← runFrom_eq_of_ok succeeds]
  exact succeeds

end Program

end DeployTarget
