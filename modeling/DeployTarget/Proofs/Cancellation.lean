import DeployTarget.Proofs.Run
import DeployTarget.Resolution

/-!
# Cancelled runs

Every call that resolving a definition makes stands behind a checkpoint of its own.
A run that is cancelled after a number of calls is therefore a prefix of the run that
is not cancelled: it makes the calls that were due until then, and it ends either as
the full run does or by being cancelled.
-/

namespace DeployTarget

/-- What a run that is cancelled once a number of calls has begun is to the full run. -/
structure Run.IsCut {α : Type} (limit : Nat) (cut full : Run α) : Prop where
  /-- The calls are the first ones of the full run, and no call follows the cancelling. -/
  calls : cut.calls = full.calls.take limit
  cancelled : limit < full.calls.length → cut.result = .error .cancelled
  finished : full.calls.length < limit → cut.result = full.result
  /-- A run that has made all of its calls may reach one more checkpoint. -/
  reached : full.calls.length = limit →
    cut.result = full.result ∨ cut.result = .error .cancelled

namespace Program

variable {α β : Type} {world : World}

/-- Every call of a program stands behind a checkpoint of its own.  A program that is
armed has passed a checkpoint since the last call. -/
def Guarded : Bool → Program α → Prop
  | _, .done _ => True
  | _, .fail _ => True
  | armed, .log _ rest => rest.Guarded armed
  | _, .checkpoint rest => rest.Guarded true
  | armed, .lookup _ next => armed = true ∧ ∀ answer, (next answer).Guarded false
  | armed, .connector _ next => armed = true ∧ ∀ answer, (next answer).Guarded false

/-! ## Guarded programs one after the other -/

theorem Guarded.arm {program : Program α} (guarded : program.Guarded false) (armed : Bool) :
    program.Guarded armed := by
  induction program with
  | done value => trivial
  | fail error => trivial
  | log event rest ih => exact ih guarded
  | checkpoint rest ih => exact guarded
  | lookup expression next ih => cases guarded.1
  | connector request next ih => cases guarded.1

theorem Guarded.bind {program : Program α} {next : α → Program β} {armed : Bool}
    (guarded : program.Guarded armed) (guardedNext : ∀ value, (next value).Guarded false) :
    (program >>= next).Guarded armed := by
  change (program.bind next).Guarded armed
  induction program generalizing armed with
  | done value => exact (guardedNext value).arm armed
  | fail error => trivial
  | log event rest ih => exact ih guarded
  | checkpoint rest ih => exact ih guarded
  | lookup expression answer ih => exact ⟨guarded.1, fun value => ih value (guarded.2 value)⟩
  | connector request answer ih => exact ⟨guarded.1, fun value => ih value (guarded.2 value)⟩

theorem Guarded.map {program : Program α} {armed : Bool} (guarded : program.Guarded armed)
    (change : α → β) : (change <$> program).Guarded armed :=
  guarded.bind fun _ => trivial

/-- A checkpoint arms what stands behind it. -/
theorem guarded_checkpoint {next : Unit → Program α} {armed : Bool}
    (guarded : (next ()).Guarded true) : (stopIfCancelled >>= next).Guarded armed :=
  guarded

theorem guarded_ofExcept (attempt : Except Error α) (armed : Bool) :
    (ofExcept attempt).Guarded armed := by
  cases attempt <;> trivial

/-! ## Cutting a run -/

/-- A call that begins uncancelled shortens by one what is left until the cancelling. -/
private theorem take_call {limit begun : Nat} (uncancelled : begun < limit) (call : Call)
    (calls : List Call) :
    (call :: calls).take (limit - begun) = call :: calls.take (limit - (begun + 1)) := by
  obtain ⟨left, rfl⟩ := Nat.exists_eq_add_of_lt uncancelled
  rw [show begun + left + 1 - begun = left + 1 by omega,
    show begun + left + 1 - (begun + 1) = left by omega, List.take_succ_cons]

/-- The calls of a guarded program until the run is cancelled.  The program is armed
only if the run has not been cancelled yet. -/
private theorem calls_runFrom_some {program : Program α} {armed : Bool} {limit begun : Nat}
    (guarded : program.Guarded armed) (uncancelled : armed = true → begun < limit) :
    (program.runFrom world (some limit) begun).calls =
      (program.runFrom world none begun).calls.take (limit - begun) := by
  induction program generalizing armed begun with
  | done value => exact List.take_nil.symm
  | fail error => exact List.take_nil.symm
  | log event rest ih => exact ih guarded uncancelled
  | checkpoint rest ih =>
      by_cases reached : limit ≤ begun
      · simp [runFrom, isCancelled, reached, Nat.sub_eq_zero_of_le reached]
      · simpa [runFrom, isCancelled, reached] using ih guarded fun _ => by omega
  | lookup expression next ih =>
      have before := uncancelled guarded.1
      simp only [runFrom]
      cases world.lookup expression with
      | error error => simp only [take_call before, List.take_nil]
      | ok value =>
          simp only [Run.called, take_call before]
          rw [ih value (guarded.2 value) (fun armed => by cases armed)]
  | connector request next ih =>
      have before := uncancelled guarded.1
      simp only [runFrom, Run.called, take_call before]
      rw [ih _ (guarded.2 _) (fun armed => by cases armed)]

/-- A guarded program with calls left when the run is cancelled does not reach them. -/
private theorem result_runFrom_of_lt {program : Program α} {armed : Bool} {limit begun : Nat}
    (guarded : program.Guarded armed) (uncancelled : armed = true → begun < limit)
    (within : begun ≤ limit)
    (left : limit < begun + (program.runFrom world none begun).calls.length) :
    (program.runFrom world (some limit) begun).result = .error .cancelled := by
  induction program generalizing armed begun with
  | done value => simp only [runFrom, List.length_nil] at left; omega
  | fail error => simp only [runFrom, List.length_nil] at left; omega
  | log event rest ih => exact ih guarded uncancelled within left
  | checkpoint rest ih =>
      by_cases reached : limit ≤ begun
      · simp [runFrom, isCancelled, reached]
      · simp only [runFrom, isCancelled, Option.any_none, Bool.false_eq_true, if_false] at left
        simpa [runFrom, isCancelled, reached] using
          ih guarded (fun _ => by omega) within left
  | lookup expression next ih =>
      have before := uncancelled guarded.1
      simp only [runFrom] at left ⊢
      cases looked : world.lookup expression with
      | error error => simp only [looked, List.length_singleton] at left; omega
      | ok value =>
          simp only [looked, Run.length_calls_called] at left
          exact ih value (guarded.2 value) (fun armed => by cases armed) before (by omega)
  | connector request next ih =>
      have before := uncancelled guarded.1
      simp only [runFrom, Run.length_calls_called] at left
      exact ih _ (guarded.2 _) (fun armed => by cases armed) before (by omega)

/-- A run that ends before it is cancelled meets no checkpoint that stops it. -/
private theorem result_runFrom_of_gt {program : Program α} {limit begun : Nat}
    (left : begun + (program.runFrom world none begun).calls.length < limit) :
    (program.runFrom world (some limit) begun).result =
      (program.runFrom world none begun).result := by
  induction program generalizing begun with
  | done value => rfl
  | fail error => rfl
  | log event rest ih => exact ih left
  | checkpoint rest ih =>
      have uncancelled : ¬ limit ≤ begun := by omega
      simp only [runFrom, isCancelled, Option.any_none, Bool.false_eq_true, if_false] at left
      simpa [runFrom, isCancelled, uncancelled] using ih left
  | lookup expression next ih =>
      simp only [runFrom] at left ⊢
      cases looked : world.lookup expression with
      | error error => rfl
      | ok value =>
          simp only [looked, Run.length_calls_called] at left
          exact ih value (by omega)
  | connector request next ih =>
      simp only [runFrom, Run.length_calls_called] at left
      exact ih _ (by omega)

/-- Cancelling a guarded program cuts its run to a prefix. -/
theorem Guarded.isCut_run {program : Program α} (guarded : program.Guarded false)
    (limit : Nat) :
    (program.run world (some limit)).IsCut limit (program.run world none) where
  calls := calls_runFrom_some guarded fun armed => by cases armed
  cancelled left :=
    result_runFrom_of_lt guarded (fun armed => by cases armed) (Nat.zero_le limit)
      (by rw [Nat.zero_add]; exact left)
  finished left := result_runFrom_of_gt (by rw [Nat.zero_add]; exact left)
  reached _ := (result_runFrom_some program limit 0).symm

end Program

/-! ## Checkpoints of the resolution -/

open Program

namespace Field

/-- Asking for a field needs the checkpoint of whoever asks. -/
theorem guarded_resolve {α : Type} [FieldValue α] (mode : Mode) (field : Field α) :
    (field.resolve mode).Guarded true := by
  cases field with
  | expression text => exact ⟨rfl, fun answer => guarded_ofExcept _ false⟩
  | literal value => trivial
  | pending => trivial
  | resolved text value => trivial

theorem guarded_plain (field : Option (Field String)) (name : String) :
    (plain field name).Guarded false := by
  cases field with
  | none => trivial
  | some field => exact (guarded_ofExcept _ false).bind fun _ => trivial

theorem guarded_provisioned (dynamic : Bool) (field : Option (Field String)) (name : String)
    (mode : Mode) : (provisioned dynamic field name mode).Guarded false := by
  cases dynamic with
  | false => exact guarded_plain field name
  | true =>
      cases field with
      | none => trivial
      | some field =>
          refine (guarded_ofExcept _ false).bind fun _ => guarded_checkpoint ?_
          exact (guarded_resolve mode field).bind fun _ => trivial

theorem guarded_provisionedText (dynamic : Bool) (field : Option (Field String))
    (name : String) (mode : Mode) :
    (provisionedText dynamic field name mode).Guarded false :=
  (guarded_provisioned dynamic field name mode).bind fun _ => trivial

theorem guarded_provisionedValue {α : Type} [FieldValue α] (dynamic : Bool)
    (field : Option (Field α)) (name : String) (mode : Mode) :
    (provisionedValue dynamic field name mode).Guarded false := by
  cases field with
  | none => trivial
  | some field =>
      refine (guarded_ofExcept _ false).bind fun _ => ?_
      cases dynamic with
      | false => trivial
      | true =>
          refine guarded_checkpoint ?_
          exact (guarded_resolve mode field).bind fun _ => trivial

theorem guarded_releaseName (dynamic : Bool) (service : Option Service)
    (field : Option (Field String)) : (releaseName dynamic service field).Guarded false := by
  unfold releaseName
  split
  · trivial
  · exact guarded_provisionedText dynamic field _ _

end Field

/-- Asking for host objects needs the checkpoint of whoever asks. -/
theorem Program.guarded_hostObjects (expression : String) :
    (hostObjects expression).Guarded true := by
  refine ⟨rfl, fun answer => ?_⟩
  match answer with
  | none => trivial
  | some (.array objects) => trivial
  | some .null | some (.bool _) | some (.number _) | some (.string _) | some (.object _) =>
      trivial

namespace Reading

theorem guarded_read (reading : Reading) (surroundings : Surroundings)
    (definition : Definition) (dynamic : Bool) :
    (reading.read surroundings definition dynamic).Guarded false := by
  obtain ⟨name, manner⟩ := reading
  cases manner with
  | plain => exact (Field.guarded_plain _ _).bind fun _ => trivial
  | plainOrAbsent => exact Field.guarded_plain _ _
  | plainOrBlank => exact (Field.guarded_plain _ _).bind fun _ => trivial
  | provisioned => exact (Field.guarded_provisionedText dynamic _ _ _).map some
  | release => exact (Field.guarded_releaseName dynamic _ _).map some

theorem guarded_readAll (surroundings : Surroundings) (definition : Definition)
    (dynamic : Bool) (readings : List Reading) :
    (readAll surroundings definition dynamic readings).Guarded false := by
  induction readings with
  | nil => trivial
  | cons reading rest ih =>
      exact (reading.guarded_read surroundings definition dynamic).bind fun _ =>
        ih.bind fun _ => trivial

end Reading

namespace Definition

theorem guarded_keepHosts (mapping : Tags) (index : Nat) (objects : List Json) :
    (keepHosts mapping index objects).Guarded false := by
  induction objects generalizing index with
  | nil => trivial
  | cons object rest ih =>
      unfold keepHosts
      split
      · exact (ih (index + 1)).bind fun _ => trivial
      · exact ih (index + 1)

theorem guarded_readHosts (definition : Definition) (attributes : Option (Field Tags)) :
    (definition.readHosts attributes).Guarded false := by
  refine (Field.guarded_plain _ _).bind fun _ => ?_
  refine (Field.guarded_provisionedValue true attributes _ _).bind fun _ => ?_
  refine guarded_checkpoint ((guarded_hostObjects _).bind fun objects => ?_)
  exact guarded_keepHosts _ 0 objects

theorem guarded_readVariables (entries : List Variable) :
    (readVariables entries).Guarded false := by
  induction entries with
  | nil => trivial
  | cons entry rest ih =>
      exact (Field.guarded_plain _ _).bind fun _ => ih.bind fun _ => trivial

theorem guarded_readTarget (definition : Definition) (surroundings : Surroundings)
    (dynamic : Bool) (texts : Texts) :
    (definition.readTarget surroundings dynamic texts).Guarded false := by
  unfold readTarget
  split
  · trivial
  · split
    · exact (guarded_readHosts definition _).bind fun _ => trivial
    · trivial
  · exact (Field.guarded_provisionedValue dynamic _ _ _).bind fun _ =>
      (Reading.guarded_readAll surroundings definition dynamic _).bind fun _ => trivial
  · exact (Field.guarded_provisionedValue dynamic _ _ _).bind fun _ =>
      (Reading.guarded_readAll surroundings definition dynamic _).bind fun _ => trivial
  · exact (guarded_readVariables _).bind fun _ => trivial
  · trivial

theorem guarded_resolveFields (definition : Definition) (surroundings : Surroundings)
    (dynamic : Bool) : (definition.resolveFields surroundings dynamic).Guarded false :=
  (Reading.guarded_readAll surroundings definition dynamic _).bind fun texts =>
    definition.guarded_readTarget surroundings dynamic texts

end Definition

/-- Asking for the name of a connector needs the checkpoint of whoever asks. -/
theorem guarded_connectorName (scope : Scope) (reference : Option (Field String)) :
    (connectorName scope reference).Guarded true := by
  unfold connectorName
  split
  · trivial
  · refine ⟨rfl, fun answer => ?_⟩
    match answer with
    | .ok (some _) | .ok none | .error _ => trivial

namespace Definition

theorem guarded_addConnector (definition : Definition) (surroundings : Surroundings)
    (outcome : Outcome) : (definition.addConnector surroundings outcome).Guarded false := by
  unfold addConnector
  split
  · trivial
  · exact guarded_checkpoint ((guarded_connectorName _ _).bind fun _ => trivial)

theorem guarded_check (definition : Definition) (dynamic : Bool) :
    (definition.check dynamic).Guarded false := by
  refine (guarded_ofExcept _ false).bind fun _ => ?_
  refine Guarded.bind ?_ fun _ => guarded_ofExcept _ false
  unfold logNamespace
  split <;> trivial

theorem guarded_validate (definition : Definition) (environment : Environment) :
    (definition.validate environment).Guarded false := by
  rw [validate_eq]
  exact Guarded.bind trivial fun _ => definition.guarded_check definition.isDynamic

theorem guarded_resolve (definition : Definition) (surroundings : Surroundings) :
    (definition.resolve surroundings).Guarded false := by
  rw [resolve_eq]
  refine Guarded.bind (definition.guarded_validate surroundings.environment) fun _ => ?_
  -- The event between the checks and the reads neither arms nor disarms.
  refine Guarded.bind trivial fun _ => ?_
  refine Guarded.bind (definition.guarded_resolveFields surroundings _) fun outcome => ?_
  exact (guarded_addConnector definition surroundings outcome).bind fun _ => trivial

/-- Cancelling cuts the resolution of a definition to a prefix: no call begins once the
run has been cancelled, and the result is that of the full run or the cancelling. -/
theorem isCut_resolve (definition : Definition) (surroundings : Surroundings) (world : World)
    (limit : Nat) :
    ((definition.resolve surroundings).run world (some limit)).IsCut limit
      ((definition.resolve surroundings).run world none) :=
  (definition.guarded_resolve surroundings).isCut_run limit

end Definition

end DeployTarget
