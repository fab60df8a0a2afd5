import CollectorService.Integrity

/-!
# What a refused device command leaves behind

`create_device` and `update_device` write the row first and initialise the data points after it. A
failure of the second part is answered with code 500, and the row stays.

* `InitRefused`: the row has been written, and the initialisation has failed.
* `refused_tables`: a request that is answered with code 500 leaves the tables as they were, or as
  the write of its row left them.
-/

namespace CollectorService

open DeviceRepository (named readDevice)
open CommandProcessor (DeviceCategory handleDevice keepStatus namesStatus)
open DataTask (initDataPointsByDevice)

/-- A request that wrote its row, which made `u` of `t`, and whose initialisation of the data points
then failed. -/
inductive InitRefused (models : ModelRepository) (requestText : Str) (t u : Database) :
    DeviceCategory → Prop
  | createDevice {device : DeviceUpsert} {mid : Str} :
    CommandParser.parseDeviceUpsert requestText = .ok device →
    (SQLiteManager.createDevice device).exec t = (.ok (), u) →
    ((initDataPointsByDevice models device.name mid).run u).1.ok = false →
    InitRefused models requestText t u .createDevice
  | updateDevice {device : DeviceUpsert} {x : ℕ × DeviceRow} {mid : Str} :
    CommandParser.parseDeviceUpsert requestText = .ok device →
    named (SQLiteManager.targetName device) t = some x →
    (readDevice x).model ≠ device.model ∨ (readDevice x).modelVersion ≠ device.modelVersion →
    (SQLiteManager.updateDevice (keepStatus device (namesStatus requestText) (readDevice x))).exec t =
      (.ok (), u) →
    ((initDataPointsByDevice models device.name mid).run u).1.ok = false →
    InitRefused models requestText t u .updateDevice

section Refusal
variable {models : ModelRepository} {requestText mid : Str} {t t₁ : Database}
  {device : DeviceUpsert}

/-- With integrity, an update that throws has changed nothing. -/
theorem Integrity.updateDevice_error (h : Integrity t) {e : Str}
    (hrun : (SQLiteManager.updateDevice device).exec t = (.error e, t₁)) : t₁ = t := by
  have hout := SQLiteManager.updateOutcome_exec device t
  rw [hrun] at hout
  cases hout with
  | refused => rfl
  | renameFailed hname hnew hupdate hrename =>
    obtain ⟨t₂, hok⟩ := h.renameEffect_ok (SQLiteManager.targetName device) hnew
      (SQLiteManager.updateEffect_dataPoint hupdate)
    rw [hrename] at hok
    cases hok

/-- The answer after a row has been written is a refusal exactly when the initialisation failed. -/
theorem afterInit_code {done : Str} {deviceName : Str}
    (h : (CommandProcessor.afterInit done mid
      ((initDataPointsByDevice models deviceName mid).run t).1).code = 500) :
    ((initDataPointsByDevice models deviceName mid).run t).1.ok = false := by
  unfold CommandProcessor.afterInit at h
  split at h
  · cases h
  · next hok => simpa using hok

theorem createDevice_refused (hparse : CommandParser.parseDeviceUpsert requestText = .ok device)
    {r : Except Str CommandResult}
    (hrun : (CommandProcessor.createDevice models device mid).run t = (r, t₁))
    (hcode : ∀ result, r = .ok result → result.code = 500) :
    t₁ = t ∨ InitRefused models requestText t t₁ .createDevice := by
  rw [CommandProcessor.createDevice_run] at hrun
  split at hrun
  · exact .inl (congrArg Prod.snd hrun).symm
  split at hrun
  · exact .inl (congrArg Prod.snd hrun).symm
  cases hx : named device.name t with
  | some x =>
    simp only [hx] at hrun
    exact .inl (congrArg Prod.snd hrun).symm
  | none =>
    simp only [hx] at hrun
    cases heff : DeviceRepository.createEffect device t with
    | error e =>
      simp only [heff] at hrun
      exact .inl (congrArg Prod.snd hrun).symm
    | ok u =>
      simp only [heff, Prod.mk.injEq] at hrun
      obtain ⟨hr, htables⟩ := hrun
      have hfail := afterInit_code (hcode _ hr.symm)
      have hwrite : (SQLiteManager.createDevice device).exec t = (.ok (), u) := by
        rw [SQLiteManager.exec_createDevice, hx]
        simp only [heff]
      rw [DataTask.initDataPointsByDevice_failed hfail] at htables
      subst htables
      exact .inr (.createDevice hparse hwrite hfail)

theorem deleteDevice_refused {deviceName : Str} {r : Except Str CommandResult}
    (hrun : (CommandProcessor.deleteDevice deviceName mid).run t = (r, t₁))
    (hcode : ∀ result, r = .ok result → result.code = 500) : t₁ = t := by
  rw [CommandProcessor.deleteDevice_run] at hrun
  cases hx : named deviceName t with
  | none =>
    simp only [hx] at hrun
    exact (congrArg Prod.snd hrun).symm
  | some x =>
    simp only [hx, Prod.mk.injEq] at hrun
    cases hcode _ hrun.1.symm

theorem updateDevice_refused (h : Integrity t)
    (hparse : CommandParser.parseDeviceUpsert requestText = .ok device)
    {r : Except Str CommandResult}
    (hrun : (CommandProcessor.updateDevice models device (namesStatus requestText) mid).run t =
      (r, t₁))
    (hcode : ∀ result, r = .ok result → result.code = 500) :
    t₁ = t ∨ InitRefused models requestText t t₁ .updateDevice := by
  rw [CommandProcessor.updateDevice_run] at hrun
  split at hrun
  · exact .inl (congrArg Prod.snd hrun).symm
  split at hrun
  · exact .inl (congrArg Prod.snd hrun).symm
  cases hx : named (SQLiteManager.targetName device) t with
  | none =>
    simp only [hx] at hrun
    exact .inl (congrArg Prod.snd hrun).symm
  | some x =>
    simp only [hx] at hrun
    rcases hwrite : (SQLiteManager.updateDevice
      (keepStatus device (namesStatus requestText) (readDevice x))).exec t with ⟨e | _, u⟩
    · simp only [hwrite, Prod.mk.injEq] at hrun
      rw [← hrun.2]
      exact .inl (h.updateDevice_error hwrite)
    · simp only [hwrite] at hrun
      split at hrun
      · next hmodel =>
        simp only [Prod.mk.injEq] at hrun
        obtain ⟨hr, htables⟩ := hrun
        have hfail := afterInit_code (hcode _ hr.symm)
        rw [DataTask.initDataPointsByDevice_failed hfail] at htables
        subst htables
        exact .inr (.updateDevice hparse hx hmodel hwrite hfail)
      · simp only [Prod.mk.injEq] at hrun
        cases hcode _ hrun.1.symm

/-- What the `catch` of `handle` does to an answer. -/
theorem tryCatch_code {p : Command CommandResult}
    (h : ((p.tryCatch (CommandProcessor.errorResult mid)).run t).1.code = 500) :
    ((p.tryCatch (CommandProcessor.errorResult mid)).run t).2 = (p.run t).2 ∧
      ∀ result, (p.run t).1 = .ok result → result.code = 500 := by
  rw [Command.run_tryCatch] at h ⊢
  rcases hp : p.run t with ⟨e | result, u⟩
  · exact ⟨rfl, fun _ hr => by cases hr⟩
  · rw [hp] at h
    refine ⟨rfl, fun _ hr => ?_⟩
    cases hr
    exact h

end Refusal

/-- In every reachable state, a device command that is answered with code 500 has changed no table,
or it has written its row and nothing else, and the initialisation of the data points has failed. -/
theorem refused_tables (events : List Event) (models : ModelRepository) (category : DeviceCategory)
    (requestText : Str)
    (hcode : ((handleDevice models category requestText).run (runEvents .empty events)).1.code =
      500) :
    ((handleDevice models category requestText).run (runEvents .empty events)).2 =
        runEvents .empty events ∨
      InitRefused models requestText (runEvents .empty events)
        ((handleDevice models category requestText).run (runEvents .empty events)).2 category := by
  have hintegrity := runEvents_integrity integrity_empty events
  generalize runEvents .empty events = t at hcode hintegrity ⊢
  obtain ⟨htables, hresult⟩ := tryCatch_code hcode
  rw [show ((handleDevice models category requestText).run t).2 = _ from htables]
  cases category with
  | deleteDevice => exact .inl (deleteDevice_refused rfl hresult)
  | createDevice =>
    cases hparse : CommandParser.parseDeviceUpsert requestText with
    | error e => simp [CommandProcessor.handleCreateDevice, hparse, Command.run_bind]
    | ok device =>
      have hrun : ∀ mid, (CommandProcessor.handleCreateDevice models requestText mid).run t =
          (CommandProcessor.createDevice models device mid).run t := fun mid => by
        rw [CommandProcessor.handleCreateDevice, hparse]
        rfl
      simp only [hrun] at hresult ⊢
      exact createDevice_refused hparse rfl hresult
  | updateDevice =>
    cases hparse : CommandParser.parseDeviceUpsert requestText with
    | error e => simp [CommandProcessor.handleUpdateDevice, hparse, Command.run_bind]
    | ok device =>
      have hrun : ∀ mid, (CommandProcessor.handleUpdateDevice models requestText mid).run t =
          (CommandProcessor.updateDevice models device (namesStatus requestText) mid).run t :=
        fun mid => by
          rw [CommandProcessor.handleUpdateDevice, hparse]
          rfl
      simp only [hrun] at hresult ⊢
      exact updateDevice_refused hintegrity hparse rfl hresult

/-- Creating a device of a model that no file defines is refused, and the row stays. -/
theorem createDevice_unknownModel :
    ((handleDevice noModels .createDevice createText).run .empty).1.code = 500 ∧
      ((handleDevice noModels .createDevice createText).run .empty).2.device.rows ≠
        Database.empty.device.rows := by
  decide +kernel

theorem refused_tables_unknownModel :
    ((handleDevice noModels .createDevice createText).run .empty).1.code = 500 ∧
      (((handleDevice noModels .createDevice createText).run .empty).2 = .empty ∨
        InitRefused noModels createText .empty
          ((handleDevice noModels .createDevice createText).run .empty).2 .createDevice) :=
  have hcode : ((handleDevice noModels .createDevice createText).run .empty).1.code = 500 := by
    decide +kernel
  ⟨hcode, refused_tables [] noModels .createDevice createText hcode⟩

end CollectorService
