import CollectorService.Text
import Mathlib.Data.Rat.Defs
import Mathlib.Algebra.Order.Ring.Rat
import Mathlib.Order.WithBot

/-!
# Records of the service

The plain data that the layers of the service pass around, with the defaults that their
declarations give.
-/

namespace CollectorService

/-- A `double`: a number or an infinity, or not a number. Zero has no sign here. -/
inductive Double where
  | number (x : WithBot (WithTop ℚ))
  | nan
  deriving DecidableEq

/-- The `double` of a rational number. -/
def Double.ofRat (q : ℚ) : Double := .number ((q : WithTop ℚ) : WithBot (WithTop ℚ))

instance : Inhabited Double := ⟨Double.ofRat 0⟩

structure Device where
  id : ℤ := 0
  name : Str := []
  ip : Str := []
  port : ℤ := 0
  sampleIntervalMs : ℤ := 0
  status : ℤ := 1
  model : Str := []
  modelVersion : Str := []
  driverPath : Str := []
  deriving DecidableEq

structure DataPoint where
  id : ℤ := 0
  deviceId : ℤ := 0
  deviceName : Str := []
  namePath : Str := []
  itemPath : Str := []
  itemName : Str := []
  itemDescription : Str := []
  deriving DecidableEq

structure ResourceRecord where
  deviceName : Str := []
  dataItemNamePath : Str := []
  data : Str := []
  devTime : Double := default
  svrTime : Double := default
  dataItemPath : Str := []
  dataItemName : Str := []
  dataItemDescription : Str := []
  deriving DecidableEq

structure DeviceStatus where
  deviceName : Str := []
  connected : Bool := false
  machineConnected : Bool := false
  failCount : ℤ := 0
  lastSuccessTime : Double := default
  error : Str := []
  deriving DecidableEq

/-- A device as a command describes it; `oldName` is empty unless the command renames. -/
structure DeviceUpsert where
  oldName : Str := []
  name : Str := []
  ip : Str := []
  port : ℤ := 0
  sampleIntervalMs : ℤ := 0
  status : ℤ := 1
  model : Str := []
  modelVersion : Str := []
  driverPath : Str := []
  deriving DecidableEq

structure CommandResult where
  code : ℤ := 200
  msg : Str := []
  mid : Str := []
  deriving DecidableEq

/-- `CommandResult::ok`. -/
def CommandResult.ok (result : CommandResult) : Bool := result.code = 200

end CollectorService
