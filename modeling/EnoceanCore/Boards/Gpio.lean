import EnoceanCore.PlatformCore.Kernel

/-!
# GPIO drivers

`IGpio` and `GpioDriver` of both boards, for one pin. The POSIX driver only logs; its device is
the list of its log lines. The Zephyr driver calls the GPIO functions of the kernel on a device of
type `δ`.

Reading a pin and `deinit` are left out, nothing in the program calls them.
-/

namespace EnoceanCore.Boards

open PlatformCore

inductive GpioMode where
  | input
  | output
  | analog
  | inputPullup
  | inputPulldown
  | outputPullup
  | outputPulldown
  | altFunction
  deriving DecidableEq, Repr

def GpioMode.toUnderlying : GpioMode → Nat
  | input => 0
  | output => 1
  | analog => 2
  | inputPullup => 3
  | inputPulldown => 4
  | outputPullup => 5
  | outputPulldown => 6
  | altFunction => 7

inductive DigitalState where
  | low
  | high
  deriving DecidableEq, Repr

def DigitalState.toUnderlying : DigitalState → Nat
  | low => 0
  | high => 1

inductive GpioError where
  | invalidParameter
  | invalidPin
  | invalidMode
  | ioError
  | deviceNotAvailable
  | insufficientMemory
  | timeout
  | pinInUse
  | permissionDenied
  | busy
  | notSupported
  | hardwareFault
  | unknown
  deriving DecidableEq, Repr

/-- A driver and a pin, on a device of type `δ`. -/
structure GpioDriver (δ : Type) where
  setMode : GpioMode → δ → Except GpioError Unit × δ
  write : DigitalState → δ → δ

/-! ## POSIX -/

namespace Posix

structure Pin where
  port : UInt32
  pin : UInt32
  deriving DecidableEq, Repr

/-- The number as `%d` prints it. -/
def Pin.text (pin : Pin) : String := toString pin.pin.toInt32.toInt

def gpioDriver (pin : Pin) : GpioDriver (List String) where
  setMode mode lines :=
    (.ok (), lines ++
      ["Setting POSIX pin " ++ pin.text ++ " mode to " ++ toString mode.toUnderlying])
  write state lines :=
    lines ++ ["Writing " ++ toString state.toUnderlying ++ " to POSIX pin " ++ pin.text]

end Posix

/-! ## Zephyr -/

namespace Zephyr

/-- The GPIO functions of the kernel for one `gpio_dt_spec`. They answer an error number. -/
structure GpioPort (δ : Type) where
  isReady : δ → Bool
  configure : UInt32 → δ → Int × δ
  set : Int → δ → Int × δ

abbrev EIO : Int := 5
abbrev ENODEV : Int := 19
abbrev ENOTSUP : Int := 134

abbrev GPIO_PULL_UP : UInt32 := 0x10
abbrev GPIO_PULL_DOWN : UInt32 := 0x20
abbrev GPIO_INPUT : UInt32 := 0x10000
abbrev GPIO_OUTPUT : UInt32 := 0x20000

def errnoToGpioError (errorCode : Int) : GpioError :=
  if -errorCode = PlatformCore.Zephyr.EINVAL then .invalidParameter
  else if -errorCode = ENODEV then .deviceNotAvailable
  else if -errorCode = EIO then .ioError
  else if -errorCode = PlatformCore.Zephyr.EBUSY then .busy
  else if -errorCode = ENOTSUP then .notSupported
  else .unknown

/-- The flags of a mode, for the modes the driver knows. -/
def flagsOf : GpioMode → Option UInt32
  | .input => some GPIO_INPUT
  | .output => some GPIO_OUTPUT
  | .inputPullup => some (GPIO_INPUT ||| GPIO_PULL_UP)
  | .inputPulldown => some (GPIO_INPUT ||| GPIO_PULL_DOWN)
  | .outputPullup => some (GPIO_OUTPUT ||| GPIO_PULL_UP)
  | .outputPulldown => some (GPIO_OUTPUT ||| GPIO_PULL_DOWN)
  | .analog => none
  | .altFunction => none

variable {δ : Type}

def doSetMode (port : GpioPort δ) (mode : GpioMode) (device : δ) : Except GpioError Unit × δ :=
  if !port.isReady device then (.error .deviceNotAvailable, device)
  else
    match flagsOf mode with
    | none => (.error .invalidMode, device)
    | some flags =>
      match port.configure flags device with
      | (ret, device) =>
        if ret < 0 then (.error (errnoToGpioError ret), device) else (.ok (), device)

/-- The result of setting the pin is ignored. -/
def doWrite (port : GpioPort δ) (state : DigitalState) (device : δ) : δ :=
  if !port.isReady device then device
  else (port.set (if state = .high then 1 else 0) device).2

def gpioDriver (port : GpioPort δ) : GpioDriver δ where
  setMode := doSetMode port
  write := doWrite port

end Zephyr

end EnoceanCore.Boards
