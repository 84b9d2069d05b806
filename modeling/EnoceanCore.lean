import EnoceanCore.Lib.Traced
import EnoceanCore.Lib.Run
import EnoceanCore.Lib.FirstCome
import EnoceanCore.Lib.SlotTable
import EnoceanCore.Lib.BoundedMap
import EnoceanCore.Lib.Records
import EnoceanCore.Lib.LittleEndian
import EnoceanCore.Lib.Memory
import EnoceanCore.Lib.Prog
import EnoceanCore.Lib.Handles
import EnoceanCore.Lib.Locking
import EnoceanCore.Lib.Threads
import EnoceanCore.Lib.Fifo
import EnoceanCore.Lib.Framing
import EnoceanCore.Lib.Text
import EnoceanCore.Enocean.Types
import EnoceanCore.Enocean.Advertisement
import EnoceanCore.Enocean.Table
import EnoceanCore.Enocean.Commissioning
import EnoceanCore.Enocean.Authentication
import EnoceanCore.Enocean.Switch
import EnoceanCore.Enocean.Sensor
import EnoceanCore.Enocean.Driver
import EnoceanCore.Enocean.Invariant
import EnoceanCore.Enocean.Bounds
import EnoceanCore.Enocean.Gate
import EnoceanCore.Enocean.Entry
import EnoceanCore.Enocean.Replay
import EnoceanCore.Enocean.Isolation
import EnoceanCore.Enocean.Recommissioning
import EnoceanCore.Enocean.Atomicity
import EnoceanCore.Enocean.Telegram
import EnoceanCore.Enocean.Admission
import EnoceanCore.Enocean.KeyLayout
import EnoceanCore.Enocean.AdStructures
import EnoceanCore.Enocean.SensorFields
import EnoceanCore.Enocean.SensorReport
import EnoceanCore.Enocean.SensorValues
import EnoceanCore.Enocean.Registry
import EnoceanCore.Enocean.FirstCome
import EnoceanCore.Enocean.Echoes
import EnoceanCore.Enocean.Reception
import EnoceanCore.Enocean.Channel
import EnoceanCore.Enocean.Payloads
import EnoceanCore.Crypto.Interface
import EnoceanCore.Crypto.Posix
import EnoceanCore.Crypto.Zephyr
import EnoceanCore.Crypto.Agreement
import EnoceanCore.Crypto.OutputBuffer
import EnoceanCore.PlatformCore.Thread
import EnoceanCore.PlatformCore.Kernel
import EnoceanCore.PlatformCore.ThreadLife
import EnoceanCore.PlatformCore.ZephyrThread
import EnoceanCore.PlatformCore.Semaphore
import EnoceanCore.PlatformCore.SemaphoreLimit
import EnoceanCore.PlatformCore.Mutex
import EnoceanCore.PlatformCore.MutexLocker
import EnoceanCore.PlatformCore.MutexInit
import EnoceanCore.PlatformCore.MessageQueue
import EnoceanCore.PlatformCore.Deadline
import EnoceanCore.PlatformCore.QueueFifo
import EnoceanCore.PlatformCore.QueueReinit
import EnoceanCore.PlatformCore.QueueNames
import EnoceanCore.PlatformCore.Waits
import EnoceanCore.PlatformCore.TimedQueue
import EnoceanCore.PlatformCore.Expiry
import EnoceanCore.Ble.Scanner
import EnoceanCore.Ble.Restart
import EnoceanCore.Ble.Sockets
import EnoceanCore.Ble.Reports
import EnoceanCore.Ble.ScanLoop
import EnoceanCore.Ble.ScanThread
import EnoceanCore.Ble.OneScanLoop
import EnoceanCore.Ble.StopScan
import EnoceanCore.Ble.ZephyrScanner
import EnoceanCore.Logging.Logger
import EnoceanCore.ErrorHandler.Handler
import EnoceanCore.ErrorHandler.Pipeline
import EnoceanCore.Boards.Gpio
import EnoceanCore.Boards.Led
import EnoceanCore.Application.Broadcasts
import EnoceanCore.Application.PosixReception
import EnoceanCore.Application.Containment
import EnoceanCore.Application.ZephyrReception
import EnoceanCore.Application.AppEntry
import EnoceanCore.Application.Messages
import EnoceanCore.Application.ZephyrMain
