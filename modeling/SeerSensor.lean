import SeerSensor.Lib.Belt
import SeerSensor.Lib.Best
import SeerSensor.Lib.Carry
import SeerSensor.Lib.FlatJson
import SeerSensor.Lib.Hash
import SeerSensor.Lib.JsonLine
import SeerSensor.Lib.Level
import SeerSensor.Lib.LineLog
import SeerSensor.Lib.Oldest
import SeerSensor.Lib.Padded
import SeerSensor.Lib.Prompt
import SeerSensor.Lib.PyStr
import SeerSensor.Lib.PyValue
import SeerSensor.Lib.Raise
import SeerSensor.Lib.Refine
import SeerSensor.Lib.Runs
import SeerSensor.Lib.SetE
import SeerSensor.Lib.Shell
import SeerSensor.Lib.ShellWords
import SeerSensor.Files
import SeerSensor.FilesFacts
import SeerSensor.Mounts
import SeerSensor.Transfer
import SeerSensor.TransferFacts
import SeerSensor.MoveOldest
import SeerSensor.MoveOldestFacts
import SeerSensor.Clobber
import SeerSensor.RingOrder
import SeerSensor.RingBound
import SeerSensor.RingWait
import SeerSensor.ExportBatch
import SeerSensor.ExportBatchFacts
import SeerSensor.MainLoop
import SeerSensor.Manifest
import SeerSensor.Pipeline
import SeerSensor.Survival
import SeerSensor.Receipts
import SeerSensor.ActiveGuard
import SeerSensor.Lock
import SeerSensor.LoopFaults
import SeerSensor.MoverFaults
import SeerSensor.Zeek
import SeerSensor.ExportSpec
import SeerSensor.FailedTransfer
import SeerSensor.LockRecovery
import SeerSensor.Published
import SeerSensor.StateReads
import SeerSensor.TransferLog
import SeerSensor.ConsoleDrive
import SeerSensor.ToggleMount
import SeerSensor.Wizard
import SeerSensor.Backups
import SeerSensor.RingCount
import SeerSensor.Terminal
import SeerSensor.Uninstall
import SeerSensor.Conveyor
import SeerSensor.Retry
import SeerSensor.Staging
import SeerSensor.Counter
import SeerSensor.LogText
import SeerSensor.ManifestText
import SeerSensor.ZeekPidfile
import SeerSensor.InstallCheck
import SeerSensor.InstallVerdict
import SeerSensor.MoverLog
import SeerSensor.NoDrive
import SeerSensor.CaptureNames
import SeerSensor.ConsoleCommands
import SeerSensor.UninstallFiles
import SeerSensor.InstallRun
import SeerSensor.Settings
import SeerSensor.CaptureRing
import SeerSensor.WaitLink
