import DebugMcp.Lib.Pool
import DebugMcp.Lib.Framing
import DebugMcp.Dap.Framing
import DebugMcp.Core
import DebugMcp.Json
import DebugMcp.Session.Manager
import DebugMcp.Tools.Errors
import DebugMcp.Tools.Server
import DebugMcp.Tools.Calls
import DebugMcp.Tools.ResumeRace
import DebugMcp.Tools.Teardown
import DebugMcp.Tools.ConnectExclusion
import DebugMcp.Tools.DisconnectWins
import DebugMcp.Tools.BreakpointTable
import DebugMcp.Dap.Client
import DebugMcp.Dap.Correlation
import DebugMcp.Tools.StateWrites
import DebugMcp.Tools.Termination
import DebugMcp.Tools.EpochIsolation
import DebugMcp.Lldb.Backend
import DebugMcp.Lldb.Plan
import DebugMcp.Lldb.EndOfStream
import DebugMcp.Lldb.Refusal
import DebugMcp.Lldb.LaunchHandshake
import DebugMcp.Lldb.AttachHandshake
import DebugMcp.WinDbg.ReplaceAll
import DebugMcp.WinDbg.StepWait
import DebugMcp.WinDbg.StopReport
import DebugMcp.WinDbg.Conditions
import DebugMcp.Lib.Walk
import DebugMcp.Tools.Flatten
import DebugMcp.Tools.Removal
import DebugMcp.Tools.FailedLaunch
import DebugMcp.Tools.OutputOnce
import DebugMcp.Tools.DumpFlag
import DebugMcp.Tools.AdapterProcess
import DebugMcp.Lib.Fallible
import DebugMcp.WinDbg.EngineBps
import DebugMcp.Lib.CommandLine
import DebugMcp.WinDbg.LaunchLine
import DebugMcp.Lldb.StopWaiter
import DebugMcp.Lldb.Sinks
import DebugMcp.Lldb.EventStream
import DebugMcp.WinDbg.EventStream
import DebugMcp.Lib.Newest
import DebugMcp.Session.NewestOutput
import DebugMcp.Lib.Hex
import DebugMcp.Tools.HexDump
import DebugMcp.Tools.ReadMemory
import DebugMcp.Dap.Grammar
import DebugMcp.Tools.ErrorShapes
import DebugMcp.Tools.Inspection
import DebugMcp.Tools.Frames
import DebugMcp.WinDbg.EngineThread
import DebugMcp.WinDbg.Interrupts
import DebugMcp.WinDbg.Attention
import DebugMcp.WinDbg.InterruptRuns
import DebugMcp.Lldb.StderrBuffer
import DebugMcp.Lib.SelfSync
import DebugMcp.WinDbg.Report
import DebugMcp.Lib.Turns
import DebugMcp.Lldb.Resolution
import DebugMcp.Tools.Backed
import DebugMcp.Tools.LldbServer
import DebugMcp.Tools.Flight
import DebugMcp.Tools.ResumeTurns
import DebugMcp.Tools.Outstanding
import DebugMcp.Tools.ResumeExclusion
import DebugMcp.WinDbg.Effects
import DebugMcp.Tools.WinServer
import DebugMcp.Tools.WinStops
import DebugMcp.Tools.WinFailure
import DebugMcp.Tools.LldbFailure
import DebugMcp.Tools.FailedResume
import DebugMcp.Lib.Path
import DebugMcp.Lib.Rpc
import DebugMcp.WinDbg.Inspect
import DebugMcp.WinDbg.Marshal
import DebugMcp.WinDbg.Sessions
import DebugMcp.WinDbg.Snapshots
import DebugMcp.Tools.Disassemble
import DebugMcp.Lib.RpcAlone
import DebugMcp.Lib.Base64
import DebugMcp.Lib.Document
import DebugMcp.Lldb.Bodies
import DebugMcp.Lldb.Inspect
import DebugMcp.WinDbg.Setters
import DebugMcp.Tools.OutputPath
import DebugMcp.Tools.Requested
import DebugMcp.Tools.EngineTable
import DebugMcp.Tools.EngineRuns
