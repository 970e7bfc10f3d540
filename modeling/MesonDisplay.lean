import MesonDisplay.Ipc.Client
import MesonDisplay.Ipc.ConnectionTable
import MesonDisplay.Ipc.ReadOutcome
import MesonDisplay.Helper.OutputEffect
import MesonDisplay.Helper.MessageReturns
import MesonDisplay.Helper.Shutdown
import MesonDisplay.Helper.PendingKept
import MesonDisplay.Helper.UiViewport
import MesonDisplay.Helper.ModeAccepted
import MesonDisplay.Helper.KnownProps
import MesonDisplay.Ipc.SocketSend
import MesonDisplay.Client.Queries
import MesonDisplay.Client.Replies
import MesonDisplay.Client.Pairing
import MesonDisplay.Helper.Drain
import MesonDisplay.Surface.Mapping
import MesonDisplay.Settings.Descriptors
import MesonDisplay.Settings.AtomicSetters
import MesonDisplay.Settings.AutoMode
import MesonDisplay.Surface.Pitch
import MesonDisplay.Surface.CleanRect
import MesonDisplay.Surface.Resize
import MesonDisplay.Surface.Construction
import MesonDisplay.Westeros.Setters
import MesonDisplay.Westeros.Getters
import MesonDisplay.Samples.FrameLoop
import MesonDisplay.Samples.FirstFree
import MesonDisplay.Samples.CaptureQueue
import MesonDisplay.Samples.ExplicitSync
import MesonDisplay.Lib.Serial
import MesonDisplay.Uvm.Singleton
import MesonDisplay.Uvm.UvmDev
import MesonDisplay.Lib.Ledger
import MesonDisplay.Drm.Resources
import MesonDisplay.Drm.SetCrtc
import MesonDisplay.Drm.SetCrtcRun
import MesonDisplay.Drm.ScanLedger
import MesonDisplay.Ipc.ServerRounds
import MesonDisplay.Ipc.SocketNames
import MesonDisplay.Surface.Lifetime
import MesonDisplay.Client.ModeCells
import MesonDisplay.Helper.Shown
import MesonDisplay.Client.CommandLine
import MesonDisplay.Helper.MessageFrame
import MesonDisplay.Helper.SwitchHistory
import MesonDisplay.Client.GivenSettings
import MesonDisplay.Surface.Tearing
import MesonDisplay.Helper.PendingHistory
