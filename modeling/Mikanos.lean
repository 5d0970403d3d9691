import Mikanos.Lib.BitField
import Mikanos.Lib.CycleRing
import Mikanos.Usb.Memory
import Mikanos.Xhci.Ring
import Mikanos.Xhci.RingFifo
import Mikanos.Xhci.EventRing
import Mikanos.Xhci.EventRingFifo
import Mikanos.Usb.ArrayMap
import Mikanos.Usb.Types
import Mikanos.Xhci.Context
import Mikanos.Xhci.Device
import Mikanos.Usb.ClassDriver
import Mikanos.Usb.Descriptor
import Mikanos.Usb.Device
import Mikanos.Usb.ConfigurationParsing
import Mikanos.Xhci.ControlTransfers
import Mikanos.Usb.DeviceFrame
import Mikanos.Xhci.Controller
import Mikanos.Xhci.ControllerSteps
import Mikanos.Lib.Turnstile
import Mikanos.Xhci.PortAddressing
import Mikanos.Xhci.Initialize
import Mikanos.Xhci.HandOver
import Mikanos.Xhci.ContextArray
import Mikanos.Xhci.Commands
import Mikanos.Xhci.CommandSystem
import Mikanos.Xhci.FailedCommands
import Mikanos.Xhci.Enumeration
import Mikanos.Lib.Cursor
import Mikanos.Usb.DescriptorSafety
import Mikanos.Xhci.DeviceRuns
import Mikanos.Xhci.EndpointTable
import Mikanos.Xhci.EndpointSlots
import Mikanos.Lib.BoundedTable
import Mikanos.Lib.RootedTree
import Mikanos.Pci.Config
import Mikanos.Pci.Scan
import Mikanos.Pci.HostBridges
import Mikanos.Graphics.Font
import Mikanos.Lib.TextWindow
import Mikanos.Graphics.Console
import Mikanos.Graphics.ConsoleText
import Mikanos.Graphics.FrameBuffer
import Mikanos.Graphics.Desktop
import Mikanos.Loader.Elf
import Mikanos.Loader.LoadKernel
import Mikanos.Xhci.EventWaiters
import Mikanos.Xhci.FailedTransfers
import Mikanos.Usb.InterruptInput
import Mikanos.Usb.InputRuns
import Mikanos.Usb.HidReports
import Mikanos.Graphics.PointerInput
import Mikanos.Graphics.Logger
import Mikanos.Xhci.InitializationPhases
import Mikanos.Xhci.ReportBuffer
import Mikanos.Xhci.ReportRuns
import Mikanos.Xhci.PoolExhaustion
import Mikanos.Xhci.SwallowedErrors
import Mikanos.Xhci.ScratchpadBuffers
import Mikanos.Usb.FailedAllocations
import Mikanos.Pci.ScanDepth
import Mikanos.Xhci.AddressFields
import Mikanos.Xhci.BiosHandOff
import Mikanos.Xhci.PortRegister
import Mikanos.Xhci.RefusedControl
import Mikanos.Loader.EntryPoint
import Mikanos.Graphics.FontCompiler
import Mikanos.Graphics.CompiledFont
import Mikanos.Xhci.DriversConfigured
import Mikanos.Usb.MapRefinement
import Mikanos.Lib.Dialogue
import Mikanos.Pci.Ports
import Mikanos.Pci.HostController
import Mikanos.Loader.UefiMain
import Mikanos.Loader.KernelEntry
import Mikanos.Xhci.StartUp
import Mikanos.Xhci.MemoryOwnership
import Mikanos.Xhci.MemoryIsolation
